import HybridQuantum.Exchange.Datum

/-!
# Fields and variants

A structure is written as a record, or as a list of its fields in order.  A
record may have fields nobody asks for, but none of the others twice; a list may
end early where the fields left out have a default.  In stored content a key may
also be the place of a field.  A variant is written as its tag, as a record with
the tag as its only field and the content under it, or as a mark.
-/

namespace HybridQuantum

/-- The fields of a structure, by name. -/
structure Fields where
  entries : List (String × Datum)
  /-- Whether the fields were given by position. -/
  positional : Bool

namespace Fields

/-- Fields by name, of which none that is asked for is there twice. -/
def ofNamed? (names : List String) (entries : List (String × Datum)) : Option Fields :=
  if names.all fun name => entries.countP (·.1 == name) ≤ 1 then some ⟨entries, false⟩
  else none

/-- The fields of a structure with the given field names, each key being a text. -/
def of? (names : List String) : Datum → Option Fields
  | .record entries => ofNamed? names entries
  | .mapping entries => do
      let entries ← entries.mapM fun (key, content) => key.text?.map (·, content)
      ofNamed? names entries
  | .list items => if items.length ≤ names.length then some ⟨names.zip items, true⟩ else none
  | .plain "" => some ⟨[], false⟩
  | .marked _ content => of? names content
  | _ => none

/--
The field that a stored key stands for: a text names it and a number counts it.  A
number beyond the last field stands for none of them.
-/
def keyName? (names : List String) : Datum → Option (Option String)
  | .string name => some (some name)
  | .number (.integer false place) => some names[place]?
  | _ => none

/-- The fields of a structure in stored content. -/
def ofStored? (names : List String) : Datum → Option Fields
  | .mapping entries => do
      let entries ← entries.mapM fun (key, content) =>
        (keyName? names key).map fun name => name.map (·, content)
      ofNamed? names (entries.filterMap id)
  | datum => of? names datum

variable {α : Type}

def required (fields : Fields) (name : String) (decode : Datum → Option α) : Option α :=
  (fields.entries.lookup name).bind decode

/-- A field whose value may be missing; by position it must still be there. -/
def optional (fields : Fields) (name : String) (decode : Datum → Option α) :
    Option (Option α) :=
  match fields.entries.lookup name with
  | some content => content.option? decode
  | none => if fields.positional then none else some none

/-- A field that takes a default when it is not there. -/
def defaulted (fields : Fields) (name : String) (default : α) (decode : Datum → Option α) :
    Option α :=
  match fields.entries.lookup name with
  | some content => decode content
  | none => some default

end Fields

namespace Datum

/--
The tag of a variant with its content, if it has any.  A mark with a tag stands on
nothing else.
-/
def variant? : Datum → Option (String × Option Datum)
  | record [(tag, content)] => some (tag, some content)
  | marked (.variant tag) content => if content.isNothing then some (tag, none) else none
  | datum => datum.text?.map (·, none)

/-- The tag and the content of a variant that has some. -/
def tagged? (datum : Datum) : Option (String × Datum) :=
  match datum.variant? with
  | some (tag, some content) => some (tag, content)
  | _ => none

/-- The tag of a variant without content. -/
def tag? (datum : Datum) : Option String :=
  match datum.variant? with
  | some (tag, none) => some tag
  | some (tag, some .null) => some tag
  | _ => none

/-- One of finitely many values under their tags. -/
def choice? {α : Type} (tagOf : α → String) (choices : List α) (datum : Datum) : Option α :=
  datum.tag?.bind fun tag => choices.find? fun choice => tagOf choice == tag

/-- A variant with content under its tag. -/
def tagged (tag : String) (content : Datum) : Datum :=
  .record [(tag, content)]

end Datum

end HybridQuantum
