import HybridQuantum.Exchange.Plain

/-!
# Data trees

What an exchanged text says before anyone asks what it means: scalars, lists and
records.  A record keeps its fields as they stand, repeated names included.  A
plain scalar has no kind of its own; whoever reads it decides.  A mark may say
more about a part of the tree, and a part that no reader can use is kept as such,
because a reader who does not ask for it does not mind.
-/

namespace HybridQuantum

/-- What a mark says about the part of a tree that it stands on. -/
inductive Mark where
  | null
  | bool
  | int
  | float
  /-- One of the variants of a choice, by its tag. -/
  | variant (tag : String)
  /-- A container that copies more of the text than may be stored. -/
  | overgrown
  /-- Something that nobody asks for. -/
  | foreign
deriving DecidableEq, Repr

/-- A tree of exchanged data. -/
inductive Datum where
  | null
  | bool (value : Bool)
  | number (numeral : Numeral)
  | string (text : String)
  /-- A scalar that may be read as a text, a number or nothing. -/
  | plain (text : String)
  /-- A text whose lines are kept; marked as an integer it may be read as one. -/
  | literal (text : String)
  /-- A list, which may also stand for the fields of a structure in order. -/
  | list (items : List Datum)
  /-- A list that stands for nothing else. -/
  | sequence (items : List Datum)
  | record (fields : List (String × Datum))
  /-- A record whose field names are data themselves. -/
  | mapping (entries : List (Datum × Datum))
  | marked (mark : Mark) (content : Datum)
  /-- A well-formed part that no reader can use. -/
  | unusable
deriving Inhabited

namespace Datum

mutual

/-- The number of containers that lie inside one another, a scalar counting as one. -/
def height : Datum → Nat
  | list items => heights items + 1
  | sequence items => heights items + 1
  | record fields => fieldHeights fields + 1
  | mapping entries => entryHeights entries + 1
  | marked _ content => content.height
  | _ => 1

def heights : List Datum → Nat
  | [] => 0
  | item :: rest => max item.height (heights rest)

def fieldHeights : List (String × Datum) → Nat
  | [] => 0
  | (_, content) :: rest => max content.height (fieldHeights rest)

/-- The greatest height of keys and contents. -/
def entryHeights : List (Datum × Datum) → Nat
  | [] => 0
  | (key, content) :: rest => max (max key.height content.height) (entryHeights rest)

end

mutual

/-- The datum with containers inside one another up to a limit; deeper ones are unusable. -/
def prune : Nat → Datum → Datum
  | limit + 1, list items => .list (pruneItems limit items)
  | 0, list _ => .unusable
  | limit + 1, record fields => .record (pruneFields limit fields)
  | 0, record _ => .unusable
  | _, datum => datum

def pruneItems (limit : Nat) : List Datum → List Datum
  | [] => []
  | item :: rest => item.prune limit :: pruneItems limit rest

def pruneFields (limit : Nat) : List (String × Datum) → List (String × Datum)
  | [] => []
  | (name, content) :: rest => (name, content.prune limit) :: pruneFields limit rest

end

def ofNat (number : Nat) : Datum :=
  .number (.integer false number)

def ofInt (number : Int) : Datum :=
  .number (.ofInt number)

/-- A floating-point number; one that is not finite has no numeral. -/
def ofFloat (number : Float) : Datum :=
  match Numeral.ofFloat? number with
  | some numeral => .number numeral
  | none => .null

/-- A value that may be missing. -/
def ofOption {α : Type} (encode : α → Datum) : Option α → Datum
  | some content => encode content
  | none => .null

def bool? : Datum → Option Bool
  | bool value => some value
  | _ => none

/-- The text of a scalar that may be one, whatever mark it has. -/
def text? : Datum → Option String
  | string text => some text
  | plain text => some text
  | literal text => some text
  | marked _ content => content.text?
  | _ => none

/-- The only character of a text. -/
def char? (datum : Datum) : Option Char :=
  match datum.text?.map String.toList with
  | some [char] => some char
  | _ => none

/-- The natural number of a scalar that may be one. -/
def nat? : Datum → Option Nat
  | number numeral => numeral.nat?
  | plain text => Plain.nat? text.toList
  | marked _ (plain text) => Plain.nat? text.toList
  | marked .int (literal text) => Plain.nat? text.toList
  | _ => none

def word32? (datum : Datum) : Option UInt32 :=
  datum.nat?.bind Word.ofNat32?

def word64? (datum : Datum) : Option UInt64 :=
  datum.nat?.bind Word.ofNat64?

def int64? : Datum → Option Int64
  | number numeral => numeral.int?.bind Word.ofInt64?
  | _ => none

def float? : Datum → Option Float
  | number numeral => numeral.float?
  | _ => none

/-- The items of a list; an empty plain scalar is an empty list. -/
def items? : Datum → Option (List Datum)
  | list items => some items
  | sequence items => some items
  | plain "" => some []
  | marked _ content => content.items?
  | _ => none

/-- Whether a datum says that nothing is there. -/
def isNothing : Datum → Bool
  | null => true
  | plain text => Plain.isNothing text
  | _ => false

/-- A value that may be missing; what is marked as null must be null. -/
def option? {α : Type} (decode : Datum → Option α) (datum : Datum) : Option (Option α) :=
  match datum with
  | marked .null (plain text) => if Plain.nullWords.contains text then some none else none
  | _ => if datum.isNothing then some none else (decode datum).map some

def list? {α : Type} (decode : Datum → Option α) (datum : Datum) : Option (List α) :=
  datum.items?.bind fun items => items.mapM decode

end Datum

end HybridQuantum
