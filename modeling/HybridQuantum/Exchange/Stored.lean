import HybridQuantum.Exchange.Datum

/-!
# Stored data

Content that is stored before anyone asks what it means has to be of some kind
at once.  A plain scalar is then what it looks like, a mark settles the kind of a
scalar, and every part must be usable: numbers in range, no variants, and no
container that copies too much.
-/

namespace HybridQuantum.Datum

/--
The datum of a whole number.  One of up to 128 bits that is no 64-bit word cannot
be stored.
-/
def storedInteger? : Numeral → Option Datum
  | .integer false magnitude =>
      if magnitude < UInt64.size then some (.number (.integer false magnitude)) else none
  | .integer true magnitude =>
      if magnitude ≤ Word.signedLimit then some (.number (.integer true magnitude)) else none
  | .decimal _ _ _ _ => none

/-- Whether a numeral is a whole number of 128 bits. -/
def isWide : Numeral → Bool
  | .integer false magnitude => magnitude < UInt64.size * UInt64.size
  | .integer true magnitude => magnitude ≤ UInt64.size * Word.signedLimit
  | .decimal _ _ _ _ => false

/-- The whole number that a word stands for, unless it has more than 128 bits. -/
def wideInteger? (word : String) : Option Numeral :=
  (Plain.integer? word.toList).filter isWide

/-- The floating-point number that a word stands for; one that is not finite is of no use. -/
def storedDecimal? (word : String) : Option Datum :=
  if Plain.unboundedWords.contains word then some .unusable
  else (Plain.decimal? word.toList).map .number

/-- What a plain scalar looks like. -/
def storedPlain? (word : String) : Option Datum :=
  if Plain.isNothing word then some .null
  else match Plain.bool? word, wideInteger? word with
    | some value, _ => some (.bool value)
    | none, some numeral => storedInteger? numeral
    | none, none =>
        if Plain.hasLeadingZeros word.toList then some (.string word)
        else some ((storedDecimal? word).getD (.string word))

/-- What a marked scalar is: its text must be of the kind that the mark says. -/
def storedMarked? (word : String) : Mark → Option Datum
  | .null => if Plain.nullWords.contains word then some .null else none
  | .bool => (Plain.bool? word).map .bool
  | .int => (wideInteger? word).bind storedInteger?
  | .float => storedDecimal? word
  | .variant _ => none
  | .overgrown => none
  | .foreign => some (.string word)

mutual

/-- The datum as it is stored. -/
def stored? : Datum → Option Datum
  | null => some .null
  | bool value => some (.bool value)
  | number numeral => numeral.float?.map fun _ => .number numeral
  | string text => some (.string text)
  | plain text => storedPlain? text
  | literal text => some (.string text)
  | list items => (storedItems? items).map .list
  | sequence items => (storedItems? items).map .list
  | record fields => (storedFields? fields).map .record
  | mapping entries => (storedEntries? entries).map .mapping
  | marked mark content =>
      match content.text? with
      | some text => storedMarked? text mark
      | none =>
          match mark with
          | .variant _ => none
          | .overgrown => none
          | _ => content.stored?
  | unusable => none

def storedItems? : List Datum → Option (List Datum)
  | [] => some []
  | item :: rest => do
      let item ← item.stored?
      let rest ← storedItems? rest
      return item :: rest

def storedFields? : List (String × Datum) → Option (List (String × Datum))
  | [] => some []
  | (name, content) :: rest => do
      let content ← content.stored?
      let rest ← storedFields? rest
      return (name, content) :: rest

def storedEntries? : List (Datum × Datum) → Option (List (Datum × Datum))
  | [] => some []
  | (key, content) :: rest => do
      let key ← key.stored?
      let content ← content.stored?
      let rest ← storedEntries? rest
      return (key, content) :: rest

end

end HybridQuantum.Datum
