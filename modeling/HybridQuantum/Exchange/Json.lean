import HybridQuantum.Exchange.Datum

/-!
# JSON texts

Reading goes in two passes, each one step per input: characters become tokens,
and tokens close lists and records on a stack of open ones.  A text with half a
surrogate pair is well formed but unusable, and so are a record with such a name
and containers that nest beyond a limit.  Writing is compact, and only quotes,
backslashes and control characters are escaped.
-/

namespace HybridQuantum.Json

/-- The tokens of a JSON text. -/
inductive Token where
  | openList
  | closeList
  | openRecord
  | closeRecord
  | comma
  | colon
  /-- A text, unless it has half a surrogate pair. -/
  | text (content : Option String)
  /-- A number, a truth value or null. -/
  | word (content : Datum)

/-- A part of a text. -/
inductive Piece where
  | char (content : Char)
  /-- A code unit that is written as a number. -/
  | unit (value : Nat)

/-- Where the scanner stands between two characters; what it has read is kept backwards. -/
inductive Mode where
  | gap
  /-- In a number or a fixed word. -/
  | word (read : List Char)
  | text (read : List Piece)
  /-- After a backslash in a text. -/
  | escape (read : List Piece)
  /-- In the digits of a code unit. -/
  | unit (read : List Piece) (missing value : Nat)

/-- The characters between tokens. -/
def isBlank (char : Char) : Bool :=
  char == ' ' || char == '\n' || char == '\t' || char == '\r'

/-- The tokens of one character. -/
def punctuation? : Char → Option Token
  | '[' => some .openList
  | ']' => some .closeList
  | '\x7b' => some .openRecord
  | '\x7d' => some .closeRecord
  | ',' => some .comma
  | ':' => some .colon
  | _ => none

/-- What a word stands for. -/
def wordDatum? (word : List Char) : Option Datum :=
  match String.ofList word with
  | "null" => some .null
  | "true" => some (.bool true)
  | "false" => some (.bool false)
  | _ => (Numeral.ofWord? word).map .number

/-- The character of an escape of one letter. -/
def letterEscape? : Char → Option Char
  | '"' => some '"'
  | '\\' => some '\\'
  | '/' => some '/'
  | 'b' => some '\x08'
  | 'f' => some '\x0c'
  | 'n' => some '\n'
  | 'r' => some '\r'
  | 't' => some '\t'
  | _ => none

def hexValue? (digit : Char) : Option Nat :=
  Plain.digitsIn? 16 [digit]

/-- The first half of a surrogate pair. -/
def isLead (unit : Nat) : Bool :=
  0xd800 ≤ unit && unit < 0xdc00

/-- The second half of a surrogate pair. -/
def isTrail (unit : Nat) : Bool :=
  0xdc00 ≤ unit && unit < 0xe000

/-- The character of a surrogate pair. -/
def pairChar (lead trail : Nat) : Char :=
  Char.ofNat (0x10000 + (lead - 0xd800) * 0x400 + (trail - 0xdc00))

/-- The characters at the end of a text, perhaps after the second half of a surrogate pair. -/
structure Ending where
  trail : Option Nat
  chars : List Char

/-- One more piece before the end of a text; surrogates come in pairs. -/
def Ending.push? (ending : Ending) : Piece → Option Ending
  | .char content =>
      match ending.trail with
      | some _ => none
      | none => some ⟨none, content :: ending.chars⟩
  | .unit value =>
      match ending.trail with
      | some trail =>
          if isLead value then some ⟨none, pairChar value trail :: ending.chars⟩ else none
      | none =>
          if isTrail value then some ⟨some value, ending.chars⟩
          else if isLead value then none
          else some ⟨none, Char.ofNat value :: ending.chars⟩

/-- The text of pieces that are kept backwards. -/
def pieceText? (read : List Piece) : Option String :=
  match read.foldlM Ending.push? ⟨none, []⟩ with
  | some ⟨none, chars⟩ => some (String.ofList chars)
  | _ => none

/-- One character between tokens. -/
def stepGap (char : Char) : Option (Mode × List Token) :=
  if isBlank char then some (.gap, [])
  else if char == '"' then some (.text [], [])
  else match punctuation? char with
    | some token => some (.gap, [token])
    | none => some (.word [char], [])

/-- One character inside a text, after any escape. -/
def stepText (read : List Piece) (char : Char) : Option (Mode × List Token) :=
  if char == '"' then some (.gap, [.text (pieceText? read)])
  else if char == '\\' then some (.escape read, [])
  else if char.toNat < 0x20 then none
  else some (.text (.char char :: read), [])

/-- Whether a character ends a word. -/
def endsWord (char : Char) : Bool :=
  isBlank char || char == '"' || (punctuation? char).isSome

/-- One character: the next mode and the tokens that it completes. -/
def step : Mode → Char → Option (Mode × List Token)
  | .gap, char => stepGap char
  | .word read, char =>
      if endsWord char then do
        let datum ← wordDatum? read.reverse
        let (mode, tokens) ← stepGap char
        return (mode, .word datum :: tokens)
      else some (.word (char :: read), [])
  | .text read, char => stepText read char
  | .escape read, 'u' => some (.unit read 4 0, [])
  | .escape read, char =>
      (letterEscape? char).map fun meant => (.text (.char meant :: read), [])
  | .unit read missing value, char => do
      let value := 16 * value + (← hexValue? char)
      if missing ≤ 1 then return (.text (.unit value :: read), [])
      else return (.unit read (missing - 1) value, [])

/-- The tokens that the end of a text completes. -/
def finish : Mode → Option (List Token)
  | .gap => some []
  | .word read => (wordDatum? read.reverse).map fun datum => [.word datum]
  | _ => none

/-- One character, with the tokens so far kept backwards. -/
def scanChar (state : Mode × List Token) (char : Char) : Option (Mode × List Token) :=
  (step state.1 char).map fun (mode, tokens) => (mode, tokens.reverse ++ state.2)

/-- The tokens of a text. -/
def scan (text : List Char) : Option (List Token) := do
  let (mode, tokens) ← text.foldlM scanChar (.gap, [])
  let last ← finish mode
  return tokens.reverse ++ last

/-- Fields of a record that may have unusable names. -/
abbrev RawFields := List (Option String × Datum)

/-- The record of fields, which is unusable when one of their names is. -/
def recordOf (fields : RawFields) : Datum :=
  match fields.mapM fun (name, content) => name.map (·, content) with
  | some fields => .record fields
  | none => .unusable

/-- A container that is still open, its content kept backwards. -/
inductive Frame where
  | list (items : List Datum)
  /-- A record, and the name of the field whose content comes next. -/
  | record (fields : RawFields) (name : Option String)

/-- What may come next, inside the open containers. -/
inductive Stage where
  | value (frames : List Frame)
  /-- A value or the end of a list that has just been opened. -/
  | firstItem (frames : List Frame)
  /-- A name or the end of a record that has just been opened. -/
  | firstName (frames : List Frame)
  | name (fields : RawFields) (frames : List Frame)
  | colon (fields : RawFields) (name : Option String) (frames : List Frame)
  /-- A complete value: what encloses it goes on or ends. -/
  | complete (datum : Datum) (frames : List Frame)

/-- The first token of a value. -/
def start (frames : List Frame) : Token → Option Stage
  | .text (some content) => some (.complete (.string content) frames)
  | .text none => some (.complete .unusable frames)
  | .word content => some (.complete content frames)
  | .openList => some (.firstItem frames)
  | .openRecord => some (.firstName frames)
  | _ => none

/-- One token. -/
def advance : Stage → Token → Option Stage
  | .value frames, token => start frames token
  | .firstItem frames, .closeList => some (.complete (.list []) frames)
  | .firstItem frames, token => start (.list [] :: frames) token
  | .firstName frames, .closeRecord => some (.complete (.record []) frames)
  | .firstName frames, .text name => some (.colon [] name frames)
  | .name fields frames, .text name => some (.colon fields name frames)
  | .colon fields name frames, .colon => some (.value (.record fields name :: frames))
  | .complete datum (.list items :: frames), .comma =>
      some (.value (.list (datum :: items) :: frames))
  | .complete datum (.list items :: frames), .closeList =>
      some (.complete (.list (datum :: items).reverse) frames)
  | .complete datum (.record fields name :: frames), .comma =>
      some (.name ((name, datum) :: fields) frames)
  | .complete datum (.record fields name :: frames), .closeRecord =>
      some (.complete (recordOf ((name, datum) :: fields).reverse) frames)
  | _, _ => none

/-- The one value that tokens write. -/
def assemble (tokens : List Token) : Option Datum :=
  match tokens.foldlM advance (.value []) with
  | some (.complete datum []) => some datum
  | _ => none

/-- Read a text with containers that nest without a limit. -/
def readDeep (text : String) : Option Datum :=
  (scan text.toList).bind assemble

/-- The nesting that exchanged texts may use. -/
def exchangeLimit : Nat := 127

/-- Read an exchanged text. -/
def read (text : String) : Option Datum :=
  (readDeep text).map (Datum.prune exchangeLimit)

/-- A control character as a code unit. -/
def unitEscape (char : Char) : List Char :=
  let digits := Nat.toDigits 16 char.toNat
  '\\' :: 'u' :: List.replicate (4 - digits.length) '0' ++ digits

/-- How a character is written inside a text. -/
def writeChar : Char → List Char
  | '"' => ['\\', '"']
  | '\\' => ['\\', '\\']
  | '\n' => ['\\', 'n']
  | '\r' => ['\\', 'r']
  | '\t' => ['\\', 't']
  | char => if char.toNat < 0x20 then unitEscape char else [char]

def writeText (text : String) : String :=
  "\"" ++ String.ofList (text.toList.flatMap writeChar) ++ "\""

mutual

/-- Write a value without white space; what is unusable is null. -/
def write : Datum → String
  | .null => "null"
  | .bool value => if value then "true" else "false"
  | .number numeral => numeral.text
  | .string text => writeText text
  | .plain text => writeText text
  | .literal text => writeText text
  | .list items => "[" ++ ",".intercalate (writeItems items) ++ "]"
  | .sequence items => "[" ++ ",".intercalate (writeItems items) ++ "]"
  | .record fields => "\x7b" ++ ",".intercalate (writeFields fields) ++ "\x7d"
  | .mapping entries => "\x7b" ++ ",".intercalate (writeEntries entries) ++ "\x7d"
  | .marked _ content => write content
  | .unusable => "null"

def writeItems : List Datum → List String
  | [] => []
  | item :: rest => write item :: writeItems rest

def writeFields : List (String × Datum) → List String
  | [] => []
  | (name, content) :: rest => (writeText name ++ ":" ++ write content) :: writeFields rest

/-- Write entries whose keys are texts. -/
def writeEntries : List (Datum × Datum) → List String
  | [] => []
  | (key, content) :: rest =>
      (writeText (key.text?.getD "") ++ ":" ++ write content) :: writeEntries rest

end

end HybridQuantum.Json
