import HybridQuantum.Exchange.Yaml.Scalar.Block
import HybridQuantum.Exchange.Yaml.Scalar.Quoted

/-!
# Tokens of YAML texts

The tokens that a text is made of, and those among them that begin with an
indicator and a name: anchors, aliases, tags and directives.
-/

namespace HybridQuantum.Yaml

/-- How a scalar is written. -/
inductive Style where
  | plain
  | quoted
  | literal
  | folded
deriving DecidableEq, Repr

/-- A part of a text that has a meaning of its own. -/
inductive Token where
  | version (major minor : Nat)
  /-- A declared tag handle with the octets that it stands for. -/
  | handle (name : String) (meaning : List UInt8)
  | documentStart
  | documentEnd
  /-- The beginning of a block list. -/
  | beginList
  /-- The beginning of a block record. -/
  | beginRecord
  | endBlock
  | openList
  | closeList
  | openRecord
  | closeRecord
  /-- The mark of a block list item. -/
  | item
  | comma
  | key
  | value
  | anchor (name : String)
  /-- An alias. -/
  | reference (name : String)
  /-- A tag as the octets that follow a handle; without a handle they are all of it. -/
  | tag (handle : String) (octets : List UInt8)
  | scalar (style : Style) (text : String)
deriving DecidableEq, Repr

namespace Token

/-- The characters that may follow the name of an anchor. -/
def endsName (rest : List Char) : Bool :=
  atGap rest || rest.head?.any ['?', ':', ',', ']', '\x7d', '%', '@', '\x60'].contains

/-- The name of an anchor or an alias, the cursor standing at its indicator. -/
def name? (cursor : Cursor) : Option (String × Cursor) :=
  let (name, next) := cursor.skip.span isWord
  if name.isEmpty || !endsName next.rest then none else some (String.ofList name, next)

/-- The characters of tags; between angle brackets some flow indicators are among them. -/
def isTagChar (verbatim : Bool) (char : Char) : Bool :=
  isWord char || ";/?:@&=+$.!~*'()".toList.contains char ||
    (verbatim && (char == ',' || char == '[' || char == ']'))

/-- The octet of two hexadecimal digits. -/
def octet? (high low : Char) : Option Nat :=
  Plain.digitsIn? 16 [high, low]

/-- How many more octets of a character follow its first one. -/
def following? (octet : Nat) : Option Nat :=
  if octet < 0x80 then some 0
  else if 0xc0 ≤ octet ∧ octet < 0xe0 then some 1
  else if 0xe0 ≤ octet ∧ octet < 0xf0 then some 2
  else if 0xf0 ≤ octet ∧ octet < 0xf8 then some 3
  else none

/--
The octets of a tag, after those read, which are kept backwards, and what follows.
Octets may be written as digits after a percent sign; `missing` more belong to the
same character.
-/
def octetsFrom (verbatim : Bool) (read : List UInt8) (missing : Nat) :
    List Char → Option (List UInt8 × List Char)
  | [] => if missing = 0 then some (read.reverse, []) else none
  | '%' :: high :: low :: rest =>
      match octet? high low with
      | none => none
      | some octet =>
          let missing? :=
            if missing = 0 then following? octet
            else if 0x80 ≤ octet ∧ octet < 0xc0 then some (missing - 1)
            else none
          match missing? with
          | none => none
          | some missing => octetsFrom verbatim (UInt8.ofNat octet :: read) missing rest
  | char :: rest =>
      if missing ≠ 0 || char == '%' then none
      else if isTagChar verbatim char then
        octetsFrom verbatim (UInt8.ofNat char.toNat :: read) 0 rest
      else some (read.reverse, char :: rest)

/-- The octets of a tag at a cursor, and the place after them. -/
def octets? (verbatim : Bool) (cursor : Cursor) : Option (List UInt8 × Cursor) :=
  (octetsFrom verbatim [] 0 cursor.rest).map fun (octets, rest) =>
    (octets, cursor.advance (cursor.rest.length - rest.length))

/-- Octets that must be there. -/
def someOctets? (verbatim : Bool) (cursor : Cursor) : Option (List UInt8 × Cursor) :=
  (octets? verbatim cursor).filter fun (octets, _) => !octets.isEmpty

/-- Octets up to the first that is zero. -/
def cutZero (octets : List UInt8) : List UInt8 :=
  octets.takeWhile (· ≠ 0)

/-- A tag between angle brackets, the cursor standing behind the first of them. -/
def verbatimTag? (cursor : Cursor) : Option (Token × Cursor) := do
  let (octets, next) ← someOctets? true cursor
  match next.rest with
  | '>' :: _ => return (.tag "" (cutZero octets), next.skip)
  | _ => none

/-- A tag with a handle; without a name the handle is the indicator alone. -/
def shortTag? (cursor : Cursor) : Option (Token × Cursor) := do
  let (word, next) := cursor.skip.span isWord
  match next.rest with
  | '!' :: _ =>
      let (octets, next) ← someOctets? false next.skip
      return (.tag (String.ofList ('!' :: word ++ ['!'])) (cutZero octets), next)
  | _ =>
      let (octets, next) ← octets? false next
      let octets := cutZero (word.map (UInt8.ofNat ·.toNat) ++ octets)
      return (if octets.isEmpty then .tag "" "!".toUTF8.toList else .tag "!" octets, next)

/-- The tag at the cursor; a gap ends it, and in a flow collection a comma does too. -/
def tag? (inFlow : Bool) (cursor : Cursor) : Option (Token × Cursor) := do
  let (token, next) ← match cursor.rest with
    | _ :: '<' :: _ => verbatimTag? (cursor.advance 2)
    | _ => shortTag? cursor
  if atGap next.rest || (inFlow && next.rest.head? == some ',') then return (token, next)
  else none

/-- A number of a version, which has at most nine digits. -/
def versionNumber? (cursor : Cursor) : Option (Nat × Cursor) :=
  let (digits, next) := cursor.span Char.isDigit
  if digits.isEmpty || 9 < digits.length then none
  else some (Numeric.digitsValue digits, next)

/-- The two numbers of a version. -/
def version? (cursor : Cursor) : Option (Token × Cursor) := do
  let (major, next) ← versionNumber? cursor.skipBlanks
  match next.rest with
  | '.' :: _ =>
      let (minor, next) ← versionNumber? next.skip
      return (.version major minor, next)
  | _ => none

/-- A declared handle: the indicator alone, or a word between two of them. -/
def handleName? (cursor : Cursor) : Option (String × Cursor) :=
  match cursor.rest with
  | '!' :: _ =>
      let (word, next) := cursor.skip.span isWord
      match next.rest with
      | '!' :: _ => some (String.ofList ('!' :: word ++ ['!']), next.skip)
      | _ => if word.isEmpty then some ("!", next) else none
  | _ => none

/-- The declaration of a handle. -/
def handle? (cursor : Cursor) : Option (Token × Cursor) := do
  let (name, next) ← handleName? cursor.skipBlanks
  if next.rest.head?.any isBlank then
    let (octets, next) ← someOctets? true next.skipBlanks
    if atGap next.rest then return (.handle name (cutZero octets), next) else none
  else none

/-- The directive whose indicator stands at the cursor, up to the end of its line. -/
def directive? (cursor : Cursor) : Option (Token × Cursor) := do
  let (name, next) := cursor.skip.span isWord
  if !atGap next.rest then none
  else
    let (token, next) ← match String.ofList name with
      | "YAML" => version? next
      | "TAG" => handle? next
      | _ => none
    let next ← next.nextLine?
    return (token, next)

end Token

end HybridQuantum.Yaml
