import HybridQuantum.Exchange.Yaml.Token

/-!
# Layout

Block collections have no brackets: they begin where a line stands further in
and end where one stands further out.  A key need not be announced either; what
is read may turn out to be one when a colon follows on the same line, and then
the tokens that announce it are put in front of it afterwards.
-/

namespace HybridQuantum.Yaml

/-- A place where a key without an indicator may begin. -/
structure KeySpot where
  /-- The number of tokens before the key. -/
  number : Nat
  line : Nat
  column : Nat
  /-- Whether nothing but a key may stand there. -/
  required : Bool

/-- The greatest distance between the beginning of a key and its colon. -/
def keyReach : Nat := 1024

/-- How far a text has been scanned. -/
structure Layout where
  cursor : Cursor
  /-- The tokens so far. -/
  tokens : Array Token
  /-- The margins of the open block collections, innermost first. -/
  margins : List Nat
  /-- The place of a possible key in the innermost flow collection, or in none. -/
  spot : Option KeySpot
  /-- The same for the flow collections around it and for what is around all of them. -/
  outer : List (Option KeySpot)
  /-- Whether a key may begin here. -/
  keyAllowed : Bool

namespace Layout

def start (text : List Char) : Layout :=
  ⟨.start text, #[], [], none, [], true⟩

def inFlow (layout : Layout) : Bool :=
  !layout.outer.isEmpty

/-- The first column that belongs to the content of the innermost block collection. -/
def margin (layout : Layout) : Nat :=
  layout.margins.headD 0

/-- Where the next scalar stands. -/
def place (layout : Layout) : Place :=
  ⟨layout.inFlow, layout.margin⟩

/-- The layout with one more token, which ends at `next`. -/
def emit (layout : Layout) (token : Token) (next : Cursor) : Layout :=
  { layout with tokens := layout.tokens.push token, cursor := next }

/-- Skip blanks, comments and line breaks; after a line break a block key may begin. -/
def gapFrom (inFlow inComment keyAllowed : Bool) (line column : Nat) : List Char → Bool × Cursor
  | [] => (keyAllowed, ⟨[], line, column⟩)
  | char :: rest =>
      if isBreak char then
        gapFrom inFlow false (keyAllowed || !inFlow) (line + 1) 0 rest
      else if inComment || char == ' ' || (char == '\t' && (inFlow || !keyAllowed)) ||
          (char == byteOrderMark && column == 0) then
        gapFrom inFlow inComment keyAllowed line (column + 1) rest
      else if char == '#' then gapFrom inFlow true keyAllowed line (column + 1) rest
      else (keyAllowed, ⟨char :: rest, line, column⟩)

/-- The layout at the next token. -/
def skipGap (layout : Layout) : Layout :=
  let (keyAllowed, cursor) :=
    gapFrom layout.inFlow false layout.keyAllowed layout.cursor.line layout.cursor.column
      layout.cursor.rest
  { layout with keyAllowed, cursor }

/-- Forget the place of a possible key, which must not be required. -/
def dropSpot? (layout : Layout) : Option Layout :=
  match layout.spot with
  | some spot => if spot.required then none else some { layout with spot := none }
  | none => some layout

/-- Whether a key that begins at `spot` may still end at a cursor. -/
def reaches (cursor : Cursor) (spot : KeySpot) : Bool :=
  cursor.line ≤ spot.line && cursor.column ≤ spot.column + keyReach

/-- A place for a key, forgotten once the cursor is out of its reach. -/
def keepSpot? (cursor : Cursor) : Option KeySpot → Option (Option KeySpot)
  | none => some none
  | some spot =>
      if reaches cursor spot then some (some spot)
      else if spot.required then none
      else some none

/-- Forget all places for keys that are out of reach. -/
def keepSpots? (layout : Layout) : Option Layout := do
  let spot ← keepSpot? layout.cursor layout.spot
  let outer ← layout.outer.mapM (keepSpot? layout.cursor)
  return { layout with spot, outer }

/-- Remember that a key may begin at the cursor. -/
def saveSpot? (layout : Layout) : Option Layout :=
  if layout.keyAllowed then do
    let layout ← layout.dropSpot?
    let column := layout.cursor.column
    let required := !layout.inFlow && layout.margin == column + 1
    let spot := ⟨layout.tokens.size, layout.cursor.line, column, required⟩
    return { layout with spot := some spot }
  else some layout

/-- Put a token in front of the one with a number. -/
def insertAt (layout : Layout) (number : Nat) (token : Token) : Layout :=
  { layout with tokens := layout.tokens.insertIdxIfInBounds number token }

/-- Begin a block collection in a column that lies at the margin or beyond. -/
def beginBlock (layout : Layout) (column number : Nat) (token : Token) : Layout :=
  if !layout.inFlow && layout.margin ≤ column then
    { layout.insertAt number token with margins := (column + 1) :: layout.margins }
  else layout

/-- Begin a block collection at the cursor. -/
def beginBlockHere (layout : Layout) (token : Token) : Layout :=
  layout.beginBlock layout.cursor.column layout.tokens.size token

/-- The margins up to `least`, and the tokens with an end for each of the others. -/
def endBlocks (least : Nat) (tokens : Array Token) : List Nat → Array Token × List Nat
  | [] => (tokens, [])
  | margin :: margins =>
      if least < margin then endBlocks least (tokens.push .endBlock) margins
      else (tokens, margin :: margins)

/-- End the block collections whose margin lies beyond `least`; flow collections have no layout. -/
def unwind (layout : Layout) (least : Nat) : Layout :=
  if layout.inFlow then layout
  else
    let (tokens, margins) := endBlocks least layout.tokens layout.margins
    { layout with tokens, margins }

/-- End all block collections; no key may be missing. -/
def unwindAll? (layout : Layout) : Option Layout :=
  (layout.unwind 0).dropSpot?.map fun layout => { layout with keyAllowed := false }

/-- A mark of three characters between documents. -/
def documentMark? (layout : Layout) (token : Token) : Option Layout :=
  layout.unwindAll?.map fun layout => layout.emit token (layout.cursor.advance 3)

def directive? (layout : Layout) : Option Layout := do
  let layout ← layout.unwindAll?
  let (token, next) ← Token.directive? layout.cursor
  return layout.emit token next

def openFlow? (layout : Layout) (token : Token) : Option Layout := do
  let layout ← layout.saveSpot?
  return { layout.emit token layout.cursor.skip with
    spot := none, outer := layout.spot :: layout.outer, keyAllowed := true }

def closeFlow? (layout : Layout) (token : Token) : Option Layout := do
  let layout ← layout.dropSpot?
  let closed := { layout.emit token layout.cursor.skip with keyAllowed := false }
  match layout.outer with
  | [] => return closed
  | spot :: outer => return { closed with spot, outer }

def comma? (layout : Layout) : Option Layout := do
  let layout ← layout.dropSpot?
  return { layout.emit .comma layout.cursor.skip with keyAllowed := true }

/-- An indicator that may begin a block collection, where a key may begin. -/
def indicator? (layout : Layout) (collection token : Token) (keyAllowed : Bool) :
    Option Layout :=
  if layout.inFlow || layout.keyAllowed then do
    let layout ← (layout.beginBlockHere collection).dropSpot?
    return { layout.emit token layout.cursor.skip with keyAllowed }
  else none

/-- A colon: what stands at the remembered place was a key, or there is no key. -/
def value? (layout : Layout) : Option Layout :=
  match layout.spot with
  | some spot =>
      let keyed := layout.insertAt spot.number .key
      let layout := keyed.beginBlock spot.column spot.number .beginRecord
      some { layout.emit .value layout.cursor.skip with spot := none, keyAllowed := false }
  | none => layout.indicator? .beginRecord .value (!layout.inFlow)

/-- A token that may begin a key. -/
def keyPart? (layout : Layout) (read : Cursor → Option (Token × Cursor)) : Option Layout := do
  let layout ← layout.saveSpot?
  let (token, next) ← read layout.cursor
  return { layout.emit token next with keyAllowed := false }

/-- A plain scalar; after the line breaks that it has read a key may begin. -/
def plain? (layout : Layout) : Option Layout := do
  let layout ← layout.saveSpot?
  let scalar ← PlainScalar.read? layout.place layout.cursor
  return { layout.emit (.scalar .plain scalar.text) scalar.next with keyAllowed := scalar.endsLine }

def block? (layout : Layout) (style : Style) : Option Layout := do
  let layout ← layout.dropSpot?
  let (text, next) ← Block.read? (style == .folded) layout.margin layout.cursor
  return { layout.emit (.scalar style text) next with keyAllowed := true }

/-- The characters that no plain scalar begins with, unless what follows allows it. -/
def indicators : List Char :=
  ['-', '?', ':', ',', '[', ']', '\x7b', '\x7d', '#', '&', '*', '!', '|', '>', '\'', '"', '%',
    '@', '\x60']

/-- Whether a plain scalar begins here. -/
def beginsPlain (inFlow : Bool) (char : Char) (rest : List Char) : Bool :=
  !(isBlank char || indicators.contains char) ||
    (char == '-' && !rest.head?.any isBlank) ||
    (!inFlow && (char == '?' || char == ':') && !atGap rest)

/-- The next token, which begins with `char`. -/
def token? (layout : Layout) (char : Char) (rest : List Char) : Option Layout :=
  let atMark := layout.cursor.column == 0 && atDocumentMark (char :: rest)
  let inFlow := layout.inFlow
  match char with
  | '%' => if layout.cursor.column == 0 then layout.directive? else none
  | '[' => layout.openFlow? .openList
  | '\x7b' => layout.openFlow? .openRecord
  | ']' => layout.closeFlow? .closeList
  | '\x7d' => layout.closeFlow? .closeRecord
  | ',' => layout.comma?
  | '*' => layout.keyPart? fun cursor =>
      (Token.name? cursor).map fun (name, next) => (.reference name, next)
  | '&' => layout.keyPart? fun cursor =>
      (Token.name? cursor).map fun (name, next) => (.anchor name, next)
  | '!' => layout.keyPart? (Token.tag? inFlow)
  | '\'' => layout.keyPart? fun cursor =>
      (Quoted.single? cursor).map fun (text, next) => (.scalar .quoted text, next)
  | '"' => layout.keyPart? fun cursor =>
      (Quoted.double? cursor).map fun (text, next) => (.scalar .quoted text, next)
  | '|' => if inFlow then none else layout.block? .literal
  | '>' => if inFlow then none else layout.block? .folded
  | _ =>
      if atMark then layout.documentMark? (if char == '-' then .documentStart else .documentEnd)
      else if char == '-' && atGap rest then layout.indicator? .beginList .item true
      else if char == '?' && (inFlow || atGap rest) then
        layout.indicator? .beginRecord .key (!inFlow)
      else if char == ':' && (inFlow || atGap rest) then layout.value?
      else if beginsPlain inFlow char rest then layout.plain?
      else none

/-- The layout at the next token, block collections that end before it being closed. -/
def next? (layout : Layout) : Option Layout :=
  layout.skipGap.keepSpots?.map fun layout => layout.unwind (layout.cursor.column + 1)

/-- The tokens of a text that has fewer than `fuel` characters left, each token taking some. -/
def scanWithin? : Nat → Layout → Option (Array Token)
  | 0, _ => none
  | fuel + 1, layout => do
      let layout ← layout.next?
      match layout.cursor.rest with
      | [] => layout.unwindAll?.map (·.tokens)
      | char :: rest => scanWithin? fuel (← layout.token? char rest)

end Layout

def tokens? (text : String) : Option (List Token) := do
  let content ← prepare? text
  let tokens ← (Layout.start content).scanWithin? (content.length + 1)
  return tokens.toList

end HybridQuantum.Yaml
