import HybridQuantum.Exchange.Yaml.Layout
import HybridQuantum.FiniteMap

/-!
# Nodes

Tokens make one tree of nodes.  An alias stands for a node with an anchor, and
anchors are numbered as they come; where nothing is written stands an empty plain
scalar.  Readers of collections are nested as deeply as the text, so they get as
much fuel as there are tokens.
-/

namespace HybridQuantum.Yaml

/-- What is said about a node before its content. -/
structure Properties where
  anchor : Option Nat
  tag : Option (List UInt8)
deriving DecidableEq, Repr

/-- The properties of a scalar: the tag that is the indicator alone says nothing. -/
def Properties.ofScalar (properties : Properties) : Properties :=
  if properties.tag == some "!".toUTF8.toList then { properties with tag := none } else properties

/-- A part of a document. -/
inductive Node where
  /-- An alias. -/
  | reference (target : Nat)
  | scalar (properties : Properties) (style : Style) (text : String)
  | sequence (properties : Properties) (items : List Node)
  | mapping (properties : Properties) (entries : List (Node × Node))

namespace Node

def empty : Node :=
  .scalar ⟨none, none⟩ .plain ""

/-- What tag handles stand for. -/
abbrev Handles := FiniteMap String (List UInt8)

/-- The handles that need no declaration. -/
def standardHandles : Handles :=
  .ofList [("!", "!".toUTF8.toList), ("!!", "tag:yaml.org,2002:".toUTF8.toList)]

/-- The tokens that are left, and the numbers of the anchors so far. -/
structure State where
  tokens : List Token
  anchors : FiniteMap String Nat

/-- A part of the tokens that is read from the front. -/
abbrev Parse := StateT State Option

namespace Parse

def peek : Parse (Option Token) :=
  return (← get).tokens.head?

def skip : Parse Unit :=
  modify fun state => { state with tokens := state.tokens.drop 1 }

/-- Whether the next token is one of some. -/
def isAt (tokens : List Token) : Parse Bool :=
  return (← peek).any tokens.contains

/-- Pass over a token if it comes next. -/
def accept (token : Token) : Parse Bool := do
  if ← isAt [token] then
    skip
    return true
  else return false

/-- The number of a new anchor, which is the number of names so far. -/
def define (name : String) : Parse Nat := do
  let number := (← get).anchors.size
  modify fun state => { state with anchors := state.anchors.insert name number }
  return number

/-- The number of the anchor that an alias names. -/
def target (name : String) : Parse Nat := do
  (← get).anchors.get? name

end Parse

open Parse

/-- The octets of a tag; one without a handle stands for itself. -/
def resolveTag? (handles : Handles) (handle : String) (octets : List UInt8) :
    Option (List UInt8) :=
  if handle.isEmpty then some octets
  else (handles.get? handle).map (· ++ octets)

/-- The anchor that may stand here. -/
def anchor? : Parse (Option Nat) := do
  match ← peek with
  | some (.anchor name) =>
      skip
      return some (← define name)
  | _ => return none

/-- The tag that may stand here. -/
def tag? (handles : Handles) : Parse (Option (List UInt8)) := do
  match ← peek with
  | some (.tag handle octets) =>
      skip
      return some (← resolveTag? handles handle octets)
  | _ => return none

/-- The properties of a node, an anchor and a tag in either order. -/
def properties (handles : Handles) : Parse Properties := do
  let before ← anchor?
  let tag ← tag? handles
  let after ← if before.isNone && tag.isSome then anchor? else pure none
  return ⟨before <|> after, tag⟩

/-- Properties without content stand on an empty scalar. -/
def bare (properties : Properties) : Parse Node :=
  if properties == ⟨none, none⟩ then failure else return .scalar properties .plain ""

mutual

/-- A node; block collections and block lists at the margin may stand only where said. -/
def read (handles : Handles) : Nat → (inBlock outdented : Bool) → Parse Node
  | 0, _, _ => failure
  | fuel + 1, inBlock, outdented => do
      match ← peek with
      | some (.reference name) =>
          skip
          return .reference (← target name)
      | _ => readContent handles fuel inBlock outdented (← properties handles)

/-- A node that is no alias, after its properties. -/
def readContent (handles : Handles) :
    Nat → (inBlock outdented : Bool) → Properties → Parse Node
  | 0, _, _, _ => failure
  | fuel + 1, inBlock, outdented, properties => do
      match ← peek with
      | some (.scalar style text) =>
          skip
          return .scalar properties.ofScalar style text
      | some .openList =>
          skip
          return .sequence properties (← flowItems handles fuel true [])
      | some .openRecord =>
          skip
          return .mapping properties (← flowEntries handles fuel true [])
      | some .item =>
          if outdented then return .sequence properties (← outdentedItems handles fuel [])
          else bare properties
      | some .beginList =>
          if inBlock then
            skip
            return .sequence properties (← blockItems handles fuel [])
          else bare properties
      | some .beginRecord =>
          if inBlock then
            skip
            return .mapping properties (← blockEntries handles fuel [])
          else bare properties
      | _ => bare properties

/-- A node, or the empty one before certain tokens. -/
def readUnless (handles : Handles) :
    Nat → (ends : List Token) → (inBlock outdented : Bool) → Parse Node
  | 0, _, _, _ => failure
  | fuel + 1, ends, inBlock, outdented => do
      if ← isAt ends then return empty else read handles fuel inBlock outdented

/-- The value after a key; without an indicator it is empty. -/
def readValue (handles : Handles) : Nat → (ends : List Token) → (inBlock : Bool) → Parse Node
  | 0, _, _ => failure
  | fuel + 1, ends, inBlock => do
      if ← accept .value then readUnless handles fuel ends inBlock inBlock else return empty

/-- The items of a block list after those read, which are kept backwards. -/
def blockItems (handles : Handles) : Nat → List Node → Parse (List Node)
  | 0, _ => failure
  | fuel + 1, items => do
      if ← accept .item then
        let item ← readUnless handles fuel [.item, .endBlock] true false
        blockItems handles fuel (item :: items)
      else if ← accept .endBlock then return items.reverse
      else failure

/-- The items of a block list at the margin, which ends without a token of its own. -/
def outdentedItems (handles : Handles) : Nat → List Node → Parse (List Node)
  | 0, _ => failure
  | fuel + 1, items => do
      if ← accept .item then
        let item ← readUnless handles fuel [.item, .key, .value, .endBlock] true false
        outdentedItems handles fuel (item :: items)
      else return items.reverse

/-- The entries of a block record. -/
def blockEntries (handles : Handles) : Nat → List (Node × Node) → Parse (List (Node × Node))
  | 0, _ => failure
  | fuel + 1, entries => do
      if ← accept .key then
        let key ← readUnless handles fuel [.key, .value, .endBlock] true true
        let value ← readValue handles fuel [.key, .value, .endBlock] true
        blockEntries handles fuel ((key, value) :: entries)
      else if ← accept .endBlock then return entries.reverse
      else failure

/-- The items of a flow list; after the first each follows a comma, and so may the end. -/
def flowItems (handles : Handles) : Nat → (first : Bool) → List Node → Parse (List Node)
  | 0, _, _ => failure
  | fuel + 1, first, items => do
      if ← accept .closeList then return items.reverse
      else if first then flowItem handles fuel items
      else if ← accept .comma then
        if ← accept .closeList then return items.reverse else flowItem handles fuel items
      else failure

/-- An item of a flow list and those after it; one with a key is a record of one entry. -/
def flowItem (handles : Handles) : Nat → List Node → Parse (List Node)
  | 0, _ => failure
  | fuel + 1, items => do
      if ← accept .key then
        let entry ← flowPair handles fuel
        flowItems handles fuel false (.mapping ⟨none, none⟩ [entry] :: items)
      else
        let item ← read handles fuel false false
        flowItems handles fuel false (item :: items)

/-- The entry that is an item of a flow list; a token in place of its key is passed over. -/
def flowPair (handles : Handles) : Nat → Parse (Node × Node)
  | 0 => failure
  | fuel + 1 => do
      if ← isAt [.value, .comma, .closeList] then
        skip
        return (empty, ← readValue handles fuel [.comma, .closeList] false)
      else
        let key ← read handles fuel false false
        return (key, ← readValue handles fuel [.comma, .closeList] false)

/-- The entries of a flow record; after the first each follows a comma, and so may the end. -/
def flowEntries (handles : Handles) :
    Nat → (first : Bool) → List (Node × Node) → Parse (List (Node × Node))
  | 0, _, _ => failure
  | fuel + 1, first, entries => do
      if ← accept .closeRecord then return entries.reverse
      else if first then flowEntry handles fuel entries
      else if ← accept .comma then
        if ← accept .closeRecord then return entries.reverse else flowEntry handles fuel entries
      else failure

/-- An entry of a flow record and those after it; a key may stand alone. -/
def flowEntry (handles : Handles) : Nat → List (Node × Node) → Parse (List (Node × Node))
  | 0, _ => failure
  | fuel + 1, entries => do
      if ← accept .key then
        let key ← readUnless handles fuel [.value, .comma, .closeRecord] false false
        let value ← readValue handles fuel [.comma, .closeRecord] false
        flowEntries handles fuel false ((key, value) :: entries)
      else
        let key ← read handles fuel false false
        flowEntries handles fuel false ((key, empty) :: entries)

end

end Node

end HybridQuantum.Yaml
