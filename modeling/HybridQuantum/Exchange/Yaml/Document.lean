import HybridQuantum.Exchange.Yaml.Node

/-!
# Documents

A text holds one document, perhaps after directives.  Its data tree has copies
of anchored content in place of the aliases.  Containers nest up to a limit, and
one that copies too much is marked: it may be looked into, but not stored.
-/

namespace HybridQuantum.Yaml

/-- What a tag says. -/
def markOf (tag : List UInt8) : Mark :=
  match String.fromUTF8? ⟨tag.toArray⟩ with
  | some "tag:yaml.org,2002:null" => .null
  | some "tag:yaml.org,2002:bool" => .bool
  | some "tag:yaml.org,2002:int" => .int
  | some "tag:yaml.org,2002:float" => .float
  | some text =>
      match text.toList with
      | '!' :: name => .variant (String.ofList name)
      | _ => .foreign
  | none => .foreign

/-- A datum with what the properties of its node say about it. -/
def Properties.apply (properties : Properties) (content : Datum) : Datum :=
  match properties.tag with
  | some tag => .marked (markOf tag) content
  | none => content

/-- The datum of a scalar in a style. -/
def Style.datum : Style → String → Datum
  | .plain, text => .plain text
  | .quoted, text => .string text
  | .literal, text => .literal text
  | .folded, text => .string text

namespace Node

mutual

/-- The nodes with anchors, each before those inside it. -/
def anchored : Node → List (Nat × Node)
  | reference _ => []
  | node@(scalar properties _ _) => (properties.anchor.map (·, node)).toList
  | node@(sequence properties items) =>
      (properties.anchor.map (·, node)).toList ++ anchoredItems items
  | node@(mapping properties entries) =>
      (properties.anchor.map (·, node)).toList ++ anchoredEntries entries

def anchoredItems : List Node → List (Nat × Node)
  | [] => []
  | item :: rest => item.anchored ++ anchoredItems rest

def anchoredEntries : List (Node × Node) → List (Nat × Node)
  | [] => []
  | (key, value) :: rest => key.anchored ++ value.anchored ++ anchoredEntries rest

end

mutual

/-- The number of scalars, aliases and ends of collections. -/
def size : Node → Nat
  | reference _ => 1
  | scalar _ _ _ => 1
  | sequence _ items => sizeItems items + 2
  | mapping _ entries => sizeEntries entries + 2

def sizeItems : List Node → Nat
  | [] => 0
  | item :: rest => item.size + sizeItems rest

def sizeEntries : List (Node × Node) → Nat
  | [] => 0
  | (key, value) :: rest => key.size + value.size + sizeEntries rest

end

/-- Whether a node is an alias. -/
def isReference : Node → Bool
  | reference _ => true
  | _ => false

/--
The node that an alias stands for.  The state counts the aliases that have been
followed; inside a copy there is a bound for it.
-/
def follow (targets : List (Nat × Node)) (bound : Option Nat) :
    Node → StateM Nat (Option Node)
  | .reference target => do
      let followed ← get
      if bound.all (followed < ·) then
        set (followed + 1)
        return targets.lookup target
      else return none
  | node => return some node

/-- A container that follows more aliases than are allowed for one is marked so. -/
def weigh (allowance before after : Nat) (content : Datum) : Datum :=
  if before + allowance < after then .marked .overgrown content else content

/--
The datum of a node whose containers nest up to a limit; other parts are unusable.
A copy is not followed any further than one container may be.
-/
def datum (targets : List (Nat × Node)) (allowance : Nat) :
    Nat → (bound : Option Nat) → Node → StateM Nat Datum
  | 0, bound, node => do
      match ← follow targets bound node with
      | some (.scalar properties style text) => return properties.apply (style.datum text)
      | _ => return .unusable
  | limit + 1, bound, node => do
      let before ← get
      let bound := if node.isReference then bound <|> some (before + allowance) else bound
      let inner := datum targets allowance limit bound
      match ← follow targets bound node with
      | some (.scalar properties style text) => return properties.apply (style.datum text)
      | some (.sequence properties items) =>
          let items ← items.mapM inner
          return weigh allowance before (← get) (properties.apply (.sequence items))
      | some (.mapping properties entries) =>
          let entries ← entries.mapM fun (key, value) => return (← inner key, ← inner value)
          return weigh allowance before (← get) (properties.apply (.mapping entries))
      | _ => return .unusable

end Node

/-- The nesting that documents may use. -/
def nestingLimit : Nat := 128

/-- How many aliases one container may follow for each part of its document. -/
def aliasLimit : Nat := 100

/-- The datum of a document; of several nodes under one anchor number the last counts. -/
def documentDatum (root : Node) : Datum :=
  let allowance := aliasLimit * root.size
  ((root.datum root.anchored.reverse allowance nestingLimit none).run 0).1

/-- The directives before a document: at most one version, and each handle once. -/
structure Directives where
  hasVersion : Bool
  handles : Node.Handles

/-- One more directive; the versions 1.1 and 1.2 are known. -/
def Directives.push? (directives : Directives) : Token → Option Directives
  | .version major minor =>
      if !directives.hasVersion && major == 1 && (minor == 1 || minor == 2) then
        some { directives with hasVersion := true }
      else none
  | .handle name meaning =>
      if directives.handles.contains name then none
      else some { directives with handles := directives.handles.insert name meaning }
  | _ => none

def isDirective : Token → Bool
  | .version _ _ => true
  | .handle _ _ => true
  | _ => false

/-- The handles of a document: those that are declared, then the standard ones. -/
def Directives.allHandles (directives : Directives) : Node.Handles :=
  .ofList (Node.standardHandles.entries ++ directives.handles.entries)

/-- The node that begins a list of tokens, the only document among them. -/
def rootOf? (handles : Node.Handles) (tokens : List Token) : Option Node := do
  let (root, state) ← (Node.read handles (8 * tokens.length + 8) true false).run ⟨tokens, ∅⟩
  if state.tokens.all (· == .documentEnd) then some root else none

/-- The document of tokens; without a node in it, it is empty. -/
def document? (tokens : List Token) : Option Node := do
  let directives ← (tokens.takeWhile isDirective).foldlM Directives.push? ⟨false, ∅⟩
  match tokens, tokens.dropWhile isDirective with
  | [], _ => some .empty
  | _, .documentStart :: rest =>
      if rest.all (· == .documentEnd) then some .empty
      else rootOf? directives.allHandles rest
  | first :: _, _ => if isDirective first then none else rootOf? directives.allHandles tokens

def read (text : String) : Option Datum := do
  let tokens ← tokens? text
  let root ← document? tokens
  return documentDatum root

end HybridQuantum.Yaml
