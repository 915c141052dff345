/-!
# Names

A name is a leaf inside a path of namespace segments.  A leading sigil on the
leaf marks what it names as quantum; everything else is classical.
-/

namespace HybridQuantum

/-- The character that marks a leaf name as quantum. -/
def quantumSigil : Char := '@'

/-- Whether a leaf name carries the quantum sigil. -/
def isQuantumLeaf (leaf : String) : Bool :=
  leaf.toList.head? == some quantumSigil

/-- An ordered path of segments; the empty path is the root. -/
structure NameSpace where
  segments : List String
deriving DecidableEq, Repr, Inhabited

namespace NameSpace

/-- The empty path, where builtins and local declarations live. -/
def root : NameSpace :=
  ⟨[]⟩

def isRoot (space : NameSpace) : Bool :=
  space.segments.isEmpty

def child (space : NameSpace) (segment : String) : NameSpace :=
  ⟨space.segments ++ [segment]⟩

/-- The segments with points between them. -/
def text (space : NameSpace) : String :=
  ".".intercalate space.segments

/-- Paths are ordered segment by segment, segments by code points. -/
def compare (left right : NameSpace) : Ordering :=
  compareOfLessAndEq left.segments right.segments

end NameSpace

/-- A leaf name inside a namespace.  Two declarations are the same when both parts agree. -/
structure Name where
  space : NameSpace
  leaf : String
deriving DecidableEq, Repr, Inhabited

namespace Name

/-- A name in the root namespace. -/
def ofLeaf (leaf : String) : Name :=
  ⟨.root, leaf⟩

def isQuantum (name : Name) : Bool :=
  isQuantumLeaf name.leaf

/-- The path and the leaf with points between them. -/
def text (name : Name) : String :=
  if name.space.isRoot then name.leaf else name.space.text ++ "." ++ name.leaf

/-- Names are ordered by namespace, then by leaf. -/
def compare (left right : Name) : Ordering :=
  (left.space.compare right.space).then (Ord.compare left.leaf right.leaf)

/-- The distinct names of a list in ascending order. -/
def sortDistinct (names : List Name) : List Name :=
  (names.mergeSort fun left right => (left.compare right).isLE).eraseReps

end Name

end HybridQuantum
