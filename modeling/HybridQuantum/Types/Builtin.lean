import HybridQuantum.Types.DataType

/-!
# Builtin types

The classical builtins with their bit widths (a text has none) and the quantum
builtins with their index counts.  The classical width of a quantum builtin is
the number of bits a measurement yields, which is its index count.
-/

namespace HybridQuantum.Builtin

/-- The classical builtins with their widths. -/
def classical : List (String × Option UInt32) :=
  [("null", some 0), ("bool", some 8), ("u8", some 8), ("char", some 8), ("u16", some 16),
    ("u32", some 32), ("u64", some 64), ("int", some 64), ("float", some 64), ("str", none)]

/-- The quantum builtins with their index counts. -/
def quantum : List (String × UInt32) :=
  [("@bool", 1), ("@u2", 2), ("@u3", 3), ("@u4", 4)]

/-- All builtin types, the classical ones first. -/
def types : List DataType :=
  (classical.map fun entry => .builtin (.ofLeaf entry.1) ⟨entry.2⟩ .empty) ++
    quantum.map fun entry => .builtin (.ofLeaf entry.1) (.fixed entry.2) (.fixed entry.2)

/-- Whether a leaf name is that of a builtin. -/
def isName (leaf : String) : Bool :=
  classical.any (·.1 == leaf) || quantum.any (·.1 == leaf)

/-- The index count of a quantum builtin. -/
def quantumWidth? (leaf : String) : Option UInt32 :=
  quantum.lookup leaf

end HybridQuantum.Builtin
