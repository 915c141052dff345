import HybridQuantum.FiniteMap
import HybridQuantum.Memory.Variable

/-!
# The variable heap

Variables under their names.  The names of removed variables are remembered, so
a later look-up reports a use after free rather than an unknown name.
-/

namespace HybridQuantum

/-- Live variables and the names of removed ones. -/
structure Heap where
  live : FiniteMap Name Variable
  freed : List Name

namespace Heap

def empty : Heap :=
  ⟨.empty, []⟩

/-- Store a variable under its own name, whatever was there before. -/
def set (heap : Heap) (holder : Variable) : Heap where
  live := heap.live.insert holder.name holder
  freed := heap.freed.filter (· ≠ holder.name)

/-- Why a name has no variable. -/
def missing (heap : Heap) (name : Name) : MemoryError :=
  if name ∈ heap.freed then .useAfterFree name else .invalidKey name

def get (heap : Heap) (name : Name) : Except MemoryError Variable :=
  match heap.live.get? name with
  | some holder => .ok holder
  | none => .error (heap.missing name)

/-- Change the variable under a name; a removed name is refused first. -/
def modify (heap : Heap) (name : Name) (change : Variable → Except MemoryError Variable) :
    Except MemoryError Heap :=
  if name ∈ heap.freed then .error (.useAfterFree name)
  else match heap.live.get? name with
    | none => .error (.invalidKey name)
    | some holder => do
        let changed ← change holder
        return { heap with live := heap.live.insert name changed }

/-- Remove a variable and remember its name. -/
def free (heap : Heap) (name : Name) : Except MemoryError Variable × Heap :=
  match heap.live.get? name with
  | none => (.error (heap.missing name), heap)
  | some holder =>
      (.ok holder,
        { live := heap.live.erase name
          freed := if name ∈ heap.freed then heap.freed else name :: heap.freed })

def contains (heap : Heap) (name : Name) : Bool :=
  heap.live.contains name

def size (heap : Heap) : Nat :=
  heap.live.size

end Heap

end HybridQuantum
