import HybridQuantum.Memory.Heap
import HybridQuantum.Memory.IndexPool
import HybridQuantum.Memory.Stack
import HybridQuantum.Types.Resolution

/-!
# The memory of a scope

A value stack, a variable heap and a pool of quantum indices.  Declaring a
quantum variable grants it as many indices as its type spans before it is
stored; freeing it returns them.
-/

namespace HybridQuantum

/-- Stack, heap and index pool of one scope. -/
structure Scope where
  stack : Stack Literal
  heap : Heap
  pool : IndexPool

namespace Scope

/-- The stack capacity when none is given. -/
def defaultStackCapacity : Nat := 1024

/-- An empty scope with its limits. -/
def new (indexCapacity stackCapacity : Nat) : Scope where
  stack := .new stackCapacity
  heap := .empty
  pool := .new indexCapacity

/-- Grant a quantum variable the indices its type spans; a classical one needs none. -/
def grant (scope : Scope) (types : TypeTable) (holder : Variable) :
    Outcome MemoryError (List Nat) × Scope × TypeTable :=
  if holder.isQuantum then
    match types.resolveQSize holder.type with
    | (.error fault, types) => (Outcome.mapError .type (.error fault), scope, types)
    | (.ok qsize, types) =>
        match scope.pool.request holder.name qsize.width.toNat with
        | (answer, pool) => (.ofExcept answer, { scope with pool }, types)
  else (.ok [], scope, types)

/-- Store a variable after its indices are granted. -/
def declare (scope : Scope) (types : TypeTable) (holder : Variable) :
    Outcome MemoryError (List Nat) × Scope × TypeTable :=
  match scope.grant types holder with
  | (.error fault, scope, types) => (.error fault, scope, types)
  | (.ok granted, scope, types) =>
      (.ok granted, { scope with heap := scope.heap.set holder }, types)

/-- Remove a variable and return its indices to the pool. -/
def free (scope : Scope) (name : Name) : Except MemoryError (List Nat) × Scope :=
  match scope.heap.free name with
  | (.error cause, heap) => (.error cause, { scope with heap })
  | (.ok holder, heap) =>
      if holder.isQuantum && scope.pool.hasIndexes name then
        match scope.pool.free name with
        | (answer, pool) => (answer, { scope with heap, pool })
      else (.ok [], { scope with heap })

end Scope

end HybridQuantum
