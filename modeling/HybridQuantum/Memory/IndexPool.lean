import HybridQuantum.FiniteMap
import HybridQuantum.Memory.Error

/-!
# The pool of quantum indices

A pool owns the indices below its capacity.  A request takes indices from the
front of the free queue, a release puts them back at its end in the order they
were granted, so the same calls always grant the same indices.  A reservation
only remembers how many indices a variable will ask for.
-/

namespace HybridQuantum

/-- Free, granted and reserved quantum indices. -/
structure IndexPool where
  capacity : Nat
  /-- Free indices, the next one to grant first. -/
  available : List Nat
  /-- Granted indices in grant order. -/
  allocated : List Nat
  /-- The indices of each variable, in the order they were granted. -/
  holders : FiniteMap Name (List Nat)
  /-- How many indices each variable has announced. -/
  reserved : FiniteMap Name Nat

namespace IndexPool

/-- All indices below the capacity are free. -/
def new (capacity : Nat) : IndexPool where
  capacity := capacity
  available := List.range capacity
  allocated := []
  holders := .empty
  reserved := .empty

def indexesOf? (pool : IndexPool) (var : Name) : Option (List Nat) :=
  pool.holders.get? var

def hasIndexes (pool : IndexPool) (var : Name) : Bool :=
  pool.holders.contains var

/-- The variables that hold indices, in ascending order. -/
def sortedHolders (pool : IndexPool) : List (Name × List Nat) :=
  pool.holders.entries.mergeSort fun left right => (left.1.compare right.1).isLE

/-- Grant `count` indices to a variable that holds none. -/
def request (pool : IndexPool) (var : Name) (count : Nat) :
    Except MemoryError (List Nat) × IndexPool :=
  if count = 0 then (.error (.emptyRequest var), pool)
  else if pool.hasIndexes var then (.error (.hasIndexes var), pool)
  else if pool.available.length < count then
    (.error (.indexAllocation var count pool.available.length), pool)
  else
    let granted := pool.available.take count
    (.ok granted,
      { pool with
        available := pool.available.drop count
        allocated := pool.allocated ++ granted
        holders := pool.holders.insert var granted })

/-- Announce that a variable will need `count` indices. -/
def reserve (pool : IndexPool) (var : Name) (count : Nat) :
    Except MemoryError Unit × IndexPool :=
  if count = 0 then (.error (.emptyRequest var), pool)
  else if pool.reserved.contains var || pool.hasIndexes var then
    (.error (.hasIndexes var), pool)
  else if pool.available.length < count then
    (.error (.indexAllocation var count pool.available.length), pool)
  else (.ok (), { pool with reserved := pool.reserved.insert var count })

/-- Grant what was announced for a variable. -/
def requestReserved (pool : IndexPool) (var : Name) :
    Except MemoryError (List Nat) × IndexPool :=
  match pool.reserved.get? var with
  | none => (.error (.holdsNoIndexes var), pool)
  | some count =>
      match pool.request var count with
      | (.ok granted, pool) =>
          (.ok granted, { pool with reserved := pool.reserved.erase var })
      | (.error cause, pool) => (.error cause, pool)

/-- Return every index a variable holds, and drop its reservation. -/
def free (pool : IndexPool) (var : Name) : Except MemoryError (List Nat) × IndexPool :=
  match pool.holders.get? var with
  | none => (.error (.holdsNoIndexes var), pool)
  | some returned =>
      (.ok returned,
        { pool with
          available := pool.available ++ returned
          allocated := pool.allocated.filter fun index => !returned.contains index
          holders := pool.holders.erase var
          reserved := pool.reserved.erase var })

/-- Mark indices one after another; each must be in range and not marked before. -/
def markEach (seen : Array Bool) : List Nat → Bool
  | [] => true
  | index :: rest =>
      if inRange : index < seen.size then
        if seen[index] then false else markEach (seen.set index true) rest
      else false

/--
Whether every index is free or granted exactly once, and the variables hold
exactly the granted ones.
-/
def isConsistent (pool : IndexPool) : Bool :=
  pool.available.length + pool.allocated.length == pool.capacity &&
    markEach (Array.replicate pool.capacity false) (pool.available ++ pool.allocated) &&
    pool.holders.values.flatten.mergeSort == pool.allocated.mergeSort

end IndexPool

end HybridQuantum
