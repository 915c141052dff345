import HybridQuantum.Proofs.Memory.PoolConservation

/-!
# The check of a pool

The check of a pool counts indices, marks each of them in an array and compares
what the variables hold with what is granted.  Done with every access checked, on
any pool and in any order of the variables, it never leaves the array, and it
decides exactly whether each index is free or granted once and the variables hold
the granted ones.
-/

namespace HybridQuantum.IndexPool

namespace Checked

/--
Mark indices one after another.  An index is tested against the capacity and then
looked up, and where the lookup fails there is no answer; where it has succeeded the
mark is set.
-/
def markEach? (capacity : Nat) (seen : Array Bool) : List Nat → Option Bool
  | [] => some true
  | index :: rest =>
      if capacity ≤ index then some false
      else do
        if ← seen[index]? then return false
        markEach? capacity (seen.setIfInBounds index true) rest

/-- The check of a pool whose variables are visited in a given order. -/
def isConsistent? (pool : IndexPool) (visited : List (List Nat)) : Option Bool :=
  if pool.available.length + pool.allocated.length ≠ pool.capacity then some false
  else do
    if ← markEach? pool.capacity (Array.replicate pool.capacity false)
        (pool.available ++ pool.allocated) then
      return visited.flatten.mergeSort == pool.allocated.mergeSort
    return false

theorem markEach?_eq {capacity : Nat} {seen : Array Bool} (sized : seen.size = capacity)
    (indexes : List Nat) : markEach? capacity seen indexes = some (markEach seen indexes) := by
  induction indexes generalizing seen with
  | nil => rfl
  | cons index rest ih =>
      rw [markEach?, markEach]
      by_cases inRange : index < seen.size
      · rw [if_neg (by omega), dif_pos inRange, Array.getElem?_eq_getElem inRange]
        cases marked : seen[index] with
        | true => rfl
        | false =>
            have marks : seen.setIfInBounds index true = seen.set index true := by
              simp [Array.setIfInBounds, inRange]
            rw [← marks]
            exact ih (by rw [Array.size_setIfInBounds, sized])
      · rw [if_pos (by omega), dif_neg inRange]

variable {pool : IndexPool} {visited : List (List Nat)}

/-- The checked pass answers, and as the plain one does, whatever the order of the variables. -/
theorem isConsistent?_eq (visits : visited.Perm pool.holders.values) :
    isConsistent? pool visited = some pool.isConsistent := by
  have sorted : visited.flatten.mergeSort = pool.holders.values.flatten.mergeSort :=
    mergeSort_eq_mergeSort_iff.2 visits.flatten
  rw [isConsistent?, IndexPool.isConsistent, sorted]
  by_cases counted : pool.available.length + pool.allocated.length = pool.capacity
  · rw [if_neg (not_not.2 counted), markEach?_eq Array.size_replicate, counted, beq_self_eq_true,
      Bool.true_and]
    cases markEach (Array.replicate pool.capacity false) (pool.available ++ pool.allocated) with
    | true => rfl
    | false => rfl
  · rw [if_pos counted, beq_false_of_ne counted, Bool.false_and, Bool.false_and]

end Checked

/--
On every pool, one that calls can lead to or any other, the check answers without
leaving its array of marks, the same in every order of the variables.  The answer
is yes exactly when the free and the granted indices are those below the capacity,
each once, and the variables hold the granted ones.
-/
theorem isConsistent_decides_conservation (pool : IndexPool) :
    (∀ visited : List (List Nat), visited.Perm pool.holders.values →
      Checked.isConsistent? pool visited = some pool.isConsistent) ∧
      (pool.isConsistent = true ↔
        (pool.available ++ pool.allocated).Perm (List.range pool.capacity) ∧
          pool.holders.values.flatten.Perm pool.allocated) :=
  ⟨fun _ visits => Checked.isConsistent?_eq visits, isConsistent_iff⟩

/-- Two variables that hold the granted indices of a pool of three between them. -/
def sharedPool : IndexPool where
  capacity := 3
  available := [1]
  allocated := [2, 0]
  holders := .ofList [(.ofLeaf "@a", [0]), (.ofLeaf "@b", [2])]
  reserved := .empty

/-- The pool with one index free and granted while another is lost. -/
def lossyPool : IndexPool :=
  { sharedPool with available := [0] }

/-- The pool with one index that both variables hold. -/
def contestedPool : IndexPool :=
  { sharedPool with holders := .ofList [(.ofLeaf "@a", [0, 2]), (.ofLeaf "@b", [2])] }

/-- The check accepts the pool and refuses it in either broken form. -/
theorem isConsistent_decides_sharedPool :
    Checked.isConsistent? sharedPool [[0], [2]] = some true ∧
      Checked.isConsistent? lossyPool [[0], [2]] = some false ∧
      Checked.isConsistent? contestedPool [[0, 2], [2]] = some false := by
  obtain ⟨answersShared, shared⟩ := isConsistent_decides_conservation sharedPool
  obtain ⟨answersLossy, lossy⟩ := isConsistent_decides_conservation lossyPool
  obtain ⟨answersContested, contested⟩ := isConsistent_decides_conservation contestedPool
  rw [answersShared _ (by decide), answersLossy _ (by decide), answersContested _ (by decide)]
  refine ⟨congrArg some (shared.2 (by decide)),
    congrArg some (Bool.eq_false_iff.2 fun passed => ?_),
    congrArg some (Bool.eq_false_iff.2 fun passed => ?_)⟩
  · exact absurd (lossy.1 passed).1 (by decide)
  · exact absurd (contested.1 passed).2 (by decide)

end HybridQuantum.IndexPool
