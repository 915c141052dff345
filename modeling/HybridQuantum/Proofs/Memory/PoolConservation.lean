import HybridQuantum.Memory.IndexPool
import Mathlib.Data.List.Sort

/-!
# Conservation of quantum indices

No index of a pool is ever lost or granted twice.  After any calls the free and
the granted indices together are the indices below the capacity, each once, and
the granted ones are exactly those the variables hold.  A call that fails leaves
the pool alone.
-/

namespace HybridQuantum

namespace IndexPool

variable {pool : IndexPool} {var : Name}

/-- The pool after granting its next indices to a variable. -/
def grant (pool : IndexPool) (var : Name) (count : Nat) : IndexPool :=
  { pool with
    available := pool.available.drop count
    allocated := pool.allocated ++ pool.available.take count
    holders := pool.holders.insert var (pool.available.take count) }

/-- The pool after a variable returns its indices. -/
def giveBack (pool : IndexPool) (var : Name) (returned : List Nat) : IndexPool :=
  { pool with
    available := pool.available ++ returned
    allocated := pool.allocated.filter fun index => !returned.contains index
    holders := pool.holders.erase var
    reserved := pool.reserved.erase var }

section Calls

theorem request_cases (pool : IndexPool) (var : Name) (count : Nat) :
    (∃ cause, pool.request var count = (.error cause, pool)) ∨
      (0 < count ∧ pool.holders.get? var = none ∧ count ≤ pool.available.length ∧
        pool.request var count = (.ok (pool.available.take count), pool.grant var count)) := by
  unfold request
  split
  · exact .inl ⟨_, rfl⟩
  · rename_i some
    split
    · exact .inl ⟨_, rfl⟩
    · rename_i fresh
      split
      · exact .inl ⟨_, rfl⟩
      · rename_i enough
        have none : pool.holders.get? var = none := by
          simpa [hasIndexes, FiniteMap.contains] using fresh
        exact .inr ⟨Nat.pos_of_ne_zero some, none, Nat.le_of_not_lt enough, rfl⟩

theorem reserve_cases (pool : IndexPool) (var : Name) (count : Nat) :
    (∃ cause, pool.reserve var count = (.error cause, pool)) ∨
      pool.reserve var count =
        (.ok (), { pool with reserved := pool.reserved.insert var count }) := by
  unfold reserve
  split
  · exact .inl ⟨_, rfl⟩
  · split
    · exact .inl ⟨_, rfl⟩
    · split
      · exact .inl ⟨_, rfl⟩
      · exact .inr rfl

theorem requestReserved_cases (pool : IndexPool) (var : Name) :
    (∃ cause, pool.requestReserved var = (.error cause, pool)) ∨
      ∃ count, 0 < count ∧ pool.holders.get? var = none ∧ count ≤ pool.available.length ∧
        pool.requestReserved var = (.ok (pool.available.take count),
          { pool.grant var count with reserved := pool.reserved.erase var }) := by
  unfold requestReserved
  cases announced : pool.reserved.get? var with
  | none => exact .inl ⟨_, rfl⟩
  | some count =>
      rcases request_cases pool var count with ⟨cause, refused⟩ | ⟨some, fresh, enough, granted⟩
      · simp only [refused]
        exact .inl ⟨cause, rfl⟩
      · simp only [granted]
        exact .inr ⟨count, some, fresh, enough, rfl⟩

theorem free_cases (pool : IndexPool) (var : Name) :
    (pool.holders.get? var = none ∧ ∃ cause, pool.free var = (.error cause, pool)) ∨
      ∃ returned, pool.holders.get? var = some returned ∧
        pool.free var = (.ok returned, pool.giveBack var returned) := by
  unfold free
  cases held : pool.holders.get? var with
  | none => exact .inl ⟨rfl, _, rfl⟩
  | some returned => exact .inr ⟨returned, rfl, rfl⟩

theorem length_of_request_eq_ok {count : Nat} {granted : List Nat}
    (answered : (pool.request var count).1 = .ok granted) : granted.length = count := by
  rcases pool.request_cases var count with ⟨cause, refused⟩ | ⟨-, -, enough, done⟩
  · rw [refused] at answered
    cases answered
  · rw [done] at answered
    cases answered
    rw [List.length_take, Nat.min_eq_left enough]

theorem indexesOf?_of_request_eq_ok {count : Nat} {granted : List Nat}
    (answered : (pool.request var count).1 = .ok granted) :
    (pool.request var count).2.indexesOf? var = some granted := by
  rcases pool.request_cases var count with ⟨cause, refused⟩ | ⟨-, -, -, done⟩
  · rw [refused] at answered
    cases answered
  · rw [done] at answered ⊢
    cases answered
    simp [indexesOf?, grant, FiniteMap.get?_insert]

theorem free_eq_ok_iff {returned : List Nat} :
    (pool.free var).1 = .ok returned ↔ pool.indexesOf? var = some returned := by
  unfold indexesOf?
  rcases pool.free_cases var with ⟨none, cause, refused⟩ | ⟨held, found, freed⟩
  · simp [refused, none]
  · simp [freed, found]

end Calls

/-- Every index is free or granted, once, and the variables hold the granted ones. -/
structure IsConserved (pool : IndexPool) : Prop where
  complete : (pool.available ++ pool.allocated).Perm (List.range pool.capacity)
  held : pool.allocated.Perm pool.holders.values.flatten
  nonempty : ∀ indexes ∈ pool.holders.values, indexes ≠ []

/-- What is left of a list without repetitions when one part of it is taken out. -/
theorem filter_perm_of_perm_append {all removed kept : List Nat} (distinct : all.Nodup)
    (parts : all.Perm (removed ++ kept)) :
    (all.filter fun index => !removed.contains index).Perm kept := by
  have apart := List.disjoint_of_nodup_append (parts.nodup distinct)
  have gone : removed.filter (fun index => !removed.contains index) = [] := by
    simp
  have stay : kept.filter (fun index => !removed.contains index) = kept := by
    refine List.filter_eq_self.2 fun index member => ?_
    have outside : index ∉ removed := fun inside => apart inside member
    simpa using outside
  have filtered := parts.filter fun index => !removed.contains index
  rwa [List.filter_append, gone, stay, List.nil_append] at filtered

namespace IsConserved

theorem new (capacity : Nat) : (IndexPool.new capacity).IsConserved where
  complete := by simp [IndexPool.new]
  held := by simp [IndexPool.new, FiniteMap.values, FiniteMap.empty]
  nonempty := by simp [IndexPool.new, FiniteMap.values, FiniteMap.empty]

theorem allocated_nodup (conserved : pool.IsConserved) : pool.allocated.Nodup :=
  (conserved.complete.symm.nodup List.nodup_range).of_append_right

theorem reserved (conserved : pool.IsConserved) (reserved : FiniteMap Name Nat) :
    IsConserved { pool with reserved } :=
  ⟨conserved.complete, conserved.held, conserved.nonempty⟩

theorem grant (conserved : pool.IsConserved) {count : Nat} (positive : 0 < count)
    (fresh : pool.holders.get? var = none) (enough : count ≤ pool.available.length) :
    (pool.grant var count).IsConserved where
  complete := by
    have swapped : (pool.available.drop count ++ (pool.allocated ++ pool.available.take count)).Perm
        (pool.available.take count ++ (pool.available.drop count ++ pool.allocated)) := by
      rw [← List.append_assoc]
      exact List.perm_append_comm
    refine swapped.trans ?_
    rw [← List.append_assoc, List.take_append_drop]
    exact conserved.complete
  held := by
    simp only [IndexPool.grant, FiniteMap.values_insert_of_get?_eq_none fresh, List.flatten_cons]
    exact List.perm_append_comm.trans (conserved.held.append_left _)
  nonempty := by
    simp only [IndexPool.grant, FiniteMap.values_insert_of_get?_eq_none fresh]
    intro indexes member
    rcases List.mem_cons.1 member with rfl | earlier
    · intro empty
      have length := congrArg List.length empty
      rw [List.length_take, List.length_nil] at length
      omega
    · exact conserved.nonempty indexes earlier

theorem giveBack (conserved : pool.IsConserved) {returned : List Nat}
    (found : pool.holders.get? var = some returned) :
    (pool.giveBack var returned).IsConserved := by
  have values := FiniteMap.values_perm_of_get?_eq_some found
  have parts : pool.allocated.Perm (returned ++ (pool.holders.erase var).values.flatten) := by
    simpa using conserved.held.trans values.flatten
  have kept := filter_perm_of_perm_append conserved.allocated_nodup parts
  refine ⟨?_, kept, ?_⟩
  · calc
      (pool.available ++ returned ++
        pool.allocated.filter fun index => !returned.contains index).Perm
          (pool.available ++ returned ++ (pool.holders.erase var).values.flatten) :=
        kept.append_left _
      _ = pool.available ++ (returned ++ (pool.holders.erase var).values.flatten) :=
        List.append_assoc _ _ _
      List.Perm _ (pool.available ++ pool.allocated) := parts.symm.append_left _
      List.Perm _ (List.range pool.capacity) := conserved.complete
  · intro indexes member
    exact conserved.nonempty indexes (values.symm.subset (List.mem_cons_of_mem _ member))

end IsConserved

/--
A list is marked off without a clash when it repeats nothing and finds every mark clear: the mark
an index sets is what its second occurrence runs into.
-/
theorem markEach_eq_true_iff {seen : Array Bool} {indexes : List Nat} :
    markEach seen indexes = true ↔
      indexes.Nodup ∧ ∀ index ∈ indexes, seen[index]? = some false := by
  induction indexes generalizing seen with
  | nil => simp [markEach]
  | cons index rest ih =>
      rw [markEach, List.nodup_cons, List.forall_mem_cons]
      split
      · rename_i inRange
        rw [Array.getElem?_eq_getElem inRange]
        cases marked : seen[index] with
        | true => simp
        | false =>
            have clear (other : Nat) : (seen.set index true)[other]? = some false ↔
                other ≠ index ∧ seen[other]? = some false := by
              by_cases same : other = index
              · simp [same, inRange]
              · simp [same, Array.getElem?_set_ne inRange (Ne.symm same)]
            simp only [Bool.false_eq_true, if_false, ih, clear, true_and]
            constructor
            · rintro ⟨distinct, unmarked⟩
              exact ⟨⟨fun again => (unmarked index again).1 rfl, distinct⟩,
                fun other member => (unmarked other member).2⟩
            · rintro ⟨⟨fresh, distinct⟩, unmarked⟩
              refine ⟨distinct, fun other member => ⟨?_, unmarked other member⟩⟩
              rintro rfl
              exact fresh member
      · rename_i outside
        simp [outside]

theorem mergeSort_eq_mergeSort_iff {left right : List Nat} :
    left.mergeSort = right.mergeSort ↔ left.Perm right := by
  have sorted (indexes : List Nat) : indexes.mergeSort.Perm indexes :=
    List.mergeSort_perm indexes _
  constructor
  · intro same
    have split := (sorted left).symm
    rw [same] at split
    exact split.trans (sorted right)
  · intro perm
    exact (((sorted left).trans perm).trans (sorted right).symm).eq_of_sortedLE
      List.sortedLE_mergeSort List.sortedLE_mergeSort

theorem perm_range_iff {indexes : List Nat} {size : Nat} :
    indexes.Perm (List.range size) ↔
      indexes.length = size ∧ indexes.Nodup ∧ ∀ index ∈ indexes, index < size := by
  constructor
  · intro complete
    refine ⟨?_, complete.symm.nodup List.nodup_range, fun index member => ?_⟩
    · rw [complete.length_eq, List.length_range]
    · exact List.mem_range.1 (complete.subset member)
  · rintro ⟨length, distinct, below⟩
    have within : indexes ⊆ List.range size := fun index member =>
      List.mem_range.2 (below index member)
    refine (List.subperm_of_subset distinct within).perm_of_length_le ?_
    rw [List.length_range, length]

/-- The check of a pool decides whether an index was lost, granted twice or held twice. -/
theorem isConsistent_iff :
    pool.isConsistent = true ↔
      (pool.available ++ pool.allocated).Perm (List.range pool.capacity) ∧
        pool.holders.values.flatten.Perm pool.allocated := by
  have clear (index : Nat) :
      (Array.replicate pool.capacity false)[index]? = some false ↔ index < pool.capacity := by
    rw [Array.getElem?_replicate]
    simp
  rw [isConsistent, Bool.and_eq_true, Bool.and_eq_true, beq_iff_eq, beq_iff_eq,
    markEach_eq_true_iff, mergeSort_eq_mergeSort_iff, perm_range_iff, List.length_append, and_assoc]
  simp only [clear, and_assoc]

/-- What the check leaves open is whether a variable is listed that holds no index. -/
theorem isConserved_iff :
    pool.IsConserved ↔
      pool.isConsistent = true ∧ ∀ indexes ∈ pool.holders.values, indexes ≠ [] := by
  rw [isConsistent_iff]
  constructor
  · intro conserved
    exact ⟨⟨conserved.complete, conserved.held.symm⟩, conserved.nonempty⟩
  · rintro ⟨⟨complete, held⟩, nonempty⟩
    exact ⟨complete, held.symm, nonempty⟩

theorem IsConserved.isConsistent (conserved : pool.IsConserved) : pool.isConsistent = true :=
  (isConserved_iff.1 conserved).1

end IndexPool

/-- One call on a pool. -/
inductive PoolCall where
  | request (var : Name) (count : Nat)
  | reserve (var : Name) (count : Nat)
  | requestReserved (var : Name)
  | free (var : Name)

namespace PoolCall

/-- The answer to a call and the pool after it; a reservation answers with no indices. -/
def apply (pool : IndexPool) : PoolCall → Except MemoryError (List Nat) × IndexPool
  | request var count => pool.request var count
  | reserve var count =>
      match pool.reserve var count with
      | (answer, pool) => (answer.map fun _ => [], pool)
  | requestReserved var => pool.requestReserved var
  | free var => pool.free var

/-- The pool after calls in order, whatever they answer. -/
def run (pool : IndexPool) (calls : List PoolCall) : IndexPool :=
  calls.foldl (fun pool call => (call.apply pool).2) pool

theorem apply_cases (call : PoolCall) (pool : IndexPool) :
    (∃ cause, call.apply pool = (.error cause, pool)) ∨
      ∃ answer, (call.apply pool).1 = .ok answer ∧
        (call.apply pool).2.capacity = pool.capacity ∧
        (pool.IsConserved → (call.apply pool).2.IsConserved) := by
  cases call with
  | request var count =>
      rcases pool.request_cases var count with refused | ⟨positive, fresh, enough, granted⟩
      · exact .inl refused
      · refine .inr ⟨_, by rw [apply, granted], by rw [apply, granted]; rfl, fun conserved => ?_⟩
        rw [apply, granted]
        exact conserved.grant positive fresh enough
  | reserve var count =>
      rcases pool.reserve_cases var count with ⟨cause, refused⟩ | noted
      · exact .inl ⟨cause, by rw [apply, refused]; rfl⟩
      · refine .inr ⟨[], by rw [apply, noted]; rfl, by rw [apply, noted], fun conserved => ?_⟩
        rw [apply, noted]
        exact conserved.reserved _
  | requestReserved var =>
      rcases pool.requestReserved_cases var with refused | ⟨count, positive, fresh, enough, granted⟩
      · exact .inl refused
      · refine .inr ⟨_, by rw [apply, granted], by rw [apply, granted]; rfl, fun conserved => ?_⟩
        rw [apply, granted]
        exact (conserved.grant positive fresh enough).reserved _
  | free var =>
      rcases pool.free_cases var with ⟨-, refused⟩ | ⟨returned, held, freed⟩
      · exact .inl refused
      · refine .inr ⟨_, by rw [apply, freed], by rw [apply, freed]; rfl, fun conserved => ?_⟩
        rw [apply, freed]
        exact conserved.giveBack held

theorem apply_of_error {call : PoolCall} {pool : IndexPool} {cause : MemoryError}
    (failed : (call.apply pool).1 = .error cause) : (call.apply pool).2 = pool := by
  rcases call.apply_cases pool with ⟨_, refused⟩ | ⟨answer, done, -⟩
  · rw [refused]
  · rw [done] at failed
    cases failed

theorem capacity_apply (call : PoolCall) (pool : IndexPool) :
    (call.apply pool).2.capacity = pool.capacity := by
  rcases call.apply_cases pool with ⟨_, refused⟩ | ⟨_, -, same, -⟩
  · rw [refused]
  · exact same

theorem isConserved_apply (call : PoolCall) {pool : IndexPool} (conserved : pool.IsConserved) :
    (call.apply pool).2.IsConserved := by
  rcases call.apply_cases pool with ⟨_, refused⟩ | ⟨_, -, -, keeps⟩
  · rw [refused]
    exact conserved
  · exact keeps conserved

theorem capacity_run (pool : IndexPool) (calls : List PoolCall) :
    (run pool calls).capacity = pool.capacity := by
  induction calls generalizing pool with
  | nil => rfl
  | cons call rest ih => exact (ih _).trans (call.capacity_apply pool)

theorem isConserved_run {pool : IndexPool} (conserved : pool.IsConserved) (calls : List PoolCall) :
    (run pool calls).IsConserved := by
  induction calls generalizing pool with
  | nil => exact conserved
  | cons call rest ih => exact ih (call.isConserved_apply conserved)

/--
After any calls on a new pool, succeeding or failing, every index below the
capacity is free or granted exactly once, the variables hold exactly the granted
ones, and the pool passes its own check.  A call that fails changes nothing, a
granted request is what its variable then holds, and a variable returns what it
held.
-/
theorem run_new {capacity : Nat} {calls : List PoolCall} {pool : IndexPool}
    (reached : run (.new capacity) calls = pool) :
    pool.capacity = capacity ∧
      (pool.available ++ pool.allocated).Perm (List.range capacity) ∧
      pool.allocated.Perm pool.holders.values.flatten ∧
      (∀ indexes ∈ pool.holders.values, indexes ≠ []) ∧
      pool.isConsistent = true ∧
      (∀ (call : PoolCall) (cause : MemoryError),
        (call.apply pool).1 = .error cause → (call.apply pool).2 = pool) ∧
      (∀ (var : Name) (count : Nat) (granted : List Nat),
        (pool.request var count).1 = .ok granted →
          granted.length = count ∧ (pool.request var count).2.indexesOf? var = some granted) ∧
      (∀ (var : Name) (returned : List Nat),
        (pool.free var).1 = .ok returned ↔ pool.indexesOf? var = some returned) := by
  subst reached
  have same : (run (.new capacity) calls).capacity = capacity := capacity_run _ calls
  have conserved := isConserved_run (IndexPool.IsConserved.new capacity) calls
  have complete := conserved.complete
  rw [same] at complete
  refine ⟨same, complete, conserved.held, conserved.nonempty, conserved.isConsistent,
    fun _ _ => apply_of_error, fun var count granted answered => ?_,
    fun _ _ => IndexPool.free_eq_ok_iff⟩
  exact ⟨IndexPool.length_of_request_eq_ok answered,
    IndexPool.indexesOf?_of_request_eq_ok answered⟩

/-- Two variables come and one goes; a third asks for too much, then for what is left. -/
theorem run_new_sample :
    let pool := run (.new 4) [.request (.ofLeaf "@a") 1, .reserve (.ofLeaf "@b") 2,
      .requestReserved (.ofLeaf "@b"), .free (.ofLeaf "@a")]
    pool.available = [3, 0] ∧ pool.isConsistent = true ∧
      (PoolCall.apply pool (.request (.ofLeaf "@c") 3)).2 = pool ∧
      (pool.request (.ofLeaf "@c") 2).2.indexesOf? (.ofLeaf "@c") = some [3, 0] ∧
      pool.indexesOf? (.ofLeaf "@b") = some [1, 2] := by
  intro pool
  have reached : run (.new 4) [.request (.ofLeaf "@a") 1, .reserve (.ofLeaf "@b") 2,
      .requestReserved (.ofLeaf "@b"), .free (.ofLeaf "@a")] = pool := rfl
  obtain ⟨-, -, -, -, consistent, fails, grants, returns⟩ := run_new reached
  have refused : (PoolCall.apply pool (.request (.ofLeaf "@c") 3)).1 =
      .error (.indexAllocation (.ofLeaf "@c") 3 2) := by rfl
  have granted : (pool.request (.ofLeaf "@c") 2).1 = .ok [3, 0] := by rfl
  have returned : (pool.free (.ofLeaf "@b")).1 = .ok [1, 2] := by rfl
  exact ⟨by rfl, consistent, fails _ _ refused, (grants _ _ _ granted).2, (returns _ _).1 returned⟩

end PoolCall

end HybridQuantum
