import HybridQuantum.Proofs.Memory.Coherence
import Mathlib.Data.List.Induction

/-!
# The history of a name

A heap keeps its variables and the names it gave up in two collections.  No name
is ever in both, so it does not matter which of them a look-up consults first:
after any calls, each name answers as its own history says.
-/

namespace HybridQuantum

namespace Heap

variable {heap : Heap} {name other : Name} {cause : MemoryError}

/-- No name with a variable is noted as given up. -/
def IsApart (heap : Heap) : Prop :=
  ∀ name ∈ heap.freed, heap.live.get? name = none

theorem isApart_empty : empty.IsApart := by
  intro name member
  cases member

theorem IsApart.set (apart : heap.IsApart) (holder : Variable) : (heap.set holder).IsApart := by
  intro name member
  obtain ⟨given, differs⟩ := List.mem_filter.1 member
  rw [get?_set, if_neg (of_decide_eq_true differs), apart name given]

theorem IsApart.free (apart : heap.IsApart) (name : Name) : (heap.free name).2.IsApart := by
  intro other member
  rw [get?_free]
  by_cases own : other = name
  · rw [if_pos own]
  · have given : other ∈ heap.freed := by
      cases found : heap.live.get? name with
      | none => simpa [Heap.free, found] using member
      | some holder =>
          simp only [Heap.free, found] at member
          split at member
          · exact member
          · exact (List.mem_cons.1 member).resolve_left own
    rw [if_neg own, apart other given]

theorem get_set_self (heap : Heap) (holder : Variable) :
    (heap.set holder).get holder.name = .ok holder := by
  rw [get, get?_set, if_pos rfl]

theorem get_set_of_ne {holder : Variable} (differs : name ≠ holder.name) :
    (heap.set holder).get name = heap.get name := by
  have noted : name ∈ (heap.set holder).freed ↔ name ∈ heap.freed := by
    simp [set, List.mem_filter, differs]
  simp only [get, get?_set, if_neg differs, missing, noted]

/-- Removing a variable answers as looking it up. -/
theorem free_eq_get (heap : Heap) (name : Name) : (heap.free name).1 = heap.get name := by
  cases found : heap.live.get? name with
  | none => simp [free, get, found]
  | some holder => simp [free, get, found]

theorem free_of_get_eq_error (absent : heap.get name = .error cause) :
    heap.free name = (.error cause, heap) := by
  cases found : heap.live.get? name with
  | none =>
      simp only [get, found, Except.error.injEq] at absent
      simp only [free, found, absent]
  | some holder =>
      simp only [get, found] at absent
      cases absent

theorem get_free_of_ne (differs : other ≠ name) :
    (heap.free name).2.get other = heap.get other := by
  have noted : other ∈ (heap.free name).2.freed ↔ other ∈ heap.freed := by
    cases found : heap.live.get? name with
    | none => simp [free, found]
    | some holder =>
        simp only [free, found]
        split
        · rfl
        · simp [differs]
  simp only [get, get?_free, if_neg differs, missing, noted]

/-- A name that was known is given up by a release, whether it still had a variable or not. -/
theorem get_free_self (known : heap.get name ≠ .error (.invalidKey name)) :
    (heap.free name).2.get name = .error (.useAfterFree name) := by
  cases found : heap.live.get? name with
  | none =>
      by_cases given : name ∈ heap.freed
      · simp [free, get, found, missing, given]
      · simp [get, found, missing, given] at known
  | some holder =>
      have noted : name ∈ (heap.free name).2.freed := by
        simp only [free, found]
        split
        · assumption
        · exact List.mem_cons_self
      rw [get, get?_free, if_pos rfl, missing, if_pos noted]

/-- Where the collections are apart, changing a variable in place begins by looking it up. -/
theorem modify_eq_get (apart : heap.IsApart) (name : Name)
    (change : Variable → Except MemoryError Variable) :
    heap.modify name change = do
      let holder ← heap.get name
      let changed ← change holder
      return { heap with live := heap.live.insert name changed } := by
  by_cases given : name ∈ heap.freed
  · simp [modify, get, missing, given, apart name given, bind, Except.bind]
  · cases found : heap.live.get? name with
    | none => simp [modify, get, missing, given, found, bind, Except.bind]
    | some holder => simp [modify, get, given, found]

theorem contains_iff : heap.contains name = true ↔ ∃ holder, heap.get name = .ok holder := by
  cases found : heap.live.get? name with
  | none => simp [contains, FiniteMap.contains, get, found]
  | some holder => simp [contains, FiniteMap.contains, get, found]

theorem mem_keys_iff : name ∈ heap.live.keys ↔ heap.contains name = true := by
  rw [contains, FiniteMap.contains, FiniteMap.get?, List.lookup_isSome_iff, FiniteMap.keys,
    List.mem_map]
  simp only [beq_iff_eq]
  exact exists_congr fun entry => and_congr_right fun _ => eq_comm

end Heap

/-- One call that changes a heap. -/
inductive HeapCall where
  | set (holder : Variable)
  | free (name : Name)

/-- What has become of a name. -/
inductive Fate where
  | unset
  | held (holder : Variable)
  | removed

/-- What a look-up of a name says of its fate. -/
def Fate.answer (name : Name) : Fate → Except MemoryError Variable
  | unset => .error (.invalidKey name)
  | held holder => .ok holder
  | removed => .error (.useAfterFree name)

theorem Fate.answer_injective (name : Name) : Function.Injective (Fate.answer name) := by
  intro first second same
  cases first <;> cases second <;> simp [answer] at same ⊢
  exact same

namespace HeapCall

/-- The name a call is about. -/
def name : HeapCall → Name
  | set holder => holder.name
  | free name => name

/-- The heap after a call; a release that fails is one too. -/
def apply (heap : Heap) : HeapCall → Heap
  | set holder => heap.set holder
  | free name => (heap.free name).2

/-- The heap after calls in order, whatever they answer. -/
def run (heap : Heap) (calls : List HeapCall) : Heap :=
  calls.foldl apply heap

/--
What calls leave under a name.  It is held when a store of it was the last call
about it, removed when it was released after some store and not stored again,
and unset when it was never stored.  A later release of a removed name has no
effect, and neither has one of an unset name.
-/
inductive Leaves (name : Name) : List HeapCall → Fate → Prop
  | unset {calls : List HeapCall} (never : ∀ holder, set holder ∈ calls → holder.name ≠ name) :
      Leaves name calls .unset
  | held {before after : List HeapCall} {holder : Variable} (named : holder.name = name)
      (untouched : ∀ call ∈ after, call.name ≠ name) :
      Leaves name (before ++ set holder :: after) (.held holder)
  | removed {before after : List HeapCall} {holder : Variable} (stored : set holder ∈ before)
      (named : holder.name = name) (never : ∀ other, set other ∈ after → other.name ≠ name) :
      Leaves name (before ++ free name :: after) .removed

section Runs

variable {heap : Heap} {calls : List HeapCall} {name : Name} {fate : Fate}

theorem isApart_run (apart : heap.IsApart) (calls : List HeapCall) : (run heap calls).IsApart := by
  induction calls generalizing heap with
  | nil => exact apart
  | cons call rest ih =>
      cases call with
      | set holder => exact ih (apart.set holder)
      | free other => exact ih (apart.free other)

theorem get_apply_of_ne (call : HeapCall) (differs : call.name ≠ name) :
    (call.apply heap).get name = heap.get name := by
  cases call with
  | set holder => exact Heap.get_set_of_ne differs.symm
  | free other => exact Heap.get_free_of_ne differs.symm

theorem get_run_of_untouched (untouched : ∀ call ∈ calls, call.name ≠ name) :
    (run heap calls).get name = heap.get name := by
  induction calls generalizing heap with
  | nil => rfl
  | cons call rest ih =>
      have ⟨differs, later⟩ := List.forall_mem_cons.1 untouched
      exact (ih later).trans (call.get_apply_of_ne differs)

/-- A name without a variable stays as it is until it is stored. -/
theorem get_run_of_error {cause : MemoryError} (absent : heap.get name = .error cause)
    (never : ∀ holder, set holder ∈ calls → holder.name ≠ name) :
    (run heap calls).get name = .error cause := by
  induction calls generalizing heap with
  | nil => exact absent
  | cons call rest ih =>
      refine ih ?_ fun holder member => never holder (List.mem_cons_of_mem _ member)
      cases call with
      | set holder =>
          have differs := never holder List.mem_cons_self
          exact (Heap.get_set_of_ne differs.symm).trans absent
      | free other =>
          by_cases own : other = name
          · rw [apply, own, Heap.free_of_get_eq_error absent]
            exact absent
          · exact (Heap.get_free_of_ne (Ne.symm own)).trans absent

theorem get_apply_known (call : HeapCall) (known : heap.get name ≠ .error (.invalidKey name)) :
    (call.apply heap).get name ≠ .error (.invalidKey name) := by
  by_cases own : call.name = name
  · subst own
    cases call with
    | set holder =>
        have stored := heap.get_set_self holder
        simp [apply, HeapCall.name, stored]
    | free other =>
        have given := Heap.get_free_self known
        simp only [HeapCall.name] at given ⊢
        simp [apply, given]
  · rwa [call.get_apply_of_ne own]

/-- Once stored, a name is never unknown again. -/
theorem get_run_known (known : heap.get name ≠ .error (.invalidKey name))
    (calls : List HeapCall) : (run heap calls).get name ≠ .error (.invalidKey name) := by
  induction calls generalizing heap with
  | nil => exact known
  | cons call rest ih => exact ih (call.get_apply_known known)

theorem run_append_cons (heap : Heap) (before after : List HeapCall) (call : HeapCall) :
    run heap (before ++ call :: after) = run (call.apply (run heap before)) after := by
  rw [run, List.foldl_append, List.foldl_cons]
  rfl

theorem get_run_of_stored {holder : Variable} (stored : set holder ∈ calls)
    (named : holder.name = name) : (run heap calls).get name ≠ .error (.invalidKey name) := by
  obtain ⟨before, after, rfl⟩ := List.append_of_mem stored
  rw [run_append_cons]
  refine get_run_known ?_ after
  rw [apply, ← named, Heap.get_set_self]
  exact fun same => nomatch same

theorem get_run_of_leaves (leaves : Leaves name calls fate) :
    (run .empty calls).get name = fate.answer name := by
  cases leaves with
  | unset never => exact get_run_of_error rfl never
  | held named untouched =>
      rw [run_append_cons, get_run_of_untouched untouched, apply, ← named, Heap.get_set_self]
      rfl
  | removed stored named never =>
      rw [run_append_cons]
      exact get_run_of_error (Heap.get_free_self (get_run_of_stored stored named)) never

theorem Leaves.append_of_ne (leaves : Leaves name calls fate) {call : HeapCall}
    (differs : call.name ≠ name) : Leaves name (calls ++ [call]) fate := by
  have stays (other : Variable) (added : set other ∈ [call]) : other.name ≠ name := by
    rw [List.mem_singleton] at added
    subst added
    exact differs
  cases leaves with
  | unset never =>
      refine .unset fun other member => ?_
      rcases List.mem_append.1 member with earlier | added
      · exact never other earlier
      · exact stays other added
  | held named untouched =>
      rw [List.append_assoc, List.cons_append]
      refine .held named fun other member => ?_
      rcases List.mem_append.1 member with earlier | added
      · exact untouched other earlier
      · rwa [List.mem_singleton.1 added]
  | removed stored named never =>
      rw [List.append_assoc, List.cons_append]
      refine .removed stored named fun other member => ?_
      rcases List.mem_append.1 member with earlier | added
      · exact never other earlier
      · exact stays other added

/-- A release leaves a held name removed, and the others as they are. -/
theorem Leaves.append_free (leaves : Leaves name calls fate) :
    ∃ next, Leaves name (calls ++ [free name]) next := by
  cases leaves with
  | unset never =>
      refine ⟨.unset, .unset fun other member => ?_⟩
      exact never other (by simpa using member)
  | held named untouched =>
      exact ⟨.removed, .removed (List.mem_append_right _ List.mem_cons_self) named (by simp)⟩
  | removed stored named never =>
      rw [List.append_assoc, List.cons_append]
      refine ⟨.removed, .removed stored named fun other member => ?_⟩
      exact never other (by simpa using member)

theorem exists_leaves (name : Name) (calls : List HeapCall) :
    ∃ fate, Leaves name calls fate := by
  induction calls using List.reverseRecOn with
  | nil => exact ⟨.unset, .unset (by simp)⟩
  | append_singleton calls call ih =>
      obtain ⟨fate, leaves⟩ := ih
      by_cases own : call.name = name
      · cases call with
        | set holder => exact ⟨.held holder, .held own (by simp)⟩
        | free other =>
            obtain rfl : other = name := own
            exact leaves.append_free
      · exact ⟨fate, leaves.append_of_ne own⟩

theorem leaves_iff_get_run :
    Leaves name calls fate ↔ (run .empty calls).get name = fate.answer name := by
  refine ⟨get_run_of_leaves, fun answered => ?_⟩
  obtain ⟨other, leaves⟩ := exists_leaves name calls
  have same := Fate.answer_injective name ((get_run_of_leaves leaves).symm.trans answered)
  exact same ▸ leaves

theorem contains_run_iff :
    (run .empty calls).contains name = true ↔ ∃ holder, Leaves name calls (.held holder) := by
  simp only [Heap.contains_iff, leaves_iff_get_run, Fate.answer]

end Runs

/--
After any stores and releases on an empty heap each name has one fate, which the
calls leave under it, and a look-up, a change in place and a release all answer
with it: a held name with the variable stored last, a removed one with a use
after free, an unset one with an invalid key.  The heap contains the held names,
and as many variables as there are such names.  A call that fails leaves the
heap alone.
-/
theorem answers_run_empty (calls : List HeapCall) (name : Name) :
    let heap := run .empty calls
    (∃ fate, Leaves name calls fate) ∧
      (∀ fate, Leaves name calls fate ↔ heap.get name = fate.answer name) ∧
      (heap.free name).1 = heap.get name ∧
      (∀ change, heap.modify name change = do
        let holder ← heap.get name
        let changed ← change holder
        return { heap with live := heap.live.insert name changed }) ∧
      (heap.contains name = true ↔ ∃ holder, Leaves name calls (.held holder)) ∧
      (∃ names : List Name, names.Nodup ∧ heap.size = names.length ∧
        ∀ other, other ∈ names ↔ ∃ holder, Leaves other calls (.held holder)) ∧
      ∀ cause, heap.get name = .error cause →
        heap.free name = (.error cause, heap) ∧
          ∀ change, heap.modify name change = .error cause := by
  intro heap
  have modifies := Heap.modify_eq_get (isApart_run Heap.isApart_empty calls) name
  refine ⟨exists_leaves name calls, fun fate => leaves_iff_get_run, heap.free_eq_get name,
    modifies, contains_run_iff, ?_, fun cause absent => ?_⟩
  · refine ⟨heap.live.keys, heap.live.distinct, by simp [Heap.size, FiniteMap.size, FiniteMap.keys],
      fun other => ?_⟩
    rw [Heap.mem_keys_iff, contains_run_iff]
  · refine ⟨Heap.free_of_get_eq_error absent, fun change => ?_⟩
    rw [modifies, absent]
    rfl

end HeapCall

end HybridQuantum
