import HybridQuantum.Memory.Variable
import HybridQuantum.Proofs.Types.Members
import Mathlib.Data.List.Perm.Subperm
import Mathlib.Data.Option.Basic

/-!
# How assignments lay out values

An assignment that goes through lays its values into the slots of the variable,
and says nothing else about them: one value of the right type for each slot, or
one value for one slot of a union or an enum.  Values that are given by name may
come in any order; sorting brings them into the order of the slots.
-/

namespace HybridQuantum

/-- A stored value that belongs into a slot: it has the slot's name and its type. -/
structure Slot.Takes (slot : Slot) (entry : Option String × Literal) : Prop where
  name : entry.1 = slot.name
  type : slot.type = some entry.2.type

/-- No two slots of a declared type have one name. -/
theorem DataType.IsFormed.nodup_layout {type : DataType} (formed : type.IsFormed) :
    ((Slot.layout type).map Slot.name).Nodup := by
  unfold Slot.layout
  split
  · exact List.nodup_singleton _
  · rw [List.map_map]
    exact formed.distinct

/-- Entries fill slots one by one when they name them in order and each belongs into some slot. -/
theorem Slot.forall₂_takes_iff {slots : List Slot} {data : List (Option String × Literal)}
    (distinct : (slots.map Slot.name).Nodup) :
    List.Forall₂ Slot.Takes slots data ↔
      data.map Prod.fst = slots.map Slot.name ∧
        ∀ entry ∈ data, ∃ slot ∈ slots, slot.Takes entry := by
  constructor
  · intro filled
    clear distinct
    induction filled with
    | nil => simp
    | @cons slot entry slots data own _ ih =>
        refine ⟨by rw [List.map_cons, List.map_cons, own.name, ih.1], ?_⟩
        rw [List.forall_mem_cons]
        refine ⟨⟨slot, List.mem_cons_self, own⟩, fun other given => ?_⟩
        obtain ⟨taker, listed, takes⟩ := ih.2 other given
        exact ⟨taker, List.mem_cons_of_mem slot listed, takes⟩
  · rintro ⟨names, taken⟩
    have count : slots.length = data.length := by simpa using (congrArg List.length names).symm
    refine List.forall₂_iff_get.2 ⟨count, fun i below_slots below_data => ?_⟩
    obtain ⟨slot, listed, takes⟩ := taken _ (List.get_mem data ⟨i, below_data⟩)
    have same : slot.name = (slots.get ⟨i, below_slots⟩).name := by
      have named := List.getElem_of_eq names (by simpa using below_data)
      rw [List.getElem_map, List.getElem_map] at named
      exact takes.name.symm.trans named
    rwa [← List.inj_on_of_nodup_map distinct listed (List.get_mem _ _) same]

/-- What is stored of a value that is given by name. -/
def Variable.namedEntry (pair : String × Literal) : Option String × Literal :=
  (some pair.1, pair.2)

theorem Variable.map_fst_namedEntry (pairs : List (String × Literal)) :
    (pairs.map namedEntry).map Prod.fst = (pairs.map Prod.fst).map some := by
  simp [namedEntry, Function.comp_def]

section Keys

variable {α κ : Type}

/-- Of entries with distinct names, the one of a name is found. -/
theorem find?_eq_some_iff_of_nodup {key : α → Option String} {entries : List α} {entry : α}
    {name : String} (distinct : (entries.map key).Nodup) :
    (entries.find? fun other => key other == some name) = some entry ↔
      entry ∈ entries ∧ key entry = some name := by
  have named {other : α}
      (found : (entries.find? fun other => key other == some name) = some other) :
      key other = some name := by
    simpa using List.find?_some found
  constructor
  · exact fun found => ⟨List.mem_of_find?_eq_some found, named found⟩
  · rintro ⟨listed, own⟩
    cases found : entries.find? fun other => key other == some name with
    | none => exact absurd (beq_iff_eq.2 own) (List.find?_eq_none.1 found entry listed)
    | some other =>
        rw [List.inj_on_of_nodup_map distinct (List.mem_of_find?_eq_some found) listed
          ((named found).trans own.symm)]

/-- Entries are in order under other keys after some reordering, when their keys are. -/
theorem exists_perm_map_eq {key : α → κ} {entries : List α} {keys : List κ}
    (perm : (entries.map key).Perm keys) :
    ∃ sorted : List α, sorted.Perm entries ∧ sorted.map key = keys := by
  have lifted : Relation.Comp (· = List.map key ·) List.Perm keys entries := by
    rw [List.eq_map_comp_perm]
    exact perm.symm
  obtain ⟨sorted, same, reordered⟩ := lifted
  exact ⟨sorted, reordered, same.symm⟩

/-- Reorderings of each other with the same distinct keys in the same order are equal. -/
theorem eq_of_perm_of_map_eq {key : α → κ} {first second : List α} (perm : first.Perm second)
    (keys : first.map key = second.map key) (distinct : (first.map key).Nodup) :
    first = second := by
  induction first generalizing second with
  | nil => exact perm.nil_eq
  | cons entry rest ih =>
      cases second with
      | nil => cases keys
      | cons other others =>
          rw [List.map_cons, List.map_cons, List.cons.injEq] at keys
          obtain rfl : entry = other := List.inj_on_of_nodup_map distinct List.mem_cons_self
            (perm.mem_iff.2 List.mem_cons_self) keys.1
          rw [ih ((List.perm_cons entry).1 perm) keys.2 (List.nodup_cons.1 distinct).2]

/-- Sorting by a key recovers any list on which the key ascends. -/
theorem mergeSort_eq_of_perm_of_ascending {key : α → Nat} {entries sorted : List α}
    (perm : entries.Perm sorted)
    (ascending : sorted.Pairwise fun left right => key left < key right) :
    entries.mergeSort (fun left right => key left ≤ key right) = sorted := by
  have ordered : (entries.mergeSort fun left right => key left ≤ key right).Pairwise
      fun left right => decide (key left ≤ key right) = true :=
    List.pairwise_mergeSort (by simpa using fun _ _ _ => Nat.le_trans)
      (by simpa using fun _ _ => Nat.le_total _ _) entries
  have same := (List.mergeSort_perm entries fun left right => key left ≤ key right).trans perm
  have distinct : (sorted.map key).Nodup :=
    List.pairwise_map.2 (ascending.imp fun below => Nat.ne_of_lt below)
  refine same.eq_of_pairwise (fun left right inSorted listed below above => ?_) ordered
    (ascending.imp fun below => decide_eq_true below.le)
  refine List.inj_on_of_nodup_map distinct (same.subset inSorted) listed ?_
  exact Nat.le_antisymm (of_decide_eq_true below) (of_decide_eq_true above)

end Keys

namespace Variable

variable {holder next : Variable}

theorem checkSlot_eq_ok_iff {slot : Slot} {value : Literal} :
    holder.checkSlot slot value = .ok () ↔ slot.type = some value.type := by
  unfold checkSlot
  cases slot.type with
  | none => simp
  | some expected =>
      simp only [Option.some.injEq]
      split <;> simp [*]

section Positional

variable {values : List Literal} {data : List (Option String × Literal)}

/-- Values laid by position are one for each slot. -/
theorem fillSlots_eq_ok_iff {slots : List Slot} (count : values.length = slots.length) :
    holder.fillSlots slots values = .ok data ↔
      List.Forall₂ Slot.Takes slots data ∧ data.map Prod.snd = values := by
  induction slots generalizing values data with
  | nil =>
      obtain rfl := List.length_eq_zero_iff.1 count
      cases data <;> simp [fillSlots]
  | cons slot slots ih =>
      cases values with
      | nil => cases count
      | cons value values =>
          have filled (rest : List (Option String × Literal)) :
              holder.fillSlots slots values = .ok rest ↔
                List.Forall₂ Slot.Takes slots rest ∧ rest.map Prod.snd = values :=
            ih (Nat.succ.inj count)
          constructor
          · intro done
            obtain ⟨⟨⟩, checked, done⟩ := exists_of_bind_eq_ok done
            obtain ⟨rest, laid, done⟩ := exists_of_bind_eq_ok done
            cases done
            have ⟨taken, same⟩ := (filled rest).1 laid
            exact ⟨.cons ⟨rfl, checkSlot_eq_ok_iff.1 checked⟩ taken, by rw [List.map_cons, same]⟩
          · rintro ⟨taken, same⟩
            cases taken with
            | @cons _ entry _ rest own taken =>
                rw [List.map_cons, List.cons.injEq] at same
                obtain ⟨name, content⟩ := entry
                obtain rfl : content = value := same.1
                obtain rfl : name = slot.name := own.name
                rw [fillSlots, checkSlot_eq_ok_iff.2 own.type, ok_bind,
                  (filled rest).2 ⟨taken, same.2⟩]
                rfl

theorem layPositional_eq_ok_iff :
    holder.layPositional values = .ok data ↔
      List.Forall₂ Slot.Takes holder.slots data ∧ data.map Prod.snd = values := by
  unfold layPositional
  split
  · rename_i count
    exact fillSlots_eq_ok_iff count
  · rename_i mismatch
    simp only [reduceCtorEq, false_iff]
    rintro ⟨taken, rfl⟩
    exact mismatch (by rw [List.length_map, taken.length_eq])

/-- The entries that an assignment by position stores. -/
def lay (holder : Variable) (values : List Literal) :
    Except MemoryError (List (Option String × Literal)) :=
  match holder.container with
  | .single => holder.layPositional values
  | .struct => holder.layPositional values
  | .union => do holder.layAlternative (← holder.exactlyOne values)
  | .enum => do holder.layTag (← holder.exactlyOne values)

theorem assign_eq_lay (values : List Literal) :
    holder.assign values = do
      holder.checkWritable
      let data ← holder.lay values
      return holder.store data := by
  unfold assign lay
  cases holder.container <;> simp only [bind_assoc]

theorem assign_eq_ok_iff :
    holder.assign values = .ok next ↔
      holder.checkWritable = .ok () ∧
        ∃ data, holder.lay values = .ok data ∧ next = holder.store data := by
  rw [assign_eq_lay]
  constructor
  · intro done
    obtain ⟨⟨⟩, writable, done⟩ := exists_of_bind_eq_ok done
    obtain ⟨data, laid, done⟩ := exists_of_bind_eq_ok done
    cases done
    exact ⟨writable, data, laid, rfl⟩
  · rintro ⟨writable, data, laid, rfl⟩
    rw [writable, ok_bind, laid]
    rfl

/-- Where every slot is to be filled, values by position fill them in order. -/
theorem lay_eq_ok_iff_filled
    (sequential : holder.container = .single ∨ holder.container = .struct) :
    holder.lay values = .ok data ↔
      List.Forall₂ Slot.Takes holder.slots data ∧ data.map Prod.snd = values := by
  rw [← layPositional_eq_ok_iff]
  rcases sequential with single | struct <;> simp only [lay, *]

end Positional

section Named

variable {pairs : List (String × Literal)} {data result : List (Option String × Literal)}

/-- A named value is taken by a slot, and is not among the values before it. -/
theorem collectNamed_cons_eq_ok_iff (distinct : (holder.slots.map Slot.name).Nodup)
    {pair : String × Literal} :
    holder.collectNamed data (pair :: pairs) = .ok result ↔
      (∃ slot ∈ holder.slots, slot.Takes (namedEntry pair)) ∧
        (∀ entry ∈ data, entry.1 ≠ some pair.1) ∧
        holder.collectNamed (data ++ [namedEntry pair]) pairs = .ok result := by
  obtain ⟨member, value⟩ := pair
  have fresh : (data.any fun entry => entry.1 == some member) = false ↔
      ∀ entry ∈ data, entry.1 ≠ some member := by
    simp
  rw [collectNamed, ← fresh]
  constructor
  · intro done
    cases found : holder.slots.find? fun slot => slot.name == some member with
    | none =>
        rw [found] at done
        cases done
    | some slot =>
        rw [found] at done
        obtain ⟨⟨⟩, checked, done⟩ := exists_of_bind_eq_ok done
        obtain ⟨listed, named⟩ := (find?_eq_some_iff_of_nodup distinct).1 found
        split at done
        · cases done
        · rename_i absent
          exact ⟨⟨slot, listed, named.symm, checkSlot_eq_ok_iff.1 checked⟩,
            eq_false_of_ne_true absent, done⟩
  · rintro ⟨⟨slot, listed, taken⟩, absent, done⟩
    have checked : holder.checkSlot slot value = .ok () := checkSlot_eq_ok_iff.2 taken.type
    rw [(find?_eq_some_iff_of_nodup distinct).2 ⟨listed, taken.name.symm⟩]
    simp only [checked, ok_bind, absent, Bool.false_eq_true, if_false]
    exact done

/-- Values are collected by name when each has a slot and none is given twice. -/
theorem collectNamed_eq_ok_iff (distinct : (holder.slots.map Slot.name).Nodup) :
    holder.collectNamed data pairs = .ok result ↔
      (∀ pair ∈ pairs, ∃ slot ∈ holder.slots, slot.Takes (namedEntry pair)) ∧
        (∀ pair ∈ pairs, ∀ entry ∈ data, entry.1 ≠ some pair.1) ∧
        (pairs.map Prod.fst).Nodup ∧ result = data ++ pairs.map namedEntry := by
  induction pairs generalizing data with
  | nil => simp [collectNamed, eq_comm]
  | cons pair rest ih =>
      have grown : (∀ later ∈ rest, ∀ entry ∈ data ++ [namedEntry pair], entry.1 ≠ some later.1) ↔
          (∀ later ∈ rest, ∀ entry ∈ data, entry.1 ≠ some later.1) ∧
            pair.1 ∉ rest.map Prod.fst := by
        simp only [List.forall_mem_append, List.forall_mem_singleton, namedEntry, ne_eq,
          Option.some.injEq, forall₂_and, List.mem_map, not_exists, not_and]
        exact and_congr_right fun _ => forall₂_congr fun _ _ => ne_comm
      rw [collectNamed_cons_eq_ok_iff distinct, ih, grown, List.forall_mem_cons,
        List.forall_mem_cons, List.map_cons, List.nodup_cons, List.map_cons, List.append_assoc,
        List.singleton_append]
      tauto

/-- An assignment by name stores the given values, sorted by slot. -/
theorem assignNamed_eq_ok_iff (distinct : (holder.slots.map Slot.name).Nodup) :
    holder.assignNamed pairs = .ok next ↔
      holder.checkWritable = .ok () ∧ pairs.length = holder.namedCount ∧
        (∀ pair ∈ pairs, ∃ slot ∈ holder.slots, slot.Takes (namedEntry pair)) ∧
        (pairs.map Prod.fst).Nodup ∧
        next = holder.store ((pairs.map namedEntry).mergeSort fun left right =>
          holder.slotIndex left.1 ≤ holder.slotIndex right.1) := by
  constructor
  · intro done
    obtain ⟨⟨⟩, writable, done⟩ := exists_of_bind_eq_ok done
    split at done
    · rename_i count
      obtain ⟨⟨⟩, -, done⟩ := exists_of_bind_eq_ok done
      obtain ⟨data, collected, done⟩ := exists_of_bind_eq_ok done
      obtain ⟨taken, -, fresh, rfl⟩ := (collectNamed_eq_ok_iff distinct).1 collected
      cases done
      exact ⟨writable, count, taken, fresh, rfl⟩
    · cases done
  · rintro ⟨writable, count, taken, fresh, rfl⟩
    have collected : holder.collectNamed [] pairs = .ok ([] ++ pairs.map namedEntry) :=
      (collectNamed_eq_ok_iff distinct).2 ⟨taken, by simp, fresh, rfl⟩
    rw [assignNamed, writable, ok_bind, if_pos count, ok_bind, collected]
    rfl

/-- Entries that name the slots in order ascend by the position of their slot. -/
theorem ascending_slotIndex (distinct : (holder.slots.map Slot.name).Nodup)
    (own : data.map Prod.fst = holder.slots.map Slot.name) :
    data.Pairwise fun left right => holder.slotIndex left.1 < holder.slotIndex right.1 := by
  have position (member : Option String) :
      holder.slotIndex member = (holder.slots.map Slot.name).idxOf member := by
    rw [slotIndex, List.idxOf, List.findIdx_map]
    rfl
  have names : (holder.slots.map Slot.name).Pairwise fun left right =>
      holder.slotIndex left < holder.slotIndex right := by
    rw [List.pairwise_iff_getElem]
    intro i j below_i below_j earlier
    rwa [position, position, distinct.idxOf_getElem, distinct.idxOf_getElem]
  rwa [← own, List.pairwise_map] at names

/-- Where every slot is to be filled, values by name fill them whatever their order. -/
theorem assignNamed_eq_ok_iff_perm (distinct : (holder.slots.map Slot.name).Nodup)
    (sequential : holder.container = .single ∨ holder.container = .struct) :
    holder.assignNamed pairs = .ok next ↔
      holder.checkWritable = .ok () ∧
        ∃ data, List.Forall₂ Slot.Takes holder.slots data ∧ data.Perm (pairs.map namedEntry) ∧
          next = holder.store data := by
  have all : holder.namedCount = holder.slots.length := by
    rcases sequential with single | struct <;> simp [namedCount, *]
  rw [assignNamed_eq_ok_iff distinct, all]
  refine and_congr_right fun _ => ⟨?_, ?_⟩
  · rintro ⟨count, taken, fresh, rfl⟩
    have among : (pairs.map Prod.fst).map some ⊆ holder.slots.map Slot.name := by
      rintro name listed
      obtain ⟨member, given, rfl⟩ := List.mem_map.1 listed
      obtain ⟨pair, mentioned, rfl⟩ := List.mem_map.1 given
      obtain ⟨slot, listed, takes⟩ := taken pair mentioned
      exact List.mem_map.2 ⟨slot, listed, takes.name.symm⟩
    have reordered : ((pairs.map namedEntry).map Prod.fst).Perm (holder.slots.map Slot.name) := by
      rw [map_fst_namedEntry]
      have all := (fresh.map (Option.some_injective _)).subperm among
      exact all.perm_of_length_le (by simp [count])
    obtain ⟨data, perm, own⟩ := exists_perm_map_eq reordered
    refine ⟨data, (Slot.forall₂_takes_iff distinct).2 ⟨own, fun entry listed => ?_⟩, perm, ?_⟩
    · obtain ⟨pair, given, rfl⟩ := List.mem_map.1 (perm.subset listed)
      exact taken pair given
    · exact congrArg holder.store
        (mergeSort_eq_of_perm_of_ascending perm.symm (ascending_slotIndex distinct own))
  · rintro ⟨data, filled, perm, rfl⟩
    obtain ⟨own, taken⟩ := (Slot.forall₂_takes_iff distinct).1 filled
    have fresh : ((pairs.map Prod.fst).map some).Nodup := by
      rw [← map_fst_namedEntry, (perm.map Prod.fst).symm.nodup_iff, own]
      exact distinct
    refine ⟨?_, fun pair given => ?_, fresh.of_map some, ?_⟩
    · simpa using perm.length_eq.symm.trans filled.length_eq.symm
    · exact taken _ (perm.symm.subset (List.mem_map_of_mem given))
    · exact congrArg holder.store
        (mergeSort_eq_of_perm_of_ascending perm.symm (ascending_slotIndex distinct own)).symm

/-- Where one slot is to be filled, a single value by name fills the slot that it names. -/
theorem assignNamed_eq_ok_iff_singleton (distinct : (holder.slots.map Slot.name).Nodup)
    (selective : holder.container = .union ∨ holder.container = .enum) :
    holder.assignNamed pairs = .ok next ↔
      holder.checkWritable = .ok () ∧
        ∃ pair, pairs = [pair] ∧ (∃ slot ∈ holder.slots, slot.Takes (namedEntry pair)) ∧
          next = holder.store [namedEntry pair] := by
  have one : holder.namedCount = 1 := by
    rcases selective with union | enum <;> simp [namedCount, *]
  rw [assignNamed_eq_ok_iff distinct, one]
  refine and_congr_right fun _ => ⟨?_, ?_⟩
  · rintro ⟨count, taken, -, rfl⟩
    obtain ⟨pair, rfl⟩ := List.length_eq_one_iff.1 count
    refine ⟨pair, rfl, taken pair List.mem_cons_self, ?_⟩
    rw [List.map_singleton, List.mergeSort_singleton]
  · rintro ⟨pair, rfl, taken, rfl⟩
    refine ⟨rfl, by simpa using taken, List.nodup_singleton _, ?_⟩
    rw [List.map_singleton, List.mergeSort_singleton]

end Named

end Variable

end HybridQuantum
