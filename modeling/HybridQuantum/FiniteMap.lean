/-!
# Finite maps

A finite map is a list of entries with distinct keys.  The order of entries
carries no meaning; operations are described by what they do to `get?`.
-/

namespace HybridQuantum

/-- A map with finitely many entries, no two under one key. -/
structure FiniteMap (κ α : Type) where
  entries : List (κ × α)
  distinct : (entries.map Prod.fst).Nodup

namespace FiniteMap

variable {κ α : Type}

def empty : FiniteMap κ α :=
  ⟨[], List.nodup_nil⟩

instance : EmptyCollection (FiniteMap κ α) :=
  ⟨empty⟩

instance : Inhabited (FiniteMap κ α) :=
  ⟨empty⟩

def keys (map : FiniteMap κ α) : List κ :=
  map.entries.map Prod.fst

def values (map : FiniteMap κ α) : List α :=
  map.entries.map Prod.snd

def size (map : FiniteMap κ α) : Nat :=
  map.entries.length

variable [DecidableEq κ]

def get? (map : FiniteMap κ α) (key : κ) : Option α :=
  map.entries.lookup key

def contains (map : FiniteMap κ α) (key : κ) : Bool :=
  (map.get? key).isSome

/-- The map without the entry at `key`. -/
def erase (map : FiniteMap κ α) (key : κ) : FiniteMap κ α where
  entries := map.entries.filter (fun entry => entry.1 ≠ key)
  distinct := map.distinct.sublist (List.filter_sublist.map _)

/-- The map with `value` at `key`, whatever was there before. -/
def insert (map : FiniteMap κ α) (key : κ) (value : α) : FiniteMap κ α where
  entries := (key, value) :: (map.erase key).entries
  distinct := by
    refine List.nodup_cons.2 ⟨?_, (map.erase key).distinct⟩
    simp [erase]

/-- The entries in order, a later one replacing an earlier one under the same key. -/
def ofList (entries : List (κ × α)) : FiniteMap κ α :=
  entries.foldl (fun map entry => map.insert entry.1 entry.2) empty

@[simp]
theorem get?_empty (key : κ) : (empty : FiniteMap κ α).get? key = none :=
  rfl

theorem get?_erase (map : FiniteMap κ α) (key other : κ) :
    (map.erase key).get? other = if other = key then none else map.get? other := by
  simp only [get?, erase]
  generalize map.entries = entries
  induction entries with
  | nil => simp
  | cons entry rest ih =>
      obtain ⟨first, value⟩ := entry
      by_cases removed : first = key
      · subst removed
        rw [List.filter_cons_of_neg (by simp), ih]
        by_cases same : other = first
        · simp [same]
        · simp [same, List.lookup_cons, beq_false_of_ne same]
      · rw [List.filter_cons_of_pos (by simp [removed])]
        by_cases same : other = first
        · subst same
          simp [removed]
        · simpa [List.lookup_cons, beq_false_of_ne same] using ih

theorem get?_insert (map : FiniteMap κ α) (key other : κ) (value : α) :
    (map.insert key value).get? other = if other = key then some value else map.get? other := by
  by_cases same : other = key
  · subst same
    simp [get?, insert]
  · have rest := get?_erase map key other
    simp only [get?, same, if_false] at rest ⊢
    simp [insert, List.lookup_cons, beq_false_of_ne same, rest]

variable {map : FiniteMap κ α} {key : κ} {value : α}

theorem filter_ne_key {entries : List (κ × α)} (other : ∀ entry ∈ entries, entry.1 ≠ key) :
    entries.filter (fun entry => entry.1 ≠ key) = entries :=
  List.filter_eq_self.2 fun entry member => decide_eq_true (other entry member)

theorem values_insert_of_get?_eq_none (fresh : map.get? key = none) :
    (map.insert key value).values = value :: map.values := by
  have other : ∀ entry ∈ map.entries, entry.1 ≠ key := fun entry member =>
    (bne_iff_ne.1 (List.lookup_eq_none_iff.1 fresh entry member)).symm
  simp only [values, insert, erase, filter_ne_key other, List.map_cons]

theorem values_perm_of_get?_eq_some (found : map.get? key = some value) :
    map.values.Perm (value :: (map.erase key).values) := by
  obtain ⟨before, after, split, earlier⟩ := List.lookup_eq_some_iff.1 found
  have distinct := map.distinct
  rw [split, List.map_append, List.map_cons] at distinct
  have later : key ∉ after.map Prod.fst := (List.nodup_cons.1 (List.nodup_append.1 distinct).2.1).1
  have otherBefore : ∀ entry ∈ before, entry.1 ≠ key := fun entry member =>
    (bne_iff_ne.1 (earlier entry member)).symm
  have otherAfter : ∀ entry ∈ after, entry.1 ≠ key := by
    rintro entry member rfl
    exact later (List.mem_map_of_mem member)
  have erased : (map.erase key).entries = before ++ after := by
    simp only [erase, split]
    rw [List.filter_append, List.filter_cons_of_neg (by simp), filter_ne_key otherBefore,
      filter_ne_key otherAfter]
  simp only [values, erased, split, List.map_append, List.map_cons]
  exact List.perm_middle

end FiniteMap

end HybridQuantum
