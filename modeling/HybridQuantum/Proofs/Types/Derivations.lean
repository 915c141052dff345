import HybridQuantum.Proofs.Types.CycleReports

/-!
# Resolution finds what has a derivation

On every table, whatever is on record there, a size is found exactly when a
derivation adds it up from the records.  The walk follows the members of types
without a record only, so a derivation never leads back to where the walk is, even
when the members of some recorded type do.
-/

namespace HybridQuantum

namespace TypeTable

variable {σ : Type} {measure : Measure σ} {table : TypeTable}

mutual

/-- A name has one measure at most. -/
theorem Sized.eq_of_sized {name : Name} {value other : σ} :
    Sized measure table name value → Sized measure table name other → value = other
  | .own found known, .own found' known' => by
      rw [found] at found'
      cases found'
      exact Option.some.inj (known.symm.trans known')
  | .own found known, .sum found' unknown _ _ _ => by
      rw [found] at found'
      cases found'
      rw [known] at unknown
      cases unknown
  | .sum found unknown _ _ _, .own found' known => by
      rw [found] at found'
      cases found'
      rw [known] at unknown
      cases unknown
  | .sum found _ _ members summed, .sum found' _ _ members' summed' => by
      rw [found] at found'
      cases found'
      rw [members] at members'
      cases members'
      exact summed.eq_of_sizedAll summed'

theorem SizedAll.eq_of_sizedAll {names : List Name} {total result other : σ} :
    SizedAll measure table total names result → SizedAll measure table total names other →
      result = other
  | .nil _, .nil _ => rfl
  | .cons first added others, .cons first' added' others' => by
      cases first.eq_of_sized first'
      rw [added] at added'
      cases added'
      exact others.eq_of_sizedAll others'

end

section Walk

/-- Every sum has a derivation, and nothing on the path is summed up yet. -/
structure Consistent (measure : Measure σ) (table : TypeTable) (path : List Name) (sums : Sums σ) :
    Prop where
  sized : ∀ name value, sums.get? name = some value → Sized measure table name value
  vacant : ∀ place ∈ path, sums.get? place = none

theorem Consistent.empty : Consistent measure table [] .empty where
  sized := by
    intro name value held
    cases held
  vacant := by simp

mutual

/-- The walk sums nothing that it is in the middle of. -/
theorem vacant_measureOf {path : List Name} {sums : Sums σ} (name : Name)
    (vacant : ∀ place ∈ path, sums.get? place = none) :
    ∀ place ∈ path, (measureOf measure table path sums name).2.get? place = none := by
  rw [measureOf]
  split
  · exact vacant
  rename_i fresh
  split
  · exact vacant
  rename_i type found
  split
  · exact vacant
  rename_i memo
  split
  · exact vacant
  split
  · exact vacant
  rename_i memberTypes members
  have shorter := table.pending_append_lt (mem_names_of_get?_eq_some found) fresh
  have here : ∀ place ∈ path ++ [name], sums.get? place = none := by
    simpa [or_imp, forall_and, (Option.or_eq_none_iff.1 memo).1] using vacant
  have after : ∀ place ∈ path, (measureAll measure table (path ++ [name]) sums measure.zero
      memberTypes).2.get? place = none :=
    fun place onPath => vacant_measureAll measure.zero memberTypes here place (by simp [onPath])
  split
  · rename_i sums' outcome
    rwa [outcome] at after
  · rename_i cause sums' outcome
    rwa [outcome] at after
  · rename_i total sums' outcome
    rw [outcome] at after
    split
    · exact after
    · intro place onPath
      have other : place ≠ name := by
        rintro rfl
        exact fresh onPath
      rw [FiniteMap.get?_insert, if_neg other]
      exact after place onPath
termination_by (table.pending path, 0)
decreasing_by
  exact Prod.Lex.left _ _ shorter

theorem vacant_measureAll {path : List Name} {sums : Sums σ} (total : σ) (names : List Name)
    (vacant : ∀ place ∈ path, sums.get? place = none) :
    ∀ place ∈ path, (measureAll measure table path sums total names).2.get? place = none := by
  match names with
  | [] =>
      rw [measureAll]
      exact vacant
  | name :: rest =>
      have after : ∀ place ∈ path, (measureOf measure table path sums name).2.get? place = none :=
        vacant_measureOf name vacant
      rw [measureAll]
      split
      · rename_i fault sums' outcome
        rwa [outcome] at after
      · rename_i part sums' outcome
        rw [outcome] at after
        split
        · exact after
        · exact vacant_measureAll _ rest after
termination_by (table.pending path, names.length + 1)

end

theorem Consistent.measureOf {path : List Name} {sums : Sums σ}
    (consistent : Consistent measure table path sums) (name : Name) :
    Consistent measure table path (measureOf measure table path sums name).2 :=
  ⟨(sized_of_measureOf path name consistent.sized).2, vacant_measureOf name consistent.vacant⟩

mutual

/-- A derivation is found by the walk on every path that it does not lead back to. -/
theorem Sized.measureOf_eq {path : List Name} {sums : Sums σ} {name : Name} {value : σ}
    (consistent : Consistent measure table path sums) :
    Sized measure table name value →
      (∀ place ∈ path, ¬ Relation.ReflTransGen (table.Descends measure) name place) →
      (measureOf measure table path sums name).1 = .ok value
  | .own found known, apart => by
      have fresh : name ∉ path := fun onPath => apart name onPath .refl
      rw [measureOf, dif_neg fresh]
      split
      · rename_i missing
        rw [found] at missing
        cases missing
      rename_i type found'
      rw [found] at found'
      cases found'
      cases memo : sums.get? name with
      | none => simp [known]
      | some sum =>
          have same := (consistent.sized name sum memo).eq_of_sized (.own found known)
          simp [same]
  | .sum found unknown allowed members summed, apart => by
      rename_i type memberTypes
      have fresh : name ∉ path := fun onPath => apart name onPath .refl
      have sized := Sized.sum found unknown allowed members summed
      have cycleFree := not_transGen_self_of_acc sized.acc_descends
      rw [measureOf, dif_neg fresh]
      split
      · rename_i missing
        rw [found] at missing
        cases missing
      rename_i type found'
      rw [found] at found'
      cases found'
      cases memo : sums.get? name with
      | some sum =>
          have same := (consistent.sized name sum memo).eq_of_sized sized
          simp [same]
      | none =>
          have below : Consistent measure table (path ++ [name]) sums :=
            ⟨consistent.sized, by simpa [or_imp, forall_and, memo] using consistent.vacant⟩
          have summing := summed.measureAll_eq below fun other member =>
            not_reaches_of_step cycleFree apart
              ⟨_, found, unknown, by rwa [← memberTypes_of_dependencies_eq_ok members]⟩
          have vacant : (measureAll measure table (path ++ [name]) sums measure.zero
              memberTypes).2.get? name = none :=
            vacant_measureAll measure.zero memberTypes below.vacant name (by simp)
          simp only [unknown, Option.or_none, allowed, members]
          rcases outcome : measureAll measure table (path ++ [name]) sums measure.zero memberTypes
            with ⟨answer, after⟩
          rw [outcome] at summing vacant
          simp only at summing vacant
          simp [summing, vacant]

theorem SizedAll.measureAll_eq {path : List Name} {sums : Sums σ} {total result : σ}
    {names : List Name} (consistent : Consistent measure table path sums) :
    SizedAll measure table total names result →
      (∀ other ∈ names, ∀ place ∈ path,
        ¬ Relation.ReflTransGen (table.Descends measure) other place) →
      (measureAll measure table path sums total names).1 = .ok result
  | .nil _, _ => by
      rw [measureAll]
  | .cons first added others, apart => by
      rename_i name rest part next
      have answers := first.measureOf_eq consistent (apart name List.mem_cons_self)
      have after := consistent.measureOf name
      rw [measureAll]
      rcases outcome : measureOf measure table path sums name with ⟨answer, later⟩
      rw [outcome] at answers after
      simp only at answers after
      simp only [answers, added]
      exact others.measureAll_eq after fun other member =>
        apart other (List.mem_cons_of_mem _ member)

end

/-- Whatever is on record, a measure is found exactly when it has a derivation. -/
theorem measureOf_eq_ok_iff {name : Name} {value : σ} :
    (measureOf measure table [] .empty name).1 = .ok value ↔ Sized measure table name value :=
  ⟨(sized_of_measureOf [] name Consistent.empty.sized).1 value,
    fun sized => sized.measureOf_eq .empty (by simp)⟩

end Walk

theorem resolveQSize_eq_ok_iff {name : Name} {value : QSize} :
    (table.resolveQSize name).1 = .ok value ↔ Sized .indices table name value :=
  measureOf_eq_ok_iff

theorem resolveSize_eq_ok_iff {name : Name} {value : UInt32} :
    (table.resolveSize name).1 = .ok value ↔ Sized .bits table name value :=
  measureOf_eq_ok_iff

end TypeTable

end HybridQuantum
