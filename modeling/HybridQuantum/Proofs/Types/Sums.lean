import HybridQuantum.Proofs.Types.History

/-!
# Sums of sizes

Checked sums of quantum sizes, told in natural numbers.  A property that the
builtins inside a type have and that sums keep is a property of the size of the
type.
-/

namespace HybridQuantum

theorem Word.add32?_eq_some_iff {left right sum : UInt32} :
    add32? left right = some sum ↔ sum.toNat = left.toNat + right.toNat := by
  refine ⟨toNat_of_add32?_eq_some, fun value => ?_⟩
  have fits : left.toNat + right.toNat < UInt32.size := value ▸ sum.toNat_lt
  rw [add32?, if_pos fits, Option.some_inj, ← UInt32.toNat_inj, UInt32.toNat_add,
    Nat.mod_eq_of_lt fits, value]

/-- Two summands may be added in either order. -/
theorem Word.add32?_exchange (total first second : UInt32) :
    (add32? total first).bind (add32? · second) = (add32? total second).bind (add32? · first) := by
  have sums (first second result : UInt32) :
      (add32? total first).bind (add32? · second) = some result ↔
        result.toNat = total.toNat + first.toNat + second.toNat := by
    simp only [Option.bind_eq_some_iff, add32?_eq_some_iff]
    constructor
    · rintro ⟨subtotal, earlier, later⟩
      rw [later, earlier]
    · intro value
      have fits : total.toNat + first.toNat < UInt32.size := by
        have bound := result.toNat_lt
        simp only [UInt32.size] at bound ⊢
        omega
      refine ⟨UInt32.ofNat (total.toNat + first.toNat), ?_, ?_⟩ <;>
        rw [UInt32.toNat_ofNat_of_lt' fits]
      exact value
  ext result
  rw [sums, sums, Nat.add_right_comm]

namespace QSize

variable {left right sum : QSize}

/-- The bounds of a sum, an undefined upper bound counted as zero. -/
theorem toNat_of_add? (added : left.add? right = some sum) :
    sum.min.toNat = left.min.toNat + right.min.toNat ∧
      (sum.max.getD 0).toNat = (left.max.getD 0).toNat + (right.max.getD 0).toNat ∧
      (sum.max = none ↔ left.max = none ∧ right.max = none) := by
  obtain ⟨raised, lower, upper⟩ := Option.bind_eq_some_iff.1 added
  obtain ⟨min, minSum, rfl⟩ := Option.map_eq_some_iff.1 lower
  have minValue := Word.toNat_of_add32?_eq_some minSum
  cases defined : right.max with
  | none =>
      rw [defined] at upper
      cases upper
      simp [minValue]
  | some count =>
      rw [defined] at upper
      obtain ⟨max, maxSum, rfl⟩ := Option.map_eq_some_iff.1 upper
      simp [minValue, Word.toNat_of_add32?_eq_some maxSum]

/-- There is a sum as long as both bounds are words. -/
theorem exists_add? (min : left.min.toNat + right.min.toNat < UInt32.size)
    (max : (left.max.getD 0).toNat + (right.max.getD 0).toNat < UInt32.size) :
    ∃ sum, left.add? right = some sum := by
  rw [add?, raiseMin?, Word.add32?, if_pos min]
  cases defined : right.max with
  | none => exact ⟨_, rfl⟩
  | some count =>
      rw [defined, Option.getD_some] at max
      simp only [Option.map_some, Option.bind_some, raiseMax?, Word.add32?]
      rw [if_pos max]
      exact ⟨_, rfl⟩

theorem eq_of_toNat (min : left.min.toNat = right.min.toNat)
    (max : (left.max.getD 0).toNat = (right.max.getD 0).toNat)
    (defined : left.max = none ↔ right.max = none) : left = right := by
  rcases left with ⟨leftMin, leftMax⟩
  rcases right with ⟨rightMin, rightMax⟩
  simp only [UInt32.toNat_inj] at min max defined
  subst min
  cases leftMax with
  | none => rw [defined.1 rfl]
  | some leftMax =>
      cases rightMax with
      | none => simp at defined
      | some rightMax => rw [Option.getD_some, Option.getD_some] at max; rw [max]

/-- Two summands may be added in either order, since no subtotal is larger than the result. -/
theorem add?_exchange (total first second : QSize) :
    (total.add? first).bind (·.add? second) = (total.add? second).bind (·.add? first) := by
  have oneWay (first second result : QSize)
      (summed : (total.add? first).bind (·.add? second) = some result) :
      (total.add? second).bind (·.add? first) = some result := by
    obtain ⟨subtotal, earlier, later⟩ := Option.bind_eq_some_iff.1 summed
    obtain ⟨minEarlier, maxEarlier, noneEarlier⟩ := toNat_of_add? earlier
    obtain ⟨minLater, maxLater, noneLater⟩ := toNat_of_add? later
    have minFits := result.min.toNat_lt
    have maxFits := (result.max.getD 0).toNat_lt
    obtain ⟨other, added⟩ : ∃ other, total.add? second = some other :=
      exists_add? (by simp only [UInt32.size]; omega) (by simp only [UInt32.size]; omega)
    obtain ⟨minOther, maxOther, noneOther⟩ := toNat_of_add? added
    obtain ⟨last, addedLast⟩ : ∃ last, other.add? first = some last :=
      exists_add? (by simp only [UInt32.size]; omega) (by simp only [UInt32.size]; omega)
    obtain ⟨minLast, maxLast, noneLast⟩ := toNat_of_add? addedLast
    rw [added, Option.bind_some, addedLast]
    refine congrArg some (eq_of_toNat (by omega) (by omega) ?_)
    rw [noneLast, noneOther, noneLater, noneEarlier, and_right_comm]
  exact Option.ext fun result => ⟨oneWay first second result, oneWay second first result⟩

end QSize

/-- A checked sum does not depend on the order of its summands. -/
theorem foldlM_eq_of_perm {σ α : Type} {add? : σ → α → Option σ}
    (exchange : ∀ total first second,
      (add? total first).bind (add? · second) = (add? total second).bind (add? · first))
    {parts others : List α} (same : parts.Perm others) (total : σ) :
    parts.foldlM add? total = others.foldlM add? total := by
  rw [List.foldlM_eq_foldl, List.foldlM_eq_foldl]
  refine same.foldl_eq' (fun first _ second _ sum => ?_) _
  cases sum with
  | none => rfl
  | some total => exact exchange total first second

namespace TypeTable

variable {σ : Type} {measure : Measure σ} {table : TypeTable}

section Closure

variable {closed : σ → Prop}

mutual

/-- What records have and sums keep, every total has. -/
theorem Sized.closed (zero : closed measure.zero)
    (add : ∀ left right sum, closed left → closed right → measure.add? left right = some sum →
      closed sum)
    {name : Name} {value : σ}
    (records : ∀ other type part, table.Reaches name other → table.get? other = some type →
      measure.recorded type = some part → closed part) :
    Sized measure table name value → closed value
  | .own found known => records _ _ _ .refl found known
  | .sum found _ _ members summed =>
      summed.closed zero add zero fun member listed other type part reached =>
        records other type part (.head ⟨_, found, by
          rwa [← memberTypes_of_dependencies_eq_ok members]⟩ reached)

theorem SizedAll.closed (zero : closed measure.zero)
    (add : ∀ left right sum, closed left → closed right → measure.add? left right = some sum →
      closed sum)
    {total result : σ} {names : List Name} (start : closed total)
    (records : ∀ name ∈ names, ∀ other type part, table.Reaches name other →
      table.get? other = some type → measure.recorded type = some part → closed part) :
    SizedAll measure table total names result → closed result
  | .nil _ => start
  | .cons first added others =>
      others.closed zero add
        (add _ _ _ start (first.closed zero add (records _ List.mem_cons_self)) added)
        fun member listed => records member (List.mem_cons_of_mem _ listed)

end

end Closure

/-- A builtin of this size is the named type itself, or lies inside it. -/
def Spans (table : TypeTable) (name : Name) (size : QSize) : Prop :=
  ∃ other type, table.Reaches name other ∧ table.get? other = some type ∧
    type.isBuiltin = true ∧ type.qsize = some size

/-- What every builtin inside a type has and sums keep, the size of the type has. -/
theorem closed_of_resolveQSize (sound : table.Sound) (closed : QSize → Prop)
    (zero : closed .empty)
    (add : ∀ left right sum, closed left → closed right → left.add? right = some sum → closed sum)
    {name : Name} (spanned : ∀ size, table.Spans name size → closed size) {size : QSize}
    (done : (table.resolveQSize name).1 = .ok size) : closed size := by
  refine (sound.resolveQSize_eq_ok_iff.1 done).closed zero add ?_
  intro other type part reached found known
  rw [Reaches, refers_declared] at reached
  rw [get?_declared] at found
  obtain ⟨before, foundBefore, rfl⟩ := Option.map_eq_some_iff.1 found
  rw [recordsSums_indices.recorded] at known
  split at known
  · rename_i builtin
    exact spanned part ⟨other, before, reached, foundBefore, builtin, known⟩
  · cases known

end TypeTable

end HybridQuantum
