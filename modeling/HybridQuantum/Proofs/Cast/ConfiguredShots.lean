import HybridQuantum.Cast.Config
import HybridQuantum.Execution.Handle

/-!
# Configured shots

The check of a configuration looks at the fixed number of shots only.  Without one
the policy decides, and a policy may be silent: it may ask for no shots at all over
some numbers of indices, or over every number.  A program submitted with such an
estimate is refused before the back end sees it.
-/

namespace HybridQuantum

namespace Word

theorem saturate32_eq_zero_iff {number : Nat} : saturate32 number = 0 ↔ number = 0 := by
  rw [← UInt32.toNat_inj, toNat_saturate32, UInt32.toNat_zero]
  simp only [UInt32.size]
  omega

theorem toNat_eq_zero_iff {word : UInt32} : word.toNat = 0 ↔ word = 0 := by
  rw [← UInt32.toNat_inj, UInt32.toNat_zero]

theorem saturate32_mul_eq_zero_iff {count rate : UInt32} (some : count ≠ 0) :
    saturate32 (count.toNat * rate.toNat) = 0 ↔ rate = 0 := by
  rw [saturate32_eq_zero_iff, Nat.mul_eq_zero, toNat_eq_zero_iff, toNat_eq_zero_iff]
  exact or_iff_right some

end Word

namespace LinearShots

variable {policy : LinearShots} {count : Nat}

/-- The rate that a number of indices meets is zero, and so is the offset where it counts. -/
def IsSilent (policy : LinearShots) (count : Nat) : Prop :=
  if min count (UInt32.size - 1) ≤ policy.threshold.toNat then policy.perIndexLow = 0
  else policy.perIndexHigh = 0 ∧ policy.offsetHigh = 0

theorem estimate_eq_zero_iff (held : 0 < count) :
    policy.estimate count = 0 ↔ policy.IsSilent count := by
  have some : Word.saturate32 count ≠ 0 := by
    rw [ne_eq, Word.saturate32_eq_zero_iff]
    exact Nat.ne_of_gt held
  simp only [estimate, IsSilent, ← Word.toNat_saturate32, UInt32.le_iff_toNat_le]
  split
  · exact Word.saturate32_mul_eq_zero_iff some
  · rw [Word.saturate32_eq_zero_iff, Nat.add_eq_zero_iff, Word.toNat_eq_zero_iff,
      Word.toNat_eq_zero_iff, Word.saturate32_mul_eq_zero_iff some]

/-- Wherever some numbers of indices lie, below the threshold or above, something is not zero. -/
def IsPositive (policy : LinearShots) : Prop :=
  (0 < policy.threshold.toNat → policy.perIndexLow ≠ 0) ∧
    (policy.threshold.toNat < UInt32.size - 1 →
      ¬ (policy.perIndexHigh = 0 ∧ policy.offsetHigh = 0))

theorem isPositive_iff : policy.IsPositive ↔ ∀ count, 0 < count → ¬ policy.IsSilent count := by
  constructor
  · rintro ⟨low, high⟩ count held silent
    unfold IsSilent at silent
    split at silent
    · rename_i below
      refine low ?_ silent
      simp only [UInt32.size] at below
      omega
    · exact high (by omega) silent
  · intro speaks
    refine ⟨fun wide low => ?_, fun narrow high => ?_⟩
    · refine speaks 1 Nat.one_pos ?_
      rwa [IsSilent, if_pos (by omega)]
    · refine speaks (policy.threshold.toNat + 1) (Nat.succ_pos _) ?_
      rwa [IsSilent, if_neg (by omega)]

end LinearShots

namespace ShotsPolicy

variable {policy : ShotsPolicy} {count : Nat}

/-- The policy asks for no shots over a number of indices. -/
def IsSilent : ShotsPolicy → Nat → Prop
  | linear policy, count => policy.IsSilent count
  | fixed shots, _ => shots = 0

/-- The policy is silent over no number of indices. -/
def IsPositive : ShotsPolicy → Prop
  | linear policy => policy.IsPositive
  | fixed shots => shots ≠ 0

theorem estimate_eq_zero_iff (held : 0 < count) :
    policy.estimate count = 0 ↔ policy.IsSilent count := by
  cases policy with
  | linear policy => exact LinearShots.estimate_eq_zero_iff held
  | fixed shots => exact Iff.rfl

theorem isPositive_iff : policy.IsPositive ↔ ∀ count, 0 < count → ¬ policy.IsSilent count := by
  cases policy with
  | linear policy => exact LinearShots.isPositive_iff
  | fixed shots => exact ⟨fun some _ _ => some, fun speaks => speaks 1 Nat.one_pos⟩

end ShotsPolicy

namespace Handle

variable {σ : Type}

/-- Without shots nothing is submitted; otherwise the back end alone answers. -/
theorem execute_eq (backend : Backend σ) (program : String) (shots : UInt32) (state : σ) :
    execute backend program shots state =
      if shots = 0 then (Outcome.fail (.invalidShots "shots must be positive"), state)
      else ((backend.submit state program shots).1.map fun job => ⟨job, shots, backend.info.name⟩,
        (backend.submit state program shots).2) := by
  unfold execute
  split
  · rfl
  · rcases backend.submit state program shots with ⟨_ | _, _⟩ <;> rfl

end Handle

namespace RuntimeConfig

variable {config : RuntimeConfig}

theorem shots_ne_zero_of_validate (valid : config.validate = .ok ()) :
    config.execution.shots ≠ some 0 := by
  intro none
  unfold validate flaw? at valid
  simp only [none, if_true] at valid
  split at valid
  · cases valid
  · rename_i passed
    split at passed <;> try split at passed
    all_goals cases passed

theorem shotsFor_eq_zero_iff (valid : config.validate = .ok ()) {count : Nat} (held : 0 < count) :
    config.execution.shotsFor count = 0 ↔
      config.execution.shots = none ∧ config.execution.policy.IsSilent count := by
  have fixed := shots_ne_zero_of_validate valid
  unfold ExecutionConfig.shotsFor
  cases given : config.execution.shots with
  | none => simpa using ShotsPolicy.estimate_eq_zero_iff held
  | some shots =>
      rw [given] at fixed
      simpa using fixed

theorem forall_shotsFor_ne_zero_iff (valid : config.validate = .ok ()) :
    (∀ count, 0 < count → config.execution.shotsFor count ≠ 0) ↔
      (config.execution.shots = none → config.execution.policy.IsPositive) := by
  rw [ShotsPolicy.isPositive_iff]
  constructor
  · intro some unset count held silent
    exact some count held ((shotsFor_eq_zero_iff valid held).2 ⟨unset, silent⟩)
  · intro speaks count held none
    obtain ⟨unset, silent⟩ := (shotsFor_eq_zero_iff valid held).1 none
    exact speaks unset count held silent

/--
Under a configuration that passes its check, a number of indices gets no shots
exactly when the policy decides and is silent over it; so all numbers get some
exactly when a fixed number is given or the policy is positive.  Where there are
none a program is refused and the back end left alone, and elsewhere it is the
back end that answers.
-/
theorem shotsFor_of_validate (valid : config.validate = .ok ()) :
    (∀ count, 0 < count → (config.execution.shotsFor count = 0 ↔
      config.execution.shots = none ∧ config.execution.policy.IsSilent count)) ∧
    ((∀ count, 0 < count → config.execution.shotsFor count ≠ 0) ↔
      (config.execution.shots = none → config.execution.policy.IsPositive)) ∧
    ∀ {σ : Type} (backend : Backend σ) (program : String) (state : σ) (count : Nat), 0 < count →
      let shots := config.execution.shotsFor count
      (config.execution.shots = none ∧ config.execution.policy.IsSilent count →
        Handle.execute backend program shots state =
          (.fail (.invalidShots "shots must be positive"), state)) ∧
      (¬ (config.execution.shots = none ∧ config.execution.policy.IsSilent count) →
        Handle.execute backend program shots state =
          ((backend.submit state program shots).1.map fun job => ⟨job, shots, backend.info.name⟩,
            (backend.submit state program shots).2)) := by
  refine ⟨fun count => shotsFor_eq_zero_iff valid, forall_shotsFor_ne_zero_iff valid, ?_⟩
  intro σ backend program state count held shots
  rw [← shotsFor_eq_zero_iff valid held, Handle.execute_eq]
  exact ⟨fun none => if_pos none, fun some => if_neg some⟩

/-- The standard configuration with another policy. -/
def ofPolicy (policy : ShotsPolicy) : RuntimeConfig :=
  { standard with execution := { ExecutionConfig.standard with policy } }

/-- No shots for up to two indices. -/
def latePolicy : ShotsPolicy :=
  .linear { LinearShots.standard with threshold := 2, perIndexLow := 0 }

/-- Three indices get shots beyond a threshold of two, although two get none. -/
theorem shotsFor_of_validate_late :
    (ofPolicy latePolicy).validate = .ok () ∧
      (ofPolicy latePolicy).execution.shotsFor 2 = 0 ∧
      (ofPolicy latePolicy).execution.shotsFor 3 ≠ 0 := by
  have valid : (ofPolicy latePolicy).validate = .ok () := by rfl
  obtain ⟨zero, -⟩ := shotsFor_of_validate valid
  refine ⟨valid, (zero 2 (by decide)).2 ⟨rfl, rfl⟩, fun none => ?_⟩
  obtain ⟨-, high, -⟩ := (zero 3 (by decide)).1 none
  exact absurd high (by decide)

theorem execute_of_isSilent {policy : ShotsPolicy} {count : Nat} (held : 0 < count)
    (silent : policy.IsSilent count) {σ : Type} (backend : Backend σ) (program : String)
    (state : σ) :
    Handle.execute backend program ((ofPolicy policy).execution.shotsFor count) state =
      (.fail (.invalidShots "shots must be positive"), state) := by
  have none : (ofPolicy policy).execution.shotsFor count = 0 :=
    (ShotsPolicy.estimate_eq_zero_iff held).2 silent
  rw [Handle.execute_eq, if_pos none]

/-- Both configurations pass the check, and over two indices both have programs refused. -/
theorem validate_silent :
    ((ofPolicy (.fixed 0)).validate = .ok () ∧ (ofPolicy (.fixed 0)).execution.shotsFor 2 = 0) ∧
      ((ofPolicy latePolicy).validate = .ok () ∧ (ofPolicy latePolicy).execution.shotsFor 2 = 0) ∧
      ∀ {σ : Type} (backend : Backend σ) (program : String) (state : σ),
        Handle.execute backend program ((ofPolicy (.fixed 0)).execution.shotsFor 2) state =
            (.fail (.invalidShots "shots must be positive"), state) ∧
          Handle.execute backend program ((ofPolicy latePolicy).execution.shotsFor 2) state =
            (.fail (.invalidShots "shots must be positive"), state) := by
  have fixed : (ShotsPolicy.fixed 0).IsSilent 2 := rfl
  have late : latePolicy.IsSilent 2 := rfl
  refine ⟨⟨rfl, rfl⟩, ⟨rfl, rfl⟩, fun backend program state => ⟨?_, ?_⟩⟩
  · exact execute_of_isSilent (by decide) fixed backend program state
  · exact execute_of_isSilent (by decide) late backend program state

end RuntimeConfig

end HybridQuantum
