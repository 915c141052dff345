import HybridQuantum.Proofs.Cast.TypeSoundness
import HybridQuantum.Proofs.Execution.PointCounts
import Mathlib.Tactic.IntervalCases

/-!
# Casting a basis state with and without a run

A quantum literal is a basis state and converts as its number.  A program that
ends in that state takes the other way: its bitstring goes through the spec of
the target first.  Both ways meet for every classical target but two.  A truth
value must be zero or one as a number, while every measured outcome but zero
counts as true; and a text is the number in decimal digits on one way, the
bitstring on the other.
-/

namespace HybridQuantum

open Circuit

/-- Both yield the same literal, or both fail. -/
def Agree (left right : Outcome CastError CastOutput) : Prop :=
  (∃ literal, left = .ok (.literal literal) ∧ right = .ok (.literal literal)) ∨
    ((∃ cause, left = .fail cause) ∧ ∃ cause, right = .fail cause)

namespace Cast

variable {σ : Type}

/--
The program of a variable of a quantum type ends in one basis state of the type,
and the most frequent outcome is asked for.
-/
structure Measures (context : CastContext σ) (origin : Name) (program : QuantumProgram) (state : σ)
    (width : UInt32) (number : Nat) : Prop where
  quantum : origin.isQuantum = true
  recorded : ∃ type, context.types.get? origin = some type ∧ type.qsize = some (.fixed width)
  some : 1 ≤ width.toNat
  short : width.toNat ≤ 64
  below : number < 2 ^ width.toNat
  held : ∃ indexes, program.pool.indexesOf? program.var = .some indexes ∧
    indexes.length = width.toNat
  resolver : context.resolver = .highest
  ran : ∃ shots, (program.run context.backend context.execution context.evaluator state).1 =
    .ok (.point (bitsText width.toNat number) shots)

/-- Casting the basis state of a number, which takes no run. -/
def castState (context : CastContext σ) (origin target : Name) (number : Nat) (state : σ) :
    Outcome CastError CastOutput :=
  (apply ⟨origin, target⟩ context (.literal (.core (.quantum (.ofNat number) origin))) state).1

/-- Casting the outcome of a program. -/
def castMeasured (context : CastContext σ) (origin target : Name) (program : QuantumProgram)
    (state : σ) : Outcome CastError CastOutput :=
  (apply ⟨origin, target⟩ context (.program program) state).1

/-- A converted value as a literal of the target. -/
def deliver (target : Name) (converted : Except CastError Value) : Outcome CastError CastOutput :=
  (Outcome.ofExcept converted).map fun value => .literal (.core ⟨value, target⟩)

theorem agree_deliver_self (target : Name) (converted : Except CastError Value) :
    Agree (deliver target converted) (deliver target converted) := by
  cases converted with
  | ok value => exact .inl ⟨_, rfl, rfl⟩
  | error cause => exact .inr ⟨⟨cause, rfl⟩, cause, rfl⟩

theorem agree_deliver_iff {target : Name} {left right : Value} :
    Agree (deliver target (.ok left)) (deliver target (.ok right)) ↔ left = right := by
  constructor
  · rintro (⟨literal, first, second⟩ | ⟨⟨cause, failed⟩, -⟩)
    · cases first
      cases second
      rfl
    · cases failed
  · rintro rfl
    exact agree_deliver_self target (.ok left)

theorem two_pow_le_ten_pow {width : Nat} (wide : 2 ≤ width) : 2 ^ width ≤ 10 ^ (width - 1) := by
  induction width, wide using Nat.le_induction with
  | base => decide
  | succ width wide ih =>
      calc 2 ^ (width + 1) = 2 ^ width * 2 := Nat.pow_succ 2 width
        _ ≤ 10 ^ (width - 1) * 10 := Nat.mul_le_mul ih (by decide)
        _ = 10 ^ (width - 1 + 1) := (Nat.pow_succ 10 (width - 1)).symm
        _ = 10 ^ (width + 1 - 1) := by congr 1; omega

/-- Decimal digits are fewer than binary ones, so only a single digit looks the same in both. -/
theorem toString_eq_bitsText_iff {number width : Nat} (some : 1 ≤ width)
    (below : number < 2 ^ width) : toString number = bitsText width number ↔ width = 1 := by
  constructor
  · intro same
    by_contra several
    have short : (Nat.toDigits 10 number).length ≤ width - 1 :=
      (Nat.length_toDigits_le_iff (by decide) (by omega)).2
        (Nat.lt_of_lt_of_le below (two_pow_le_ten_pow (by omega)))
    have digits : Nat.toDigits 10 number = (List.range width).reverse.map (bitChar number) := by
      rw [← toList_bitsText, ← same, Nat.toString_eq_ofList_toDigits, String.toList_ofList]
    rw [digits, List.length_map, List.length_reverse, List.length_range] at short
    omega
  · rintro rfl
    interval_cases number <;> decide

section Routes

variable {context : CastContext σ} {origin target : Name} {program : QuantumProgram} {state : σ}
  {width : UInt32} {number : Nat}

theorem not_sameQuantumType (quantum : origin.isQuantum = true)
    (classical : target.isQuantum = false) : ¬ (origin.isQuantum ∧ origin = target) := by
  rintro ⟨-, rfl⟩
  simp [quantum] at classical

/-- Without a run a basis state converts as its number. -/
theorem castState_eq (quantum : origin.isQuantum = true) (classical : target.isQuantum = false) :
    castState context origin target number state =
      deliver target (Conversion.toClassical (.uint (.ofNat number)) target) := by
  rw [castState, apply, if_neg (not_sameQuantumType quantum classical)]
  simp only [castLiteral, classical, Bool.false_eq_true, if_false, CoreLiteral.quantum, deliver]
  cases Conversion.toClassical (.uint (.ofNat number)) target <;> rfl

/-- A run converts the value that the spec of the target makes of the bitstring. -/
theorem castMeasured_eq (measures : Measures context origin program state width number)
    (classical : target.isQuantum = false) :
    castMeasured context origin target program state =
      match Spec.ofName? target with
      | none => .fail (.unsupported (.type origin) target .noSpec)
      | some spec =>
          match spec.ofBitstring? (bitsText width.toNat number) with
          | some value => deliver target (Conversion.toClassical value target)
          | none => .fail (.invalidResult program.var
              (ResolveError.unrepresentable (bitsText width.toNat number) spec).message) := by
  obtain ⟨type, found, recorded⟩ := measures.recorded
  obtain ⟨indexes, held, spans⟩ := measures.held
  obtain ⟨shots, ran⟩ := measures.ran
  have size : context.quantumSize origin = .ok (.fixed width) :=
    CastContext.quantumSize_eq_ok_iff.2 ⟨type, found, recorded⟩
  have checked : checkWidth ⟨origin, target⟩ program context = .ok () := by
    have admits : (QSize.fixed width).admits width.toNat = true := by
      simp [QSize.admits, QSize.fixed, width.toNat_lt_size]
    simp only [checkWidth, size, ok_bind, QuantumProgram.width_eq_ok held, spans, admits, if_true]
  rcases answered : program.run context.backend context.execution context.evaluator state with
    ⟨answer, after⟩
  rw [answered] at ran
  cases ran
  rw [castMeasured, apply, if_neg (not_sameQuantumType measures.quantum classical)]
  simp only [castProgram, measures.quantum, if_true, checked, answered, resolveRun, classical,
    Bool.false_eq_true, if_false, resolveClassical]
  cases Spec.ofName? target with
  | none => rfl
  | some spec =>
      simp only [resolve, measures.resolver, Resolver.highest, Counts.mostFrequent?_point,
        Resolver.choose]
      cases spec.ofBitstring? (bitsText width.toNat number) with
      | none => rfl
      | some value =>
          simp only [Outcome.mapError, ok_bind, deliver]
          cases Conversion.toClassical value target <;> rfl

namespace Measures

variable (measures : Measures context origin program state width number)
include measures

theorem word : number < UInt64.size :=
  Nat.lt_of_lt_of_le measures.below (Nat.pow_le_pow_right (by decide) measures.short)

theorem toNat_ofNat : (UInt64.ofNat number).toNat = number :=
  UInt64.toNat_ofNat_of_lt' measures.word

theorem readBits? :
    Spec.readBits? (bitsText width.toNat number) = .some (UInt64.ofNat number) :=
  readBits?_bitsText measures.some measures.word measures.below

/-- Both ways meet for every classical name that is neither of the truth values nor of texts. -/
theorem agree_of_ne (classical : target.isQuantum = false) (notBool : target ≠ .ofLeaf "bool")
    (notStr : target ≠ .ofLeaf "str") :
    Agree (castState context origin target number state)
      (castMeasured context origin target program state) := by
  rw [castState_eq measures.quantum classical, castMeasured_eq measures classical]
  cases known : ClassicalType.ofName? target with
  | none =>
      simp only [Spec.ofName?, known, Option.map_none, Conversion.toClassical]
      exact .inr ⟨⟨_, rfl⟩, _, rfl⟩
  | some kind =>
      obtain ⟨leaf, rfl, listed⟩ := ClassicalType.exists_of_ofName? known
      simp only [Spec.ofName?, known, Option.map_some]
      cases kind with
      | bool =>
          obtain rfl : leaf = "bool" := by simpa [ClassicalType.all] using listed
          exact absurd rfl notBool
      | str =>
          obtain rfl : leaf = "str" := by simpa [ClassicalType.all] using listed
          exact absurd rfl notStr
      | unsigned bits =>
          simp only [Spec.ofBitstring?, measures.readBits?, Option.map_some]
          exact agree_deliver_self _ _
      | int =>
          simp only [Spec.ofBitstring?, measures.readBits?, Option.map_some]
          exact agree_deliver_self _ _
      | float =>
          simp only [Spec.ofBitstring?, measures.readBits?, Option.map_some,
            Conversion.toClassical, known, Conversion.toFloat]
          exact agree_deliver_iff.2 rfl
      | char =>
          simp only [Spec.ofBitstring?, measures.readBits?, Option.bind_some,
            Conversion.toClassical, known, Conversion.toChar, Conversion.codeToChar,
            Conversion.bounded, Conversion.natural, ok_bind, measures.toNat_ofNat]
          by_cases large : UInt32.size - 1 < number
          · have invalid : ¬ number.isValidChar := by
              simp only [UInt32.size] at large
              rintro (small | ⟨-, small⟩) <;> omega
            simp only [large, if_true, charOfCode?, invalid, if_false, Option.map_none]
            exact .inr ⟨⟨_, rfl⟩, _, rfl⟩
          · simp only [large, if_false, ok_bind]
            cases charOfCode? number with
            | none => exact .inr ⟨⟨_, rfl⟩, _, rfl⟩
            | some char => exact agree_deliver_iff.2 rfl

/-- A number is a truth value only up to one. -/
theorem castState_bool :
    castState context origin (.ofLeaf "bool") number state =
      if number ≤ 1 then .ok (.literal (.core ⟨.bool (number == 1), .ofLeaf "bool"⟩))
      else .fail (.overflow number (.ofLeaf "bool") 1) := by
  have known : ClassicalType.ofName? (.ofLeaf "bool") = .some .bool := rfl
  rw [castState_eq measures.quantum (by decide)]
  simp only [Conversion.toClassical, known, Conversion.toBool, Conversion.bounded,
    Conversion.natural, ok_bind, measures.toNat_ofNat]
  by_cases small : number ≤ 1
  · simp only [small, if_true, Nat.not_lt.2 small, if_false]
    rfl
  · simp only [small, if_false, Nat.lt_of_not_le small, if_true]
    rfl

/-- Every measured outcome but zero is true. -/
theorem castMeasured_bool :
    castMeasured context origin (.ofLeaf "bool") program state =
      .ok (.literal (.core ⟨.bool (number != 0), .ofLeaf "bool"⟩)) := by
  have shaped : Spec.ofName? (.ofLeaf "bool") = .some .bool := rfl
  have same : (UInt64.ofNat number != 0) = (number != 0) := by
    rw [Bool.eq_iff_iff, bne_iff_ne, bne_iff_ne, ne_eq, ← UInt64.toNat_inj, measures.toNat_ofNat]
    rfl
  rw [castMeasured_eq measures (by decide), shaped]
  simp only [Spec.ofBitstring?, measures.readBits?, Option.map_some, same]
  rfl

/-- A number is written in decimal digits. -/
theorem castState_str :
    castState context origin (.ofLeaf "str") number state =
      .ok (.literal (.core ⟨.str (toString number), .ofLeaf "str"⟩)) := by
  rw [castState_eq measures.quantum (by decide)]
  change Except.ok (CastOutput.literal (.core ⟨.str (toString (UInt64.ofNat number).toNat), _⟩)) = _
  rw [measures.toNat_ofNat]

/-- A measured bitstring is a text already. -/
theorem castMeasured_str :
    castMeasured context origin (.ofLeaf "str") program state =
      .ok (.literal (.core ⟨.str (bitsText width.toNat number), .ofLeaf "str"⟩)) := by
  rw [castMeasured_eq measures (by decide)]
  rfl

theorem agree_bool_iff :
    Agree (castState context origin (.ofLeaf "bool") number state)
      (castMeasured context origin (.ofLeaf "bool") program state) ↔ number ≤ 1 := by
  rw [measures.castState_bool, measures.castMeasured_bool]
  by_cases small : number ≤ 1
  · have same : (number == 1) = (number != 0) := by interval_cases number <;> rfl
    rw [if_pos small, same]
    exact iff_of_true (.inl ⟨_, rfl, rfl⟩) small
  · rw [if_neg small]
    refine iff_of_false ?_ small
    rintro (⟨_, failed, -⟩ | ⟨-, _, failed⟩) <;> cases failed

theorem agree_str_iff :
    Agree (castState context origin (.ofLeaf "str") number state)
      (castMeasured context origin (.ofLeaf "str") program state) ↔ width.toNat = 1 := by
  rw [measures.castState_str, measures.castMeasured_str,
    ← toString_eq_bitsText_iff measures.some measures.below]
  exact (@agree_deliver_iff (.ofLeaf "str") _ _).trans (by rw [Value.str.injEq])

end Measures

end Routes

/--
Casting the basis state of a number without a run, and running a program that
ends in this state, yield the same literal or both fail, for every classical
target with two exceptions.  A truth value of a number above one is refused
without a run and true after one; a text is the number in decimal digits without
a run and the bitstring after one, which differ as soon as there are two digits.
-/
theorem agree_cast_iff {context : CastContext σ} {origin target : Name} {program : QuantumProgram}
    {state : σ} {width : UInt32} {number : Nat}
    (measures : Measures context origin program state width number)
    (classical : target.isQuantum = false) :
    (Agree (castState context origin target number state)
        (castMeasured context origin target program state) ↔
      ¬ (target = .ofLeaf "bool" ∧ 2 ≤ number) ∧
        ¬ (target = .ofLeaf "str" ∧ 2 ≤ width.toNat)) ∧
      (target = .ofLeaf "bool" → 2 ≤ number →
        castState context origin target number state = .fail (.overflow number target 1) ∧
        castMeasured context origin target program state =
          .ok (.literal (.core ⟨.bool true, target⟩))) ∧
      (target = .ofLeaf "str" →
        castState context origin target number state =
          .ok (.literal (.core ⟨.str (toString number), target⟩)) ∧
        castMeasured context origin target program state =
          .ok (.literal (.core ⟨.str (bitsText width.toNat number), target⟩))) := by
  by_cases isBool : target = .ofLeaf "bool"
  · subst isBool
    have other : Name.ofLeaf "bool" ≠ .ofLeaf "str" := by decide
    refine ⟨?_, fun _ several => ?_, fun isStr => absurd isStr other⟩
    · rw [measures.agree_bool_iff]
      simp only [true_and, other, false_and, not_false_eq_true, and_true]
      omega
    · have positive : (number != 0) = true := by simp; omega
      rw [measures.castState_bool, measures.castMeasured_bool, if_neg (by omega), positive]
      exact ⟨rfl, rfl⟩
  · by_cases isStr : target = .ofLeaf "str"
    · subst isStr
      refine ⟨?_, fun same => absurd same isBool, fun _ => ?_⟩
      · rw [measures.agree_str_iff]
        have some := measures.some
        simp only [isBool, false_and, not_false_eq_true, true_and]
        omega
      · exact ⟨measures.castState_str, measures.castMeasured_str⟩
    · refine ⟨?_, fun same => absurd same isBool, fun same => absurd same isStr⟩
      exact iff_of_true (measures.agree_of_ne classical isBool isStr)
        ⟨fun exception => isBool exception.1, fun exception => isStr exception.1⟩

/-- The sample program on a back end that reports the state its gates lead to. -/
def stateContext : CastContext ScriptLog where
  execution := QuantumProgram.sampleConfig
  backend := Script.backend
    ⟨.standard, none, [.ok .completed], .ok ⟨.point "011" 1000, 1000, none⟩, none⟩
  types := .builtins
  resolver := .highest
  evaluator := Lowering.sampleEvaluator

theorem run_stateContext :
    (QuantumProgram.sample.run stateContext.backend stateContext.execution stateContext.evaluator
      .empty).1 = .ok (.point "011" 1000) := by
  obtain ⟨text, submitted⟩ : ∃ text,
      QuantumProgram.sample.submit stateContext.backend stateContext.execution
          stateContext.evaluator .empty =
        (.ok ⟨⟨"job-1"⟩, 1000, BackendInfo.standard.name⟩, ⟨[(text, 1000)], 0, 0, 0, false⟩) :=
    ⟨_, rfl⟩
  have waited : (stateContext.backend.wait ⟨"job-1"⟩ stateContext.execution.timeout
      ⟨[(text, 1000)], 0, 0, 0, false⟩).1 = .ok ⟨.point "011" 1000, 1000, none⟩ := by
    rw [Backend.wait_of_hasDeadline (by decide)]
    exact Script.pollFrom_of_completed rfl rfl
  exact QuantumProgram.run_of_submit submitted (Handle.wait_of_validate waited rfl) rfl

theorem measures_sample :
    Measures stateContext (.ofLeaf "@u3") .sample ScriptLog.empty 3 3 where
  quantum := by decide
  recorded := ⟨.builtin (.ofLeaf "@u3") (.fixed 3) (.fixed 3), by decide, rfl⟩
  some := by decide
  short := by decide
  below := by decide
  held := ⟨[0, 1, 2], rfl, rfl⟩
  resolver := rfl
  ran := ⟨1000, run_stateContext⟩

/-- The state three is true when it is measured and no truth value as a number; as a text it
is `011` when it is measured and `3` as a number. -/
theorem not_agree_cast_sample :
    Measures stateContext (.ofLeaf "@u3") .sample ScriptLog.empty 3 3 ∧
      ¬ Agree (castState stateContext (.ofLeaf "@u3") (.ofLeaf "bool") 3 .empty)
        (castMeasured stateContext (.ofLeaf "@u3") (.ofLeaf "bool") .sample .empty) ∧
      ¬ Agree (castState stateContext (.ofLeaf "@u3") (.ofLeaf "str") 3 .empty)
        (castMeasured stateContext (.ofLeaf "@u3") (.ofLeaf "str") .sample .empty) := by
  refine ⟨measures_sample, ?_, ?_⟩
  · rw [measures_sample.agree_bool_iff]
    decide
  · rw [measures_sample.agree_str_iff]
    decide

/-- As a character both ways yield the one with code point three. -/
theorem agree_cast_sample :
    Measures stateContext (.ofLeaf "@u3") .sample ScriptLog.empty 3 3 ∧
      Agree (castState stateContext (.ofLeaf "@u3") (.ofLeaf "char") 3 .empty)
        (castMeasured stateContext (.ofLeaf "@u3") (.ofLeaf "char") .sample .empty) :=
  ⟨measures_sample, (agree_cast_iff measures_sample (by decide)).1.2 (by decide)⟩

end Cast

end HybridQuantum
