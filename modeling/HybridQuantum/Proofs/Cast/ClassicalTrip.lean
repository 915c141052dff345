import HybridQuantum.Proofs.Cast.DirectRoute
import HybridQuantum.Proofs.Cast.TypeSoundness
import HybridQuantum.Proofs.Lowering.BasisCode

/-!
# There and back through a quantum type

A classical number goes into a quantum type as a basis state and comes out of it
as a number.  Three places check its range: the encoding has a maximum for the
width, the lowering compares with a power of two unless the width covers a word,
and the classical target has a maximum of its own.  A canonical value passes all
three checks or stops at the first one.
-/

namespace HybridQuantum

/-- The number that a value stands for; floats and texts are not cast as numbers. -/
def Value.number? : Value → Option Int
  | .bool content => some content.toNat
  | .int content => some content.toInt
  | .uint content => some content.toNat
  | .char content => some content.toNat
  | .null | .float _ | .str _ => none

theorem ClassicalType.ofName?_ofLeaf {leaf : String} {kind : ClassicalType}
    (listed : (leaf, kind) ∈ all) : ofName? (.ofLeaf leaf) = some kind := by
  have each : ∀ entry ∈ all, ofName? (.ofLeaf entry.1) = some entry.2 := by decide
  exact each _ listed

namespace Conversion

variable {value : Value} {target : Name} {content : Int} {number max width : Nat} {word : UInt64}

/-- The maximum of a width is capped by the word, not by the width. -/
theorem le_maxForWidth_iff : number ≤ maxForWidth width ↔ number < 2 ^ width ∧ number < 2 ^ 64 := by
  have positive : 0 < 2 ^ min width 64 := Nat.two_pow_pos _
  rw [maxForWidth, Nat.one_shiftLeft]
  rcases Nat.le_total width 64 with narrow | wide
  · rw [Nat.min_eq_left narrow] at positive ⊢
    have within : 2 ^ width ≤ 2 ^ 64 := Nat.pow_le_pow_right (by decide) narrow
    omega
  · rw [Nat.min_eq_right wide] at positive ⊢
    have within : 2 ^ 64 ≤ 2 ^ width := Nat.pow_le_pow_right (by decide) wide
    omega

theorem number?_lt (stands : value.number? = some content) : content < 2 ^ 64 := by
  cases value with
  | null | float _ | str _ => cases stands
  | bool flag => cases stands; cases flag <;> decide
  | int signed =>
      cases stands
      have high := signed.toInt_lt
      omega
  | uint word =>
      cases stands
      exact_mod_cast word.toNat_lt
  | char symbol =>
      cases stands
      have high : symbol.toNat < UInt32.size := symbol.val.toNat_lt
      simp only [UInt32.size] at high
      omega

theorem toNat_ofNat_of_number? (stands : value.number? = some content) (least : 0 ≤ content) :
    ((UInt64.ofNat content.toNat).toNat : Int) = content := by
  have below := number?_lt stands
  rw [UInt64.toNat_ofNat_of_lt' (by simp only [UInt64.size]; omega), Int.toNat_of_nonneg least]

theorem natural_of_number? (stands : value.number? = some content) :
    natural value target =
      if 0 ≤ content then .ok content.toNat
      else .error (.negativeToUnsigned (Int64.ofInt content) target) := by
  cases value with
  | null | float _ | str _ => cases stands
  | int signed =>
      cases stands
      rw [Int64.ofInt_toInt]
      rfl
  | bool _ | uint _ | char _ =>
      cases stands
      rw [if_pos (Int.natCast_nonneg _), Int.toNat_natCast]
      rfl

theorem bounded_of_number? (stands : value.number? = some content) :
    bounded value target max =
      if content < 0 then .error (.negativeToUnsigned (Int64.ofInt content) target)
      else if content ≤ max then .ok content.toNat
      else .error (.overflow content.toNat target max) := by
  rw [bounded, natural_of_number? stands]
  by_cases negative : content < 0
  · rw [if_neg (Int.not_le.2 negative), if_pos negative]
    rfl
  · have least := Int.not_lt.1 negative
    rw [if_pos least, if_neg negative, ok_bind]
    by_cases small : content ≤ max
    · rw [if_neg (Nat.not_lt.2 (Int.toNat_le.2 small)), if_pos small]
    · rw [if_pos (by omega), if_neg small]

/-- A value is encoded exactly when its number is a basis state of the width. -/
theorem toQuantum_of_number? (stands : value.number? = some content) :
    toQuantum value target width =
      if content < 0 then .error (.negativeToUnsigned (Int64.ofInt content) target)
      else if content < 2 ^ width then
        .ok (.quantum (UInt64.ofNat content.toNat) target)
      else .error (.overflow content.toNat target (maxForWidth width)) := by
  have word := number?_lt stands
  rw [toQuantum, bounded_of_number? stands]
  by_cases negative : content < 0
  · rw [if_pos negative, if_pos negative]
    rfl
  · rw [if_neg negative, if_neg negative]
    have fits : content ≤ maxForWidth width ↔ content < 2 ^ width := by
      rw [← Int.toNat_le, le_maxForWidth_iff, Int.toNat_lt (Int.not_lt.1 negative),
        Int.toNat_lt (Int.not_lt.1 negative)]
      push_cast
      exact and_iff_left word
    by_cases small : content < 2 ^ width
    · rw [if_pos (fits.2 small), if_pos small]
      rfl
    · rw [if_neg fun low => small (fits.1 low), if_neg small]
      rfl

theorem bounded_uint (within : word.toNat ≤ max) :
    bounded (.uint word) target max = .ok word.toNat :=
  if_neg (Nat.not_lt.2 within)

/-- A number that stands for a canonical value of a classical type converts to that value. -/
theorem toClassical_uint {types : TypeTable} (classical : target.isQuantum = false)
    (canonical : Canonical types target value) (stands : value.number? = some (word.toNat : Int)) :
    toClassical (.uint word) target = .ok value := by
  cases canonical with
  | float _ | str _ => cases stands
  | state quantum _ _ _ =>
      rw [classical] at quantum
      cases quantum
  | bool content =>
      have known : ClassicalType.ofName? (.ofLeaf "bool") = some .bool := by decide
      have same : content.toNat = word.toNat := by simpa [Value.number?] using stands
      have within : word.toNat ≤ 1 := same ▸ Bool.toNat_le content
      simp only [toClassical, known, toBool, bounded_uint within, ok_bind, ← same]
      cases content <;> rfl
  | @unsigned leaf width number sized inRange =>
      have listed : (leaf, ClassicalType.unsigned width) ∈ ClassicalType.all := by
        have each : ∀ entry ∈ [("u8", 8), ("u16", 16), ("u32", 32), ("u64", 64)],
            (entry.1, ClassicalType.unsigned entry.2) ∈ ClassicalType.all := by decide
        exact each _ sized
      have same : number.toNat = word.toNat := by simpa [Value.number?] using stands
      obtain rfl := UInt64.toNat_inj.1 same
      have within : number.toNat ≤ maxForWidth width :=
        le_maxForWidth_iff.2 ⟨inRange, number.toNat_lt⟩
      simp only [toClassical, ClassicalType.ofName?_ofLeaf listed, toUnsigned, bounded_uint within,
        ok_bind, UInt64.ofNat_toNat]
      rfl
  | int content =>
      have known : ClassicalType.ofName? (.ofLeaf "int") = some .int := by decide
      have same : content.toInt = word.toNat := by simpa [Value.number?] using stands
      have high := content.toInt_lt
      have within : word.toNat ≤ Word.signedLimit - 1 := by
        simp only [Word.signedLimit, UInt64.size]
        omega
      simp only [toClassical, known, toInt, bounded_uint within, ok_bind, ← same, Int64.ofInt_toInt]
      rfl
  | char content =>
      have known : ClassicalType.ofName? (.ofLeaf "char") = some .char := by decide
      have same : content.toNat = word.toNat := by simpa [Value.number?] using stands
      have high : content.toNat < UInt32.size := content.val.toNat_lt
      have within : word.toNat ≤ UInt32.size - 1 := by omega
      have code : charOfCode? content.toNat = some content := by
        have scalar : content.toNat.isValidChar := content.valid
        rw [charOfCode?, if_pos scalar, Char.ofNat_toNat]
      simp only [toClassical, known, toChar, codeToChar, bounded_uint within, ok_bind, ← same, code]

end Conversion

/-- Code that flips the slots of the set bits of a word, the lowest slot first. -/
def FlipsBits (word : UInt64) (code : List Statement) : Prop :=
  ∃ slots : List Nat,
    code.map Statement.text = (slots.map fun slot => "x q[" ++ toString slot ++ "];") ∧
    slots.Pairwise (· < ·) ∧ ∀ slot, slot ∈ slots ↔ word.toNat.testBit slot = true

theorem flipsBits_prepare {word : UInt64} {width : Nat} (fits : word.toNat < 2 ^ width) :
    FlipsBits word ((Emission.prepare word).code width) := by
  refine ⟨(List.range (min width 64)).filter word.toNat.testBit, ?_,
    List.pairwise_lt_range.filter _, fun slot => ?_⟩
  · rw [Emission.code, List.map_map]
    refine List.map_congr_left fun slot _ => ?_
    have start : "x q[" = "x " ++ "q[" := rfl
    have stop : "];" = "]" ++ ";" := rfl
    simp only [Function.comp_apply, Statement.text, Statement.slotText, start, stop,
      String.append_assoc]
  · rw [testBit_eq_mem_setBits fits, decide_eq_true_iff]

namespace Lowering

variable {lowering : Lowering} {owner target : Name} {word : UInt64}

/-- A basis state that the slots hold is prepared, whether or not it is compared with a power. -/
theorem lowerArg_quantum (quantum : target.isQuantum = true)
    (fits : word.toNat < 2 ^ lowering.width) :
    lowering.lowerArg owner (.literal (.core (.quantum word target))) =
      .ok ((Emission.prepare word).code lowering.width, [.core (.quantum word target)]) := by
  have small : ¬ (lowering.width < 64 ∧ 1 <<< lowering.width ≤ word.toNat) := by
    rw [Nat.one_shiftLeft]
    omega
  have isQuantum : (Literal.core (.quantum word target)).isQuantum = true := quantum
  have prepared : lowering.prepare owner (.core (.quantum word target)) =
      .ok ((Emission.prepare word).code lowering.width) := if_neg small
  rw [lowerArg, place, if_pos isQuantum, prepared]
  rfl

end Lowering

namespace Cast

variable {σ : Type} {context : CastContext σ} {origin target : Name} {value : Value}
  {content : Int} {core : CoreLiteral} {type : DataType} {size : QSize} {state : σ}

theorem apply_literal_of_quantum (classical : origin.isQuantum = false)
    (quantum : target.isQuantum = true) (recorded : context.quantumSize target = .ok size) :
    apply ⟨origin, target⟩ context (.literal (.core core)) state =
      ((Outcome.ofExcept (Conversion.toQuantum core.value target size.width.toNat)).map
        fun encoded => .literal (.core encoded), state) := by
  have apart : ¬ (origin.isQuantum ∧ origin = target) := by simp [classical]
  rw [apply, if_neg apart]
  simp only [castLiteral, quantum, if_true, recorded, ok_bind]
  cases Conversion.toQuantum core.value target size.width.toNat <;> rfl

theorem apply_literal_of_classical (quantum : origin.isQuantum = true)
    (classical : target.isQuantum = false)
    (converted : Conversion.toClassical core.value target = .ok value) :
    apply ⟨origin, target⟩ context (.literal (.core core)) state =
      (.ok (.literal (.core ⟨value, target⟩)), state) := by
  rw [apply, if_neg (not_sameQuantumType quantum classical)]
  simp only [castLiteral, classical, Bool.false_eq_true, if_false, converted]
  rfl

/-- There is one word for a number in range, and the cast yields it. -/
theorem apply_literal_eq_ok_iff (state : σ) (output : CastOutput)
    (classical : origin.isQuantum = false)
    (stands : value.number? = some content) (quantum : target.isQuantum = true)
    (recorded : context.quantumSize target = .ok size) :
    (apply ⟨origin, target⟩ context (.literal (.core ⟨value, origin⟩)) state).1 = .ok output ↔
      content < 2 ^ size.width.toNat ∧
        ∃ word : UInt64, (word.toNat : Int) = content ∧
          output = .literal (.core (.quantum word target)) := by
  rw [apply_literal_of_quantum classical quantum recorded, Conversion.toQuantum_of_number? stands]
  by_cases negative : content < 0
  · rw [if_pos negative]
    constructor
    · intro done
      cases done
    · rintro ⟨-, word, same, -⟩
      omega
  rw [if_neg negative]
  by_cases small : content < 2 ^ size.width.toNat
  · rw [if_pos small]
    constructor
    · intro done
      cases done
      exact ⟨small, _, Conversion.toNat_ofNat_of_number? stands (Int.not_lt.1 negative), rfl⟩
    · rintro ⟨-, word, rfl, rfl⟩
      rw [Int.toNat_natCast, UInt64.ofNat_toNat]
      rfl
  · rw [if_neg small]
    constructor
    · intro done
      cases done
    · rintro ⟨below, -⟩
      exact absurd below small

/--
A canonical value of a classical type is cast to a quantum type exactly when its
number is a basis state of the recorded width.  Then the cast back yields the
literal again, and every variable of that width is brought into the state by
flipping the slots of its set bits.
-/
theorem apply_there_and_back (context : CastContext σ) (state : σ)
    (classical : origin.isQuantum = false) (canonical : Canonical context.types origin value)
    (stands : value.number? = some content) (quantum : target.isQuantum = true)
    (found : context.types.get? target = some type) (recorded : type.qsize = some size) :
    ((∃ output, (apply ⟨origin, target⟩ context (.literal (.core ⟨value, origin⟩)) state).1 =
        .ok output) ↔ 0 ≤ content ∧ content < 2 ^ size.width.toNat) ∧
    ∀ output, (apply ⟨origin, target⟩ context (.literal (.core ⟨value, origin⟩)) state).1 =
        .ok output →
      ∃ word : UInt64, (word.toNat : Int) = content ∧
        output = .literal (.core (.quantum word target)) ∧
        (apply ⟨target, origin⟩ context (.literal (.core (.quantum word target))) state).1 =
          .ok (.literal (.core ⟨value, origin⟩)) ∧
        ∀ (pool : IndexPool) (var owner : Name) (evaluator : Evaluator) (indexes : List Nat),
          pool.indexesOf? var = some indexes → indexes.length = size.width.toNat →
          ∃ lowering code, Lowering.new pool var evaluator = .ok lowering ∧
            lowering.lowerArg owner (.literal (.core (.quantum word target))) =
              .ok (code, [.core (.quantum word target)]) ∧
            FlipsBits word code := by
  have sized := CastContext.quantumSize_eq_ok_iff.2 ⟨type, found, recorded⟩
  have there := fun output =>
    apply_literal_eq_ok_iff state output classical stands quantum sized
  refine ⟨⟨fun ⟨output, done⟩ => ?_, fun ⟨least, below⟩ => ?_⟩, fun output done => ?_⟩
  · obtain ⟨below, word, same, -⟩ := (there output).1 done
    exact ⟨by omega, below⟩
  · have same := Conversion.toNat_ofNat_of_number? stands least
    exact ⟨_, (there _).2 ⟨below, _, same, rfl⟩⟩
  · obtain ⟨below, word, rfl, rfl⟩ := (there output).1 done
    refine ⟨word, rfl, rfl, ?_, fun pool var owner evaluator indexes held count => ?_⟩
    · exact congrArg Prod.fst (apply_literal_of_classical quantum classical
        (Conversion.toClassical_uint classical canonical stands))
    · have fits : word.toNat < 2 ^ indexes.length := by
        rw [count]
        exact_mod_cast below
      exact ⟨_, _, Lowering.new_eq_ok held evaluator, Lowering.lowerArg_quantum quantum fits,
        flipsBits_prepare fits⟩

/-- Five is a basis state of three indices, is prepared there and comes back; eight is none. -/
theorem apply_there_and_back_byte :
    (∃ word : UInt64, word.toNat = 5 ∧
      (apply ⟨.ofLeaf "@u3", .ofLeaf "u8"⟩ (sampleContext 0)
        (.literal (.core (.quantum word (.ofLeaf "@u3")))) .empty).1 =
          .ok (.literal (.core ⟨.uint 5, .ofLeaf "u8"⟩)) ∧
      ∃ lowering code, Lowering.new Lowering.samplePool (.ofLeaf "@v") .absent = .ok lowering ∧
        lowering.lowerArg (.ofLeaf "@redim") (.literal (.core (.quantum word (.ofLeaf "@u3")))) =
          .ok (code, [.core (.quantum word (.ofLeaf "@u3"))]) ∧
        FlipsBits word code) ∧
    ¬ ∃ output, (apply ⟨.ofLeaf "u8", .ofLeaf "@u3"⟩ (sampleContext 0)
      (.literal (.core ⟨.uint 8, .ofLeaf "u8"⟩)) .empty).1 = .ok output := by
  have found : TypeTable.builtins.get? (.ofLeaf "@u3") =
      some (.builtin (.ofLeaf "@u3") (.fixed 3) (.fixed 3)) := by decide
  have byte : ∀ number : UInt64, number.toNat < 2 ^ 8 →
      Canonical .builtins (.ofLeaf "u8") (.uint number) :=
    fun number low => .unsigned List.mem_cons_self low
  have five := apply_there_and_back (sampleContext 0) .empty (by decide) (byte 5 (by decide)) rfl
    (by decide) found rfl
  have eight := apply_there_and_back (sampleContext 0) .empty (by decide) (byte 8 (by decide)) rfl
    (by decide) found rfl
  obtain ⟨output, done⟩ := five.1.2 (by decide)
  obtain ⟨word, same, -, back, lowers⟩ := five.2 output done
  have lowered := lowers Lowering.samplePool (.ofLeaf "@v") (.ofLeaf "@redim") .absent [0, 1, 2]
    rfl rfl
  exact ⟨⟨word, Int.ofNat_inj.1 same, back, lowered⟩, fun passes => absurd (eight.1.1 passes) (by decide)⟩

end Cast

end HybridQuantum
