import Mathlib.Data.Nat.SuccPred

/-!
# Floating-point numbers as signs, mantissas and exponents

Arithmetic unpacks numbers into a sign, a mantissa and an exponent, and packs the
result.  What a word unpacks to is in range, and packing a result that is in range
loses nothing, so facts about numbers are facts about what they unpack to.
-/

namespace HybridQuantum

open Float.Model (Format UnpackedFloat)
open Float.Model.UnpackedFloat

/-- What a floating-point number unpacks to. -/
def parts (number : Float) : UnpackedFloat :=
  number.toModel.unpack

/-- What a word can hold: a mantissa with fewer bits than fit has the least exponent. -/
def InRange : UnpackedFloat → Prop
  | .finite _ mantissa exponent _ =>
      mantissa < 2 ^ 53 ∧ (2 ^ 52 ≤ mantissa ∨ exponent = -1074) ∧
        -1074 ≤ exponent ∧ exponent ≤ 971
  | _ => True

section Packing

/-- What the three fields of a word stand for. -/
def assemble (sign : Sign) (exponent : BitVec 11) (mantissa : BitVec 52) : UnpackedFloat :=
  if exponent = -1#11 then
    if mantissa = 0#52 then .infinity sign else .notANumber
  else if exponent = 0#11 then
    if positive : 0 < mantissa.toNat then .finite sign mantissa.toNat (-1074) positive
    else .zero sign
  else .finite sign (2 ^ 52 + mantissa.toNat) (exponent.toNat - 1075) (by omega)

theorem toNat_implicit (mantissa : BitVec 52) :
    (1#1 ++ mantissa).toNat = 2 ^ 52 + mantissa.toNat := by
  have joined := Nat.two_pow_add_eq_or_of_lt mantissa.isLt 1
  rw [Nat.mul_one] at joined
  rw [BitVec.toNat_append, joined]
  rfl

theorem unpack_eq_assemble (word : BitVec Format.binary64.numBits) :
    unpack Format.binary64 word =
      assemble (Sign.ofBitVec (unpackSign word)) (unpackExponent word) (unpackMantissa word) := by
  have positive : 0 < (unpackMantissa word).toNat ↔ unpackMantissa word ≠ 0#52 := by
    rw [BitVec.toNat_pos, BitVec.pos_iff_ne_zero]
  by_cases last : unpackExponent word = -1#11
  · exact (if_pos last).trans (if_pos last).symm
  · refine (if_neg last).trans (Eq.trans ?_ (if_neg last).symm)
    by_cases least : unpackExponent word = 0#11
    · refine (if_pos least).trans (Eq.trans ?_ (if_pos least).symm)
      by_cases empty : unpackMantissa word = 0#52
      · refine (dif_pos empty).trans (Eq.symm ?_)
        exact dif_neg (mt positive.1 (not_not_intro empty))
      · refine (dif_neg empty).trans (Eq.trans ?_ (dif_pos (positive.2 empty)).symm)
        rw [finite.injEq, least]
        exact ⟨rfl, rfl, rfl⟩
    · refine (if_neg least).trans (Eq.trans ?_ (if_neg least).symm)
      rw [finite.injEq]
      exact ⟨rfl, toNat_implicit _, rfl⟩

/-- What holds of the five shapes a word can have holds of every word. -/
theorem assemble_cases {holds : UnpackedFloat → Prop} {sign : Sign} {exponent : BitVec 11}
    {mantissa : BitVec 52} (infinity : holds (.infinity sign)) (none : holds .notANumber)
    (zero : holds (.zero sign))
    (subnormal : ∀ positive, holds (.finite sign mantissa.toNat (-1074) positive))
    (normal : exponent ≠ -1#11 → exponent ≠ 0#11 → ∀ positive,
      holds (.finite sign (2 ^ 52 + mantissa.toNat) (exponent.toNat - 1075) positive)) :
    holds (assemble sign exponent mantissa) := by
  rw [assemble]
  by_cases last : exponent = -1#11
  · rw [if_pos last]
    by_cases empty : mantissa = 0#52
    · rwa [if_pos empty]
    · rwa [if_neg empty]
  · rw [if_neg last]
    by_cases least : exponent = 0#11
    · rw [if_pos least]
      by_cases positive : 0 < mantissa.toNat
      · rw [dif_pos positive]
        exact subnormal positive
      · rwa [dif_neg positive]
    · rw [if_neg least]
      exact normal last least _

theorem inRange_assemble (sign : Sign) (exponent : BitVec 11) (mantissa : BitVec 52) :
    InRange (assemble sign exponent mantissa) := by
  have mantissaBound := mantissa.isLt
  have exponentBound := exponent.isLt
  refine assemble_cases trivial trivial trivial (fun positive => ?_)
    fun notLast notLeast positive => ?_
  · exact ⟨by omega, .inr rfl, by decide, by decide⟩
  · have belowLast : exponent.toNat ≠ 2047 := fun last => notLast (BitVec.eq_of_toNat_eq last)
    have aboveLeast : exponent.toNat ≠ 0 := fun least => notLeast (BitVec.eq_of_toNat_eq least)
    exact ⟨by omega, .inl (by omega), by omega, by omega⟩

theorem inRange_parts (number : Float) : InRange (parts number) := by
  rw [parts, Float.Model.unpack, unpack_eq_assemble]
  exact inRange_assemble _ _ _

theorem unpackSign_packComponents {spec : Format} (sign : Sign)
    (exponent : BitVec spec.exponentBits) (mantissa : BitVec spec.mantissaBitsWithoutImplicit) :
    unpackSign (packComponents spec sign exponent mantissa) = sign.toBitVec := by
  unfold unpackSign
  ext bit only
  obtain rfl : bit = 0 := by omega
  simp [packComponents, BitVec.getLsbD_append, BitVec.getElem_append]

theorem ofBitVec_toBitVec (sign : Sign) : Sign.ofBitVec sign.toBitVec = sign := by
  cases sign <;> rfl

theorem unpack_packComponents (sign : Sign) (exponent : BitVec 11) (mantissa : BitVec 52) :
    unpack Format.binary64 (packComponents Format.binary64 sign exponent mantissa) =
      assemble sign exponent mantissa := by
  rw [unpack_eq_assemble, unpackSign_packComponents, ofBitVec_toBitVec,
    unpackExponent_packComponents, unpackMantissa_packComponents]

theorem assemble_subnormal (sign : Sign) {mantissa : Nat} (positive : 0 < mantissa)
    (small : mantissa < 2 ^ 52) :
    assemble sign 0#11 (BitVec.ofNat 52 mantissa) = .finite sign mantissa (-1074) positive := by
  have value : (BitVec.ofNat 52 mantissa).toNat = mantissa := by
    rw [BitVec.toNat_ofNat, Nat.mod_eq_of_lt small]
  rw [assemble, if_neg (by decide), if_pos rfl, dif_pos (value.symm ▸ positive), finite.injEq]
  exact ⟨rfl, value, rfl⟩

theorem assemble_normal (sign : Sign) {mantissa : Nat} {exponent : Int} (positive : 0 < mantissa)
    (normal : 2 ^ 52 ≤ mantissa) (small : mantissa < 2 ^ 53) (above : -1074 ≤ exponent)
    (below : exponent ≤ 971) :
    assemble sign (BitVec.ofNat 11 (exponent + 1075).toNat) (BitVec.ofNat 52 mantissa) =
      .finite sign mantissa exponent positive := by
  have biased : (BitVec.ofNat 11 (exponent + 1075).toNat).toNat = (exponent + 1075).toNat := by
    rw [BitVec.toNat_ofNat, Nat.mod_eq_of_lt (by omega)]
  have notLast : BitVec.ofNat 11 (exponent + 1075).toNat ≠ -1#11 := fun last => by
    have value := congrArg BitVec.toNat last
    rw [biased, show (-1#11).toNat = 2047 from rfl] at value
    omega
  have notFirst : BitVec.ofNat 11 (exponent + 1075).toNat ≠ 0#11 := fun first => by
    have value := congrArg BitVec.toNat first
    rw [biased, show (0#11).toNat = 0 from rfl] at value
    omega
  have fraction : 2 ^ 52 + (BitVec.ofNat 52 mantissa).toNat = mantissa := by
    rw [BitVec.toNat_ofNat]
    omega
  have unbiased : ((exponent + 1075).toNat : Int) - 1075 = exponent := by omega
  rw [assemble, if_neg notLast, if_neg notFirst, finite.injEq, biased]
  exact ⟨rfl, fraction, unbiased⟩

/-- Packing a result that a word can hold loses nothing. -/
theorem unpack_pack {result : UnpackedFloat} (inRange : InRange result) :
    unpack Format.binary64 (pack Format.binary64 result) = result := by
  cases result with
  | notANumber => rfl
  | infinity sign => cases sign <;> rfl
  | zero sign => cases sign <;> rfl
  | finite sign mantissa exponent positive =>
      obtain ⟨small, normal, above, below⟩ := inRange
      have biased : (exponent + Format.binary64.exponentBias +
          Format.binary64.mantissaBitsWithoutImplicit).toNat = (exponent + 1075).toNat := by
        change (exponent + (1023 : Nat) + (52 : Nat)).toNat = _
        omega
      have nonzero : mantissa ≠ 0 := by omega
      have packed : pack Format.binary64 (.finite sign mantissa exponent positive) =
          if mantissa.log2 + 1 = 53 then
            packComponents Format.binary64 sign (BitVec.ofNat 11 (exponent + 1075).toNat)
              (BitVec.ofNat 52 mantissa)
          else packComponents Format.binary64 sign 0#11 (BitVec.ofNat 52 mantissa) := by
        rw [← biased]
        exact if_neg (by rw [biased]; change ¬ 2 ^ 11 ≤ _; omega)
      rw [packed]
      by_cases full : mantissa.log2 + 1 = 53
      · rw [if_pos full]
        have normal : 2 ^ 52 ≤ mantissa := (Nat.le_log2 nonzero).1 (by omega)
        rw [unpack_packComponents, assemble_normal sign positive normal small above below]
      · rw [if_neg full]
        have subnormal : mantissa < 2 ^ 52 := by
          by_contra normal
          have lower := (Nat.le_log2 nonzero).2 (Nat.le_of_not_lt normal)
          have upper := (Nat.log2_lt nonzero).2 small
          omega
        obtain rfl : exponent = -1074 := by omega
        rw [unpack_packComponents, assemble_subnormal sign positive subnormal]

end Packing

section Comparisons

variable {first second : Float}

theorem lt_iff_parts : first < second ↔ (parts first).compare (parts second) = some .lt := by
  constructor
  · intro less
    have decided : (parts first).lt (parts second) = true := of_decide_eq_true less
    exact eq_of_beq decided
  · intro less
    have decided : (parts first).lt (parts second) = true := beq_iff_eq.2 less
    exact decide_eq_true decided

theorem le_iff_parts : first ≤ second ↔
    ((parts first).compare (parts second)).any (·.isLE) = true := by
  constructor
  · intro least
    have decided : (parts first).le (parts second) = true := of_decide_eq_true least
    exact decided
  · intro least
    have decided : (parts first).le (parts second) = true := least
    exact decide_eq_true decided

theorem beq_iff_parts : (first == second) = true ↔
    (parts first).compare (parts second) = some .eq := by
  constructor
  · intro equal
    have decided : (parts first).beq (parts second) = true := equal
    exact eq_of_beq decided
  · intro equal
    have decided : (parts first).beq (parts second) = true := beq_iff_eq.2 equal
    exact decided

theorem parts_zero : parts 0 = .zero .positive := by
  rfl

theorem isLE_compare_finite {mantissa mantissa' : Nat} {exponent exponent' : Int}
    (positive : 0 < mantissa) (positive' : 0 < mantissa') :
    ((finite .positive mantissa exponent positive).compare
        (finite .positive mantissa' exponent' positive')).any (·.isLE) = true ↔
      exponent < exponent' ∨ exponent = exponent' ∧ mantissa ≤ mantissa' := by
  change (some ((compare exponent exponent').then (compare mantissa mantissa'))).any (·.isLE) =
    true ↔ _
  rw [Option.any_some, Ordering.isLE_then_iff_or, Int.compare_eq_lt,
    Int.compare_eq_eq, Nat.isLE_compare]

theorem compare_finite_eq_lt {mantissa mantissa' : Nat} {exponent exponent' : Int}
    (positive : 0 < mantissa) (positive' : 0 < mantissa') :
    (finite .positive mantissa exponent positive).compare
        (finite .positive mantissa' exponent' positive') = some .lt ↔
      exponent < exponent' ∨ exponent = exponent' ∧ mantissa < mantissa' := by
  change some ((compare exponent exponent').then (compare mantissa mantissa')) = some .lt ↔ _
  rw [Option.some.injEq, Ordering.then_eq_lt, Int.compare_eq_lt,
    Int.compare_eq_eq, Nat.compare_eq_lt]

theorem beq_zero_iff {number : Float} :
    (number == 0) = true ↔ ∃ sign, parts number = .zero sign := by
  rw [beq_iff_parts, parts_zero]
  constructor
  · intro equal
    cases unpacked : parts number with
    | zero sign => exact ⟨sign, rfl⟩
    | notANumber =>
        rw [unpacked] at equal
        cases equal
    | infinity sign | finite sign =>
        rw [unpacked] at equal
        cases sign <;> cases equal
  · rintro ⟨sign, unpacked⟩
    rw [unpacked]
    rfl

/-- Nothing that is at least zero lies below zero; what is no number is neither. -/
theorem not_lt_zero_of_nonneg {number : Float} (nonneg : 0 ≤ number) : ¬ number < 0 := by
  rw [le_iff_parts, parts_zero] at nonneg
  rw [lt_iff_parts, parts_zero]
  cases unpacked : parts number with
  | notANumber | zero sign => nofun
  | infinity sign | finite sign =>
      cases sign with
      | positive => nofun
      | negative =>
          rw [unpacked] at nonneg
          cases nonneg

end Comparisons

section Arithmetic

/-- What an operation packs is what the number unpacks to, if a word can hold it. -/
theorem parts_ofModel_pack {result : UnpackedFloat} (inRange : InRange result) :
    parts ⟨Float.Model.pack result⟩ = result :=
  unpack_pack inRange

variable {first second number : Float} {result : UnpackedFloat}

theorem parts_add (sum : add Format.binary64 (parts first) (parts second) = result)
    (inRange : InRange result) : parts (first + second) = result := by
  subst sum
  exact parts_ofModel_pack inRange

theorem parts_mul (product : mul Format.binary64 (parts first) (parts second) = result)
    (inRange : InRange result) : parts (first * second) = result := by
  subst product
  exact parts_ofModel_pack inRange

theorem parts_div (quotient : div Format.binary64 (parts first) (parts second) = result)
    (inRange : InRange result) : parts (first / second) = result := by
  subst quotient
  exact parts_ofModel_pack inRange

theorem parts_sqrt (root : sqrt Format.binary64 (parts number) = result)
    (inRange : InRange result) : parts number.sqrt = result := by
  subst root
  exact parts_ofModel_pack inRange

theorem parts_sqrt_congr (same : parts first = parts second) :
    parts first.sqrt = parts second.sqrt := by
  have packed (number : Float) : parts number.sqrt =
      parts ⟨Float.Model.pack (sqrt Format.binary64 (parts number))⟩ := rfl
  rw [packed, packed, same]

theorem parts_abs (number : Float) : parts number.abs = (parts number).abs := by
  have inRange := inRange_parts number
  refine parts_ofModel_pack ?_
  change InRange (parts number).abs
  cases unpacked : parts number with
  | finite sign mantissa exponent positive =>
      rw [unpacked] at inRange
      exact inRange
  | _ => trivial

theorem parts_zero_add (nothing : parts first = .zero .positive)
    (notNegative : parts second ≠ .zero .negative) : parts (first + second) = parts second := by
  refine parts_add ?_ (inRange_parts second)
  rw [nothing]
  cases unpacked : parts second with
  | zero sign =>
      cases sign with
      | negative => exact absurd unpacked notNegative
      | positive => rfl
  | _ => rfl

/-- Adding a zero changes no number but the sign of a zero. -/
theorem parts_add_zero (sum : Float) {weight : Float} (weightless : (weight == 0) = true) :
    parts (sum + weight) = parts sum ∨
      ∃ sign sumSign, parts (sum + weight) = .zero sign ∧ parts sum = .zero sumSign := by
  obtain ⟨weightSign, unpacked⟩ := beq_zero_iff.1 weightless
  have inRange := inRange_parts sum
  cases sumParts : parts sum with
  | notANumber => exact .inl (parts_add (by rw [sumParts, unpacked]; rfl) trivial)
  | infinity sign => exact .inl (parts_add (by rw [sumParts, unpacked]; rfl) trivial)
  | zero sumSign =>
      refine .inr ⟨if sumSign == weightSign then sumSign else .positive, sumSign,
        parts_add ?_ trivial, rfl⟩
      rw [sumParts, unpacked]
      cases sumSign <;> cases weightSign <;> rfl
  | finite sign mantissa exponent positive =>
      rw [sumParts] at inRange
      exact .inl (parts_add (by rw [sumParts, unpacked]; rfl) inRange)

/-- Comparisons do not see a zero that is added. -/
theorem lt_add_zero_iff (draw sum : Float) {weight : Float} (weightless : (weight == 0) = true) :
    draw < sum + weight ↔ draw < sum := by
  rw [lt_iff_parts, lt_iff_parts]
  rcases parts_add_zero sum weightless with same | ⟨sign, sumSign, added, zero⟩
  · rw [same]
  · rw [added, zero]
    cases parts draw with
    | notANumber | zero drawSign => exact Iff.rfl
    | infinity drawSign | finite drawSign => cases drawSign <;> exact Iff.rfl

theorem beq_zero_of_pos {weight : Float} (positive : 0 < weight) : (weight == 0) = false := by
  by_contra zero
  obtain ⟨sign, unpacked⟩ := beq_zero_iff.1 (Bool.eq_true_of_not_eq_false zero)
  rw [lt_iff_parts, unpacked, parts_zero] at positive
  cases positive

end Arithmetic

section Signs

/-- Not below zero: a number without a negative sign, a zero of either sign, or no number. -/
def NotNegative : UnpackedFloat → Prop
  | .finite .negative .. => False
  | .infinity .negative => False
  | _ => True

theorem notNegative_assemble (exponent : BitVec 11) (mantissa : BitVec 52) :
    NotNegative (assemble .positive exponent mantissa) :=
  assemble_cases trivial trivial trivial (fun _ => trivial) fun _ _ _ => trivial

/-- Packing keeps the sign, also where the exponent is out of range. -/
theorem notNegative_unpack_pack {result : UnpackedFloat} (notNegative : NotNegative result) :
    NotNegative (unpack Format.binary64 (pack Format.binary64 result)) := by
  cases result with
  | notANumber => trivial
  | infinity sign => cases sign <;> trivial
  | zero sign => cases sign <;> trivial
  | finite sign mantissa exponent positive =>
      cases sign with
      | negative => exact notNegative.elim
      | positive =>
          unfold pack
          dsimp only
          split
          · trivial
          · split <;> exact unpack_packComponents .. ▸ notNegative_assemble ..

theorem notNegative_sqrt (number : UnpackedFloat) :
    NotNegative (sqrt Format.binary64 number) := by
  cases number with
  | notANumber => trivial
  | infinity sign => cases sign <;> trivial
  | zero sign => trivial
  | finite sign mantissa exponent positive =>
      cases sign with
      | negative => trivial
      | positive =>
          have rounded (mantissa : Nat) (exponent : Int) : NotNegative
              (if none : mantissa = 0 then .zero .positive
              else .finite .positive mantissa exponent (Nat.pos_of_ne_zero none)) := by
            by_cases none : mantissa = 0
            · rw [dif_pos none]
              trivial
            · rw [dif_neg none]
              trivial
          exact rounded _ _

/-- What equals a root is at least zero. -/
theorem nonneg_of_beq_sqrt {number square : Float} (equal : (number == square.sqrt) = true) :
    0 ≤ number := by
  have notNegative : NotNegative (parts square.sqrt) :=
    notNegative_unpack_pack (notNegative_sqrt (parts square))
  rw [beq_iff_parts] at equal
  rw [le_iff_parts, parts_zero]
  generalize parts square.sqrt = root at notNegative equal
  generalize parts number = side at equal ⊢
  cases side with
  | notANumber => cases equal
  | zero sign => rfl
  | infinity sign | finite sign =>
      cases sign with
      | positive => rfl
      | negative =>
          cases root with
          | infinity rootSign | finite rootSign =>
              cases rootSign with
              | negative => exact notNegative.elim
              | positive => cases equal
          | _ => cases equal

end Signs

end HybridQuantum
