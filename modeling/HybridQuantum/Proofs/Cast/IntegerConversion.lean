import HybridQuantum.Proofs.Cast.ClassicalTrip

/-!
# Numbers keep their value

Truth values, integers and characters stand for numbers, and so do the values of
the truth value and integer types.  What a conversion into such a type does is a
function of the number alone: within the range of the type it yields the one value
with this number, outside of it an error that names the side.  So a detour through
another type changes nothing, as long as it gets through.
-/

namespace HybridQuantum

/-- A classical builtin for numbers from a least to a greatest one. -/
structure IntegerType where
  leaf : String
  kind : ClassicalType
  least : Int
  greatest : Int
deriving DecidableEq

namespace IntegerType

def all : List IntegerType :=
  [⟨"bool", .bool, 0, 1⟩, ⟨"u8", .unsigned 8, 0, 2 ^ 8 - 1⟩, ⟨"u16", .unsigned 16, 0, 2 ^ 16 - 1⟩,
    ⟨"u32", .unsigned 32, 0, 2 ^ 32 - 1⟩, ⟨"u64", .unsigned 64, 0, 2 ^ 64 - 1⟩,
    ⟨"int", .int, -2 ^ 63, 2 ^ 63 - 1⟩]

def name (type : IntegerType) : Name :=
  .ofLeaf type.leaf

def encode (type : IntegerType) (content : Int) : Value :=
  match type.kind with
  | .bool => .bool (content.toNat == 1)
  | .int => .int (Int64.ofInt content)
  | _ => .uint (UInt64.ofNat content.toNat)

end IntegerType

/-- The numbers of characters: all code points but the surrogates. -/
def IsScalar (content : Int) : Prop :=
  0 ≤ content ∧ content < 0xD800 ∨ 0xDFFF < content ∧ content < 0x110000

namespace Conversion

variable {value between : Value} {target : Name} {content : Int} {max width : Nat}
  {type middle : IntegerType}

theorem map_bounded_of_number? (stands : value.number? = some content) (form : Nat → Value) :
    (bounded value target max).map form =
      if 0 ≤ content ∧ content ≤ max then .ok (form content.toNat)
      else if content < 0 then .error (.negativeToUnsigned (Int64.ofInt content) target)
      else .error (.overflow content.toNat target max) := by
  rw [bounded_of_number? stands]
  by_cases negative : content < 0
  · rw [if_pos negative, if_neg (by omega), if_pos negative]
    rfl
  · rw [if_neg negative, if_neg negative]
    by_cases small : content ≤ max
    · rw [if_pos small, if_pos ⟨Int.not_lt.1 negative, small⟩]
      rfl
    · rw [if_neg small, if_neg fun within => small within.2]
      rfl

theorem toBool_eq_map (value : Value) (target : Name) :
    toBool value target = (bounded value target 1).map fun number => .bool (number == 1) := by
  cases value with
  | bool flag => cases flag <;> rfl
  | null | int _ | uint _ | float _ | char _ | str _ => exact bind_pure_comp _ _

theorem toUnsigned_eq_map (value : Value) (target : Name) :
    toUnsigned width value target =
      (bounded value target (maxForWidth width)).map fun number => .uint (UInt64.ofNat number) :=
  bind_pure_comp _ _

theorem neg_two_pow_le_number? (stands : value.number? = some content) : -2 ^ 63 ≤ content := by
  cases value with
  | null | float _ | str _ => cases stands
  | int signed =>
      cases stands
      exact signed.le_toInt
  | bool _ | uint _ | char _ =>
      cases stands
      exact Int.le_trans (by decide) (Int.natCast_nonneg _)

/-- A signed word is kept, whatever its sign; every other number is not negative. -/
theorem toInt_of_number? (stands : value.number? = some content) :
    toInt value target =
      if content < 2 ^ 63 then .ok (.int (Int64.ofInt content))
      else .error (.overflow content.toNat target (2 ^ 63 - 1)) := by
  have unsigned (natural : 0 ≤ content)
      (reads : toInt value target = (bounded value target (Word.signedLimit - 1)).map
        fun number => .int (Int64.ofInt number)) :
      toInt value target =
        if content < 2 ^ 63 then .ok (.int (Int64.ofInt content))
        else .error (.overflow content.toNat target (2 ^ 63 - 1)) := by
    rw [reads, map_bounded_of_number? stands]
    have limit : Word.signedLimit = 2 ^ 63 := rfl
    by_cases small : content < 2 ^ 63
    · rw [if_pos (by omega), if_pos small, Int.toNat_of_nonneg natural]
    · rw [if_neg (by omega), if_neg (by omega), if_neg small]
      rfl
  cases value with
  | null | float _ | str _ => cases stands
  | int signed =>
      cases stands
      rw [if_pos signed.toInt_lt, Int64.ofInt_toInt]
      rfl
  | bool _ | uint _ | char _ =>
      refine unsigned ?_ ?_
      · cases stands
        exact Int.natCast_nonneg _
      · exact bind_pure_comp _ _

/--
What a number is converted to depends on nothing else of the value: a negative one comes from
a signed word, which is in range.
-/
theorem toClassical_of_number? (stands : value.number? = some content)
    (listed : type ∈ IntegerType.all) :
    toClassical value type.name =
      if type.least ≤ content ∧ content ≤ type.greatest then .ok (type.encode content)
      else if content < 0 then .error (.negativeToUnsigned (Int64.ofInt content) type.name)
      else .error (.overflow content.toNat type.name type.greatest.toNat) := by
  have known : ClassicalType.ofName? type.name = some type.kind := by
    have each : ∀ type ∈ IntegerType.all, ClassicalType.ofName? type.name = some type.kind := by
      decide
    exact each type listed
  rw [toClassical, known]
  have unsigned {width : Nat} (kind : type.kind = .unsigned width) (least : type.least = 0)
      (greatest : type.greatest = maxForWidth width) :
      toUnsigned width value type.name =
        if type.least ≤ content ∧ content ≤ type.greatest then .ok (type.encode content)
        else if content < 0 then .error (.negativeToUnsigned (Int64.ofInt content) type.name)
        else .error (.overflow content.toNat type.name type.greatest.toNat) := by
    rw [toUnsigned_eq_map, map_bounded_of_number? stands, least, greatest, IntegerType.encode, kind]
    rfl
  simp only [IntegerType.all, List.mem_cons, List.not_mem_nil, or_false] at listed
  rcases listed with rfl | rfl | rfl | rfl | rfl | rfl
  · exact (toBool_eq_map value _).trans (map_bounded_of_number? stands _)
  · exact unsigned rfl rfl rfl
  · exact unsigned rfl rfl rfl
  · exact unsigned rfl rfl rfl
  · exact unsigned rfl rfl rfl
  · have low := neg_two_pow_le_number? stands
    refine (toInt_of_number? stands).trans ?_
    by_cases small : content < 2 ^ 63
    · rw [if_pos small, if_pos ⟨low, Int.le_sub_one_of_lt small⟩]
      rfl
    · rw [if_neg small, if_neg fun within => small (Int.lt_of_le_sub_one within.2),
        if_neg (by omega)]
      rfl

/-- The value of a type with a number in its range is canonical and has this number. -/
theorem canonical_encode (types : TypeTable) (listed : type ∈ IntegerType.all)
    (within : type.least ≤ content ∧ content ≤ type.greatest) :
    Canonical types type.name (type.encode content) ∧
      (type.encode content).number? = some content := by
  have unsigned {leaf : String} {width : Nat}
      (sized : (leaf, width) ∈ [("u8", 8), ("u16", 16), ("u32", 32), ("u64", 64)])
      (natural : 0 ≤ content) (below : content < 2 ^ width) :
      Canonical types (.ofLeaf leaf) (.uint (UInt64.ofNat content.toNat)) ∧
        Value.number? (.uint (UInt64.ofNat content.toNat)) = some content := by
    have small : content.toNat < 2 ^ width := by
      rw [Int.toNat_lt natural]
      exact_mod_cast below
    have narrow : width ≤ 64 := by
      have each : ∀ entry ∈ [("u8", 8), ("u16", 16), ("u32", 32), ("u64", 64)], entry.2 ≤ 64 := by
        decide
      exact each _ sized
    have word : (UInt64.ofNat content.toNat).toNat = content.toNat :=
      UInt64.toNat_ofNat_of_lt'
        (Nat.lt_of_lt_of_le small (Nat.pow_le_pow_right (by decide) narrow))
    refine ⟨.unsigned sized (by rwa [word]), ?_⟩
    rw [Value.number?, word, Int.toNat_of_nonneg natural]
  obtain ⟨low, high⟩ := within
  simp only [IntegerType.all, List.mem_cons, List.not_mem_nil, or_false] at listed
  rcases listed with rfl | rfl | rfl | rfl | rfl | rfl
  · refine ⟨.bool _, ?_⟩
    obtain rfl | rfl : content = 0 ∨ content = 1 := by
      dsimp only at low high
      omega
    · rfl
    · rfl
  · exact unsigned (by simp) low (Int.lt_of_le_sub_one high)
  · exact unsigned (by simp) low (Int.lt_of_le_sub_one high)
  · exact unsigned (by simp) low (Int.lt_of_le_sub_one high)
  · exact unsigned (by simp) low (Int.lt_of_le_sub_one high)
  · refine ⟨.int _, ?_⟩
    change some (Int64.ofInt content).toInt = some content
    rw [Int64.toInt_ofInt_of_le low (Int.lt_of_le_sub_one high)]

section Characters

theorem toNat_ofNat_of_isValidChar {code : Nat} (valid : code.isValidChar) :
    (Char.ofNat code).toNat = code := by
  rw [Char.ofNat, dif_pos valid]
  rfl

theorem exists_char_iff : (∃ char : Char, (char.toNat : Int) = content) ↔ IsScalar content := by
  constructor
  · rintro ⟨char, rfl⟩
    have valid : char.toNat < 0xD800 ∨ 0xDFFF < char.toNat ∧ char.toNat < 0x110000 := char.valid
    simp only [IsScalar]
    omega
  · intro scalar
    have valid : content.toNat.isValidChar := by
      simp only [IsScalar] at scalar
      simp only [Nat.isValidChar]
      omega
    refine ⟨Char.ofNat content.toNat, ?_⟩
    rw [toNat_ofNat_of_isValidChar valid]
    simp only [IsScalar] at scalar
    omega

theorem charOfCode?_eq_some_iff {code : Nat} {char : Char} :
    charOfCode? code = some char ↔ char.toNat = code := by
  rw [charOfCode?]
  by_cases valid : code.isValidChar
  · rw [if_pos valid, Option.some_inj]
    constructor
    · rintro rfl
      rw [toNat_ofNat_of_isValidChar valid]
    · rintro rfl
      exact Char.ofNat_toNat char
  · rw [if_neg valid]
    refine iff_of_false (by simp) ?_
    rintro rfl
    exact valid char.valid

theorem codeToChar_eq_ok_iff (stands : value.number? = some content) {result : Value} :
    codeToChar value target = .ok result ↔
      ∃ char : Char, result = .char char ∧ (char.toNat : Int) = content := by
  rw [codeToChar, bounded_of_number? stands]
  by_cases negative : content < 0
  · rw [if_pos negative]
    refine iff_of_false (by rintro ⟨⟩) ?_
    rintro ⟨char, -, rfl⟩
    omega
  rw [if_neg negative]
  by_cases small : content ≤ (UInt32.size - 1 : Nat)
  · rw [if_pos small, ok_bind]
    have same (char : Char) : (char.toNat : Int) = content ↔
        charOfCode? content.toNat = some char := by
      rw [charOfCode?_eq_some_iff]
      omega
    simp only [same]
    cases charOfCode? content.toNat <;> simp [eq_comm]
  · rw [if_neg small]
    refine iff_of_false (by rintro ⟨⟩) ?_
    rintro ⟨char, -, rfl⟩
    have word : char.toNat < UInt32.size := char.val.toNat_lt
    omega

theorem toClassical_char_eq_ok_iff (stands : value.number? = some content)
    (notBool : ∀ flag, value ≠ .bool flag) {result : Value} :
    toClassical value (.ofLeaf "char") = .ok result ↔
      ∃ char : Char, result = .char char ∧ (char.toNat : Int) = content := by
  have known : ClassicalType.ofName? (.ofLeaf "char") = some .char := by decide
  rw [toClassical, known]
  cases value with
  | null | float _ | str _ => cases stands
  | bool flag => exact absurd rfl (notBool flag)
  | int _ | uint _ => exact codeToChar_eq_ok_iff stands
  | char symbol =>
      cases stands
      simp [toChar, Char.toNat_inj, eq_comm]

end Characters

section Outcomes

theorem toClassical_eq_ok_iff (stands : value.number? = some content)
    (listed : type ∈ IntegerType.all) {result : Value} :
    toClassical value type.name = .ok result ↔
      (type.least ≤ content ∧ content ≤ type.greatest) ∧ type.encode content = result := by
  rw [toClassical_of_number? stands listed]
  by_cases within : type.least ≤ content ∧ content ≤ type.greatest
  · simp [within]
  · rw [if_neg within]
    refine iff_of_false ?_ fun fits => within fits.1
    by_cases negative : content < 0
    · rw [if_pos negative]
      rintro ⟨⟩
    · rw [if_neg negative]
      rintro ⟨⟩

theorem exists_negativeToUnsigned_iff (stands : value.number? = some content)
    (listed : type ∈ IntegerType.all)
    (outside : ¬ (type.least ≤ content ∧ content ≤ type.greatest)) :
    (∃ number : Int64, number.toInt = content ∧
        toClassical value type.name = .error (.negativeToUnsigned number type.name)) ↔
      content < 0 := by
  rw [toClassical_of_number? stands listed, if_neg outside]
  by_cases negative : content < 0
  · have word := Int64.toInt_ofInt_of_le (neg_two_pow_le_number? stands) (by omega)
    rw [if_pos negative]
    exact iff_of_true ⟨_, word, rfl⟩ negative
  · rw [if_neg negative]
    refine iff_of_false ?_ negative
    rintro ⟨number, -, ⟨⟩⟩

theorem eq_overflow_iff (stands : value.number? = some content) (listed : type ∈ IntegerType.all)
    (outside : ¬ (type.least ≤ content ∧ content ≤ type.greatest)) :
    toClassical value type.name =
        .error (.overflow content.toNat type.name type.greatest.toNat) ↔
      type.greatest < content := by
  have zero : type.least ≤ 0 ∧ 0 ≤ type.greatest := by
    have each : ∀ type ∈ IntegerType.all, type.least ≤ 0 ∧ 0 ≤ type.greatest := by decide
    exact each type listed
  rw [toClassical_of_number? stands listed, if_neg outside]
  by_cases negative : content < 0
  · rw [if_pos negative]
    exact iff_of_false (by rintro ⟨⟩) (by omega)
  · rw [if_neg negative]
    exact iff_of_true rfl (by omega)

/-- A conversion to a truth value, an integer or a character keeps the number. -/
theorem number?_of_toClassical (stands : value.number? = some content) {leaf : String}
    (listed : leaf ∈ "char" :: IntegerType.all.map IntegerType.leaf)
    (converted : toClassical value (.ofLeaf leaf) = .ok between) :
    between.number? = some content := by
  rcases List.mem_cons.1 listed with rfl | listed
  · by_cases truth : ∃ flag, value = .bool flag
    · obtain ⟨flag, rfl⟩ := truth
      cases converted
    · obtain ⟨char, rfl, rfl⟩ := (toClassical_char_eq_ok_iff stands
        fun flag same => truth ⟨flag, same⟩).1 converted
      rfl
  · obtain ⟨middle, member, rfl⟩ := List.mem_map.1 listed
    obtain ⟨within, rfl⟩ := (toClassical_eq_ok_iff stands member).1 converted
    exact (canonical_encode .builtins member within).2

end Outcomes

/--
A truth value, an integer or a character with some number converts to a truth value
or integer type exactly when the type holds the number, and then to a canonical
value with this number; otherwise the error says on which side the number lies.  An
integer or a character converts to a character exactly when its number is that of
one.  Hence a detour through any of these types makes no difference where the
conversion to it succeeds.
-/
theorem toClassical_keeps_number (types : TypeTable) (stands : value.number? = some content) :
    (∀ type ∈ IntegerType.all,
      ((∃ result, toClassical value type.name = .ok result) ↔
        type.least ≤ content ∧ content ≤ type.greatest) ∧
      (∀ result, toClassical value type.name = .ok result →
        Canonical types type.name result ∧ result.number? = some content) ∧
      (¬ (type.least ≤ content ∧ content ≤ type.greatest) →
        ((∃ number : Int64, number.toInt = content ∧
            toClassical value type.name = .error (.negativeToUnsigned number type.name)) ↔
          content < 0) ∧
        (toClassical value type.name =
            .error (.overflow content.toNat type.name type.greatest.toNat) ↔
          type.greatest < content)) ∧
      ∀ leaf ∈ "char" :: IntegerType.all.map IntegerType.leaf, ∀ between,
        toClassical value (.ofLeaf leaf) = .ok between →
          toClassical between type.name = toClassical value type.name) ∧
    ((∀ flag, value ≠ .bool flag) →
      ((∃ result, toClassical value (.ofLeaf "char") = .ok result) ↔ IsScalar content) ∧
      ∀ result, toClassical value (.ofLeaf "char") = .ok result →
        ∃ char : Char, result = .char char ∧ (char.toNat : Int) = content) := by
  refine ⟨fun type listed => ⟨?_, fun result converted => ?_, fun outside => ?_,
    fun leaf known between converted => ?_⟩, fun notBool => ⟨?_, fun result converted => ?_⟩⟩
  · simp [toClassical_eq_ok_iff stands listed]
  · obtain ⟨within, rfl⟩ := (toClassical_eq_ok_iff stands listed).1 converted
    exact canonical_encode types listed within
  · exact ⟨exists_negativeToUnsigned_iff stands listed outside,
      eq_overflow_iff stands listed outside⟩
  · have kept := number?_of_toClassical stands known converted
    rw [toClassical_of_number? kept listed, toClassical_of_number? stands listed]
  · rw [← exists_char_iff]
    simp [toClassical_char_eq_ok_iff stands notBool]
  · exact (toClassical_char_eq_ok_iff stands notBool).1 converted

/--
The greatest word passes through its own type and overflows the signed one, the
least signed word has no unsigned counterpart, and the first surrogate is no character.
-/
theorem toClassical_keeps_number_extremes :
    (∃ result, toClassical (.uint 0xFFFFFFFFFFFFFFFF) (.ofLeaf "u64") = .ok result ∧
      result.number? = some (2 ^ 64 - 1)) ∧
    toClassical (.uint 0xFFFFFFFFFFFFFFFF) (.ofLeaf "int") =
      .error (.overflow (2 ^ 64 - 1) (.ofLeaf "int") (2 ^ 63 - 1)) ∧
    (∃ number : Int64, number.toInt = -2 ^ 63 ∧
      toClassical (.int (-0x8000000000000000)) (.ofLeaf "u8") =
        .error (.negativeToUnsigned number (.ofLeaf "u8"))) ∧
    ¬ ∃ result, toClassical (.int 0xD800) (.ofLeaf "char") = .ok result := by
  obtain ⟨great, -⟩ := toClassical_keeps_number .builtins
    (show Value.number? (.uint 0xFFFFFFFFFFFFFFFF) = some (2 ^ 64 - 1) by decide)
  obtain ⟨small, -⟩ := toClassical_keeps_number .builtins
    (show Value.number? (.int (-0x8000000000000000)) = some (-2 ^ 63) by decide)
  obtain ⟨-, surrogate⟩ := toClassical_keeps_number .builtins
    (show Value.number? (.int 0xD800) = some 0xD800 by decide)
  obtain ⟨passes, keeps, -⟩ := great ⟨"u64", .unsigned 64, 0, 2 ^ 64 - 1⟩ (by decide)
  obtain ⟨-, -, stops, -⟩ := great ⟨"int", .int, -2 ^ 63, 2 ^ 63 - 1⟩ (by decide)
  obtain ⟨-, -, refuses, -⟩ := small ⟨"u8", .unsigned 8, 0, 2 ^ 8 - 1⟩ (by decide)
  obtain ⟨result, converted⟩ := passes.2 (by decide)
  refine ⟨⟨result, converted, (keeps result converted).2⟩, (stops (by decide)).2.2 (by decide),
    (refuses (by decide)).1.2 (by decide), ?_⟩
  rw [(surrogate fun flag => by rintro ⟨⟩).1, IsScalar]
  decide

end Conversion

end HybridQuantum
