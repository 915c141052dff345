import Mathlib.Data.String.Basic

/-!
# The order of texts by bytes

Texts are compared by their characters here, and by the bytes that encode them
where they are stored.  Both orders are one: of two different characters the
smaller one has the smaller encoding, and no encoding is the start of another.
-/

namespace HybridQuantum.Text

/-- The bytes that encode a text. -/
def utf8Bytes (text : String) : List UInt8 :=
  text.toByteArray.data.toList

theorem utf8Bytes_eq_flatMap (text : String) :
    utf8Bytes text = text.toList.flatMap String.utf8EncodeChar := by
  rw [utf8Bytes, ← String.utf8Encode_toList, List.utf8Encode, List.toList_data_toByteArray]

section Encoding

/-- The low digits of a number to the base 64, the highest first, as continuation bytes. -/
def continuation : Nat → Nat → List UInt8
  | 0, _ => []
  | count + 1, number => continuation count (number / 64) ++ [UInt8.ofNat (number % 64 + 128)]

/-- Where the first bytes with `count` continuation bytes begin. -/
def leadOffset : Nat → Nat
  | 0 => 0
  | 1 => 192
  | 2 => 224
  | _ => 240

/-- How many continuation bytes a code point takes. -/
inductive Takes (number : Nat) : Nat → Prop
  | none (below : number < 128) : Takes number 0
  | one (above : 128 ≤ number) (below : number < 2048) : Takes number 1
  | two (above : 2048 ≤ number) (below : number < 65536) : Takes number 2
  | three (above : 65536 ≤ number) (below : number < 1114112) : Takes number 3

theorem toNat_lt (char : Char) : char.val.toNat < 1114112 := by
  rcases char.valid with low | ⟨-, high⟩
  · exact Nat.lt_trans low (by decide)
  · exact high

/-- A character is encoded as a first byte and the low digits of its code point. -/
theorem exists_takes (char : Char) :
    ∃ count, Takes char.val.toNat count ∧
      String.utf8EncodeChar char =
        UInt8.ofNat (leadOffset count + char.val.toNat / 64 ^ count) ::
          continuation count char.val.toNat := by
  have range := toNat_lt char
  unfold String.utf8EncodeChar
  generalize char.val.toNat = number at range ⊢
  dsimp only
  split_ifs
  · exact ⟨0, .none (by omega), by simp [leadOffset, continuation]⟩
  · refine ⟨1, .one (by omega) (by omega), ?_⟩
    have lead : number / 64 % 32 + 192 = 192 + number / 64 := by omega
    simp [leadOffset, continuation, lead]
  · refine ⟨2, .two (by omega) (by omega), ?_⟩
    have lead : number / 4096 % 16 + 224 = 224 + number / 4096 := by omega
    simp [leadOffset, continuation, lead]
  · refine ⟨3, .three (by omega) range, ?_⟩
    have lead : number / 262144 % 8 + 240 = 240 + number / 262144 := by omega
    simp [leadOffset, continuation, lead, Nat.div_div_eq_div_mul]

theorem append_lt_append_left_iff (common : List UInt8) {first second : List UInt8} :
    common ++ first < common ++ second ↔ first < second := by
  induction common with
  | nil => rfl
  | cons byte rest ih => simp [ih]

/-- Of two numbers with the same high digits the smaller one has the smaller low digits. -/
theorem continuation_append_lt {count first second : Nat} (less : first < second)
    (high : first / 64 ^ count = second / 64 ^ count) (firstRest secondRest : List UInt8) :
    continuation count first ++ firstRest < continuation count second ++ secondRest := by
  induction count generalizing first second firstRest secondRest with
  | zero => simp at high; omega
  | succ count ih =>
      rw [continuation, continuation, List.append_assoc, List.append_assoc]
      rw [Nat.pow_succ', ← Nat.div_div_eq_div_mul, ← Nat.div_div_eq_div_mul] at high
      rcases Nat.lt_or_ge (first / 64) (second / 64) with lower | notLower
      · exact ih lower high _ _
      · have same : first / 64 = second / 64 := by omega
        rw [same, append_lt_append_left_iff]
        refine List.cons_lt_cons_iff.2 (.inl ?_)
        rw [UInt8.lt_iff_toNat_lt, UInt8.toNat_ofNat', UInt8.toNat_ofNat']
        omega

/-- The encodings of two characters differ, where both have a byte, as the characters do. -/
theorem utf8EncodeChar_append_lt {first second : Char} (less : first < second)
    (firstRest secondRest : List UInt8) :
    String.utf8EncodeChar first ++ firstRest < String.utf8EncodeChar second ++ secondRest := by
  have smaller : first.val.toNat < second.val.toNat := less
  obtain ⟨firstCount, firstTakes, firstBytes⟩ := exists_takes first
  obtain ⟨secondCount, secondTakes, secondBytes⟩ := exists_takes second
  rw [firstBytes, secondBytes, List.cons_append, List.cons_append, List.cons_lt_cons_iff,
    UInt8.lt_iff_toNat_lt, UInt8.toNat_ofNat', UInt8.toNat_ofNat']
  generalize first.val.toNat = low at *
  generalize second.val.toNat = high at *
  have leads : (leadOffset firstCount + low / 64 ^ firstCount) % 256 <
        (leadOffset secondCount + high / 64 ^ secondCount) % 256 ∨
      firstCount = secondCount ∧ low / 64 ^ firstCount = high / 64 ^ secondCount := by
    cases firstTakes <;> cases secondTakes <;>
      simp only [leadOffset, Nat.reducePow, true_and] <;> omega
  rcases leads with lower | ⟨rfl, same⟩
  · exact .inl lower
  · exact .inr ⟨by rw [same], continuation_append_lt smaller same _ _⟩

end Encoding

theorem flatMap_utf8EncodeChar_lt {first second : List Char} (less : first < second) :
    first.flatMap String.utf8EncodeChar < second.flatMap String.utf8EncodeChar := by
  induction less with
  | @nil char rest =>
      obtain ⟨count, -, bytes⟩ := exists_takes char
      rw [List.flatMap_cons, bytes]
      exact List.nil_lt_cons _ _
  | rel smaller => exact utf8EncodeChar_append_lt smaller _ _
  | cons _ ih => exact (append_lt_append_left_iff _).2 ih

/-- The order of texts is the order of their bytes. -/
theorem lt_iff_utf8Bytes_lt {first second : String} :
    first < second ↔ utf8Bytes first < utf8Bytes second := by
  have grows {left right : String} (less : left < right) : utf8Bytes left < utf8Bytes right := by
    rw [utf8Bytes_eq_flatMap, utf8Bytes_eq_flatMap]
    exact flatMap_utf8EncodeChar_lt (String.lt_iff.1 less)
  refine ⟨grows, fun less => ?_⟩
  rcases lt_trichotomy first second with before | same | behind
  · exact before
  · exact absurd (same ▸ less) (List.lt_irrefl _)
  · exact absurd less (List.lt_asymm (grows behind))

theorem le_iff_utf8Bytes_le {first second : String} :
    first ≤ second ↔ utf8Bytes first ≤ utf8Bytes second := by
  rw [← not_lt, lt_iff_utf8Bytes_lt]
  rfl

end HybridQuantum.Text
