/-!
# Checked and saturating word sums

Sizes and counts are machine words.  Their sums are checked: `add32?` and
`add64?` answer exactly when the mathematical sum fits.  Shot estimates saturate
instead, at the largest 32-bit word.
-/

namespace HybridQuantum.Word

/-- The sum of two 32-bit words, when it is one. -/
def add32? (left right : UInt32) : Option UInt32 :=
  if left.toNat + right.toNat < UInt32.size then some (left + right) else none

/-- The sum of two 64-bit words, when it is one. -/
def add64? (left right : UInt64) : Option UInt64 :=
  if left.toNat + right.toNat < UInt64.size then some (left + right) else none

/-- The 32-bit word closest to `number` from below. -/
def saturate32 (number : Nat) : UInt32 :=
  UInt32.ofNat (min number (UInt32.size - 1))

/-- The 32-bit word `number`, when it is one. -/
def ofNat32? (number : Nat) : Option UInt32 :=
  if number < UInt32.size then some (UInt32.ofNat number) else none

/-- The 64-bit word `number`, when it is one. -/
def ofNat64? (number : Nat) : Option UInt64 :=
  if number < UInt64.size then some (UInt64.ofNat number) else none

/-- The first natural number that is no signed 64-bit word, which is half of all words. -/
def signedLimit : Nat := UInt64.size / 2

/-- The signed 64-bit word `number`, when it is one. -/
def ofInt64? (number : Int) : Option Int64 :=
  if -signedLimit ≤ number ∧ number < signedLimit then some (Int64.ofInt number) else none

/-- A checked sum has the value of the mathematical sum. -/
theorem toNat_of_add32?_eq_some {left right sum : UInt32} (h : add32? left right = some sum) :
    sum.toNat = left.toNat + right.toNat := by
  simp only [add32?] at h
  split at h
  · cases h
    rw [UInt32.toNat_add]
    simp only [UInt32.size] at *
    omega
  · cases h

/-- A checked sum has the value of the mathematical sum. -/
theorem toNat_of_add64?_eq_some {left right sum : UInt64} (h : add64? left right = some sum) :
    sum.toNat = left.toNat + right.toNat := by
  simp only [add64?] at h
  split at h
  · cases h
    rw [UInt64.toNat_add]
    simp only [UInt64.size] at *
    omega
  · cases h

theorem toNat_saturate32 (number : Nat) :
    (saturate32 number).toNat = min number (UInt32.size - 1) :=
  UInt32.toNat_ofNat_of_lt' (Nat.lt_of_le_of_lt (Nat.min_le_right _ _) (by decide))

end HybridQuantum.Word
