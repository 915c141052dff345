import HybridQuantum.Proofs.Circuit.BasisState
import HybridQuantum.Proofs.Lowering.Emission
import HybridQuantum.Proofs.Lowering.RoundTrip

/-!
# Emitted code on basis states

Every emission without superposition permutes the basis states.  A prepared
literal adds its bits without carry, the not instruction flips every slot, and
the sync instruction flips every slot but the first where the first one is set.
The statements of an emission, run one by one, do exactly that.
-/

namespace HybridQuantum

open Circuit

/-- What an emission does to the number of a basis state. -/
def Emission.act (width : Nat) : Emission → Nat → Nat
  | .prepare bits, basis => basis ^^^ bits.toNat
  | .apply .redim, basis => basis
  | .apply .not, basis => basis ^^^ (2 ^ width - 1)
  | .apply .sync, basis => if basis.testBit 0 then basis ^^^ (2 ^ width - 2) else basis

/-- Whether an emission takes basis states to basis states. -/
def Emission.isBasis : Emission → Bool
  | .apply .redim => false
  | _ => true

/-- The basis state that emissions in order make of a cleared register. -/
def Emission.basisOf (width : Nat) (emissions : List Emission) : Nat :=
  emissions.foldl (fun basis emission => emission.act width basis) 0

section Bits

theorem testBit_foldl_flipBit {slots : List Nat} (distinct : slots.Nodup) (basis bit : Nat) :
    (slots.foldl (fun basis slot => flipBit slot basis) basis).testBit bit =
      (basis.testBit bit ^^ decide (bit ∈ slots)) := by
  induction slots generalizing basis with
  | nil => simp
  | cons slot rest ih =>
      obtain ⟨fresh, distinctRest⟩ := List.nodup_cons.1 distinct
      rw [List.foldl_cons, ih distinctRest, testBit_flipBit]
      by_cases here : slot = bit
      · subst here
        simp [fresh]
      · simp [here, Ne.symm here]

/-- Flipping distinct slots adds the number with exactly these bits. -/
theorem foldl_flipBit_eq_xor {slots : List Nat} (distinct : slots.Nodup) {mask : Nat}
    (marks : ∀ bit, mask.testBit bit = decide (bit ∈ slots)) (basis : Nat) :
    slots.foldl (fun basis slot => flipBit slot basis) basis = basis ^^^ mask := by
  apply Nat.eq_of_testBit_eq
  intro bit
  rw [testBit_foldl_flipBit distinct, Nat.testBit_xor, marks]

theorem foldl_controlledFlip {control : Nat} {slots : List Nat} (apart : control ∉ slots)
    (basis : Nat) :
    slots.foldl (fun basis slot => controlledFlip control slot basis) basis =
      if basis.testBit control then slots.foldl (fun basis slot => flipBit slot basis) basis
      else basis := by
  induction slots generalizing basis with
  | nil => simp
  | cons slot rest ih =>
      obtain ⟨other, apartRest⟩ := List.ne_and_not_mem_of_not_mem_cons apart
      rw [List.foldl_cons, ih apartRest, List.foldl_cons]
      cases controlled : basis.testBit control
      · simp [controlledFlip, controlled]
      · simp [controlledFlip, controlled, testBit_flipBit, Ne.symm other]

theorem testBit_two_pow_sub_two (width bit : Nat) :
    (2 ^ width - 2).testBit bit = decide (bit ∈ List.range' 1 (width - 1)) := by
  cases width with
  | zero => simp
  | succ width =>
      have doubled : 2 ^ (width + 1) - 2 = 2 * (2 ^ width - 1) := by
        rw [Nat.pow_succ]
        omega
      cases bit with
      | zero => simp [doubled, Nat.testBit_zero]
      | succ bit =>
          have halved : 2 * (2 ^ width - 1) / 2 = 2 ^ width - 1 := by omega
          rw [doubled, Nat.testBit_succ, halved, Nat.testBit_two_pow_sub_one]
          simp only [List.mem_range'_1, decide_eq_decide]
          omega

theorem testBit_eq_mem_setBits {width : Nat} {bits : UInt64} (fits : bits.toNat < 2 ^ width)
    (bit : Nat) :
    bits.toNat.testBit bit =
      decide (bit ∈ (List.range (min width 64)).filter bits.toNat.testBit) := by
  cases set : bits.toNat.testBit bit with
  | false => simp [set]
  | true =>
      have reached : 2 ^ bit ≤ bits.toNat := Nat.ge_two_pow_of_testBit set
      have belowWidth : bit < width :=
        (Nat.pow_lt_pow_iff_right (by decide)).1 (Nat.lt_of_le_of_lt reached fits)
      have belowWord : bit < 64 :=
        (Nat.pow_lt_pow_iff_right (by decide)).1 (Nat.lt_of_le_of_lt reached bits.toNat_lt)
      have inside : bit < min width 64 := by omega
      simp [set, inside]

end Bits

namespace Circuit.IsBasisState

variable {state : StateVector} {qubits basis : Nat}

theorem flips (isBasis : IsBasisState state qubits basis) {slots : List Nat}
    (inside : ∀ slot ∈ slots, slot < qubits) :
    IsBasisState
      (((slots.map Statement.flip).map Statement.op).foldl StateVector.apply state) qubits
      (slots.foldl (fun basis slot => flipBit slot basis) basis) := by
  induction slots generalizing state basis with
  | nil => exact isBasis
  | cons slot rest ih =>
      have flipped := isBasis.applyX (inside slot List.mem_cons_self)
      exact ih flipped fun other member => inside other (List.mem_cons_of_mem _ member)

theorem entangles (isBasis : IsBasisState state qubits basis) {control : Nat} {slots : List Nat}
    (inside : ∀ slot ∈ slots, slot < qubits) (apart : control ∉ slots) :
    IsBasisState
      (((slots.map (Statement.entangle control)).map Statement.op).foldl StateVector.apply state)
      qubits (slots.foldl (fun basis slot => controlledFlip control slot basis) basis) := by
  induction slots generalizing state basis with
  | nil => exact isBasis
  | cons slot rest ih =>
      obtain ⟨other, apartRest⟩ := List.ne_and_not_mem_of_not_mem_cons apart
      have moved := isBasis.applyCX (inside slot List.mem_cons_self) other
      exact ih moved (fun next member => inside next (List.mem_cons_of_mem _ member)) apartRest

/-- The code of one emission moves a basis state as the emission says. -/
theorem emission (isBasis : IsBasisState state qubits basis) {emission : Emission}
    (moves : emission.isBasis = true) (fits : emission.Fits qubits) :
    IsBasisState (((emission.code qubits).map Statement.op).foldl StateVector.apply state) qubits
      (emission.act qubits basis) := by
  match emission, moves, fits with
  | .prepare bits, _, fits =>
      have distinct : ((List.range (min qubits 64)).filter bits.toNat.testBit).Nodup :=
        List.nodup_range.filter _
      have inside : ∀ slot ∈ (List.range (min qubits 64)).filter bits.toNat.testBit,
          slot < qubits := by
        intro slot member
        have below := List.mem_range.1 (List.mem_filter.1 member).1
        omega
      have flipped := isBasis.flips inside
      rwa [foldl_flipBit_eq_xor distinct (testBit_eq_mem_setBits fits)] at flipped
  | .apply .not, _, _ =>
      have marks : ∀ bit, (2 ^ qubits - 1).testBit bit = decide (bit ∈ List.range qubits) := by
        simp [Nat.testBit_two_pow_sub_one]
      have inside : ∀ slot ∈ List.range qubits, slot < qubits := fun _ => List.mem_range.1
      have flipped := isBasis.flips inside
      rwa [foldl_flipBit_eq_xor List.nodup_range marks] at flipped
  | .apply .sync, _, fits =>
      have inside : ∀ slot ∈ List.range' 1 (qubits - 1), slot < qubits := by
        intro slot member
        simp only [List.mem_range'_1] at member
        omega
      have apart : 0 ∉ List.range' 1 (qubits - 1) := by
        simp
      have moved := isBasis.entangles inside apart
      rwa [foldl_controlledFlip apart,
        foldl_flipBit_eq_xor List.nodup_range' (testBit_two_pow_sub_two qubits)] at moved

theorem emissions (isBasis : IsBasisState state qubits basis) {emissions : List Emission}
    (move : ∀ emission ∈ emissions, emission.isBasis = true)
    (fit : ∀ emission ∈ emissions, emission.Fits qubits) :
    IsBasisState
      (((emissions.flatMap (Emission.code qubits)).map Statement.op).foldl StateVector.apply state)
      qubits (emissions.foldl (fun basis emission => emission.act qubits basis) basis) := by
  induction emissions generalizing state basis with
  | nil => exact isBasis
  | cons first rest ih =>
      have moved := isBasis.emission (move first List.mem_cons_self) (fit first List.mem_cons_self)
      rw [List.flatMap_cons, List.map_append, List.foldl_append]
      exact ih moved (fun next member => move next (List.mem_cons_of_mem _ member))
        (fun next member => fit next (List.mem_cons_of_mem _ member))

end Circuit.IsBasisState

theorem foldl_apply_measure (state : StateVector) (slots : List Nat) :
    (slots.map fun slot => (Op.measure slot slot : Op Float)).foldl StateVector.apply state =
      state := by
  induction slots with
  | nil => rfl
  | cons slot rest ih => exact ih

/-- The circuit of emissions ends in the basis state they make. -/
theorem isBasisState_run {width : Nat} {emissions : List Emission} {code : List Statement}
    (realizes : Realizes width emissions code)
    (move : ∀ emission ∈ emissions, emission.isBasis = true) :
    IsBasisState (StateVector.run (circuitOf width code)) width
      (Emission.basisOf width emissions) := by
  have reached := (IsBasisState.init width).emissions move realizes.fits
  rw [← realizes.same] at reached
  rw [StateVector.run, circuitOf, List.foldl_append, foldl_apply_measure]
  exact reached

theorem measurements_circuitOf {ρ : Type} (width : Nat) (code : List Statement) :
    (circuitOf width code : Circuit ρ).measurements =
      (List.range width).map fun slot => (slot, slot) := by
  have silent :
      (code.map fun statement => (statement.op : Op ρ)).filterMap Op.measurement? = [] := by
    refine List.filterMap_eq_nil_iff.2 fun op member => ?_
    obtain ⟨statement, -, rfl⟩ := List.mem_map.1 member
    cases statement <;> rfl
  have measured : ((List.range width).map fun slot => (Op.measure slot slot : Op ρ)).filterMap
      Op.measurement? = (List.range width).map fun slot => (slot, slot) := by
    rw [List.filterMap_map]
    exact congrFun List.filterMap_eq_map (List.range width)
  rw [Circuit.measurements, circuitOf, List.filterMap_append, silent, measured, List.nil_append]

end HybridQuantum
