import HybridQuantum.Circuit.Simulator
import HybridQuantum.Proofs.Circuit.Loops

/-!
# Running a circuit with every access checked

The run of a circuit and the readout of its classical bits, done on machine words
and masks, in which a missing qubit of a gate, a bit that no word has and an index
outside a vector each leave no result.  On operations within the bounds of their
circuit this is the plain run, so none of them ever happens.
-/

namespace HybridQuantum.Circuit

/--
An operation within bounds: its qubits and classical bits exist, and a gate is
applied to as many qubits as it takes, all distinct.
-/
def Op.IsWithin {ρ : Type} (qubits clbits : Nat) : Op ρ → Prop
  | .gate applied places =>
      places.length = applied.qubitCount ∧ places.Nodup ∧ ∀ place ∈ places, place < qubits
  | .reset place => place < qubits
  | .barrier => True
  | .measure place clbit => place < qubits ∧ clbit < clbits

def IsWithin {ρ : Type} (circuit : Circuit ρ) : Prop :=
  ∀ op ∈ circuit.ops, op.IsWithin circuit.qubits circuit.clbits

theorem IsWithin.measurements {ρ : Type} {circuit : Circuit ρ} (within : circuit.IsWithin) :
    ∀ measurement ∈ circuit.measurements,
      measurement.1 < circuit.qubits ∧ measurement.2 < circuit.clbits := by
  intro measurement listed
  obtain ⟨op, member, found⟩ := List.mem_filterMap.1 listed
  have bounds := within op member
  cases op with
  | measure place clbit =>
      cases found
      exact bounds
  | _ => cases found

namespace Checked

section Definitions

variable {α : Type}

/-- The word with one bit set, for the bits that words have. -/
def mask? (bit : Nat) : Option UInt64 :=
  if bit < 64 then some (1 <<< UInt64.ofNat bit) else none

def isSet (mask index : UInt64) : Bool :=
  index &&& mask != 0

/-- Go through indices and change the entries at each selected one and at its partner. -/
def pairLoop? (selects : UInt64 → Bool) (partner : UInt64 → UInt64) (change : α → α → α × α) :
    (remaining : Nat) → (index : UInt64) → Array α → Option (Array α)
  | 0, _, vector => some vector
  | remaining + 1, index, vector =>
      if selects index then do
        let other := partner index
        let changed := change (← vector[index.toNat]?) (← vector[other.toNat]?)
        pairLoop? selects partner change remaining (index + 1)
          ((vector.setIfInBounds index.toNat changed.1).setIfInBounds other.toNat changed.2)
      else pairLoop? selects partner change remaining (index + 1) vector

def eachLoop? (change : UInt64 → α → α) :
    (remaining : Nat) → (index : UInt64) → Array α → Option (Array α)
  | 0, _, vector => some vector
  | remaining + 1, index, vector => do
      let entry ← vector[index.toNat]?
      eachLoop? change remaining (index + 1)
        (vector.setIfInBounds index.toNat (change index entry))

variable (qubits : Nat)

def changePairs? (selects : UInt64 → Bool) (partner : UInt64 → UInt64) (change : α → α → α × α)
    (vector : Array α) : Option (Array α) := do
  pairLoop? selects partner change (← mask? qubits).toNat 0 vector

def changeEach? (change : UInt64 → α → α) (vector : Array α) : Option (Array α) := do
  eachLoop? change (← mask? qubits).toNat 0 vector

/-- Change the pairs of entries that differ in the bit of a qubit. -/
def changeQubit? (place : Option Nat) (change : α → α → α × α) (vector : Array α) :
    Option (Array α) := do
  let mask ← mask? (← place)
  changePairs? qubits (fun index => !isSet mask index) (· ||| mask) change vector

/-- Change each entry by whether the bit of a qubit is set. -/
def changeByBit? (place : Option Nat) (change : Bool → α → α) (vector : Array α) :
    Option (Array α) := do
  let mask ← mask? (← place)
  changeEach? qubits (fun index => change (isSet mask index)) vector

open StateVector Amplitude

def negateSet (set : Bool) (entry : Amplitude) : Amplitude :=
  if set then -entry else entry

def turnSet (angle : Float) (set : Bool) (entry : Amplitude) : Amplitude :=
  if set then entry * phase angle else entry

def turnBoth (theta : Float) (set : Bool) (entry : Amplitude) : Amplitude :=
  if set then entry * phase (theta / 2) else entry * phase (-theta / 2)

def pairTurn (theta phi lambda : Float) : Amplitude → Amplitude → Amplitude × Amplitude :=
  pairU (theta / 2).cos (theta / 2).sin (phase lambda) (phase phi) (phase (phi + lambda))

def applyCX? (places : List Nat) (vector : Array α) : Option (Array α) := do
  let control ← mask? (← places[0]?)
  let target ← mask? (← places[1]?)
  changePairs? qubits (fun index => isSet control index && !isSet target index) (· ||| target)
    exchange vector

def applyCZ? (places : List Nat) (vector : Array Amplitude) : Option (Array Amplitude) := do
  let control ← mask? (← places[0]?)
  let target ← mask? (← places[1]?)
  changeEach? qubits (fun index => negateSet (isSet control index && isSet target index)) vector

def applySwap? (places : List Nat) (vector : Array α) : Option (Array α) := do
  let first ← mask? (← places[0]?)
  let second ← mask? (← places[1]?)
  changePairs? qubits (fun index => isSet first index && !isSet second index)
    (fun index => (index &&& ~~~first) ||| second) exchange vector

def applyCCX? (places : List Nat) (vector : Array α) : Option (Array α) := do
  let first ← mask? (← places[0]?)
  let second ← mask? (← places[1]?)
  let target ← mask? (← places[2]?)
  changePairs? qubits
    (fun index => isSet first index && isSet second index && !isSet target index) (· ||| target)
    exchange vector

def applyGate? (vector : Array Amplitude) : Gate Float → List Nat → Option (Array Amplitude)
  | .id, _ => some vector
  | .x, places => changeQubit? qubits places[0]? exchange vector
  | .y, places => changeQubit? qubits places[0]? pairY vector
  | .z, places => changeByBit? qubits places[0]? negateSet vector
  | .h, places => changeQubit? qubits places[0]? pairH vector
  | .s, places => changeByBit? qubits places[0]? (turnSet (Expr.piValue / 2)) vector
  | .sdg, places => changeByBit? qubits places[0]? (turnSet (-Expr.piValue / 2)) vector
  | .t, places => changeByBit? qubits places[0]? (turnSet (Expr.piValue / 4)) vector
  | .tdg, places => changeByBit? qubits places[0]? (turnSet (-Expr.piValue / 4)) vector
  | .rx theta, places =>
      changeQubit? qubits places[0]? (pairRX (theta / 2).cos (theta / 2).sin) vector
  | .ry theta, places =>
      changeQubit? qubits places[0]? (pairRY (theta / 2).cos (theta / 2).sin) vector
  | .rz theta, places => changeByBit? qubits places[0]? (turnBoth theta) vector
  | .u1 lambda, places => changeByBit? qubits places[0]? (turnSet lambda) vector
  | .u2 phi lambda, places =>
      changeQubit? qubits places[0]? (pairTurn (Expr.piValue / 2) phi lambda) vector
  | .u3 theta phi lambda, places =>
      changeQubit? qubits places[0]? (pairTurn theta phi lambda) vector
  | .cx, places => applyCX? qubits places vector
  | .cz, places => applyCZ? qubits places vector
  | .swap, places => applySwap? qubits places vector
  | .ccx, places => applyCCX? qubits places vector

def applyReset? (place : Nat) (vector : Array Amplitude) : Option (Array Amplitude) := do
  let mask ← mask? place
  changePairs? qubits (isSet mask) (· &&& ~~~mask) mergeBranches vector

def applyOp? (state : StateVector) : Op Float → Option StateVector
  | .gate gate places => (applyGate? qubits state.amplitudes gate places).map StateVector.mk
  | .reset place => (applyReset? qubits place state.amplitudes).map StateVector.mk
  | .barrier => some state
  | .measure _ _ => some state

def init? : Option StateVector := do
  let vector := Array.replicate (← mask? qubits).toNat Amplitude.zero
  if 0 < vector.size then some ⟨vector.setIfInBounds 0 .one⟩ else none

def run? (circuit : Circuit Float) : Option StateVector := do
  circuit.ops.foldlM (applyOp? circuit.qubits) (← init? circuit.qubits)

def measure? (outcome : UInt64) (bits : Array Char) (measurement : Nat × Nat) :
    Option (Array Char) := do
  let mask ← mask? measurement.1
  if measurement.2 < bits.size then
    some (bits.setIfInBounds measurement.2 (if isSet mask outcome then '1' else '0'))
  else none

def readout? (outcome : UInt64) (measurements : List (Nat × Nat)) (clbits : Nat) :
    Option String := do
  let bits ← measurements.foldlM (measure? outcome) (Array.replicate clbits '0')
  return String.ofList bits.toList.reverse

end Definitions

section Masks

variable {bit : Nat} {mask index : UInt64}

theorem exists_mask? (bit : Nat) (small : bit < 64) :
    ∃ mask, mask? bit = some mask ∧ mask.toNat = 2 ^ bit := by
  refine ⟨_, if_pos small, ?_⟩
  have shift : (UInt64.ofNat bit).toNat = bit :=
    UInt64.toNat_ofNat_of_lt' (Nat.lt_trans small (by decide))
  have below : 2 ^ bit < 2 ^ 64 := Nat.pow_lt_pow_right (by decide) small
  rw [UInt64.toNat_shiftLeft, shift, UInt64.toNat_one, Nat.mod_eq_of_lt small, Nat.one_shiftLeft,
    Nat.mod_eq_of_lt below]

theorem testBit_toNat_mask (value : mask.toNat = 2 ^ bit) (other : Nat) :
    mask.toNat.testBit other = decide (bit = other) := by
  rw [value, Nat.testBit_two_pow]

theorem testBit_toNat_not (word : UInt64) {other : Nat} (small : other < 64) :
    (~~~word).toNat.testBit other = !word.toNat.testBit other := by
  have value : (~~~word).toNat = 2 ^ 64 - (word.toNat + 1) := by
    rw [UInt64.toNat_not]
    simp only [UInt64.size]
    omega
  rw [value, Nat.testBit_two_pow_sub_succ word.toNat_lt]
  simp [small]

theorem testBit_toNat_of_ge (word : UInt64) {other : Nat} (large : 64 ≤ other) :
    word.toNat.testBit other = false :=
  Nat.testBit_lt_two_pow (Nat.lt_of_lt_of_le word.toNat_lt (Nat.pow_le_pow_right (by decide) large))

theorem isSet_eq (value : mask.toNat = 2 ^ bit) (index : UInt64) :
    isSet mask index = index.toNat.testBit bit := by
  cases tested : index.toNat.testBit bit with
  | true =>
      have here : (index &&& mask).toNat.testBit bit = true := by
        rw [UInt64.toNat_and, Nat.testBit_and, tested, testBit_toNat_mask value]
        simp
      refine bne_iff_ne.2 fun zero => ?_
      rw [zero] at here
      simp at here
  | false =>
      have zero : index &&& mask = 0 := by
        refine UInt64.toNat_inj.1 (Nat.eq_of_testBit_eq fun other => ?_)
        rw [UInt64.toNat_and, Nat.testBit_and, testBit_toNat_mask value]
        by_cases same : bit = other
        · subst same
          simp [tested]
        · simp [same]
      simp [isSet, zero]

/-- Setting a clear bit flips it. -/
theorem toNat_or_mask (value : mask.toNat = 2 ^ bit) (clear : index.toNat.testBit bit = false) :
    (index ||| mask).toNat = flipBit bit index.toNat := by
  refine Nat.eq_of_testBit_eq fun other => ?_
  rw [UInt64.toNat_or, Nat.testBit_or, testBit_toNat_mask value, testBit_flipBit]
  by_cases same : bit = other
  · subst same
    simp [clear]
  · simp [same]

/-- Clearing a set bit flips it. -/
theorem toNat_and_not_mask (value : mask.toNat = 2 ^ bit) (set : index.toNat.testBit bit = true) :
    (index &&& ~~~mask).toNat = flipBit bit index.toNat := by
  refine Nat.eq_of_testBit_eq fun other => ?_
  rw [UInt64.toNat_and, Nat.testBit_and, testBit_flipBit]
  rcases Nat.lt_or_ge other 64 with small | large
  · rw [testBit_toNat_not mask small, testBit_toNat_mask value]
    by_cases same : bit = other
    · subst same
      simp [set]
    · simp [same]
  · have apart : bit ≠ other := by
      rintro rfl
      rw [testBit_toNat_of_ge index large] at set
      cases set
    simp [testBit_toNat_of_ge _ large, apart]

end Masks

section Loops

variable {α : Type} {qubits size : Nat} {vector : Array α}

theorem toNat_add_one {index : UInt64} {remaining : Nat}
    (fits : index.toNat + (remaining + 1) ≤ size) (small : size < UInt64.size) :
    (index + 1).toNat = index.toNat + 1 := by
  rw [UInt64.toNat_add, UInt64.toNat_one]
  simp only [UInt64.size] at small
  omega

/--
Words choose the same pairs as numbers: they select the same indices, a selected
index has the same partner, and partners of indices below a size are below it.
-/
structure Chooses (size : Nat) (selectsWord : UInt64 → Bool) (partnerWord : UInt64 → UInt64)
    (selects : Nat → Bool) (partner : Nat → Nat) : Prop where
  selects_eq : ∀ index, selectsWord index = selects index.toNat
  partner_eq : ∀ index, selects index.toNat = true →
    (partnerWord index).toNat = partner index.toNat
  inside : ∀ index < size, partner index < size

variable {selectsWord : UInt64 → Bool} {partnerWord : UInt64 → UInt64} {selects : Nat → Bool}
  {partner : Nat → Nat}

/-- The loop over pairs never leaves the vector. -/
theorem pairLoop?_eq (chooses : Chooses size selectsWord partnerWord selects partner)
    (change : α → α → α × α) (small : size < UInt64.size) {remaining : Nat} {index : UInt64}
    (fits : index.toNat + remaining ≤ size) (sized : vector.size = size) :
    pairLoop? selectsWord partnerWord change remaining index vector =
      some (pairLoop selects partner change remaining index.toNat vector) := by
  induction remaining generalizing index vector with
  | zero => rfl
  | succ remaining ih =>
      have next := toNat_add_one fits small
      have room : (index + 1).toNat + remaining ≤ size := by omega
      rw [pairLoop?, pairLoop, chooses.selects_eq]
      split
      · rename_i selected
        have here : index.toNat < vector.size := by omega
        have there : partner index.toNat < vector.size := by
          rw [sized]
          exact chooses.inside _ (by omega)
        have same := chooses.partner_eq index selected
        simp only [same, Array.getElem?_eq_getElem here, Array.getElem?_eq_getElem there,
          Option.bind_eq_bind, Option.bind_some, dif_pos (And.intro here there)]
        rw [ih room (by simp [sized]), next]
      · rw [ih room sized, next]

/-- After some steps, the entries gone through are changed and the others are not. -/
theorem eachLoop?_eq (change : Nat → α → α) (small : vector.size < UInt64.size) {remaining : Nat}
    {index : UInt64} (fits : index.toNat + remaining ≤ vector.size) :
    eachLoop? (fun index => change index.toNat) remaining index vector =
      some (vector.mapIdx fun place entry =>
        if index.toNat ≤ place ∧ place < index.toNat + remaining then change place entry
        else entry) := by
  induction remaining generalizing index vector with
  | zero =>
      rw [eachLoop?]
      congr 1
      refine Array.ext (by simp) fun place _ _ => ?_
      rw [Array.getElem_mapIdx, if_neg (by omega)]
  | succ remaining ih =>
      have next := toNat_add_one fits small
      have here : index.toNat < vector.size := by omega
      rw [eachLoop?, Array.getElem?_eq_getElem here]
      simp only [Option.bind_eq_bind, Option.bind_some]
      rw [ih (by simpa using small) (by rw [Array.size_setIfInBounds]; omega), next]
      congr 1
      refine Array.ext (by simp) fun place inLeft inRight => ?_
      rw [Array.size_mapIdx] at inLeft inRight
      rw [Array.getElem_mapIdx, Array.getElem_mapIdx, Array.getElem_setIfInBounds inRight]
      by_cases same : index.toNat = place
      · subst same
        rw [if_pos rfl, if_neg (by omega), if_pos (by omega)]
      · rw [if_neg same]
        congr 1
        simp only [eq_iff_iff]
        omega

theorem two_pow_lt_size (narrow : qubits ≤ 63) : 2 ^ qubits < UInt64.size :=
  Nat.lt_of_le_of_lt (Nat.pow_le_pow_right (by decide) narrow) (by decide)

theorem changePairs?_eq (narrow : qubits ≤ 63) (sized : vector.size = 2 ^ qubits)
    (chooses : Chooses (2 ^ qubits) selectsWord partnerWord selects partner)
    (change : α → α → α × α) :
    changePairs? qubits selectsWord partnerWord change vector =
      some (changePairs selects partner change vector) := by
  obtain ⟨states, found, value⟩ := exists_mask? qubits (by omega)
  have fits : (0 : UInt64).toNat + 2 ^ qubits ≤ 2 ^ qubits := by simp
  have looped := pairLoop?_eq chooses change (two_pow_lt_size narrow) fits sized
  rw [changePairs?, found, Option.bind_eq_bind, Option.bind_some, value, looped, changePairs, sized]
  rfl

theorem changeEach?_eq (narrow : qubits ≤ 63) (sized : vector.size = 2 ^ qubits)
    (change : Nat → α → α) :
    changeEach? qubits (fun index => change index.toNat) vector =
      some (changeEach change vector) := by
  obtain ⟨states, found, value⟩ := exists_mask? qubits (by omega)
  have fits : (0 : UInt64).toNat + 2 ^ qubits ≤ vector.size := by simp [sized]
  have small : vector.size < UInt64.size := sized ▸ two_pow_lt_size narrow
  rw [changeEach?, found, Option.bind_eq_bind, Option.bind_some, value,
    eachLoop?_eq change small fits, changeEach]
  congr 1
  refine Array.ext (by simp) fun place inside _ => ?_
  rw [Array.size_mapIdx, sized] at inside
  rw [Array.getElem_mapIdx, Array.getElem_mapIdx, if_pos (by simpa using inside)]

end Loops

section Gates

variable {α : Type} {qubits : Nat} {vector : Array α}

theorem exists_mask?_of_lt (narrow : qubits ≤ 63) {place : Nat} (inside : place < qubits) :
    ∃ mask, mask? place = some mask ∧ mask.toNat = 2 ^ place :=
  exists_mask? place (by omega)

theorem changeQubit?_eq (narrow : qubits ≤ 63) (sized : vector.size = 2 ^ qubits) {place : Nat}
    (inside : place < qubits) (change : α → α → α × α) :
    changeQubit? qubits (some place) change vector = some (changeQubit place change vector) := by
  obtain ⟨mask, found, value⟩ := exists_mask?_of_lt narrow inside
  have chooses : Chooses (2 ^ qubits) (fun index => !isSet mask index) (· ||| mask)
      (fun index => !index.testBit place) (flipBit place) :=
    { selects_eq := fun index => by rw [isSet_eq value]
      partner_eq := fun index clear => toNat_or_mask value (by simpa using clear)
      inside := fun index below => flipBit_lt inside below }
  simp only [changeQubit?, found, Option.bind_eq_bind, Option.bind_some]
  exact changePairs?_eq narrow sized chooses change

theorem changeByBit?_eq (narrow : qubits ≤ 63) (sized : vector.size = 2 ^ qubits) {place : Nat}
    (inside : place < qubits) (change : Bool → α → α) :
    changeByBit? qubits (some place) change vector =
      some (changeEach (fun index => change (index.testBit place)) vector) := by
  obtain ⟨mask, found, value⟩ := exists_mask?_of_lt narrow inside
  simp only [changeByBit?, found, Option.bind_eq_bind, Option.bind_some, isSet_eq value]
  exact changeEach?_eq narrow sized fun index => change (index.testBit place)

theorem applyCX?_eq (narrow : qubits ≤ 63) (sized : vector.size = 2 ^ qubits)
    {control target : Nat} (inside : ∀ place ∈ [control, target], place < qubits) :
    applyCX? qubits [control, target] vector = some (applyCX control target vector) := by
  simp only [List.forall_mem_cons] at inside
  obtain ⟨controls, foundControl, valueControl⟩ := exists_mask?_of_lt narrow inside.1
  obtain ⟨targets, foundTarget, valueTarget⟩ := exists_mask?_of_lt narrow inside.2.1
  have chooses : Chooses (2 ^ qubits) (fun index => isSet controls index && !isSet targets index)
      (· ||| targets) (fun index => index.testBit control && !index.testBit target)
      (flipBit target) :=
    { selects_eq := fun index => by rw [isSet_eq valueControl, isSet_eq valueTarget]
      partner_eq := fun index selected => toNat_or_mask valueTarget (by
        simp only [Bool.and_eq_true, Bool.not_eq_true'] at selected
        exact selected.2)
      inside := fun index below => flipBit_lt inside.2.1 below }
  simp only [applyCX?, List.getElem?_cons_zero, List.getElem?_cons_succ, foundControl,
    foundTarget, Option.bind_eq_bind, Option.bind_some]
  exact changePairs?_eq narrow sized chooses exchange

theorem applyCCX?_eq (narrow : qubits ≤ 63) (sized : vector.size = 2 ^ qubits)
    {first second target : Nat} (inside : ∀ place ∈ [first, second, target], place < qubits) :
    applyCCX? qubits [first, second, target] vector =
      some (applyCCX first second target vector) := by
  simp only [List.forall_mem_cons] at inside
  obtain ⟨firsts, foundFirst, valueFirst⟩ := exists_mask?_of_lt narrow inside.1
  obtain ⟨seconds, foundSecond, valueSecond⟩ := exists_mask?_of_lt narrow inside.2.1
  obtain ⟨targets, foundTarget, valueTarget⟩ := exists_mask?_of_lt narrow inside.2.2.1
  have chooses : Chooses (2 ^ qubits)
      (fun index => isSet firsts index && isSet seconds index && !isSet targets index)
      (· ||| targets)
      (fun index => index.testBit first && index.testBit second && !index.testBit target)
      (flipBit target) :=
    { selects_eq := fun index => by
        rw [isSet_eq valueFirst, isSet_eq valueSecond, isSet_eq valueTarget]
      partner_eq := fun index selected => toNat_or_mask valueTarget (by
        simp only [Bool.and_eq_true, Bool.not_eq_true'] at selected
        exact selected.2)
      inside := fun index below => flipBit_lt inside.2.2.1 below }
  simp only [applyCCX?, List.getElem?_cons_zero, List.getElem?_cons_succ, foundFirst, foundSecond,
    foundTarget, Option.bind_eq_bind, Option.bind_some]
  exact changePairs?_eq narrow sized chooses exchange

theorem applySwap?_eq (narrow : qubits ≤ 63) (sized : vector.size = 2 ^ qubits)
    {first second : Nat} (inside : ∀ place ∈ [first, second], place < qubits) :
    applySwap? qubits [first, second] vector = some (applySwap first second vector) := by
  simp only [List.forall_mem_cons] at inside
  obtain ⟨firsts, foundFirst, valueFirst⟩ := exists_mask?_of_lt narrow inside.1
  obtain ⟨seconds, foundSecond, valueSecond⟩ := exists_mask?_of_lt narrow inside.2.1
  have chooses : Chooses (2 ^ qubits) (fun index => isSet firsts index && !isSet seconds index)
      (fun index => (index &&& ~~~firsts) ||| seconds)
      (fun index => index.testBit first && !index.testBit second)
      (fun index => flipBit second (flipBit first index)) :=
    { selects_eq := fun index => by rw [isSet_eq valueFirst, isSet_eq valueSecond]
      partner_eq := fun index selected => by
        simp only [Bool.and_eq_true, Bool.not_eq_true'] at selected
        obtain ⟨set, clear⟩ := selected
        have cleared := toNat_and_not_mask valueFirst set
        have apart : first ≠ second := by
          rintro rfl
          rw [set] at clear
          cases clear
        have still : (index &&& ~~~firsts).toNat.testBit second = false := by
          rw [cleared, testBit_flipBit, clear]
          simp [apart]
        rw [toNat_or_mask valueSecond still, cleared]
      inside := fun index below => flipBit_lt inside.2.1 (flipBit_lt inside.1 below) }
  simp only [applySwap?, List.getElem?_cons_zero, List.getElem?_cons_succ, foundFirst, foundSecond,
    Option.bind_eq_bind, Option.bind_some]
  exact changePairs?_eq narrow sized chooses exchange

open StateVector

variable {state : Array Amplitude}

theorem applyCZ?_eq (narrow : qubits ≤ 63) (sized : state.size = 2 ^ qubits)
    {control target : Nat} (inside : ∀ place ∈ [control, target], place < qubits) :
    applyCZ? qubits [control, target] state = some (applyCZ control target state) := by
  simp only [List.forall_mem_cons] at inside
  obtain ⟨controls, foundControl, valueControl⟩ := exists_mask?_of_lt narrow inside.1
  obtain ⟨targets, foundTarget, valueTarget⟩ := exists_mask?_of_lt narrow inside.2.1
  simp only [applyCZ?, List.getElem?_cons_zero, List.getElem?_cons_succ, foundControl, foundTarget,
    Option.bind_eq_bind, Option.bind_some, isSet_eq valueControl, isSet_eq valueTarget]
  exact changeEach?_eq narrow sized fun index =>
    negateSet (index.testBit control && index.testBit target)

theorem applyReset?_eq (narrow : qubits ≤ 63) (sized : state.size = 2 ^ qubits) {place : Nat}
    (inside : place < qubits) :
    applyReset? qubits place state = some (applyReset place state) := by
  obtain ⟨mask, found, value⟩ := exists_mask?_of_lt narrow inside
  have chooses : Chooses (2 ^ qubits) (isSet mask) (· &&& ~~~mask) (·.testBit place)
      (flipBit place) :=
    { selects_eq := isSet_eq value
      partner_eq := fun index set => toNat_and_not_mask value set
      inside := fun index below => flipBit_lt inside below }
  simp only [applyReset?, found, Option.bind_eq_bind, Option.bind_some]
  exact changePairs?_eq narrow sized chooses mergeBranches

theorem size_applyGate (vector : Array Amplitude) (gate : Gate Float) (places : List Nat) :
    (applyGate vector gate places).size = vector.size := by
  unfold applyGate
  split
  all_goals first
    | exact size_changePairs ..
    | exact size_changeEach ..
    | rfl

theorem applyGate?_eq (narrow : qubits ≤ 63) (sized : state.size = 2 ^ qubits)
    {gate : Gate Float} {places : List Nat} (count : places.length = gate.qubitCount)
    (inside : ∀ place ∈ places, place < qubits) :
    applyGate? qubits state gate places = some (applyGate state gate places) := by
  match places, gate, count with
  | [place], .id, _ => rfl
  | [place], .x, _ | [place], .y, _ | [place], .h, _ | [place], .rx _, _ | [place], .ry _, _
  | [place], .u2 _ _, _ | [place], .u3 _ _ _, _ =>
      exact changeQubit?_eq narrow sized (inside place List.mem_cons_self) _
  | [place], .z, _ | [place], .s, _ | [place], .sdg, _ | [place], .t, _ | [place], .tdg, _
  | [place], .rz _, _ | [place], .u1 _, _ =>
      exact changeByBit?_eq narrow sized (inside place List.mem_cons_self) _
  | [control, target], .cx, _ => exact applyCX?_eq narrow sized inside
  | [control, target], .cz, _ => exact applyCZ?_eq narrow sized inside
  | [first, second], .swap, _ => exact applySwap?_eq narrow sized inside
  | [first, second, target], .ccx, _ => exact applyCCX?_eq narrow sized inside

end Gates

section Runs

open StateVector

variable {qubits clbits : Nat} {state : StateVector}

theorem size_apply (state : StateVector) (op : Op Float) :
    (apply state op).amplitudes.size = state.amplitudes.size := by
  cases op with
  | gate gate places => exact size_applyGate ..
  | reset place => exact size_changePairs ..
  | barrier => rfl
  | measure place clbit => rfl

theorem applyOp?_eq (narrow : qubits ≤ 63) (sized : state.amplitudes.size = 2 ^ qubits)
    {op : Op Float} (within : op.IsWithin qubits clbits) :
    applyOp? qubits state op = some (apply state op) := by
  cases op with
  | gate gate places =>
      rw [applyOp?, applyGate?_eq narrow sized within.1 within.2.2]
      rfl
  | reset place =>
      rw [applyOp?, applyReset?_eq narrow sized within]
      rfl
  | barrier => rfl
  | measure place clbit => rfl

theorem foldlM_applyOp?_eq (narrow : qubits ≤ 63) {ops : List (Op Float)}
    (within : ∀ op ∈ ops, op.IsWithin qubits clbits)
    (sized : state.amplitudes.size = 2 ^ qubits) :
    ops.foldlM (applyOp? qubits) state = some (ops.foldl apply state) := by
  induction ops generalizing state with
  | nil => rfl
  | cons op rest ih =>
      obtain ⟨first, others⟩ := List.forall_mem_cons.1 within
      rw [List.foldlM_cons, applyOp?_eq narrow sized first, Option.bind_eq_bind, Option.bind_some]
      exact ih others ((size_apply state op).trans sized)

theorem init?_eq (narrow : qubits ≤ 63) : init? qubits = some (init qubits) := by
  obtain ⟨states, found, value⟩ := exists_mask? qubits (by omega)
  have some : 0 < (Array.replicate states.toNat Amplitude.zero).size := by
    rw [Array.size_replicate, value]
    exact Nat.two_pow_pos qubits
  rw [init?, found, Option.bind_eq_bind, Option.bind_some, if_pos some, value, init,
    Nat.one_shiftLeft]

/-- A circuit within its bounds runs without any failure, and as it does unchecked. -/
theorem run?_eq {circuit : Circuit Float} (narrow : circuit.qubits ≤ 63)
    (within : circuit.IsWithin) :
    run? circuit = some (run circuit) := by
  have sized : (init circuit.qubits).amplitudes.size = 2 ^ circuit.qubits := by
    simp [init, Nat.one_shiftLeft]
  rw [run?, init?_eq narrow, Option.bind_eq_bind, Option.bind_some,
    foldlM_applyOp?_eq narrow within sized, run]

theorem foldlM_measure?_eq (outcome : UInt64) {measurements : List (Nat × Nat)}
    (within : ∀ measurement ∈ measurements, measurement.1 < 64 ∧ measurement.2 < clbits)
    {bits : Array Char} (sized : bits.size = clbits) :
    measurements.foldlM (measure? outcome) bits =
      some (measurements.foldl (fun bits (qubit, clbit) =>
        bits.setIfInBounds clbit (if outcome.toNat.testBit qubit then '1' else '0')) bits) := by
  induction measurements generalizing bits with
  | nil => rfl
  | cons measurement rest ih =>
      obtain ⟨⟨inside, below⟩, others⟩ := List.forall_mem_cons.1 within
      obtain ⟨mask, found, value⟩ := exists_mask? measurement.1 inside
      have written : measure? outcome bits measurement =
          some (bits.setIfInBounds measurement.2
            (if outcome.toNat.testBit measurement.1 then '1' else '0')) := by
        rw [measure?, found, Option.bind_eq_bind, Option.bind_some, if_pos (sized ▸ below),
          isSet_eq value]
      rw [List.foldlM_cons, written, Option.bind_eq_bind, Option.bind_some]
      exact ih others (by simpa using sized)

/-- Measurements of bits that words have, into bits that exist, are read out without failure. -/
theorem readout?_eq_of_lt (outcome : UInt64) {measurements : List (Nat × Nat)}
    (within : ∀ measurement ∈ measurements, measurement.1 < 64 ∧ measurement.2 < clbits) :
    readout? outcome measurements clbits =
      some (readout outcome.toNat measurements clbits) := by
  rw [readout?, foldlM_measure?_eq outcome within Array.size_replicate]
  rfl

/-- Measurements within bounds are read out without any failure. -/
theorem readout?_eq (narrow : qubits ≤ 63) (outcome : UInt64) {measurements : List (Nat × Nat)}
    (within : ∀ measurement ∈ measurements, measurement.1 < qubits ∧ measurement.2 < clbits) :
    readout? outcome measurements clbits =
      some (readout outcome.toNat measurements clbits) :=
  readout?_eq_of_lt outcome fun measurement listed =>
    ⟨by have inside := (within measurement listed).1; omega, (within measurement listed).2⟩

end Runs

end Checked

end HybridQuantum.Circuit
