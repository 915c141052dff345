import HybridQuantum.Circuit.Simulator
import HybridQuantum.Proofs.Circuit.Loops
import HybridQuantum.Proofs.Numeric.Binary64

/-!
# Basis states

A state vector with amplitude one in a single place is a basis state.  The not
gate and the controlled not gate take basis states to basis states, every draw
from a basis state yields that state, and measuring all slots writes its bits,
the highest one first.
-/

namespace HybridQuantum.Circuit

/-- The amplitudes of a basis state. -/
def basisEntry (basis index : Nat) : Amplitude :=
  if index = basis then .one else .zero

/-- The state vector of one basis state. -/
structure IsBasisState (state : StateVector) (qubits basis : Nat) : Prop where
  below : basis < 2 ^ qubits
  shown : Shows state.amplitudes (2 ^ qubits) (basisEntry basis)

namespace IsBasisState

variable {state : StateVector} {qubits basis : Nat}

theorem init (qubits : Nat) : IsBasisState (.init qubits) qubits 0 := by
  refine ⟨Nat.two_pow_pos qubits, ?_⟩
  have clear : Shows (Array.replicate (1 <<< qubits) Amplitude.zero) (2 ^ qubits)
      (fun _ => .zero) := by
    rw [Nat.one_shiftLeft]
    exact ⟨Array.size_replicate, fun index below => by simp [below]⟩
  refine (clear.setIfInBounds 0 .one).congr fun index _ => ?_
  by_cases first : index = 0 <;> simp [basisEntry, first]

/-- A gate that permutes the entries moves the basis state along. -/
theorem permute (isBasis : IsBasisState state qubits basis) {vector : Array Amplitude}
    {move : Nat → Nat} (involutive : ∀ index, move (move index) = index)
    (inside : move basis < 2 ^ qubits)
    (shown : Shows vector (2 ^ qubits) (fun index => basisEntry basis (move index))) :
    IsBasisState ⟨vector⟩ qubits (move basis) := by
  refine ⟨inside, shown.congr fun index _ => ?_⟩
  have moved : move index = basis ↔ index = move basis := by
    constructor
    · rintro rfl
      exact (involutive index).symm
    · rintro rfl
      exact involutive basis
  simp only [basisEntry, moved]

theorem applyX (isBasis : IsBasisState state qubits basis) {qubit : Nat} (inside : qubit < qubits) :
    IsBasisState ⟨Circuit.applyX qubit state.amplitudes⟩ qubits (flipBit qubit basis) :=
  isBasis.permute (flipBit_flipBit qubit) (flipBit_lt inside isBasis.below)
    (shows_applyX inside isBasis.shown)

theorem applyCX (isBasis : IsBasisState state qubits basis) {control target : Nat}
    (inside : target < qubits) (apart : control ≠ target) :
    IsBasisState ⟨Circuit.applyCX control target state.amplitudes⟩ qubits
      (controlledFlip control target basis) :=
  isBasis.permute (controlledFlip_controlledFlip apart) (controlledFlip_lt inside isBasis.below)
    (shows_applyCX inside apart isBasis.shown)

end IsBasisState

theorem map_range_eq_replicate {α : Type} {size place : Nat} (inside : place < size)
    (here there : α) :
    (List.range size).map (fun index => if index = place then here else there) =
      List.replicate place there ++ here :: List.replicate (size - place - 1) there := by
  refine List.ext_getElem (by simp; omega) fun index left right => ?_
  simp only [List.getElem_map, List.getElem_range]
  rcases Nat.lt_trichotomy index place with before | rfl | after
  · rw [List.getElem_append_left (by simpa using before)]
    simp [Nat.ne_of_lt before]
  · simp
  · have later : index - place ≠ 0 := by omega
    rw [List.getElem_append_right (by simp; omega)]
    simp [Nat.ne_of_gt after, List.getElem_cons, later]

theorem weight_basisEntry (basis index : Nat) :
    (basisEntry basis index).weight = if index = basis then 1 else 0 := by
  have one : Amplitude.weight .one = 1 := by decide +kernel
  have zero : Amplitude.weight .zero = 0 := by decide +kernel
  simp only [basisEntry]
  split
  · exact one
  · exact zero

namespace Sampler

theorem foldl_replicate_sum {sum weight : Float} (keeps : sum + weight = sum) (count : Nat)
    (sums : Array Float) :
    (List.replicate count weight).foldl (fun (sums, sum) weight =>
        let sum := sum + weight
        (sums.push sum, sum)) (sums, sum) = (sums ++ List.replicate count sum, sum) := by
  induction count generalizing sums with
  | zero => simp
  | succ count ih =>
      simp only [List.replicate_succ, List.foldl_cons, keeps, ih]
      simp

theorem runningSums_eq {weights : Array Float} {before after : Nat}
    (shape : weights.toList = List.replicate before 0 ++ 1 :: List.replicate after 0) :
    runningSums weights =
      (List.replicate before (0 : Float) ++ 1 :: List.replicate after 1).toArray := by
  have clear : (0 : Float) + 0 = 0 := by decide +kernel
  have reached : (0 : Float) + 1 = 1 := by decide +kernel
  have full : (1 : Float) + 0 = 1 := by decide +kernel
  rw [runningSums, ← Array.foldl_toList, shape, List.foldl_append, foldl_replicate_sum clear,
    List.foldl_cons]
  simp only [reached]
  rw [foldl_replicate_sum full]
  apply Array.toList_inj.1
  simp

theorem foldl_replicate_last (count : Nat) (index last : Nat) :
    (List.replicate count (0 : Float)).foldl (fun (index, last) weight =>
      (index + 1, if 0 < weight then index else last)) (index, last) = (index + count, last) := by
  have weightless : ¬ (0 : Float) < 0 := by decide +kernel
  induction count generalizing index with
  | zero => simp
  | succ count ih =>
      simp only [List.replicate_succ, List.foldl_cons, weightless, if_false, ih]
      rw [Nat.add_right_comm, Nat.add_assoc]

theorem lastPositive_eq {weights : Array Float} {before after : Nat}
    (shape : weights.toList = List.replicate before 0 ++ 1 :: List.replicate after 0) :
    lastPositive weights = before := by
  have positive : (0 : Float) < 1 := by decide +kernel
  rw [lastPositive, ← Array.foldl_toList, shape, List.foldl_append, foldl_replicate_last,
    List.foldl_cons]
  simp only [positive, if_true]
  rw [foldl_replicate_last]
  simp

/-- Every draw from a basis state yields that state, also one beyond the total weight. -/
theorem sample_ofState {state : StateVector} {qubits basis : Nat}
    (isBasis : IsBasisState state qubits basis) {draw : Float} (nonneg : 0 ≤ draw) :
    (ofState state).sample draw = basis := by
  have shape : (state.amplitudes.map Amplitude.weight).toList =
      List.replicate basis 0 ++ 1 :: List.replicate (2 ^ qubits - basis - 1) 0 := by
    rw [Array.toList_map, isBasis.shown.toList_eq, List.map_map,
      ← map_range_eq_replicate isBasis.below]
    simp only [Function.comp_def, weight_basisEntry]
  have noneBefore : ¬ draw < 0 := not_lt_zero_of_nonneg nonneg
  simp only [ofState, sample, runningSums_eq shape, lastPositive_eq shape]
  by_cases hit : draw < 1
  · simp [List.findIdx?_append, List.findIdx?_cons, noneBefore, hit]
  · simp [List.findIdx?_append, List.findIdx?_cons, noneBefore, hit]

end Sampler

/-- The character of one bit of a basis state. -/
def bitChar (basis bit : Nat) : Char :=
  if basis.testBit bit then '1' else '0'

/-- A number in a fixed count of binary digits, the highest bit first. -/
def bitsText (width number : Nat) : String :=
  String.ofList ((List.range width).reverse.map (bitChar number))

/-- What the measurements in order leave in a classical bit. -/
def lastRead (basis : Nat) (measurements : List (Nat × Nat)) (initial : Char)
    (clbit : Nat) : Char :=
  measurements.foldl (fun char (qubit, target) =>
    if target = clbit then bitChar basis qubit else char) initial

theorem lastRead_cons (basis : Nat) (measurement : Nat × Nat) (rest : List (Nat × Nat))
    (initial : Char) (clbit : Nat) :
    lastRead basis (measurement :: rest) initial clbit =
      lastRead basis rest
        (if measurement.2 = clbit then bitChar basis measurement.1 else initial) clbit :=
  rfl

theorem lastRead_append (basis : Nat) (before after : List (Nat × Nat)) (initial : Char)
    (clbit : Nat) :
    lastRead basis (before ++ after) initial clbit =
      lastRead basis after (lastRead basis before initial clbit) clbit :=
  List.foldl_append

theorem shows_measurements (basis : Nat) (measurements : List (Nat × Nat)) {bits : Array Char}
    {size : Nat} {entry : Nat → Char} (shown : Shows bits size entry) :
    Shows (measurements.foldl (fun bits (qubit, clbit) =>
        bits.setIfInBounds clbit (if basis.testBit qubit then '1' else '0')) bits) size
      (fun clbit => lastRead basis measurements (entry clbit) clbit) := by
  induction measurements generalizing bits entry with
  | nil => exact shown
  | cons measurement rest ih =>
      obtain ⟨qubit, target⟩ := measurement
      refine (ih (shown.setIfInBounds target (bitChar basis qubit))).congr fun clbit _ => ?_
      by_cases same : target = clbit
      · subst same
        simp [lastRead]
      · simp [lastRead, same, Function.update_of_ne (Ne.symm same)]

/-- The classical register is read out bit by bit, the highest first. -/
theorem toList_readout (outcome : Nat) (measurements : List (Nat × Nat)) (clbits : Nat) :
    (readout outcome measurements clbits).toList =
      (List.range clbits).reverse.map (lastRead outcome measurements '0') := by
  have clear : Shows (Array.replicate clbits '0') clbits (fun _ => '0') :=
    ⟨Array.size_replicate, fun index below => by simp [below]⟩
  rw [readout, String.toList_ofList, (shows_measurements outcome measurements clear).toList_eq,
    List.map_reverse]

/-- A register whose bits all read as those of a number shows that number in binary. -/
theorem readout_eq_bitsText {outcome number clbits : Nat} {measurements : List (Nat × Nat)}
    (same : ∀ clbit < clbits, lastRead outcome measurements '0' clbit = bitChar number clbit) :
    readout outcome measurements clbits = bitsText clbits number := by
  rw [← String.toList_inj, toList_readout, bitsText, String.toList_ofList]
  refine List.map_congr_left fun clbit listed => same clbit ?_
  exact List.mem_range.1 (List.mem_reverse.1 listed)

theorem lastRead_diagonal (basis width : Nat) (initial : Char) (clbit : Nat) :
    lastRead basis ((List.range width).map fun slot => (slot, slot)) initial clbit =
      if clbit < width then bitChar basis clbit else initial := by
  induction width with
  | zero => rfl
  | succ width ih =>
      rw [List.range_succ, List.map_append, lastRead_append, ih, List.map_singleton, lastRead_cons]
      by_cases last : width = clbit
      · simp [lastRead, last]
      · have same : clbit < width + 1 ↔ clbit < width := by omega
        simp only [lastRead, last, if_false, same, List.foldl_nil]

/-- Measuring every slot into the bit of the same number writes the basis state in binary. -/
theorem readout_diagonal (basis width : Nat) :
    readout basis ((List.range width).map fun slot => (slot, slot)) width =
      bitsText width basis :=
  readout_eq_bitsText fun clbit below => by rw [lastRead_diagonal, if_pos below]

end HybridQuantum.Circuit
