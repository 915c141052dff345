import HybridQuantum.Proofs.Circuit.Submission
import HybridQuantum.Proofs.Lowering.BasisCode

/-!
# Programs on basis states

A basis program applies the not and sync instructions to quantum literals,
symbols bound to such literals and further basis instructions.  Its meaning is a
number, which the lowered text leaves in the register: every shot on a simulator
observes it, and the most frequent outcome reads back as it.
-/

namespace HybridQuantum

open Circuit

/-- Whether a literal is a primitive value of a quantum type. -/
def Literal.isBasis : Literal → Bool
  | .core content => content.isQuantum
  | _ => false

/-- Whether a name is that of an instruction which moves basis states. -/
def Name.isBasis (name : Name) : Bool :=
  name.leaf == "@not" || name.leaf == "@sync"

mutual

/-- Whether an argument is a quantum literal, bound to one, or a basis instruction. -/
def Arg.isBasis (evaluator : Evaluator) : Arg → Bool
  | .literal content => content.isBasis
  | .symbol name => (evaluator.lookup name).any Literal.isBasis
  | .instr name args _ => name.isBasis && Arg.areBasis evaluator args

/-- Whether all arguments are. -/
def Arg.areBasis (evaluator : Evaluator) : List Arg → Bool
  | [] => true
  | arg :: rest => Arg.isBasis evaluator arg && Arg.areBasis evaluator rest

end

mutual

/-- Whether an element of a block holds basis instructions only, in plain blocks. -/
def BlockItem.isBasis (evaluator : Evaluator) : BlockItem → Bool
  | .instr content => content.name.isBasis && Arg.areBasis evaluator content.args
  | .block flag items => flag = .instrBlock && BlockItem.areBasis evaluator items

/-- Whether all elements do. -/
def BlockItem.areBasis (evaluator : Evaluator) : List BlockItem → Bool
  | [] => true
  | item :: rest => BlockItem.isBasis evaluator item && BlockItem.areBasis evaluator rest

end

namespace Block

/-- A plain block of basis instructions. -/
def IsBasis (evaluator : Evaluator) (block : Block) : Prop :=
  BlockItem.isBasis evaluator (.block block.flag block.items) = true

/-- The basis state that the emissions of a block in order make of a cleared register. -/
def basisState (evaluator : Evaluator) (width : Nat) (block : Block) : Nat :=
  Emission.basisOf width (Emission.ofItems evaluator block.items)

end Block

section Emissions

variable {evaluator : Evaluator} {emission : Emission}

theorem isBasis_of_mem_ofLiteral {literal : Literal}
    (emitted : emission ∈ Emission.ofLiteral literal) :
    emission.isBasis = true := by
  unfold Emission.ofLiteral at emitted
  split at emitted
  · obtain ⟨bits, -, rfl⟩ := Option.map_eq_some_iff.1 (Option.mem_toList.1 emitted)
    rfl
  · cases emitted

theorem isBasis_of_mem_ofInstr {name : Name} (basis : name.isBasis = true)
    (emitted : emission ∈ Emission.ofInstr name) : emission.isBasis = true := by
  rw [Name.isBasis, Bool.or_eq_true, beq_iff_eq, beq_iff_eq] at basis
  unfold Emission.ofInstr at emitted
  rcases basis with leaf | leaf
  · rw [leaf] at emitted
    cases List.mem_singleton.1 emitted
    rfl
  · rw [leaf] at emitted
    cases List.mem_singleton.1 emitted
    rfl

theorem isQuantum_of_isBasis {name : Name} (basis : name.isBasis = true) :
    name.isQuantum = true := by
  rw [Name.isBasis, Bool.or_eq_true, beq_iff_eq, beq_iff_eq] at basis
  unfold Name.isQuantum
  rcases basis with leaf | leaf
  · rw [leaf]
    rfl
  · rw [leaf]
    rfl

mutual

theorem isBasis_of_mem_ofArg : (arg : Arg) → arg.isBasis evaluator = true →
    emission ∈ Emission.ofArg evaluator arg → emission.isBasis = true
  | .literal literal, _, emitted => by
      rw [Emission.ofArg] at emitted
      exact isBasis_of_mem_ofLiteral emitted
  | .symbol name, _, emitted => by
      rw [Emission.ofArg] at emitted
      obtain ⟨literal, -, member⟩ := List.mem_flatMap.1 emitted
      exact isBasis_of_mem_ofLiteral member
  | .instr name args flag, basis, emitted => by
      rw [Arg.isBasis, Bool.and_eq_true] at basis
      rw [Emission.ofArg, if_pos (isQuantum_of_isBasis basis.1)] at emitted
      rcases List.mem_append.1 emitted with inner | last
      · exact isBasis_of_mem_ofArgs args basis.2 inner
      · exact isBasis_of_mem_ofInstr basis.1 last

theorem isBasis_of_mem_ofArgs : (args : List Arg) → Arg.areBasis evaluator args = true →
    emission ∈ Emission.ofArgs evaluator args → emission.isBasis = true
  | [], _, emitted => by
      rw [Emission.ofArgs] at emitted
      cases emitted
  | arg :: rest, basis, emitted => by
      rw [Arg.areBasis, Bool.and_eq_true] at basis
      rw [Emission.ofArgs] at emitted
      rcases List.mem_append.1 emitted with first | others
      · exact isBasis_of_mem_ofArg arg basis.1 first
      · exact isBasis_of_mem_ofArgs rest basis.2 others

end

mutual

theorem isBasis_of_mem_ofItem : (item : BlockItem) → item.isBasis evaluator = true →
    emission ∈ Emission.ofItem evaluator item → emission.isBasis = true
  | .instr instr, basis, emitted => by
      rw [BlockItem.isBasis, Bool.and_eq_true] at basis
      rw [Emission.ofItem] at emitted
      rcases List.mem_append.1 emitted with inner | last
      · exact isBasis_of_mem_ofArgs instr.args basis.2 inner
      · exact isBasis_of_mem_ofInstr basis.1 last
  | .block flag items, basis, emitted => by
      rw [BlockItem.isBasis, Bool.and_eq_true] at basis
      rw [Emission.ofItem] at emitted
      exact isBasis_of_mem_ofItems items basis.2 emitted

theorem isBasis_of_mem_ofItems : (items : List BlockItem) →
    BlockItem.areBasis evaluator items = true →
    emission ∈ Emission.ofItems evaluator items → emission.isBasis = true
  | [], _, emitted => by
      rw [Emission.ofItems] at emitted
      cases emitted
  | item :: rest, basis, emitted => by
      rw [BlockItem.areBasis, Bool.and_eq_true] at basis
      rw [Emission.ofItems] at emitted
      rcases List.mem_append.1 emitted with first | others
      · exact isBasis_of_mem_ofItem item basis.1 first
      · exact isBasis_of_mem_ofItems rest basis.2 others

end

theorem Block.IsBasis.isBasis_of_mem {block : Block} (basis : block.IsBasis evaluator) :
    ∀ emission ∈ Emission.ofItems evaluator block.items, emission.isBasis = true := by
  intro emission emitted
  exact isBasis_of_mem_ofItem (.block block.flag block.items) basis (by rwa [Emission.ofItem])

end Emissions

namespace Lowering

/-- The circuit of a basis program ends in the state of its block. -/
theorem isBasisState_lowerBlock {lowering : Lowering} {block : Block} {code : List Statement}
    (basis : block.IsBasis lowering.evaluator) (lowered : lowering.lowerBlock block = .ok code) :
    IsBasisState (StateVector.run (circuitOf lowering.width code)) lowering.width
      (block.basisState lowering.evaluator lowering.width) :=
  isBasisState_run (realizes_lowerBlock lowered) basis.isBasis_of_mem

/--
A basis program leaves its state in the register, and every shot observes it:
whoever submits the lowered text to a simulator that is large enough, and waits
until some deadline, is handed the counts of one bitstring, the number of the state
in binary digits.
-/
theorem wait_basisProgram {pool : IndexPool} {var : Name} {evaluator : Evaluator}
    {indexes : List Nat} {lowering : Lowering} {block : Block} {text : String}
    {simulator : Simulator} {shots : UInt32}
    (held : pool.indexesOf? var = some indexes) (positive : 1 ≤ indexes.length)
    (basis : block.IsBasis evaluator) (built : Lowering.new pool var evaluator = .ok lowering)
    (generated : lowering.program block = .ok text)
    (fits : indexes.length ≤ simulator.info.maxQubits.toNat)
    (narrow : simulator.info.maxQubits.toNat ≤ 63) (repeated : 0 < shots)
    (drawn : ∀ submission shot, 0 ≤ simulator.source submission shot) (store : JobStore) :
    ∃ counts job finished,
      simulator.backend.submit store text shots = (.ok job, finished) ∧
      (∀ limit, Backend.HasDeadline limit →
        (simulator.backend.wait job limit finished).1 = .ok ⟨counts, shots, none⟩) ∧
      block.basisState evaluator indexes.length < 2 ^ indexes.length ∧
      counts.entries =
        [(bitsText indexes.length (block.basisState evaluator indexes.length), shots.toUInt64)] ∧
      Resolver.highest counts .int =
        .ok (.value (.uint (UInt64.ofNat (block.basisState evaluator indexes.length)))) := by
  obtain ⟨width, host⟩ := width_evaluator_of_new held built
  obtain ⟨code, lowered, rendered⟩ := exists_of_bind_eq_ok generated
  cases rendered
  have word : lowering.width < UInt64.size := by
    rw [width]
    exact Nat.lt_of_le_of_lt (Nat.le_trans fits narrow) (by decide)
  have parsed := lowering.parse_render (realizes_lowerBlock lowered).inRange word
  have ended := isBasisState_lowerBlock (by rwa [host]) lowered
  rw [width] at parsed
  rw [width, host] at ended
  have some : shots ≠ 0 := by
    rintro rfl
    exact absurd repeated (by decide)
  have loaded := Simulator.load_eq_ok some parsed fits (Nat.ne_of_gt positive)
  have ran := Simulator.runShots_of_isBasisState ended (store.submitted + 1) (drawn _) some
  rw [measurements_circuitOf, circuitOf, readout_diagonal] at ran
  obtain ⟨job, finished, submitted, waited⟩ :=
    Simulator.exists_wait_of_runShots loaded ran
  exact ⟨_, job, finished, submitted, waited, ended.below, rfl,
    highest_point positive (by omega) ended.below shots.toUInt64⟩

/-- The standard simulator with every draw in the middle. -/
def sampleSimulator : Simulator :=
  ⟨.standard, fun _ _ => 0.5⟩

/-- Two is prepared, flipped to five and entangled to three, which every shot observes. -/
theorem wait_basisProgram_sample :
    sampleBlock.IsBasis sampleEvaluator ∧
      sampleBlock.basisState sampleEvaluator 3 = 3 ∧ bitsText 3 3 = "011" ∧
      ∃ counts job finished,
        sampleSimulator.backend.submit .empty (sampleLowering.render sampleCode) 1000 =
          (.ok job, finished) ∧
        (sampleSimulator.backend.wait job none finished).1 = .ok ⟨counts, 1000, none⟩ ∧
        sampleBlock.basisState sampleEvaluator 3 < 2 ^ 3 ∧
        counts.entries = [(bitsText 3 (sampleBlock.basisState sampleEvaluator 3), 1000)] ∧
        Resolver.highest counts .int =
          .ok (.value (.uint (UInt64.ofNat (sampleBlock.basisState sampleEvaluator 3)))) := by
  have basis : sampleBlock.IsBasis sampleEvaluator := by rfl
  have drawn : ∀ submission shot, 0 ≤ sampleSimulator.source submission shot := by
    intro _ _
    have half : (0 : Float) ≤ 0.5 := by decide +kernel
    exact half
  obtain ⟨counts, job, finished, submitted, waited, observed⟩ :=
    @wait_basisProgram samplePool (.ofLeaf "@v") sampleEvaluator [0, 1, 2] sampleLowering
      sampleBlock (sampleLowering.render sampleCode) sampleSimulator 1000 rfl (by decide) basis
      new_samplePool program_sampleBlock (by decide) (by decide) (by decide) drawn .empty
  exact ⟨basis, by rfl, by rfl, counts, job, finished, submitted, waited none (by decide),
    observed⟩

end Lowering

end HybridQuantum
