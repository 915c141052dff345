import HybridQuantum.Fault
import HybridQuantum.Lowering.Lowering
import Mathlib.Data.List.Basic

/-!
# Programs flatten their blocks

The code of a block is made by one walk over its tree.  On the way the walk meets
the flag of each block it enters and each instruction; whether it goes through,
where it stops otherwise, and what it has written in the end depends on nothing
but this list of steps.
-/

namespace HybridQuantum

section FlatMapM

variable {ε α β : Type} {run : α → Except ε (List β)} {items : List α} {cause : ε}

theorem flatMapM_append (run : α → Except ε (List β)) (front back : List α) :
    (front ++ back).flatMapM run = do
      let first ← front.flatMapM run
      let others ← back.flatMapM run
      return first ++ others := by
  induction front with
  | nil =>
      rw [List.nil_append]
      cases back.flatMapM run <;> rfl
  | cons item rest ih =>
      rw [List.cons_append, List.flatMapM_cons, List.flatMapM_cons, ih]
      simp only [bind_assoc, pure_bind, List.append_assoc]

theorem flatMapM_eq_ok (result : α → List β) (done : ∀ item ∈ items, run item = .ok (result item)) :
    items.flatMapM run = .ok (items.flatMap result) := by
  induction items with
  | nil => rfl
  | cons item rest ih =>
      have first := done item List.mem_cons_self
      have others := ih fun later listed => done later (List.mem_cons_of_mem _ listed)
      rw [List.flatMapM_cons, first, others]
      rfl

theorem exists_of_flatMapM_eq_error (stopped : items.flatMapM run = .error cause) :
    ∃ before item after, items = before ++ item :: after ∧
      (∀ earlier ∈ before, ∃ results, run earlier = .ok results) ∧ run item = .error cause := by
  induction items with
  | nil => cases stopped
  | cons first rest ih =>
      rw [List.flatMapM_cons] at stopped
      cases ran : run first with
      | error found =>
          rw [ran] at stopped
          cases stopped
          exact ⟨[], first, rest, rfl, by simp, ran⟩
      | ok results =>
          rw [ran, ok_bind] at stopped
          cases later : rest.flatMapM run with
          | ok others =>
              rw [later] at stopped
              cases stopped
          | error found =>
              rw [later] at stopped
              cases stopped
              obtain ⟨before, item, after, rfl, passes, fails⟩ := ih later
              exact ⟨first :: before, item, after, rfl,
                List.forall_mem_cons.2 ⟨⟨results, ran⟩, passes⟩, fails⟩

theorem exists_flatMapM_eq_ok_iff :
    (∃ results, items.flatMapM run = .ok results) ↔
      ∀ item ∈ items, ∃ results, run item = .ok results := by
  constructor
  · rintro ⟨results, done⟩
    induction items generalizing results with
    | nil => simp
    | cons first rest ih =>
        rw [List.flatMapM_cons] at done
        obtain ⟨here, passed, remaining⟩ := exists_of_bind_eq_ok done
        obtain ⟨others, later, -⟩ := exists_of_bind_eq_ok remaining
        exact List.forall_mem_cons.2 ⟨⟨here, passed⟩, ih others later⟩
  · intro passes
    cases ended : items.flatMapM run with
    | ok results => exact ⟨results, rfl⟩
    | error cause =>
        obtain ⟨before, item, after, rfl, -, fails⟩ := exists_of_flatMapM_eq_error ended
        obtain ⟨results, passed⟩ := passes item (by simp)
        rw [fails] at passed
        cases passed

/-- A walk fails with the error of the first item that fails. -/
theorem flatMapM_eq_error_iff :
    items.flatMapM run = .error cause ↔
      ∃ before item after, items = before ++ item :: after ∧
        (∀ earlier ∈ before, ∃ results, run earlier = .ok results) ∧ run item = .error cause := by
  refine ⟨exists_of_flatMapM_eq_error, ?_⟩
  rintro ⟨before, item, after, rfl, passes, fails⟩
  obtain ⟨results, passed⟩ := exists_flatMapM_eq_ok_iff.2 passes
  rw [flatMapM_append, passed, List.flatMapM_cons, fails]
  rfl

end FlatMapM

/-- What a walk over a block meets. -/
inductive BlockStep where
  | enter (flag : BlockFlag)
  | instr (content : Instr)

namespace BlockStep

def instr? : BlockStep → Option Instr
  | enter _ => none
  | instr content => some content

end BlockStep

mutual

/-- The flags and the instructions of an element in program order, each flag before its block. -/
def BlockItem.steps : BlockItem → List BlockStep
  | .instr content => [.instr content]
  | .block flag items => .enter flag :: BlockItem.allSteps items

def BlockItem.allSteps : List BlockItem → List BlockStep
  | [] => []
  | item :: rest => item.steps ++ BlockItem.allSteps rest

end

def Block.steps (block : Block) : List BlockStep :=
  .enter block.flag :: BlockItem.allSteps block.items

mutual

theorem BlockItem.filterMap_steps :
    (item : BlockItem) → item.steps.filterMap BlockStep.instr? = item.instructions
  | .instr content => rfl
  | .block flag items => by
      rw [steps, instructions, List.filterMap_cons_none rfl, filterMap_allSteps items]

theorem BlockItem.filterMap_allSteps :
    (items : List BlockItem) →
      (BlockItem.allSteps items).filterMap BlockStep.instr? = BlockItem.allInstructions items
  | [] => rfl
  | item :: rest => by
      rw [allSteps, allInstructions, List.filterMap_append, filterMap_steps item,
        filterMap_allSteps rest]

end

namespace Block

variable {block : Block}

theorem filterMap_steps (block : Block) :
    block.steps.filterMap BlockStep.instr? = block.instructions :=
  BlockItem.filterMap_allSteps block.items

theorem instr_mem_steps_iff {instr : Instr} :
    .instr instr ∈ block.steps ↔ instr ∈ block.instructions := by
  rw [← filterMap_steps, List.mem_filterMap]
  constructor
  · exact fun listed => ⟨_, listed, rfl⟩
  · rintro ⟨step, listed, is⟩
    cases step with
    | enter flag => cases is
    | instr content =>
        cases is
        exact listed

end Block

namespace Lowering

/-- The code of one step; a flag has none. -/
def lowerStep (lowering : Lowering) : BlockStep → Except LoweringError (List Statement)
  | .enter flag => if flag = .instrBlock then .ok [] else .error (.unsupportedBlock flag)
  | .instr content => lowering.lowerInstr content

variable {lowering : Lowering} {block : Block}

mutual

theorem lowerItem_eq_walk :
    (item : BlockItem) → lowering.lowerItem item = item.steps.flatMapM lowering.lowerStep
  | .instr content => by
      rw [lowerItem, BlockItem.steps, List.flatMapM_cons, lowerStep]
      cases lowering.lowerInstr content <;> simp [bind, Except.bind, pure, Except.pure]
  | .block flag items => by
      rw [lowerItem, BlockItem.steps, List.flatMapM_cons, lowerStep, lowerItems_eq_walk items]
      split
      · cases (BlockItem.allSteps items).flatMapM lowering.lowerStep <;> rfl
      · rfl

theorem lowerItems_eq_walk :
    (items : List BlockItem) →
      lowering.lowerItems items = (BlockItem.allSteps items).flatMapM lowering.lowerStep
  | [] => rfl
  | item :: rest => by
      rw [lowerItems, BlockItem.allSteps, flatMapM_append, lowerItem_eq_walk item,
        lowerItems_eq_walk rest]

end

theorem lowerBlock_eq_walk :
    lowering.lowerBlock block = block.steps.flatMapM lowering.lowerStep :=
  lowerItem_eq_walk (.block block.flag block.items)

/-- A program passes when every block is a plain one and every instruction has code. -/
theorem exists_program_eq_ok_iff :
    (∃ text, lowering.program block = .ok text) ↔
      (∀ flag, .enter flag ∈ block.steps → flag = .instrBlock) ∧
        ∀ instr ∈ block.instructions, ∃ code, lowering.lowerInstr instr = .ok code := by
  have same : (∃ text, lowering.program block = .ok text) ↔
      ∃ code, block.steps.flatMapM lowering.lowerStep = .ok code := by
    rw [program, lowerBlock_eq_walk]
    cases block.steps.flatMapM lowering.lowerStep <;> simp [bind, Except.bind, pure, Except.pure]
  rw [same, exists_flatMapM_eq_ok_iff]
  constructor
  · refine fun passes => ⟨fun flag listed => ?_, fun instr listed => ?_⟩
    · obtain ⟨code, passed⟩ := passes _ listed
      by_contra other
      rw [lowerStep, if_neg other] at passed
      cases passed
    · exact passes _ (Block.instr_mem_steps_iff.2 listed)
  · rintro ⟨plain, passes⟩ (flag | instr) listed
    · exact ⟨[], if_pos (plain flag listed)⟩
    · exact passes instr (Block.instr_mem_steps_iff.1 listed)

theorem program_eq_ok {code : Instr → List Statement}
    (plain : ∀ flag, .enter flag ∈ block.steps → flag = .instrBlock)
    (passes : ∀ instr ∈ block.instructions, lowering.lowerInstr instr = .ok (code instr)) :
    lowering.program block = .ok (lowering.render (block.instructions.flatMap code)) := by
  have walked : block.steps.flatMapM lowering.lowerStep =
      .ok (block.steps.flatMap fun step => step.instr?.toList.flatMap code) := by
    refine flatMapM_eq_ok _ fun step listed => ?_
    cases step with
    | enter flag => exact if_pos (plain flag listed)
    | instr instr =>
        have passed := passes instr (Block.instr_mem_steps_iff.1 listed)
        simpa [lowerStep, BlockStep.instr?] using passed
  have flat : (block.steps.flatMap fun step => step.instr?.toList.flatMap code) =
      block.instructions.flatMap code := by
    rw [← Block.filterMap_steps, List.filterMap_eq_flatMap_toList, List.flatMap_assoc]
  rw [program, lowerBlock_eq_walk, walked, flat]
  rfl

/-- The same host and as many slots, over whatever indices. -/
structure Alike (left right : Lowering) : Prop where
  evaluator : left.evaluator = right.evaluator
  width : left.width = right.width

namespace Alike

variable {left right : Lowering}

theorem place (alike : Alike left right) (owner : Name) (literal : Literal) :
    left.place owner literal = right.place owner literal := by
  have prepare : left.prepare owner literal = right.prepare owner literal := by
    cases literal with
    | core core => simp only [Lowering.prepare, alike.width]
    | composite _ _ | mixed _ _ => rfl
  simp only [Lowering.place, prepare]

theorem evaluate (alike : Alike left right) (instr : Instr) :
    left.evaluate instr = right.evaluate instr := by
  simp only [Lowering.evaluate, alike.evaluator]

theorem finish (alike : Alike left right) (instr : Instr)
    (prepared : List Statement × List Literal) :
    left.finish instr prepared = right.finish instr prepared := by
  have slots : left.slots = right.slots := congrArg List.range alike.width
  rw [Lowering.finish, Lowering.finish, slots, alike.evaluate]

mutual

theorem lowerArg (alike : Alike left right) (owner : Name) :
    (arg : Arg) → left.lowerArg owner arg = right.lowerArg owner arg
  | .literal literal => by
      rw [Lowering.lowerArg, Lowering.lowerArg, alike.place]
  | .symbol name => by
      simp only [Lowering.lowerArg, alike.evaluator, alike.place]
  | .instr name args flag => by
      simp only [Lowering.lowerArg, lowerArgs alike name args, alike.finish, alike.evaluate,
        alike.place]

theorem lowerArgs (alike : Alike left right) (owner : Name) :
    (args : List Arg) → left.lowerArgs owner args = right.lowerArgs owner args
  | [] => rfl
  | arg :: rest => by
      rw [Lowering.lowerArgs, Lowering.lowerArgs, lowerArg alike owner arg,
        lowerArgs alike owner rest]

end

theorem lowerInstr (alike : Alike left right) (instr : Instr) :
    left.lowerInstr instr = right.lowerInstr instr := by
  simp only [Lowering.lowerInstr, alike.lowerArgs, alike.finish]

theorem program (alike : Alike left right) (block : Block) :
    left.program block = right.program block := by
  have step : left.lowerStep = right.lowerStep := by
    funext step
    cases step with
    | enter flag => rfl
    | instr instr => exact alike.lowerInstr instr
  have render : left.render = right.render := by
    funext code
    simp only [Lowering.render, opening, alike.width]
  rw [Lowering.program, Lowering.program, lowerBlock_eq_walk, lowerBlock_eq_walk, step, render]

end Alike

/--
The program of a block is the code of its instructions in order between the
registers of the held indices and the closing measurement; it exists when every
block is a plain one and every instruction has code, and otherwise the first step
that fails says why.  Of the pool it depends on the number of indices alone.
-/
theorem program_flattens {pool : IndexPool} {var : Name} {indexes : List Nat}
    (held : pool.indexesOf? var = some indexes) (evaluator : Evaluator) (block : Block) :
    ∃ lowering, new pool var evaluator = .ok lowering ∧
      ((∃ text, lowering.program block = .ok text) ↔
        (∀ flag, .enter flag ∈ block.steps → flag = .instrBlock) ∧
          ∀ instr ∈ block.instructions, ∃ code, lowering.lowerInstr instr = .ok code) ∧
      (∀ (text : String) (code : Instr → List Statement), lowering.program block = .ok text →
        (∀ instr ∈ block.instructions, lowering.lowerInstr instr = .ok (code instr)) →
        text = unlines (["OPENQASM 2.0;", "include \"qelib1.inc\";",
            "qreg q[" ++ toString indexes.length ++ "];",
            "creg c[" ++ toString indexes.length ++ "];"] ++
          (block.instructions.flatMap fun instr => (code instr).map Statement.text) ++
          ["measure q -> c;"])) ∧
      (∀ cause, lowering.program block = .error cause ↔
        ∃ before step after, block.steps = before ++ step :: after ∧
          (∀ earlier ∈ before, ∃ code, lowering.lowerStep earlier = .ok code) ∧
          lowering.lowerStep step = .error cause) ∧
      ∀ (otherPool : IndexPool) (otherVar : Name) (otherIndexes : List Nat),
        otherPool.indexesOf? otherVar = some otherIndexes →
        otherIndexes.length = indexes.length →
        ∃ other, new otherPool otherVar evaluator = .ok other ∧
          other.program block = lowering.program block := by
  refine ⟨_, new_eq_ok held evaluator, exists_program_eq_ok_iff, fun text code done passes => ?_,
    fun cause => ?_, fun otherPool otherVar otherIndexes otherHeld count => ?_⟩
  · have plain := (exists_program_eq_ok_iff.1 ⟨text, done⟩).1
    rw [program_eq_ok plain passes] at done
    cases done
    rw [render, List.map_flatMap]
    rfl
  · rw [← flatMapM_eq_error_iff, program, lowerBlock_eq_walk]
    cases block.steps.flatMapM (lowerStep ⟨var, indexes, evaluator⟩) <;>
      simp [bind, Except.bind, pure, Except.pure]
  · have alike : Alike ⟨otherVar, otherIndexes, evaluator⟩ ⟨var, indexes, evaluator⟩ := ⟨rfl, count⟩
    exact ⟨_, new_eq_ok otherHeld evaluator, alike.program block⟩

/-- A basis state in superposition, then a block of its own under a flag. -/
def flaggedBlock (flag : BlockFlag) : Block where
  flag := .instrBlock
  items := [.instr ⟨.ofLeaf "@redim", [.literal (.core (.quantum 1 (.ofLeaf "@u2")))], .call⟩,
    .block flag [.instr ⟨.ofLeaf "@not", [], .call⟩]]

def flaggedCode (instr : Instr) : List Statement :=
  if instr.name.leaf = "@not" then [.flip 0, .flip 1]
  else [.flip 0, .superpose 0, .superpose 1]

/-- A plain inner block is written out in its place, and a closure stops the walk there. -/
theorem program_flattens_flaggedBlock :
    ∃ lowering,
      new ((IndexPool.new 5).request (.ofLeaf "@v") 2).2 (.ofLeaf "@v") .absent = .ok lowering ∧
      lowering.program (flaggedBlock .instrBlock) = .ok (unlines ["OPENQASM 2.0;",
        "include \"qelib1.inc\";", "qreg q[2];", "creg c[2];", "x q[0];", "h q[0];", "h q[1];",
        "x q[0];", "x q[1];", "measure q -> c;"]) ∧
      lowering.program (flaggedBlock .closure) = .error (.unsupportedBlock .closure) := by
  have held : ((IndexPool.new 5).request (.ofLeaf "@v") 2).2.indexesOf? (.ofLeaf "@v") =
      some [0, 1] := rfl
  obtain ⟨lowering, opened, accepted, written, -, -⟩ :=
    program_flattens held .absent (flaggedBlock .instrBlock)
  obtain ⟨other, otherOpened, -, -, stops, -⟩ :=
    program_flattens held .absent (flaggedBlock .closure)
  rw [new_eq_ok held] at opened otherOpened
  cases opened
  cases otherOpened
  refine ⟨_, new_eq_ok held _, ?_, (stops _).2 ?_⟩
  · have passes : ∀ instr ∈ (flaggedBlock .instrBlock).instructions,
        lowerInstr ⟨.ofLeaf "@v", [0, 1], .absent⟩ instr = .ok (flaggedCode instr) :=
      List.forall_mem_cons.2 ⟨rfl, List.forall_mem_singleton.2 rfl⟩
    have plain : ∀ flag, .enter flag ∈ (flaggedBlock .instrBlock).steps → flag = .instrBlock := by
      intro flag listed
      simpa [flaggedBlock, Block.steps, BlockItem.allSteps, BlockItem.steps] using listed
    obtain ⟨text, done⟩ := accepted.2 ⟨plain, fun instr listed => ⟨_, passes instr listed⟩⟩
    rw [done, written text flaggedCode done passes]
    rfl
  · exact ⟨[.enter .instrBlock, .instr _], .enter .closure, [.instr _], rfl,
      List.forall_mem_cons.2 ⟨⟨_, rfl⟩, List.forall_mem_singleton.2 ⟨_, rfl⟩⟩, rfl⟩

end Lowering

end HybridQuantum
