import HybridQuantum.Lowering.Catalog
import HybridQuantum.Lowering.Error
import HybridQuantum.Lowering.Evaluator
import HybridQuantum.Memory.IndexPool

/-!
# Lowering a block to a gate program

The block of one quantum variable becomes straight-line gate code over slots
`0, 1, …`, one for each index the variable holds.  Slot `i` stands for the
variable's `i`-th index, so the text does not depend on which indices the pool
granted.  Arguments are lowered left to right before the instruction itself: a
quantum literal flips the slots of its set bits, a nested quantum instruction
emits its own code, and everything classical is evaluated by the host.
-/

namespace HybridQuantum

/-- A quantum variable with its indices, ready to lower blocks. -/
structure Lowering where
  var : Name
  /-- The pool indices behind the slots. -/
  indexes : List Nat
  evaluator : Evaluator

namespace Lowering

/-- Look up the indices of a variable, which must hold some. -/
def new (pool : IndexPool) (var : Name) (evaluator : Evaluator) :
    Except LoweringError Lowering :=
  match pool.indexesOf? var with
  | some indexes => .ok ⟨var, indexes, evaluator⟩
  | none => .error (.memory (.holdsNoIndexes var))

theorem new_eq_ok {pool : IndexPool} {var : Name} {indexes : List Nat}
    (held : pool.indexesOf? var = some indexes) (evaluator : Evaluator) :
    new pool var evaluator = .ok ⟨var, indexes, evaluator⟩ := by
  rw [new, held]

def width (lowering : Lowering) : Nat :=
  lowering.indexes.length

def slots (lowering : Lowering) : List Nat :=
  List.range lowering.width

/-- The statements that bring a cleared register into a basis state. -/
def prepare (lowering : Lowering) (instr : Name) (literal : Literal) :
    Except LoweringError (List Statement) :=
  match literal with
  | .core core =>
      match core.value.bits?, core.setBits? lowering.width with
      | some bits, some positions =>
          if lowering.width < 64 ∧ 1 <<< lowering.width ≤ bits.toNat then
            .error (.literalOverflow core lowering.width)
          else .ok (positions.map .flip)
      | _, _ => .error (.literalOverflow core lowering.width)
  | other => .error (.unsupportedArg instr other)

/-- The code and the operand that a literal contributes to an instruction. -/
def place (lowering : Lowering) (instr : Name) (literal : Literal) :
    Except LoweringError (List Statement × List Literal) :=
  if literal.isQuantum then do
    let code ← lowering.prepare instr literal
    return (code, [literal])
  else .ok ([], [literal])

/-- Ask the host for the value of a classical instruction. -/
def evaluate (lowering : Lowering) (instr : Instr) : Except LoweringError Literal :=
  match lowering.evaluator.evaluate instr with
  | .ok literal => .ok literal
  | .error reason => .error (.evaluation instr.name reason)

/--
The code of an instruction whose arguments are lowered.  A classical instruction
runs on the host, and its value has no place in the circuit.
-/
def finish (lowering : Lowering) (instr : Instr) (prepared : List Statement × List Literal) :
    Except LoweringError (List Statement) :=
  match Operation.ofName? instr.name.leaf with
  | some operation =>
      let (code, status) := operation.emit lowering.slots prepared.2
      if status.isDone then .ok (prepared.1 ++ code)
      else .error (.unfinished instr.name status)
  | none =>
      if instr.isQuantum then .error (.unknownInstr instr.name)
      else do
        let _ ← lowering.evaluate instr
        return prepared.1

mutual

/-- The code and the operands of one argument. -/
def lowerArg (lowering : Lowering) (owner : Name) :
    Arg → Except LoweringError (List Statement × List Literal)
  | .literal literal => lowering.place owner literal
  | .symbol name =>
      match lowering.evaluator.lookup name with
      | some literal => lowering.place owner literal
      | none => .error (.unknownSymbol name)
  | .instr name args flag =>
      if name.isQuantum then do
        let prepared ← lowerArgs lowering name args
        let code ← lowering.finish ⟨name, args, flag⟩ prepared
        return (code, [])
      else do
        let literal ← lowering.evaluate ⟨name, args, flag⟩
        lowering.place owner literal

/-- The code and the operands of arguments, left to right. -/
def lowerArgs (lowering : Lowering) (owner : Name) :
    List Arg → Except LoweringError (List Statement × List Literal)
  | [] => .ok ([], [])
  | arg :: rest => do
      let first ← lowerArg lowering owner arg
      let others ← lowerArgs lowering owner rest
      return (first.1 ++ others.1, first.2 ++ others.2)

end

/-- The code of one instruction, its arguments included. -/
def lowerInstr (lowering : Lowering) (instr : Instr) : Except LoweringError (List Statement) := do
  let prepared ← lowering.lowerArgs instr.name instr.args
  lowering.finish instr prepared

mutual

/-- The code of one element of a block; nested plain blocks are inlined. -/
def lowerItem (lowering : Lowering) : BlockItem → Except LoweringError (List Statement)
  | .instr instr => lowering.lowerInstr instr
  | .block flag items =>
      if flag = .instrBlock then lowerItems lowering items else .error (.unsupportedBlock flag)

def lowerItems (lowering : Lowering) : List BlockItem → Except LoweringError (List Statement)
  | [] => .ok []
  | item :: rest => do
      let first ← lowerItem lowering item
      let others ← lowerItems lowering rest
      return first ++ others

end

/-- The code of a block; control flow, closures and calls have no straight-line code. -/
def lowerBlock (lowering : Lowering) (block : Block) : Except LoweringError (List Statement) :=
  lowering.lowerItem (.block block.flag block.items)

/-- The lines before the statements: header and registers. -/
def opening (lowering : Lowering) : List String :=
  ["OPENQASM 2.0;", "include \"qelib1.inc\";", "qreg q[" ++ toString lowering.width ++ "];",
    "creg c[" ++ toString lowering.width ++ "];"]

/-- The closing measurement. -/
def closing : List String :=
  ["measure q -> c;"]

/-- Lines, each ended by a newline. -/
def unlines (lines : List String) : String :=
  String.join (lines.map (· ++ "\n"))

/-- The text of a program with the given statements. -/
def render (lowering : Lowering) (code : List Statement) : String :=
  unlines (lowering.opening ++ code.map Statement.text ++ closing)

/-- The whole program of a block. -/
def program (lowering : Lowering) (block : Block) : Except LoweringError String := do
  let code ← lowering.lowerBlock block
  return lowering.render code

end Lowering

end HybridQuantum
