import HybridQuantum.Program.Literal

/-!
# Blocks

A block is an ordered sequence of instructions and nested blocks under a flag.
-/

namespace HybridQuantum

/-- What a block represents. -/
inductive BlockFlag where
  | instrBlock
  | controlFlow
  | closure
  | call
deriving DecidableEq, Repr

namespace BlockFlag

def text : BlockFlag → String
  | instrBlock => "InstrBlock"
  | controlFlow => "ControlFlow"
  | closure => "Closure"
  | call => "Call"

end BlockFlag

/-- An element of a block. -/
inductive BlockItem where
  | instr (content : Instr)
  | block (flag : BlockFlag) (items : List BlockItem)

/-- A flagged sequence of instructions and nested blocks. -/
structure Block where
  flag : BlockFlag
  items : List BlockItem

mutual

/-- The instructions of one element, in program order. -/
def BlockItem.instructions : BlockItem → List Instr
  | .instr content => [content]
  | .block _ items => BlockItem.allInstructions items

def BlockItem.allInstructions : List BlockItem → List Instr
  | [] => []
  | item :: rest => item.instructions ++ BlockItem.allInstructions rest

end

namespace Block

/-- A plain block of instructions. -/
def ofInstrs (instrs : List Instr) : Block where
  flag := .instrBlock
  items := instrs.map .instr

/-- Every instruction, those of nested blocks included, in program order. -/
def instructions (block : Block) : List Instr :=
  BlockItem.allInstructions block.items

end Block

end HybridQuantum
