import HybridQuantum.Program.Value

/-!
# Literals, arguments and instructions

A literal is a typed primitive value, a composite of literals, or a composite
that still mixes in symbols and instructions.  An instruction applies a name to
arguments; a nested instruction is an argument itself.
-/

namespace HybridQuantum

/--
A primitive value with its type.  Under a quantum type it describes a basis
state, whose bits are read with the least significant one first.
-/
structure CoreLiteral where
  value : Value
  type : Name
deriving DecidableEq

namespace CoreLiteral

/-- The basis state `state` of a quantum type. -/
def quantum (state : UInt64) (type : Name) : CoreLiteral :=
  ⟨.uint state, type⟩

def isQuantum (core : CoreLiteral) : Bool :=
  core.type.isQuantum

/-- One bit of the value, when it has a bit pattern. -/
def bit? (core : CoreLiteral) (position : Nat) : Option Bool :=
  core.value.bits?.map fun bits => bits.toNat.testBit position

/-- The positions of the set bits among the lowest `width`, ascending. -/
def setBits? (core : CoreLiteral) (width : Nat) : Option (List Nat) :=
  core.value.bits?.map fun bits =>
    (List.range (min width 64)).filter bits.toNat.testBit

/-- The value, with the sigil in front when the type is quantum. -/
def text (core : CoreLiteral) : String :=
  if core.isQuantum then quantumSigil.toString ++ core.value.text else core.value.text

end CoreLiteral

/-- What an instruction does in its block. -/
inductive InstrFlag where
  | assign
  | declare
  | declareAssign
  | call
  | controlFlow
  | testCond
  | loop
  | loopCond
  | returns
deriving DecidableEq, Repr

namespace InstrFlag

def text : InstrFlag → String
  | assign => "Assign"
  | declare => "Declare"
  | declareAssign => "DeclareAssign"
  | call => "Call"
  | controlFlow => "ControlFlow"
  | testCond => "TestCond"
  | loop => "Loop"
  | loopCond => "LoopCond"
  | returns => "Return"

end InstrFlag

mutual

/-- A value that a program writes down. -/
inductive Literal where
  | core (content : CoreLiteral)
  /-- A composite of literals. -/
  | composite (type : Name) (items : List Literal)
  /-- A composite that mixes literals, symbols and instructions. -/
  | mixed (type : Name) (items : List Arg)

/-- One argument of an instruction. -/
inductive Arg where
  | literal (content : Literal)
  | symbol (name : Name)
  | instr (name : Name) (args : List Arg) (flag : InstrFlag)

end

/-- A name applied to arguments. -/
structure Instr where
  name : Name
  args : List Arg
  flag : InstrFlag

namespace Literal

def type : Literal → Name
  | core content => content.type
  | composite type _ => type
  | mixed type _ => type

def isQuantum (literal : Literal) : Bool :=
  literal.type.isQuantum

/-- The typed primitive value of a literal that is one. -/
def core? : Literal → Option CoreLiteral
  | core content => some content
  | _ => none

end Literal

mutual

/-- The text of a literal; a mixed composite shows only how many items it has. -/
def Literal.text : Literal → String
  | .core content => content.text
  | .composite type items => type.text ++ "(" ++ ", ".intercalate (Literal.texts items) ++ ")"
  | .mixed type items => type.text ++ "(<" ++ toString items.length ++ " items>)"

def Literal.texts : List Literal → List String
  | [] => []
  | literal :: rest => literal.text :: Literal.texts rest

end

mutual

def Arg.text : Arg → String
  | .literal content => content.text
  | .symbol name => name.text
  | .instr name args _ => name.text ++ "(" ++ ", ".intercalate (Arg.texts args) ++ ")"

def Arg.texts : List Arg → List String
  | [] => []
  | arg :: rest => arg.text :: Arg.texts rest

end

namespace Instr

/-- The argument that evaluates an instruction in place. -/
def toArg (instr : Instr) : Arg :=
  .instr instr.name instr.args instr.flag

def isQuantum (instr : Instr) : Bool :=
  instr.name.isQuantum

/-- The name with the arguments between parentheses. -/
def text (instr : Instr) : String :=
  instr.toArg.text

end Instr

end HybridQuantum
