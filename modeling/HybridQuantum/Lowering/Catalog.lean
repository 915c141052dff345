import HybridQuantum.Lowering.Status
import HybridQuantum.Program.Literal

/-!
# The instruction catalog

The quantum instructions that have gate code, and the statements each one emits
over the slots of a variable.  Every instruction acts on all slots at once and
takes quantum operands only, which are prepared before it runs.
-/

namespace HybridQuantum

/-- One statement of a gate program, on slots of the variable. -/
inductive Statement where
  | flip (slot : Nat)
  | superpose (slot : Nat)
  | entangle (control target : Nat)
deriving DecidableEq, Repr

namespace Statement

/-- A slot as a position of the quantum register. -/
def slotText (slot : Nat) : String :=
  "q[" ++ toString slot ++ "]"

def text : Statement → String
  | flip slot => "x " ++ slotText slot ++ ";"
  | superpose slot => "h " ++ slotText slot ++ ";"
  | entangle control target => "cx " ++ slotText control ++ ", " ++ slotText target ++ ";"

end Statement

/-- The quantum instructions with gate code. -/
inductive Operation where
  /-- Put every slot in uniform superposition. -/
  | redim
  /-- Entangle every slot with the first one. -/
  | sync
  /-- Flip every slot. -/
  | not
deriving DecidableEq, Repr

namespace Operation

def all : List Operation :=
  [redim, sync, not]

def name : Operation → String
  | redim => "@redim"
  | sync => "@sync"
  | not => "@not"

def ofName? (leaf : String) : Option Operation :=
  all.find? fun operation => operation.name == leaf

/-- Whether an operand is not quantum. -/
def hasClassicalOperand (literals : List Literal) : Bool :=
  literals.any fun literal => !literal.isQuantum

/--
The statements of an instruction and the status it finishes in.  A classical
operand is an error, and so is entangling fewer than two slots.
-/
def emit (operation : Operation) (slots : List Nat) (literals : List Literal) :
    List Statement × Status :=
  if hasClassicalOperand literals then ([], .error)
  else match operation, slots with
    | redim, slots => (slots.map .superpose, .done)
    | not, slots => (slots.map .flip, .done)
    | sync, first :: second :: rest => ((second :: rest).map (.entangle first), .done)
    | sync, _ => ([], .error)

end Operation

end HybridQuantum
