import HybridQuantum.FiniteMap
import HybridQuantum.Program.Literal

/-!
# Classical evaluation

Instructions that have no place in a circuit are evaluated by the host, and
their results are spliced back as literals.  An evaluator is the host as the
lowering sees it.
-/

namespace HybridQuantum

/-- The classical side of a lowering. -/
structure Evaluator where
  /-- The value of a classical instruction, or why there is none. -/
  evaluate : Instr → Except String Literal
  /-- The value bound to a symbol. -/
  lookup : Name → Option Literal

namespace Evaluator

/-- Why nothing is evaluated when there is no host. -/
def refuse (instr : Instr) : Except String Literal :=
  .error ("no classical evaluator for '" ++ instr.name.text ++ "'")

/-- No classical part at all. -/
def absent : Evaluator where
  evaluate := refuse
  lookup _ := none

/-- Fixed bindings and no evaluation. -/
def ofBindings (bindings : FiniteMap Name Literal) : Evaluator where
  evaluate := refuse
  lookup := bindings.get?

end Evaluator

end HybridQuantum
