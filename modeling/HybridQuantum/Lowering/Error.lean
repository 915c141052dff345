import HybridQuantum.Lowering.Status
import HybridQuantum.Memory.Error
import HybridQuantum.Program.Block

/-!
# Errors of lowering

Why a block has no gate program, with the wording of each error.
-/

namespace HybridQuantum

/-- What goes wrong while a block is lowered. -/
inductive LoweringError where
  | unknownInstr (instr : Name)
  /-- An instruction of the catalog did not finish as intended. -/
  | unfinished (instr : Name) (status : Status)
  | unknownSymbol (name : Name)
  /-- A basis state needs more slots than there are. -/
  | literalOverflow (literal : CoreLiteral) (slots : Nat)
  | unsupportedArg (instr : Name) (arg : Literal)
  /-- The classical evaluator gave up. -/
  | evaluation (instr : Name) (reason : String)
  /-- Only plain instruction blocks have straight-line code. -/
  | unsupportedBlock (flag : BlockFlag)
  | memory (cause : MemoryError)

namespace LoweringError

def message : LoweringError → String
  | unknownInstr instr =>
      "Instruction '" ++ instr.text ++ "' not found in the target instruction catalog"
  | unfinished instr status =>
      "Instruction '" ++ instr.text ++ "' finished with status " ++ status.text
  | unknownSymbol name =>
      "Unknown symbol '" ++ name.text ++ "' in quantum instruction arguments"
  | literalOverflow literal slots =>
      "Literal " ++ literal.text ++ " does not fit in " ++ toString slots ++ " slot(s)"
  | unsupportedArg instr arg =>
      "Unsupported argument '" ++ arg.text ++ "' for instruction '" ++ instr.text ++ "'"
  | evaluation instr reason =>
      "Classical fallback failed for '" ++ instr.text ++ "': " ++ reason
  | unsupportedBlock flag => "Cannot lower a " ++ flag.text ++ " block"
  | memory cause => cause.message

end LoweringError

end HybridQuantum
