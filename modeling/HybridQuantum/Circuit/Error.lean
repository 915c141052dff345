import HybridQuantum.Circuit.Token

/-!
# Errors of gate programs

Why a text is not a gate program, with the wording of each error.
-/

namespace HybridQuantum

/-- What is wrong with a gate program. -/
inductive CircuitError where
  /-- Text at a byte offset that starts no token. -/
  | invalidToken (position : Nat) (slice : String)
  | unexpectedToken (line : Nat) (expected : String) (found : Circuit.Token)
  | unexpectedEnd (expected : String)
  | invalidVersion (found : Circuit.Token)
  | undefinedRegister (name : String)
  | duplicateRegister (name : String)
  | unknownGate (name : String)
  | wrongQubitCount (gate : String) (expected found : Nat)
  | wrongParameterCount (gate : String) (expected found : Nat)
  | indexOutOfBounds (register : String) (index size : Nat)
  /-- Whole registers of different sizes in one statement. -/
  | sizeMismatch (statement : String)
  /-- One qubit twice in one gate application. -/
  | repeatedQubit (gate : String)
deriving DecidableEq

namespace CircuitError

def message : CircuitError → String
  | invalidToken position slice =>
      "Lexer error at position " ++ toString position ++ ": Invalid token: '" ++ slice ++ "'"
  | unexpectedToken line expected found =>
      "Unexpected token at line " ++ toString line ++ ": expected " ++ expected ++ ", found " ++
        found.text
  | unexpectedEnd expected => "Unexpected end of input: " ++ expected
  | invalidVersion found => "Unsupported OPENQASM version: " ++ found.text
  | undefinedRegister name => "Undefined register: " ++ name
  | duplicateRegister name => "Duplicate register: " ++ name
  | unknownGate name => "Unknown gate: " ++ name
  | wrongQubitCount gate expected found =>
      "Gate '" ++ gate ++ "' expects " ++ toString expected ++ " qubits, got " ++ toString found
  | wrongParameterCount gate expected found =>
      "Gate '" ++ gate ++ "' expects " ++ toString expected ++ " parameters, got " ++
        toString found
  | indexOutOfBounds register index size =>
      "Index " ++ toString index ++ " out of bounds for register '" ++ register ++ "' of size " ++
        toString size
  | sizeMismatch statement => "Register size mismatch in '" ++ statement ++ "'"
  | repeatedQubit gate => "Gate '" ++ gate ++ "' applied to a repeated qubit"

end CircuitError

end HybridQuantum
