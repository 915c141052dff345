import HybridQuantum.Circuit.Builder
import HybridQuantum.Circuit.Expression
import HybridQuantum.Circuit.Scanner

/-!
# Parsing gate programs

A program is a version line followed by statements, each ended by a semicolon.
Statements build the circuit as they are read, so the first error in reading
order wins.  Includes are read and ignored: all gates are built in.
-/

namespace HybridQuantum.Circuit

open Read

/-- A circuit whose gate parameters are still expressions. -/
abbrev Draft := Builder Expr

/-- Whether a token is a version this reader accepts: two, or a number with integer part two. -/
def isSupportedVersion : Token → Bool
  | .int value => value == 2
  | .float value => Numeric.truncate? value == some 2
  | _ => false

def readVersion : Read Unit := do
  let found ← next "version number"
  if isSupportedVersion found then pure () else fail (.invalidVersion found)

/-- Read a register, or one position of it. -/
def readArg : Read RegisterArg := do
  let register ← identifier
  if ← accept .leftBracket then
    let index ← integer
    expect .rightBracket
    pure ⟨register, some index⟩
  else pure ⟨register, none⟩

theorem shrinks_readArg : Shrinks readArg := by
  refine shrinks_bind shrinks_identifier fun register => ?_
  refine shrinks_bind (shrinks_accept _) fun indexed => ?_
  split
  · exact shrinks_bind shrinks_integer fun index =>
      shrinks_bind (shrinks_expect _) fun _ => shrinks_pure _
  · exact shrinks_pure _

/-- Read further arguments, each after a comma. -/
def readMoreArgs (args : List RegisterArg) : Read (List RegisterArg) :=
  fun cursor =>
    match following : cursor.rest with
    | ⟨.comma, line⟩ :: rest =>
        match read : readArg ⟨line, rest⟩ with
        | .error fault => .error fault
        | .ok (arg, after) =>
            have : after.size < cursor.size := by
              have shrinks := shrinks_readArg ⟨line, rest⟩ arg after read
              simp only [Cursor.size, following, List.length_cons] at shrinks ⊢
              omega
            readMoreArgs (args ++ [arg]) after
    | _ => .ok (args, cursor)
termination_by cursor => cursor.size

theorem shrinks_readMoreArgs (args : List RegisterArg) : Shrinks (readMoreArgs args) := by
  intro cursor
  induction size : cursor.size using Nat.strongRecOn generalizing args cursor with
  | _ bound ih =>
      intro value after h
      rw [readMoreArgs] at h
      split at h
      · rename_i line rest following
        split at h
        · cases h
        · rename_i arg middle read
          have shrinks := shrinks_readArg ⟨line, rest⟩ arg middle read
          simp only [Cursor.size, following, List.length_cons] at shrinks size
          have := ih middle.size (by simp only [Cursor.size]; omega) _ middle rfl value after h
          simp only [Cursor.size] at this ⊢
          omega
      · cases h
        omega

def readArgs : Read (List RegisterArg) := do
  let first ← readArg
  readMoreArgs [first]

theorem shrinks_readArgs : Shrinks readArgs :=
  shrinks_bind shrinks_readArg fun first => shrinks_readMoreArgs [first]

/-- After the include word: a path, which is ignored. -/
def readInclude (draft : Draft) : Read Draft := do
  match ← next "include path" with
  | .string _ =>
      expect .semicolon
      pure draft
  | other => unexpected "string literal" other

/-- After a register word: the name and the size. -/
def readRegister (kind : RegisterKind) (draft : Draft) : Read Draft := do
  let name ← identifier
  expect .leftBracket
  let size ← integer
  expect .rightBracket
  expect .semicolon
  lift (draft.declare kind name size)

/-- After the measure word: qubits, an arrow and classical bits. -/
def readMeasure (draft : Draft) : Read Draft := do
  let qubit ← readArg
  expect .arrow
  let clbit ← readArg
  expect .semicolon
  liftExcept (draft.measure qubit clbit)

/-- After the reset word: qubits. -/
def readReset (draft : Draft) : Read Draft := do
  let arg ← readArg
  expect .semicolon
  liftExcept (draft.reset arg)

/-- After the barrier word: qubits, which are checked before the statement ends. -/
def readBarrier (draft : Draft) : Read Draft := do
  let args ← readArgs
  liftExcept (draft.checkBarrier args)
  expect .semicolon
  pure (draft.append [.barrier])

/-- The parameters of a gate between parentheses; without parentheses there are none. -/
def readParameters : Read (List Expr) := do
  if ← accept .leftParen then
    let parameters ← readExprs
    expect .rightParen
    pure parameters
  else pure []

/-- After a gate's name: parameters, which decide the gate, then qubits. -/
def readGate (draft : Draft) (name : String) : Read Draft := do
  let parameters ← readParameters
  let gate ← liftExcept (Gate.ofName name parameters)
  let args ← readArgs
  expect .semicolon
  liftExcept (draft.applyGate name gate args)

/-- The rest of a statement after its first token; `line` is that of the token before. -/
def readStatement (draft : Draft) (line : Nat) : Token → Read Draft
  | .inclusion => readInclude draft
  | .qreg => readRegister .quantum draft
  | .creg => readRegister .classical draft
  | .measure => readMeasure draft
  | .reset => readReset draft
  | .barrier => readBarrier draft
  | .identifier name => readGate draft name
  | other => fail (.unexpectedToken line "statement" other)

theorem shrinks_readStatement (draft : Draft) (line : Nat) (token : Token) :
    Shrinks (readStatement draft line token) := by
  unfold readStatement
  split
  · refine shrinks_bind (shrinks_next _) fun found => ?_
    split
    · exact shrinks_bind (shrinks_expect _) fun _ => shrinks_pure _
    · exact shrinks_unexpected _ _
  · exact shrinks_bind shrinks_identifier fun _ => shrinks_bind (shrinks_expect _) fun _ =>
      shrinks_bind shrinks_integer fun _ => shrinks_bind (shrinks_expect _) fun _ =>
      shrinks_bind (shrinks_expect _) fun _ => shrinks_lift _
  · exact shrinks_bind shrinks_identifier fun _ => shrinks_bind (shrinks_expect _) fun _ =>
      shrinks_bind shrinks_integer fun _ => shrinks_bind (shrinks_expect _) fun _ =>
      shrinks_bind (shrinks_expect _) fun _ => shrinks_lift _
  · exact shrinks_bind shrinks_readArg fun _ => shrinks_bind (shrinks_expect _) fun _ =>
      shrinks_bind shrinks_readArg fun _ => shrinks_bind (shrinks_expect _) fun _ =>
      shrinks_liftExcept _
  · exact shrinks_bind shrinks_readArg fun _ => shrinks_bind (shrinks_expect _) fun _ =>
      shrinks_liftExcept _
  · exact shrinks_bind shrinks_readArgs fun _ => shrinks_bind (shrinks_liftExcept _) fun _ =>
      shrinks_bind (shrinks_expect _) fun _ => shrinks_pure _
  · refine shrinks_bind ?_ fun _ => shrinks_bind (shrinks_liftExcept _) fun _ =>
      shrinks_bind shrinks_readArgs fun _ => shrinks_bind (shrinks_expect _) fun _ =>
      shrinks_liftExcept _
    refine shrinks_bind (shrinks_accept _) fun opened => ?_
    split
    · exact shrinks_bind shrinks_readExprs fun _ => shrinks_bind (shrinks_expect _) fun _ =>
        shrinks_pure _
    · exact shrinks_pure _
  · exact shrinks_fail _

def readStatements (draft : Draft) (cursor : Cursor) : Outcome CircuitError Draft :=
  match following : cursor.rest with
  | [] => .ok draft
  | found :: rest =>
      match read : readStatement draft cursor.line found.token ⟨found.line, rest⟩ with
      | .error fault => .error fault
      | .ok (draft', after) =>
          have : after.size < cursor.size := by
            have shrinks := shrinks_readStatement _ _ _ _ _ _ read
            simp only [Cursor.size, following, List.length_cons] at shrinks ⊢
            omega
          readStatements draft' after
termination_by cursor.size

def readHeader : Read Unit := do
  expect .openQasm
  readVersion
  expect .semicolon

/-- The circuit of a token sequence, with its parameters as expressions. -/
def ofTokens (tokens : List Spanned) : Outcome CircuitError (Circuit Expr) :=
  match readHeader ⟨1, tokens⟩ with
  | .error fault => .error fault
  | .ok ((), cursor) =>
      match readStatements .empty cursor with
      | .error fault => .error fault
      | .ok draft => .ok draft.circuit

/-- The circuit of a program text, with its parameters evaluated. -/
def parse (text : String) : Outcome CircuitError (Circuit Float) :=
  match tokenize text with
  | .error cause => .fail cause
  | .ok tokens =>
      match ofTokens tokens with
      | .error fault => .error fault
      | .ok circuit => .ok (circuit.map Expr.eval)

end HybridQuantum.Circuit
