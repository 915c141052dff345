import HybridQuantum.Circuit.Expression

/-!
# Reading an expression as its value

Numbers need not be read as a tree first: a reader may apply each operation as soon
as its operands are read.  Whatever the operations are, this yields the value of
the tree that the other readers find, at the same place, and fails where they fail.
-/

namespace HybridQuantum.Circuit

/-- Numbers of some kind with the operations of parameter expressions. -/
structure Arithmetic (α : Type) where
  ofInt : Nat → α
  ofFloat : Float → α
  pi : α
  neg : α → α
  add : α → α → α
  sub : α → α → α
  mul : α → α → α
  div : α → α → α
  pow : α → α → α
  sin : α → α
  cos : α → α
  tan : α → α
  exp : α → α
  ln : α → α
  sqrt : α → α

namespace Arithmetic

variable {α : Type}

/-- The operations on binary64 numbers. -/
def floats : Arithmetic Float where
  ofInt := Float.ofNat
  ofFloat value := value
  pi := Float.ofBits 0x400921fb54442d18
  neg value := -value
  add left right := left + right
  sub left right := left - right
  mul left right := left * right
  div left right := left / right
  pow := Float.pow
  sin := Float.sin
  cos := Float.cos
  tan := Float.tan
  exp := Float.exp
  ln := Float.log
  sqrt := Float.sqrt

/-- The operation of an operator token. -/
def operate (numbers : Arithmetic α) : Token → α → α → α
  | .plus => numbers.add
  | .minus => numbers.sub
  | .star => numbers.mul
  | .slash => numbers.div
  | _ => numbers.pow

/-- The function a word names. -/
def function? (numbers : Arithmetic α) (word : String) : Option (α → α) :=
  if word = "sin" then some numbers.sin
  else if word = "cos" then some numbers.cos
  else if word = "tan" then some numbers.tan
  else if word = "exp" then some numbers.exp
  else if word = "ln" then some numbers.ln
  else if word = "sqrt" then some numbers.sqrt
  else none

end Arithmetic

section Trees

variable {α : Type}

def BinaryOp.valueIn (numbers : Arithmetic α) : BinaryOp → α → α → α
  | add => numbers.add
  | sub => numbers.sub
  | mul => numbers.mul
  | div => numbers.div
  | pow => numbers.pow

def Sign.valueIn (numbers : Arithmetic α) : Sign → α → α
  | minus => numbers.neg
  | plus => id

def FunctionName.valueIn (numbers : Arithmetic α) : FunctionName → α → α
  | sin => numbers.sin
  | cos => numbers.cos
  | tan => numbers.tan
  | exp => numbers.exp
  | ln => numbers.ln
  | sqrt => numbers.sqrt

/-- The value of a tree, from its leaves up. -/
def Expr.valueIn (numbers : Arithmetic α) : Expr → α
  | int value => numbers.ofInt value
  | float value => numbers.ofFloat value
  | pi => numbers.pi
  | signed sign operand => sign.valueIn numbers (operand.valueIn numbers)
  | binary operator left right =>
      operator.valueIn numbers (left.valueIn numbers) (right.valueIn numbers)
  | call function argument => function.valueIn numbers (argument.valueIn numbers)

theorem Expr.eval_eq_valueIn (expr : Expr) : expr.eval = expr.valueIn .floats := by
  induction expr with
  | int value | float value | pi => rfl
  | signed sign operand ih =>
      cases sign <;> simp only [eval, valueIn, Sign.valueIn, ih] <;> rfl
  | binary operator left right leftIh rightIh =>
      rw [eval, valueIn, leftIh, rightIh]
      cases operator <;> rfl
  | call function argument ih =>
      rw [eval, valueIn, ih]
      cases function <;> rfl

theorem operate_of_ofToken? (numbers : Arithmetic α) {token : Token} {operator : BinaryOp}
    (known : BinaryOp.ofToken? token = some operator) :
    numbers.operate token = operator.valueIn numbers := by
  cases token <;> cases known <;> rfl

theorem function?_eq_map (numbers : Arithmetic α) (word : String) :
    numbers.function? word =
      (FunctionName.ofText? word).map (FunctionName.valueIn numbers) := by
  unfold Arithmetic.function?
  iterate 6
    split
    · rename_i same
      rw [same]
      rfl
  have unknown : FunctionName.ofText? word = none := by
    simp [FunctionName.ofText?, FunctionName.all, *]
  rw [unknown, Option.map_none]

end Trees

section Readers

variable {α : Type}

/-- Close the parenthesis behind an argument, then apply the function that the word names. -/
def Parsed.apply {β : Type} {bound : Nat} (argument : Parsed bound α) (word : String)
    (function : Option (α → β)) : Outcome CircuitError (Parsed bound β) :=
  match argument.expect .rightParen with
  | .error fault => .error fault
  | .ok closed =>
      match function with
      | some function => .ok ⟨function closed.value, closed.cursor, closed.shorter⟩
      | none => .fail (.unexpectedToken closed.cursor.line "expression" (.identifier word))

/-- How tightly the operator of a token binds, and whether it groups to the right. -/
def binding? : Token → Option (Nat × Bool)
  | .plus | .minus => some (1, false)
  | .star | .slash => some (2, false)
  | .caret => some (3, true)
  | _ => none

mutual

/-- Read the value of an expression whose operators bind at least as tightly as `least`. -/
def readValue (numbers : Arithmetic α) (least : Nat) (cursor : Cursor) :
    Outcome CircuitError (Parsed cursor.size α) :=
  match readSignedValue numbers cursor with
  | .error fault => .error fault
  | .ok left =>
      match readFurther numbers least left.value left.cursor with
      | .error fault => .error fault
      | .ok whole => .ok (whole.weaken left.shorter)
termination_by (cursor.size, 2)
decreasing_by
  · exact Prod.Lex.right _ (by decide)
  · exact Prod.Lex.left _ _ left.shorter

/-- Apply operators to the value on their left as long as they bind tightly enough. -/
def readFurther (numbers : Arithmetic α) (least : Nat) (left : α) (cursor : Cursor) :
    Outcome CircuitError (Parsed (cursor.size + 1) α) :=
  match following : cursor.rest with
  | [] => .ok ⟨left, cursor, Nat.lt_succ_self _⟩
  | found :: rest =>
      match binding? found.token with
      | none => .ok ⟨left, cursor, Nat.lt_succ_self _⟩
      | some (precedence, toRight) =>
          if precedence < least then .ok ⟨left, cursor, Nat.lt_succ_self _⟩
          else
            have fewer : rest.length < cursor.size := by simp [Cursor.size, following]
            let next := if toRight then precedence else precedence + 1
            match readValue numbers next ⟨found.line, rest⟩ with
            | .error fault => .error fault
            | .ok right =>
                have lessFollows : right.cursor.size < cursor.size :=
                  Nat.lt_trans right.shorter fewer
                match readFurther numbers least (numbers.operate found.token left right.value)
                    right.cursor with
                | .error fault => .error fault
                | .ok whole =>
                    .ok (whole.weaken (Nat.succ_le_succ (Nat.le_of_lt lessFollows)))
termination_by (cursor.size, 3)
decreasing_by
  · exact Prod.Lex.left _ _ fewer
  · exact Prod.Lex.left _ _ lessFollows

/-- Read the value of an operand with its signs; a plus sign changes nothing. -/
def readSignedValue (numbers : Arithmetic α) (cursor : Cursor) :
    Outcome CircuitError (Parsed cursor.size α) :=
  match following : cursor.rest with
  | ⟨.minus, line⟩ :: rest =>
      have fewer : rest.length < cursor.size := by simp [Cursor.size, following]
      match readSignedValue numbers ⟨line, rest⟩ with
      | .error fault => .error fault
      | .ok operand =>
          .ok ⟨numbers.neg operand.value, operand.cursor, Nat.lt_trans operand.shorter fewer⟩
  | ⟨.plus, line⟩ :: rest =>
      have fewer : rest.length < cursor.size := by simp [Cursor.size, following]
      match readSignedValue numbers ⟨line, rest⟩ with
      | .error fault => .error fault
      | .ok operand => .ok (operand.weaken (Nat.le_of_lt fewer))
  | _ => readOperandValue numbers cursor
termination_by (cursor.size, 1)
decreasing_by
  · exact Prod.Lex.left _ _ fewer
  · exact Prod.Lex.left _ _ fewer
  · exact Prod.Lex.right _ (by decide)

/-- Read the value of a number, the circle constant, parentheses or a function call. -/
def readOperandValue (numbers : Arithmetic α) (cursor : Cursor) :
    Outcome CircuitError (Parsed cursor.size α) :=
  match following : cursor.rest with
  | [] => .fail (.unexpectedEnd "expression")
  | ⟨token, line⟩ :: rest =>
      have fewer : rest.length < cursor.size := by simp [Cursor.size, following]
      match token with
      | .int value => .ok ⟨numbers.ofInt value, ⟨line, rest⟩, fewer⟩
      | .float value => .ok ⟨numbers.ofFloat value, ⟨line, rest⟩, fewer⟩
      | .pi => .ok ⟨numbers.pi, ⟨line, rest⟩, fewer⟩
      | .leftParen =>
          match readValue numbers 0 ⟨line, rest⟩ with
          | .error fault => .error fault
          | .ok inner => (inner.weaken (Nat.le_of_lt fewer)).expect .rightParen
      | .identifier name =>
          match read : Read.expect .leftParen ⟨line, rest⟩ with
          | .error fault => .error fault
          | .ok ((), inside) =>
              have lessFollows : inside.size < cursor.size :=
                Nat.lt_of_le_of_lt (Read.shrinks_expect .leftParen _ () inside read) fewer
              match readValue numbers 0 inside with
              | .error fault => .error fault
              | .ok argument =>
                  (argument.weaken (Nat.le_of_lt lessFollows)).apply name (numbers.function? name)
      | other => .fail (.unexpectedToken line "expression" other)
termination_by (cursor.size, 0)
decreasing_by
  · exact Prod.Lex.left _ _ fewer
  · exact Prod.Lex.left _ _ lessFollows

end

end Readers

section Agreement

variable {α β : Type} {bound : Nat}

/-- The same reading with another value. -/
def Parsed.map (change : α → β) (parsed : Parsed bound α) : Parsed bound β :=
  ⟨change parsed.value, parsed.cursor, parsed.shorter⟩

/-- An answer with its tree replaced by the value of the tree. -/
def valued (numbers : Arithmetic α) (answer : Outcome CircuitError (Parsed bound Expr)) :
    Outcome CircuitError (Parsed bound α) :=
  answer.map (Parsed.map (Expr.valueIn numbers))

theorem Parsed.expect_map (change : α → β) (parsed : Parsed bound α) (token : Token) :
    (parsed.map change).expect token = (parsed.expect token).map (Parsed.map change) := by
  simp only [Parsed.expect, Parsed.map]
  split <;> rfl

theorem binding?_eq_map (token : Token) :
    binding? token =
      (BinaryOp.ofToken? token).map fun operator => (operator.precedence, operator == .pow) := by
  cases token <;> rfl

theorem rightPrecedence_eq_ite (operator : BinaryOp) :
    operator.rightPrecedence =
      if (operator == .pow) = true then operator.precedence else operator.precedence + 1 := by
  cases operator <;> rfl

theorem Parsed.apply_map (numbers : Arithmetic α) (argument : Parsed bound Expr) (word : String) :
    (argument.map (Expr.valueIn numbers)).apply word (numbers.function? word) =
      valued numbers (argument.apply word ((FunctionName.ofText? word).map .call)) := by
  rw [Parsed.apply, Parsed.apply, Parsed.expect_map, function?_eq_map]
  cases argument.expect .rightParen with
  | error fault => rfl
  | ok closed => cases FunctionName.ofText? word <;> rfl

section Calls

variable {start line : Nat} {rest : List Spanned} {word : String} {fault : Fault CircuitError}
  {inside : Cursor}

theorem readOperand_of_unopened (failed : Read.expect .leftParen ⟨line, rest⟩ = .error fault) :
    readOperand ⟨start, ⟨.identifier word, line⟩ :: rest⟩ = .error fault := by
  rw [readOperand]
  dsimp only
  split
  · rename_i other same
    cases failed.symm.trans same
    rfl
  · rename_i inside opened
    cases failed.symm.trans opened

theorem readOperandValue_of_unopened (numbers : Arithmetic α)
    (failed : Read.expect .leftParen ⟨line, rest⟩ = .error fault) :
    readOperandValue numbers ⟨start, ⟨.identifier word, line⟩ :: rest⟩ = .error fault := by
  rw [readOperandValue]
  dsimp only
  split
  · rename_i other same
    cases failed.symm.trans same
    rfl
  · rename_i inside opened
    cases failed.symm.trans opened

theorem readOperand_of_opened (opened : Read.expect .leftParen ⟨line, rest⟩ = .ok ((), inside))
    (le : inside.size ≤ (⟨start, ⟨.identifier word, line⟩ :: rest⟩ : Cursor).size) :
    readOperand ⟨start, ⟨.identifier word, line⟩ :: rest⟩ =
      match readExpr 0 inside with
      | .error fault => .error fault
      | .ok argument =>
          (argument.weaken le).apply word ((FunctionName.ofText? word).map .call) := by
  rw [readOperand]
  dsimp only
  split
  · rename_i fault failed
    cases opened.symm.trans failed
  · rename_i other same
    cases opened.symm.trans same
    cases readExpr 0 inside with
    | error fault => rfl
    | ok argument =>
        simp only [Parsed.apply]
        cases (argument.weaken le).expect .rightParen with
        | error fault => rfl
        | ok closed => cases FunctionName.ofText? word <;> rfl

theorem readOperandValue_of_opened (numbers : Arithmetic α)
    (opened : Read.expect .leftParen ⟨line, rest⟩ = .ok ((), inside))
    (le : inside.size ≤ (⟨start, ⟨.identifier word, line⟩ :: rest⟩ : Cursor).size) :
    readOperandValue numbers ⟨start, ⟨.identifier word, line⟩ :: rest⟩ =
      match readValue numbers 0 inside with
      | .error fault => .error fault
      | .ok argument => (argument.weaken le).apply word (numbers.function? word) := by
  rw [readOperandValue]
  dsimp only
  split
  · rename_i fault failed
    cases opened.symm.trans failed
  · rename_i other same
    cases opened.symm.trans same
    rfl

end Calls

mutual

/-- Reading the value is reading the tree and taking its value, faults included. -/
theorem readValue_eq (numbers : Arithmetic α) (least : Nat) (cursor : Cursor) :
    readValue numbers least cursor = valued numbers (readExpr least cursor) := by
  rw [readValue, readExpr, readSignedValue_eq]
  cases readSigned cursor with
  | error fault => rfl
  | ok left =>
      have fewer := left.shorter
      simp only [valued, Except.map, Parsed.map, readFurther_eq numbers least left.value left.cursor]
      cases readOperators least left.value left.cursor with
      | error fault => rfl
      | ok whole => rfl
termination_by (cursor.size, 2)
decreasing_by
  · exact Prod.Lex.right _ (by decide)
  · exact Prod.Lex.left _ _ fewer

theorem readFurther_eq (numbers : Arithmetic α) (least : Nat) (left : Expr) (cursor : Cursor) :
    readFurther numbers least (left.valueIn numbers) cursor =
      valued numbers (readOperators least left cursor) := by
  obtain ⟨start, rest⟩ := cursor
  cases rest with
  | nil =>
      rw [readFurther, readOperators]
      rfl
  | cons found rest =>
      rw [readFurther, readOperators]
      simp only [binding?_eq_map]
      cases known : BinaryOp.ofToken? found.token with
      | none => rfl
      | some operator =>
          by_cases loose : operator.precedence < least
          · simp only [Option.map_some, if_pos loose]
            rfl
          · have fewer : (⟨found.line, rest⟩ : Cursor).size < (found :: rest).length := by
              simp [Cursor.size]
            simp only [Option.map_some, if_neg loose, ← rightPrecedence_eq_ite,
              readValue_eq numbers operator.rightPrecedence ⟨found.line, rest⟩]
            cases readExpr operator.rightPrecedence ⟨found.line, rest⟩ with
            | error fault => rfl
            | ok right =>
                have lessFollows : right.cursor.size < (found :: rest).length :=
                  Nat.lt_trans right.shorter fewer
                have more := readFurther_eq numbers least (.binary operator left right.value)
                  right.cursor
                rw [Expr.valueIn] at more
                simp only [valued, Except.map, Parsed.map, operate_of_ofToken? numbers known, more]
                cases readOperators least (.binary operator left right.value) right.cursor with
                | error fault => rfl
                | ok whole => rfl
termination_by (cursor.size, 3)
decreasing_by
  · exact Prod.Lex.left _ _ fewer
  · exact Prod.Lex.left _ _ lessFollows

theorem readSignedValue_eq (numbers : Arithmetic α) (cursor : Cursor) :
    readSignedValue numbers cursor = valued numbers (readSigned cursor) := by
  obtain ⟨start, _ | ⟨⟨token, line⟩, rest⟩⟩ := cursor
  · rw [readSignedValue, readSigned]
    exact readOperandValue_eq numbers ⟨start, []⟩
  · have fewer : rest.length < (⟨start, ⟨token, line⟩ :: rest⟩ : Cursor).size := by
      simp [Cursor.size]
    have operand := readOperandValue_eq numbers ⟨start, ⟨token, line⟩ :: rest⟩
    rw [readSignedValue, readSigned]
    cases token with
    | minus | plus =>
        simp only [readSignedValue_eq numbers ⟨line, rest⟩]
        cases readSigned ⟨line, rest⟩ with
        | error fault => rfl
        | ok operand => rfl
    | _ => exact operand
termination_by (cursor.size, 1)
decreasing_by
  · exact Prod.Lex.right _ (by decide)
  · exact Prod.Lex.right _ (by decide)
  · exact Prod.Lex.left _ _ fewer
  · exact Prod.Lex.left _ _ fewer

theorem readOperandValue_eq (numbers : Arithmetic α) (cursor : Cursor) :
    readOperandValue numbers cursor = valued numbers (readOperand cursor) := by
  obtain ⟨start, _ | ⟨⟨token, line⟩, rest⟩⟩ := cursor
  · rw [readOperandValue, readOperand]
    rfl
  · have fewer : rest.length < (⟨start, ⟨token, line⟩ :: rest⟩ : Cursor).size := by
      simp [Cursor.size]
    cases token with
    | leftParen =>
        rw [readOperandValue, readOperand]
        simp only [readValue_eq numbers 0 ⟨line, rest⟩]
        cases readExpr 0 ⟨line, rest⟩ with
        | error fault => rfl
        | ok inner => exact Parsed.expect_map _ (inner.weaken (Nat.le_of_lt fewer)) .rightParen
    | identifier word =>
        rcases opened : Read.expect .leftParen ⟨line, rest⟩ with fault | ⟨⟨⟩, inside⟩
        · rw [readOperandValue_of_unopened numbers opened, readOperand_of_unopened opened]
          rfl
        · have lessFollows :=
            Nat.lt_of_le_of_lt (Read.shrinks_expect .leftParen _ () inside opened) fewer
          have le := Nat.le_of_lt lessFollows
          rw [readOperandValue_of_opened numbers opened le, readOperand_of_opened opened le,
            readValue_eq numbers 0 inside]
          cases readExpr 0 inside with
          | error fault => rfl
          | ok argument => exact Parsed.apply_map numbers (argument.weaken le) word
    | _ =>
        rw [readOperandValue, readOperand]
        rfl
termination_by (cursor.size, 0)
decreasing_by
  · exact Prod.Lex.left _ _ lessFollows
  · exact Prod.Lex.left _ _ fewer

end

end Agreement

end HybridQuantum.Circuit
