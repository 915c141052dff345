import HybridQuantum.Circuit.Cursor
import HybridQuantum.Circuit.Expr

/-!
# Reading parameter expressions

Operators are read by precedence climbing: sums bind least, products more, powers
most and to the right; a sign binds tighter than every operator.  Every reader
takes at least one token, so the tokens that follow bound the recursion.
-/

namespace HybridQuantum.Circuit

/-- A value that was read, and a cursor with fewer than `bound` tokens to follow. -/
structure Parsed (bound : Nat) (α : Type) where
  value : α
  cursor : Cursor
  shorter : cursor.size < bound

namespace Parsed

variable {α : Type}

/-- The same reading under a weaker bound. -/
def weaken {small large : Nat} (parsed : Parsed small α) (le : small ≤ large) :
    Parsed large α :=
  ⟨parsed.value, parsed.cursor, Nat.lt_of_lt_of_le parsed.shorter le⟩

/-- Take one particular token after a reading. -/
def expect {bound : Nat} (parsed : Parsed bound α) (token : Token) :
    Outcome CircuitError (Parsed bound α) :=
  match read : Read.expect token parsed.cursor with
  | .ok ((), cursor) =>
      .ok ⟨parsed.value, cursor,
        Nat.lt_of_le_of_lt (Read.shrinks_expect token parsed.cursor () cursor read)
          parsed.shorter⟩
  | .error fault => .error fault

end Parsed

mutual

/-- Read an expression whose operators bind at least as tightly as `least`. -/
def readExpr (least : Nat) (cursor : Cursor) : Outcome CircuitError (Parsed cursor.size Expr) :=
  match readSigned cursor with
  | .error fault => .error fault
  | .ok left =>
      match readOperators least left.value left.cursor with
      | .error fault => .error fault
      | .ok whole => .ok (whole.weaken left.shorter)
termination_by (cursor.size, 2)
decreasing_by
  · exact Prod.Lex.right _ (by decide)
  · exact Prod.Lex.left _ _ left.shorter

/-- Go on with a left operand as long as operators bind tightly enough. -/
def readOperators (least : Nat) (left : Expr) (cursor : Cursor) :
    Outcome CircuitError (Parsed (cursor.size + 1) Expr) :=
  match following : cursor.rest with
  | [] => .ok ⟨left, cursor, Nat.lt_succ_self _⟩
  | found :: rest =>
      match BinaryOp.ofToken? found.token with
      | none => .ok ⟨left, cursor, Nat.lt_succ_self _⟩
      | some operator =>
          if operator.precedence < least then .ok ⟨left, cursor, Nat.lt_succ_self _⟩
          else
            have fewer : rest.length < cursor.size := by simp [Cursor.size, following]
            match readExpr operator.rightPrecedence ⟨found.line, rest⟩ with
            | .error fault => .error fault
            | .ok right =>
                have lessFollows : right.cursor.size < cursor.size :=
                  Nat.lt_trans right.shorter fewer
                match readOperators least (.binary operator left right.value) right.cursor with
                | .error fault => .error fault
                | .ok whole =>
                    .ok (whole.weaken (Nat.succ_le_succ (Nat.le_of_lt lessFollows)))
termination_by (cursor.size, 3)
decreasing_by
  · exact Prod.Lex.left _ _ fewer
  · exact Prod.Lex.left _ _ lessFollows

/-- Read an operand with its signs. -/
def readSigned (cursor : Cursor) : Outcome CircuitError (Parsed cursor.size Expr) :=
  match following : cursor.rest with
  | ⟨.minus, line⟩ :: rest =>
      have fewer : rest.length < cursor.size := by simp [Cursor.size, following]
      match readSigned ⟨line, rest⟩ with
      | .error fault => .error fault
      | .ok operand =>
          .ok ⟨.signed .minus operand.value, operand.cursor, Nat.lt_trans operand.shorter fewer⟩
  | ⟨.plus, line⟩ :: rest =>
      have fewer : rest.length < cursor.size := by simp [Cursor.size, following]
      match readSigned ⟨line, rest⟩ with
      | .error fault => .error fault
      | .ok operand =>
          .ok ⟨.signed .plus operand.value, operand.cursor, Nat.lt_trans operand.shorter fewer⟩
  | _ => readOperand cursor
termination_by (cursor.size, 1)
decreasing_by
  · exact Prod.Lex.left _ _ fewer
  · exact Prod.Lex.left _ _ fewer
  · exact Prod.Lex.right _ (by decide)

/-- Read a number, the circle constant, a parenthesized expression or a function call. -/
def readOperand (cursor : Cursor) : Outcome CircuitError (Parsed cursor.size Expr) :=
  match following : cursor.rest with
  | [] => .fail (.unexpectedEnd "expression")
  | ⟨token, line⟩ :: rest =>
      have fewer : rest.length < cursor.size := by simp [Cursor.size, following]
      match token with
      | .int value => .ok ⟨.int value, ⟨line, rest⟩, fewer⟩
      | .float value => .ok ⟨.float value, ⟨line, rest⟩, fewer⟩
      | .pi => .ok ⟨.pi, ⟨line, rest⟩, fewer⟩
      | .leftParen =>
          match readExpr 0 ⟨line, rest⟩ with
          | .error fault => .error fault
          | .ok inner => (inner.weaken (Nat.le_of_lt fewer)).expect .rightParen
      | .identifier name =>
          match read : Read.expect .leftParen ⟨line, rest⟩ with
          | .error fault => .error fault
          | .ok ((), inside) =>
              have lessFollows : inside.size < cursor.size :=
                Nat.lt_of_le_of_lt (Read.shrinks_expect .leftParen _ () inside read) fewer
              match readExpr 0 inside with
              | .error fault => .error fault
              | .ok argument =>
                  match (argument.weaken (Nat.le_of_lt lessFollows)).expect .rightParen with
                  | .error fault => .error fault
                  | .ok closed =>
                      match FunctionName.ofText? name with
                      | some function =>
                          .ok ⟨.call function closed.value, closed.cursor, closed.shorter⟩
                      | none =>
                          .fail (.unexpectedToken closed.cursor.line "expression"
                            (.identifier name))
      | other => .fail (.unexpectedToken line "expression" other)
termination_by (cursor.size, 0)
decreasing_by
  · exact Prod.Lex.left _ _ fewer
  · exact Prod.Lex.left _ _ lessFollows

end

/-- Read further expressions, each after a comma. -/
def readMoreExprs (cursor : Cursor) :
    Outcome CircuitError (Parsed (cursor.size + 1) (List Expr)) :=
  match following : cursor.rest with
  | ⟨.comma, line⟩ :: rest =>
      have fewer : rest.length < cursor.size := by simp [Cursor.size, following]
      match readExpr 0 ⟨line, rest⟩ with
      | .error fault => .error fault
      | .ok first =>
          have lessFollows : first.cursor.size < cursor.size :=
            Nat.lt_trans first.shorter fewer
          match readMoreExprs first.cursor with
          | .error fault => .error fault
          | .ok more =>
              .ok ⟨first.value :: more.value, more.cursor,
                Nat.lt_of_lt_of_le more.shorter (Nat.succ_le_succ (Nat.le_of_lt lessFollows))⟩
  | _ => .ok ⟨[], cursor, Nat.lt_succ_self _⟩
termination_by cursor.size
decreasing_by exact lessFollows

/-- Read the expressions before a closing parenthesis; there may be none. -/
def readExprs : Read (List Expr) :=
  fun cursor =>
    if cursor.peek? = some .rightParen then .ok ([], cursor)
    else match readExpr 0 cursor with
      | .error fault => .error fault
      | .ok first =>
          match readMoreExprs first.cursor with
          | .error fault => .error fault
          | .ok more => .ok (first.value :: more.value, more.cursor)

theorem shrinks_readExprs : Read.Shrinks readExprs := by
  intro cursor values after h
  simp only [readExprs] at h
  split at h
  · cases h
    exact Nat.le_refl _
  · split at h
    · cases h
    · rename_i first _
      split at h
      · cases h
      · rename_i more _
        cases h
        have := first.shorter
        have := more.shorter
        omega

end HybridQuantum.Circuit
