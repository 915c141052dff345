import HybridQuantum.Proofs.Circuit.ExpressionLanguage
import HybridQuantum.Proofs.Circuit.ExpressionValues

/-!
# What binds to what

An expression tree is written with as few parentheses as the rules allow: sums bind
least, products more, powers most; sums and products group to the left, powers to
the right; a sign binds tighter than all of them.  Reading the tokens gives the
tree back.  Behind the tokens of a subtree the reader stands where it would stand
after taking the subtree as a left operand; this is what the induction carries,
since in a chain such as `a - b - c` no reader ever returns `a - b`.  A reader that
applies the operations as it goes thus yields the value of the tree, bottom up.
-/

namespace HybridQuantum.Circuit

def BinaryOp.token : BinaryOp → Token
  | add => .plus
  | sub => .minus
  | mul => .star
  | div => .slash
  | pow => .caret

def FunctionName.word : FunctionName → String
  | sin => "sin"
  | cos => "cos"
  | tan => "tan"
  | exp => "exp"
  | ln => "ln"
  | sqrt => "sqrt"

namespace BinaryOp

/-- The loosest expressions that stand on the left without parentheses. -/
def leftLevel : BinaryOp → Nat
  | add | sub => 1
  | mul | div => 2
  | pow => 4

/-- The loosest expressions that stand on the right without parentheses. -/
def rightLevel : BinaryOp → Nat
  | add | sub => 2
  | mul | div | pow => 3

end BinaryOp

namespace Expr

/-- How tightly an expression holds together; signs hold like numbers. -/
def level : Expr → Nat
  | binary .add _ _ | binary .sub _ _ => 1
  | binary .mul _ _ | binary .div _ _ => 2
  | binary .pow _ _ => 3
  | _ => 4

/-- Tokens of a level between parentheses, where at least `least` is asked for. -/
def enclose (least level : Nat) (tokens : List Token) : List Token :=
  if level < least then .leftParen :: (tokens ++ [.rightParen]) else tokens

/-- The tokens of an expression, with parentheses only where they are needed. -/
def tokens : Expr → List Token
  | int value => [.int value]
  | float value => [.float value]
  | pi => [.pi]
  | signed sign operand => sign.token :: enclose 4 operand.level operand.tokens
  | binary operator left right =>
      enclose operator.leftLevel left.level left.tokens ++
        operator.token :: enclose operator.rightLevel right.level right.tokens
  | call function argument =>
      .identifier function.word :: .leftParen :: (argument.tokens ++ [.rightParen])

/-- An operator of this precedence or above is taken by the last operand of an expression. -/
def reach : Expr → Nat
  | binary operator _ _ => operator.rightLevel
  | _ => 4

end Expr

section Levels

namespace BinaryOp

theorem ofToken?_token (operator : BinaryOp) : ofToken? operator.token = some operator := by
  cases operator <;> rfl

theorem rightPrecedence_eq (operator : BinaryOp) :
    operator.rightPrecedence = operator.rightLevel := by
  cases operator <;> rfl

theorem precedence_le_leftLevel (operator : BinaryOp) :
    operator.precedence ≤ operator.leftLevel := by
  cases operator <;> decide

theorem precedence_le_rightLevel (operator : BinaryOp) :
    operator.precedence ≤ operator.rightLevel := by
  cases operator <;> decide

theorem precedence_lt_four (operator : BinaryOp) : operator.precedence < 4 := by
  cases operator <;> decide

theorem rightLevel_le_four (operator : BinaryOp) : operator.rightLevel ≤ 4 := by
  cases operator <;> decide

/-- An operator whose left side holds another one bare is not taken by that one's right side. -/
theorem precedence_lt_rightLevel {outer inner : BinaryOp}
    (bare : outer.leftLevel ≤ inner.precedence) : outer.precedence < inner.rightLevel := by
  revert bare
  cases outer <;> cases inner <;> decide

end BinaryOp

theorem Expr.level_binary (operator : BinaryOp) (left right : Expr) :
    (Expr.binary operator left right).level = operator.precedence := by
  cases operator <;> rfl

variable {operator : BinaryOp} {left right : Expr}

theorem precedence_lt_reach (bare : operator.leftLevel ≤ left.level) :
    operator.precedence < left.reach := by
  cases left with
  | binary inner _ _ =>
      rw [Expr.level_binary] at bare
      exact BinaryOp.precedence_lt_rightLevel bare
  | int _ | float _ | pi | signed _ _ | call _ _ => exact operator.precedence_lt_four

theorem rightLevel_le_reach (bare : operator.rightLevel ≤ right.level) :
    operator.rightLevel ≤ right.reach := by
  cases right with
  | binary inner _ _ =>
      rw [Expr.level_binary] at bare
      exact Nat.le_trans bare inner.precedence_le_rightLevel
  | int _ | float _ | pi | signed _ _ | call _ _ => exact operator.rightLevel_le_four

theorem stops_token {bound : Nat} (loose : operator.precedence < bound) (rest : List Token) :
    Stops bound (operator.token :: rest) := by
  intro token next other known
  cases next
  cases (BinaryOp.ofToken?_token operator).symm.trans known
  exact loose

end Levels

section Readers

variable {operator : BinaryOp} {expr left right : Expr} {rest front : List Token} {least : Nat}
  {cursor : Cursor}

/-- These tokens are taken as one operand, whatever comes after. -/
def IsTakenAs (front : List Token) (expr : Expr) : Prop :=
  ∀ (rest : List Token) (cursor : Cursor), cursor.tokens = front ++ rest →
    ∃ parsed, readSigned cursor = .ok parsed ∧ parsed.value = expr ∧ parsed.cursor.tokens = rest

/--
From a cursor, reading at a level comes to stand before the rest with an expression
as its left operand, and goes on from there.
-/
def ComesTo (least : Nat) (cursor : Cursor) (expr : Expr) (rest : List Token) : Prop :=
  ∃ between : Cursor, between.tokens = rest ∧
    ∀ whole, readOperators least expr between = .ok whole →
      ∃ parsed, readExpr least cursor = .ok parsed ∧ parsed.value = whole.value ∧
        parsed.cursor = whole.cursor

/-- Tokens in front of anything that their last operand does not take. -/
def IsReadAs (front : List Token) (expr : Expr) : Prop :=
  ∀ (least : Nat) (rest : List Token) (cursor : Cursor), least ≤ expr.level →
    Stops expr.reach rest → cursor.tokens = front ++ rest → ComesTo least cursor expr rest

theorem IsTakenAs.comesTo (taken : IsTakenAs front expr)
    (standing : cursor.tokens = front ++ rest) : ComesTo least cursor expr rest := by
  obtain ⟨operand, read, rfl, standsBetween⟩ := taken rest cursor standing
  refine ⟨operand.cursor, standsBetween, fun whole goesOn => ?_⟩
  refine ⟨whole.weaken operand.shorter, ?_, rfl, rfl⟩
  rw [readExpr, read]
  simp only [goesOn]

/-- Before a rest whose operators bind too loosely, reading ends with the expression. -/
theorem ComesTo.exists_readExpr (comes : ComesTo least cursor expr rest)
    (stops : Stops least rest) :
    ∃ parsed, readExpr least cursor = .ok parsed ∧ parsed.value = expr ∧
      parsed.cursor.tokens = rest := by
  obtain ⟨between, rfl, goesOn⟩ := comes
  obtain ⟨whole, ends, sameValue, sameCursor⟩ := readOperators_of_stops expr stops
  obtain ⟨parsed, read, keptValue, keptCursor⟩ := goesOn whole ends
  exact ⟨parsed, read, keptValue.trans sameValue, by rw [keptCursor, sameCursor]⟩

theorem IsReadAs.exists_inside (read : IsReadAs front expr)
    (standing : cursor.tokens = front ++ [.rightParen] ++ rest) :
    ∃ parsed, readExpr 0 cursor = .ok parsed ∧ parsed.value = expr ∧
      parsed.cursor.tokens = .rightParen :: rest := by
  have stops (least : Nat) : Stops least (.rightParen :: rest) := by
    simp [Stops, BinaryOp.ofToken?]
  rw [List.append_assoc] at standing
  exact (read 0 (.rightParen :: rest) cursor (Nat.zero_le _) (stops _) standing).exists_readExpr
    (stops 0)

theorem IsReadAs.parens (read : IsReadAs front expr) :
    IsTakenAs (.leftParen :: (front ++ [.rightParen])) expr := by
  intro rest cursor standing
  obtain ⟨line, spans, following, same⟩ := Cursor.rest_of_tokens_eq_cons standing
  have standsInside : (⟨line, spans⟩ : Cursor).tokens = front ++ [.rightParen] ++ rest := same
  obtain ⟨inner, readInner, rfl, closing⟩ := read.exists_inside standsInside
  rw [readSigned_eq_readOperand (by simp [standing, signTokens])]
  exact readOperand_of_parens following readInner closing

/-- A subtree is read back at its place, between parentheses or bare. -/
theorem IsReadAs.enclose (read : IsReadAs front expr) {place : Nat} (le : least ≤ place)
    (stops : place ≤ expr.level → Stops expr.reach rest)
    (standing : cursor.tokens = Expr.enclose place expr.level front ++ rest) :
    ComesTo least cursor expr rest := by
  unfold Expr.enclose at standing
  split at standing
  · exact read.parens.comesTo standing
  · rename_i bare
    have bare := Nat.not_lt.1 bare
    exact read least rest cursor (Nat.le_trans le bare) (stops bare) standing

theorem IsTakenAs.isReadAs (taken : IsTakenAs front expr) : IsReadAs front expr :=
  fun _ _ _ _ _ standing => taken.comesTo standing

/-- An operator takes the tokens of its right side to the end. -/
theorem IsReadAs.exists_right (read : IsReadAs front right)
    (stops : Stops operator.rightLevel rest)
    (standing : cursor.tokens =
      Expr.enclose operator.rightLevel right.level front ++ rest) :
    ∃ parsed, readExpr operator.rightPrecedence cursor = .ok parsed ∧ parsed.value = right ∧
      parsed.cursor.tokens = rest := by
  rw [operator.rightPrecedence_eq]
  exact (read.enclose (Nat.le_refl _) (fun bare => stops.mono (rightLevel_le_reach bare))
    standing).exists_readExpr stops

theorem IsReadAs.binary {leftFront rightFront : List Token} (first : IsReadAs leftFront left)
    (second : IsReadAs rightFront right) :
    IsReadAs (Expr.enclose operator.leftLevel left.level leftFront ++
        operator.token :: Expr.enclose operator.rightLevel right.level rightFront)
      (.binary operator left right) := by
  intro least rest cursor binds stops standing
  rw [Expr.level_binary] at binds
  rw [List.append_assoc] at standing
  obtain ⟨between, standsBetween, goesOn⟩ := first.enclose
    (Nat.le_trans binds operator.precedence_le_leftLevel)
    (fun bare => stops_token (precedence_lt_reach bare) _) standing
  obtain ⟨line, spans, following, same⟩ := Cursor.rest_of_tokens_eq_cons standsBetween
  have standsRight : (⟨line, spans⟩ : Cursor).tokens =
      Expr.enclose operator.rightLevel right.level rightFront ++ rest := same
  obtain ⟨parsed, readRight, rfl, standsAfter⟩ := second.exists_right stops standsRight
  refine ⟨parsed.cursor, standsAfter, fun whole more => ?_⟩
  obtain ⟨extended, reads, keptValue, keptCursor⟩ :=
    readOperators_of_operator following operator.ofToken?_token binds readRight more
  obtain ⟨result, done, sameValue, sameCursor⟩ := goesOn extended reads
  exact ⟨result, done, sameValue.trans keptValue, sameCursor.trans keptCursor⟩

/-- A number or the circle constant. -/
theorem isTakenAs_singleton {token : Token} (unsigned : token ∉ signTokens)
    (reads : ∀ start line spans, ∃ parsed,
      readOperand ⟨start, ⟨token, line⟩ :: spans⟩ = .ok parsed ∧ parsed.value = expr ∧
        parsed.cursor = ⟨line, spans⟩) :
    IsTakenAs [token] expr := by
  rintro rest ⟨start, spans⟩ standing
  obtain ⟨line, spans, following, same⟩ := Cursor.rest_of_tokens_eq_cons standing
  cases following
  obtain ⟨parsed, read, sameValue, sameCursor⟩ := reads start line spans
  rw [readSigned_eq_readOperand (by simpa [standing] using unsigned)]
  exact ⟨parsed, read, sameValue, by rw [sameCursor]; exact same⟩

theorem IsTakenAs.signed (sign : Sign) (taken : IsTakenAs front expr) :
    IsTakenAs (sign.token :: front) (.signed sign expr) := by
  intro rest cursor standing
  obtain ⟨line, spans, following, same⟩ := Cursor.rest_of_tokens_eq_cons standing
  obtain ⟨operand, read, rfl, standsAfter⟩ := taken rest ⟨line, spans⟩ same
  obtain ⟨result, done, sameValue, sameCursor⟩ := readSigned_of_sign following read
  exact ⟨result, done, sameValue, by rw [sameCursor, standsAfter]⟩

theorem FunctionName.ofText?_word (function : FunctionName) :
    FunctionName.ofText? function.word = some function := by
  cases function <;> decide

theorem IsReadAs.call (function : FunctionName) (read : IsReadAs front expr) :
    IsTakenAs (.identifier function.word :: .leftParen :: (front ++ [.rightParen]))
      (.call function expr) := by
  intro rest cursor standing
  obtain ⟨line, spans, following, same⟩ := Cursor.rest_of_tokens_eq_cons standing
  obtain ⟨inside, opened, standsInside⟩ := Reads.expect .leftParen ⟨line, spans⟩ same
  obtain ⟨argument, readArgument, rfl, closing⟩ := read.exists_inside standsInside
  rw [readSigned_eq_readOperand (by simp [standing, signTokens])]
  exact readOperand_of_call following function.ofText?_word opened readArgument closing

/-- Every tree is read back from its tokens, and as an operand where it is written as one. -/
theorem isReadAs_tokens (expr : Expr) :
    IsReadAs expr.tokens expr ∧ IsTakenAs (Expr.enclose 4 expr.level expr.tokens) expr := by
  have operand {expr : Expr} (taken : IsTakenAs expr.tokens expr) (level : expr.level = 4) :
      IsReadAs expr.tokens expr ∧ IsTakenAs (Expr.enclose 4 expr.level expr.tokens) expr := by
    refine ⟨taken.isReadAs, ?_⟩
    rwa [level, Expr.enclose, if_neg (Nat.lt_irrefl 4)]
  induction expr with
  | int value | float value | pi =>
      refine operand (isTakenAs_singleton (by simp [signTokens]) fun start line spans => ?_) rfl
      rw [readOperand]
      exact ⟨_, rfl, rfl, rfl⟩
  | signed sign inner ih => exact operand (ih.2.signed sign) rfl
  | call function argument ih => exact operand (ih.1.call function) rfl
  | binary operator left right leftIh rightIh =>
      have read : IsReadAs (Expr.tokens (.binary operator left right))
          (.binary operator left right) := leftIh.1.binary rightIh.1
      refine ⟨read, ?_⟩
      rw [Expr.level_binary, Expr.enclose, if_pos operator.precedence_lt_four]
      exact read.parens

end Readers

/--
The tokens of an expression tree are read as this tree, before the end of the input
and before every token but an operator.  A reader that works with values instead,
whatever its operations on numbers are, stops at the same place with the value of
the tree from its leaves up; on binary64 numbers this is what the tree evaluates to.
-/
theorem readExpr_tokens (expr : Expr) {rest : List Token} {cursor : Cursor}
    (ends : ∀ token ∈ rest.head?, token ∉ operatorTokens)
    (standing : cursor.tokens = expr.tokens ++ rest) :
    ∃ parsed, readExpr 0 cursor = .ok parsed ∧ parsed.value = expr ∧
      parsed.cursor.tokens = rest ∧
      (∀ (α : Type) (numbers : Arithmetic α), ∃ valued, readValue numbers 0 cursor = .ok valued ∧
        valued.value = expr.valueIn numbers ∧ valued.cursor = parsed.cursor) ∧
      parsed.value.eval = expr.valueIn .floats := by
  have stops (least : Nat) : Stops least rest := by
    intro token next operator known
    exact absurd (mem_operatorTokens_iff.2 (by rw [known]; rfl)) (ends token next)
  obtain ⟨parsed, read, rfl, standsAfter⟩ := ((isReadAs_tokens expr).1 0 rest cursor
    (Nat.zero_le _) (stops _) standing).exists_readExpr (stops 0)
  refine ⟨parsed, read, rfl, standsAfter, fun α numbers => ?_, parsed.value.eval_eq_valueIn⟩
  refine ⟨parsed.map (Expr.valueIn numbers), ?_, rfl, rfl⟩
  rw [readValue_eq, read]
  rfl

/-- `1 - 2 * 3 ^ -4 ^ 5 - 6` before a comma: sums go on to the left, powers to the right. -/
theorem readExpr_tokens_chain :
    let tokens : List Token :=
      [.int 1, .minus, .int 2, .star, .int 3, .caret, .minus, .int 4, .caret, .int 5, .minus,
        .int 6]
    let expr : Expr :=
      .binary .sub
        (.binary .sub (.int 1) (.binary .mul (.int 2)
          (.binary .pow (.int 3) (.binary .pow (.signed .minus (.int 4)) (.int 5)))))
        (.int 6)
    let cursor : Cursor := ⟨1, (tokens ++ [Token.comma]).map (⟨·, 1⟩)⟩
    expr.tokens = tokens ∧
      (∃ parsed, readExpr 0 cursor = .ok parsed ∧ parsed.value = expr ∧
        parsed.cursor.tokens = [.comma]) ∧
      ∃ valued, readValue .floats 0 cursor = .ok valued ∧ valued.value =
        1 - 2 * Float.pow 3 (Float.pow (-4) 5) - 6 := by
  intro tokens expr cursor
  have ends : ∀ token ∈ [Token.comma].head?, token ∉ operatorTokens := by simp [operatorTokens]
  have standing : cursor.tokens = expr.tokens ++ [.comma] := rfl
  obtain ⟨parsed, read, sameTree, standsAfter, values, -⟩ := readExpr_tokens expr ends standing
  obtain ⟨valued, readFloats, sameValue, -⟩ := values Float .floats
  exact ⟨rfl, ⟨parsed, read, sameTree, standsAfter⟩, valued, readFloats, sameValue⟩

end HybridQuantum.Circuit
