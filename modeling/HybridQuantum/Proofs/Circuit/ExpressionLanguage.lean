import HybridQuantum.Proofs.Circuit.Grammar
import HybridQuantum.Proofs.Circuit.Reading

/-!
# The language of the expression readers

The readers take exactly the expressions of the grammar.  What they take is an
expression by induction along the readers.  Conversely an expression is an operand
followed by further operands with operators in front; of such a chain, precedence
climbing takes a first part and leaves a chain whose first operator binds too
loosely.  At the loosest level nothing is left.
-/

namespace HybridQuantum.Circuit

theorem Cursor.tokens_of_rest_eq_cons {cursor : Cursor} {token : Token} {line : Nat}
    {spans : List Spanned} (following : cursor.rest = ⟨token, line⟩ :: spans) :
    cursor.tokens = token :: (⟨line, spans⟩ : Cursor).tokens := by
  simp [Cursor.tokens, following]

theorem Read.tokens_of_expect {token : Token} {cursor after : Cursor}
    (read : Read.expect token cursor = .ok ((), after)) :
    cursor.tokens = token :: after.tokens := by
  obtain ⟨line, rest⟩ := cursor
  cases rest with
  | nil => cases read
  | cons found spans =>
      simp only [Read.expect, bind, Read.next] at read
      split at read
      · rename_i same
        cases read
        simp [Cursor.tokens, same]
      · cases read

theorem Parsed.tokens_of_expect {α : Type} {bound : Nat} {parsed closed : Parsed bound α}
    {token : Token} (read : parsed.expect token = .ok closed) :
    closed.value = parsed.value ∧ parsed.cursor.tokens = token :: closed.cursor.tokens := by
  unfold Parsed.expect at read
  split at read
  · rename_i after expected
    cases read
    exact ⟨rfl, Read.tokens_of_expect expected⟩
  · cases read

theorem mem_operatorTokens_iff {token : Token} :
    token ∈ operatorTokens ↔ (BinaryOp.ofToken? token).isSome = true := by
  cases token <;> simp [operatorTokens, BinaryOp.ofToken?]

theorem mem_functionWords_iff {word : String} :
    word ∈ functionWords ↔ ∃ function, FunctionName.ofText? word = some function := by
  have words : functionWords = FunctionName.all.map Prod.fst := rfl
  rw [words, ← Option.isSome_iff_exists, FunctionName.ofText?, List.lookup_isSome_iff]
  simp only [List.mem_map, beq_iff_eq]
  exact exists_congr fun entry => and_congr_right fun _ => eq_comm

section Sound

theorem exists_isExpr_of_sign {cursor : Cursor} {sign : Token} {line : Nat} {spans : List Spanned}
    {rest : List Token} (following : cursor.rest = ⟨sign, line⟩ :: spans)
    (known : sign ∈ signTokens)
    (operand : ∃ front, (⟨line, spans⟩ : Cursor).tokens = front ++ rest ∧ IsExpr front) :
    ∃ front, cursor.tokens = front ++ rest ∧ IsExpr front := by
  obtain ⟨front, standing, isOperand⟩ := operand
  refine ⟨sign :: front, ?_, .signed known isOperand⟩
  rw [Cursor.tokens_of_rest_eq_cons following, standing, List.cons_append]

mutual

theorem isExpr_of_readExpr {least : Nat} {cursor : Cursor} {parsed : Parsed cursor.size Expr}
    (read : readExpr least cursor = .ok parsed) :
    ∃ front, cursor.tokens = front ++ parsed.cursor.tokens ∧ IsExpr front := by
  rw [readExpr] at read
  split at read
  · cases read
  · rename_i left signed
    split at read
    · cases read
    · rename_i whole operators
      cases read
      have fewer := left.shorter
      obtain ⟨operand, operandFront, isOperand⟩ := isExpr_of_readSigned signed
      obtain ⟨more, moreFront, extends_⟩ := isExpr_of_readOperators operators
      refine ⟨operand ++ more, ?_, extends_ operand isOperand⟩
      rw [operandFront, moreFront, List.append_assoc]
      rfl
termination_by (cursor.size, 2)
decreasing_by
  · exact Prod.Lex.right _ (by decide)
  · exact Prod.Lex.left _ _ fewer

theorem isExpr_of_readOperators {least : Nat} {left : Expr} {cursor : Cursor}
    {parsed : Parsed (cursor.size + 1) Expr} (read : readOperators least left cursor = .ok parsed) :
    ∃ more, cursor.tokens = more ++ parsed.cursor.tokens ∧
      ∀ front, IsExpr front → IsExpr (front ++ more) := by
  have nothing : ∃ more, cursor.tokens = more ++ cursor.tokens ∧
      ∀ front, IsExpr front → IsExpr (front ++ more) :=
    ⟨[], rfl, fun front isExpr => by rwa [List.append_nil]⟩
  rw [readOperators] at read
  split at read
  · cases read
    exact nothing
  · rename_i found rest following
    split at read
    · cases read
      exact nothing
    · rename_i operator known
      split at read
      · cases read
        exact nothing
      · split at read
        · cases read
        · rename_i right readRight
          split at read
          · cases read
          · rename_i whole readMore
            cases read
            have fewer : rest.length < cursor.size := by simp [Cursor.size, following]
            have lessFollows : right.cursor.size < cursor.size := Nat.lt_trans right.shorter fewer
            obtain ⟨operand, operandFront, isOperand⟩ := isExpr_of_readExpr readRight
            obtain ⟨more, moreFront, extends_⟩ := isExpr_of_readOperators readMore
            refine ⟨found.token :: operand ++ more, ?_, fun front isExpr => ?_⟩
            · rw [Cursor.tokens_of_rest_eq_cons following, operandFront, moreFront]
              simp [Parsed.weaken]
            · have isOperator : found.token ∈ operatorTokens :=
                mem_operatorTokens_iff.2 (by rw [known]; rfl)
              have longer := extends_ _ (.binary isOperator isExpr isOperand)
              rwa [List.append_assoc] at longer
termination_by (cursor.size, 3)
decreasing_by
  · exact Prod.Lex.left _ _ fewer
  · exact Prod.Lex.left _ _ lessFollows

theorem isExpr_of_readSigned {cursor : Cursor} {parsed : Parsed cursor.size Expr}
    (read : readSigned cursor = .ok parsed) :
    ∃ front, cursor.tokens = front ++ parsed.cursor.tokens ∧ IsExpr front := by
  rw [readSigned] at read
  split at read
  · rename_i line rest following
    have fewer : rest.length < cursor.size := by simp [Cursor.size, following]
    split at read
    · cases read
    · rename_i operand readOperand
      cases read
      exact exists_isExpr_of_sign following (by simp [signTokens])
        (isExpr_of_readSigned readOperand)
  · rename_i line rest following
    have fewer : rest.length < cursor.size := by simp [Cursor.size, following]
    split at read
    · cases read
    · rename_i operand readOperand
      cases read
      exact exists_isExpr_of_sign following (by simp [signTokens])
        (isExpr_of_readSigned readOperand)
  · exact isExpr_of_readOperand read
termination_by (cursor.size, 1)
decreasing_by
  · exact Prod.Lex.left _ _ fewer
  · exact Prod.Lex.left _ _ fewer
  · exact Prod.Lex.right _ (by decide)

theorem isExpr_of_readOperand {cursor : Cursor} {parsed : Parsed cursor.size Expr}
    (read : readOperand cursor = .ok parsed) :
    ∃ front, cursor.tokens = front ++ parsed.cursor.tokens ∧ IsExpr front := by
  rw [readOperand] at read
  split at read
  · cases read
  · rename_i token line rest following
    have fewer : rest.length < cursor.size := by simp [Cursor.size, following]
    rw [Cursor.tokens_of_rest_eq_cons following]
    split at read
    · cases read
      exact ⟨[_], rfl, .int _⟩
    · cases read
      exact ⟨[_], rfl, .float _⟩
    · cases read
      exact ⟨[_], rfl, .pi⟩
    · split at read
      · cases read
      · rename_i inner readInner
        obtain ⟨front, standing, isExpr⟩ := isExpr_of_readExpr readInner
        obtain ⟨-, closing⟩ := Parsed.tokens_of_expect read
        refine ⟨.leftParen :: front ++ [.rightParen], ?_, .parens isExpr⟩
        rw [standing]
        simpa [Parsed.weaken] using closing
    · split at read
      · cases read
      · rename_i inside opened
        have lessFollows : inside.size < cursor.size :=
          Nat.lt_of_le_of_lt (Read.shrinks_expect .leftParen _ () inside opened) fewer
        split at read
        · cases read
        · rename_i argument readArgument
          dsimp only at read
          split at read
          · cases read
          · rename_i closed closes
            split at read
            · rename_i function known
              cases read
              obtain ⟨front, standing, isExpr⟩ := isExpr_of_readExpr readArgument
              obtain ⟨-, closing⟩ := Parsed.tokens_of_expect closes
              refine ⟨.identifier _ :: .leftParen :: front ++ [.rightParen], ?_,
                .call (mem_functionWords_iff.2 ⟨function, known⟩) isExpr⟩
              rw [Read.tokens_of_expect opened, standing]
              simpa [Parsed.weaken] using closing
            · cases read
    · cases read
termination_by (cursor.size, 0)
decreasing_by
  · exact Prod.Lex.left _ _ fewer
  · exact Prod.Lex.left _ _ lessFollows

end

end Sound

section Complete

/-- An expression without an operator outside parentheses. -/
inductive IsOperand : List Token → Prop where
  | int (value : Nat) : IsOperand [.int value]
  | float (value : Float) : IsOperand [.float value]
  | pi : IsOperand [.pi]
  | parens {inner : List Token} (expr : IsExpr inner) :
      IsOperand (.leftParen :: inner ++ [.rightParen])
  | call {word : String} {inner : List Token} (known : word ∈ functionWords)
      (argument : IsExpr inner) :
      IsOperand (.identifier word :: .leftParen :: inner ++ [.rightParen])
  | signed {sign : Token} {inner : List Token} (known : sign ∈ signTokens)
      (operand : IsOperand inner) : IsOperand (sign :: inner)

/-- Operands with an operator in front of each. -/
inductive IsChain : List Token → Prop where
  | nil : IsChain []
  | cons {token : Token} {operator : BinaryOp} {operand rest : List Token}
      (known : BinaryOp.ofToken? token = some operator) (first : IsOperand operand)
      (others : IsChain rest) : IsChain (token :: (operand ++ rest))

theorem IsOperand.length_pos {operand : List Token} (shape : IsOperand operand) :
    0 < operand.length := by
  cases shape <;> simp

theorem IsChain.append {front rest : List Token} (first : IsChain front) (second : IsChain rest) :
    IsChain (front ++ rest) := by
  induction first with
  | nil => exact second
  | cons known operand others ih =>
      rw [List.cons_append, List.append_assoc]
      exact .cons known operand ih

/-- An expression is an operand with a chain behind it. -/
theorem IsExpr.exists_chain {tokens : List Token} (expr : IsExpr tokens) :
    ∃ operand chain, tokens = operand ++ chain ∧ IsOperand operand ∧ IsChain chain := by
  have alone {tokens : List Token} (operand : IsOperand tokens) :
      ∃ operand chain, tokens = operand ++ chain ∧ IsOperand operand ∧ IsChain chain :=
    ⟨tokens, [], (List.append_nil _).symm, operand, .nil⟩
  induction expr with
  | int value => exact alone (.int value)
  | float value => exact alone (.float value)
  | pi => exact alone .pi
  | parens expr => exact alone (.parens expr)
  | call known argument => exact alone (.call known argument)
  | @signed sign inner known _ ih =>
      obtain ⟨operand, chain, rfl, isOperand, isChain⟩ := ih
      exact ⟨sign :: operand, chain, rfl, .signed known isOperand, isChain⟩
  | @binary token _ _ known _ _ leftIh rightIh =>
      obtain ⟨first, firstChain, rfl, isFirst, isFirstChain⟩ := leftIh
      obtain ⟨second, secondChain, rfl, isSecond, isSecondChain⟩ := rightIh
      obtain ⟨operator, isOperator⟩ := Option.isSome_iff_exists.1 (mem_operatorTokens_iff.1 known)
      exact ⟨first, firstChain ++ token :: (second ++ secondChain), List.append_assoc .., isFirst,
        isFirstChain.append (.cons isOperator isSecond isSecondChain)⟩

/-- No operator that binds at least as tightly as `least` comes next. -/
def Stops (least : Nat) (tokens : List Token) : Prop :=
  ∀ token ∈ tokens.head?, ∀ operator, BinaryOp.ofToken? token = some operator →
    operator.precedence < least

theorem Stops.mono {small large : Nat} {tokens : List Token} (stops : Stops small tokens)
    (le : small ≤ large) : Stops large tokens :=
  fun token next operator known => Nat.lt_of_lt_of_le (stops token next operator known) le

/-- At the loosest level no operator is left. -/
theorem IsChain.eq_nil {chain rest : List Token} (isChain : IsChain chain)
    (stops : Stops 0 (chain ++ rest)) : chain = [] := by
  cases isChain with
  | nil => rfl
  | cons known _ _ => exact absurd (stops _ rfl _ known) (Nat.not_lt_zero _)

theorem readOperators_of_stops {least : Nat} {cursor : Cursor} (left : Expr)
    (stops : Stops least cursor.tokens) :
    ∃ parsed, readOperators least left cursor = .ok parsed ∧ parsed.value = left ∧
      parsed.cursor = cursor := by
  rw [readOperators]
  split
  · exact ⟨_, rfl, rfl, rfl⟩
  · rename_i found rest following
    have next : found.token ∈ cursor.tokens.head? := by simp [Cursor.tokens, following]
    split
    · exact ⟨_, rfl, rfl, rfl⟩
    · rename_i operator known
      rw [if_pos (stops found.token next operator known)]
      exact ⟨_, rfl, rfl, rfl⟩

theorem readOperators_of_operator {least line : Nat} {left : Expr} {cursor : Cursor} {token : Token}
    {spans : List Spanned} {operator : BinaryOp}
    (following : cursor.rest = ⟨token, line⟩ :: spans)
    (known : BinaryOp.ofToken? token = some operator) (binds : least ≤ operator.precedence)
    {right : Parsed (⟨line, spans⟩ : Cursor).size Expr}
    (readRight : readExpr operator.rightPrecedence ⟨line, spans⟩ = .ok right)
    {whole : Parsed (right.cursor.size + 1) Expr}
    (readMore : readOperators least (.binary operator left right.value) right.cursor = .ok whole) :
    ∃ parsed, readOperators least left cursor = .ok parsed ∧ parsed.value = whole.value ∧
      parsed.cursor = whole.cursor := by
  rw [readOperators]
  split
  · rename_i finished
    rw [following] at finished
    cases finished
  · rename_i found rest seen
    rw [following] at seen
    cases seen
    split
    · rename_i unknown
      rw [known] at unknown
      cases unknown
    · rename_i other same
      rw [known] at same
      cases same
      rw [if_neg (Nat.not_lt.2 binds)]
      split
      · rename_i fault failed
        rw [readRight] at failed
        cases failed
      · rename_i other same
        rw [readRight] at same
        cases same
        dsimp only
        split
        · rename_i fault failed
          rw [readMore] at failed
          cases failed
        · rename_i other same
          rw [readMore] at same
          cases same
          exact ⟨_, rfl, rfl, rfl⟩

def Sign.token : Sign → Token
  | .minus => .minus
  | .plus => .plus

theorem exists_sign_of_mem {token : Token} (known : token ∈ signTokens) :
    ∃ sign : Sign, sign.token = token := by
  rcases List.mem_cons.1 known with rfl | known
  · exact ⟨.plus, rfl⟩
  · obtain rfl := List.mem_singleton.1 known
    exact ⟨.minus, rfl⟩

theorem readSigned_of_sign {line : Nat} {cursor : Cursor} {sign : Sign} {spans : List Spanned}
    (following : cursor.rest = ⟨sign.token, line⟩ :: spans)
    {operand : Parsed (⟨line, spans⟩ : Cursor).size Expr}
    (read : readSigned ⟨line, spans⟩ = .ok operand) :
    ∃ parsed, readSigned cursor = .ok parsed ∧ parsed.value = .signed sign operand.value ∧
      parsed.cursor = operand.cursor := by
  obtain ⟨start, spans⟩ := cursor
  cases following
  cases sign <;> rw [Sign.token, readSigned] <;> simp only [read] <;> exact ⟨_, rfl, rfl, rfl⟩

theorem readSigned_eq_readOperand {cursor : Cursor}
    (unsigned : ∀ token ∈ cursor.tokens.head?, token ∉ signTokens) :
    readSigned cursor = readOperand cursor := by
  rw [readSigned]
  split
  · rename_i following
    exact absurd (by simp [signTokens]) (unsigned .minus (by simp [Cursor.tokens, following]))
  · rename_i following
    exact absurd (by simp [signTokens]) (unsigned .plus (by simp [Cursor.tokens, following]))
  · rfl

theorem exists_expect {α : Type} {bound : Nat} (parsed : Parsed bound α) {token : Token}
    {rest : List Token} (standing : parsed.cursor.tokens = token :: rest) :
    ∃ closed, parsed.expect token = .ok closed ∧ closed.value = parsed.value ∧
      closed.cursor.tokens = rest := by
  obtain ⟨after, expected, standsAfter⟩ := Reads.expect token parsed.cursor standing
  unfold Parsed.expect
  split
  · rename_i found same
    rw [expected] at same
    cases same
    exact ⟨_, rfl, rfl, standsAfter⟩
  · rename_i fault failed
    rw [expected] at failed
    cases failed

theorem expect_ne_error {α : Type} {bound : Nat} {parsed : Parsed bound α} {token : Token}
    (rest : List Token) (standing : parsed.cursor.tokens = token :: rest)
    (fault : Fault CircuitError) : parsed.expect token ≠ .error fault := by
  obtain ⟨closed, closes, -⟩ := exists_expect parsed standing
  simp [closes]

theorem readOperand_of_parens {line : Nat} {cursor : Cursor} {spans : List Spanned}
    {rest : List Token} (following : cursor.rest = ⟨.leftParen, line⟩ :: spans)
    {inner : Parsed (⟨line, spans⟩ : Cursor).size Expr}
    (read : readExpr 0 ⟨line, spans⟩ = .ok inner)
    (closing : inner.cursor.tokens = .rightParen :: rest) :
    ∃ parsed, readOperand cursor = .ok parsed ∧ parsed.value = inner.value ∧
      parsed.cursor.tokens = rest := by
  obtain ⟨start, spans⟩ := cursor
  cases following
  rw [readOperand]
  simp only [read]
  exact exists_expect _ closing

theorem readOperand_of_call {line : Nat} {cursor inside : Cursor} {spans : List Spanned}
    {rest : List Token} {word : String} {function : FunctionName}
    (following : cursor.rest = ⟨.identifier word, line⟩ :: spans)
    (known : FunctionName.ofText? word = some function)
    (opened : Read.expect .leftParen ⟨line, spans⟩ = .ok ((), inside))
    {argument : Parsed inside.size Expr} (read : readExpr 0 inside = .ok argument)
    (closing : argument.cursor.tokens = .rightParen :: rest) :
    ∃ parsed, readOperand cursor = .ok parsed ∧
      parsed.value = .call function argument.value ∧ parsed.cursor.tokens = rest := by
  obtain ⟨start, spans⟩ := cursor
  cases following
  rw [readOperand]
  dsimp only
  split
  · rename_i fault failed
    rw [opened] at failed
    cases failed
  · rename_i other same
    rw [opened] at same
    cases same
    split
    · rename_i fault failed
      rw [read] at failed
      cases failed
    · rename_i other same
      rw [read] at same
      cases same
      split
      · rename_i fault failed
        refine absurd failed (expect_ne_error rest ?_ fault)
        exact closing
      · rename_i closed closes
        simp only [known]
        obtain ⟨kept, standing⟩ := Parsed.tokens_of_expect closes
        refine ⟨_, rfl, congrArg _ kept, ?_⟩
        exact (List.cons.inj (closing.symm.trans standing)).2.symm

/-- At the loosest level these tokens are taken whole, as one value whatever comes after. -/
def TakesWhole (tokens : List Token) : Prop :=
  ∃ value, ∀ (rest : List Token) (cursor : Cursor), Stops 0 rest →
    cursor.tokens = tokens ++ rest →
      ∃ parsed, readExpr 0 cursor = .ok parsed ∧ parsed.value = value ∧
        parsed.cursor.tokens = rest

def TakesOperand (operand : List Token) : Prop :=
  ∃ value, ∀ (rest : List Token) (cursor : Cursor), cursor.tokens = operand ++ rest →
    ∃ parsed, readSigned cursor = .ok parsed ∧ parsed.value = value ∧ parsed.cursor.tokens = rest

/-- A reader takes some of a chain as one value and leaves a chain that binds too loosely. -/
def TakesFront {α : Type} {bound : Cursor → Nat}
    (reader : (cursor : Cursor) → Outcome CircuitError (Parsed (bound cursor) α)) (least : Nat)
    (tokens chain : List Token) : Prop :=
  ∃ value left, IsChain left ∧ left.length ≤ chain.length ∧
    ∀ (rest : List Token) (cursor : Cursor), Stops 0 rest → cursor.tokens = tokens ++ rest →
      ∃ parsed, reader cursor = .ok parsed ∧ parsed.value = value ∧
        parsed.cursor.tokens = left ++ rest ∧ Stops least (left ++ rest)

/-- Of these tokens the operators that bind tightly enough are taken, and a chain is left. -/
def TakesChain (chain : List Token) : Prop :=
  ∀ (least : Nat) (before : Expr), TakesFront (readOperators least before) least chain chain

theorem IsOperand.takes {operand : List Token} (shape : IsOperand operand)
    (whole : ∀ inner, IsExpr inner → inner.length < operand.length → TakesWhole inner) :
    TakesOperand operand := by
  have closes (rest : List Token) : Stops 0 (.rightParen :: rest) := by
    simp [Stops, BinaryOp.ofToken?]
  have unsigned {cursor : Cursor} {token : Token} {rest : List Token}
      (standing : cursor.tokens = token :: rest) (noSign : token ∉ signTokens) :
      readSigned cursor = readOperand cursor :=
    readSigned_eq_readOperand (by simpa [standing] using noSign)
  induction shape with
  | int value | float value | pi =>
      apply Exists.intro
      rintro rest ⟨start, spans⟩ standing
      obtain ⟨line, spans, following, same⟩ := Cursor.rest_of_tokens_eq_cons standing
      cases following
      rw [unsigned standing (by simp [signTokens]), readOperand]
      exact ⟨_, rfl, rfl, same⟩
  | @parens inner expr =>
      have shorter : inner.length < (Token.leftParen :: inner ++ [Token.rightParen]).length := by
        rw [List.length_append, List.length_cons]
        omega
      obtain ⟨value, takes⟩ := whole inner expr shorter
      refine ⟨value, fun rest cursor standing => ?_⟩
      obtain ⟨line, spans, following, same⟩ := Cursor.rest_of_tokens_eq_cons standing
      obtain ⟨parsed, read, rfl, closing⟩ := takes (.rightParen :: rest)
        ⟨line, spans⟩ (closes rest) (same.trans (List.append_assoc inner [_] rest))
      rw [unsigned standing (by simp [signTokens])]
      exact readOperand_of_parens following read closing
  | @call word inner known argument =>
      obtain ⟨function, isFunction⟩ := mem_functionWords_iff.1 known
      have shorter : inner.length <
          (Token.identifier word :: .leftParen :: inner ++ [Token.rightParen]).length := by
        rw [List.length_append, List.length_cons, List.length_cons]
        omega
      obtain ⟨value, takes⟩ := whole inner argument shorter
      refine ⟨.call function value, fun rest cursor standing => ?_⟩
      obtain ⟨line, spans, following, same⟩ := Cursor.rest_of_tokens_eq_cons standing
      obtain ⟨inside, opened, standsInside⟩ := Reads.expect .leftParen ⟨line, spans⟩ same
      obtain ⟨parsed, read, rfl, closing⟩ := takes (.rightParen :: rest) inside (closes rest)
        (standsInside.trans (List.append_assoc inner [_] rest))
      rw [unsigned standing (by simp [signTokens])]
      exact readOperand_of_call following isFunction opened read closing
  | @signed token inner known operand ih =>
      obtain ⟨sign, rfl⟩ := exists_sign_of_mem known
      obtain ⟨value, takes⟩ := ih fun shorter expr less =>
        whole shorter expr (Nat.lt_succ_of_lt less)
      refine ⟨.signed sign value, fun rest cursor standing => ?_⟩
      obtain ⟨line, spans, following, same⟩ := Cursor.rest_of_tokens_eq_cons standing
      obtain ⟨parsed, read, rfl, standsAfter⟩ := takes rest ⟨line, spans⟩ same
      obtain ⟨result, done, sameValue, sameCursor⟩ := readSigned_of_sign following read
      exact ⟨result, done, sameValue, sameCursor ▸ standsAfter⟩

/-- An operand and what is taken of the chain behind it, at any level. -/
theorem takesFront_readExpr {operand chain : List Token} (first : TakesOperand operand)
    (others : TakesChain chain) (least : Nat) :
    TakesFront (readExpr least) least (operand ++ chain) chain := by
  obtain ⟨start, takesStart⟩ := first
  obtain ⟨value, left, isLeft, notLonger, takes⟩ := others least start
  refine ⟨value, left, isLeft, notLonger, fun rest cursor stops standing => ?_⟩
  rw [List.append_assoc] at standing
  obtain ⟨parsedStart, readStart, rfl, standsStart⟩ := takesStart _ cursor standing
  obtain ⟨whole, readWhole, result⟩ := takes rest parsedStart.cursor stops standsStart
  refine ⟨whole.weaken parsedStart.shorter, ?_, result⟩
  rw [readExpr, readStart]
  simp only [readWhole]

/-- The right operand of an operator takes some of a chain, and what it leaves is a shorter chain. -/
theorem IsChain.takes {chain : List Token} (isChain : IsChain chain)
    (whole : ∀ inner, IsExpr inner → inner.length < chain.length → TakesWhole inner) :
    TakesChain chain := by
  have leaves {least : Nat} {before : Expr} {chain : List Token} (isChain : IsChain chain)
      (stopsAt : ∀ rest, Stops 0 rest → Stops least (chain ++ rest)) :
      TakesFront (readOperators least before) least chain chain := by
    refine ⟨before, chain, isChain, Nat.le_refl _, fun rest cursor stops standing => ?_⟩
    have stopsHere := stopsAt rest stops
    obtain ⟨parsed, read, sameValue, sameCursor⟩ :=
      readOperators_of_stops before (by rw [standing]; exact stopsHere)
    exact ⟨parsed, read, sameValue, by rw [sameCursor, standing], stopsHere⟩
  induction length : chain.length using Nat.strongRecOn generalizing chain with
  | _ bound ih =>
      subst length
      intro least before
      cases isChain with
      | nil => exact leaves .nil fun rest stops => stops.mono (Nat.zero_le _)
      | @cons token operator operand others known isOperand isOthers =>
          have fewer : operand.length + others.length < (token :: (operand ++ others)).length := by
            simp
          by_cases loose : operator.precedence < least
          · refine leaves (.cons known isOperand isOthers) fun rest _ => ?_
            intro next isNext other isOther
            cases isNext
            cases known.symm.trans isOther
            exact loose
          · have takesOperand := isOperand.takes fun inner isExpr shorter =>
              whole inner isExpr (by omega)
            have takesOthers := ih others.length (by omega) isOthers
              (fun inner isExpr shorter => whole inner isExpr (by omega)) rfl
            obtain ⟨rightValue, between, isBetween, notLonger, takesRight⟩ :=
              takesFront_readExpr takesOperand takesOthers operator.rightPrecedence
            have takesBetween := ih between.length (by omega) isBetween
              (fun inner isExpr shorter => whole inner isExpr (by omega)) rfl
            obtain ⟨value, left, isLeft, leftNotLonger, takesMore⟩ :=
              takesBetween least (.binary operator before rightValue)
            refine ⟨value, left, isLeft, by omega, fun rest cursor stops standing => ?_⟩
            obtain ⟨line, spans, following, same⟩ := Cursor.rest_of_tokens_eq_cons standing
            obtain ⟨right, readRight, rfl, standsBetween, -⟩ :=
              takesRight rest ⟨line, spans⟩ stops same
            obtain ⟨more, readMore, rfl, standsAfter, stopsAfter⟩ :=
              takesMore rest right.cursor stops standsBetween
            obtain ⟨parsed, read, sameValue, sameCursor⟩ :=
              readOperators_of_operator following known (Nat.not_lt.1 loose) readRight readMore
            exact ⟨parsed, read, sameValue, sameCursor ▸ standsAfter, stopsAfter⟩

/-- An expression is taken whole when no operator comes after it. -/
theorem IsExpr.takesWhole {tokens : List Token} (expr : IsExpr tokens) : TakesWhole tokens := by
  induction length : tokens.length using Nat.strongRecOn generalizing tokens with
  | _ bound ih =>
      subst length
      obtain ⟨operand, chain, rfl, isOperand, isChain⟩ := expr.exists_chain
      have positive := isOperand.length_pos
      have lengths : (operand ++ chain).length = operand.length + chain.length := List.length_append
      have takesOperand := isOperand.takes fun inner isExpr shorter =>
        ih inner.length (by omega) isExpr rfl
      have takesChain := isChain.takes fun inner isExpr shorter =>
        ih inner.length (by omega) isExpr rfl
      obtain ⟨value, left, isLeft, -, takes⟩ := takesFront_readExpr takesOperand takesChain 0
      refine ⟨value, fun rest cursor stops standing => ?_⟩
      obtain ⟨parsed, read, sameValue, standsAfter, stopsAfter⟩ := takes rest cursor stops standing
      rw [isLeft.eq_nil stopsAfter] at standsAfter
      exact ⟨parsed, read, sameValue, standsAfter⟩

end Complete

section Lists

theorem isExpr_of_readMoreExprs {cursor : Cursor} {parsed : Parsed (cursor.size + 1) (List Expr)}
    (read : readMoreExprs cursor = .ok parsed) :
    ∃ exprs : List (List Token), (∀ expr ∈ exprs, IsExpr expr) ∧
      exprs.length = parsed.value.length ∧
      cursor.tokens = (exprs.flatMap fun expr => .comma :: expr) ++ parsed.cursor.tokens := by
  rw [readMoreExprs] at read
  split at read
  · rename_i line rest following
    split at read
    · cases read
    · rename_i first readFirst
      split at read
      · cases read
      · rename_i more readMore
        cases read
        have fewer : rest.length < cursor.size := by simp [Cursor.size, following]
        have lessFollows : first.cursor.size < cursor.size := Nat.lt_trans first.shorter fewer
        obtain ⟨front, standing, isExpr⟩ := isExpr_of_readExpr readFirst
        obtain ⟨exprs, areExprs, sameLength, standsMore⟩ := isExpr_of_readMoreExprs readMore
        refine ⟨front :: exprs, List.forall_mem_cons.2 ⟨isExpr, areExprs⟩, by simp [sameLength], ?_⟩
        rw [Cursor.tokens_of_rest_eq_cons following, standing, standsMore]
        simp
  · cases read
    exact ⟨[], by simp, rfl, rfl⟩
termination_by cursor.size
decreasing_by exact lessFollows

/-- Before a closing parenthesis the readers take expressions between commas, and nothing else. -/
theorem isExpr_of_readExprs {cursor after : Cursor} {values : List Expr}
    (read : readExprs cursor = .ok (values, after)) :
    ∃ exprs : List (List Token), (∀ expr ∈ exprs, IsExpr expr) ∧ exprs.length = values.length ∧
      cursor.tokens = commaSeparated exprs ++ after.tokens := by
  unfold readExprs at read
  split at read
  · cases read
    exact ⟨[], by simp, rfl, rfl⟩
  · split at read
    · cases read
    · rename_i first readFirst
      split at read
      · cases read
      · rename_i more readMore
        cases read
        obtain ⟨front, standing, isExpr⟩ := isExpr_of_readExpr readFirst
        obtain ⟨exprs, areExprs, sameLength, standsMore⟩ := isExpr_of_readMoreExprs readMore
        refine ⟨front :: exprs, List.forall_mem_cons.2 ⟨isExpr, areExprs⟩, by simp [sameLength], ?_⟩
        rw [standing, standsMore, commaSeparated, List.append_assoc]

theorem stops_flatMap_comma (exprs : List (List Token)) (rest : List Token) :
    Stops 0 ((exprs.flatMap fun expr => .comma :: expr) ++ .rightParen :: rest) := by
  cases exprs <;> simp [Stops, BinaryOp.ofToken?]

theorem readMoreExprs_of_isExpr {exprs : List (List Token)}
    (areExprs : ∀ expr ∈ exprs, IsExpr expr) :
    ∃ values : List Expr, values.length = exprs.length ∧
      ∀ (rest : List Token) (cursor : Cursor),
        cursor.tokens = (exprs.flatMap fun expr => .comma :: expr) ++ .rightParen :: rest →
          ∃ parsed, readMoreExprs cursor = .ok parsed ∧ parsed.value = values ∧
            parsed.cursor.tokens = .rightParen :: rest := by
  induction exprs with
  | nil =>
      refine ⟨[], rfl, fun rest cursor standing => ?_⟩
      rw [readMoreExprs]
      split
      · rename_i line spans following
        simp [Cursor.tokens, following] at standing
      · exact ⟨_, rfl, rfl, standing⟩
  | cons expr exprs ih =>
      obtain ⟨isExpr, others⟩ := List.forall_mem_cons.1 areExprs
      obtain ⟨value, takes⟩ := isExpr.takesWhole
      obtain ⟨values, sameLength, takesMore⟩ := ih others
      refine ⟨value :: values, by simp [sameLength], fun rest cursor standing => ?_⟩
      obtain ⟨line, spans, following, same⟩ := Cursor.rest_of_tokens_eq_cons standing
      obtain ⟨first, readFirst, rfl, standsFirst⟩ := takes _ ⟨line, spans⟩
        (stops_flatMap_comma exprs rest) (same.trans (List.append_assoc expr _ _))
      obtain ⟨more, readMore, rfl, standsMore⟩ := takesMore rest first.cursor standsFirst
      rw [readMoreExprs]
      split
      · rename_i seen
        rw [following] at seen
        cases seen
        simp only [readFirst, readMore]
        exact ⟨_, rfl, rfl, standsMore⟩
      · rename_i unlike
        exact absurd following (unlike line spans)

theorem IsExpr.ne_rightParen {tokens : List Token} (expr : IsExpr tokens) (rest : List Token) :
    (tokens ++ rest).head? ≠ some .rightParen := by
  induction expr generalizing rest with
  | binary _ _ _ leftIh _ =>
      rw [List.append_assoc]
      exact leftIh _
  | signed known =>
      rintro same
      cases same
      simp [signTokens] at known
  | _ => simp

/-- Expressions before a closing parenthesis are read to the same values whatever follows it. -/
theorem readExprs_of_isExpr {exprs : List (List Token)} (areExprs : ∀ expr ∈ exprs, IsExpr expr) :
    ∃ values : List Expr, values.length = exprs.length ∧ ∀ rest : List Token,
      Reads readExprs (commaSeparated exprs ++ .rightParen :: rest) values
        (.rightParen :: rest) := by
  have peeks (cursor : Cursor) : cursor.peek? = cursor.tokens.head? := by
    simp [Cursor.peek?, Cursor.tokens]
  cases exprs with
  | nil =>
      refine ⟨[], rfl, fun rest cursor standing => ⟨cursor, ?_, standing⟩⟩
      rw [readExprs, peeks, standing]
      rfl
  | cons expr exprs =>
      obtain ⟨isExpr, others⟩ := List.forall_mem_cons.1 areExprs
      obtain ⟨value, takes⟩ := isExpr.takesWhole
      obtain ⟨values, sameLength, takesMore⟩ := readMoreExprs_of_isExpr others
      refine ⟨value :: values, by simp [sameLength], fun rest cursor standing => ?_⟩
      rw [commaSeparated, List.append_assoc] at standing
      obtain ⟨first, readFirst, rfl, standsFirst⟩ :=
        takes _ cursor (stops_flatMap_comma exprs rest) standing
      obtain ⟨more, readMore, rfl, standsMore⟩ := takesMore rest first.cursor standsFirst
      refine ⟨more.cursor, ?_, standsMore⟩
      rw [readExprs, peeks, standing, if_neg (isExpr.ne_rightParen _), readFirst]
      simp only [readMore]

end Lists

end HybridQuantum.Circuit
