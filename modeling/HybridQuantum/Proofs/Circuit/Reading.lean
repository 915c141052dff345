import HybridQuantum.Circuit.Parse

/-!
# Reading written tokens

What a reader makes of a token sequence does not depend on lines.  `Reads` says
that a reader takes a value from the front of a token sequence and leaves the
rest; it goes through `bind` step by step, so what a statement reads as is put
together from its tokens.
-/

namespace HybridQuantum.Circuit

/-- The tokens that follow, without their lines. -/
def Cursor.tokens (cursor : Cursor) : List Token :=
  cursor.rest.map Spanned.token

/-- A reader takes a value from the front of tokens and leaves the rest. -/
def Reads {α : Type} (reader : Read α) (tokens : List Token) (value : α) (rest : List Token) :
    Prop :=
  ∀ cursor : Cursor, cursor.tokens = tokens →
    ∃ after, reader cursor = .ok (value, after) ∧ after.tokens = rest

theorem Cursor.rest_of_tokens_eq_cons {cursor : Cursor} {token : Token} {rest : List Token}
    (standing : cursor.tokens = token :: rest) :
    ∃ line spans, cursor.rest = ⟨token, line⟩ :: spans ∧ spans.map Spanned.token = rest := by
  obtain ⟨found, spans, following, rfl, same⟩ := List.map_eq_cons_iff.1 standing
  exact ⟨found.line, spans, following, same⟩

namespace Reads

variable {α β : Type} {tokens middle rest : List Token}

theorem pure (value : α) : Reads (Pure.pure value) tokens value tokens :=
  fun cursor standing => ⟨cursor, rfl, standing⟩

theorem bind {reader : Read α} {next : α → Read β} {value : α} {result : β}
    (first : Reads reader tokens value middle) (second : Reads (next value) middle result rest) :
    Reads (reader >>= next) tokens result rest := by
  intro cursor standing
  obtain ⟨between, found, standsBetween⟩ := first cursor standing
  obtain ⟨after, answered, standsAfter⟩ := second between standsBetween
  refine ⟨after, ?_, standsAfter⟩
  simp only [Bind.bind, found]
  exact answered

theorem lift {outcome : Outcome CircuitError α} {value : α} (answered : outcome = .ok value) :
    Reads (Read.lift outcome) tokens value tokens := by
  intro cursor standing
  exact ⟨cursor, by rw [answered]; rfl, standing⟩

theorem liftExcept {outcome : Except CircuitError α} {value : α} (answered : outcome = .ok value) :
    Reads (Read.liftExcept outcome) tokens value tokens :=
  lift (by rw [answered]; rfl)

theorem next (missing : String) (token : Token) :
    Reads (Read.next missing) (token :: rest) token rest := by
  intro cursor standing
  obtain ⟨line, spans, following, same⟩ := Cursor.rest_of_tokens_eq_cons standing
  exact ⟨⟨line, spans⟩, by rw [Read.next, following], same⟩

theorem expect (token : Token) : Reads (Read.expect token) (token :: rest) () rest := by
  refine bind (next _ token) ?_
  rw [if_pos rfl]
  exact pure ()

theorem accept (token : Token) : Reads (Read.accept token) (token :: rest) true rest := by
  intro cursor standing
  obtain ⟨line, spans, following, same⟩ := Cursor.rest_of_tokens_eq_cons standing
  exact ⟨⟨line, spans⟩, by simp [Read.accept, following], same⟩

theorem accept_other {token other : Token} (different : other ≠ token) :
    Reads (Read.accept token) (other :: rest) false (other :: rest) := by
  intro cursor standing
  obtain ⟨line, spans, following, same⟩ := Cursor.rest_of_tokens_eq_cons standing
  exact ⟨cursor, by simp [Read.accept, following, different], standing⟩

theorem identifier (name : String) :
    Reads Read.identifier (.identifier name :: rest) name rest :=
  bind (next _ _) (pure name)

theorem integer (value : Nat) : Reads Read.integer (.int value :: rest) value rest :=
  bind (next _ _) (pure value)

/-- One position of a register. -/
theorem readArg_index (register : String) (index : Nat) :
    Reads readArg (.identifier register :: .leftBracket :: .int index :: .rightBracket :: rest)
      ⟨register, some index⟩ rest :=
  bind (identifier register) <| bind (accept .leftBracket) <| bind (integer index) <|
    bind (expect .rightBracket) (pure _)

/-- A whole register, before a token that opens no index. -/
theorem readArg_whole (register : String) {other : Token} (different : other ≠ .leftBracket) :
    Reads readArg (.identifier register :: other :: rest) ⟨register, none⟩ (other :: rest) :=
  bind (identifier register) <| bind (accept_other different) (pure _)

theorem readMoreArgs_none (args : List RegisterArg) {other : Token} (different : other ≠ .comma) :
    Reads (readMoreArgs args) (other :: rest) args (other :: rest) := by
  intro cursor standing
  obtain ⟨line, spans, following, same⟩ := Cursor.rest_of_tokens_eq_cons standing
  refine ⟨cursor, ?_, standing⟩
  rw [readMoreArgs]
  split
  · rename_i found
    rw [following] at found
    exact absurd (congrArg Spanned.token (List.cons.inj found).1) different
  · rfl

theorem readMoreArgs_comma {args result : List RegisterArg} {arg : RegisterArg}
    (first : Reads readArg tokens arg middle)
    (others : Reads (readMoreArgs (args ++ [arg])) middle result rest) :
    Reads (readMoreArgs args) (.comma :: tokens) result rest := by
  intro cursor standing
  obtain ⟨line, spans, following, same⟩ := Cursor.rest_of_tokens_eq_cons standing
  obtain ⟨between, found, standsBetween⟩ := first ⟨line, spans⟩ same
  obtain ⟨after, answered, standsAfter⟩ := others between standsBetween
  refine ⟨after, ?_, standsAfter⟩
  rw [readMoreArgs]
  split
  · rename_i foundLine foundRest seen
    rw [following] at seen
    cases seen
    split
    · rename_i fault failed
      rw [found] at failed
      cases failed
    · rename_i foundArg foundAfter read
      rw [found] at read
      cases read
      exact answered
  · rename_i unlike
    exact absurd following (unlike line spans)

/-- A gate without parameters whose arguments are read as `args`. -/
theorem readGate {draft result : Draft} {name : String} {gate : Gate Expr}
    {args : List RegisterArg} {other : Token} (plain : other ≠ .leftParen)
    (known : Gate.ofName name [] = .ok gate)
    (readsArgs : Reads readArgs (other :: tokens) args (.semicolon :: rest))
    (applied : draft.applyGate name gate args = .ok result) :
    Reads (readGate draft name) (other :: tokens) result rest :=
  bind (bind (accept_other plain) (pure [])) <| bind (liftExcept known) <|
    bind readsArgs <| bind (expect .semicolon) (liftExcept applied)

end Reads

theorem readStatements_cons {draft changed : Draft} {cursor after : Cursor} {token : Token}
    {line : Nat} {spans : List Spanned} (following : cursor.rest = ⟨token, line⟩ :: spans)
    (read : readStatement draft cursor.line token ⟨line, spans⟩ = .ok (changed, after)) :
    readStatements draft cursor = readStatements changed after := by
  rw [readStatements]
  split
  · rename_i finished
    rw [following] at finished
    cases finished
  · rename_i found rest seen
    rw [following] at seen
    cases seen
    split
    · rename_i fault failed
      rw [read] at failed
      cases failed
    · rename_i foundDraft foundAfter same
      rw [read] at same
      cases same
      rfl

/-- Statements read to a draft. -/
def Drafts (draft : Draft) (tokens : List Token) (result : Draft) : Prop :=
  ∀ cursor : Cursor, cursor.tokens = tokens → readStatements draft cursor = .ok result

namespace Drafts

theorem nil (draft : Draft) : Drafts draft [] draft := by
  intro cursor standing
  have finished : cursor.rest = [] := List.map_eq_nil_iff.1 standing
  rw [readStatements]
  split
  · rfl
  · rename_i following
    rw [finished] at following
    cases following

/-- A statement that is read changes the draft for those after it. -/
theorem cons {draft changed result : Draft} {token : Token} {tokens rest : List Token}
    (statement : ∀ line, Reads (readStatement draft line token) tokens changed rest)
    (others : Drafts changed rest result) : Drafts draft (token :: tokens) result := by
  intro cursor standing
  obtain ⟨line, spans, following, same⟩ := Cursor.rest_of_tokens_eq_cons standing
  obtain ⟨after, answered, standsAfter⟩ := statement cursor.line ⟨line, spans⟩ same
  rw [readStatements_cons following answered]
  exact others after standsAfter

end Drafts

end HybridQuantum.Circuit
