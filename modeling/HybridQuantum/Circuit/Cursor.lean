import HybridQuantum.Circuit.Error
import HybridQuantum.Fault

/-!
# Reading tokens

A cursor stands between the tokens that are read and those that follow.  Readers
move it forward or stop with an error; they never go back, which `Shrinks`
states and which bounds every loop over statements and arguments.
-/

namespace HybridQuantum.Circuit

/-- A place in a token sequence. -/
structure Cursor where
  /-- The line of the last token that was read. -/
  line : Nat
  /-- The tokens that follow. -/
  rest : List Spanned

namespace Cursor

def size (cursor : Cursor) : Nat :=
  cursor.rest.length

def peek? (cursor : Cursor) : Option Token :=
  cursor.rest.head?.map Spanned.token

end Cursor

/-- A computation that reads tokens. -/
abbrev Read (α : Type) := Cursor → Outcome CircuitError (α × Cursor)

namespace Read

variable {α β : Type}

instance : Monad Read where
  pure value := fun cursor => .ok (value, cursor)
  bind reader next := fun cursor =>
    match reader cursor with
    | .ok (value, cursor) => next value cursor
    | .error fault => .error fault

def fail (cause : CircuitError) : Read α :=
  fun _ => .fail cause

/-- A computation that reads nothing. -/
def lift (outcome : Outcome CircuitError α) : Read α :=
  fun cursor =>
    match outcome with
    | .ok value => .ok (value, cursor)
    | .error fault => .error fault

/-- A check that reads nothing. -/
def liftExcept (outcome : Except CircuitError α) : Read α :=
  lift (.ofExcept outcome)

/-- Take the next token; at the end, stop saying what is missing. -/
def next (missing : String) : Read Token :=
  fun cursor =>
    match cursor.rest with
    | [] => .fail (.unexpectedEnd missing)
    | found :: rest => .ok (found.token, ⟨found.line, rest⟩)

/-- Stop at the token that was just read. -/
def unexpected (expected : String) (found : Token) : Read α :=
  fun cursor => .fail (.unexpectedToken cursor.line expected found)

/-- Take one particular token. -/
def expect (token : Token) : Read Unit := do
  let found ← next ("expected " ++ token.text)
  if found = token then pure () else unexpected token.text found

/-- Take a token if it comes next. -/
def accept (token : Token) : Read Bool :=
  fun cursor =>
    match cursor.rest with
    | [] => .ok (false, cursor)
    | found :: rest =>
        if found.token = token then .ok (true, ⟨found.line, rest⟩) else .ok (false, cursor)

def identifier : Read String := do
  match ← next "identifier" with
  | .identifier name => pure name
  | other => unexpected "identifier" other

def integer : Read Nat := do
  match ← next "integer" with
  | .int value => pure value
  | other => unexpected "integer" other

/-- A reader that never goes back. -/
def Shrinks (reader : Read α) : Prop :=
  ∀ cursor value after, reader cursor = .ok (value, after) → after.size ≤ cursor.size

theorem shrinks_pure (value : α) : Shrinks (pure value : Read α) := by
  intro cursor result after h
  cases h
  exact Nat.le_refl _

theorem shrinks_bind {reader : Read α} {next : α → Read β} (first : Shrinks reader)
    (second : ∀ value, Shrinks (next value)) : Shrinks (reader >>= next) := by
  intro cursor result after h
  simp only [bind] at h
  split at h
  · rename_i value middle found
    exact Nat.le_trans (second value middle result after h) (first cursor value middle found)
  · cases h

theorem shrinks_fail (cause : CircuitError) : Shrinks (fail cause : Read α) := by
  intro cursor result after h
  cases h

theorem shrinks_unexpected (expected : String) (found : Token) :
    Shrinks (unexpected expected found : Read α) := by
  intro cursor result after h
  cases h

theorem shrinks_lift (outcome : Outcome CircuitError α) : Shrinks (lift outcome) := by
  intro cursor result after h
  cases outcome with
  | ok value =>
      cases h
      exact Nat.le_refl _
  | error fault => cases h

theorem shrinks_liftExcept (outcome : Except CircuitError α) : Shrinks (liftExcept outcome) :=
  shrinks_lift _

theorem size_next {missing : String} {cursor after : Cursor} {token : Token}
    (h : next missing cursor = .ok (token, after)) : after.size < cursor.size := by
  obtain ⟨line, rest⟩ := cursor
  cases rest with
  | nil => cases h
  | cons found rest =>
      cases h
      simp [Cursor.size]

theorem shrinks_next (missing : String) : Shrinks (next missing) :=
  fun _ _ _ h => Nat.le_of_lt (size_next h)

theorem shrinks_expect (token : Token) : Shrinks (expect token) := by
  refine shrinks_bind (shrinks_next _) fun found => ?_
  split
  · exact shrinks_pure _
  · exact shrinks_unexpected _ _

theorem shrinks_accept (token : Token) : Shrinks (accept token) := by
  intro cursor result after h
  obtain ⟨line, rest⟩ := cursor
  cases rest with
  | nil =>
      cases h
      exact Nat.le_refl _
  | cons found rest =>
      simp only [accept] at h
      split at h
      · cases h
        simp [Cursor.size]
      · cases h
        exact Nat.le_refl _

theorem shrinks_identifier : Shrinks identifier := by
  refine shrinks_bind (shrinks_next _) fun found => ?_
  split
  · exact shrinks_pure _
  · exact shrinks_unexpected _ _

theorem shrinks_integer : Shrinks integer := by
  refine shrinks_bind (shrinks_next _) fun found => ?_
  split
  · exact shrinks_pure _
  · exact shrinks_unexpected _ _

end Read

end HybridQuantum.Circuit
