/-!
# Early stops

A computation of this library stops early in one of two ways: an error of its
domain, which callers inspect and report, or a sum of machine words that has no
representation, which nobody handles.  `Outcome` keeps the two apart.
-/

namespace HybridQuantum

/-- Why a computation stopped: a word sum without a representation, or an error of the domain. -/
inductive Fault (ε : Type) where
  | overflow
  | error (cause : ε)
deriving DecidableEq, Repr

/-- A computation that yields a value of `α`, an error of `ε`, or runs out of its word width. -/
abbrev Outcome (ε α : Type) := Except (Fault ε) α

namespace Outcome

/-- Stop with an error of the domain. -/
def fail {ε α : Type} (cause : ε) : Outcome ε α :=
  .error (.error cause)

/-- A checked sum: no representation means overflow. -/
def ofWord {ε α : Type} : Option α → Outcome ε α
  | some value => .ok value
  | none => .error .overflow

/-- A computation that cannot overflow. -/
def ofExcept {ε α : Type} : Except ε α → Outcome ε α
  | .ok value => .ok value
  | .error cause => fail cause

/-- Read the errors of one domain as errors of another. -/
def mapError {ε δ α : Type} (embed : ε → δ) : Outcome ε α → Outcome δ α
  | .ok value => .ok value
  | .error .overflow => .error .overflow
  | .error (.error cause) => fail (embed cause)

theorem ofExcept_eq_ok_iff {ε α : Type} {answer : Except ε α} {value : α} :
    ofExcept answer = .ok value ↔ answer = .ok value := by
  cases answer <;> simp [ofExcept, fail]

theorem mapError_eq_ok_iff {ε δ α : Type} {embed : ε → δ} {answer : Outcome ε α} {value : α} :
    answer.mapError embed = .ok value ↔ answer = .ok value := by
  cases answer with
  | ok other => simp [mapError]
  | error fault => cases fault <;> simp [mapError, fail]

end Outcome

@[simp]
theorem ok_bind {ε α β : Type} (value : α) (next : α → Except ε β) :
    (Except.ok value >>= next) = next value :=
  rfl

/-- A computation that goes through hands its value on. -/
theorem exists_of_bind_eq_ok {ε α β : Type} {first : Except ε α} {next : α → Except ε β}
    {result : β} (done : first >>= next = .ok result) :
    ∃ value, first = .ok value ∧ next value = .ok result := by
  cases first with
  | error cause => cases done
  | ok value => exact ⟨value, rfl, done⟩

/-- Checks in order succeed exactly when each of them does. -/
theorem forM_eq_ok_iff {ε α : Type} {items : List α} {check : α → Except ε Unit} :
    items.forM check = .ok () ↔ ∀ item ∈ items, check item = .ok () := by
  induction items with
  | nil => simp [pure, Except.pure]
  | cons item rest ih =>
      change (check item >>= fun _ => rest.forM check) = .ok () ↔ _
      rw [List.forall_mem_cons, ← ih]
      cases check item with
      | ok done => simp
      | error cause => simp [bind, Except.bind]

end HybridQuantum
