import HybridQuantum.Proofs.Execution.Histogram
import Mathlib.Algebra.BigOperators.Group.List.Basic

/-!
# Tallied draws

The draws of a circuit are tallied by basis state and then counted by readout.
As long as their number is a word no sum on the way overflows, and the draws are
neither lost nor multiplied, however the basis states share their readouts and in
whatever order the tally is gone through.
-/

namespace HybridQuantum

namespace Circuit

/-- How many draws a tally stands for. -/
def drawn (tally : FiniteMap Nat UInt64) : Nat :=
  (tally.values.map UInt64.toNat).sum

variable {tally : FiniteMap Nat UInt64} {outcome : Nat}

theorem toNat_getD_get?_le_drawn (tally : FiniteMap Nat UInt64) (outcome : Nat) :
    ((tally.get? outcome).getD 0).toNat ≤ drawn tally := by
  cases found : tally.get? outcome with
  | none => exact Nat.zero_le _
  | some count =>
      rw [drawn, ((FiniteMap.values_perm_of_get?_eq_some found).map UInt64.toNat).sum_eq,
        List.map_cons, List.sum_cons]
      exact Nat.le_add_right _ _

theorem drawn_insert {count : UInt64}
    (added : Word.add64? ((tally.get? outcome).getD 0) 1 = some count) :
    drawn (tally.insert outcome count) = drawn tally + 1 := by
  have more := Word.toNat_of_add64?_eq_some added
  cases found : tally.get? outcome with
  | none =>
      rw [found] at more
      rw [drawn, FiniteMap.values_insert_of_get?_eq_none found, List.map_cons, List.sum_cons, more]
      exact Nat.add_comm _ _
  | some held =>
      rw [found, Option.getD_some] at more
      have new : drawn (tally.insert outcome count) = count.toNat + drawn (tally.erase outcome) :=
        rfl
      rw [new, drawn, drawn,
        ((FiniteMap.values_perm_of_get?_eq_some found).map UInt64.toNat).sum_eq, List.map_cons,
        List.sum_cons, more]
      simp only [UInt64.toNat_one]
      omega

/-- One more draw is counted unless the draws are too many for a word. -/
theorem exists_countDraw? (tally : FiniteMap Nat UInt64) (outcome : Nat)
    (small : drawn tally + 1 < UInt64.size) :
    ∃ result, countDraw? tally outcome = some result ∧ drawn result = drawn tally + 1 := by
  have least := toNat_getD_get?_le_drawn tally outcome
  have fits : ((tally.get? outcome).getD 0).toNat + (1 : UInt64).toNat < UInt64.size := by
    rw [UInt64.toNat_one]
    omega
  have added : Word.add64? ((tally.get? outcome).getD 0) 1 =
      some ((tally.get? outcome).getD 0 + 1) := if_pos fits
  exact ⟨_, by rw [countDraw?, added]; rfl, drawn_insert added⟩

theorem exists_foldlM_countDraw? (tally : FiniteMap Nat UInt64) (outcomes : List Nat)
    (small : drawn tally + outcomes.length < UInt64.size) :
    ∃ result, outcomes.foldlM countDraw? tally = some result ∧
      drawn result = drawn tally + outcomes.length := by
  induction outcomes generalizing tally with
  | nil => exact ⟨tally, rfl, rfl⟩
  | cons outcome rest ih =>
      rw [List.length_cons] at small ⊢
      obtain ⟨next, counted, more⟩ := exists_countDraw? tally outcome (by omega)
      obtain ⟨result, folded, total⟩ := ih next (by omega)
      refine ⟨result, ?_, by omega⟩
      rw [List.foldlM_cons, counted]
      exact folded

/-- As many draws as fit a word are tallied, and the tally stands for all of them. -/
theorem exists_tally? (outcomes : List Nat) (small : outcomes.length < UInt64.size) :
    ∃ tally, tally? outcomes = some tally ∧ drawn tally = outcomes.length := by
  have none : drawn .empty = 0 := rfl
  obtain ⟨tally, tallied, total⟩ := exists_foldlM_countDraw? .empty outcomes (by omega)
  exact ⟨tally, tallied, by omega⟩

/-- One basis state drawn over and over is the only entry of the tally. -/
theorem tally?_replicate (outcome count : Nat) (small : count + 1 < UInt64.size) :
    (tally? (List.replicate (count + 1) outcome)).map FiniteMap.entries =
      some [(outcome, UInt64.ofNat (count + 1))] := by
  induction count with
  | zero => rfl
  | succ count ih =>
      obtain ⟨tally, earlier, entries⟩ := Option.map_eq_some_iff.1 (ih (by omega))
      have held : tally.get? outcome = some (UInt64.ofNat (count + 1)) := by
        simp [FiniteMap.get?, entries]
      have added : Word.add64? ((tally.get? outcome).getD 0) 1 =
          some (UInt64.ofNat (count + 1 + 1)) := by
        rw [held]
        exact Counts.add64?_one small
      rw [tally?] at earlier
      rw [tally?, List.replicate_succ', List.foldlM_append, earlier]
      simp [countDraw?, added, FiniteMap.insert, FiniteMap.erase, entries]

end Circuit

end HybridQuantum
