import HybridQuantum.Proofs.Types.Resolvable
import Mathlib.Data.List.Chain
import Mathlib.Data.List.Nodup
import Mathlib.Data.List.TakeWhile

/-!
# Definition cycles

A cycle is a closed walk through member types that meets no name twice but the
one it closes on.  The search for cycles and the walks that sum sizes report
nothing else as a cycle, since each carries the walk that led to it.  What the
search has finished is accessible through member types, so it finds a cycle
whenever there is one.
-/

namespace HybridQuantum

namespace TypeTable

variable {table : TypeTable} {path : List Name} {name other : Name}

/-- A walk through member types from a name back to itself, with no other repetition. -/
structure IsCycle (table : TypeTable) (path : List Name) : Prop where
  long : 2 ≤ path.length
  closed : path.head? = path.getLast?
  distinct : path.dropLast.Nodup
  steps : path.IsChain table.Refers

theorem IsCycle.exists_transGen (cycle : table.IsCycle path) :
    ∃ name, Relation.TransGen table.Refers name name := by
  obtain ⟨long, closed, -, steps⟩ := cycle
  match path with
  | [] => simp at long
  | [_] => simp at long
  | first :: second :: rest =>
      have last : (second :: rest).getLast? = some first := by
        rw [← List.getLast?_cons_cons, ← closed, List.head?_cons]
      have returns : first ∈ second :: rest := List.mem_of_getLast? last
      have far := steps.imp fun _ _ => Relation.TransGen.single
      exact ⟨first, far.rel_cons returns⟩

/-- A walk without repetition that leads to a name. -/
structure LeadsTo (table : TypeTable) (path : List Name) (name : Name) : Prop where
  distinct : path.Nodup
  steps : (path ++ [name]).IsChain table.Refers

namespace LeadsTo

theorem nil (name : Name) : table.LeadsTo [] name :=
  ⟨List.nodup_nil, .singleton name⟩

theorem push (leads : table.LeadsTo path name) (fresh : name ∉ path)
    (refers : table.Refers name other) : table.LeadsTo (path ++ [name]) other where
  distinct := by
    rw [← List.concat_eq_append]
    exact List.Nodup.concat fresh leads.distinct
  steps := by
    refine leads.steps.append (.singleton other) ?_
    simpa using refers

theorem isCycle (leads : table.LeadsTo path name) (onPath : name ∈ path) :
    table.IsCycle (closeCycle path name) := by
  obtain ⟨first, rest, shape⟩ : ∃ first rest, path.dropWhile (· ≠ name) = first :: rest := by
    refine List.exists_cons_of_ne_nil fun empty => ?_
    simpa using List.dropWhile_eq_nil_iff.1 empty name onPath
  have same : first = name := by
    have stops := List.head?_dropWhile_not (· ≠ name) path
    rw [shape] at stops
    simpa using stops
  have suffix : first :: rest <:+ path := by
    rw [← shape]
    exact List.dropWhile_suffix _
  have last : (first :: rest ++ [name]).getLast? = some name := List.getLast?_concat
  rw [closeCycle, shape]
  refine ⟨by simp, by rw [last, same]; rfl, ?_, ?_⟩
  · rw [List.dropLast_concat]
    exact leads.distinct.sublist suffix.sublist
  · exact leads.steps.suffix (List.suffix_append_self_iff.2 suffix)

end LeadsTo

section Search

variable {cause : TypeError}

mutual

/-- The search reports nothing but cycles. -/
theorem isCycle_of_visit {path finished : List Name} (name : Name)
    (leads : table.LeadsTo path name)
    (failed : table.visit path finished name = .error cause) :
    ∃ cycle, cause = .definitionCycle cycle ∧ table.IsCycle cycle := by
  rw [visit] at failed
  split at failed
  · cases failed
  split at failed
  · rename_i onPath
    cases failed
    exact ⟨_, rfl, leads.isCycle onPath⟩
  rename_i fresh
  split at failed
  · cases failed
  · rename_i type found
    have shorter := table.pending_append_lt (mem_names_of_get?_eq_some found) fresh
    split at failed
    · cases failed
    · rename_i inner refused
      cases failed
      exact isCycle_of_visitAll type.memberTypes
        (fun other member => leads.push fresh ⟨type, found, member⟩) refused
termination_by (table.pending path, 0)
decreasing_by
  exact Prod.Lex.left _ _ shorter

theorem isCycle_of_visitAll {path finished : List Name} (names : List Name)
    (leads : ∀ name ∈ names, table.LeadsTo path name)
    (failed : table.visitAll path finished names = .error cause) :
    ∃ cycle, cause = .definitionCycle cycle ∧ table.IsCycle cycle := by
  match names with
  | [] =>
      rw [visitAll] at failed
      cases failed
  | name :: rest =>
      rw [visitAll] at failed
      split at failed
      · exact isCycle_of_visitAll rest
          (fun other member => leads other (List.mem_cons_of_mem _ member)) failed
      · rename_i inner refused
        cases failed
        exact isCycle_of_visit name (leads name List.mem_cons_self) refused
termination_by (table.pending path, names.length + 1)

end

/--
Every walk through member types from a name comes to an end.  A finished name may have been
finished from another root and along another path; this is what is kept of it, without a path.
-/
abbrev Grounded (table : TypeTable) : Name → Prop :=
  Acc fun other name => table.Refers name other

mutual

theorem grounded_of_visit {path finished result : List Name} (name : Name)
    (grounded : ∀ other ∈ finished, table.Grounded other)
    (visited : table.visit path finished name = .ok result) :
    table.Grounded name ∧ ∀ other ∈ result, table.Grounded other := by
  rw [visit] at visited
  split at visited
  · rename_i known
    cases visited
    exact ⟨grounded name known, grounded⟩
  split at visited
  · cases visited
  rename_i fresh
  split at visited
  · rename_i missing
    cases visited
    refine ⟨⟨_, ?_⟩, grounded⟩
    rintro other ⟨type, found, -⟩
    rw [missing] at found
    cases found
  · rename_i type found
    have shorter := table.pending_append_lt (mem_names_of_get?_eq_some found) fresh
    split at visited
    · rename_i deeper below
      cases visited
      obtain ⟨members, others⟩ := grounded_of_visitAll type.memberTypes grounded below
      have here : table.Grounded name := by
        refine ⟨_, ?_⟩
        rintro other ⟨type', found', member⟩
        rw [found] at found'
        cases found'
        exact members other member
      exact ⟨here, List.forall_mem_cons.2 ⟨here, others⟩⟩
    · cases visited
termination_by (table.pending path, 0)
decreasing_by
  exact Prod.Lex.left _ _ shorter

theorem grounded_of_visitAll {path finished result : List Name} (names : List Name)
    (grounded : ∀ other ∈ finished, table.Grounded other)
    (visited : table.visitAll path finished names = .ok result) :
    (∀ name ∈ names, table.Grounded name) ∧ ∀ other ∈ result, table.Grounded other := by
  match names with
  | [] =>
      rw [visitAll] at visited
      cases visited
      exact ⟨by simp, grounded⟩
  | name :: rest =>
      rw [visitAll] at visited
      split at visited
      · rename_i next first
        obtain ⟨here, groundedNext⟩ := grounded_of_visit name grounded first
        obtain ⟨later, groundedLast⟩ := grounded_of_visitAll rest groundedNext visited
        exact ⟨List.forall_mem_cons.2 ⟨here, later⟩, groundedLast⟩
      · cases visited
termination_by (table.pending path, names.length + 1)

end

theorem isCycle_of_detectCycles (failed : table.detectCycles = .error cause) :
    ∃ cycle, cause = .definitionCycle cycle ∧ table.IsCycle cycle := by
  unfold detectCycles at failed
  split at failed
  · cases failed
  · rename_i inner refused
    cases failed
    exact isCycle_of_visitAll table.names (fun name _ => .nil name) refused

theorem mem_names_of_transGen (cycle : Relation.TransGen table.Refers name other) :
    name ∈ table.names := by
  obtain ⟨next, ⟨type, found, -⟩, -⟩ := Relation.TransGen.head'_iff.1 cycle
  exact mem_names_of_get?_eq_some found

/-- The search goes through exactly when no declared type contains itself. -/
theorem detectCycles_eq_ok_iff :
    table.detectCycles = .ok () ↔
      ∀ name ∈ table.names, ¬ Relation.TransGen table.Refers name name := by
  constructor
  · intro passed name declared
    unfold detectCycles at passed
    split at passed
    · rename_i finished visited
      obtain ⟨grounded, -⟩ := grounded_of_visitAll table.names (by simp) visited
      exact not_transGen_self_of_acc (grounded name declared)
    · cases passed
  · intro acyclic
    cases outcome : table.detectCycles with
    | ok done => rfl
    | error cause =>
        obtain ⟨cycle, -, isCycle⟩ := isCycle_of_detectCycles outcome
        obtain ⟨name, returns⟩ := isCycle.exists_transGen
        exact absurd returns (acyclic name (mem_names_of_transGen returns))

end Search

section Sums

variable {σ : Type} {measure : Measure σ}

/-- A measure that reports no cycles of its own and hands on those that are reported to it. -/
structure HandsCyclesOn (measure : Measure σ) : Prop where
  refusal : ∀ type cycle, measure.refusal type ≠ some (.definitionCycle cycle)
  relabel : ∀ name cause cycle, measure.relabel name cause = .definitionCycle cycle →
    cause = .definitionCycle cycle
  clash : ∀ known total cycle, measure.clash known total ≠ some (.definitionCycle cycle)

theorem handsCyclesOn_indices : HandsCyclesOn Measure.indices where
  refusal type cycle := by simp [Measure.indices]
  relabel name cause cycle same := same
  clash known total cycle := by simp [Measure.indices]

theorem handsCyclesOn_bits : HandsCyclesOn Measure.bits where
  refusal type cycle := by
    simp only [Measure.bits]
    split <;> simp
  relabel name cause cycle same := by
    simp only [Measure.bits] at same
    split at same
    · cases same
    · exact same
  clash known total cycle := by simp [Measure.bits]

mutual

/-- The walks that sum sizes report nothing but cycles as cycles, whatever they remember. -/
theorem isCycle_of_measureOf (hands : HandsCyclesOn measure) {path : List Name} {sums : Sums σ}
    (name : Name) {cycle : List Name} (leads : table.LeadsTo path name)
    (failed : (measureOf measure table path sums name).1 = .fail (.definitionCycle cycle)) :
    table.IsCycle cycle := by
  rw [measureOf] at failed
  split at failed
  · rename_i onPath
    cases failed
    exact leads.isCycle onPath
  rename_i fresh
  split at failed
  · cases failed
  rename_i type found
  split at failed
  · cases failed
  split at failed
  · rename_i cause refused
    cases failed
    exact absurd refused (hands.refusal type cycle)
  split at failed
  · rename_i cause refused
    cases failed
    exact absurd refused (dependencies_ne_definitionCycle cycle)
  · rename_i memberTypes members
    have shorter := table.pending_append_lt (mem_names_of_get?_eq_some found) fresh
    have below : ∀ other ∈ memberTypes, table.LeadsTo (path ++ [name]) other :=
      fun other member => leads.push fresh (refers_of_mem found members member)
    split at failed
    · cases failed
    · rename_i cause sums' summing
      injection failed with failed
      injection failed with failed
      rw [hands.relabel name cause cycle failed] at summing
      exact isCycle_of_measureAll hands memberTypes below (congrArg Prod.fst summing)
    · rename_i total sums' summing
      split at failed
      · rename_i cause clashes
        cases failed
        obtain ⟨known, -, clash⟩ := Option.bind_eq_some_iff.1 clashes
        exact absurd clash (hands.clash known total cycle)
      · cases failed
termination_by (table.pending path, 0)
decreasing_by
  exact Prod.Lex.left _ _ shorter

theorem isCycle_of_measureAll (hands : HandsCyclesOn measure) {path : List Name} {sums : Sums σ}
    {total : σ} (names : List Name) {cycle : List Name}
    (leads : ∀ name ∈ names, table.LeadsTo path name)
    (failed : (measureAll measure table path sums total names).1 =
      .fail (.definitionCycle cycle)) : table.IsCycle cycle := by
  match names with
  | [] =>
      rw [measureAll] at failed
      cases failed
  | name :: rest =>
      rw [measureAll] at failed
      split at failed
      · rename_i fault sums' first
        cases failed
        exact isCycle_of_measureOf hands name (leads name List.mem_cons_self)
          (congrArg Prod.fst first)
      · split at failed
        · cases failed
        · exact isCycle_of_measureAll hands rest
            (fun other member => leads other (List.mem_cons_of_mem _ member)) failed
termination_by (table.pending path, names.length + 1)

end

theorem isCycle_of_resolveQSize {cycle : List Name}
    (failed : (table.resolveQSize name).1 = .fail (.definitionCycle cycle)) :
    table.IsCycle cycle :=
  isCycle_of_measureOf handsCyclesOn_indices name (.nil name) failed

theorem isCycle_of_resolveSize {cycle : List Name}
    (failed : (table.resolveSize name).1 = .fail (.definitionCycle cycle)) :
    table.IsCycle cycle :=
  isCycle_of_measureOf handsCyclesOn_bits name (.nil name) failed

end Sums

end TypeTable

end HybridQuantum
