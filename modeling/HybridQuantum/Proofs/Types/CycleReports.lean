import HybridQuantum.Proofs.Types.History

/-!
# Cycle search and size resolution agree

A name that contains itself has no size: summing up its members never comes to
an end without a record to stop at, and no calls on a table ever put a record on
such a name.  So the search for cycles and the resolution of sizes see the same
cycles.  A type that was sized in one table keeps its record in another one, where
its members may lead back to it; there the record hides the cycle.
-/

namespace HybridQuantum

namespace TypeTable

variable {σ : Type} {measure : Measure σ} {table : TypeTable}

mutual

/-- What a walk finds has a derivation over the records of the table, whatever they are. -/
theorem sized_of_measureOf (path : List Name) {sums : Sums σ} (name : Name)
    (sized : ∀ other value, sums.get? other = some value → Sized measure table other value) :
    (∀ value, (measureOf measure table path sums name).1 = .ok value →
        Sized measure table name value) ∧
      ∀ other value, (measureOf measure table path sums name).2.get? other = some value →
        Sized measure table other value := by
  rw [measureOf]
  split
  · exact ⟨by rintro value ⟨⟩, sized⟩
  rename_i fresh
  split
  · exact ⟨by rintro value ⟨⟩, sized⟩
  rename_i type found
  split
  · rename_i known memo
    refine ⟨?_, sized⟩
    rintro value ⟨⟩
    rcases Option.or_eq_some_iff.1 memo with earlier | ⟨-, recorded⟩
    · exact sized name known earlier
    · exact .own found recorded
  rename_i memo
  split
  · exact ⟨by rintro value ⟨⟩, sized⟩
  rename_i allowed
  split
  · exact ⟨by rintro value ⟨⟩, sized⟩
  rename_i memberTypes members
  have shorter := table.pending_append_lt (mem_names_of_get?_eq_some found) fresh
  have unknown : measure.recorded type = none := (Option.or_eq_none_iff.1 memo).2
  obtain ⟨summed, after⟩ := sizedAll_of_measureAll (path ++ [name]) measure.zero memberTypes
    sized
  split
  · rename_i sums' outcome
    rw [outcome] at after
    exact ⟨by rintro value ⟨⟩, after⟩
  · rename_i cause sums' outcome
    rw [outcome] at after
    exact ⟨by rintro value ⟨⟩, after⟩
  · rename_i total sums' outcome
    rw [outcome] at after summed
    have here : Sized measure table name total :=
      .sum found unknown allowed members (summed total rfl)
    split
    · exact ⟨by rintro value ⟨⟩, after⟩
    · refine ⟨by rintro value ⟨⟩; exact here, ?_⟩
      intro other value held
      rw [FiniteMap.get?_insert] at held
      split at held
      · rename_i same
        cases held
        rw [same]
        exact here
      · exact after other value held
termination_by (table.pending path, 0)
decreasing_by
  exact Prod.Lex.left _ _ shorter

theorem sizedAll_of_measureAll (path : List Name) {sums : Sums σ} (total : σ) (names : List Name)
    (sized : ∀ other value, sums.get? other = some value → Sized measure table other value) :
    (∀ result, (measureAll measure table path sums total names).1 = .ok result →
        SizedAll measure table total names result) ∧
      ∀ other value, (measureAll measure table path sums total names).2.get? other = some value →
        Sized measure table other value := by
  match names with
  | [] =>
      rw [measureAll]
      refine ⟨?_, sized⟩
      rintro result ⟨⟩
      exact .nil total
  | name :: rest =>
      obtain ⟨first, after⟩ := sized_of_measureOf path name sized
      rw [measureAll]
      split
      · rename_i fault sums' outcome
        rw [outcome] at after
        exact ⟨by rintro result ⟨⟩, after⟩
      · rename_i part sums' outcome
        rw [outcome] at first after
        split
        · exact ⟨by rintro result ⟨⟩, after⟩
        · rename_i next added
          obtain ⟨others, last⟩ := sizedAll_of_measureAll path next rest after
          exact ⟨fun result done => .cons (first part rfl) added (others result done), last⟩
termination_by (table.pending path, names.length + 1)

end

/-- A cycle through types without records leaves all its names without a measure. -/
theorem exists_error_of_descends {name : Name}
    (cycle : Relation.TransGen (table.Descends measure) name name) :
    ∃ fault, (measureOf measure table [] .empty name).1 = .error fault := by
  cases outcome : (measureOf measure table [] .empty name).1 with
  | error fault => exact ⟨fault, rfl⟩
  | ok value =>
      have empty : ∀ other value, (FiniteMap.empty : Sums σ).get? other = some value →
          Sized measure table other value := by
        intro other value held
        cases held
      have sized := (sized_of_measureOf [] name empty).1 value outcome
      exact absurd cycle (not_transGen_self_of_acc sized.acc_descends)

namespace Sound

/-- Records that have derivations hide no cycle. -/
theorem exists_error_of_transGen (sound : table.Sound) {name : Name}
    (cycle : Relation.TransGen table.Refers name name) :
    (∃ fault, (table.resolveQSize name).1 = .error fault) ∧
      ∃ fault, (table.resolveSize name).1 = .error fault := by
  rw [← refers_declared] at cycle
  constructor
  · cases outcome : (table.resolveQSize name).1 with
    | error fault => exact ⟨fault, rfl⟩
    | ok value =>
        have sized := sound.resolveQSize_eq_ok_iff.1 outcome
        have accessible := sized.acc (sound.recordsLeaves recordsSums_indices)
        exact absurd cycle (not_transGen_self_of_acc accessible)
  · cases outcome : (table.resolveSize name).1 with
    | error fault => exact ⟨fault, rfl⟩
    | ok value =>
        have sized := sound.resolveSize_eq_ok_iff.1 outcome
        have accessible := sized.acc (sound.recordsLeaves recordsSums_bits)
        exact absurd cycle (not_transGen_self_of_acc accessible)

end Sound

/--
On every table the search for cycles goes through exactly when no declared type
contains itself, and otherwise reports a cycle.  Where a size has a cycle reported
it is one, so none is reported once the search has gone through.  A name on a cycle
has no size, unless a type on every one of its cycles carries a record; and on a
table that calls on a new one lead to, it has none at all.
-/
theorem detectCycles_agrees (table : TypeTable) :
    (table.detectCycles = .ok () ↔
        ∀ name ∈ table.names, ¬ Relation.TransGen table.Refers name name) ∧
      (∀ cause, table.detectCycles = .error cause →
        ∃ path, cause = .definitionCycle path ∧ table.IsCycle path) ∧
      (∀ name path, (table.resolveQSize name).1 = .fail (.definitionCycle path) ∨
        (table.resolveSize name).1 = .fail (.definitionCycle path) → table.IsCycle path) ∧
      (table.detectCycles = .ok () → ∀ name path,
        (table.resolveQSize name).1 ≠ .fail (.definitionCycle path) ∧
          (table.resolveSize name).1 ≠ .fail (.definitionCycle path)) ∧
      (∀ name,
        (Relation.TransGen (table.Descends .indices) name name →
          ∃ fault, (table.resolveQSize name).1 = .error fault) ∧
        (Relation.TransGen (table.Descends .bits) name name →
          ∃ fault, (table.resolveSize name).1 = .error fault)) ∧
      (∀ start calls, start = .empty ∨ start = .builtins → TableCall.run start calls = table →
        ∀ name, Relation.TransGen table.Refers name name →
          (∃ fault, (table.resolveQSize name).1 = .error fault) ∧
            ∃ fault, (table.resolveSize name).1 = .error fault) := by
  refine ⟨detectCycles_eq_ok_iff, fun _ => isCycle_of_detectCycles, ?_, ?_, ?_, ?_⟩
  · rintro name path (failed | failed)
    · exact isCycle_of_resolveQSize failed
    · exact isCycle_of_resolveSize failed
  · intro passed name path
    have noCycle : ¬ table.IsCycle path := by
      intro cycle
      obtain ⟨other, returns⟩ := cycle.exists_transGen
      exact detectCycles_eq_ok_iff.1 passed other (mem_names_of_transGen returns) returns
    exact ⟨fun failed => noCycle (isCycle_of_resolveQSize failed),
      fun failed => noCycle (isCycle_of_resolveSize failed)⟩
  · intro name
    exact ⟨exists_error_of_descends, exists_error_of_descends⟩
  · intro start calls new reached name cycle
    exact (TableCall.sound_of_run_new new reached).exists_error_of_transGen cycle

/-- A list of pairs whose second type leads back to the first. -/
def listCalls : List TableCall :=
  [.add (.user (.ofLeaf "@pair") .struct
      [.typed "@a" (.ofLeaf "@bool"), .typed "@b" (.ofLeaf "@bool")]),
    .add (.user (.ofLeaf "@list") .struct
      [.typed "@head" (.ofLeaf "@pair"), .typed "@tail" (.ofLeaf "@rest")]),
    .add (.user (.ofLeaf "@rest") .struct
      [.typed "@item" (.ofLeaf "@pair"), .typed "@list" (.ofLeaf "@list")])]

def listTable : TypeTable where
  types :=
    [⟨.ofLeaf "@pair", .struct,
        [.typed "@a" (.ofLeaf "@bool"), .typed "@b" (.ofLeaf "@bool")], .unset, none, false⟩,
      ⟨.ofLeaf "@list", .struct,
        [.typed "@head" (.ofLeaf "@pair"), .typed "@tail" (.ofLeaf "@rest")], .unset, none, false⟩,
      ⟨.ofLeaf "@rest", .struct,
        [.typed "@item" (.ofLeaf "@pair"), .typed "@list" (.ofLeaf "@list")], .unset, none, false⟩]
  distinct := by decide

/-- The builtins have no cycle, and the list has one from its first type back to itself. -/
theorem detectCycles_agrees_sample :
    builtins.detectCycles = .ok () ∧
      (∀ name path, (builtins.resolveQSize name).1 ≠ .fail (.definitionCycle path)) ∧
      TableCall.run .empty listCalls = listTable ∧
      listTable.detectCycles =
        .error (.definitionCycle [.ofLeaf "@list", .ofLeaf "@rest", .ofLeaf "@list"]) ∧
      listTable.IsCycle [.ofLeaf "@list", .ofLeaf "@rest", .ofLeaf "@list"] ∧
      ∃ fault, (listTable.resolveSize (.ofLeaf "@rest")).1 = .error fault := by
  have clear : builtins.detectCycles = .ok () := by cbv
  have reached : TableCall.run .empty listCalls = listTable := rfl
  have reported : listTable.detectCycles =
      .error (.definitionCycle [.ofLeaf "@list", .ofLeaf "@rest", .ofLeaf "@list"]) := by cbv
  obtain ⟨-, -, -, silent, -, -⟩ := detectCycles_agrees builtins
  obtain ⟨-, reports, -, -, -, fails⟩ := detectCycles_agrees listTable
  obtain ⟨path, same, cycle⟩ := reports _ reported
  cases same
  have onCycle : Relation.TransGen listTable.Refers (.ofLeaf "@rest") (.ofLeaf "@rest") := by
    have steps := cycle.steps
    simp only [List.isChain_cons_cons, List.isChain_singleton, and_true] at steps
    exact .tail (.single steps.2) steps.1
  exact ⟨clear, fun name path => (silent clear name path).1, reached, reported, cycle,
    (fails .empty listCalls (.inl rfl) reached _ onCycle).2⟩

/-- A case with a box of one byte inside, resolved. -/
def caseCalls : List TableCall :=
  [.add (.builtin (.ofLeaf "u8") (.fixed 8) (.fixed 0)),
    .add (.user (.ofLeaf "box") .struct [.typed "content" (.ofLeaf "u8")]),
    .add (.user (.ofLeaf "case") .struct [.typed "inside" (.ofLeaf "box")]),
    .resolveAll]

/-- The case as it leaves that table, with its sizes on record. -/
def resolvedCase : DataType :=
  ⟨.ofLeaf "case", .struct, [.typed "inside" (.ofLeaf "box")], .fixed 8, some (.fixed 0), false⟩

/-- The resolved case in another table, where a box contains a case. -/
def recordedTable : TypeTable where
  types :=
    [resolvedCase,
      ⟨.ofLeaf "box", .struct, [.typed "content" (.ofLeaf "case")], .unset, none, false⟩]
  distinct := by decide

/--
A type that was resolved in one table may be declared in another one, and lie on a cycle
there.  The search for cycles reports it, and yet the type has both sizes.
-/
theorem resolve_recordedTable :
    (TableCall.run .empty caseCalls).get? (.ofLeaf "case") = some resolvedCase ∧
      TypeTable.empty.add resolvedCase = .ok ⟨[resolvedCase], by decide⟩ ∧
      TableCall.run ⟨[resolvedCase], by decide⟩
        [.add (.user (.ofLeaf "box") .struct [.typed "content" (.ofLeaf "case")])] =
          recordedTable ∧
      Relation.TransGen recordedTable.Refers (.ofLeaf "case") (.ofLeaf "case") ∧
      recordedTable.detectCycles =
        .error (.definitionCycle [.ofLeaf "case", .ofLeaf "box", .ofLeaf "case"]) ∧
      (recordedTable.resolveQSize (.ofLeaf "case")).1 = .ok (.fixed 0) ∧
      (recordedTable.resolveSize (.ofLeaf "case")).1 = .ok 8 := by
  have inside : recordedTable.Refers (.ofLeaf "case") (.ofLeaf "box") :=
    ⟨resolvedCase, rfl, by decide⟩
  have around : recordedTable.Refers (.ofLeaf "box") (.ofLeaf "case") := ⟨_, rfl, by decide⟩
  exact ⟨by cbv, rfl, rfl, .tail (.single inside) around, by cbv, by cbv, by cbv⟩

end TypeTable

end HybridQuantum
