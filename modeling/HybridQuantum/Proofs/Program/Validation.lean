import HybridQuantum.Program.Function
import HybridQuantum.Proofs.Types.Completion

/-!
# Valid programs

A program is valid when its type table resolves as a whole and every signature
names declared types.
-/

namespace HybridQuantum

theorem FunctionTable.validate_eq_ok_iff (functions : FunctionTable) (types : TypeTable) :
    functions.validate types = .ok () ↔
      ∀ header ∈ functions.headers, ∀ type ∈ header.types, types.contains type = true := by
  simp only [validate, forM_eq_ok_iff]
  refine forall₄_congr fun header _ type _ => ?_
  split <;> simp [*]

namespace TypeTable.Sound

variable {table : TypeTable}

theorem contains_resolveAll (sound : table.Sound) (name : Name) :
    table.resolveAll.2.contains name = table.contains name := by
  have names := names_eq_of_declared_eq sound.resolveAll.2
  rw [Bool.eq_iff_iff, contains_iff, contains_iff, names]

theorem validate_eq_ok_iff (sound : table.Sound) (functions : FunctionTable) (main : Block) :
    (Program.validate ⟨table, functions, main⟩).1 = .ok () ↔
      table.resolveAll.1 = .ok () ∧
        ∀ header ∈ functions.headers, ∀ type ∈ header.types, table.contains type = true := by
  have signatures := functions.validate_eq_ok_iff table.resolveAll.2
  simp only [sound.contains_resolveAll] at signatures
  rw [← signatures, Program.validate]
  split
  · rename_i fault types outcome
    simp only [outcome, reduceCtorEq, false_and, iff_false]
    cases fault <;> simp [Outcome.mapError, Outcome.fail]
  · rename_i types outcome
    simp only [outcome, true_and]
    exact Outcome.ofExcept_eq_ok_iff

end TypeTable.Sound

namespace TableCall

/--
After any calls on a new table, everything is resolved exactly when the table is
well formed and every sum is a word; a well-formed table fails in no other way than
by such a sum.  Then every quantum size is on record, a bit width is missing just
where an unsized builtin is reached, and resolving once more changes nothing.
Whatever the outcome, the declarations stay as they are and every record is the
total that the walk without memory finds.  A program is valid exactly when, besides
that, its signatures name declared types.
-/
theorem resolveAll_run {start table : TypeTable} {calls : List TableCall}
    (new : start = .empty ∨ start = .builtins) (reached : run start calls = table) :
    (table.resolveAll.1 = .ok () ↔ table.IsWellFormed ∧ table.Fits) ∧
      (table.Fits → table.resolveAll.1 ≠ .error .overflow) ∧
      (table.IsWellFormed →
        table.resolveAll.1 = .ok () ∨ table.resolveAll.1 = .error .overflow) ∧
      (table.resolveAll.1 = .ok () →
        (∀ type ∈ table.resolveAll.2.types, type.qsize.isSome = true ∧
          (type.size.isSet = true ↔ ¬ table.ReachesUnsized type.name)) ∧
        table.resolveAll.2.resolveAll = (.ok (), table.resolveAll.2)) ∧
      table.resolveAll.2.types.map (fun type => (type.name, type.members)) =
        table.types.map (fun type => (type.name, type.members)) ∧
      (∀ name type, table.resolveAll.2.get? name = some type →
        (∀ size, type.qsize = some size →
          table.declared.totalOf .indices [] name = .ok size) ∧
        ∀ bits, type.size.bits = some bits →
          table.declared.totalOf .bits [] name = .ok bits) ∧
      ∀ (functions : FunctionTable) (main : Block),
        (Program.validate ⟨table, functions, main⟩).1 = .ok () ↔
          (table.IsWellFormed ∧ table.Fits) ∧
            ∀ header ∈ functions.headers, ∀ type ∈ header.types, table.contains type = true := by
  have sound := sound_of_run_new new reached
  obtain ⟨shape, records⟩ := sound.records_of_resolveAll
  refine ⟨sound.resolveAll_eq_ok_iff, sound.resolveAll_ne_overflow,
    sound.resolveAll_of_isWellFormed, fun done => ⟨fun type listed => ?_, ?_⟩, shape, records, ?_⟩
  · exact ⟨(sound.isComplete_of_resolveAll done).qsizes type listed,
      sound.isSet_iff_of_resolveAll done listed⟩
  · exact sound.resolveAll_again done
  · intro functions main
    rw [sound.validate_eq_ok_iff, sound.resolveAll_eq_ok_iff]

/-- A flagged text, declared before the text, which has no bit width, and the flag. -/
def noteCalls : List TableCall :=
  [.add (.user (.ofLeaf "@note") .struct
      [.typed "@flag" (.ofLeaf "@bit"), .typed "text" (.ofLeaf "text")]),
    .add (.builtin (.ofLeaf "text") .unset .empty),
    .add (.builtin (.ofLeaf "@bit") (.fixed 1) (.fixed 1))]

def noteTable : TypeTable where
  types :=
    [⟨.ofLeaf "@note", .struct,
        [.typed "@flag" (.ofLeaf "@bit"), .typed "text" (.ofLeaf "text")], .unset, none, false⟩,
      .builtin (.ofLeaf "text") .unset .empty,
      .builtin (.ofLeaf "@bit") (.fixed 1) (.fixed 1)]
  distinct := by decide

/-- One function from a type to the note. -/
def noteFunctions (argument : Name) : FunctionTable :=
  ⟨[(⟨.ofLeaf "write", .ofLeaf "@note", [⟨"from", argument⟩]⟩, .ofInstrs [])]⟩

/-- The note is resolved once and for all, and programs about it may use declared types only. -/
theorem resolveAll_run_note :
    run .empty noteCalls = noteTable ∧ noteTable.resolveAll.1 = .ok () ∧
      noteTable.IsWellFormed ∧ noteTable.Fits ∧
      (∀ type ∈ noteTable.resolveAll.2.types,
        type.size.isSet = true ↔ ¬ noteTable.ReachesUnsized type.name) ∧
      noteTable.resolveAll.2.resolveAll = (.ok (), noteTable.resolveAll.2) ∧
      (Program.validate ⟨noteTable, noteFunctions (.ofLeaf "text"), .ofInstrs []⟩).1 = .ok () ∧
      (Program.validate ⟨noteTable, noteFunctions (.ofLeaf "line"), .ofInstrs []⟩).1 ≠ .ok () := by
  have reached : run .empty noteCalls = noteTable := rfl
  have done : noteTable.resolveAll.1 = .ok () := by cbv
  obtain ⟨exact, -, -, after, -, -, programs⟩ := resolveAll_run (.inl rfl) reached
  have formed := exact.1 done
  refine ⟨reached, done, formed.1, formed.2, fun type listed => ((after done).1 type listed).2,
    (after done).2, (programs _ _).2 ⟨formed, by decide⟩, fun valid => ?_⟩
  exact absurd (((programs _ _).1 valid).2 _ List.mem_cons_self (.ofLeaf "line") (by decide))
    (by decide)

end TableCall

end HybridQuantum
