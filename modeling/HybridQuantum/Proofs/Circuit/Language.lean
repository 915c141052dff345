import HybridQuantum.Proofs.Circuit.ExpressionLanguage
import HybridQuantum.Proofs.Circuit.RegisterLayout

/-!
# The language of the parser

The parser accepts exactly the gate programs of the grammar.  What a reader has
taken is written in the grammar, read off its steps one by one.  Conversely a
written statement is accepted under the registers declared before it, which the
draft lays out after every statement.
-/

namespace HybridQuantum.Circuit

section Gates

variable {ρ : Type}

theorem lookup_eq_some_iff_mem {α : Type} {table : List (String × α)} {key : String} {value : α}
    (distinct : (table.map Prod.fst).Nodup) :
    table.lookup key = some value ↔ (key, value) ∈ table := by
  induction table with
  | nil => simp
  | cons entry rest ih =>
      obtain ⟨own, first⟩ := entry
      obtain ⟨absent, distinct⟩ := List.nodup_cons.1 distinct
      by_cases same : key = own
      · subst same
        have gone : (key, value) ∉ rest := fun listed => absent (List.mem_map.2 ⟨_, listed, rfl⟩)
        simp [gone, eq_comm]
      · simp [List.lookup_cons, same, beq_false_of_ne same, ih distinct]

/-- The gate with a name and parameters, as the tables have it. -/
def Gate.named? (name : String) : List ρ → Option (Gate ρ)
  | [] => plain.lookup name
  | [first] => (oneParameter.lookup name).map (· first)
  | [first, second] => (twoParameters.lookup name).map (· first second)
  | [first, second, third] => (threeParameters.lookup name).map (· first second third)
  | _ => none

theorem Gate.ofName_eq_ok_iff {name : String} {parameters : List ρ} {gate : Gate ρ} :
    Gate.ofName name parameters = .ok gate ↔ Gate.named? name parameters = some gate := by
  have same : Gate.ofName name parameters =
      match Gate.named? name parameters, Gate.parameterCount? name with
      | some gate, _ => .ok gate
      | none, some expected => .error (.wrongParameterCount name expected parameters.length)
      | none, none => .error (.unknownGate name) := rfl
  rw [same]
  cases Gate.named? name parameters with
  | some found => simp
  | none => cases Gate.parameterCount? name <;> simp

theorem exists_lookup_iff {α : Type} (name : String) (count : Nat) (table : List (String × α))
    (make : α → Gate ρ) (distinct : (table.map Prod.fst).Nodup) :
    (∃ gate, (table.lookup name).map make = some gate ∧ gate.qubitCount = count) ↔
      (name, count) ∈ table.map fun entry => (entry.1, (make entry.2).qubitCount) := by
  simp only [Option.map_eq_some_iff, lookup_eq_some_iff_mem distinct, List.mem_map, Prod.mk.injEq]
  constructor
  · rintro ⟨_, ⟨item, listed, rfl⟩, rfl⟩
    exact ⟨(name, item), listed, rfl, rfl⟩
  · rintro ⟨⟨_, item⟩, listed, rfl, rfl⟩
    exact ⟨make item, ⟨item, listed, rfl⟩, rfl⟩

/-- The gates that names and parameters give are those of the grammar. -/
theorem mem_gateShapes_iff {name : String} {parameters : List ρ} {count : Nat} :
    (name, parameters.length, count) ∈ gateShapes ↔
      ∃ gate, Gate.ofName name parameters = .ok gate ∧ gate.qubitCount = count := by
  simp only [Gate.ofName_eq_ok_iff]
  match parameters with
  | [] =>
      have found := exists_lookup_iff name count Gate.plain (id : Gate ρ → Gate ρ)
        (by simp [Gate.plain])
      rw [Option.map_id] at found
      refine Iff.trans ?_ found.symm
      simp [gateShapes, Gate.plain, Gate.qubitCount]
  | [first] =>
      have found := exists_lookup_iff name count Gate.oneParameter (· first)
        (by simp [Gate.oneParameter])
      refine Iff.trans ?_ found.symm
      simp [gateShapes, Gate.oneParameter, Gate.qubitCount]
  | [first, second] =>
      have found := exists_lookup_iff name count Gate.twoParameters (· first second)
        (by simp [Gate.twoParameters])
      refine Iff.trans ?_ found.symm
      simp [gateShapes, Gate.twoParameters, Gate.qubitCount]
  | [first, second, third] =>
      have found := exists_lookup_iff name count Gate.threeParameters (· first second third)
        (by simp [Gate.threeParameters])
      refine Iff.trans ?_ found.symm
      simp [gateShapes, Gate.threeParameters, Gate.qubitCount]
  | first :: second :: third :: fourth :: rest => simp [gateShapes, Gate.named?]

end Gates

section Taking

variable {α β : Type} {cursor after : Cursor}

theorem Read.exists_of_bind {reader : Read α} {next : α → Read β} {result : β}
    (done : (reader >>= next) cursor = .ok (result, after)) :
    ∃ value between, reader cursor = .ok (value, between) ∧
      next value between = .ok (result, after) := by
  simp only [bind] at done
  split at done
  · rename_i value between found
    exact ⟨value, between, found, done⟩
  · cases done

theorem Read.lift_eq_ok_iff {outcome : Outcome CircuitError α} {value : α} :
    Read.lift outcome cursor = .ok (value, after) ↔ outcome = .ok value ∧ after = cursor := by
  cases outcome <;> simp [Read.lift, eq_comm]

theorem Read.liftExcept_eq_ok_iff {outcome : Except CircuitError α} {value : α} :
    Read.liftExcept outcome cursor = .ok (value, after) ↔ outcome = .ok value ∧ after = cursor := by
  rw [Read.liftExcept, Read.lift_eq_ok_iff, Outcome.ofExcept_eq_ok_iff]

theorem Read.tokens_of_next {missing : String} {token : Token}
    (read : Read.next missing cursor = .ok (token, after)) :
    cursor.tokens = token :: after.tokens := by
  obtain ⟨line, rest⟩ := cursor
  cases rest <;> cases read
  rfl

theorem Read.tokens_of_identifier {name : String}
    (read : Read.identifier cursor = .ok (name, after)) :
    cursor.tokens = .identifier name :: after.tokens := by
  obtain ⟨token, between, readNext, read⟩ := Read.exists_of_bind read
  cases token <;> cases read
  exact Read.tokens_of_next readNext

theorem Read.tokens_of_integer {value : Nat} (read : Read.integer cursor = .ok (value, after)) :
    cursor.tokens = .int value :: after.tokens := by
  obtain ⟨token, between, readNext, read⟩ := Read.exists_of_bind read
  cases token <;> cases read
  exact Read.tokens_of_next readNext

theorem Read.tokens_of_accept {token : Token} {taken : Bool}
    (read : Read.accept token cursor = .ok (taken, after)) :
    cursor.tokens = if taken then token :: after.tokens else after.tokens := by
  unfold Read.accept at read
  split at read
  · cases read
    rfl
  · rename_i found rest following
    split at read
    · rename_i same
      cases read
      simp [Cursor.tokens, following, same]
    · cases read
      rfl

theorem tokens_of_readArg {arg : RegisterArg} (read : readArg cursor = .ok (arg, after)) :
    cursor.tokens = arg.tokens ++ after.tokens := by
  obtain ⟨register, named, readName, read⟩ := Read.exists_of_bind read
  obtain ⟨indexed, opened, readOpen, read⟩ := Read.exists_of_bind read
  have opening := Read.tokens_of_accept readOpen
  rw [Read.tokens_of_identifier readName, opening]
  cases indexed with
  | false =>
      cases read
      rfl
  | true =>
      obtain ⟨index, between, readIndex, read⟩ := Read.exists_of_bind read
      obtain ⟨_, closed, readClose, read⟩ := Read.exists_of_bind read
      cases read
      rw [Read.tokens_of_integer readIndex, Read.tokens_of_expect readClose]
      rfl

theorem tokens_of_readMoreArgs {cursor after : Cursor} {args result : List RegisterArg}
    (read : readMoreArgs args cursor = .ok (result, after)) :
    ∃ more, result = args ++ more ∧
      cursor.tokens = (more.flatMap fun arg => .comma :: arg.tokens) ++ after.tokens := by
  rw [readMoreArgs] at read
  split at read
  · rename_i line rest following
    split at read
    · cases read
    · rename_i arg between readFirst
      have fewer : between.size < cursor.size := by
        have shrinks := shrinks_readArg ⟨line, rest⟩ arg between readFirst
        simp only [Cursor.size, following, List.length_cons] at shrinks ⊢
        omega
      obtain ⟨more, rfl, standing⟩ := tokens_of_readMoreArgs read
      refine ⟨arg :: more, by simp, ?_⟩
      rw [Cursor.tokens_of_rest_eq_cons following, tokens_of_readArg readFirst, standing]
      simp
  · cases read
    exact ⟨[], by simp, rfl⟩
termination_by cursor.size

theorem tokens_of_readArgs {args : List RegisterArg} (read : readArgs cursor = .ok (args, after)) :
    args ≠ [] ∧
      cursor.tokens = commaSeparated (args.map RegisterArg.tokens) ++ after.tokens := by
  obtain ⟨first, between, readFirst, read⟩ := Read.exists_of_bind read
  obtain ⟨more, rfl, standing⟩ := tokens_of_readMoreArgs read
  refine ⟨by simp, ?_⟩
  rw [tokens_of_readArg readFirst, standing]
  simp [commaSeparated, List.flatMap_map]

/-- The parameters of a gate are written between parentheses, or there are none. -/
inductive IsParameters : Nat → List Token → Prop where
  | absent : IsParameters 0 []
  | present {exprs : List (List Token)} (isExpr : ∀ expr ∈ exprs, IsExpr expr) :
      IsParameters exprs.length (.leftParen :: (commaSeparated exprs ++ [.rightParen]))

theorem isParameters_of_readParameters {parameters : List Expr}
    (read : readParameters cursor = .ok (parameters, after)) :
    ∃ front, cursor.tokens = front ++ after.tokens ∧ IsParameters parameters.length front := by
  obtain ⟨opened, between, readOpen, read⟩ := Read.exists_of_bind read
  rw [Read.tokens_of_accept readOpen]
  cases opened with
  | false =>
      cases read
      exact ⟨[], rfl, .absent⟩
  | true =>
      obtain ⟨values, inside, readValues, read⟩ := Read.exists_of_bind read
      obtain ⟨_, closed, readClose, read⟩ := Read.exists_of_bind read
      cases read
      obtain ⟨exprs, areExprs, sameLength, standing⟩ := isExpr_of_readExprs readValues
      refine ⟨.leftParen :: (commaSeparated exprs ++ [.rightParen]), ?_, ?_⟩
      · rw [standing, Read.tokens_of_expect readClose]
        simp
      · rw [← sameLength]
        exact .present areExprs

theorem IsParameters.written {count : Nat} {front : List Token} (shape : IsParameters count front)
    (name : String) {args : List RegisterArg} (some : args ≠ []) :
    Written (.gate name count args)
      (.identifier name :: (front ++ (commaSeparated (args.map RegisterArg.tokens) ++
        [.semicolon]))) := by
  cases shape with
  | absent => exact .gate name some
  | present isExpr => simpa using Written.parameterized name isExpr some

end Taking

section Statements

variable {registers : List Declared} {draft changed : Draft} {cursor after : Cursor}

/-- Tokens begin with an admissible statement, and the draft lays out the registers after it. -/
def Begins (registers : List Declared) (tokens : List Token) (changed : Draft)
    (rest : List Token) : Prop :=
  ∃ clause front, tokens = front ++ rest ∧ Written clause front ∧ Admissible registers clause ∧
    Lays (registers ++ clause.declares) changed

theorem begins_of_readInclude (lays : Lays registers draft)
    (read : readInclude draft cursor = .ok (changed, after)) :
    Begins registers (.inclusion :: cursor.tokens) changed after.tokens := by
  obtain ⟨token, between, readNext, read⟩ := Read.exists_of_bind read
  cases token with
  | string path =>
      obtain ⟨_, ended, readEnd, read⟩ := Read.exists_of_bind read
      cases read
      refine ⟨.inclusion, _, ?_, .inclusion path, trivial, by simpa [Clause.declares] using lays⟩
      rw [Read.tokens_of_next readNext, Read.tokens_of_expect readEnd]
      rfl
  | _ => cases read

theorem begins_of_readRegister (lays : Lays registers draft) {kind : RegisterKind}
    (read : readRegister kind draft cursor = .ok (changed, after)) :
    Begins registers (kind.word :: cursor.tokens) changed after.tokens := by
  obtain ⟨name, named, readName, read⟩ := Read.exists_of_bind read
  obtain ⟨_, opened, readOpen, read⟩ := Read.exists_of_bind read
  obtain ⟨size, sized, readSize, read⟩ := Read.exists_of_bind read
  obtain ⟨_, closed, readClose, read⟩ := Read.exists_of_bind read
  obtain ⟨_, ended, readEnd, read⟩ := Read.exists_of_bind read
  obtain ⟨declares, rfl⟩ := Read.lift_eq_ok_iff.1 read
  obtain ⟨admissible, laysAfter⟩ := (lays.declare ⟨kind, name, size⟩).of_ok changed declares
  refine ⟨.register ⟨kind, name, size⟩, _, ?_, .register _, admissible, laysAfter⟩
  rw [Read.tokens_of_identifier readName, Read.tokens_of_expect readOpen,
    Read.tokens_of_integer readSize, Read.tokens_of_expect readClose, Read.tokens_of_expect readEnd]
  rfl

theorem begins_of_readMeasure (lays : Lays registers draft)
    (read : readMeasure draft cursor = .ok (changed, after)) :
    Begins registers (.measure :: cursor.tokens) changed after.tokens := by
  obtain ⟨qubit, left, readQubit, read⟩ := Read.exists_of_bind read
  obtain ⟨_, crossed, readArrow, read⟩ := Read.exists_of_bind read
  obtain ⟨clbit, right, readClbit, read⟩ := Read.exists_of_bind read
  obtain ⟨_, ended, readEnd, read⟩ := Read.exists_of_bind read
  obtain ⟨measures, rfl⟩ := Read.liftExcept_eq_ok_iff.1 read
  obtain ⟨admissible, laysAfter⟩ := (lays.measure qubit clbit).of_ok changed measures
  refine ⟨.measure qubit clbit, _, ?_, .measure _ _, admissible,
    by simpa [Clause.declares] using laysAfter⟩
  rw [tokens_of_readArg readQubit, Read.tokens_of_expect readArrow, tokens_of_readArg readClbit,
    Read.tokens_of_expect readEnd]
  simp

theorem begins_of_readReset (lays : Lays registers draft)
    (read : readReset draft cursor = .ok (changed, after)) :
    Begins registers (.reset :: cursor.tokens) changed after.tokens := by
  obtain ⟨arg, named, readOne, read⟩ := Read.exists_of_bind read
  obtain ⟨_, ended, readEnd, read⟩ := Read.exists_of_bind read
  obtain ⟨resets, rfl⟩ := Read.liftExcept_eq_ok_iff.1 read
  obtain ⟨admissible, laysAfter⟩ := (lays.reset arg).of_ok changed resets
  refine ⟨.reset arg, _, ?_, .reset _, admissible, by simpa [Clause.declares] using laysAfter⟩
  rw [tokens_of_readArg readOne, Read.tokens_of_expect readEnd]
  simp

theorem begins_of_readBarrier (lays : Lays registers draft)
    (read : readBarrier draft cursor = .ok (changed, after)) :
    Begins registers (.barrier :: cursor.tokens) changed after.tokens := by
  obtain ⟨args, named, readAll, read⟩ := Read.exists_of_bind read
  obtain ⟨_, checked, readCheck, read⟩ := Read.exists_of_bind read
  obtain ⟨_, ended, readEnd, read⟩ := Read.exists_of_bind read
  cases read
  obtain ⟨checks, rfl⟩ := Read.liftExcept_eq_ok_iff.1 readCheck
  obtain ⟨some, standing⟩ := tokens_of_readArgs readAll
  refine ⟨.barrier args, _, ?_, .barrier some, (lays.checkBarrier args).1 checks,
    by simpa [Clause.declares] using lays.append _⟩
  rw [standing, Read.tokens_of_expect readEnd]
  simp

theorem begins_of_readGate (lays : Lays registers draft) {name : String}
    (read : readGate draft name cursor = .ok (changed, after)) :
    Begins registers (.identifier name :: cursor.tokens) changed after.tokens := by
  obtain ⟨parameters, closed, readAngles, read⟩ := Read.exists_of_bind read
  obtain ⟨gate, known, readKnown, read⟩ := Read.exists_of_bind read
  obtain ⟨args, named, readAll, read⟩ := Read.exists_of_bind read
  obtain ⟨_, ended, readEnd, read⟩ := Read.exists_of_bind read
  obtain ⟨applies, rfl⟩ := Read.liftExcept_eq_ok_iff.1 read
  obtain ⟨isGate, rfl⟩ := Read.liftExcept_eq_ok_iff.1 readKnown
  obtain ⟨⟨count, broadcasts⟩, laysAfter⟩ := (lays.applyGate name gate args).of_ok changed applies
  obtain ⟨front, standing, shape⟩ := isParameters_of_readParameters readAngles
  obtain ⟨some, standsArgs⟩ := tokens_of_readArgs readAll
  refine ⟨.gate name parameters.length args, _, ?_, shape.written name some,
    ⟨mem_gateShapes_iff.2 ⟨gate, isGate, count.symm⟩, broadcasts⟩,
    by simpa [Clause.declares] using laysAfter⟩
  rw [standing, standsArgs, Read.tokens_of_expect readEnd]
  simp

theorem begins_of_readStatement (lays : Lays registers draft) {line : Nat} {token : Token}
    (read : readStatement draft line token cursor = .ok (changed, after)) :
    Begins registers (token :: cursor.tokens) changed after.tokens := by
  unfold readStatement at read
  split at read
  · exact begins_of_readInclude lays read
  · exact begins_of_readRegister lays read
  · exact begins_of_readRegister lays read
  · exact begins_of_readMeasure lays read
  · exact begins_of_readReset lays read
  · exact begins_of_readBarrier lays read
  · exact begins_of_readGate lays read
  · cases read

theorem isBody_of_readStatements {registers : List Declared} {draft result : Draft}
    {cursor : Cursor} (lays : Lays registers draft)
    (read : readStatements draft cursor = .ok result) : IsBody registers cursor.tokens := by
  rw [readStatements] at read
  split at read
  · rename_i finished
    rw [Cursor.tokens, finished]
    exact .nil registers
  · rename_i found rest following
    split at read
    · cases read
    · rename_i changed after readOne
      have fewer : after.size < cursor.size := by
        have shrinks := shrinks_readStatement _ _ _ _ _ _ readOne
        simp only [Cursor.size, following, List.length_cons] at shrinks ⊢
        omega
      obtain ⟨clause, front, standing, written, admissible, laysAfter⟩ :=
        begins_of_readStatement lays readOne
      rw [Cursor.tokens_of_rest_eq_cons following, standing]
      exact .cons written admissible (isBody_of_readStatements laysAfter read)
termination_by cursor.size

end Statements

section Accepting

variable {α β : Type} {tokens middle rest : List Token}

/-- A reader takes some good value from the front of tokens and leaves the rest. -/
def Accepts (reader : Read α) (tokens : List Token) (good : α → Prop) (rest : List Token) : Prop :=
  ∀ cursor : Cursor, cursor.tokens = tokens →
    ∃ value after, reader cursor = .ok (value, after) ∧ good value ∧ after.tokens = rest

theorem Accepts.bind {reader : Read α} {next : α → Read β} {fits : α → Prop} {good : β → Prop}
    (first : Accepts reader tokens fits middle)
    (second : ∀ value, fits value → Accepts (next value) middle good rest) :
    Accepts (reader >>= next) tokens good rest := by
  intro cursor standing
  obtain ⟨value, between, found, fitting, standsBetween⟩ := first cursor standing
  obtain ⟨result, after, answered, holds, standsAfter⟩ :=
    second value fitting between standsBetween
  refine ⟨result, after, ?_, holds, standsAfter⟩
  simp only [Bind.bind, found]
  exact answered

theorem Reads.accepts {reader : Read α} {value : α} {good : α → Prop}
    (reads : Reads reader tokens value rest) (holds : good value) :
    Accepts reader tokens good rest := by
  intro cursor standing
  obtain ⟨after, found, standsAfter⟩ := reads cursor standing
  exact ⟨value, after, found, holds, standsAfter⟩

theorem Reads.bind_accepts {reader : Read α} {next : α → Read β} {value : α} {good : β → Prop}
    (first : Reads reader tokens value middle) (second : Accepts (next value) middle good rest) :
    Accepts (reader >>= next) tokens good rest :=
  (first.accepts rfl).bind fun _ same => same ▸ second

theorem SucceedsIff.accepts_lift {condition : Prop} {good : α → Prop}
    {outcome : Outcome CircuitError α} (succeeds : SucceedsIff condition good outcome)
    (holds : condition) : Accepts (Read.lift outcome) tokens good tokens := by
  obtain ⟨value, done⟩ := succeeds.exists_ok holds
  exact (Reads.lift done).accepts (succeeds.of_ok value done).2

theorem SucceedsIff.accepts_liftExcept {condition : Prop} {good : α → Prop}
    {outcome : Except CircuitError α} (succeeds : SucceedsIff condition good outcome)
    (holds : condition) : Accepts (Read.liftExcept outcome) tokens good tokens := by
  obtain ⟨value, done⟩ := succeeds.exists_ok holds
  exact (Reads.liftExcept done).accepts (succeeds.of_ok value done).2

/-- An argument is read before a token that opens no index. -/
theorem Reads.readArg_tokens (arg : RegisterArg) {other : Token}
    (different : other ≠ .leftBracket) :
    Reads readArg (arg.tokens ++ other :: rest) arg (other :: rest) := by
  obtain ⟨register, index⟩ := arg
  cases index with
  | none => exact readArg_whole register different
  | some index => exact readArg_index register index

theorem Reads.readMoreArgs_tokens (args more : List RegisterArg) :
    Reads (readMoreArgs args) ((more.flatMap fun arg => .comma :: arg.tokens) ++ .semicolon :: rest)
      (args ++ more) (.semicolon :: rest) := by
  induction more generalizing args with
  | nil =>
      rw [List.append_nil]
      exact readMoreArgs_none args (by simp)
  | cons arg more ih =>
      have others := ih (args ++ [arg])
      rw [List.append_assoc] at others
      rw [List.flatMap_cons, List.cons_append, List.cons_append, List.append_assoc]
      cases more <;> exact readMoreArgs_comma (readArg_tokens arg (by simp)) others

theorem Reads.readArgs_tokens {args : List RegisterArg} (some : args ≠ []) :
    Reads readArgs (commaSeparated (args.map RegisterArg.tokens) ++ .semicolon :: rest) args
      (.semicolon :: rest) := by
  cases args with
  | nil => exact absurd rfl some
  | cons first more =>
      have others : Reads (readMoreArgs [first]) _ (first :: more) (.semicolon :: rest) :=
        readMoreArgs_tokens [first] more
      rw [List.map_cons, commaSeparated, List.append_assoc, List.flatMap_map]
      cases more <;> exact bind (readArg_tokens first (by simp)) others

/-- Parameters are read to the same values whatever comes after them. -/
theorem IsParameters.exists_reads {count : Nat} {front : List Token}
    (shape : IsParameters count front) :
    ∃ parameters : List Expr, parameters.length = count ∧
      ∀ (other : Token) (rest : List Token), other ≠ .leftParen →
        Reads readParameters (front ++ other :: rest) parameters (other :: rest) := by
  cases shape with
  | absent =>
      exact ⟨[], rfl, fun other rest different =>
        (Reads.accept_other different).bind (Reads.pure [])⟩
  | @present exprs isExpr =>
      obtain ⟨parameters, sameLength, reads⟩ := readExprs_of_isExpr isExpr
      refine ⟨parameters, sameLength, fun other rest _ => ?_⟩
      rw [List.cons_append, List.append_assoc]
      exact (Reads.accept .leftParen).bind <| (reads (other :: rest)).bind <|
        (Reads.expect .rightParen).bind (Reads.pure parameters)

end Accepting

section Programs

variable {registers : List Declared} {draft : Draft} {rest : List Token}

/-- Arguments begin with the name of a register. -/
theorem exists_word_of_args {args : List RegisterArg} (some : args ≠ []) :
    ∃ word more, commaSeparated (args.map RegisterArg.tokens) ++ .semicolon :: rest =
      .identifier word :: more := by
  obtain ⟨⟨word, index⟩, others, rfl⟩ := List.exists_cons_of_ne_nil some
  cases index <;> exact ⟨word, _, rfl⟩

theorem accepts_readGate (lays : Lays registers draft) {name : String} {count : Nat}
    {front : List Token} {args : List RegisterArg} (shape : IsParameters count front)
    (some : args ≠ []) (admissible : Admissible registers (.gate name count args)) :
    Accepts (readGate draft name)
      (front ++ (commaSeparated (args.map RegisterArg.tokens) ++ .semicolon :: rest))
      (Lays registers) rest := by
  obtain ⟨listed, broadcasts⟩ := admissible
  have readsArgs : Reads readArgs _ args (.semicolon :: rest) := Reads.readArgs_tokens some
  obtain ⟨word, more, starts⟩ := @exists_word_of_args rest args some
  rw [starts] at readsArgs ⊢
  obtain ⟨parameters, sameLength, readsParameters⟩ := shape.exists_reads
  rw [← sameLength] at listed
  obtain ⟨gate, known, qubits⟩ := mem_gateShapes_iff.1 listed
  refine (readsParameters (.identifier word) more (by simp)).bind_accepts ?_
  exact (Reads.liftExcept known).bind_accepts <| readsArgs.bind_accepts <|
    (Reads.expect .semicolon).bind_accepts <|
      (lays.applyGate name gate args).accepts_liftExcept ⟨qubits.symm, broadcasts⟩

theorem Written.exists_cons {clause : Clause} {tokens : List Token}
    (written : Written clause tokens) : ∃ token front, tokens = token :: front := by
  cases written <;> exact ⟨_, _, rfl⟩

/-- A written statement is accepted when it is admissible. -/
theorem Written.accepts {clause : Clause} {token : Token} {front : List Token}
    (written : Written clause (token :: front)) (admissible : Admissible registers clause)
    (lays : Lays registers draft) (line : Nat) :
    Accepts (readStatement draft line token) (front ++ rest)
      (Lays (registers ++ clause.declares)) rest := by
  cases written with
  | inclusion path =>
      simp only [Clause.declares, List.append_nil]
      exact (Reads.next _ (.string path)).bind_accepts <| (Reads.expect .semicolon).bind_accepts <|
        (Reads.pure draft).accepts lays
  | register declared =>
      obtain ⟨kind, name, size⟩ := declared
      have same : readStatement draft line kind.word = readRegister kind draft := by
        cases kind <;> rfl
      rw [same]
      exact (Reads.identifier name).bind_accepts <| (Reads.expect .leftBracket).bind_accepts <|
        (Reads.integer size).bind_accepts <| (Reads.expect .rightBracket).bind_accepts <|
          (Reads.expect .semicolon).bind_accepts <|
            (lays.declare ⟨kind, name, size⟩).accepts_lift admissible
  | measure qubit clbit =>
      simp only [Clause.declares, List.append_nil, List.append_assoc, List.cons_append]
      exact (Reads.readArg_tokens qubit (by simp)).bind_accepts <|
        (Reads.expect .arrow).bind_accepts <|
          (Reads.readArg_tokens clbit (by simp)).bind_accepts <|
            (Reads.expect .semicolon).bind_accepts <|
              (lays.measure qubit clbit).accepts_liftExcept admissible
  | reset arg =>
      simp only [Clause.declares, List.append_nil, List.append_assoc]
      exact (Reads.readArg_tokens arg (by simp)).bind_accepts <|
        (Reads.expect .semicolon).bind_accepts <| (lays.reset arg).accepts_liftExcept admissible
  | @barrier args some =>
      simp only [Clause.declares, List.append_nil, List.append_assoc]
      exact (Reads.readArgs_tokens some).bind_accepts <|
        (Reads.liftExcept ((lays.checkBarrier args).2 admissible)).bind_accepts <|
          (Reads.expect .semicolon).bind_accepts <| (Reads.pure _).accepts (lays.append _)
  | gate name some =>
      simp only [Clause.declares, List.append_nil, List.append_assoc]
      exact accepts_readGate lays .absent some admissible
  | parameterized name isExpr some =>
      have accepts : Accepts (readGate draft name) _ (Lays registers) rest :=
        accepts_readGate lays (.present isExpr) some admissible
      simp only [List.cons_append, List.append_assoc, List.nil_append] at accepts
      simp only [Clause.declares, List.append_nil, List.cons_append, List.append_assoc]
      exact accepts

theorem IsBody.exists_readStatements {registers : List Declared} {tokens : List Token}
    (body : IsBody registers tokens) {draft : Draft} (lays : Lays registers draft) {cursor : Cursor}
    (standing : cursor.tokens = tokens) : ∃ result, readStatements draft cursor = .ok result := by
  induction body generalizing draft cursor with
  | nil => exact ⟨draft, Drafts.nil draft cursor standing⟩
  | cons written admissible _ ih =>
      obtain ⟨token, front, rfl⟩ := written.exists_cons
      obtain ⟨line, spans, following, same⟩ := Cursor.rest_of_tokens_eq_cons standing
      obtain ⟨changed, after, read, laysAfter, standsAfter⟩ :=
        written.accepts admissible lays cursor.line ⟨line, spans⟩ same
      rw [readStatements_cons following read]
      exact ih laysAfter standsAfter

theorem isSupportedVersion_iff {token : Token} :
    isSupportedVersion token = true ↔ IsVersion token := by
  constructor
  · intro supported
    unfold isSupportedVersion at supported
    split at supported
    · cases eq_of_beq supported
      exact .int
    · exact .float (eq_of_beq supported)
    · cases supported
  · rintro (_ | two)
    · rfl
    · simp [isSupportedVersion, two]

theorem exists_version_of_readHeader {cursor after : Cursor}
    (read : readHeader cursor = .ok ((), after)) :
    ∃ version, IsVersion version ∧
      cursor.tokens = .openQasm :: version :: .semicolon :: after.tokens := by
  obtain ⟨_, opened, readOpen, read⟩ := Read.exists_of_bind read
  obtain ⟨_, versioned, readVersion, readEnd⟩ := Read.exists_of_bind read
  obtain ⟨version, between, readNext, supported⟩ := Read.exists_of_bind readVersion
  split at supported
  · rename_i isSupported
    cases supported
    refine ⟨version, isSupportedVersion_iff.1 isSupported, ?_⟩
    rw [Read.tokens_of_expect readOpen, Read.tokens_of_next readNext, Read.tokens_of_expect readEnd]
  · cases supported

theorem Reads.readHeader_tokens {version : Token} (supported : IsVersion version) :
    Reads readHeader (.openQasm :: version :: .semicolon :: rest) () rest := by
  have readsVersion :
      Reads readVersion (version :: .semicolon :: rest) () (.semicolon :: rest) := by
    refine bind (next _ version) ?_
    rw [if_pos (isSupportedVersion_iff.2 supported)]
    exact pure ()
  exact bind (expect .openQasm) <| bind readsVersion (expect .semicolon)

/-- A circuit is read from tokens exactly when they are a program. -/
theorem exists_ofTokens_iff (spans : List Spanned) :
    (∃ circuit, ofTokens spans = .ok circuit) ↔ IsProgram (spans.map Spanned.token) := by
  constructor
  · rintro ⟨circuit, done⟩
    unfold ofTokens at done
    split at done
    · cases done
    · rename_i cursor readsHeader
      split at done
      · cases done
      · rename_i result readsBody
        obtain ⟨version, supported, standing⟩ := exists_version_of_readHeader readsHeader
        have program := IsProgram.intro supported (isBody_of_readStatements .empty readsBody)
        rwa [← standing] at program
  · intro program
    generalize written : spans.map Spanned.token = tokens at program
    obtain ⟨supported, body⟩ := program
    obtain ⟨cursor, readsHeader, standing⟩ := Reads.readHeader_tokens supported ⟨1, spans⟩ written
    obtain ⟨result, readsBody⟩ := body.exists_readStatements .empty standing
    simp [ofTokens, readsHeader, readsBody]

/--
Tokens give a circuit exactly when they are a program, and a text is parsed exactly
when it is written in tokens that are one.
-/
theorem exists_parse_iff_isProgram :
    (∀ spans, (∃ circuit, ofTokens spans = .ok circuit) ↔
      IsProgram (spans.map Spanned.token)) ∧
    ∀ text, (∃ circuit, parse text = .ok circuit) ↔
      ∃ spans, tokenize text = .ok spans ∧ IsProgram (spans.map Spanned.token) := by
  refine ⟨exists_ofTokens_iff, fun text => ?_⟩
  simp only [← exists_ofTokens_iff]
  unfold parse
  cases tokenize text with
  | error cause => simp [Outcome.fail]
  | ok spans => cases read : ofTokens spans <;> simp [read]

end Programs

end HybridQuantum.Circuit
