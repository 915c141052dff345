import HybridQuantum.Proofs.Circuit.Language

/-!
# Broadcasting

A statement on whole registers does what the statements on their positions do, one
after the other.  On the side of the builder both append the same operations, since
these leave the registers alone; on the side of the parser a statement takes the draft
to another one, or stops, whatever comes after it.
-/

namespace HybridQuantum.Circuit

/-- One position of an argument; a single position stays as it is. -/
def RegisterArg.single (arg : RegisterArg) (step : Nat) : RegisterArg :=
  ⟨arg.register, some (arg.index.getD step)⟩

def Span.single (span : Span) (step : Nat) : Span :=
  ⟨span.position step, none⟩

section Calls

variable {ρ : Type} {builder : Builder ρ} {registers : Registers} {args : List RegisterArg}
  {width step : Nat}

/-- Every whole register among the arguments has this size. -/
def HaveWidth (registers : Registers) (args : List RegisterArg) (width : Nat) : Prop :=
  ∀ arg ∈ args, arg.index = none →
    ∃ register, registers.get? arg.register = some register ∧ register.size = width

theorem Builder.append_append (builder : Builder ρ) (first second : List (Op ρ)) :
    (builder.append first).append second = builder.append (first ++ second) := by
  simp [Builder.append]

theorem Builder.append_nil (builder : Builder ρ) : builder.append [] = builder := by
  simp [Builder.append]

/-- Calls that append an operation each append them all. -/
theorem foldlM_append {steps : List Nat} {call : Builder ρ → Nat → Except CircuitError (Builder ρ)}
    {op : Nat → Except CircuitError (Op ρ)}
    (appends : ∀ ops, ∀ step ∈ steps,
      call (builder.append ops) step = (op step).map fun op => builder.append (ops ++ [op])) :
    steps.foldlM call builder = (steps.mapM op).map builder.append := by
  suffices later : ∀ ops, steps.foldlM call (builder.append ops) =
      (steps.mapM op).map fun more => builder.append (ops ++ more) by
    simpa [Builder.append_nil] using later []
  induction steps with
  | nil =>
      intro ops
      simp [pure, Except.pure, Except.map]
  | cons step rest ih =>
      intro ops
      have first := appends ops step (by simp)
      have others : ∀ ops, ∀ later ∈ rest,
          call (builder.append ops) later = (op later).map fun op => builder.append (ops ++ [op]) :=
        fun ops later member => appends ops later (List.mem_cons_of_mem step member)
      rw [List.foldlM_cons, List.mapM_cons, first]
      cases op step with
      | error cause => rfl
      | ok found =>
          rw [Except.map, ok_bind, ih others, ok_bind]
          cases rest.mapM op with
          | error cause => rfl
          | ok more => simp [Except.map, bind, Except.bind, pure, Except.pure]

theorem resolve_single {arg : RegisterArg} (wide : HaveWidth registers [arg] width)
    (below : step < width) :
    registers.resolve (arg.single step) = (registers.resolve arg).map (·.single step) := by
  obtain ⟨name, index⟩ := arg
  cases index with
  | none =>
      obtain ⟨register, found, rfl⟩ := wide ⟨name, none⟩ (by simp) rfl
      simp [Registers.resolve, RegisterArg.single, found, below, Except.map, Span.single,
        Span.position]
  | some index =>
      simp only [Registers.resolve, RegisterArg.single, Option.getD_some]
      cases registers.get? name with
      | none => rfl
      | some register =>
          dsimp only
          split <;> rfl

theorem mapM_resolve_single (wide : HaveWidth registers args width) (below : step < width) :
    (args.map (·.single step)).mapM registers.resolve =
      (args.mapM registers.resolve).map (List.map (·.single step)) := by
  induction args with
  | nil => rfl
  | cons arg rest ih =>
      obtain ⟨first, others⟩ := List.forall_mem_cons.1 wide
      rw [List.map_cons, List.mapM_cons, List.mapM_cons,
        resolve_single (fun arg member => List.mem_singleton.1 member ▸ first) below, ih others]
      cases registers.resolve arg with
      | error cause => rfl
      | ok span => cases rest.mapM registers.resolve <;> rfl

theorem commonWidth_single (name : String) (spans : List Span) (step : Nat) :
    Builder.commonWidth name none (spans.map (·.single step)) = .ok 1 := by
  refine Builder.commonWidth_eq_ok_iff.2 ⟨?_, fun _ _ => rfl⟩
  rintro size (impossible | ⟨span, listed, whole⟩)
  · cases impossible
  · obtain ⟨own, -, rfl⟩ := List.mem_map.1 listed
    cases whole

theorem size_of_resolve {arg : RegisterArg} {span : Span}
    (wide : ∀ register, registers.get? arg.register = some register → arg.index = none →
      register.size = width)
    (resolved : registers.resolve arg = .ok span) :
    span.size = if arg.index = none then some width else none := by
  obtain ⟨name, index⟩ := arg
  cases found : registers.get? name with
  | none => simp [Registers.resolve, found] at resolved
  | some register =>
      cases index with
      | none =>
          simp only [Registers.resolve, found, Except.ok.injEq] at resolved
          rw [← resolved, if_pos rfl, wide register found rfl]
      | some index =>
          simp only [Registers.resolve, found] at resolved
          split at resolved
          · cases resolved
            rfl
          · cases resolved

theorem commonWidth_of_resolve (name : String) (wide : HaveWidth registers args width)
    (whole : ∃ arg ∈ args, arg.index = none) {spans : List Span}
    (resolved : args.mapM registers.resolve = .ok spans) :
    Builder.commonWidth name none spans = .ok width := by
  have pairs := forall₂_of_mapM resolved
  have sized {arg : RegisterArg} {span : Span} (member : arg ∈ args)
      (done : registers.resolve arg = .ok span) :
      span.size = if arg.index = none then some width else none := by
    refine size_of_resolve (fun register found unindexed => ?_) done
    obtain ⟨other, same, ofWidth⟩ := wide arg member unindexed
    rw [found, Option.some.injEq] at same
    rw [same, ofWidth]
  refine Builder.commonWidth_eq_ok_iff.2 ⟨?_, fun _ single => ?_⟩
  · rintro size (impossible | ⟨span, listed, ofSize⟩)
    · cases impossible
    · obtain ⟨arg, member, done⟩ := exists_of_forall₂_right pairs span listed
      rw [sized member done] at ofSize
      split at ofSize
      · exact (Option.some.inj ofSize).symm
      · cases ofSize
  · obtain ⟨arg, member, unindexed⟩ := whole
    obtain ⟨span, listed, done⟩ := exists_of_forall₂_left pairs arg member
    have impossible := single span listed
    rw [sized member done, if_pos unindexed] at impossible
    cases impossible

theorem applyAt_single (name : String) (gate : Gate ρ) (spans : List Span) (step : Nat) :
    Builder.applyAt name gate (spans.map (·.single step)) 0 =
      Builder.applyAt name gate spans step := by
  have positions : (spans.map (·.single step)).map (·.position 0) =
      spans.map (·.position step) := by
    rw [List.map_map]
    rfl
  simp only [Builder.applyAt, positions]

theorem applyGate_single {name : String} {gate : Gate ρ} {spans : List Span}
    (wide : HaveWidth builder.quantum args width) (below : step < width)
    (count : args.length = gate.qubitCount)
    (resolved : args.mapM builder.quantum.resolve = .ok spans) (ops : List (Op ρ)) :
    (builder.append ops).applyGate name gate (args.map (·.single step)) =
      (Builder.applyAt name gate spans step).map fun op => builder.append (ops ++ [op]) := by
  have singles := mapM_resolve_single wide below
  rw [resolved] at singles
  have registers_eq : (builder.append ops).quantum = builder.quantum := rfl
  rw [Builder.applyGate, List.length_map, if_pos count, ok_bind, registers_eq, singles, Except.map,
    ok_bind, commonWidth_single, ok_bind, List.range_one, List.mapM_cons, List.mapM_nil,
    applyAt_single]
  cases Builder.applyAt name gate spans step with
  | error cause => rfl
  | ok op => exact congrArg Except.ok (Builder.append_append builder ops [op])

theorem applyGate_of_resolve {name : String} {gate : Gate ρ} {spans : List Span}
    (wide : HaveWidth builder.quantum args width) (whole : ∃ arg ∈ args, arg.index = none)
    (count : args.length = gate.qubitCount)
    (resolved : args.mapM builder.quantum.resolve = .ok spans) :
    builder.applyGate name gate args =
      ((List.range width).mapM (Builder.applyAt name gate spans)).map builder.append := by
  rw [Builder.applyGate, if_pos count, ok_bind, resolved, ok_bind,
    commonWidth_of_resolve name wide whole resolved, ok_bind]
  cases (List.range width).mapM (Builder.applyAt name gate spans) <;> rfl

/-- What stops a call before its qubits are compared is not a repeated qubit. -/
theorem resolve_ne_repeatedQubit {arg : RegisterArg} (name : String) :
    registers.resolve arg ≠ .error (.repeatedQubit name) := by
  unfold Registers.resolve
  split
  · simp
  · split
    · simp
    · split <;> simp

theorem exists_of_mapM_eq_error {α β : Type} {items : List α}
    {step : α → Except CircuitError β} {cause : CircuitError}
    (stopped : items.mapM step = .error cause) : ∃ item ∈ items, step item = .error cause := by
  induction items with
  | nil => cases stopped
  | cons item rest ih =>
      rw [List.mapM_cons] at stopped
      cases first : step item with
      | error found =>
          rw [first] at stopped
          cases stopped
          exact ⟨item, by simp, first⟩
      | ok value =>
          rw [first, ok_bind] at stopped
          cases others : rest.mapM step with
          | error found =>
              rw [others] at stopped
              cases stopped
              obtain ⟨later, member, stops⟩ := ih others
              exact ⟨later, by simp [member], stops⟩
          | ok values =>
              rw [others] at stopped
              cases stopped

theorem ofName_ne_repeatedQubit (name other : String) (parameters : List ρ) :
    Gate.ofName name parameters ≠ .error (.repeatedQubit other) := by
  have same : Gate.ofName name parameters =
      match Gate.named? name parameters, Gate.parameterCount? name with
      | some gate, _ => .ok gate
      | none, some expected => .error (.wrongParameterCount name expected parameters.length)
      | none, none => .error (.unknownGate name) := rfl
  rw [same]
  split <;> simp

end Calls

section Expansion

variable {ρ : Type} {name : String} {builder : Builder ρ}
  {whole : Except CircuitError (Builder ρ)}
  {single : Builder ρ → Nat → Except CircuitError (Builder ρ)} {width : Nat}

/--
A call and its calls on single positions: all stop for one cause, which is not a repeated
qubit, or each of the latter appends one operation and the former appends them all.
-/
inductive Expands (name : String) (builder : Builder ρ) (whole : Except CircuitError (Builder ρ))
    (single : Builder ρ → Nat → Except CircuitError (Builder ρ)) (width : Nat) : Prop
  | stops (cause : CircuitError) (other : cause ≠ .repeatedQubit name)
      (wholeStops : whole = .error cause)
      (singleStops : ∀ ops, ∀ step < width, single (builder.append ops) step = .error cause)
  | appends (op : Nat → Except CircuitError (Op ρ))
      (repeated : ∀ step cause, op step = .error cause → cause = .repeatedQubit name)
      (wholeAppends : whole = ((List.range width).mapM op).map builder.append)
      (singleAppends : ∀ ops, ∀ step < width,
        single (builder.append ops) step = (op step).map fun op => builder.append (ops ++ [op]))

namespace Expands

theorem whole_eq_foldlM (expands : Expands name builder whole single width) (positive : 0 < width) :
    whole = (List.range width).foldlM single builder := by
  cases expands with
  | stops cause other wholeStops singleStops =>
      obtain ⟨rest, rfl⟩ := Nat.exists_eq_succ_of_ne_zero (Nat.ne_of_gt positive)
      have first := singleStops [] 0 positive
      rw [Builder.append_nil] at first
      rw [wholeStops, List.range_succ_eq_map, List.foldlM_cons, first]
      rfl
  | appends op repeated wholeAppends singleAppends =>
      rw [wholeAppends, foldlM_append fun ops step listed =>
        singleAppends ops step (List.mem_range.1 listed)]

/-- A call that goes through does what the calls on all positions do, also when there are none. -/
theorem foldlM_of_ok (expands : Expands name builder whole single width) {changed : Builder ρ}
    (done : whole = .ok changed) : (List.range width).foldlM single builder = .ok changed := by
  rcases Nat.eq_zero_or_pos width with rfl | positive
  · cases expands with
    | stops cause other wholeStops singleStops =>
        rw [wholeStops] at done
        cases done
    | appends op repeated wholeAppends singleAppends =>
        rw [wholeAppends] at done
        cases done
        exact congrArg Except.ok (Builder.append_nil builder).symm
  · rw [← expands.whole_eq_foldlM positive, done]

theorem exists_ops (expands : Expands name builder whole single width) {changed : Builder ρ}
    (done : whole = .ok changed) :
    ∃ ops : List (Op ρ), ops.length = width ∧ changed = builder.append ops := by
  cases expands with
  | stops cause other wholeStops singleStops =>
      rw [wholeStops] at done
      cases done
  | appends op repeated wholeAppends singleAppends =>
      rw [wholeAppends] at done
      cases all : (List.range width).mapM op with
      | error cause =>
          rw [all] at done
          cases done
      | ok ops =>
          rw [all] at done
          cases done
          have pairs := forall₂_of_mapM all
          exact ⟨ops, by rw [← pairs.length_eq, List.length_range], rfl⟩

/-- A call repeats a qubit just where a call on one of its positions does. -/
theorem repeatedQubit_iff (expands : Expands name builder whole single width) :
    whole = .error (.repeatedQubit name) ↔
      ∃ step < width, single builder step = .error (.repeatedQubit name) := by
  cases expands with
  | stops cause other wholeStops singleStops =>
      constructor
      · intro repeats
        rw [wholeStops, Except.error.injEq] at repeats
        exact absurd repeats other
      · rintro ⟨step, below, repeats⟩
        have stopped := singleStops [] step below
        rw [Builder.append_nil, repeats, Except.error.injEq] at stopped
        exact absurd stopped.symm other
  | appends op repeated wholeAppends singleAppends =>
      have stops_iff {step : Nat} (below : step < width) :
          single builder step = .error (.repeatedQubit name) ↔
            op step = .error (.repeatedQubit name) := by
        have appended := singleAppends [] step below
        rw [Builder.append_nil] at appended
        rw [appended]
        cases op step <;> simp [Except.map]
      rw [wholeAppends]
      cases all : (List.range width).mapM op with
      | error cause =>
          obtain ⟨step, listed, stopped⟩ := exists_of_mapM_eq_error all
          obtain rfl := repeated step cause stopped
          have below := List.mem_range.1 listed
          exact ⟨fun _ => ⟨step, below, (stops_iff below).2 stopped⟩, fun _ => rfl⟩
      | ok ops =>
          constructor
          · intro impossible
            cases impossible
          · rintro ⟨step, below, repeats⟩
            obtain ⟨value, -, found⟩ :=
              exists_of_forall₂_left (forall₂_of_mapM all) step (List.mem_range.2 below)
            rw [(stops_iff below).1 repeats] at found
            cases found

end Expands

/-- A named gate on arguments. -/
def Builder.call (name : String) (parameters : List ρ) (args : List RegisterArg)
    (builder : Builder ρ) : Except CircuitError (Builder ρ) := do
  let gate ← Gate.ofName name parameters
  builder.applyGate name gate args

theorem expands_call (name : String) (parameters : List ρ) {args : List RegisterArg}
    (wide : HaveWidth builder.quantum args width) (someWhole : ∃ arg ∈ args, arg.index = none) :
    Expands name builder (builder.call name parameters args)
      (fun builder step => builder.call name parameters (args.map (·.single step))) width := by
  have applyAt_error {gate : Gate ρ} {spans : List Span} (step : Nat) (cause : CircuitError)
      (stopped : Builder.applyAt name gate spans step = .error cause) :
      cause = .repeatedQubit name := by
    simp only [Builder.applyAt] at stopped
    split at stopped
    · cases stopped
    · exact (Except.error.inj stopped).symm
  simp only [Builder.call]
  cases known : Gate.ofName name parameters with
  | error cause =>
      refine .stops cause ?_ rfl fun _ _ _ => rfl
      rintro rfl
      exact ofName_ne_repeatedQubit name name parameters known
  | ok gate =>
      simp only [ok_bind]
      by_cases count : args.length = gate.qubitCount
      · cases resolved : args.mapM builder.quantum.resolve with
        | error cause =>
            refine .stops cause ?_ ?_ fun ops step below => ?_
            · rintro rfl
              obtain ⟨arg, -, stopped⟩ := exists_of_mapM_eq_error resolved
              exact resolve_ne_repeatedQubit name stopped
            · rw [Builder.applyGate, if_pos count, ok_bind, resolved]
              rfl
            · have singles := mapM_resolve_single wide below
              rw [resolved] at singles
              have registers_eq : (builder.append ops).quantum = builder.quantum := rfl
              rw [Builder.applyGate, List.length_map, if_pos count, ok_bind, registers_eq, singles]
              rfl
        | ok spans =>
            exact .appends (Builder.applyAt name gate spans) applyAt_error
              (applyGate_of_resolve wide someWhole count resolved)
              fun ops step below => applyGate_single wide below count resolved ops
      · refine .stops (.wrongQubitCount name gate.qubitCount args.length) (by simp) ?_
          fun ops step _ => ?_
        · rw [Builder.applyGate, if_neg count]
          rfl
        · rw [Builder.applyGate, List.length_map, if_neg count]
          rfl

theorem resolve_whole {registers : Registers} {register : String} {own : Register}
    (found : registers.get? register = some own) :
    registers.resolve ⟨register, none⟩ = .ok ⟨own.offset, some own.size⟩ := by
  simp [Registers.resolve, found]

theorem resolve_index {registers : Registers} {register : String} {own : Register} {step : Nat}
    (found : registers.get? register = some own) (below : step < own.size) :
    registers.resolve ⟨register, some step⟩ = .ok ⟨own.offset + step, none⟩ := by
  simp [Registers.resolve, found, below]

theorem reset_whole {register : String} {own : Register}
    (found : builder.quantum.get? register = some own) :
    builder.reset ⟨register, none⟩ =
      .ok (builder.append ((List.range own.size).map fun step => .reset (own.offset + step))) := by
  rw [Builder.reset, resolve_whole found]
  rfl

theorem expands_reset {register : String} {own : Register}
    (found : builder.quantum.get? register = some own) :
    Expands name builder (builder.reset ⟨register, none⟩)
      (fun builder step => builder.reset ⟨register, some step⟩) own.size := by
  refine .appends (fun step => pure (.reset (own.offset + step)))
    (fun _ _ stopped => nomatch stopped) ?_ fun ops step below => ?_
  · rw [List.mapM_pure, reset_whole found]
    rfl
  · have registers_eq : (builder.append ops).quantum = builder.quantum := rfl
    rw [Builder.reset, registers_eq, resolve_index found below]
    exact congrArg Except.ok (Builder.append_append builder ops _)

theorem measure_whole {register target : String} {own other : Register}
    (found : builder.quantum.get? register = some own)
    (foundTarget : builder.classical.get? target = some other) (same : own.size = other.size) :
    builder.measure ⟨register, none⟩ ⟨target, none⟩ =
      .ok (builder.append ((List.range own.size).map fun step =>
        .measure (own.offset + step) (other.offset + step))) := by
  have counts : (⟨own.offset, some own.size⟩ : Span).count =
      (⟨other.offset, some other.size⟩ : Span).count := same
  rw [Builder.measure, resolve_whole found, ok_bind, resolve_whole foundTarget, ok_bind,
    if_pos counts]
  rfl

theorem expands_measure {register target : String} {own other : Register}
    (found : builder.quantum.get? register = some own)
    (foundTarget : builder.classical.get? target = some other) (same : own.size = other.size) :
    Expands name builder (builder.measure ⟨register, none⟩ ⟨target, none⟩)
      (fun builder step => builder.measure ⟨register, some step⟩ ⟨target, some step⟩)
      own.size := by
  refine .appends (fun step => pure (.measure (own.offset + step) (other.offset + step)))
    (fun _ _ stopped => nomatch stopped) ?_ fun ops step below => ?_
  · rw [List.mapM_pure, measure_whole found foundTarget same]
    rfl
  · have registers_eq : (builder.append ops).quantum = builder.quantum := rfl
    have classical_eq : (builder.append ops).classical = builder.classical := rfl
    rw [Builder.measure, registers_eq, classical_eq, resolve_index found below, ok_bind,
      resolve_index foundTarget (same ▸ below), ok_bind]
    exact congrArg Except.ok (Builder.append_append builder ops _)

end Expansion

section Statements

variable {α β : Type} {tokens middle more rest : List Token} {draft : Draft}

/-- A reader takes a value from the front of tokens, or stops with an error. -/
def Settles (reader : Read α) (tokens : List Token) (outcome : Except CircuitError α)
    (rest : List Token) : Prop :=
  match outcome with
  | .ok value => Reads reader tokens value rest
  | .error cause => ∀ cursor : Cursor, cursor.tokens = tokens → reader cursor = .fail cause

theorem settles_liftExcept (outcome : Except CircuitError α) :
    Settles (Read.liftExcept outcome) tokens outcome tokens := by
  cases outcome with
  | ok value => exact Reads.liftExcept rfl
  | error cause =>
      intro cursor _
      rfl

theorem Reads.bind_settles {reader : Read α} {next : α → Read β} {value : α}
    {outcome : Except CircuitError β} (first : Reads reader tokens value middle)
    (second : Settles (next value) middle outcome rest) :
    Settles (reader >>= next) tokens outcome rest := by
  cases outcome with
  | ok result => exact first.bind second
  | error cause =>
      intro cursor standing
      obtain ⟨between, found, standsBetween⟩ := first cursor standing
      simp only [Bind.bind, found]
      exact second between standsBetween

/-- A check before the rest of a statement. -/
theorem settles_liftExcept_bind {check : Except CircuitError α} {next : α → Read β}
    {result : α → Except CircuitError β}
    (passed : ∀ value, check = .ok value → Settles (next value) tokens (result value) rest) :
    Settles (Read.liftExcept check >>= next) tokens (check >>= result) rest := by
  cases check with
  | ok value => exact (Reads.liftExcept rfl).bind_settles (passed value rfl)
  | error cause =>
      intro cursor _
      rfl

/-- Tokens take a draft to another one, or stop the parser, whatever comes after them. -/
def Performs (draft : Draft) (tokens : List Token) (outcome : Except CircuitError Draft) : Prop :=
  ∀ (rest : List Token) (cursor : Cursor), cursor.tokens = tokens ++ rest →
    match outcome with
    | .ok changed =>
        ∃ after : Cursor, after.tokens = rest ∧
          readStatements draft cursor = readStatements changed after
    | .error cause => readStatements draft cursor = .fail cause

theorem readStatements_error {cursor : Cursor} {token : Token} {line : Nat} {spans : List Spanned}
    {fault : Fault CircuitError} (following : cursor.rest = ⟨token, line⟩ :: spans)
    (stopped : readStatement draft cursor.line token ⟨line, spans⟩ = .error fault) :
    readStatements draft cursor = .error fault := by
  rw [readStatements]
  split
  · rename_i finished
    rw [following] at finished
    cases finished
  · rename_i found rest seen
    rw [following] at seen
    cases seen
    split
    · rename_i same
      rw [stopped] at same
      cases same
      rfl
    · rename_i read
      rw [stopped] at read
      cases read

theorem performs_statement {token : Token} {outcome : Except CircuitError Draft}
    (settles : ∀ line rest,
      Settles (readStatement draft line token) (tokens ++ rest) outcome rest) :
    Performs draft (token :: tokens) outcome := by
  intro rest cursor standing
  obtain ⟨line, spans, following, same⟩ := Cursor.rest_of_tokens_eq_cons standing
  have settled := settles cursor.line rest
  cases outcome with
  | ok changed =>
      obtain ⟨after, read, standsAfter⟩ := settled ⟨line, spans⟩ same
      exact ⟨after, standsAfter, readStatements_cons following read⟩
  | error cause => exact readStatements_error following (settled ⟨line, spans⟩ same)

namespace Performs

/-- What tokens do to a draft is seen where nothing comes after them. -/
theorem outcome_eq {outcome other : Except CircuitError Draft}
    (performs : Performs draft tokens outcome) (again : Performs draft tokens other) :
    outcome = other := by
  have alone {result : Except CircuitError Draft} (performs : Performs draft tokens result) :
      ∀ cursor : Cursor, cursor.tokens = tokens →
        readStatements draft cursor = .ofExcept result := by
    intro cursor standing
    have done := performs [] cursor (by rw [standing, List.append_nil])
    cases result with
    | ok changed =>
        obtain ⟨after, finished, same⟩ := done
        rw [same]
        exact Drafts.nil changed after finished
    | error cause => exact done
  let cursor : Cursor := ⟨0, tokens.map fun token => ⟨token, 0⟩⟩
  have standing : cursor.tokens = tokens := by
    rw [Cursor.tokens, List.map_map]
    exact List.map_id tokens
  have same := (alone performs cursor standing).symm.trans (alone again cursor standing)
  cases outcome <;> cases other <;> simp_all [Outcome.ofExcept, Outcome.fail]

theorem nil (draft : Draft) : Performs draft [] (.ok draft) :=
  fun _ cursor standing => ⟨cursor, standing, rfl⟩

theorem append {outcome : Except CircuitError Draft} {next : Draft → Except CircuitError Draft}
    (first : Performs draft tokens outcome)
    (second : ∀ changed, Performs changed more (next changed)) :
    Performs draft (tokens ++ more) (outcome >>= next) := by
  intro rest cursor standing
  rw [List.append_assoc] at standing
  have done := first (more ++ rest) cursor standing
  cases outcome with
  | error cause => exact done
  | ok changed =>
      obtain ⟨between, standsBetween, same⟩ := done
      have others := second changed rest between standsBetween
      rw [ok_bind]
      cases answered : next changed with
      | error cause =>
          rw [answered] at others
          exact same.trans others
      | ok result =>
          rw [answered] at others
          obtain ⟨after, standsAfter, sameAfter⟩ := others
          exact ⟨after, standsAfter, same.trans sameAfter⟩

/-- Statements one after the other do what their calls do one after the other. -/
theorem flatMap {call : Draft → Nat → Except CircuitError Draft} {tokens : Nat → List Token}
    (each : ∀ draft step, Performs draft (tokens step) (call draft step)) (draft : Draft)
    (steps : List Nat) : Performs draft (steps.flatMap tokens) (steps.foldlM call draft) := by
  induction steps generalizing draft with
  | nil => exact nil draft
  | cons step rest ih =>
      rw [List.flatMap_cons, List.foldlM_cons]
      exact (each draft step).append ih

end Performs

/-- A gate call: its name, its parameters as they are written, and its arguments. -/
def gateTokens (name : String) (front : List Token) (args : List RegisterArg) : List Token :=
  .identifier name :: (front ++ (commaSeparated (args.map RegisterArg.tokens) ++ [.semicolon]))

/-- The gate calls on the positions of whole registers of a size, one after the other. -/
def indexedGateTokens (name : String) (front : List Token) (args : List RegisterArg)
    (width : Nat) : List Token :=
  (List.range width).flatMap fun step => gateTokens name front (args.map (·.single step))

def resetTokens (arg : RegisterArg) : List Token :=
  .reset :: (arg.tokens ++ [.semicolon])

def measureTokens (qubit clbit : RegisterArg) : List Token :=
  .measure :: (qubit.tokens ++ .arrow :: (clbit.tokens ++ [.semicolon]))

/-- Parameters have values, with which the call is made under every draft. -/
theorem IsParameters.exists_performs {count : Nat} {front : List Token}
    (shape : IsParameters count front) (name : String) :
    ∃ parameters : List Expr, parameters.length = count ∧
      ∀ (draft : Draft) (args : List RegisterArg), args ≠ [] →
        Performs draft (gateTokens name front args) (draft.call name parameters args) := by
  obtain ⟨parameters, sameLength, readsParameters⟩ := shape.exists_reads
  refine ⟨parameters, sameLength, fun draft args nonempty => performs_statement fun line rest => ?_⟩
  have readsArgs : Reads readArgs _ args (.semicolon :: rest) := Reads.readArgs_tokens nonempty
  obtain ⟨word, more, starts⟩ := @exists_word_of_args rest args nonempty
  rw [starts] at readsArgs
  rw [List.append_assoc, List.append_assoc, List.singleton_append, starts]
  refine (readsParameters (.identifier word) more (by simp)).bind_settles ?_
  exact settles_liftExcept_bind fun gate _ => readsArgs.bind_settles <|
    (Reads.expect .semicolon).bind_settles (settles_liftExcept (draft.applyGate name gate args))

theorem performs_reset (draft : Draft) (arg : RegisterArg) :
    Performs draft (resetTokens arg) (draft.reset arg) := by
  refine performs_statement fun line rest => ?_
  rw [List.append_assoc]
  exact (Reads.readArg_tokens arg (by simp)).bind_settles <|
    (Reads.expect .semicolon).bind_settles (settles_liftExcept _)

theorem performs_measure (draft : Draft) (qubit clbit : RegisterArg) :
    Performs draft (measureTokens qubit clbit) (draft.measure qubit clbit) := by
  refine performs_statement fun line rest => ?_
  rw [List.append_assoc, List.cons_append, List.append_assoc]
  exact (Reads.readArg_tokens qubit (by simp)).bind_settles <|
    (Reads.expect .arrow).bind_settles <|
      (Reads.readArg_tokens clbit (by simp)).bind_settles <|
        (Reads.expect .semicolon).bind_settles (settles_liftExcept _)

theorem Expands.exists_performs {name : String} {width : Nat} {whole : Except CircuitError Draft}
    {single : Draft → Nat → Except CircuitError Draft} {indexed : Nat → List Token}
    (expands : Expands name draft whole single width)
    (each : ∀ draft step, Performs draft (indexed step) (single draft step)) {changed : Draft}
    (done : whole = .ok changed) :
    ∃ ops : List (Op Expr), ops.length = width ∧ changed = draft.append ops ∧
      Performs draft ((List.range width).flatMap indexed) (.ok changed) := by
  obtain ⟨ops, sameLength, appended⟩ := expands.exists_ops done
  refine ⟨ops, sameLength, appended, ?_⟩
  rw [← expands.foldlM_of_ok done]
  exact Performs.flatMap each draft (List.range width)

/--
A statement on whole registers of one size is performed by the statements on their
positions in order, under whatever draft.  A gate call on registers without positions may
still stop; when there are positions, call and positions also stop alike, and the call
repeats a qubit exactly when the call on some position does.
-/
theorem broadcast_performs_positions (draft : Draft) :
    (∀ (name : String) (count : Nat) (front : List Token) (args : List RegisterArg) (width : Nat),
      IsParameters count front → (∃ arg ∈ args, arg.index = none) →
      HaveWidth draft.quantum args width →
      (∃ outcome, Performs draft (gateTokens name front args) outcome ∧
        (∀ changed, outcome = .ok changed →
          ∃ ops : List (Op Expr), ops.length = width ∧ changed = draft.append ops ∧
            Performs draft (indexedGateTokens name front args width) (.ok changed)) ∧
        (0 < width → Performs draft (indexedGateTokens name front args width) outcome)) ∧
      (Performs draft (gateTokens name front args) (.error (.repeatedQubit name)) ↔
        ∃ step < width,
          Performs draft (gateTokens name front (args.map (·.single step)))
            (.error (.repeatedQubit name)))) ∧
    (∀ (register : String) (own : Register), draft.quantum.get? register = some own →
      ∃ ops : List (Op Expr), ops.length = own.size ∧
        Performs draft (resetTokens ⟨register, none⟩) (.ok (draft.append ops)) ∧
        Performs draft
          ((List.range own.size).flatMap fun step => resetTokens ⟨register, some step⟩)
          (.ok (draft.append ops))) ∧
    ∀ (register target : String) (own other : Register),
      draft.quantum.get? register = some own → draft.classical.get? target = some other →
      own.size = other.size →
      ∃ ops : List (Op Expr), ops.length = own.size ∧
        Performs draft (measureTokens ⟨register, none⟩ ⟨target, none⟩) (.ok (draft.append ops)) ∧
        Performs draft
          ((List.range own.size).flatMap fun step =>
            measureTokens ⟨register, some step⟩ ⟨target, some step⟩)
          (.ok (draft.append ops)) := by
  refine ⟨?_, ?_, ?_⟩
  · intro name count front args width shape someWhole wide
    obtain ⟨parameters, -, performs⟩ := shape.exists_performs name
    have nonempty : args ≠ [] := by
      rintro rfl
      simp at someWhole
    have nonemptySingle (step : Nat) : args.map (·.single step) ≠ [] := by simpa using nonempty
    have expands := expands_call name parameters wide someWhole
    have each (draft : Draft) (step : Nat) := performs draft _ (nonemptySingle step)
    refine ⟨⟨_, performs draft args nonempty, fun changed => expands.exists_performs each,
      fun positive => ?_⟩, ?_⟩
    · rw [expands.whole_eq_foldlM positive]
      exact Performs.flatMap each draft (List.range width)
    · have performs_iff {args : List RegisterArg} (nonempty : args ≠ []) :
          Performs draft (gateTokens name front args) (.error (.repeatedQubit name)) ↔
            draft.call name parameters args = .error (.repeatedQubit name) :=
        ⟨fun stops => (performs draft args nonempty).outcome_eq stops,
          fun same => same ▸ performs draft args nonempty⟩
      simp only [performs_iff nonempty, performs_iff (nonemptySingle _)]
      exact expands.repeatedQubit_iff
  · intro register own found
    have performs := performs_reset draft ⟨register, none⟩
    rw [reset_whole found] at performs
    have expands : Expands "reset" draft _ _ own.size := expands_reset found
    obtain ⟨ops, sameLength, appended, inOrder⟩ := expands.exists_performs
      (fun draft step => performs_reset draft ⟨register, some step⟩) (reset_whole found)
    rw [appended] at performs inOrder
    exact ⟨ops, sameLength, performs, inOrder⟩
  · intro register target own other found foundTarget same
    have performs := performs_measure draft ⟨register, none⟩ ⟨target, none⟩
    rw [measure_whole found foundTarget same] at performs
    have expands : Expands "measure" draft _ _ own.size := expands_measure found foundTarget same
    obtain ⟨ops, sameLength, appended, inOrder⟩ := expands.exists_performs
      (fun draft step => performs_measure draft ⟨register, some step⟩ ⟨target, some step⟩)
      (measure_whole found foundTarget same)
    rw [appended] at performs inOrder
    exact ⟨ops, sameLength, performs, inOrder⟩

/-- Two qubits and two classical bits. -/
def pairDraft : Draft :=
  (Builder.empty.extend ⟨.quantum, "q", 2⟩).extend ⟨.classical, "c", 2⟩

theorem broadcast_performs_positions_pair :
    HaveWidth pairDraft.quantum [⟨"q", some 0⟩, ⟨"q", none⟩] 2 ∧
    Performs pairDraft (gateTokens "cx" [] [⟨"q", some 0⟩, ⟨"q", none⟩])
      (.error (.repeatedQubit "cx")) ∧
    (∃ ops : List (Op Expr), ops.length = 2 ∧
      Performs pairDraft (resetTokens ⟨"q", none⟩) (.ok (pairDraft.append ops)) ∧
      Performs pairDraft ((List.range 2).flatMap fun step => resetTokens ⟨"q", some step⟩)
        (.ok (pairDraft.append ops))) ∧
    ∃ ops : List (Op Expr), ops.length = 2 ∧
      Performs pairDraft (measureTokens ⟨"q", none⟩ ⟨"c", none⟩) (.ok (pairDraft.append ops)) ∧
      Performs pairDraft
        ((List.range 2).flatMap fun step => measureTokens ⟨"q", some step⟩ ⟨"c", some step⟩)
        (.ok (pairDraft.append ops)) := by
  have quantum : pairDraft.quantum.get? "q" = some ⟨0, 2⟩ := rfl
  have classical : pairDraft.classical.get? "c" = some ⟨0, 2⟩ := rfl
  have wide : HaveWidth pairDraft.quantum [⟨"q", some 0⟩, ⟨"q", none⟩] 2 := by
    intro arg member whole
    rcases List.mem_pair.1 member with rfl | rfl
    · cases whole
    · exact ⟨⟨0, 2⟩, quantum, rfl⟩
  obtain ⟨parameters, plain, performs⟩ := IsParameters.absent.exists_performs "cx"
  obtain rfl := List.length_eq_zero_iff.1 plain
  have repeats : pairDraft.call "cx" [] [⟨"q", some 0⟩, ⟨"q", some 0⟩] =
      .error (.repeatedQubit "cx") := rfl
  obtain ⟨gate, reset, measure⟩ := broadcast_performs_positions pairDraft
  refine ⟨wide, ?_, reset "q" _ quantum, measure "q" "c" _ _ quantum classical rfl⟩
  refine (gate "cx" 0 [] _ 2 .absent ⟨⟨"q", none⟩, by simp, rfl⟩ wide).2.2 ⟨0, by decide, ?_⟩
  rw [← repeats]
  exact performs pairDraft _ (by simp)

end Statements

end HybridQuantum.Circuit
