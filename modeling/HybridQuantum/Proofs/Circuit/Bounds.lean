import HybridQuantum.Proofs.Circuit.CheckedRun
import HybridQuantum.Proofs.Circuit.Language
import Mathlib.Data.List.Infix

/-!
# Parsed circuits stay within their bounds

Every statement adds operations on positions of registers declared before it, and
a declaration only adds positions, so the operations of a parsed circuit are
within its bounds.  The registers are those that the text declares, and they share
out all positions of their kind.
-/

namespace HybridQuantum.Circuit

variable {ρ τ : Type}

section Operations

theorem Op.IsWithin.mono {op : Op ρ} {qubits clbits qubits' clbits' : Nat}
    (within : op.IsWithin qubits clbits) (wider : qubits ≤ qubits') (longer : clbits ≤ clbits') :
    op.IsWithin qubits' clbits' := by
  cases op with
  | gate applied places =>
      obtain ⟨count, distinct, inside⟩ := within
      exact ⟨count, distinct, fun place member => Nat.lt_of_lt_of_le (inside place member) wider⟩
  | reset place => exact Nat.lt_of_lt_of_le within wider
  | barrier => trivial
  | measure place clbit =>
      exact ⟨Nat.lt_of_lt_of_le within.1 wider, Nat.lt_of_lt_of_le within.2 longer⟩

theorem Gate.qubitCount_map (convert : ρ → τ) (gate : Gate ρ) :
    (gate.map convert).qubitCount = gate.qubitCount := by
  cases gate <;> rfl

theorem Op.IsWithin.map (convert : ρ → τ) {op : Op ρ} {qubits clbits : Nat}
    (within : op.IsWithin qubits clbits) : (op.map convert).IsWithin qubits clbits := by
  cases op with
  | gate applied places =>
      obtain ⟨count, distinct, inside⟩ := within
      exact ⟨count.trans (applied.qubitCount_map convert).symm, distinct, inside⟩
  | _ => exact within

theorem IsWithin.map (convert : ρ → τ) {circuit : Circuit ρ} (within : circuit.IsWithin) :
    (circuit.map convert).IsWithin := by
  intro op member
  obtain ⟨own, listed, rfl⟩ := List.mem_map.1 member
  exact (within own listed).map convert

end Operations

section Building

variable {registers : List Declared} {builder changed : Builder ρ} {kind : RegisterKind}

theorem positions_lt_of_cut {before after : List Declared} {name : String} {size index : Nat}
    (cut : registers = before ++ ⟨kind, name, size⟩ :: after) (inside : index < size) :
    positions before kind + index < positions registers kind := by
  rw [cut, positions_append, positions_cons_self]
  omega

/-- A position that an argument addresses is one of its kind. -/
theorem Lays.position_lt (lays : Lays registers builder) (kind : RegisterKind)
    {arg : RegisterArg} {span : Span}
    (resolved : (builder.registers kind).resolve arg = .ok span) {step : Nat}
    (below : ∀ size, span.size = some size → step < size) :
    span.position step < builder.total kind := by
  obtain ⟨before, after, size, cut, inside, same⟩ :=
    (lays.resolve_eq_ok_iff.1 resolved).exists_position_eq below
  rw [same, lays.total]
  exact positions_lt_of_cut cut inside

theorem Span.lt_of_lt_count {span : Span} {step : Nat} (below : step < span.count) :
    ∀ size, span.size = some size → step < size := by
  intro size whole
  rwa [count, whole] at below

theorem isWithin_append (within : builder.circuit.IsWithin) {ops : List (Op ρ)}
    (added : ∀ op ∈ ops, op.IsWithin (builder.total .quantum) (builder.total .classical)) :
    (builder.append ops).circuit.IsWithin := by
  intro op member
  rcases List.mem_append.1 member with earlier | new
  · exact within op earlier
  · exact added op new

theorem isWithin_extend (within : builder.circuit.IsWithin) (declared : Declared) :
    (builder.extend declared).circuit.IsWithin := by
  obtain ⟨own, name, size⟩ := declared
  intro op member
  cases own with
  | quantum => exact (within op member).mono (Nat.le_add_right _ _) (Nat.le_refl _)
  | classical => exact (within op member).mono (Nat.le_refl _) (Nat.le_add_right _ _)

theorem isWithin_of_declare (within : builder.circuit.IsWithin) {name : String} {size : Nat}
    (declares : builder.declare kind name size = .ok changed) : changed.circuit.IsWithin := by
  have shape := builder.declare_eq ⟨kind, name, size⟩
  rw [declares] at shape
  split at shape
  · cases shape
  · split at shape
    · cases shape
      exact isWithin_extend within _
    · cases shape

theorem Lays.isWithin_of_measure (lays : Lays registers builder)
    (within : builder.circuit.IsWithin) {qubit clbit : RegisterArg}
    (measures : builder.measure qubit clbit = .ok changed) : changed.circuit.IsWithin := by
  obtain ⟨qubits, resolvedQubits, measures⟩ := exists_of_bind_eq_ok measures
  obtain ⟨clbits, resolvedClbits, measures⟩ := exists_of_bind_eq_ok measures
  split at measures
  · rename_i same
    cases measures
    refine isWithin_append within fun op member => ?_
    obtain ⟨step, listed, rfl⟩ := List.mem_map.1 member
    have below := List.mem_range.1 listed
    exact ⟨lays.position_lt .quantum resolvedQubits (Span.lt_of_lt_count below),
      lays.position_lt .classical resolvedClbits (Span.lt_of_lt_count (same ▸ below))⟩
  · cases measures

theorem Lays.isWithin_of_reset (lays : Lays registers builder)
    (within : builder.circuit.IsWithin) {arg : RegisterArg}
    (resets : builder.reset arg = .ok changed) : changed.circuit.IsWithin := by
  obtain ⟨span, resolved, resets⟩ := exists_of_bind_eq_ok resets
  cases resets
  refine isWithin_append within fun op member => ?_
  obtain ⟨step, listed, rfl⟩ := List.mem_map.1 member
  exact lays.position_lt .quantum resolved
    (Span.lt_of_lt_count (List.mem_range.1 listed))

theorem Lays.isWithin_of_applyGate (lays : Lays registers builder)
    (within : builder.circuit.IsWithin) {name : String} {gate : Gate ρ} {args : List RegisterArg}
    (applies : builder.applyGate name gate args = .ok changed) : changed.circuit.IsWithin := by
  rw [Builder.applyGate] at applies
  have count : args.length = gate.qubitCount := by
    by_contra different
    rw [if_neg different] at applies
    cases applies
  rw [if_pos count, ok_bind] at applies
  obtain ⟨spans, resolved, applies⟩ := exists_of_bind_eq_ok applies
  obtain ⟨width, widthDone, applies⟩ := exists_of_bind_eq_ok applies
  obtain ⟨ops, applied, applies⟩ := exists_of_bind_eq_ok applies
  cases applies
  have pairs := forall₂_of_mapM resolved
  obtain ⟨common, -⟩ := Builder.commonWidth_eq_ok_iff.1 widthDone
  refine isWithin_append within fun op member => ?_
  obtain ⟨step, listed, done⟩ := exists_of_forall₂_right (forall₂_of_mapM applied) op member
  have below := List.mem_range.1 listed
  rw [Builder.applyAt] at done
  split at done
  · rename_i distinct
    cases done
    refine ⟨by rw [List.length_map, ← pairs.length_eq, count], distinct, fun place taken => ?_⟩
    obtain ⟨span, among, rfl⟩ := List.mem_map.1 taken
    obtain ⟨arg, -, found⟩ := exists_of_forall₂_right pairs span among
    refine lays.position_lt .quantum found fun size whole => ?_
    rw [common size (.inr ⟨span, among, whole⟩)]
    exact below
  · cases done

/-- What a statement makes of a builder. -/
inductive Builder.Changes (builder : Builder ρ) : Builder ρ → Prop where
  | nothing : Changes builder builder
  | declare {kind : RegisterKind} {name : String} {size : Nat} {changed : Builder ρ}
      (done : builder.declare kind name size = .ok changed) : Changes builder changed
  | measure {qubit clbit : RegisterArg} {changed : Builder ρ}
      (done : builder.measure qubit clbit = .ok changed) : Changes builder changed
  | reset {arg : RegisterArg} {changed : Builder ρ} (done : builder.reset arg = .ok changed) :
      Changes builder changed
  | barrier : Changes builder (builder.append [.barrier])
  | gate {name : String} {gate : Gate ρ} {args : List RegisterArg} {changed : Builder ρ}
      (done : builder.applyGate name gate args = .ok changed) : Changes builder changed

theorem Lays.isWithin_of_changes (lays : Lays registers builder)
    (within : builder.circuit.IsWithin) (changes : builder.Changes changed) :
    changed.circuit.IsWithin := by
  cases changes with
  | nothing => exact within
  | declare done => exact isWithin_of_declare within done
  | measure done => exact lays.isWithin_of_measure within done
  | reset done => exact lays.isWithin_of_reset within done
  | barrier => exact isWithin_append within fun op member => by simp_all [Op.IsWithin]
  | gate done => exact lays.isWithin_of_applyGate within done

end Building

section Sharing

def Registers.Holds (registers : Registers) (name : String) (position : Nat) : Prop :=
  ∃ register, registers.get? name = some register ∧ register.offset ≤ position ∧
    position < register.offset + register.size

/-- Registers share out the positions below a total: each is in one of them, and none is outside. -/
structure Registers.Share (registers : Registers) (total : Nat) : Prop where
  inside : ∀ name register, registers.get? name = some register →
    register.offset + register.size ≤ total
  holder : ∀ position < total, ∃! name, registers.Holds name position

variable {registers : List Declared} {builder : Builder ρ}

theorem exists_cut_of_lt_positions {kind : RegisterKind} {position : Nat}
    (below : position < positions registers kind) :
    ∃ before after name size, registers = before ++ ⟨kind, name, size⟩ :: after ∧
      positions before kind ≤ position ∧ position < positions before kind + size := by
  induction registers generalizing position with
  | nil => cases below
  | cons register rest ih =>
      obtain ⟨own, name, size⟩ := register
      by_cases same : own = kind
      · subst same
        rw [positions_cons_self] at below
        by_cases first : position < size
        · exact ⟨[], rest, name, size, rfl, Nat.zero_le _, by simpa [positions] using first⟩
        · obtain ⟨before, after, other, length, rfl, least, most⟩ :=
            ih (show position - size < positions rest own by omega)
          refine ⟨⟨own, name, size⟩ :: before, after, other, length, rfl, ?_, ?_⟩ <;>
            rw [positions_cons_self] <;> omega
      · simp only [positions, if_neg same] at below
        obtain ⟨before, after, other, length, rfl, least, most⟩ := ih below
        exact ⟨⟨own, name, size⟩ :: before, after, other, length, rfl,
          by simpa only [positions, if_neg same] using least,
          by simpa only [positions, if_neg same] using most⟩

theorem Lays.share (lays : Lays registers builder) (kind : RegisterKind) :
    (builder.registers kind).Share (builder.total kind) where
  inside name register found := by
    obtain ⟨before, after, cut, offset⟩ := (lays.held kind name register).1 found
    rw [lays.total, offset, cut, positions_append, positions_cons_self]
    omega
  holder position below := by
    rw [lays.total] at below
    obtain ⟨before, after, name, size, cut, least, most⟩ := exists_cut_of_lt_positions below
    refine ⟨name, ⟨_, lays.get?_of_cut cut, least, most⟩, fun other holds => ?_⟩
    obtain ⟨register, found, least', most'⟩ := holds
    obtain ⟨before', after', cut', offset⟩ := (lays.held kind other register).1 found
    rw [offset] at least' most'
    have inside : position - positions before kind < size := by omega
    have inside' : position - positions before' kind < register.size := by omega
    have same := (position_eq_iff lays.distinct cut' cut inside' inside).1 (by omega)
    exact congrArg Prod.fst same

end Sharing

section Declarations

/-- The register whose declaration tokens start with. -/
def Declared.first? : List Token → Option Declared
  | .qreg :: .identifier name :: .leftBracket :: .int size :: _ => some ⟨.quantum, name, size⟩
  | .creg :: .identifier name :: .leftBracket :: .int size :: _ => some ⟨.classical, name, size⟩
  | _ => none

/-- The registers that tokens declare, in order. -/
def declaredIn (tokens : List Token) : List Declared :=
  tokens.tails.filterMap Declared.first?

/-- No token is a word that declares registers. -/
def Silent (tokens : List Token) : Prop :=
  ∀ token ∈ tokens, token ≠ .qreg ∧ token ≠ .creg

@[simp]
theorem silent_nil : Silent [] :=
  List.forall_mem_nil _

@[simp]
theorem silent_cons {token : Token} {rest : List Token} :
    Silent (token :: rest) ↔ (token ≠ .qreg ∧ token ≠ .creg) ∧ Silent rest :=
  List.forall_mem_cons

@[simp]
theorem silent_append {front back : List Token} :
    Silent (front ++ back) ↔ Silent front ∧ Silent back :=
  List.forall_mem_append

theorem silent_commaSeparated {parts : List (List Token)} (each : ∀ part ∈ parts, Silent part) :
    Silent (commaSeparated parts) := by
  cases parts with
  | nil => exact silent_nil
  | cons first more =>
      obtain ⟨start, others⟩ := List.forall_mem_cons.1 each
      refine silent_append.2 ⟨start, fun token listed => ?_⟩
      obtain ⟨part, among, member⟩ := List.mem_flatMap.1 listed
      exact silent_cons.2 ⟨by simp, others part among⟩ token member

theorem RegisterArg.silent_tokens (arg : RegisterArg) : Silent arg.tokens := by
  obtain ⟨register, index⟩ := arg
  cases index <;> simp [tokens]

theorem silent_args (args : List RegisterArg) :
    Silent (commaSeparated (args.map RegisterArg.tokens)) := by
  refine silent_commaSeparated fun part member => ?_
  obtain ⟨arg, -, rfl⟩ := List.mem_map.1 member
  exact arg.silent_tokens

theorem IsExpr.silent {tokens : List Token} (expr : IsExpr tokens) : Silent tokens := by
  induction expr with
  | int value => simp
  | float value => simp
  | pi => simp
  | parens _ ih => simp [ih]
  | call _ _ ih => simp [ih]
  | signed known _ ih =>
      simp only [signTokens, List.mem_cons, List.not_mem_nil, or_false] at known
      rcases known with rfl | rfl <;> simp [ih]
  | binary known _ _ first second =>
      simp only [operatorTokens, List.mem_cons, List.not_mem_nil, or_false] at known
      rcases known with rfl | rfl | rfl | rfl | rfl <;> simp [first, second]

theorem declaredIn_cons (token : Token) (rest : List Token) :
    declaredIn (token :: rest) =
      (Declared.first? (token :: rest)).toList ++ declaredIn rest := by
  rw [declaredIn, List.tails_cons, List.filterMap_cons]
  cases Declared.first? (token :: rest) <;> rfl

theorem declaredIn_append_of_silent {front : List Token} (silent : Silent front)
    (rest : List Token) : declaredIn (front ++ rest) = declaredIn rest := by
  induction front with
  | nil => rfl
  | cons token front ih =>
      obtain ⟨⟨noQubits, noClbits⟩, others⟩ := silent_cons.1 silent
      have none : Declared.first? (token :: (front ++ rest)) = none := by
        unfold Declared.first?
        split <;> simp_all
      rw [List.cons_append, declaredIn_cons, none, ih others]
      rfl

theorem Written.declaredIn_append {clause : Clause} {front : List Token}
    (written : Written clause front) (rest : List Token) :
    declaredIn (front ++ rest) = clause.declares ++ declaredIn rest := by
  cases written with
  | register declared =>
      obtain ⟨kind, name, size⟩ := declared
      have behind :
          Silent [.identifier name, .leftBracket, .int size, .rightBracket, .semicolon] := by simp
      rw [List.cons_append, declaredIn_cons, declaredIn_append_of_silent behind]
      cases kind <;> rfl
  | inclusion path => exact declaredIn_append_of_silent (by simp) rest
  | measure qubit clbit =>
      exact declaredIn_append_of_silent (by simp [RegisterArg.silent_tokens]) rest
  | reset arg => exact declaredIn_append_of_silent (by simp [RegisterArg.silent_tokens]) rest
  | barrier => exact declaredIn_append_of_silent (by simp [silent_args]) rest
  | gate name => exact declaredIn_append_of_silent (by simp [silent_args]) rest
  | parameterized name isExpr =>
      have exprs := silent_commaSeparated fun expr member => (isExpr expr member).silent
      exact declaredIn_append_of_silent (by simp [exprs, silent_args]) rest

end Declarations

section Reading

variable {registers : List Declared} {draft changed : Draft} {cursor after : Cursor}

theorem changes_of_readRegister {kind : RegisterKind}
    (read : readRegister kind draft cursor = .ok (changed, after)) : draft.Changes changed := by
  obtain ⟨name, named, -, read⟩ := Read.exists_of_bind read
  obtain ⟨_, opened, -, read⟩ := Read.exists_of_bind read
  obtain ⟨size, sized, -, read⟩ := Read.exists_of_bind read
  obtain ⟨_, closed, -, read⟩ := Read.exists_of_bind read
  obtain ⟨_, ended, -, read⟩ := Read.exists_of_bind read
  exact .declare (Read.lift_eq_ok_iff.1 read).1

theorem changes_of_readStatement {line : Nat} {token : Token}
    (read : readStatement draft line token cursor = .ok (changed, after)) :
    draft.Changes changed := by
  unfold readStatement at read
  split at read
  · obtain ⟨found, between, -, read⟩ := Read.exists_of_bind read
    cases found with
    | string path =>
        obtain ⟨_, ended, -, read⟩ := Read.exists_of_bind read
        cases read
        exact .nothing
    | _ => cases read
  · exact changes_of_readRegister read
  · exact changes_of_readRegister read
  · obtain ⟨qubit, left, -, read⟩ := Read.exists_of_bind read
    obtain ⟨_, crossed, -, read⟩ := Read.exists_of_bind read
    obtain ⟨clbit, right, -, read⟩ := Read.exists_of_bind read
    obtain ⟨_, ended, -, read⟩ := Read.exists_of_bind read
    exact .measure (Read.liftExcept_eq_ok_iff.1 read).1
  · obtain ⟨arg, named, -, read⟩ := Read.exists_of_bind read
    obtain ⟨_, ended, -, read⟩ := Read.exists_of_bind read
    exact .reset (Read.liftExcept_eq_ok_iff.1 read).1
  · obtain ⟨args, named, -, read⟩ := Read.exists_of_bind read
    obtain ⟨_, checked, -, read⟩ := Read.exists_of_bind read
    obtain ⟨_, ended, -, read⟩ := Read.exists_of_bind read
    cases read
    exact .barrier
  · obtain ⟨parameters, closed, -, read⟩ := Read.exists_of_bind read
    obtain ⟨gate, known, -, read⟩ := Read.exists_of_bind read
    obtain ⟨args, named, -, read⟩ := Read.exists_of_bind read
    obtain ⟨_, ended, -, read⟩ := Read.exists_of_bind read
    exact .gate (Read.liftExcept_eq_ok_iff.1 read).1
  · cases read

/-- Reading statements adds the registers they declare and stays within the bounds. -/
theorem lays_of_readStatements {registers : List Declared} {draft result : Draft}
    {cursor : Cursor} (lays : Lays registers draft) (within : draft.circuit.IsWithin)
    (read : readStatements draft cursor = .ok result) :
    Lays (registers ++ declaredIn cursor.tokens) result ∧ result.circuit.IsWithin := by
  rw [readStatements] at read
  split at read
  · rename_i finished
    cases read
    have none : declaredIn cursor.tokens = [] := by
      rw [Cursor.tokens, finished]
      rfl
    exact ⟨by rwa [none, List.append_nil], within⟩
  · rename_i found rest following
    split at read
    · cases read
    · rename_i changed after readOne
      have fewer : after.size < cursor.size := by
        have shrinks := shrinks_readStatement _ _ _ _ _ _ readOne
        simp only [Cursor.size, following, List.length_cons] at shrinks ⊢
        omega
      obtain ⟨clause, front, standing, written, -, laysAfter⟩ :=
        begins_of_readStatement lays readOne
      have withinAfter := lays.isWithin_of_changes within (changes_of_readStatement readOne)
      have later := lays_of_readStatements laysAfter withinAfter read
      rwa [Cursor.tokens_of_rest_eq_cons following, standing, written.declaredIn_append,
        ← List.append_assoc]
termination_by cursor.size

/-- A text is written in tokens that are read into a draft. -/
def ReadsInto (text : String) (tokens : List Token) (draft : Draft) : Prop :=
  ∃ spans cursor, tokenize text = .ok spans ∧ tokens = spans.map Spanned.token ∧
    readHeader ⟨1, spans⟩ = .ok ((), cursor) ∧ readStatements .empty cursor = .ok draft

theorem exists_readsInto_of_parse {text : String} {circuit : Circuit Float}
    (parsed : parse text = .ok circuit) :
    ∃ tokens draft, ReadsInto text tokens draft ∧ circuit = draft.circuit.map Expr.eval := by
  unfold parse at parsed
  split at parsed
  · cases parsed
  · rename_i spans tokenized
    split at parsed
    · cases parsed
    · rename_i drafted readsTokens
      unfold ofTokens at readsTokens
      split at readsTokens
      · cases readsTokens
      · rename_i cursor readsHeader
        split at readsTokens
        · cases readsTokens
        · rename_i draft readsBody
          cases readsTokens
          cases parsed
          exact ⟨_, draft, ⟨spans, cursor, tokenized, rfl, readsHeader, readsBody⟩, rfl⟩

theorem ReadsInto.lays {text : String} {tokens : List Token} {draft : Draft}
    (reads : ReadsInto text tokens draft) :
    Lays (declaredIn tokens) draft ∧ draft.circuit.IsWithin := by
  obtain ⟨spans, cursor, -, rfl, readsHeader, readsBody⟩ := reads
  obtain ⟨version, supported, standing⟩ := exists_version_of_readHeader readsHeader
  have silent : Silent [.openQasm, version, .semicolon] := by
    cases supported <;> simp
  have declared : declaredIn (spans.map Spanned.token) = declaredIn cursor.tokens := by
    change declaredIn (Cursor.tokens ⟨1, spans⟩) = _
    rw [standing]
    exact declaredIn_append_of_silent silent cursor.tokens
  rw [declared]
  exact lays_of_readStatements .empty (List.forall_mem_nil _) readsBody

end Reading

/--
A parsed circuit is within its bounds: every gate has as many qubits as it takes,
all distinct, and every qubit and classical bit exists.  Its registers are those
that the text declares, each behind the earlier ones of its kind, and they share
out the qubits and the classical bits.  So on at most sixty-three qubits, every
amplitude and every classical bit that is accessed exists.
-/
theorem isWithin_of_parse {text : String} {circuit : Circuit Float}
    (parsed : parse text = .ok circuit) :
    circuit.IsWithin ∧
      (∃ tokens draft, ReadsInto text tokens draft ∧ circuit = draft.circuit.map Expr.eval ∧
        Lays (declaredIn tokens) draft ∧ draft.quantum.Share circuit.qubits ∧
        draft.classical.Share circuit.clbits) ∧
      (circuit.qubits ≤ 63 →
        Checked.run? circuit = some (StateVector.run circuit) ∧
        ∀ outcome : UInt64, Checked.readout? outcome circuit.measurements circuit.clbits =
          some (readout outcome.toNat circuit.measurements circuit.clbits)) := by
  obtain ⟨tokens, draft, reads, rfl⟩ := exists_readsInto_of_parse parsed
  obtain ⟨lays, drafted⟩ := reads.lays
  have within := drafted.map Expr.eval
  refine ⟨within, ⟨tokens, draft, reads, rfl, lays, lays.share .quantum, lays.share .classical⟩,
    fun narrow => ⟨Checked.run?_eq narrow within, fun outcome => ?_⟩⟩
  exact Checked.readout?_eq narrow outcome within.measurements

/-- Registers of both kinds, one without positions, and statements of all kinds. -/
def mixedProgram : String :=
  "OPENQASM 2; qreg q[2]; qreg none[0]; creg c[1]; qreg r[1]; h q; cx q[1], r[0]; " ++
    "barrier q; reset none; measure r -> c;"

theorem isWithin_of_parse_mixed :
    ∃ circuit, parse mixedProgram = .ok circuit ∧ circuit.qubits = 3 ∧
      Checked.run? circuit = some (StateVector.run circuit) := by
  have parsed : parse mixedProgram =
      .ok ⟨3, 1, [.gate .h [0], .gate .h [1], .gate .cx [1, 2], .barrier, .measure 2 0]⟩ := by
    decide +kernel
  obtain ⟨-, -, runs⟩ := isWithin_of_parse parsed
  exact ⟨_, parsed, rfl, (runs (by decide)).1⟩

end HybridQuantum.Circuit
