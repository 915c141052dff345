import HybridQuantum.Proofs.Circuit.Grammar
import Mathlib.Data.List.Forall2
import Mathlib.Data.List.Nodup

/-!
# Registers and where they lie

A builder lays the registers of each kind end to end, so a position among all of a
kind belongs to one place of one register.  Every operation of the builder
succeeds exactly under the condition of the grammar on its statement, and leaves
the registers laid out as before, with a new one behind them.
-/

namespace HybridQuantum.Circuit

variable {ρ : Type}

section Outcomes

variable {ε α β : Type}

/-- A computation succeeds exactly under a condition, and then with a good result. -/
structure SucceedsIff (condition : Prop) (good : α → Prop) (answer : Except ε α) : Prop where
  exists_ok : condition → ∃ value, answer = .ok value
  of_ok : ∀ value, answer = .ok value → condition ∧ good value

theorem exists_mapM_eq_ok {items : List α} {step : α → Except ε β}
    (each : ∀ item ∈ items, ∃ result, step item = .ok result) :
    ∃ results, items.mapM step = .ok results := by
  induction items with
  | nil => exact ⟨[], rfl⟩
  | cons item rest ih =>
      obtain ⟨⟨first, done⟩, others⟩ := List.forall_mem_cons.1 each
      obtain ⟨results, doneOthers⟩ := ih others
      exact ⟨first :: results, by rw [List.mapM_cons, done, doneOthers]; rfl⟩

theorem forall₂_of_mapM {items : List α} {results : List β} {step : α → Except ε β}
    (done : items.mapM step = .ok results) :
    List.Forall₂ (fun item result => step item = .ok result) items results := by
  induction items generalizing results with
  | nil =>
      cases done
      exact .nil
  | cons item rest ih =>
      rw [List.mapM_cons] at done
      obtain ⟨first, doneFirst, done⟩ := exists_of_bind_eq_ok done
      obtain ⟨others, doneOthers, done⟩ := exists_of_bind_eq_ok done
      cases done
      exact .cons doneFirst (ih doneOthers)

theorem exists_of_forall₂_left {related : α → β → Prop} {items : List α} {others : List β}
    (pairs : List.Forall₂ related items others) :
    ∀ item ∈ items, ∃ other ∈ others, related item other := by
  induction pairs with
  | nil => simp
  | cons first _ ih =>
      refine List.forall_mem_cons.2 ⟨⟨_, List.mem_cons_self, first⟩, fun item member => ?_⟩
      obtain ⟨other, listed, holds⟩ := ih item member
      exact ⟨other, List.mem_cons_of_mem _ listed, holds⟩

theorem exists_of_forall₂_right {related : α → β → Prop} {items : List α} {others : List β}
    (pairs : List.Forall₂ related items others) :
    ∀ other ∈ others, ∃ item ∈ items, related item other :=
  exists_of_forall₂_left (List.Forall₂.flip pairs)

/-- Two views of related elements that identify the same elements have the same repetitions. -/
theorem nodup_map_iff_of_forall₂ {γ δ : Type} {related : α → β → Prop} {items : List α}
    {others : List β} {left : α → γ} {right : β → δ} (pairs : List.Forall₂ related items others)
    (same : ∀ item other item' other', related item other → related item' other' →
      (left item = left item' ↔ right other = right other')) :
    (items.map left).Nodup ↔ (others.map right).Nodup := by
  induction pairs with
  | nil => simp
  | @cons item other items others first rest ih =>
      have member : left item ∈ items.map left ↔ right other ∈ others.map right := by
        clear ih
        induction rest with
        | nil => simp
        | cons next _ ih =>
            simp only [List.map_cons, List.mem_cons, same _ _ _ _ first next, ih]
      rw [List.map_cons, List.map_cons, List.nodup_cons, List.nodup_cons, member, ih]

end Outcomes

section Positions

theorem positions_append (front back : List Declared) (kind : RegisterKind) :
    positions (front ++ back) kind = positions front kind + positions back kind := by
  induction front with
  | nil => exact (Nat.zero_add _).symm
  | cons register front ih =>
      rw [List.cons_append, positions, positions, ih]
      split <;> omega

theorem positions_cons_self (kind : RegisterKind) (name : String) (size : Nat)
    (registers : List Declared) :
    positions (⟨kind, name, size⟩ :: registers) kind = size + positions registers kind := by
  simp [positions]

/-- Two places where a list can be cut are the same, or one is before the other. -/
theorem cut_cases {α : Type} {before before' after after' : List α} {item item' : α}
    (same : before ++ item :: after = before' ++ item' :: after') :
    (before = before' ∧ item = item' ∧ after = after') ∨
      (∃ middle, before' = before ++ item :: middle) ∨
      ∃ middle, before = before' ++ item' :: middle := by
  rcases List.append_eq_append_iff.1 same with ⟨middle, front, back⟩ | ⟨middle, front, back⟩
  · cases middle with
    | nil => simp_all
    | cons first middle =>
        cases back
        exact .inr (.inl ⟨middle, front⟩)
  · cases middle with
    | nil => simp_all
    | cons first middle =>
        cases back
        exact .inr (.inr ⟨middle, front⟩)

variable {registers before before' after after' : List Declared} {kind : RegisterKind}
  {name name' : String} {size size' index index' : Nat}

theorem name_ne_of_before {middle : List Declared} {item item' : Declared}
    (distinct : ((before ++ item :: middle ++ item' :: after).map Declared.name).Nodup) :
    item.name ≠ item'.name := by
  intro same
  simp [List.nodup_append, same] at distinct

/-- Positions among all of a kind tell the places of registers apart. -/
theorem position_eq_iff (distinct : (registers.map Declared.name).Nodup)
    (cut : registers = before ++ ⟨kind, name, size⟩ :: after)
    (cut' : registers = before' ++ ⟨kind, name', size'⟩ :: after')
    (inside : index < size) (inside' : index' < size') :
    positions before kind + index = positions before' kind + index' ↔
      (name, index) = (name', index') := by
  rcases cut_cases (cut.symm.trans cut') with ⟨rfl, same, -⟩ | ⟨middle, rfl⟩ | ⟨middle, rfl⟩
  · cases same
    simp
  · rw [cut'] at distinct
    have different := name_ne_of_before distinct
    rw [positions_append, positions_cons_self]
    simp only [Prod.mk.injEq, different, false_and, iff_false]
    omega
  · rw [cut] at distinct
    have different := name_ne_of_before distinct
    rw [positions_append, positions_cons_self]
    simp only [Prod.mk.injEq, Ne.symm different, false_and, iff_false]
    omega

end Positions

section Layout

/-- The registers of a kind. -/
def Builder.registers (builder : Builder ρ) : RegisterKind → Registers
  | .quantum => builder.quantum
  | .classical => builder.classical

/-- The number of positions of a kind. -/
def Builder.total (builder : Builder ρ) : RegisterKind → Nat
  | .quantum => builder.circuit.qubits
  | .classical => builder.circuit.clbits

/-- A builder holds the declared registers, each behind the earlier ones of its kind. -/
structure Lays (registers : List Declared) (builder : Builder ρ) : Prop where
  held : ∀ kind name register, (builder.registers kind).get? name = some register ↔
    ∃ before after, registers = before ++ ⟨kind, name, register.size⟩ :: after ∧
      register.offset = positions before kind
  total : ∀ kind, builder.total kind = positions registers kind
  distinct : (registers.map Declared.name).Nodup

/-- The positions that an argument addresses. -/
inductive Locates (registers : List Declared) (kind : RegisterKind) :
    RegisterArg → Span → Prop where
  | whole {before after : List Declared} {name : String} {size : Nat}
      (cut : registers = before ++ ⟨kind, name, size⟩ :: after) :
      Locates registers kind ⟨name, none⟩ ⟨positions before kind, some size⟩
  | single {before after : List Declared} {name : String} {size index : Nat}
      (cut : registers = before ++ ⟨kind, name, size⟩ :: after) (inside : index < size) :
      Locates registers kind ⟨name, some index⟩ ⟨positions before kind + index, none⟩

variable {registers : List Declared} {builder : Builder ρ} {kind : RegisterKind}

theorem Lays.empty : Lays [] (Builder.empty : Builder ρ) where
  held kind name register := by cases kind <;> simp [Builder.registers, Builder.empty]
  total kind := by cases kind <;> rfl
  distinct := List.nodup_nil

theorem Lays.append (lays : Lays registers builder) (ops : List (Op ρ)) :
    Lays registers (builder.append ops) where
  held kind := by
    have same : (builder.append ops).registers kind = builder.registers kind := by
      cases kind <;> rfl
    rw [same]
    exact lays.held kind
  total kind := by
    have same : (builder.append ops).total kind = builder.total kind := by cases kind <;> rfl
    rw [same]
    exact lays.total kind
  distinct := lays.distinct

theorem Lays.get?_of_cut (lays : Lays registers builder) {before after : List Declared}
    {name : String} {size : Nat} (cut : registers = before ++ ⟨kind, name, size⟩ :: after) :
    (builder.registers kind).get? name = some ⟨positions before kind, size⟩ :=
  (lays.held kind name _).2 ⟨before, after, cut, rfl⟩

theorem Lays.resolve_eq_ok_iff (lays : Lays registers builder) {arg : RegisterArg} {span : Span} :
    (builder.registers kind).resolve arg = .ok span ↔ Locates registers kind arg span := by
  obtain ⟨name, index⟩ := arg
  constructor
  · intro resolved
    unfold Registers.resolve at resolved
    split at resolved
    · cases resolved
    · rename_i register found
      obtain ⟨before, after, cut, offset⟩ := (lays.held kind name register).1 found
      split at resolved
      · rename_i whole
        cases resolved
        cases whole
        rw [offset]
        exact .whole cut
      · rename_i position single
        split at resolved
        · rename_i inside
          cases resolved
          cases single
          rw [offset]
          exact .single cut inside
        · cases resolved
  · intro located
    cases located with
    | whole cut =>
        have found := lays.get?_of_cut cut
        simp [Registers.resolve, found]
    | single cut inside =>
        have found := lays.get?_of_cut cut
        simp [Registers.resolve, found, inside]

theorem Locates.addresses {arg : RegisterArg} {span : Span}
    (located : Locates registers kind arg span) : Addresses registers kind arg span.count := by
  cases located with
  | whole cut => exact .whole (by simp [cut, Span.count])
  | single cut inside => exact .single (by simp [cut]) inside

theorem Addresses.exists_locates {arg : RegisterArg} {count : Nat}
    (addresses : Addresses registers kind arg count) :
    ∃ span, Locates registers kind arg span ∧ span.count = count := by
  cases addresses with
  | whole declared =>
      obtain ⟨before, after, cut⟩ := List.append_of_mem declared
      exact ⟨_, .whole cut, rfl⟩
  | single declared inside =>
      obtain ⟨before, after, cut⟩ := List.append_of_mem declared
      exact ⟨_, .single cut inside, rfl⟩

theorem Locates.size_eq_none_iff {arg : RegisterArg} {span : Span}
    (located : Locates registers kind arg span) : span.size = none ↔ arg.index ≠ none := by
  cases located <;> simp

end Layout

section Declaring

/-- The builder with a register behind the others of its kind. -/
def Builder.extend (builder : Builder ρ) (declared : Declared) : Builder ρ :=
  match declared.kind with
  | .quantum =>
      { builder with
        quantum := builder.quantum.insert declared.name ⟨builder.circuit.qubits, declared.size⟩
        circuit := { builder.circuit with qubits := builder.circuit.qubits + declared.size } }
  | .classical =>
      { builder with
        classical := builder.classical.insert declared.name ⟨builder.circuit.clbits, declared.size⟩
        circuit := { builder.circuit with clbits := builder.circuit.clbits + declared.size } }

variable {builder : Builder ρ} {declared : Declared} {registers : List Declared}

theorem Builder.registers_extend (kind : RegisterKind) :
    (builder.extend declared).registers kind =
      if kind = declared.kind then
        (builder.registers kind).insert declared.name ⟨builder.total kind, declared.size⟩
      else builder.registers kind := by
  obtain ⟨own, name, size⟩ := declared
  cases kind <;> cases own <;> rfl

theorem Builder.total_extend (kind : RegisterKind) :
    (builder.extend declared).total kind =
      builder.total kind + positions [declared] kind := by
  obtain ⟨own, name, size⟩ := declared
  cases kind <;> cases own <;> simp [positions, extend, total]

/-- A list with one more item is cut where it was before, or at the new item. -/
theorem exists_cut_append_iff {α : Type} {items : List α} {last item : α} {good : List α → Prop} :
    (∃ before after, items ++ [last] = before ++ item :: after ∧ good before) ↔
      (item = last ∧ good items) ∨
        ∃ before after, items = before ++ item :: after ∧ good before := by
  constructor
  · rintro ⟨before, after, cut, holds⟩
    rcases cut_cases cut with ⟨rfl, rfl, -⟩ | ⟨middle, rfl⟩ | ⟨middle, rfl⟩
    · exact .inl ⟨rfl, holds⟩
    · simpa using congrArg List.length cut
    · exact .inr ⟨before, middle, rfl, holds⟩
  · rintro (⟨rfl, holds⟩ | ⟨before, after, rfl, holds⟩)
    · exact ⟨items, [], rfl, holds⟩
    · exact ⟨before, after ++ [last], by simp, holds⟩

theorem Lays.extend (lays : Lays registers builder)
    (fresh : ∀ register ∈ registers, register.name ≠ declared.name) :
    Lays (registers ++ [declared]) (builder.extend declared) where
  held kind name register := by
    rw [exists_cut_append_iff, ← lays.held, Builder.registers_extend]
    obtain ⟨own, ownName, size⟩ := declared
    obtain ⟨offset, otherSize⟩ := register
    by_cases sameKind : kind = own
    · subst sameKind
      rw [if_pos rfl, FiniteMap.get?_insert]
      by_cases sameName : name = ownName
      · subst sameName
        have absent : (builder.registers kind).get? name ≠ some ⟨offset, otherSize⟩ := by
          intro found
          obtain ⟨before, after, cut, -⟩ := (lays.held _ _ _).1 found
          exact fresh ⟨kind, name, otherSize⟩ (by simp [cut]) rfl
        rw [if_pos rfl, lays.total]
        simp only [Option.some.injEq, Register.mk.injEq, Declared.mk.injEq, true_and, absent,
          or_false]
        constructor
        · rintro ⟨rfl, rfl⟩
          exact ⟨rfl, rfl⟩
        · rintro ⟨rfl, rfl⟩
          exact ⟨rfl, rfl⟩
      · simp [sameName]
    · simp [sameKind]
  total kind := by rw [Builder.total_extend, positions_append, lays.total]
  distinct := by
    rw [List.map_append, List.nodup_append]
    refine ⟨lays.distinct, by simp, ?_⟩
    rintro name listed other last rfl
    obtain ⟨register, member, rfl⟩ := List.mem_map.1 listed
    exact fresh register member (by simpa using last)

theorem Lays.contains_iff (lays : Lays registers builder) (name : String) :
    (builder.quantum.contains name || builder.classical.contains name) = true ↔
      ∃ register ∈ registers, register.name = name := by
  have each (kind : RegisterKind) : (builder.registers kind).contains name = true ↔
      ∃ size, ⟨kind, name, size⟩ ∈ registers := by
    rw [FiniteMap.contains, Option.isSome_iff_exists]
    constructor
    · rintro ⟨register, found⟩
      obtain ⟨before, after, cut, -⟩ := (lays.held _ _ _).1 found
      exact ⟨register.size, by simp [cut]⟩
    · rintro ⟨size, member⟩
      obtain ⟨before, after, cut⟩ := List.append_of_mem member
      exact ⟨_, lays.get?_of_cut cut⟩
  have quantum := each .quantum
  have classical := each .classical
  rw [Bool.or_eq_true]
  constructor
  · rintro (found | found)
    · obtain ⟨size, member⟩ := quantum.1 found
      exact ⟨_, member, rfl⟩
    · obtain ⟨size, member⟩ := classical.1 found
      exact ⟨_, member, rfl⟩
  · rintro ⟨⟨kind, name, size⟩, member, rfl⟩
    cases kind with
    | quantum => exact .inl (quantum.2 ⟨size, member⟩)
    | classical => exact .inr (classical.2 ⟨size, member⟩)

theorem Builder.declare_eq (builder : Builder ρ) (declared : Declared) :
    builder.declare declared.kind declared.name declared.size =
      if builder.quantum.contains declared.name || builder.classical.contains declared.name then
        .fail (.duplicateRegister declared.name)
      else if builder.total declared.kind + declared.size < UInt64.size then
        .ok (builder.extend declared)
      else .error .overflow := by
  obtain ⟨own, name, size⟩ := declared
  cases own <;> rfl

/-- A register is declared exactly when its name is new and the positions can be counted. -/
theorem Lays.declare (lays : Lays registers builder) (declared : Declared) :
    SucceedsIff (Admissible registers (.register declared)) (Lays (registers ++ [declared]))
      (builder.declare declared.kind declared.name declared.size) := by
  rw [Builder.declare_eq, lays.total]
  constructor
  · rintro ⟨fresh, fits⟩
    have unused : ¬ (builder.quantum.contains declared.name ||
        builder.classical.contains declared.name) = true := by
      rw [lays.contains_iff]
      rintro ⟨register, member, same⟩
      exact fresh register member same
    rw [if_neg unused, if_pos fits]
    exact ⟨_, rfl⟩
  · intro next done
    split at done
    · cases done
    · rename_i unused
      split at done
      · rename_i fits
        cases done
        have fresh : ∀ register ∈ registers, register.name ≠ declared.name := by
          intro register member same
          exact unused ((lays.contains_iff _).2 ⟨register, member, same⟩)
        exact ⟨⟨fresh, fits⟩, lays.extend fresh⟩
      · cases done

end Declaring

section Applying

variable {builder : Builder ρ} {registers : List Declared}

theorem Lays.exists_resolve_iff (lays : Lays registers builder) (kind : RegisterKind)
    (arg : RegisterArg) :
    (∃ span, (builder.registers kind).resolve arg = .ok span) ↔
      ∃ count, Addresses registers kind arg count := by
  constructor
  · rintro ⟨span, resolved⟩
    exact ⟨span.count, (lays.resolve_eq_ok_iff.1 resolved).addresses⟩
  · rintro ⟨count, addresses⟩
    obtain ⟨span, located, -⟩ := addresses.exists_locates
    exact ⟨span, lays.resolve_eq_ok_iff.2 located⟩

theorem Lays.measure (lays : Lays registers builder) (qubit clbit : RegisterArg) :
    SucceedsIff (Admissible registers (.measure qubit clbit)) (Lays registers)
      (builder.measure qubit clbit) := by
  constructor
  · rintro ⟨count, addressesQubit, addressesClbit⟩
    obtain ⟨qubits, locatedQubits, qubitCount⟩ := addressesQubit.exists_locates
    obtain ⟨clbits, locatedClbits, clbitCount⟩ := addressesClbit.exists_locates
    have resolvedQubits : builder.quantum.resolve qubit = .ok qubits :=
      lays.resolve_eq_ok_iff.2 locatedQubits
    have resolvedClbits : builder.classical.resolve clbit = .ok clbits :=
      lays.resolve_eq_ok_iff.2 locatedClbits
    rw [Builder.measure, resolvedQubits, ok_bind, resolvedClbits, ok_bind,
      if_pos (qubitCount.trans clbitCount.symm)]
    exact ⟨_, rfl⟩
  · intro next done
    obtain ⟨qubits, resolvedQubits, done⟩ := exists_of_bind_eq_ok done
    obtain ⟨clbits, resolvedClbits, done⟩ := exists_of_bind_eq_ok done
    have locatedQubits : Locates registers .quantum qubit qubits :=
      lays.resolve_eq_ok_iff.1 resolvedQubits
    have locatedClbits : Locates registers .classical clbit clbits :=
      lays.resolve_eq_ok_iff.1 resolvedClbits
    split at done
    · rename_i same
      cases done
      exact ⟨⟨qubits.count, locatedQubits.addresses, same ▸ locatedClbits.addresses⟩,
        lays.append _⟩
    · cases done

theorem Lays.reset (lays : Lays registers builder) (arg : RegisterArg) :
    SucceedsIff (Admissible registers (.reset arg)) (Lays registers) (builder.reset arg) := by
  constructor
  · intro admissible
    obtain ⟨span, resolved⟩ := (lays.exists_resolve_iff .quantum arg).2 admissible
    have resolved : builder.quantum.resolve arg = .ok span := resolved
    rw [Builder.reset, resolved, ok_bind]
    exact ⟨_, rfl⟩
  · intro next done
    obtain ⟨span, resolved, done⟩ := exists_of_bind_eq_ok done
    cases done
    exact ⟨(lays.exists_resolve_iff .quantum arg).1 ⟨span, resolved⟩, lays.append _⟩

theorem Lays.checkBarrier (lays : Lays registers builder) (args : List RegisterArg) :
    builder.checkBarrier args = .ok () ↔ Admissible registers (.barrier args) := by
  rw [Builder.checkBarrier, forM_eq_ok_iff]
  refine forall_congr' fun arg => forall_congr' fun _ => ?_
  rw [← lays.exists_resolve_iff .quantum]
  change (builder.quantum.resolve arg >>= fun _ => .ok ()) = .ok () ↔
    ∃ span, builder.quantum.resolve arg = .ok span
  cases builder.quantum.resolve arg with
  | ok span => simp
  | error cause => simp [bind, Except.bind]

theorem Builder.commonWidth_eq_ok_iff {gateName : String} {width : Option Nat} {spans : List Span}
    {result : Nat} :
    Builder.commonWidth gateName width spans = .ok result ↔
      (∀ size, (width = some size ∨ ∃ span ∈ spans, span.size = some size) → size = result) ∧
        (width = none → (∀ span ∈ spans, span.size = none) → result = 1) := by
  induction spans generalizing width with
  | nil => cases width <;> simp [Builder.commonWidth, eq_comm]
  | cons span spans ih =>
      obtain ⟨offset, own⟩ := span
      match own, width with
      | none, width => simp [Builder.commonWidth, ih]
      | some size, none =>
          simp only [Builder.commonWidth]
          rw [ih]
          simp
      | some size, some width =>
          simp only [Builder.commonWidth]
          split
          · rename_i same
            subst same
            rw [ih]
            simp
          · rename_i different
            simp only [reduceCtorEq, false_iff]
            rintro ⟨common, -⟩
            have first := common width (.inl rfl)
            have second := common size (.inr ⟨⟨offset, some size⟩, by simp, rfl⟩)
            exact different (second.trans first.symm)

theorem Addresses.unique (distinct : (registers.map Declared.name).Nodup) {kind : RegisterKind}
    {arg : RegisterArg} {count count' : Nat} (first : Addresses registers kind arg count)
    (second : Addresses registers kind arg count') : count = count' := by
  cases first with
  | whole declared =>
      cases second with
      | whole declared' =>
          exact congrArg Declared.size (List.inj_on_of_nodup_map distinct declared declared' rfl)
  | single =>
      cases second with
      | single => rfl

/-- The position that takes part in a step is that of the argument's place in its register. -/
theorem Locates.exists_position_eq {kind : RegisterKind} {arg : RegisterArg} {span : Span}
    {step : Nat} (located : Locates registers kind arg span)
    (below : ∀ size, span.size = some size → step < size) :
    ∃ before after size, registers = before ++ ⟨kind, (arg.place step).1, size⟩ :: after ∧
      (arg.place step).2 < size ∧
      span.position step = positions before kind + (arg.place step).2 := by
  cases located with
  | whole cut => exact ⟨_, _, _, cut, below _ rfl, rfl⟩
  | single cut inside => exact ⟨_, _, _, cut, inside, rfl⟩

theorem nodup_positions_iff (distinct : (registers.map Declared.name).Nodup)
    {kind : RegisterKind} {args : List RegisterArg} {spans : List Span} {width step : Nat}
    (located : List.Forall₂ (Locates registers kind) args spans)
    (common : ∀ span ∈ spans, ∀ size, span.size = some size → size = width)
    (below : step < width) :
    (spans.map (·.position step)).Nodup ↔ (args.map (·.place step)).Nodup := by
  have inside : List.Forall₂ (fun span arg => (∀ size, span.size = some size → step < size) ∧
      Locates registers kind arg span) spans args := by
    refine (List.forall₂_and_left spans args).2
      ⟨fun span listed size whole => ?_, List.Forall₂.flip located⟩
    rw [common span listed size whole]
    exact below
  refine nodup_map_iff_of_forall₂ inside ?_
  rintro span arg span' arg' ⟨belowSpan, locatedSpan⟩ ⟨belowSpan', locatedSpan'⟩
  obtain ⟨before, after, size, cut, insideSpan, same⟩ := locatedSpan.exists_position_eq belowSpan
  obtain ⟨before', after', size', cut', insideSpan', same'⟩ :=
    locatedSpan'.exists_position_eq belowSpan'
  rw [same, same']
  exact position_eq_iff distinct cut cut' insideSpan insideSpan'

theorem Lays.forall₂_locates (lays : Lays registers builder) {args : List RegisterArg}
    {spans : List Span} (resolved : args.mapM builder.quantum.resolve = .ok spans) :
    List.Forall₂ (Locates registers .quantum) args spans :=
  (forall₂_of_mapM resolved).imp fun _ _ done => lays.resolve_eq_ok_iff.1 done

/-- A gate is applied exactly when it takes as many arguments and can be broadcast over them. -/
theorem Lays.applyGate (lays : Lays registers builder) (name : String) (gate : Gate ρ)
    (args : List RegisterArg) :
    SucceedsIff (args.length = gate.qubitCount ∧ ∃ width, Broadcasts registers args width)
      (Lays registers) (builder.applyGate name gate args) := by
  constructor
  · rintro ⟨count, width, broadcasts⟩
    obtain ⟨spans, resolved⟩ : ∃ spans, args.mapM builder.quantum.resolve = .ok spans := by
      refine exists_mapM_eq_ok fun arg member => ?_
      obtain ⟨count, addresses, -⟩ := broadcasts.addresses arg member
      exact (lays.exists_resolve_iff .quantum arg).2 ⟨count, addresses⟩
    have located := lays.forall₂_locates resolved
    have common : ∀ span ∈ spans, ∀ size, span.size = some size → size = width := by
      intro span listed size whole
      obtain ⟨arg, member, locatedArg⟩ := exists_of_forall₂_right located span listed
      obtain ⟨count, addresses, same⟩ := broadcasts.addresses arg member
      have spanCount : span.count = size := by simp [Span.count, whole]
      have unindexed : arg.index = none := by
        by_contra indexed
        rw [locatedArg.size_eq_none_iff.2 indexed] at whole
        cases whole
      rw [← same unindexed, ← spanCount]
      exact locatedArg.addresses.unique lays.distinct addresses
    have widthDone : Builder.commonWidth name none spans = .ok width := by
      refine Builder.commonWidth_eq_ok_iff.2 ⟨?_, fun _ single => broadcasts.once ?_⟩
      · rintro size (impossible | ⟨span, listed, whole⟩)
        · cases impossible
        · exact common span listed size whole
      · intro arg member
        obtain ⟨span, listed, locatedArg⟩ := exists_of_forall₂_left located arg member
        exact locatedArg.size_eq_none_iff.1 (single span listed)
    obtain ⟨ops, applied⟩ :
        ∃ ops, (List.range width).mapM (Builder.applyAt name gate spans) = .ok ops := by
      refine exists_mapM_eq_ok fun step below => ?_
      have below := List.mem_range.1 below
      have nodup := (nodup_positions_iff lays.distinct located common below).2
        (broadcasts.distinct step below)
      exact ⟨_, if_pos nodup⟩
    rw [Builder.applyGate, if_pos count, ok_bind, resolved, ok_bind, widthDone, ok_bind, applied,
      ok_bind]
    exact ⟨_, rfl⟩
  · intro next done
    rw [Builder.applyGate] at done
    have count : args.length = gate.qubitCount := by
      by_contra different
      rw [if_neg different] at done
      cases done
    rw [if_pos count, ok_bind] at done
    obtain ⟨spans, resolved, done⟩ := exists_of_bind_eq_ok done
    obtain ⟨width, widthDone, done⟩ := exists_of_bind_eq_ok done
    obtain ⟨ops, applied, done⟩ := exists_of_bind_eq_ok done
    cases done
    have located := lays.forall₂_locates resolved
    obtain ⟨sizes, single⟩ := Builder.commonWidth_eq_ok_iff.1 widthDone
    have common : ∀ span ∈ spans, ∀ size, span.size = some size → size = width :=
      fun span listed size whole => sizes size (.inr ⟨span, listed, whole⟩)
    refine ⟨⟨count, width, ⟨fun arg member => ?_, fun indexed => ?_, fun step below => ?_⟩⟩,
      lays.append ops⟩
    · obtain ⟨span, listed, locatedArg⟩ := exists_of_forall₂_left located arg member
      refine ⟨span.count, locatedArg.addresses, fun unindexed => ?_⟩
      cases whole : span.size with
      | none => exact absurd unindexed (locatedArg.size_eq_none_iff.1 whole)
      | some size =>
          rw [Span.count, whole]
          exact common span listed size whole
    · refine single rfl fun span listed => ?_
      obtain ⟨arg, member, locatedArg⟩ := exists_of_forall₂_right located span listed
      exact locatedArg.size_eq_none_iff.2 (indexed arg member)
    · obtain ⟨op, -, appliedStep⟩ :=
        exists_of_forall₂_left (forall₂_of_mapM applied) step (List.mem_range.2 below)
      refine (nodup_positions_iff lays.distinct located common below).1 ?_
      by_contra repeated
      rw [Builder.applyAt, if_neg repeated] at appliedStep
      cases appliedStep

end Applying

end HybridQuantum.Circuit
