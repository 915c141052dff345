import HybridQuantum.Proofs.Types.Total
import Mathlib.Data.List.Forall2

/-!
# Which types have a total

A name is resolvable when everything it contains is declared, nothing it contains
contains itself, and every enum payload on the way is a single or a struct type.
Unless a sum runs out of its word width, a resolvable name has a total exactly
when no type on the way refuses to be measured, and a name with a total is
resolvable.
-/

namespace HybridQuantum

theorem exists_of_forM_eq_error {ε α : Type} {items : List α} {check : α → Except ε Unit}
    {cause : ε} (failed : items.forM check = .error cause) :
    ∃ item ∈ items, check item = .error cause := by
  induction items with
  | nil => cases failed
  | cons item rest ih =>
      change (check item >>= fun _ => rest.forM check) = .error cause at failed
      cases checked : check item with
      | ok done =>
          rw [checked, ok_bind] at failed
          obtain ⟨other, member, refused⟩ := ih failed
          exact ⟨other, List.mem_cons_of_mem _ member, refused⟩
      | error found =>
          rw [checked] at failed
          cases failed
          exact ⟨item, List.mem_cons_self, checked⟩

/-- The errors that size resolution reports. -/
def TypeError.isObstacle : TypeError → Bool
  | .unknownType _ => true
  | .definitionCycle _ => true
  | .unsizedType _ => true
  | .invalidEnumPayload _ _ _ => true
  | _ => false

namespace TypeTable

variable {σ : Type} {measure : Measure σ} {table : TypeTable}

/-- The payload of an enum member is declared as a single or a struct type. -/
def AllowsPayload (table : TypeTable) (payload : Name) : Prop :=
  ∃ type, table.get? payload = some type ∧ (type.kind = .single ∨ type.kind = .struct)

theorem dependencies_eq_ok_iff {type : DataType} {memberTypes : List Name} :
    table.dependencies type = .ok memberTypes ↔
      memberTypes = type.memberTypes ∧
        ∀ tag payload, .variant tag (some payload) ∈ type.members →
          table.AllowsPayload payload := by
  have checked : type.members.forM (table.checkPayload type.name) = .ok () ↔
      ∀ tag payload, .variant tag (some payload) ∈ type.members →
        table.AllowsPayload payload := by
    rw [forM_eq_ok_iff]
    constructor
    · intro passes tag payload member
      have passed := passes _ member
      simp only [checkPayload] at passed
      split at passed
      · cases passed
      · rename_i payloadType found
        split at passed
        · rename_i allowed
          exact ⟨payloadType, found, allowed⟩
        · cases passed
    · intro allows member inside
      match member, inside with
      | .single _, _ => rfl
      | .typed _ _, _ => rfl
      | .variant _ none, _ => rfl
      | .variant tag (some payload), inside =>
          obtain ⟨payloadType, found, allowed⟩ := allows tag payload inside
          simp only [checkPayload, found, if_pos allowed]
  rw [← checked]
  unfold dependencies
  cases type.members.forM (table.checkPayload type.name) with
  | ok done => simp [eq_comm]
  | error cause => simp

theorem cause_of_dependencies {type : DataType} {cause : TypeError}
    (failed : table.dependencies type = .error cause) :
    (∃ payload, cause = .unknownType payload) ∨
      ∃ tag payload, cause = .invalidEnumPayload type.name tag payload := by
  unfold dependencies at failed
  split at failed
  · cases failed
  · rename_i inner refused
    cases failed
    obtain ⟨member, -, checked⟩ := exists_of_forM_eq_error refused
    unfold checkPayload at checked
    split at checked
    · split at checked
      · cases checked
        exact .inl ⟨_, rfl⟩
      · split at checked
        · cases checked
        · cases checked
          exact .inr ⟨_, _, rfl⟩
    · cases checked

theorem isObstacle_of_dependencies {type : DataType} {cause : TypeError}
    (failed : table.dependencies type = .error cause) : cause.isObstacle = true := by
  obtain ⟨_, rfl⟩ | ⟨_, _, rfl⟩ := cause_of_dependencies failed
  · rfl
  · rfl

theorem dependencies_ne_definitionCycle {type : DataType} (cycle : List Name) :
    table.dependencies type ≠ .error (.definitionCycle cycle) := by
  intro failed
  obtain ⟨_, same⟩ | ⟨_, _, same⟩ := cause_of_dependencies failed
  · cases same
  · cases same

/-- Everything below a name is declared, free of cycles and has proper payloads. -/
structure Resolvable (table : TypeTable) (name : Name) : Prop where
  declared : ∀ other, table.Reaches name other → table.contains other = true
  acyclic : ∀ other, table.Reaches name other → ¬ Relation.TransGen table.Refers other other
  payloads : ∀ other type tag payload payloadType, table.Reaches name other →
    table.get? other = some type → .variant tag (some payload) ∈ type.members →
    table.get? payload = some payloadType →
    payloadType.kind = .single ∨ payloadType.kind = .struct

/-- No type below a name is refused. -/
def Unrefused (measure : Measure σ) (table : TypeTable) (name : Name) : Prop :=
  ∀ other type, table.Reaches name other → table.get? other = some type →
    measure.recorded type = none → measure.refusal type = none

/-- A refusal below a name, relabelled on the way up. -/
inductive Refused (measure : Measure σ) (table : TypeTable) : Name → TypeError → Prop where
  | own {name : Name} {type : DataType} {cause : TypeError} (found : table.get? name = some type)
      (unknown : measure.recorded type = none) (refused : measure.refusal type = some cause) :
      Refused measure table name cause
  | member {name other : Name} {cause : TypeError} (refers : table.Refers name other)
      (below : Refused measure table other cause) :
      Refused measure table name (measure.relabel name cause)

namespace Resolvable

theorem of_refers {name other : Name} (resolvable : table.Resolvable name)
    (refers : table.Refers name other) : table.Resolvable other where
  declared next reached := resolvable.declared next (.head refers reached)
  acyclic next reached := resolvable.acyclic next (.head refers reached)
  payloads next type tag payload payloadType reached :=
    resolvable.payloads next type tag payload payloadType (.head refers reached)

theorem exists_get? {name : Name} (resolvable : table.Resolvable name) :
    ∃ type, table.get? name = some type :=
  Option.isSome_iff_exists.1 (resolvable.declared name .refl)

theorem dependencies_eq {name : Name} {type : DataType} (resolvable : table.Resolvable name)
    (found : table.get? name = some type) : table.dependencies type = .ok type.memberTypes := by
  refine dependencies_eq_ok_iff.2 ⟨rfl, fun tag payload member => ?_⟩
  have refers : table.Refers name payload :=
    ⟨type, found, List.mem_filterMap.2 ⟨_, member, rfl⟩⟩
  obtain ⟨payloadType, foundPayload⟩ := (resolvable.of_refers refers).exists_get?
  exact ⟨payloadType, foundPayload,
    resolvable.payloads name type tag payload payloadType .refl found member foundPayload⟩

mutual

/-- The only error below a resolvable name is a refusal. -/
theorem refused_of_totalOf {path : List Name} (name : Name) {cause : TypeError}
    (resolvable : table.Resolvable name) (apart : ∀ place ∈ path, ¬ table.Reaches name place)
    (failed : totalOf measure table path name = .fail cause) :
    Refused measure table name cause := by
  obtain ⟨onPath, -⟩ | ⟨missing, -⟩ | ⟨type, fresh, found, unknown, rest⟩ :=
    exists_of_totalOf_eq_fail failed
  · exact absurd .refl (apart name onPath)
  · obtain ⟨type, found⟩ := resolvable.exists_get?
    rw [missing] at found
    cases found
  · have members := resolvable.dependencies_eq found
    obtain refused | refused | ⟨memberTypes, inner, members', summing, rfl⟩ := rest
    · exact .own found unknown refused
    · rw [members] at refused
      cases refused
    · rw [members] at members'
      cases members'
      obtain ⟨other, member, below⟩ := exists_refused_of_totalAll type.memberTypes
        (fun other member => resolvable.of_refers ⟨type, found, member⟩)
        (fun other member => not_reaches_of_step (resolvable.acyclic name .refl) apart
          ⟨type, found, member⟩) summing
      exact .member ⟨type, found, member⟩ below
termination_by (table.pending path, 0)
decreasing_by
  exact Prod.Lex.left _ _ (table.pending_append_lt (mem_names_of_get?_eq_some found) fresh)

theorem exists_refused_of_totalAll {path : List Name} {total : σ} (names : List Name)
    {cause : TypeError} (resolvable : ∀ other ∈ names, table.Resolvable other)
    (apart : ∀ other ∈ names, ∀ place ∈ path, ¬ table.Reaches other place)
    (failed : totalAll measure table path total names = .fail cause) :
    ∃ other ∈ names, Refused measure table other cause := by
  match names with
  | [] =>
      rw [totalAll] at failed
      cases failed
  | name :: rest =>
      obtain first | ⟨next, others⟩ := exists_of_totalAll_eq_fail failed
      · exact ⟨name, List.mem_cons_self, refused_of_totalOf name
          (resolvable name List.mem_cons_self) (apart name List.mem_cons_self) first⟩
      · obtain ⟨other, member, below⟩ := exists_refused_of_totalAll rest
          (fun other member => resolvable other (List.mem_cons_of_mem _ member))
          (fun other member => apart other (List.mem_cons_of_mem _ member)) others
        exact ⟨other, List.mem_cons_of_mem _ member, below⟩
termination_by (table.pending path, names.length + 1)

end

end Resolvable

theorem Refused.exists_refusal {name : Name} {cause : TypeError}
    (refused : Refused measure table name cause) : ¬ table.Unrefused measure name := by
  induction refused with
  | own found unknown refused =>
      intro unrefused
      rw [unrefused _ _ .refl found unknown] at refused
      cases refused
  | member refers _ ih =>
      intro unrefused
      exact ih fun next type reached => unrefused next type (.head refers reached)

section Sizes

theorem SizedAll.exists_sized {total result : σ} {names : List Name}
    (summed : SizedAll measure table total names result) :
    ∀ name ∈ names, ∃ value, Sized measure table name value := by
  induction names generalizing total with
  | nil => simp
  | cons name rest ih =>
      obtain _ | ⟨first, -, others⟩ := summed
      exact List.forall_mem_cons.2 ⟨⟨_, first⟩, ih others⟩

theorem Sized.exists_of_refers (leaves : table.RecordsLeaves measure) {name other : Name}
    {value : σ} (sized : Sized measure table name value) (refers : table.Refers name other) :
    ∃ part, Sized measure table other part := by
  obtain ⟨type, found', member⟩ := refers
  cases sized with
  | own found known =>
      rw [found] at found'
      cases found'
      rw [leaves _ _ _ found known] at member
      cases member
  | sum found _ _ members summed =>
      rw [found] at found'
      cases found'
      rw [← memberTypes_of_dependencies_eq_ok members] at member
      exact summed.exists_sized other member

theorem Sized.exists_of_reaches (leaves : table.RecordsLeaves measure) {name other : Name}
    {value : σ} (sized : Sized measure table name value) (reached : table.Reaches name other) :
    ∃ part, Sized measure table other part := by
  induction reached with
  | refl => exact ⟨value, sized⟩
  | tail _ refers ih =>
      obtain ⟨part, sizedPart⟩ := ih
      exact sizedPart.exists_of_refers leaves refers

/-- A name with a total is resolvable. -/
theorem Sized.resolvable (leaves : table.RecordsLeaves measure) {name : Name} {value : σ}
    (sized : Sized measure table name value) : table.Resolvable name where
  declared other reached := by
    obtain ⟨part, below⟩ := sized.exists_of_reaches leaves reached
    cases below with
    | own found | sum found => simp [contains, found]
  acyclic other reached := by
    obtain ⟨part, below⟩ := sized.exists_of_reaches leaves reached
    exact not_transGen_self_of_acc (below.acc leaves)
  payloads other type tag payload payloadType reached found member foundPayload := by
    obtain ⟨part, below⟩ := sized.exists_of_reaches leaves reached
    cases below with
    | own found' known =>
        have none := leaves _ _ _ found' known
        rw [found] at found'
        cases found'
        have inside : payload ∈ type.memberTypes := List.mem_filterMap.2 ⟨_, member, rfl⟩
        rw [none] at inside
        cases inside
    | sum found' _ _ members _ =>
        rw [found] at found'
        cases found'
        obtain ⟨other, foundOther, allowed⟩ :=
          (dependencies_eq_ok_iff.1 members).2 tag payload member
        rw [foundPayload] at foundOther
        cases foundOther
        exact allowed

theorem Sized.unrefused (leaves : table.RecordsLeaves measure) {name : Name} {value : σ}
    (sized : Sized measure table name value) : table.Unrefused measure name := by
  intro other type reached found unknown
  obtain ⟨part, below⟩ := sized.exists_of_reaches leaves reached
  cases below with
  | own found' known =>
      rw [found] at found'
      cases found'
      rw [unknown] at known
      cases known
  | sum found' _ allowed _ _ =>
      rw [found] at found'
      cases found'
      exact allowed

/-- Short of overflow, the totals are those of the resolvable names without a refusal. -/
theorem exists_totalOf_eq_ok_iff (leaves : table.RecordsLeaves measure) {name : Name}
    (fits : totalOf measure table [] name ≠ .error .overflow) :
    (∃ value, totalOf measure table [] name = .ok value) ↔
      table.Resolvable name ∧ table.Unrefused measure name := by
  constructor
  · rintro ⟨value, done⟩
    have sized := (totalOf_eq_ok_iff leaves).1 done
    exact ⟨sized.resolvable leaves, sized.unrefused leaves⟩
  · rintro ⟨resolvable, unrefused⟩
    match outcome : totalOf measure table [] name with
    | .ok value => exact ⟨value, rfl⟩
    | .error .overflow => exact absurd outcome fits
    | .error (.error cause) =>
        have refused := resolvable.refused_of_totalOf name (by simp) outcome
        exact absurd unrefused refused.exists_refusal

/-- The total of a name is the sum of the totals of its members. -/
theorem SizedAll.exists_parts {total result : σ} {names : List Name}
    (summed : SizedAll measure table total names result) :
    ∃ parts, List.Forall₂ (Sized measure table) names parts ∧
      parts.foldlM measure.add? total = some result := by
  induction names generalizing total with
  | nil =>
      cases summed
      exact ⟨[], .nil, rfl⟩
  | cons name rest ih =>
      obtain _ | ⟨first, added, others⟩ := summed
      obtain ⟨parts, sized, folded⟩ := ih others
      refine ⟨_ :: parts, .cons first sized, ?_⟩
      rw [List.foldlM_cons, added]
      exact folded

end Sizes

section Obstacles

/-- The errors a measure reports of its own accord are obstacles. -/
structure ReportsObstacles (measure : Measure σ) : Prop where
  refusal : ∀ type cause, measure.refusal type = some cause → cause.isObstacle = true
  relabel : ∀ name cause, cause.isObstacle = true → (measure.relabel name cause).isObstacle = true

mutual

theorem isObstacle_of_totalOf (reports : ReportsObstacles measure) {path : List Name} (name : Name)
    {cause : TypeError} (failed : totalOf measure table path name = .fail cause) :
    cause.isObstacle = true := by
  obtain ⟨-, rfl⟩ | ⟨-, rfl⟩ | ⟨type, fresh, found, -, rest⟩ := exists_of_totalOf_eq_fail failed
  · rfl
  · rfl
  · obtain refused | refused | ⟨memberTypes, inner, -, summing, rfl⟩ := rest
    · exact reports.refusal type cause refused
    · exact isObstacle_of_dependencies refused
    · exact reports.relabel name inner (isObstacle_of_totalAll reports memberTypes summing)
termination_by (table.pending path, 0)
decreasing_by
  exact Prod.Lex.left _ _ (table.pending_append_lt (mem_names_of_get?_eq_some found) fresh)

theorem isObstacle_of_totalAll (reports : ReportsObstacles measure) {path : List Name} {total : σ}
    (names : List Name) {cause : TypeError}
    (failed : totalAll measure table path total names = .fail cause) :
    cause.isObstacle = true := by
  match names with
  | [] =>
      rw [totalAll] at failed
      cases failed
  | name :: rest =>
      obtain first | ⟨next, others⟩ := exists_of_totalAll_eq_fail failed
      · exact isObstacle_of_totalOf reports name first
      · exact isObstacle_of_totalAll reports rest others
termination_by (table.pending path, names.length + 1)

end

end Obstacles

end TypeTable

end HybridQuantum
