import HybridQuantum.Proofs.Cast.TypeSoundness
import HybridQuantum.Proofs.Memory.Coherence
import HybridQuantum.Proofs.Types.Sums

/-!
# Granted and demanded widths

Declaring a quantum variable grants it the upper bound of its type's size, or the
lower bound when there is no upper one; a cast of its program asks for a number
between the two bounds.  The two agree as long as the lower bound does not exceed
the upper one, which sums keep only up to a point: an undefined upper bound counts
as zero beside a defined one, so the sum of an open type and a bounded one may end
up with a lower bound above its upper bound.
-/

namespace HybridQuantum

namespace QSize

/-- The lower bound is at most the upper one, if that is defined. -/
def IsOrdered (size : QSize) : Prop :=
  ∀ max ∈ size.max, size.min ≤ max

instance (size : QSize) : Decidable size.IsOrdered :=
  inferInstanceAs (Decidable (∀ max ∈ size.max, size.min ≤ max))

/-- The lower bound is at most the upper one, an undefined one counted as zero. -/
def IsCovered (size : QSize) : Prop :=
  size.min.toNat ≤ (size.max.getD 0).toNat

variable {left right sum : QSize}

theorem IsCovered.add? (leftCovered : left.IsCovered) (rightCovered : right.IsCovered)
    (added : left.add? right = some sum) : sum.IsCovered := by
  obtain ⟨min, max, -⟩ := toNat_of_add? added
  unfold IsCovered at *
  omega

theorem IsCovered.isOrdered {size : QSize} (covered : size.IsCovered) : size.IsOrdered := by
  intro max defined
  rw [IsCovered, Option.mem_def.1 defined, Option.getD_some] at covered
  exact UInt32.le_iff_toNat_le.2 covered

/-- Ordered bounds cover the lower one, unless indices are needed and none are promised. -/
theorem IsOrdered.isCovered {size : QSize} (ordered : size.IsOrdered)
    (bounded : size.max = none → size.min = 0) : size.IsCovered := by
  unfold IsCovered
  cases defined : size.max with
  | none => simp [bounded defined]
  | some max => exact UInt32.le_iff_toNat_le.1 (ordered max defined)

/-- The width granted to a variable is admitted exactly by ordered bounds. -/
theorem admits_width_iff (size : QSize) :
    size.admits size.width.toNat = true ↔ size.IsOrdered := by
  have fits := size.width.toNat_lt
  cases defined : size.max with
  | none =>
      rw [width, defined] at fits
      simpa [admits, IsOrdered, width, defined] using fits
  | some max =>
      rw [width, defined] at fits
      simpa [admits, IsOrdered, width, defined, UInt32.le_iff_toNat_le] using fun _ => fits

end QSize

namespace TypeTable

variable {table : TypeTable}

/--
The builtins inside a type agree on whether there is an upper bound: all leave it
undefined, or only those do that need no index.
-/
def HasUniformBounds (table : TypeTable) (name : Name) : Prop :=
  (∀ size, table.Spans name size → size.max = none) ∨
    ∀ size, table.Spans name size → size.max = none → size.min = 0

/-- Sums over builtins with ordered and uniform bounds are ordered. -/
theorem isOrdered_of_resolveQSize (sound : table.Sound)
    (ordered : ∀ type ∈ table.types, type.isBuiltin = true → ∀ size ∈ type.qsize, size.IsOrdered)
    {name : Name} (uniform : table.HasUniformBounds name) {size : QSize}
    (done : (table.resolveQSize name).1 = .ok size) : size.IsOrdered := by
  have spansOrdered : ∀ part, table.Spans name part → part.IsOrdered := by
    rintro part ⟨other, type, -, found, builtin, known⟩
    exact ordered type (mem_of_get?_eq_some found) builtin part known
  rcases uniform with unbounded | bounded
  · have undefined : size.max = none :=
      closed_of_resolveQSize sound (fun part => part.max = none) rfl
        (fun _ _ _ left right added => (QSize.toNat_of_add? added).2.2.2 ⟨left, right⟩)
        unbounded done
    simp [QSize.IsOrdered, undefined]
  · have covered : size.IsCovered :=
      closed_of_resolveQSize sound QSize.IsCovered (Nat.zero_le _)
        (fun _ _ _ left right added => left.add? right added)
        (fun part spans => (spansOrdered part spans).isCovered (bounded part spans)) done
    exact covered.isOrdered

/-- A size that resolution answers is on record afterwards. -/
theorem exists_recorded_of_resolveQSize {next : TypeTable} {name : Name} {size : QSize}
    (done : table.resolveQSize name = (.ok size, next)) :
    ∃ type, next.get? name = some type ∧ type.qsize = some size := by
  simp only [resolveQSize] at done
  rcases walked : measureOf .indices table [] .empty name with ⟨answer, sums⟩
  rw [walked] at done
  obtain ⟨rfl, rfl⟩ := Prod.mk.inj done
  obtain ⟨type, found, known⟩ := or_recorded_of_measureOf walked
  exact ⟨_, get?_recordQSizes sums found, known⟩

end TypeTable

namespace Scope

/-- The steps of a declaration that stores a quantum variable. -/
theorem exists_of_declare_eq_ok {scope next : Scope} {types table : TypeTable} {holder : Variable}
    {granted : List Nat} (quantum : holder.isQuantum = true)
    (declared : scope.declare types holder = (.ok granted, next, table)) :
    ∃ size, types.resolveQSize holder.type = (.ok size, table) ∧
      scope.pool.request holder.name size.width.toNat = (.ok granted, next.pool) := by
  unfold declare grant at declared
  rw [if_pos quantum] at declared
  rcases resolved : types.resolveQSize holder.type with ⟨answer, after⟩
  rw [resolved] at declared
  cases answer with
  | error fault => cases fault <;> cases declared
  | ok size =>
      rcases requested : scope.pool.request holder.name size.width.toNat with ⟨answer, pool⟩
      simp only [requested] at declared
      cases answer with
      | error cause => cases declared
      | ok indexes =>
          cases declared
          exact ⟨size, rfl, requested⟩

end Scope

/-- Whenever a computation stops, it stops for an admissible reason. -/
def StopsFor {ε α : Type} (admissible : ε → Prop) (answer : Except ε α) : Prop :=
  ∀ cause, answer = .error cause → admissible cause

namespace StopsFor

variable {ε α β : Type} {admissible : ε → Prop}

theorem ok (value : α) : StopsFor admissible (.ok value) := by
  intro cause failed
  cases failed

theorem error {cause : ε} (allowed : admissible cause) :
    StopsFor admissible (.error cause : Except ε α) := by
  intro found failed
  cases failed
  exact allowed

theorem bind {first : Except ε α} {next : α → Except ε β} (stops : StopsFor admissible first)
    (stopsNext : ∀ value, StopsFor admissible (next value)) :
    StopsFor admissible (first >>= next) := by
  cases first with
  | ok value => exact stopsNext value
  | error fault => exact error (stops fault rfl)

end StopsFor

/-- An error that is not about the number of indices a variable holds. -/
def CastError.IsOther (cause : CastError) : Prop :=
  ∀ var origin expected held, cause ≠ .widthMismatch var origin expected held

/-- A stop that is not about the number of indices a variable holds. -/
def Fault.IsOther (fault : Fault CastError) : Prop :=
  ∀ cause, fault = .error cause → cause.IsOther

theorem Fault.isOther_error {cause : CastError} (other : cause.IsOther) :
    (Fault.error cause).IsOther := by
  intro found same
  cases same
  exact other

theorem StopsFor.ofExcept {α : Type} {answer : Except CastError α}
    (stops : StopsFor CastError.IsOther answer) :
    StopsFor Fault.IsOther (Outcome.ofExcept answer) := by
  cases answer with
  | ok value => exact .ok value
  | error cause => exact .error (Fault.isOther_error (stops cause rfl))

theorem StopsFor.mapError {ε α : Type} {embed : ε → CastError} {answer : Outcome ε α}
    (other : ∀ cause, (embed cause).IsOther) :
    StopsFor Fault.IsOther (answer.mapError embed) := by
  match answer with
  | .ok value => exact .ok value
  | .error .overflow => exact .error (by intro cause same; cases same)
  | .error (.error cause) => exact .error (Fault.isOther_error (other cause))

namespace Conversion

theorem stopsFor_bounded (value : Value) (target : Name) (max : Nat) :
    StopsFor CastError.IsOther (bounded value target max) := by
  refine .bind ?_ fun number => ?_
  · cases value with
    | uint | bool | char => exact .ok _
    | int number =>
        simp only [natural]
        split
        · exact .ok _
        · exact .error (by simp [CastError.IsOther])
    | float | null | str => exact .error (by simp [CastError.IsOther, unsupported])
  · split
    · exact .error (by simp [CastError.IsOther])
    · exact .ok _

theorem stopsFor_toQuantum (value : Value) (target : Name) (width : Nat) :
    StopsFor CastError.IsOther (toQuantum value target width) :=
  .bind (stopsFor_bounded value target _) fun _ => .ok _

theorem stopsFor_codeToChar (value : Value) (target : Name) :
    StopsFor CastError.IsOther (codeToChar value target) := by
  refine .bind (stopsFor_bounded value target _) fun code => ?_
  split
  · exact .ok _
  · exact .error (by simp [CastError.IsOther, unsupported])

theorem stopsFor_toClassical (value : Value) (target : Name) :
    StopsFor CastError.IsOther (toClassical value target) := by
  have refused (obstacle : Obstacle) : StopsFor CastError.IsOther
      (.error (unsupported value target obstacle) : Except CastError Value) :=
    .error (by simp [CastError.IsOther, unsupported])
  unfold toClassical
  split
  · exact refused _
  · unfold toBool
    split
    · exact .ok _
    · exact .bind (stopsFor_bounded _ _ _) fun _ => .ok _
  · exact .bind (stopsFor_bounded _ _ _) fun _ => .ok _
  · unfold toInt
    split
    · exact .ok _
    · exact .bind (stopsFor_bounded _ _ _) fun _ => .ok _
  · unfold toFloat
    split
    · exact .ok _
    · exact .ok _
    · exact .ok _
    · exact refused _
  · unfold toChar
    split
    · exact .ok _
    · exact stopsFor_codeToChar _ _
    · exact stopsFor_codeToChar _ _
    · exact refused _
  · exact .ok _

end Conversion

variable {σ : Type}

theorem QuantumProgram.stopsFor_run (program : QuantumProgram) (backend : Backend σ)
    (config : ExecutionConfig) (evaluator : Evaluator) (state : σ) :
    StopsFor Fault.IsOther (program.run backend config evaluator state).1 := by
  have ofExecution (cause : BackendError) :
      (CastError.ofExecution program.var cause).IsOther := by
    cases cause <;> simp [CastError.ofExecution, CastError.IsOther]
  have stopsWidth : StopsFor CastError.IsOther program.width := by
    unfold width
    split
    · exact .ok _
    · exact .error (by simp [CastError.IsOther])
  have stopsLower : StopsFor CastError.IsOther (program.lower evaluator) := by
    unfold lower
    split
    · exact .error (by simp [CastError.IsOther])
    · split
      · exact .error (by simp [CastError.IsOther])
      · exact .ok _
  have stopsSubmit : StopsFor Fault.IsOther (program.submit backend config evaluator state).1 := by
    unfold submit
    split
    · rename_i cause failed
      exact .error (Fault.isOther_error (stopsLower cause failed))
    · rename_i cause failed _
      exact .error (Fault.isOther_error (stopsWidth cause failed))
    · exact .mapError ofExecution
  unfold run
  split
  · rename_i fault _ submitted
    exact .error (stopsSubmit fault (by rw [submitted]))
  · split
    · exact .mapError ofExecution
    · refine .ofExcept (.bind stopsWidth fun width => ?_)
      split
      · exact .error (by simp [CastError.IsOther])
      · exact .ok _

namespace Cast

variable {cast : Cast} {context : CastContext σ}

theorem stopsFor_quantumSize (name : Name) :
    StopsFor CastError.IsOther (context.quantumSize name) := by
  unfold CastContext.quantumSize
  split
  · exact .error (by simp [CastError.IsOther])
  · split
    · exact .ok _
    · exact .error (by simp [CastError.IsOther])

theorem stopsFor_resolveRun (var : Name) (counts : Counts) :
    StopsFor Fault.IsOther (cast.resolveRun context var counts) := by
  have stopsResolve (spec : Spec) :
      StopsFor Fault.IsOther (resolve context var counts spec) :=
    .mapError (by simp [CastError.IsOther])
  have stopsEncode (width : Nat) (resolved : Resolved) :
      StopsFor CastError.IsOther (cast.encodeResolved width resolved) := by
    unfold encodeResolved
    split
    · exact Conversion.stopsFor_toQuantum _ _ _
    · exact Conversion.stopsFor_toQuantum _ _ _
    · exact .error (by simp [CastError.IsOther])
    · exact .error (by simp [CastError.IsOther, unsupported])
  unfold resolveRun
  split
  · refine .bind (.ofExcept (stopsFor_quantumSize _)) fun size => ?_
    exact .bind (stopsResolve _) fun resolved => .bind (.ofExcept (stopsEncode _ _)) fun _ => .ok _
  · unfold resolveClassical
    split
    · exact .error (Fault.isOther_error (by simp [CastError.IsOther, unsupported]))
    · refine .bind (stopsResolve _) fun resolved => ?_
      split
      · exact .ok _
      · exact .bind (.ofExcept (Conversion.stopsFor_toClassical _ _)) fun _ => .ok _

/-- Once the width check has passed, nothing else in a cast complains about a width. -/
theorem stopsFor_apply {program : QuantumProgram}
    (checked : cast.checkWidth program context = .ok ()) (state : σ) :
    StopsFor Fault.IsOther (cast.apply context (.program program) state).1 := by
  unfold apply
  split
  · exact .error (Fault.isOther_error (by simp [CastError.IsOther, unsupported]))
  · simp only [castProgram, checked]
    split
    · split
      · rename_i fault _ ran
        exact .error (program.stopsFor_run _ _ _ state fault (by rw [ran]))
      · exact stopsFor_resolveRun _ _
    · exact .error (Fault.isOther_error (by simp [CastError.IsOther, unsupported]))

/-- The width check of a variable that holds what its declaration granted. -/
theorem checkWidth_of_recorded {program : QuantumProgram} {size : QSize} {granted : List Nat}
    (recorded : context.quantumSize cast.origin = .ok size)
    (held : program.pool.indexesOf? program.var = some granted)
    (spans : granted.length = size.width.toNat) :
    cast.checkWidth program context =
      if size.IsOrdered then .ok ()
      else .error (.widthMismatch program.var cast.origin size granted.length) := by
  rw [checkWidth, recorded, ok_bind, QuantumProgram.width_eq_ok held, ok_bind, spans]
  simp only [QSize.admits_width_iff]

/--
The indices that a declaration grants a quantum variable pass the width check of
every cast from the variable's type, in the table the declaration leaves behind,
exactly when the bounds of the type's size are ordered, and then no cast of the
variable's program complains about its width.  They are ordered when every builtin
comes with ordered bounds and those inside the type are uniform.
-/
theorem checkWidth_of_declare {start types table : TypeTable} {calls : List TableCall}
    (new : start = .empty ∨ start = .builtins) (reached : TableCall.run start calls = types)
    (ordered : ∀ type ∈ types.types, type.isBuiltin = true → ∀ size ∈ type.qsize, size.IsOrdered)
    {scope next : Scope} {holder : Variable} {granted : List Nat}
    (quantum : holder.isQuantum = true)
    (declared : scope.declare types holder = (.ok granted, next, table)) :
    ∃ size, (types.resolveQSize holder.type).1 = .ok size ∧
      next.pool.indexesOf? holder.name = some granted ∧ granted.length = size.width.toNat ∧
      (types.HasUniformBounds holder.type → size.IsOrdered) ∧
      ∀ (cast : Cast) (block : Block) (context : CastContext σ),
        cast.origin = holder.type → context.types = table →
          (cast.checkWidth ⟨holder.name, block, next.pool⟩ context =
            if size.IsOrdered then .ok ()
            else .error (.widthMismatch holder.name holder.type size granted.length)) ∧
          (size.IsOrdered → ∀ state var origin expected held,
            (cast.apply context (.program ⟨holder.name, block, next.pool⟩) state).1 ≠
              .fail (.widthMismatch var origin expected held)) := by
  have sound := TableCall.sound_of_run_new new reached
  obtain ⟨size, resolved, requested⟩ := Scope.exists_of_declare_eq_ok quantum declared
  have done : (types.resolveQSize holder.type).1 = .ok size := by rw [resolved]
  have answered : (scope.pool.request holder.name size.width.toNat).1 = .ok granted := by
    rw [requested]
  have held := IndexPool.indexesOf?_of_request_eq_ok answered
  rw [requested] at held
  have spans := IndexPool.length_of_request_eq_ok answered
  refine ⟨size, done, held, spans,
    fun uniform => TypeTable.isOrdered_of_resolveQSize sound ordered uniform done, ?_⟩
  rintro cast block context origin rfl
  have recorded : context.quantumSize cast.origin = .ok size := by
    obtain ⟨type, found, known⟩ := TypeTable.exists_recorded_of_resolveQSize resolved
    exact CastContext.quantumSize_eq_ok_iff.2 ⟨type, origin ▸ found, known⟩
  have check : cast.checkWidth ⟨holder.name, block, next.pool⟩ context = _ :=
    checkWidth_of_recorded recorded held spans
  rw [origin] at check
  refine ⟨check, fun fits state var origin expected held failed => ?_⟩
  rw [if_pos fits] at check
  exact stopsFor_apply check state _ failed _ rfl var origin expected held rfl

/-- A struct of the open type and another one, without a size yet. -/
def besideOpen (leaf other : String) : DataType where
  name := .ofLeaf leaf
  kind := .struct
  members := [.typed "@a" (.ofLeaf "@open"), .typed "@b" (.ofLeaf other)]
  size := .unset
  qsize := none
  isBuiltin := false

/-- Two indices, an open type of three or more, two of it side by side, and one beside the two. -/
def openTypes : TypeTable where
  types :=
    [.builtin (.ofLeaf "@u2") (.fixed 2) (.fixed 2),
      .builtin (.ofLeaf "@open") (.fixed 1) ⟨3, none⟩,
      besideOpen "@twin" "@open", besideOpen "@mix" "@u2"]
  distinct := by decide

def openCalls : List TableCall :=
  [.add (.builtin (.ofLeaf "@u2") (.fixed 2) (.fixed 2)),
    .add (.builtin (.ofLeaf "@open") (.fixed 1) ⟨3, none⟩),
    .add (.user (.ofLeaf "@twin") .struct (besideOpen "@twin" "@open").members),
    .add (.user (.ofLeaf "@mix") .struct (besideOpen "@mix" "@u2").members)]

theorem run_openCalls : TableCall.run .empty openCalls = openTypes :=
  rfl

/-- An unassigned variable of one of the struct types. -/
def openHolder (leaf : String) : Variable :=
  ⟨.ofLeaf "@v", .ofLeaf leaf, .struct, .mutable,
    [⟨some "@a", some (.ofLeaf "@open")⟩, ⟨some "@b", none⟩], [], false⟩

/-- What is left after the variable is declared in a scope of eight indices. -/
def openAfter (leaf : String) : Scope × TypeTable :=
  ((Scope.new 8 0).declare openTypes (openHolder leaf)).2

def openProgram (leaf : String) : QuantumProgram :=
  ⟨.ofLeaf "@v", Lowering.sampleBlock, (openAfter leaf).1.pool⟩

def openContext (leaf : String) : CastContext ScriptLog :=
  { sampleContext 0 with types := (openAfter leaf).2 }

theorem isOrdered_openTypes :
    ∀ type ∈ openTypes.types, type.isBuiltin = true → ∀ size ∈ type.qsize, size.IsOrdered := by
  simp [openTypes, besideOpen, DataType.builtin, QSize.IsOrdered, QSize.fixed]

/-- Both members of the twin are open. -/
theorem hasUniformBounds_twin : openTypes.HasUniformBounds (.ofLeaf "@twin") := by
  have twin : openTypes.get? (.ofLeaf "@twin") = some (besideOpen "@twin" "@open") := by rfl
  have leaf : openTypes.get? (.ofLeaf "@open") =
      some (.builtin (.ofLeaf "@open") (.fixed 1) ⟨3, none⟩) := by rfl
  have inside : ∀ other, openTypes.Reaches (.ofLeaf "@twin") other →
      other = .ofLeaf "@twin" ∨ other = .ofLeaf "@open" := by
    intro other reached
    induction reached with
    | refl => exact .inl rfl
    | tail _ refers ih =>
        obtain ⟨type, found, member⟩ := refers
        rcases ih with rfl | rfl
        · rw [twin] at found
          cases found
          exact .inr (by simpa [besideOpen, DataType.memberTypes, Member.type?] using member)
        · rw [leaf] at found
          cases found
          cases member
  refine .inl ?_
  rintro size ⟨other, type, reached, found, -, known⟩
  rcases inside other reached with rfl | rfl
  · rw [twin] at found
    cases found
    cases known
  · rw [leaf] at found
    cases found
    cases known
    rfl

/-- Two open members side by side are granted six indices, which pass. -/
theorem checkWidth_of_declare_sample :
    ((Scope.new 8 0).declare openTypes (openHolder "@twin")).1 = .ok [0, 1, 2, 3, 4, 5] ∧
      openTypes.HasUniformBounds (.ofLeaf "@twin") ∧
      checkWidth ⟨.ofLeaf "@twin", .ofLeaf "u8"⟩ (openProgram "@twin") (openContext "@twin") =
        .ok () ∧
      ∀ state var origin expected held,
        (apply ⟨.ofLeaf "@twin", .ofLeaf "u8"⟩ (openContext "@twin")
          (.program (openProgram "@twin")) state).1 ≠
            .fail (.widthMismatch var origin expected held) := by
  have granted : ((Scope.new 8 0).declare openTypes (openHolder "@twin")).1 =
      .ok [0, 1, 2, 3, 4, 5] := by cbv
  obtain ⟨size, -, -, -, uniform, checks⟩ :=
    checkWidth_of_declare (σ := ScriptLog) (.inl rfl) run_openCalls isOrdered_openTypes (by decide)
      (Prod.ext granted rfl)
  have fits := uniform hasUniformBounds_twin
  obtain ⟨check, spared⟩ :=
    checks ⟨.ofLeaf "@twin", .ofLeaf "u8"⟩ Lowering.sampleBlock (openContext "@twin") rfl rfl
  rw [if_pos fits] at check
  exact ⟨granted, hasUniformBounds_twin, check, spared fits⟩

/--
Beside two indices the open member's three still count for the lower bound, but
only the two for the upper one: two indices are granted and five demanded.
-/
theorem checkWidth_mix :
    (∀ type ∈ openTypes.types, type.isBuiltin = true → ∀ size ∈ type.qsize, size.IsOrdered) ∧
      ((Scope.new 8 0).declare openTypes (openHolder "@mix")).1 = .ok [0, 1] ∧
      checkWidth ⟨.ofLeaf "@mix", .ofLeaf "u8"⟩ (openProgram "@mix") (openContext "@mix") =
        .error (.widthMismatch (.ofLeaf "@v") (.ofLeaf "@mix") ⟨5, some 2⟩ 2) ∧
      (apply ⟨.ofLeaf "@mix", .ofLeaf "u8"⟩ (openContext "@mix") (.program (openProgram "@mix"))
        .empty).1 = .fail (.widthMismatch (.ofLeaf "@v") (.ofLeaf "@mix") ⟨5, some 2⟩ 2) := by
  refine ⟨isOrdered_openTypes, ?_, ?_, ?_⟩ <;> cbv

end Cast

end HybridQuantum
