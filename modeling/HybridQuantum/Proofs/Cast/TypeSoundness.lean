import HybridQuantum.Cast.Cast
import HybridQuantum.Proofs.Cast.RunCounts

/-!
# Casts are type sound

Whatever is cast, and whatever a back end and a resolver answer, a literal that
comes out has the target type and a value that type admits.  Five routes lead to
a literal, and each of them ends in one of two conversions; so the range checks
of the conversions are all there is to look at.
-/

namespace HybridQuantum

/-- The values a literal of some type may carry, each in its one form. -/
inductive Canonical (types : TypeTable) : Name → Value → Prop where
  | bool (content : Bool) : Canonical types (.ofLeaf "bool") (.bool content)
  | unsigned {leaf : String} {width : Nat} {number : UInt64}
      (sized : (leaf, width) ∈ [("u8", 8), ("u16", 16), ("u32", 32), ("u64", 64)])
      (inRange : number.toNat < 2 ^ width) : Canonical types (.ofLeaf leaf) (.uint number)
  | int (content : Int64) : Canonical types (.ofLeaf "int") (.int content)
  | float (content : Float) : Canonical types (.ofLeaf "float") (.float content)
  | char (content : Char) : Canonical types (.ofLeaf "char") (.char content)
  | str (content : String) : Canonical types (.ofLeaf "str") (.str content)
  /-- A basis state of a quantum type, over the indices its recorded size spans. -/
  | state {target : Name} {type : DataType} {size : QSize} {number : UInt64}
      (quantum : target.isQuantum = true) (found : types.get? target = some type)
      (recorded : type.qsize = some size)
      (inRange : number.toNat < 2 ^ (size.max.getD size.min).toNat) :
      Canonical types target (.uint number)

namespace ClassicalType

/-- A classical builtin is found under a root name only. -/
theorem exists_of_ofName? {target : Name} {kind : ClassicalType}
    (known : ofName? target = some kind) :
    ∃ leaf, target = .ofLeaf leaf ∧ (leaf, kind) ∈ all := by
  obtain ⟨⟨segments⟩, leaf⟩ := target
  unfold ofName? at known
  split at known
  · rename_i isRoot
    have root : segments = [] := by simpa [NameSpace.isRoot] using isRoot
    subst root
    refine ⟨leaf, rfl, ?_⟩
    obtain ⟨front, back, same, -⟩ := List.lookup_eq_some_iff.1 known
    simp [same]
  · cases known

end ClassicalType

namespace Conversion

variable {value result : Value} {target : Name} {number max width : Nat}

theorem le_of_bounded (passed : bounded value target max = .ok number) : number ≤ max := by
  obtain ⟨content, -, checked⟩ := exists_of_bind_eq_ok passed
  split at checked
  · cases checked
  · cases checked
    omega

/-- A number within the maximum of a width is a word, and fits the width. -/
theorem toNat_ofNat_of_le_maxForWidth (small : number ≤ maxForWidth width) :
    (UInt64.ofNat number).toNat = number ∧ number < 2 ^ width := by
  have positive : 0 < 2 ^ min width 64 := Nat.two_pow_pos _
  have below : number < 2 ^ min width 64 := by
    rw [maxForWidth, Nat.one_shiftLeft] at small
    omega
  have word : 2 ^ min width 64 ≤ UInt64.size :=
    Nat.pow_le_pow_right (by decide) (Nat.min_le_right width 64)
  refine ⟨UInt64.toNat_ofNat_of_lt' (Nat.lt_of_lt_of_le below word), ?_⟩
  exact Nat.lt_of_lt_of_le below (Nat.pow_le_pow_right (by decide) (Nat.min_le_left width 64))

theorem exists_of_toBool (converted : toBool value target = .ok result) :
    ∃ content, result = .bool content := by
  unfold toBool at converted
  split at converted
  · cases converted
    exact ⟨_, rfl⟩
  · obtain ⟨content, -, made⟩ := exists_of_bind_eq_ok converted
    cases made
    exact ⟨_, rfl⟩

theorem exists_of_toUnsigned (converted : toUnsigned width value target = .ok result) :
    ∃ word : UInt64, result = .uint word ∧ word.toNat < 2 ^ width := by
  obtain ⟨content, passed, made⟩ := exists_of_bind_eq_ok converted
  cases made
  obtain ⟨same, below⟩ := toNat_ofNat_of_le_maxForWidth (le_of_bounded passed)
  exact ⟨_, rfl, by rwa [same]⟩

theorem exists_of_toInt (converted : toInt value target = .ok result) :
    ∃ content, result = .int content := by
  unfold toInt at converted
  split at converted
  · cases converted
    exact ⟨_, rfl⟩
  · obtain ⟨content, -, made⟩ := exists_of_bind_eq_ok converted
    cases made
    exact ⟨_, rfl⟩

theorem exists_of_toFloat (converted : toFloat value target = .ok result) :
    ∃ content, result = .float content := by
  unfold toFloat at converted
  split at converted <;> cases converted <;> exact ⟨_, rfl⟩

theorem exists_of_codeToChar (converted : codeToChar value target = .ok result) :
    ∃ content, result = .char content := by
  obtain ⟨code, -, made⟩ := exists_of_bind_eq_ok converted
  split at made <;> cases made
  exact ⟨_, rfl⟩

theorem exists_of_toChar (converted : toChar value target = .ok result) :
    ∃ content, result = .char content := by
  unfold toChar at converted
  split at converted
  · cases converted
    exact ⟨_, rfl⟩
  · exact exists_of_codeToChar converted
  · exact exists_of_codeToChar converted
  · cases converted

theorem exists_toStr (value : Value) : ∃ content, toStr value = .str content := by
  cases value <;> exact ⟨_, rfl⟩

/-- What converts to a classical builtin is a canonical value of it. -/
theorem canonical_of_toClassical (types : TypeTable)
    (converted : toClassical value target = .ok result) : Canonical types target result := by
  unfold toClassical at converted
  cases known : ClassicalType.ofName? target with
  | none =>
      rw [known] at converted
      cases converted
  | some kind =>
      obtain ⟨leaf, rfl, listed⟩ := ClassicalType.exists_of_ofName? known
      rw [known] at converted
      cases kind with
      | bool =>
          obtain rfl : leaf = "bool" := by simpa [ClassicalType.all] using listed
          obtain ⟨content, rfl⟩ := exists_of_toBool converted
          exact .bool content
      | unsigned width =>
          obtain ⟨word, rfl, inRange⟩ := exists_of_toUnsigned converted
          exact .unsigned (by simpa [ClassicalType.all] using listed) inRange
      | int =>
          obtain rfl : leaf = "int" := by simpa [ClassicalType.all] using listed
          obtain ⟨content, rfl⟩ := exists_of_toInt converted
          exact .int content
      | float =>
          obtain rfl : leaf = "float" := by simpa [ClassicalType.all] using listed
          obtain ⟨content, rfl⟩ := exists_of_toFloat converted
          exact .float content
      | char =>
          obtain rfl : leaf = "char" := by simpa [ClassicalType.all] using listed
          obtain ⟨content, rfl⟩ := exists_of_toChar converted
          exact .char content
      | str =>
          obtain rfl : leaf = "str" := by simpa [ClassicalType.all] using listed
          obtain ⟨content, same⟩ := exists_toStr value
          cases converted
          rw [same]
          exact .str content

end Conversion

namespace CastContext

variable {σ : Type} {context : CastContext σ} {name : Name} {size : QSize}

theorem quantumSize_eq_ok_iff :
    context.quantumSize name = .ok size ↔
      ∃ type, context.types.get? name = some type ∧ type.qsize = some size := by
  unfold quantumSize
  cases found : context.types.get? name with
  | none => simp
  | some type => cases recorded : type.qsize <;> simp [recorded]

/-- A number encoded over the recorded size of a quantum type is a basis state of it. -/
theorem canonical_of_toQuantum {value : Value} {core : CoreLiteral}
    (quantum : name.isQuantum = true) (recorded : context.quantumSize name = .ok size)
    (encoded : Conversion.toQuantum value name size.width.toNat = .ok core) :
    core.type = name ∧ Canonical context.types name core.value := by
  obtain ⟨type, found, known⟩ := quantumSize_eq_ok_iff.1 recorded
  obtain ⟨number, passed, made⟩ := exists_of_bind_eq_ok encoded
  cases made
  obtain ⟨same, below⟩ :=
    Conversion.toNat_ofNat_of_le_maxForWidth (Conversion.le_of_bounded passed)
  exact ⟨rfl, .state quantum found known (by rwa [same])⟩

end CastContext

/-- A core literal of the target type with a canonical value of it. -/
def IsTyped (types : TypeTable) (target : Name) (literal : Literal) : Prop :=
  ∃ core, literal = .core core ∧ core.type = target ∧ Canonical types target core.value

namespace Cast

variable {σ : Type} {cast : Cast} {context : CastContext σ} {counts : Counts}
  {literal : Literal} {output : CastOutput} {var : Name}

theorem isTyped_of_toClassical {value result : Value}
    (converted : Conversion.toClassical value cast.target = .ok result) :
    IsTyped context.types cast.target (.core ⟨result, cast.target⟩) :=
  ⟨_, rfl, rfl, Conversion.canonical_of_toClassical context.types converted⟩

theorem isTyped_of_castLiteral {source : Literal}
    (done : cast.castLiteral context source = .ok literal) :
    IsTyped context.types cast.target literal := by
  cases source with
  | composite type items => cases done
  | mixed type items => cases done
  | core core =>
      simp only [castLiteral] at done
      split at done
      · rename_i quantum
        obtain ⟨size, recorded, rest⟩ := exists_of_bind_eq_ok done
        obtain ⟨state, encoded, made⟩ := exists_of_bind_eq_ok rest
        cases made
        exact ⟨state, rfl, context.canonical_of_toQuantum quantum recorded encoded⟩
      · obtain ⟨value, converted, made⟩ := exists_of_bind_eq_ok done
        cases made
        exact isTyped_of_toClassical converted

/-- What comes out for a classical target is typed, or is what the resolver kept. -/
theorem of_resolveClassical (done : cast.resolveClassical context var counts = .ok output) :
    ∃ spec, Spec.ofName? cast.target = some spec ∧
      ((∃ kept, output = .distribution kept ∧
          context.resolver counts spec = .ok (.distribution kept)) ∨
        ∃ literal, output = .literal literal ∧ IsTyped context.types cast.target literal) := by
  unfold resolveClassical at done
  cases shaped : Spec.ofName? cast.target with
  | none =>
      rw [shaped] at done
      cases done
  | some spec =>
      rw [shaped] at done
      refine ⟨spec, rfl, ?_⟩
      obtain ⟨resolved, answered, rest⟩ := exists_of_bind_eq_ok done
      have resolver := Outcome.mapError_eq_ok_iff.1 answered
      cases resolved with
      | distribution kept =>
          cases rest
          exact .inl ⟨kept, rfl, resolver⟩
      | value value =>
          obtain ⟨converted, passed, made⟩ := exists_of_bind_eq_ok rest
          cases made
          exact .inr ⟨_, rfl, isTyped_of_toClassical (Outcome.ofExcept_eq_ok_iff.1 passed)⟩

/-- Only integers are encoded, and both kinds pass the same check. -/
theorem of_resolveQuantum (quantum : cast.target.isQuantum = true)
    (done : cast.resolveQuantum context var counts = .ok output) :
    ∃ literal, output = .literal literal ∧ IsTyped context.types cast.target literal := by
  obtain ⟨size, recorded, rest⟩ := exists_of_bind_eq_ok done
  obtain ⟨resolved, -, rest⟩ := exists_of_bind_eq_ok rest
  obtain ⟨state, encoded, made⟩ := exists_of_bind_eq_ok rest
  cases made
  rw [Outcome.ofExcept_eq_ok_iff] at recorded encoded
  have checked : ∃ value, Conversion.toQuantum value cast.target size.width.toNat = .ok state := by
    unfold encodeResolved at encoded
    split at encoded
    · exact ⟨_, encoded⟩
    · exact ⟨_, encoded⟩
    · cases encoded
    · cases encoded
  obtain ⟨value, encoded⟩ := checked
  exact ⟨_, rfl, state, rfl, context.canonical_of_toQuantum quantum recorded encoded⟩

/-- A cast that yields something has run a program of its input, or converted a literal. -/
theorem apply_cases {input : CastInput} {state : σ}
    (done : (cast.apply context input state).1 = .ok output) :
    (∃ source literal, input = .literal source ∧ output = .literal literal ∧
        cast.castLiteral context source = .ok literal) ∨
      ∃ program counts, input = .program program ∧ cast.origin.isQuantum = true ∧
        cast.checkWidth program context = .ok () ∧
        (program.run context.backend context.execution context.evaluator state).1 = .ok counts ∧
        cast.resolveRun context program.var counts = .ok output := by
  unfold apply at done
  split at done
  · cases done
  · cases input with
    | literal source =>
        change (Outcome.ofExcept (cast.castLiteral context source)).map .literal = .ok output
          at done
        cases converted : cast.castLiteral context source with
        | error cause =>
            rw [converted] at done
            cases done
        | ok literal =>
            rw [converted] at done
            cases done
            exact .inl ⟨source, literal, rfl, rfl, converted⟩
    | program program =>
        simp only [castProgram] at done
        split at done
        · rename_i quantum
          split at done
          · cases done
          · rename_i checked
            split at done
            · cases done
            · rename_i counts _ ran
              exact .inr ⟨program, counts, rfl, quantum, checked, by rw [ran], done⟩
        · cases done

/-- Whatever a cast yields is typed, or is what the resolver kept of a run. -/
theorem isTyped_or_kept_of_apply {input : CastInput} {state : σ}
    (done : (cast.apply context input state).1 = .ok output) :
    (∃ literal, output = .literal literal ∧ IsTyped context.types cast.target literal) ∨
      ∃ program counts spec kept, input = .program program ∧ cast.origin.isQuantum = true ∧
        Spec.ofName? cast.target = some spec ∧
        (program.run context.backend context.execution context.evaluator state).1 = .ok counts ∧
        output = .distribution kept ∧ context.resolver counts spec = .ok (.distribution kept) := by
  rcases apply_cases done with ⟨source, literal, -, rfl, converted⟩ |
    ⟨program, counts, rfl, quantum, -, ran, resolved⟩
  · exact .inl ⟨literal, rfl, isTyped_of_castLiteral converted⟩
  · unfold resolveRun at resolved
    split at resolved
    · rename_i target
      exact .inl (of_resolveQuantum target resolved)
    · obtain ⟨spec, shaped, ⟨kept, rfl, keeps⟩ | typed⟩ := of_resolveClassical resolved
      · exact .inr ⟨program, counts, spec, kept, rfl, quantum, shaped, ran, rfl, keeps⟩
      · exact .inl typed

/-- A spec belongs to a classical builtin, which has canonical values. -/
theorem exists_of_specName {target : Name} {spec : Spec} (types : TypeTable)
    (shaped : Spec.ofName? target = some spec) :
    (∃ leaf ∈ Builtin.classical.map Prod.fst, target = .ofLeaf leaf) ∧
      ∃ value, Canonical types target value := by
  obtain ⟨kind, known, -⟩ := Option.map_eq_some_iff.1 shaped
  have converted : ∃ value result, Conversion.toClassical value target = .ok result := by
    unfold Conversion.toClassical
    rw [known]
    cases kind with
    | bool => exact ⟨.bool false, _, rfl⟩
    | unsigned width => exact ⟨.bool false, _, rfl⟩
    | int => exact ⟨.int 0, _, rfl⟩
    | float => exact ⟨.float 0, _, rfl⟩
    | char => exact ⟨.char 'a', _, rfl⟩
    | str => exact ⟨.str "", _, rfl⟩
  obtain ⟨value, result, converted⟩ := converted
  refine ⟨?_, result, Conversion.canonical_of_toClassical types converted⟩
  obtain ⟨leaf, rfl, listed⟩ := ClassicalType.exists_of_ofName? known
  have builtin : ∀ entry ∈ ClassicalType.all, entry.1 ∈ Builtin.classical.map Prod.fst := by decide
  exact ⟨leaf, builtin _ listed, rfl⟩

/--
A literal that a cast yields is a core literal of exactly the target type, and
its value is canonical and in range for it.  Counts come out only of a program
of a quantum origin, for a classical builtin with a spec, and they are what the
resolver kept of the run.  A target without canonical values yields nothing.
-/
theorem canonical_apply (cast : Cast) (context : CastContext σ) (input : CastInput) (state : σ) :
    (∀ literal, (cast.apply context input state).1 = .ok (.literal literal) →
        ∃ core, literal = .core core ∧ core.type = cast.target ∧
          Canonical context.types cast.target core.value) ∧
      (∀ kept, (cast.apply context input state).1 = .ok (.distribution kept) →
        ∃ program counts spec leaf, input = .program program ∧ cast.origin.isQuantum = true ∧
          leaf ∈ Builtin.classical.map Prod.fst ∧ cast.target = .ofLeaf leaf ∧
          Spec.ofName? cast.target = some spec ∧
          (program.run context.backend context.execution context.evaluator state).1 = .ok counts ∧
          context.resolver counts spec = .ok (.distribution kept)) ∧
      ((∀ value, ¬ Canonical context.types cast.target value) →
        ∃ fault, (cast.apply context input state).1 = .error fault) := by
  refine ⟨fun literal done => ?_, fun kept done => ?_, fun none => ?_⟩
  · rcases isTyped_or_kept_of_apply done with ⟨other, same, typed⟩ |
      ⟨_, _, _, _, -, -, -, -, impossible, -⟩
    · cases same
      exact typed
    · cases impossible
  · rcases isTyped_or_kept_of_apply done with ⟨_, impossible, -⟩ |
      ⟨program, counts, spec, other, rfl, quantum, shaped, ran, same, keeps⟩
    · cases impossible
    · cases same
      obtain ⟨⟨leaf, listed, named⟩, -⟩ := exists_of_specName context.types shaped
      exact ⟨program, counts, spec, leaf, rfl, quantum, listed, named, shaped, ran, keeps⟩
  · cases answer : (cast.apply context input state).1 with
    | error fault => exact ⟨fault, rfl⟩
    | ok output =>
        rcases isTyped_or_kept_of_apply answer with ⟨literal, -, core, -, -, canonical⟩ |
          ⟨_, _, _, _, -, -, shaped, -⟩
        · exact absurd canonical (none core.value)
        · obtain ⟨-, value, canonical⟩ := exists_of_specName context.types shaped
          exact absurd canonical (none value)

/-- The sample run with a resolver that answers with a number of its own. -/
def sampleContext (number : UInt64) : CastContext ScriptLog where
  execution := QuantumProgram.sampleConfig
  backend := QuantumProgram.sampleScript.backend
  types := .builtins
  resolver := fun _ _ => .ok (.value (.uint number))
  evaluator := Lowering.sampleEvaluator

/-- A user type without the sigil has no canonical values, declared or not. -/
theorem not_canonical_point (types : TypeTable) (value : Value) :
    ¬ Canonical types (.ofLeaf "point") value := by
  intro canonical
  generalize named : Name.ofLeaf "point" = target at canonical
  cases canonical with
  | unsigned sized inRange =>
      simp only [Name.ofLeaf, Name.mk.injEq, true_and] at named
      subst named
      simp at sized
  | state quantum found recorded inRange =>
      subst named
      revert quantum
      decide
  | _ => revert named; decide

/-- An answer in range is encoded; a target that is no builtin yields nothing. -/
theorem canonical_apply_sample :
    (apply ⟨.ofLeaf "@u3", .ofLeaf "@u4"⟩ (sampleContext 9) (.program .sample) .empty).1 =
        .ok (.literal (.core (.quantum 9 (.ofLeaf "@u4")))) ∧
      Canonical .builtins (.ofLeaf "@u4") (.uint 9) ∧
      ∃ fault,
        (apply ⟨.ofLeaf "@u3", .ofLeaf "point"⟩ (sampleContext 9) (.program .sample) .empty).1 =
          .error fault := by
  obtain ⟨final, ran⟩ : ∃ final, QuantumProgram.sample.run (sampleContext 9).backend
      (sampleContext 9).execution (sampleContext 9).evaluator .empty =
        (.ok QuantumProgram.sampleCounts, final) :=
    ⟨_, Prod.ext QuantumProgram.run_sample rfl⟩
  have wide : checkWidth ⟨.ofLeaf "@u3", .ofLeaf "@u4"⟩ .sample (sampleContext 9) = .ok () := rfl
  have done : (apply ⟨.ofLeaf "@u3", .ofLeaf "@u4"⟩ (sampleContext 9) (.program .sample) .empty).1 =
      .ok (.literal (.core (.quantum 9 (.ofLeaf "@u4")))) := by
    rw [apply, if_neg (by decide), castProgram, if_pos (by decide), wide, ran]
    rfl
  obtain ⟨core, same, -, canonical⟩ := (canonical_apply _ _ _ _).1 _ done
  cases same
  exact ⟨done, canonical, (canonical_apply _ _ _ _).2.2 (not_canonical_point _)⟩

end Cast

end HybridQuantum
