import HybridQuantum.Memory.Scope
import HybridQuantum.Proofs.Memory.PoolConservation
import Mathlib.Computability.Primrec.List
import Mathlib.Data.List.Permutation

/-!
# Coherence of heap and pool

Declaring and freeing a variable write the heap and the pool one after the other,
and either call can be refused in between.  A ledger beside the scope notes each
grant that was answered and not yet returned; heap and pool always say exactly
what the ledger says.
-/

namespace HybridQuantum

theorem Heap.get?_set (heap : Heap) (holder : Variable) (name : Name) :
    (heap.set holder).live.get? name =
      if name = holder.name then some holder else heap.live.get? name :=
  FiniteMap.get?_insert _ _ _ _

theorem Heap.get?_free (heap : Heap) (name other : Name) :
    (heap.free name).2.live.get? other = if other = name then none else heap.live.get? other := by
  cases found : heap.live.get? name with
  | none =>
      by_cases same : other = name
      · simp [free, found, same]
      · simp [free, found, same]
  | some holder => simp [free, found, FiniteMap.get?_erase]

namespace IndexPool

theorem indexesOf?_grant (pool : IndexPool) (var other : Name) (count : Nat) :
    (pool.grant var count).indexesOf? other =
      if other = var then some (pool.available.take count) else pool.indexesOf? other :=
  FiniteMap.get?_insert _ _ _ _

theorem indexesOf?_giveBack (pool : IndexPool) (var other : Name) (returned : List Nat) :
    (pool.giveBack var returned).indexesOf? other =
      if other = var then none else pool.indexesOf? other :=
  FiniteMap.get?_erase _ _ _

/-- A pool whose variables hold nothing has all its indices free. -/
theorem IsConserved.available_perm_range {pool : IndexPool} (conserved : pool.IsConserved)
    (idle : ∀ name, pool.indexesOf? name = none) :
    pool.allocated = [] ∧ pool.available.Perm (List.range pool.capacity) := by
  have none : pool.holders.entries = [] := by
    refine List.eq_nil_iff_forall_not_mem.2 fun entry member => ?_
    have absent := List.lookup_eq_none_iff.1 (idle entry.1) entry member
    simp at absent
  have nothing : pool.allocated = [] := by
    have held := conserved.held
    rw [FiniteMap.values, none] at held
    exact held.eq_nil
  have complete := conserved.complete
  rw [nothing, List.append_nil] at complete
  exact ⟨nothing, complete⟩

end IndexPool

namespace Scope

/-- The request is the last thing that can fail, and the heap is written after it. -/
theorem declare_cases (scope : Scope) (types : TypeTable) (holder : Variable) :
    ∃ table,
      (∃ fault, scope.declare types holder = (.error fault, scope, table)) ∨
      (holder.isQuantum = false ∧
        scope.declare types holder =
          (.ok [], { scope with heap := scope.heap.set holder }, table)) ∨
      (holder.isQuantum = true ∧
        ∃ qsize, (types.resolveQSize holder.type).1 = .ok qsize ∧ 0 < qsize.width.toNat ∧
          scope.pool.holders.get? holder.name = none ∧
          qsize.width.toNat ≤ scope.pool.available.length ∧
          scope.declare types holder =
            (.ok (scope.pool.available.take qsize.width.toNat),
              { scope with
                heap := scope.heap.set holder
                pool := scope.pool.grant holder.name qsize.width.toNat }, table)) := by
  cases quantum : holder.isQuantum with
  | false => exact ⟨types, .inr (.inl ⟨rfl, by simp [declare, grant, quantum]⟩)⟩
  | true =>
      rcases resolved : types.resolveQSize holder.type with ⟨answer, table⟩
      refine ⟨table, ?_⟩
      cases answer with
      | error fault =>
          cases fault with
          | overflow =>
              refine .inl ⟨.overflow, ?_⟩
              simp only [declare, grant, quantum, resolved, if_true, Outcome.mapError]
          | error cause =>
              refine .inl ⟨.error (.type cause), ?_⟩
              simp only [declare, grant, quantum, resolved, if_true, Outcome.mapError, Outcome.fail]
      | ok qsize =>
          rcases scope.pool.request_cases holder.name qsize.width.toNat with
            ⟨cause, refused⟩ | ⟨positive, fresh, enough, granted⟩
          · refine .inl ⟨.error cause, ?_⟩
            simp only [declare, grant, quantum, resolved, refused, if_true, Outcome.ofExcept,
              Outcome.fail]
          · refine .inr (.inr ⟨rfl, qsize, rfl, positive, fresh, enough, ?_⟩)
            simp only [declare, grant, quantum, resolved, granted, if_true, Outcome.ofExcept]

theorem free_cases (scope : Scope) (name : Name) :
    (scope.heap.live.get? name = none ∧ ∃ cause, scope.free name = (.error cause, scope)) ∨
      ∃ holder, scope.heap.live.get? name = some holder ∧
        ((holder.isQuantum = true ∧ ∃ returned, scope.pool.holders.get? name = some returned ∧
            scope.free name =
              (.ok returned,
                { scope with
                  heap := (scope.heap.free name).2
                  pool := scope.pool.giveBack name returned })) ∨
          ((holder.isQuantum = false ∨ scope.pool.holders.get? name = none) ∧
            scope.free name = (.ok [], { scope with heap := (scope.heap.free name).2 }))) := by
  cases found : scope.heap.live.get? name with
  | none => exact .inl ⟨rfl, scope.heap.missing name, by simp [free, Heap.free, found]⟩
  | some holder =>
      refine .inr ⟨holder, rfl, ?_⟩
      cases quantum : holder.isQuantum with
      | false => exact .inr ⟨.inl rfl, by simp [free, Heap.free, found, quantum]⟩
      | true =>
          rcases scope.pool.free_cases name with ⟨none, -⟩ | ⟨returned, held, freed⟩
          · refine .inr ⟨.inr none, ?_⟩
            simp [free, Heap.free, found, quantum, IndexPool.hasIndexes, FiniteMap.contains, none]
          · refine .inl ⟨rfl, returned, held, ?_⟩
            simp [free, Heap.free, found, quantum, IndexPool.hasIndexes, FiniteMap.contains, held,
              freed]

end Scope

/-- One call on the memory of a scope; a declaration brings the type table it resolves in. -/
inductive ScopeCall where
  | declare (types : TypeTable) (holder : Variable)
  | free (name : Name)

namespace ScopeCall

/-- The answer to a call and the scope after it. -/
def apply (scope : Scope) : ScopeCall → Outcome MemoryError (List Nat) × Scope
  | declare types holder =>
      match scope.declare types holder with
      | (answer, scope, _) => (answer, scope)
  | free name =>
      match scope.free name with
      | (answer, scope) => (.ofExcept answer, scope)

theorem apply_of_error {call : ScopeCall} {scope : Scope} {fault : Fault MemoryError}
    (failed : (call.apply scope).1 = .error fault) : (call.apply scope).2 = scope := by
  cases call with
  | declare types holder =>
      obtain ⟨table, ⟨_, refused⟩ | ⟨-, stored⟩ | ⟨-, _, -, -, -, -, granted⟩⟩ :=
        scope.declare_cases types holder
      · rw [apply, refused]
      · rw [apply, stored] at failed
        cases failed
      · rw [apply, granted] at failed
        cases failed
  | free name =>
      rcases scope.free_cases name with ⟨-, _, refused⟩ | ⟨_, -, ⟨-, _, -, freed⟩ | ⟨-, freed⟩⟩
      · rw [apply, refused]
      · rw [apply, freed] at failed
        cases failed
      · rw [apply, freed] at failed
        cases failed

end ScopeCall

/-- A declaration that was answered: its type table, its variable and what it was granted. -/
structure Grant where
  types : TypeTable
  holder : Variable
  indexes : List Nat

namespace Grant

/-- What the pool records for a grant: a classical variable holds nothing. -/
def held? (grant : Grant) : Option (List Nat) :=
  if grant.holder.isQuantum then some grant.indexes else none

/-- Under the name of its variable, as many indices as its type spans in the declaration's table. -/
structure Fits (name : Name) (grant : Grant) : Prop where
  named : grant.holder.name = name
  classical : grant.holder.isQuantum = false → grant.indexes = []
  quantum : grant.holder.isQuantum = true →
    ∃ qsize, (grant.types.resolveQSize grant.holder.type).1 = .ok qsize ∧
      grant.indexes.length = (qsize.max.getD qsize.min).toNat

end Grant

/-- A scope with the grants that were answered and not returned, by variable. -/
structure Ledger where
  scope : Scope
  grants : FiniteMap Name Grant

namespace Ledger

def new (indexCapacity stackCapacity : Nat) : Ledger :=
  ⟨.new indexCapacity stackCapacity, .empty⟩

/-- Note an answered declaration and cross out an answered release. -/
def note (grants : FiniteMap Name Grant) :
    ScopeCall → Outcome MemoryError (List Nat) → FiniteMap Name Grant
  | .declare types holder, .ok indexes => grants.insert holder.name ⟨types, holder, indexes⟩
  | .free name, .ok _ => grants.erase name
  | _, .error _ => grants

def call (ledger : Ledger) (call : ScopeCall) : Ledger where
  scope := (call.apply ledger.scope).2
  grants := note ledger.grants call (call.apply ledger.scope).1

/-- The ledger after calls in order, whatever they answer. -/
def run (ledger : Ledger) (calls : List ScopeCall) : Ledger :=
  calls.foldl call ledger

/-- Heap and pool hold what the grants say, and every grant fits its variable. -/
structure IsCoherent (capacity : Nat) (ledger : Ledger) : Prop where
  capacity_eq : ledger.scope.pool.capacity = capacity
  conserved : ledger.scope.pool.IsConserved
  live : ∀ name, ledger.scope.heap.live.get? name = (ledger.grants.get? name).map Grant.holder
  held : ∀ name, ledger.scope.pool.indexesOf? name = (ledger.grants.get? name).bind Grant.held?
  fits : ∀ name grant, ledger.grants.get? name = some grant → grant.Fits name

theorem call_of_error {ledger : Ledger} {call : ScopeCall} {fault : Fault MemoryError}
    (refused : call.apply ledger.scope = (.error fault, ledger.scope)) :
    ledger.call call = ledger := by
  rw [Ledger.call, refused]
  cases call <;> rfl

namespace IsCoherent

variable {ledger : Ledger} {capacity : Nat}

theorem new (indexCapacity stackCapacity : Nat) :
    (Ledger.new indexCapacity stackCapacity).IsCoherent indexCapacity where
  capacity_eq := rfl
  conserved := IndexPool.IsConserved.new indexCapacity
  live _ := rfl
  held _ := rfl
  fits _ _ found := by cases found

/-- A new grant changes heap, pool and ledger under one name only. -/
theorem insert (coherent : ledger.IsCoherent capacity) (grant : Grant) {pool : IndexPool}
    (capacity_eq : pool.capacity = ledger.scope.pool.capacity) (conserved : pool.IsConserved)
    (fits : grant.Fits grant.holder.name)
    (held : ∀ name, pool.indexesOf? name =
      if name = grant.holder.name then grant.held? else ledger.scope.pool.indexesOf? name) :
    IsCoherent capacity
      { scope := { ledger.scope with heap := ledger.scope.heap.set grant.holder, pool }
        grants := ledger.grants.insert grant.holder.name grant } where
  capacity_eq := capacity_eq.trans coherent.capacity_eq
  conserved := conserved
  live name := by
    rw [Heap.get?_set, FiniteMap.get?_insert, coherent.live]
    split <;> rfl
  held name := by
    rw [held, FiniteMap.get?_insert, coherent.held]
    split <;> rfl
  fits name other found := by
    rw [FiniteMap.get?_insert] at found
    split at found
    · rename_i same
      cases found
      rw [same]
      exact fits
    · exact coherent.fits name other found

/-- A returned grant leaves heap, pool and ledger under its name only. -/
theorem erase (coherent : ledger.IsCoherent capacity) {name : Name} {pool : IndexPool}
    (capacity_eq : pool.capacity = ledger.scope.pool.capacity) (conserved : pool.IsConserved)
    (held : ∀ other, pool.indexesOf? other =
      if other = name then none else ledger.scope.pool.indexesOf? other) :
    IsCoherent capacity
      { scope := { ledger.scope with heap := (ledger.scope.heap.free name).2, pool }
        grants := ledger.grants.erase name } where
  capacity_eq := capacity_eq.trans coherent.capacity_eq
  conserved := conserved
  live other := by
    rw [Heap.get?_free, FiniteMap.get?_erase, coherent.live]
    split <;> rfl
  held other := by
    rw [held, FiniteMap.get?_erase, coherent.held]
    split <;> rfl
  fits other grant found := by
    rw [FiniteMap.get?_erase] at found
    split at found
    · cases found
    · exact coherent.fits other grant found

theorem isQuantum_of_granted (coherent : ledger.IsCoherent capacity) {name : Name} {grant : Grant}
    (granted : ledger.grants.get? name = some grant) :
    grant.holder.isQuantum = name.isQuantum := by
  rw [Variable.isQuantum, (coherent.fits name grant granted).named]

theorem indexesOf?_of_granted (coherent : ledger.IsCoherent capacity) {name : Name} {grant : Grant}
    (granted : ledger.grants.get? name = some grant) :
    ledger.scope.pool.indexesOf? name = if name.isQuantum then some grant.indexes else none := by
  rw [coherent.held, granted, Option.bind_some, Grant.held?, coherent.isQuantum_of_granted granted]

theorem exists_granted (coherent : ledger.IsCoherent capacity) {name : Name} {holder : Variable}
    (found : ledger.scope.heap.live.get? name = some holder) :
    ∃ grant, ledger.grants.get? name = some grant ∧ grant.holder = holder :=
  Option.map_eq_some_iff.1 ((coherent.live name).symm.trans found)

theorem indexesOf?_of_classical (coherent : ledger.IsCoherent capacity) {name : Name}
    (classical : name.isQuantum = false) : ledger.scope.pool.indexesOf? name = none := by
  cases granted : ledger.grants.get? name with
  | none => rw [coherent.held, granted, Option.bind_none]
  | some grant => simp [coherent.indexesOf?_of_granted granted, classical]

theorem declare (coherent : ledger.IsCoherent capacity) (types : TypeTable) (holder : Variable) :
    (ledger.call (.declare types holder)).IsCoherent capacity := by
  obtain ⟨table, ⟨_, refused⟩ | ⟨classical, stored⟩ |
      ⟨quantum, qsize, resolved, positive, fresh, enough, granted⟩⟩ :=
    ledger.scope.declare_cases types holder
  · rwa [call_of_error (by rw [ScopeCall.apply, refused])]
  · have fits : Grant.Fits holder.name ⟨types, holder, []⟩ :=
      ⟨rfl, fun _ => rfl, fun quantum => by simp [classical] at quantum⟩
    rw [Ledger.call, ScopeCall.apply, stored]
    refine coherent.insert ⟨types, holder, []⟩ rfl coherent.conserved fits fun name => ?_
    simp only [Grant.held?, classical, Bool.false_eq_true, if_false]
    split
    · rename_i own
      exact coherent.indexesOf?_of_classical (own ▸ classical)
    · rfl
  · have fits : Grant.Fits holder.name
        ⟨types, holder, ledger.scope.pool.available.take qsize.width.toNat⟩ := by
      refine ⟨rfl, fun classical => by simp [quantum] at classical, fun _ => ?_⟩
      exact ⟨qsize, resolved, List.length_take_of_le enough⟩
    rw [Ledger.call, ScopeCall.apply, granted]
    refine coherent.insert ⟨types, holder, _⟩ rfl
      (coherent.conserved.grant positive fresh enough) fits fun name => ?_
    rw [IndexPool.indexesOf?_grant, Grant.held?, if_pos quantum]

theorem free (coherent : ledger.IsCoherent capacity) (name : Name) :
    (ledger.call (.free name)).IsCoherent capacity := by
  rcases ledger.scope.free_cases name with
    ⟨-, _, refused⟩ | ⟨holder, found, ⟨-, returned, held, freed⟩ | ⟨without, freed⟩⟩
  · rwa [call_of_error (by rw [ScopeCall.apply, refused]; rfl)]
  · rw [Ledger.call, ScopeCall.apply, freed]
    exact coherent.erase rfl (coherent.conserved.giveBack held) fun other =>
      ledger.scope.pool.indexesOf?_giveBack name other returned
  · have none : ledger.scope.pool.indexesOf? name = none := by
      rcases without with classical | none
      · obtain ⟨grant, granted, rfl⟩ := coherent.exists_granted found
        rw [coherent.isQuantum_of_granted granted] at classical
        exact coherent.indexesOf?_of_classical classical
      · exact none
    rw [Ledger.call, ScopeCall.apply, freed]
    refine coherent.erase rfl coherent.conserved fun other => ?_
    split
    · rename_i same
      rw [same, none]
    · rfl

theorem run (coherent : ledger.IsCoherent capacity) (calls : List ScopeCall) :
    (ledger.run calls).IsCoherent capacity := by
  induction calls generalizing ledger with
  | nil => exact coherent
  | cons call rest ih =>
      cases call with
      | declare types holder => exact ih (coherent.declare types holder)
      | free name => exact ih (coherent.free name)

theorem contains_eq_hasIndexes (coherent : ledger.IsCoherent capacity) {name : Name}
    (quantum : name.isQuantum = true) :
    ledger.scope.heap.contains name = ledger.scope.pool.hasIndexes name := by
  have held := coherent.held name
  rw [IndexPool.indexesOf?] at held
  rw [Heap.contains, IndexPool.hasIndexes, FiniteMap.contains, FiniteMap.contains, held,
    coherent.live]
  cases granted : ledger.grants.get? name with
  | none => rfl
  | some grant => simp [Grant.held?, coherent.isQuantum_of_granted granted, quantum]

/-- Freeing a name answers with what the ledger notes for it. -/
theorem free_eq_ok_iff (coherent : ledger.IsCoherent capacity) {name : Name} {indexes : List Nat} :
    (ledger.scope.free name).1 = .ok indexes ↔
      (ledger.grants.get? name).map Grant.indexes = some indexes := by
  rcases ledger.scope.free_cases name with
    ⟨absent, _, refused⟩ | ⟨holder, found, ⟨quantum, returned, held, freed⟩ | ⟨without, freed⟩⟩
  · have unknown : ledger.grants.get? name = none := by
      simpa [coherent.live] using absent
    simp [refused, unknown]
  · obtain ⟨grant, granted, rfl⟩ := coherent.exists_granted found
    have own := coherent.indexesOf?_of_granted granted
    rw [← coherent.isQuantum_of_granted granted, if_pos quantum, IndexPool.indexesOf?, held] at own
    simp [freed, granted, Option.some.inj own]
  · obtain ⟨grant, granted, rfl⟩ := coherent.exists_granted found
    have own := coherent.indexesOf?_of_granted granted
    have classical : grant.holder.isQuantum = false := by
      rcases without with classical | none
      · exact classical
      · rw [← coherent.isQuantum_of_granted granted, IndexPool.indexesOf?, none] at own
        simpa using own
    simp [freed, granted, (coherent.fits name grant granted).classical classical]

end IsCoherent

/--
After any declarations and releases on an empty scope, succeeding or failing,
heap and pool agree: a quantum name is stored exactly when it holds indices, a
classical one never holds any, and each quantum variable holds as many as its
type spans in the table of its declaration.  The pool lost no index, a call that
fails changes nothing, freeing a name returns what its declaration was granted,
and a scope without variables has all its indices free.
-/
theorem coherence_run {indexCapacity stackCapacity : Nat} {calls : List ScopeCall} {scope : Scope}
    {grants : FiniteMap Name Grant}
    (reached : (new indexCapacity stackCapacity).run calls = ⟨scope, grants⟩) :
    (∀ name, name.isQuantum = true → (scope.heap.contains name ↔ scope.pool.hasIndexes name)) ∧
      (∀ name, name.isQuantum = false → scope.pool.hasIndexes name = false) ∧
      (∀ name holder, scope.heap.get name = .ok holder → name.isQuantum = true →
        ∃ types qsize indexes, grants.get? name = some ⟨types, holder, indexes⟩ ∧
          (types.resolveQSize holder.type).1 = .ok qsize ∧
          scope.pool.indexesOf? name = some indexes ∧
          indexes.length = (qsize.max.getD qsize.min).toNat) ∧
      scope.pool.capacity = indexCapacity ∧ scope.pool.IsConserved ∧
      scope.pool.isConsistent = true ∧
      (∀ (call : ScopeCall) (fault : Fault MemoryError),
        (call.apply scope).1 = .error fault → (call.apply scope).2 = scope) ∧
      (∀ name indexes, (scope.free name).1 = .ok indexes ↔
        (grants.get? name).map Grant.indexes = some indexes) ∧
      ((∀ name, scope.heap.contains name = false) →
        scope.pool.allocated = [] ∧ scope.pool.available.Perm (List.range indexCapacity)) := by
  have coherent := (IsCoherent.new indexCapacity stackCapacity).run calls
  rw [reached] at coherent
  refine ⟨fun name quantum => ?_, fun name classical => ?_, fun name holder stored quantum => ?_,
    coherent.capacity_eq, coherent.conserved, coherent.conserved.isConsistent,
    fun _ _ => ScopeCall.apply_of_error, fun _ _ => coherent.free_eq_ok_iff, fun vacant => ?_⟩
  · rw [coherent.contains_eq_hasIndexes quantum]
  · have none := coherent.indexesOf?_of_classical classical
    simpa [IndexPool.hasIndexes, FiniteMap.contains, IndexPool.indexesOf?] using none
  · have found : scope.heap.live.get? name = some holder := by
      rw [Heap.get] at stored
      split at stored
      · cases stored
        assumption
      · cases stored
    obtain ⟨⟨types, holder, indexes⟩, granted, rfl⟩ := coherent.exists_granted found
    have held := coherent.indexesOf?_of_granted granted
    rw [if_pos quantum] at held
    rw [← coherent.isQuantum_of_granted granted] at quantum
    obtain ⟨qsize, resolved, spans⟩ := (coherent.fits name _ granted).quantum quantum
    exact ⟨types, qsize, indexes, granted, resolved, held, spans⟩
  · have idle : ∀ name, scope.pool.indexesOf? name = none := by
      intro name
      have none : grants.get? name = none := by
        have live := coherent.live name
        have absent := vacant name
        rw [Heap.contains, FiniteMap.contains, live] at absent
        simpa using absent
      rw [coherent.held, none, Option.bind_none]
    have free := coherent.conserved.available_perm_range idle
    rwa [coherent.capacity_eq] at free

def tripleTypes : TypeTable :=
  ⟨[.builtin (.ofLeaf "@u3") (.fixed 3) (.fixed 3)], by decide⟩

/-- An unassigned variable of a type that spans three indices. -/
def triple (leaf : String) : Variable :=
  ⟨.ofLeaf leaf, .ofLeaf "@u3", .single, .mutable, [⟨none, some (.ofLeaf "@u3")⟩], [], false⟩

/-- One triple in a pool of four indices. -/
def tripleLedger : Ledger where
  scope :=
    { stack := .new 0
      heap := ⟨.ofList [(.ofLeaf "@p", triple "@p")], []⟩
      pool := ⟨4, [3], [0, 1, 2], .ofList [(.ofLeaf "@p", [0, 1, 2])], .empty⟩ }
  grants := .ofList [(.ofLeaf "@p", ⟨tripleTypes, triple "@p", [0, 1, 2]⟩)]

/-- Of two triples one fits; the other is refused, and freeing the first empties the scope. -/
theorem coherence_run_sample :
    (new 4 0).run [.declare tripleTypes (triple "@p"), .declare tripleTypes (triple "@q")] =
        tripleLedger ∧
      tripleLedger.scope.pool.hasIndexes (.ofLeaf "@p") = true ∧
      (tripleLedger.scope.free (.ofLeaf "@p")).1 = .ok [0, 1, 2] ∧
      (ScopeCall.apply tripleLedger.scope (.declare tripleTypes (triple "@q"))).2 =
        tripleLedger.scope := by
  have reached : (new 4 0).run
      [.declare tripleTypes (triple "@p"), .declare tripleTypes (triple "@q")] =
        tripleLedger := by cbv
  obtain ⟨agree, -, -, -, -, -, fails, returns, -⟩ := coherence_run reached
  have stored : tripleLedger.scope.heap.contains (.ofLeaf "@p") = true := by decide
  have noted : (tripleLedger.grants.get? (.ofLeaf "@p")).map Grant.indexes =
      some [0, 1, 2] := by rfl
  have refused : (ScopeCall.apply tripleLedger.scope (.declare tripleTypes (triple "@q"))).1 =
      .fail (.indexAllocation (.ofLeaf "@q") 3 1) := by cbv
  exact ⟨reached, (agree _ (by decide)).1 stored, (returns _ _).2 noted, fails _ _ refused⟩

end Ledger

end HybridQuantum
