import HybridQuantum.Proofs.Memory.PoolConservation

/-!
# The order of grants

A pool hands out its indices first in, first out over its whole life: everything
granted so far, followed by the free queue, is the fresh queue followed by
everything returned.  Reservations and failed calls have no part in it; without
them the same indices are granted and the same ones are free.
-/

namespace HybridQuantum

namespace IndexPool

variable {pool : IndexPool} {var : Name} {count : Nat}

/-- The pool without its reservations. -/
def unreserved (pool : IndexPool) : IndexPool :=
  { pool with reserved := .empty }

@[simp]
theorem available_unreserved (pool : IndexPool) : pool.unreserved.available = pool.available :=
  rfl

theorem request_eq_grant (positive : 0 < count) (fresh : pool.holders.get? var = none)
    (enough : count ≤ pool.available.length) :
    pool.request var count = (.ok (pool.available.take count), pool.grant var count) := by
  have vacant : pool.hasIndexes var = false := by
    simp [hasIndexes, FiniteMap.contains, fresh]
  unfold request
  rw [if_neg (Nat.ne_of_gt positive), if_neg (by simp [vacant]), if_neg (Nat.not_lt.2 enough)]
  rfl

theorem free_eq_giveBack {held : List Nat} (found : pool.holders.get? var = some held) :
    pool.free var = (.ok held, pool.giveBack var held) := by
  simp only [free, found]
  rfl

theorem eq_take_of_request_eq_ok {indexes : List Nat}
    (answered : (pool.request var count).1 = .ok indexes) :
    indexes = pool.available.take count := by
  rcases pool.request_cases var count with ⟨cause, refused⟩ | ⟨-, -, -, done⟩
  · rw [refused] at answered
    cases answered
  · rw [done] at answered
    cases answered
    rfl

theorem eq_take_of_requestReserved_eq_ok {indexes : List Nat}
    (announced : pool.reserved.get? var = some count)
    (answered : (pool.requestReserved var).1 = .ok indexes) :
    indexes = pool.available.take count := by
  simp only [requestReserved, announced] at answered
  rcases pool.request_cases var count with ⟨cause, refused⟩ | ⟨-, -, -, done⟩
  · rw [refused] at answered
    cases answered
  · rw [done] at answered
    cases answered
    rfl

end IndexPool

namespace PoolCall

/-- The indices a call takes from the free queue. -/
def grants (pool : IndexPool) : PoolCall → List Nat
  | request var count => (pool.request var count).1.toOption.getD []
  | requestReserved var => (pool.requestReserved var).1.toOption.getD []
  | reserve _ _ => []
  | free _ => []

/-- The indices a call puts back into the free queue. -/
def returns (pool : IndexPool) : PoolCall → List Nat
  | free var => (pool.free var).1.toOption.getD []
  | _ => []

/-- The request or release a call amounts to; a reservation and a failed call are none. -/
def plain (pool : IndexPool) (call : PoolCall) : List PoolCall :=
  match (call.apply pool).1, call with
  | .error _, _ => []
  | .ok _, reserve _ _ => []
  | .ok granted, requestReserved var => [request var granted.length]
  | .ok _, call => [call]

/-- All indices that calls grant, in time order. -/
def granted (pool : IndexPool) : List PoolCall → List Nat
  | [] => []
  | call :: rest => call.grants pool ++ granted (call.apply pool).2 rest

/-- All indices that calls return, in time order. -/
def returned (pool : IndexPool) : List PoolCall → List Nat
  | [] => []
  | call :: rest => call.returns pool ++ returned (call.apply pool).2 rest

/-- The requests and releases that calls amount to, in time order. -/
def plainCalls (pool : IndexPool) : List PoolCall → List PoolCall
  | [] => []
  | call :: rest => call.plain pool ++ plainCalls (call.apply pool).2 rest

/-- What a call does to the indices of a pool. -/
inductive Effect (pool : IndexPool) (call : PoolCall) : Prop
  /-- A failed call and a reservation move no index. -/
  | still (grants : call.grants pool = []) (returns : call.returns pool = [])
      (plain : call.plain pool = []) (after : (call.apply pool).2.unreserved = pool.unreserved)
  /-- The front of the free queue goes to a variable that held nothing. -/
  | grant (var : Name) (count : Nat) (positive : 0 < count)
      (fresh : pool.holders.get? var = none) (enough : count ≤ pool.available.length)
      (grants : call.grants pool = pool.available.take count) (returns : call.returns pool = [])
      (plain : call.plain pool = [request var count])
      (after : (call.apply pool).2.unreserved = (pool.grant var count).unreserved)
  /-- What a variable held goes to the end of the free queue. -/
  | release (var : Name) (held : List Nat) (found : pool.holders.get? var = some held)
      (grants : call.grants pool = []) (returns : call.returns pool = held)
      (plain : call.plain pool = [free var])
      (after : (call.apply pool).2.unreserved = (pool.giveBack var held).unreserved)

theorem effect (call : PoolCall) (pool : IndexPool) : call.Effect pool := by
  cases call with
  | request var count =>
      rcases pool.request_cases var count with ⟨cause, refused⟩ | ⟨positive, fresh, enough, done⟩
      · refine .still ?_ rfl ?_ ?_ <;> simp [grants, plain, apply, refused, Except.toOption]
      · refine .grant var count positive fresh enough ?_ rfl ?_ ?_ <;>
          simp [grants, plain, apply, done, Except.toOption]
  | reserve var count =>
      rcases pool.reserve_cases var count with ⟨cause, refused⟩ | noted
      · refine .still rfl rfl ?_ ?_ <;> simp [plain, apply, refused, Except.map]
      · refine .still rfl rfl ?_ ?_ <;>
          simp [plain, apply, noted, Except.map, IndexPool.unreserved]
  | requestReserved var =>
      rcases pool.requestReserved_cases var with ⟨cause, refused⟩ |
        ⟨count, positive, fresh, enough, done⟩
      · refine .still ?_ rfl ?_ ?_ <;> simp [grants, plain, apply, refused, Except.toOption]
      · refine .grant var count positive fresh enough ?_ rfl ?_ ?_ <;>
          simp [grants, plain, apply, done, Except.toOption, IndexPool.unreserved, enough]
  | free var =>
      rcases pool.free_cases var with ⟨-, cause, refused⟩ | ⟨held, found, freed⟩
      · refine .still rfl ?_ ?_ ?_ <;> simp [returns, plain, apply, refused, Except.toOption]
      · refine .release var held found rfl ?_ ?_ ?_ <;>
          simp [returns, plain, apply, freed, Except.toOption]

section Step

variable {pool : IndexPool}

/-- The free queue gives at its front and takes at its end. -/
theorem grants_append_available (call : PoolCall) (pool : IndexPool) :
    call.grants pool ++ (call.apply pool).2.available = pool.available ++ call.returns pool := by
  cases call.effect pool with
  | still grants returns _ after =>
      have same : (call.apply pool).2.available = pool.available := by
        simpa using congrArg IndexPool.available after
      rw [grants, returns, same, List.nil_append, List.append_nil]
  | grant var count _ _ _ grants returns _ after =>
      have shorter : (call.apply pool).2.available = pool.available.drop count := by
        simpa [IndexPool.grant] using congrArg IndexPool.available after
      rw [grants, returns, shorter, List.take_append_drop, List.append_nil]
  | release var held _ grants returns _ after =>
      have longer : (call.apply pool).2.available = pool.available ++ held := by
        simpa [IndexPool.giveBack] using congrArg IndexPool.available after
      rw [grants, returns, longer, List.nil_append]

/-- On the pool without reservations, what a call amounts to does what the call does. -/
theorem plain_agrees (call : PoolCall) (pool : IndexPool) :
    run pool.unreserved (call.plain pool) = (call.apply pool).2.unreserved ∧
      granted pool.unreserved (call.plain pool) = call.grants pool := by
  cases call.effect pool with
  | still grants _ plain after =>
      rw [plain, grants, after]
      exact ⟨rfl, rfl⟩
  | grant var count positive fresh enough grants _ plain after =>
      have asked : pool.unreserved.request var count =
          (.ok (pool.available.take count), (pool.grant var count).unreserved) :=
        IndexPool.request_eq_grant positive fresh enough
      rw [plain, grants, after]
      simp [run, granted, PoolCall.grants, apply, asked, Except.toOption]
  | release var held found grants _ plain after =>
      have freed : pool.unreserved.free var =
          (.ok held, (pool.giveBack var held).unreserved) :=
        IndexPool.free_eq_giveBack found
      rw [plain, grants, after]
      simp [run, granted, PoolCall.grants, apply, freed]

theorem mem_plain {call first : PoolCall} (listed : call ∈ first.plain pool) :
    (∃ var count, call = .request var count) ∨ ∃ var, call = .free var := by
  cases first.effect pool with
  | still _ _ plain =>
      rw [plain] at listed
      cases listed
  | grant var count _ _ _ _ _ plain =>
      rw [plain] at listed
      exact .inl ⟨var, count, List.mem_singleton.1 listed⟩
  | release var _ _ _ _ plain =>
      rw [plain] at listed
      exact .inr ⟨var, List.mem_singleton.1 listed⟩

theorem available_reserve (var : Name) (count : Nat) :
    ((reserve var count).apply pool).2.available = pool.available := by
  rcases pool.reserve_cases var count with ⟨cause, refused⟩ | noted
  · rw [apply, refused]
  · rw [apply, noted]

end Step

section Run

theorem run_append (pool : IndexPool) (earlier later : List PoolCall) :
    run pool (earlier ++ later) = run (run pool earlier) later :=
  List.foldl_append

theorem granted_append (pool : IndexPool) (earlier later : List PoolCall) :
    granted pool (earlier ++ later) = granted pool earlier ++ granted (run pool earlier) later := by
  induction earlier generalizing pool with
  | nil => rfl
  | cons call rest ih =>
      rw [List.cons_append, granted, granted, ih, List.append_assoc]
      rfl

theorem granted_append_available (pool : IndexPool) (calls : List PoolCall) :
    granted pool calls ++ (run pool calls).available = pool.available ++ returned pool calls := by
  induction calls generalizing pool with
  | nil => simp [granted, returned, run]
  | cons call rest ih =>
      calc
        granted pool (call :: rest) ++ (run pool (call :: rest)).available =
            call.grants pool ++ (granted (call.apply pool).2 rest ++
              (run (call.apply pool).2 rest).available) := List.append_assoc _ _ _
        _ = call.grants pool ++ (call.apply pool).2.available ++
              returned (call.apply pool).2 rest := by rw [ih, List.append_assoc]
        _ = pool.available ++ returned pool (call :: rest) := by
            rw [grants_append_available, List.append_assoc, returned]

theorem available_run (pool : IndexPool) (calls : List PoolCall) :
    (run pool calls).available =
      (pool.available ++ returned pool calls).drop (granted pool calls).length := by
  rw [← granted_append_available, List.drop_left]

theorem run_plainCalls (pool : IndexPool) (calls : List PoolCall) :
    run pool.unreserved (plainCalls pool calls) = (run pool calls).unreserved := by
  induction calls generalizing pool with
  | nil => rfl
  | cons call rest ih =>
      rw [plainCalls, run_append, (call.plain_agrees pool).1, ih]
      rfl

theorem granted_plainCalls (pool : IndexPool) (calls : List PoolCall) :
    granted pool.unreserved (plainCalls pool calls) = granted pool calls := by
  induction calls generalizing pool with
  | nil => rfl
  | cons call rest ih =>
      rw [plainCalls, granted_append, (call.plain_agrees pool).1, (call.plain_agrees pool).2, ih,
        granted]

theorem mem_plainCalls {pool : IndexPool} {calls : List PoolCall} {call : PoolCall}
    (listed : call ∈ plainCalls pool calls) :
    (∃ var count, call = .request var count) ∨ ∃ var, call = .free var := by
  induction calls generalizing pool with
  | nil => cases listed
  | cons first rest ih =>
      rcases List.mem_append.1 listed with own | later
      · exact mem_plain own
      · exact ih later

end Run

/--
Over the whole life of a pool, everything granted so far followed by the free
queue is the fresh queue followed by everything returned.  So a request is
answered from the front of that queue, whatever was announced or refused before
it: a reservation and a failed call leave the queue alone, and when they are left
out of the history the same indices are granted and the same ones are free.
-/
theorem granted_in_order {capacity : Nat} {calls : List PoolCall} {pool : IndexPool}
    (reached : run (.new capacity) calls = pool) :
    granted (.new capacity) calls ++ pool.available =
        List.range capacity ++ returned (.new capacity) calls ∧
      (∀ var count indexes, (pool.request var count).1 = .ok indexes →
        indexes = ((List.range capacity ++ returned (.new capacity) calls).drop
          (granted (.new capacity) calls).length).take count) ∧
      (∀ var count indexes, pool.reserved.get? var = some count →
        (pool.requestReserved var).1 = .ok indexes →
        indexes = ((List.range capacity ++ returned (.new capacity) calls).drop
          (granted (.new capacity) calls).length).take count) ∧
      (∀ call : PoolCall, (∃ var count, call = .reserve var count) ∨
        (∃ cause, (call.apply pool).1 = .error cause) →
          (call.apply pool).2.available = pool.available) ∧
      (∀ call ∈ plainCalls (.new capacity) calls,
        (∃ var count, call = .request var count) ∨ ∃ var, call = .free var) ∧
      granted (.new capacity) (plainCalls (.new capacity) calls) = granted (.new capacity) calls ∧
      run (.new capacity) (plainCalls (.new capacity) calls) = pool.unreserved := by
  have queue : pool.available = (List.range capacity ++ returned (.new capacity) calls).drop
      (granted (.new capacity) calls).length := by
    rw [← reached]
    exact available_run (.new capacity) calls
  rw [← queue]
  refine ⟨?_, fun _ _ _ => IndexPool.eq_take_of_request_eq_ok,
    fun _ _ _ => IndexPool.eq_take_of_requestReserved_eq_ok, ?_, fun _ => mem_plainCalls,
    granted_plainCalls (.new capacity) calls, ?_⟩
  · rw [← reached]
    exact granted_append_available (.new capacity) calls
  · rintro call (⟨var, count, rfl⟩ | ⟨cause, failed⟩)
    · exact available_reserve var count
    · rw [apply_of_error failed]
  · rw [← reached]
    exact run_plainCalls (.new capacity) calls

/-- Two grants, a release, a reservation and a refused request. -/
def turnCalls : List PoolCall :=
  [.request (.ofLeaf "@a") 2, .request (.ofLeaf "@b") 2, .free (.ofLeaf "@a"),
    .reserve (.ofLeaf "@d") 2, .request (.ofLeaf "@c") 4]

/-- The last fresh index is granted before the first ones returned, announced or not. -/
theorem granted_in_order_turn :
    let pool := run (.new 5) turnCalls
    granted (.new 5) turnCalls ++ pool.available = [0, 1, 2, 3, 4] ++ [0, 1] ∧
      (pool.request (.ofLeaf "@c") 3).1 = .ok [4, 0, 1] ∧
      [4, 0, 1] = (([0, 1, 2, 3, 4] ++ [0, 1]).drop 4).take 3 ∧
      (pool.requestReserved (.ofLeaf "@d")).1 = .ok [4, 0] ∧
      [4, 0] = (([0, 1, 2, 3, 4] ++ [0, 1]).drop 4).take 2 ∧
      (PoolCall.apply pool (.request (.ofLeaf "@c") 4)).2.available = pool.available ∧
      run (.new 5) [.request (.ofLeaf "@a") 2, .request (.ofLeaf "@b") 2, .free (.ofLeaf "@a")] =
        pool.unreserved := by
  intro pool
  have asked : (pool.request (.ofLeaf "@c") 3).1 = .ok [4, 0, 1] := by rfl
  have announced : (pool.requestReserved (.ofLeaf "@d")).1 = .ok [4, 0] := by rfl
  have refused : (PoolCall.apply pool (.request (.ofLeaf "@c") 4)).1 =
      .error (.indexAllocation (.ofLeaf "@c") 4 3) := by rfl
  obtain ⟨history, requests, reserved, keeps, -, -, plain⟩ :=
    granted_in_order (show run (.new 5) turnCalls = pool from rfl)
  exact ⟨history, asked, requests _ _ _ asked, announced, reserved _ 2 _ rfl announced,
    keeps _ (.inr ⟨_, refused⟩), plain⟩

end PoolCall

end HybridQuantum
