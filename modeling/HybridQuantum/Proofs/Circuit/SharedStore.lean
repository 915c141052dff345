import HybridQuantum.Circuit.Simulator

/-!
# A job store in use by many

Any number of clients work on one job store, and each of their steps is
indivisible.  A submission is two steps with the simulation in between, so other
clients may ask for its job, cancel it or take it before it is completed.  What
a step does to one job depends on that job alone, and no identifier is given out
twice; from this follows what every course of steps preserves.
-/

namespace HybridQuantum

section Identifiers

theorem ofDigitChars_replicate_zero (count : Nat) :
    Nat.ofDigitChars 10 (List.replicate count '0') 0 = 0 := by
  induction count with
  | zero => rfl
  | succ count ih =>
      rw [List.replicate_succ, Nat.ofDigitChars_cons]
      exact ih

/-- Jobs with different numbers have different identifiers. -/
theorem JobStore.freshId_inj {number other : Nat} (same : freshId number = freshId other) :
    number = other := by
  have value (number : Nat) : Nat.ofDigitChars 10 (idDigits number).toList 0 = number := by
    rw [idDigits, String.toList_ofList, Nat.ofDigitChars_append, ofDigitChars_replicate_zero]
    exact Nat.ofDigitChars_ten_toDigits
  have digits : idDigits number = idDigits other :=
    (String.append_right_inj _).1 (congrArg JobId.text same)
  rw [← value number, digits, value other]

end Identifiers

namespace SimulatedJob

/-- A job whose simulation has come to its end. -/
def finish (result : ExecutionResult) (job : SimulatedJob) : SimulatedJob :=
  if job.status.isTerminal then job else ⟨.completed, some result⟩

def abandon (job : SimulatedJob) : SimulatedJob :=
  if job.status.isTerminal then job else { job with status := .cancelled }

/-- The jobs a store can hold: none runs between two steps, and the completed ones have results. -/
inductive IsStored : SimulatedJob → Prop where
  | queued : IsStored ⟨.queued, none⟩
  | completed (result : ExecutionResult) : IsStored ⟨.completed, some result⟩
  | cancelled : IsStored ⟨.cancelled, none⟩

theorem IsStored.finish {job : SimulatedJob} (stored : job.IsStored) (result : ExecutionResult) :
    (job.finish result).IsStored := by
  cases stored with
  | queued => exact .completed result
  | completed own => exact .completed own
  | cancelled => exact .cancelled

theorem IsStored.abandon {job : SimulatedJob} (stored : job.IsStored) : job.abandon.IsStored := by
  cases stored with
  | queued => exact .cancelled
  | completed own => exact .completed own
  | cancelled => exact .cancelled

theorem IsStored.isSome_result_iff {job : SimulatedJob} (stored : job.IsStored) :
    job.result.isSome = true ↔ job.status = .completed := by
  cases stored <;> simp

end SimulatedJob

namespace JobStore

variable {store : JobStore} {id : JobId}

theorem get?_enqueue (store : JobStore) (id : JobId) :
    store.enqueue.2.jobs.get? id =
      if id = freshId (store.submitted + 1) then some ⟨.queued, none⟩ else store.jobs.get? id :=
  FiniteMap.get?_insert ..

theorem get?_complete (store : JobStore) (job id : JobId) (result : ExecutionResult) :
    (store.complete job result).jobs.get? id =
      if id = job then (store.jobs.get? id).map (·.finish result) else store.jobs.get? id := by
  cases found : store.jobs.get? job with
  | none => by_cases same : id = job <;> simp [complete, found, same]
  | some held =>
      obtain ⟨status, own⟩ := held
      by_cases same : id = job <;> cases status <;>
        simp [complete, found, same, FiniteMap.get?_insert, SimulatedJob.finish,
          JobStatus.advance?, JobStatus.isTerminal]

theorem get?_take (store : JobStore) (job id : JobId) :
    (store.take job).2.jobs.get? id =
      if id = job then (store.jobs.get? id).filter (fun held => !held.status.isTerminal)
      else store.jobs.get? id := by
  cases found : store.jobs.get? job with
  | none => by_cases same : id = job <;> simp [take, found, same]
  | some held =>
      by_cases same : id = job <;> cases ended : held.status.isTerminal <;>
        simp [take, found, same, ended, FiniteMap.get?_erase, Option.filter]

theorem get?_cancel (store : JobStore) (job id : JobId) :
    (store.cancel job).2.jobs.get? id =
      if id = job then (store.jobs.get? id).map SimulatedJob.abandon
      else store.jobs.get? id := by
  cases found : store.jobs.get? job with
  | none => by_cases same : id = job <;> simp [cancel, found, same]
  | some held =>
      by_cases same : id = job <;> cases ended : held.status.isTerminal <;>
        simp [cancel, found, same, ended, FiniteMap.get?_insert, SimulatedJob.abandon,
          JobStatus.advance?]

def Issued (store : JobStore) (id : JobId) : Prop :=
  ∃ number ≤ store.submitted, id = freshId number

theorem Issued.ne_freshId (issued : store.Issued id) : id ≠ freshId (store.submitted + 1) := by
  obtain ⟨number, earlier, rfl⟩ := issued
  intro same
  have := freshId_inj same
  omega

/-- A store that holds only jobs it has given an identifier, in the statuses jobs rest in. -/
structure IsOrderly (store : JobStore) : Prop where
  stored : ∀ id job, store.jobs.get? id = some job → job.IsStored
  issued : ∀ id job, store.jobs.get? id = some job → store.Issued id

theorem IsOrderly.empty : JobStore.empty.IsOrderly where
  stored id job found := by cases found
  issued id job found := by cases found

/-- What an orderly store holds under an identifier, and what taking it answers. -/
theorem IsOrderly.take_cases (orderly : store.IsOrderly) (id : JobId) :
    (store.jobs.get? id = none ∧ (store.take id).1 = .error (.jobNotFound id)) ∨
      (store.jobs.get? id = some ⟨.queued, none⟩ ∧
        (store.take id).1 =
          .error (.other ("job " ++ id.text ++ " has no result yet (" ++ "Queued" ++ ")"))) ∨
      (∃ result, store.jobs.get? id = some ⟨.completed, some result⟩ ∧
        (store.take id).1 = .ok result) ∨
      (store.jobs.get? id = some ⟨.cancelled, none⟩ ∧
        (store.take id).1 = .error .jobCancelled) := by
  cases found : store.jobs.get? id with
  | none => exact .inl ⟨rfl, by simp only [take, found]⟩
  | some job =>
      cases orderly.stored id job found with
      | queued => exact .inr (.inl ⟨rfl, by simp only [take, found]; rfl⟩)
      | completed result =>
          exact .inr (.inr (.inl ⟨result, rfl, by simp only [take, found]; rfl⟩))
      | cancelled => exact .inr (.inr (.inr ⟨rfl, by simp only [take, found]; rfl⟩))

theorem IsOrderly.exists_of_take (orderly : store.IsOrderly)
    (answered : (∃ result, (store.take id).1 = .ok result) ∨
      (store.take id).1 = .error .jobCancelled) :
    ∃ job, store.jobs.get? id = some job ∧ job.status.isTerminal = true := by
  rcases orderly.take_cases id with ⟨-, other⟩ | ⟨-, other⟩ | ⟨result, held, -⟩ | ⟨held, -⟩
  · simp [other] at answered
  · simp [other] at answered
  · exact ⟨_, held, rfl⟩
  · exact ⟨_, held, rfl⟩

/-- The texts about a job that has ended without a result, or with one it should not have. -/
theorem IsOrderly.take_ne (orderly : store.IsOrderly) (id : JobId) :
    (∀ status : JobStatus, (store.take id).1 ≠ .error (.other ("job " ++ id.text ++
        " finished as " ++ status.text ++ " without a result"))) ∧
      (store.take id).1 ≠
        .error (.other ("job " ++ id.text ++ " holds a result it never completed")) := by
  rcases orderly.take_cases id with ⟨-, answer⟩ | ⟨-, answer⟩ | ⟨result, -, answer⟩ | ⟨-, answer⟩
  · simp [answer]
  · rw [answer]
    refine ⟨fun status same => ?_, fun same => ?_⟩
    · simp only [Except.error.injEq, BackendError.other.injEq, String.append_assoc,
        String.append_right_inj] at same
      have second := congrArg (fun text => text.toList[1]?) same
      simp at second
    · simp only [Except.error.injEq, BackendError.other.injEq, String.append_assoc,
        String.append_right_inj] at same
      have third := congrArg (fun text => text.toList[2]?) same
      simp at third
  · simp [answer]
  · simp [answer]

end JobStore

/--
A step of some client on a job store.  A submission queues a job and completes it
later; nothing is assumed about when a completion comes, how often, or for what.
-/
inductive StoreStep where
  | enqueue
  | complete (job : JobId) (result : ExecutionResult)
  | status (job : JobId)
  | take (job : JobId)
  | cancel (job : JobId)
deriving DecidableEq

namespace StoreStep

variable {store : JobStore} {id : JobId}

def apply (store : JobStore) : StoreStep → JobStore
  | enqueue => store.enqueue.2
  | complete job result => store.complete job result
  | status _ => store
  | take job => (store.take job).2
  | cancel job => (store.cancel job).2

/-- The store after the steps of all clients, in the order in which they come. -/
def run (store : JobStore) (steps : List StoreStep) : JobStore :=
  steps.foldl apply store

/-- The result that a step hands out under an identifier. -/
def handsOut (id : JobId) (store : JobStore) : StoreStep → Option ExecutionResult
  | take job => if job = id then (store.take job).1.toOption else none
  | _ => none

def handedOut (id : JobId) : JobStore → List StoreStep → List ExecutionResult
  | _, [] => []
  | store, step :: rest => (step.handsOut id store).toList ++ handedOut id (step.apply store) rest

/-- What a step makes of the job under an identifier that has been given out. -/
def change (id : JobId) (held : Option SimulatedJob) : StoreStep → Option SimulatedJob
  | complete job result => if id = job then held.map (·.finish result) else held
  | take job => if id = job then held.filter (fun held => !held.status.isTerminal) else held
  | cancel job => if id = job then held.map SimulatedJob.abandon else held
  | enqueue => held
  | status _ => held

section Steps

theorem submitted_le_apply (step : StoreStep) (store : JobStore) :
    store.submitted ≤ (step.apply store).submitted := by
  cases step with
  | enqueue => exact Nat.le_succ _
  | complete job result =>
      simp only [apply, JobStore.complete]
      split <;> exact Nat.le_refl _
  | status job => exact Nat.le_refl _
  | take job =>
      simp only [apply, JobStore.take]
      split
      · exact Nat.le_refl _
      · split <;> exact Nat.le_refl _
  | cancel job =>
      simp only [apply, JobStore.cancel]
      split
      · exact Nat.le_refl _
      · split <;> exact Nat.le_refl _

theorem issued_apply (issued : store.Issued id) (step : StoreStep) :
    (step.apply store).Issued id := by
  obtain ⟨number, earlier, same⟩ := issued
  exact ⟨number, Nat.le_trans earlier (step.submitted_le_apply store), same⟩

/-- A step changes the job under an identifier in a way that depends on that job alone. -/
theorem get?_apply (issued : store.Issued id) (step : StoreStep) :
    (step.apply store).jobs.get? id = step.change id (store.jobs.get? id) := by
  cases step with
  | enqueue => rw [apply, JobStore.get?_enqueue, if_neg issued.ne_freshId, change]
  | complete job result => exact JobStore.get?_complete ..
  | status job => rfl
  | take job => exact JobStore.get?_take ..
  | cancel job => exact JobStore.get?_cancel ..

/-- A job in the store after a step is new, or comes from one that was there before. -/
theorem origin_of_get?_apply {step : StoreStep} {job : SimulatedJob}
    (found : (step.apply store).jobs.get? id = some job) :
    (step = .enqueue ∧ id = JobStore.freshId (store.submitted + 1) ∧ job = ⟨.queued, none⟩) ∨
      ∃ own, store.jobs.get? id = some own ∧ (own.IsStored → job.IsStored) := by
  cases step with
  | enqueue =>
      rw [apply, JobStore.get?_enqueue] at found
      split at found
      · rename_i fresh
        cases found
        exact .inl ⟨rfl, fresh, rfl⟩
      · exact .inr ⟨job, found, fun stored => stored⟩
  | complete other result =>
      rw [apply, JobStore.get?_complete] at found
      split at found
      · obtain ⟨own, held, rfl⟩ := Option.map_eq_some_iff.1 found
        exact .inr ⟨own, held, fun stored => stored.finish result⟩
      · exact .inr ⟨job, found, fun stored => stored⟩
  | status other => exact .inr ⟨job, found, fun stored => stored⟩
  | take other =>
      rw [apply, JobStore.get?_take] at found
      split at found
      · exact .inr ⟨job, (Option.filter_eq_some_iff.1 found).1, fun stored => stored⟩
      · exact .inr ⟨job, found, fun stored => stored⟩
  | cancel other =>
      rw [apply, JobStore.get?_cancel] at found
      split at found
      · obtain ⟨own, held, rfl⟩ := Option.map_eq_some_iff.1 found
        exact .inr ⟨own, held, fun stored => stored.abandon⟩
      · exact .inr ⟨job, found, fun stored => stored⟩

theorem isOrderly_apply (orderly : store.IsOrderly) (step : StoreStep) :
    (step.apply store).IsOrderly where
  stored id job found := by
    rcases origin_of_get?_apply found with ⟨-, -, rfl⟩ | ⟨own, held, keeps⟩
    · exact .queued
    · exact keeps (orderly.stored id own held)
  issued id job found := by
    rcases origin_of_get?_apply found with ⟨rfl, fresh, -⟩ | ⟨own, held, -⟩
    · exact ⟨store.submitted + 1, Nat.le_refl _, fresh⟩
    · exact issued_apply (orderly.issued id own held) step

/-- A job that has ended stays as it is until it is taken, and is then gone. -/
theorem change_of_ended {job : SimulatedJob} (ended : job.status.isTerminal = true)
    (step : StoreStep) :
    step.change id (some job) = if step = .take id then none else some job := by
  cases step with
  | enqueue => simp [change]
  | status other => simp [change]
  | complete other result => simp [change, SimulatedJob.finish, ended]
  | cancel other => simp [change, SimulatedJob.abandon, ended]
  | take other =>
      by_cases same : id = other
      · simp [change, same, ended, Option.filter]
      · simp [change, same, Ne.symm same]

theorem change_none (step : StoreStep) : step.change id none = none := by
  cases step <;> simp [change]

end Steps

section Runs

theorem isOrderly_run (orderly : store.IsOrderly) (steps : List StoreStep) :
    (run store steps).IsOrderly := by
  induction steps generalizing store with
  | nil => exact orderly
  | cons step rest ih => exact ih (isOrderly_apply orderly step)

theorem get?_run_of_gone (issued : store.Issued id) (gone : store.jobs.get? id = none)
    (steps : List StoreStep) : (run store steps).jobs.get? id = none := by
  induction steps generalizing store with
  | nil => exact gone
  | cons step rest ih =>
      exact ih (issued_apply issued step) (by rw [get?_apply issued, gone, change_none])

theorem get?_run_of_ended {job : SimulatedJob} (issued : store.Issued id)
    (held : store.jobs.get? id = some job) (ended : job.status.isTerminal = true)
    {steps : List StoreStep} (untaken : .take id ∉ steps) :
    (run store steps).jobs.get? id = some job := by
  induction steps generalizing store with
  | nil => exact held
  | cons step rest ih =>
      rw [List.mem_cons, not_or] at untaken
      obtain ⟨other, later⟩ := untaken
      refine ih (issued_apply issued step) ?_ later
      rw [get?_apply issued, held, change_of_ended ended, if_neg (Ne.symm other)]

theorem handsOut_eq_none_of_error {cause : BackendError}
    (refused : (store.take id).1 = .error cause) (step : StoreStep) :
    step.handsOut id store = none := by
  cases step with
  | take job =>
      by_cases same : job = id
      · subst same
        simp [handsOut, refused, Except.toOption]
      · simp [handsOut, same]
  | _ => rfl

theorem handedOut_of_gone (issued : store.Issued id) (gone : store.jobs.get? id = none)
    (steps : List StoreStep) : handedOut id store steps = [] := by
  induction steps generalizing store with
  | nil => rfl
  | cons step rest ih =>
      have refused : (store.take id).1 = .error (.jobNotFound id) := by
        simp only [JobStore.take, gone]
      rw [handedOut, handsOut_eq_none_of_error refused,
        ih (issued_apply issued step) (by rw [get?_apply issued, gone, change_none])]
      rfl

/-- A cancelled job hands nothing out, taken or not. -/
theorem handedOut_of_cancelled (issued : store.Issued id)
    (held : store.jobs.get? id = some ⟨.cancelled, none⟩) (steps : List StoreStep) :
    handedOut id store steps = [] := by
  induction steps generalizing store with
  | nil => rfl
  | cons step rest ih =>
      have refused : (store.take id).1 = .error .jobCancelled := by
        simp only [JobStore.take, held]
        rfl
      have later := get?_apply issued step
      rw [held, change_of_ended rfl] at later
      rw [handedOut, handsOut_eq_none_of_error refused]
      split at later
      · exact handedOut_of_gone (issued_apply issued step) later rest
      · exact ih (issued_apply issued step) later

theorem take_of_handsOut {step : StoreStep} {result : ExecutionResult}
    (handed : step.handsOut id store = some result) :
    step = .take id ∧ (store.take id).1 = .ok result := by
  cases step with
  | take job =>
      simp only [handsOut] at handed
      split at handed
      · rename_i same
        subst same
        cases answered : (store.take job).1 with
        | error cause => simp [answered, Except.toOption] at handed
        | ok own =>
            simp only [answered, Except.toOption, Option.some.injEq] at handed
            exact ⟨rfl, by rw [handed]⟩
      · cases handed
  | _ => cases handed

/-- Once a job has been found to have ended and is taken, it is gone for good. -/
theorem get?_run_take {job : SimulatedJob} (orderly : store.IsOrderly)
    (held : store.jobs.get? id = some job) (ended : job.status.isTerminal = true)
    (steps : List StoreStep) : (run store (.take id :: steps)).jobs.get? id = none := by
  have issued := orderly.issued id job held
  refine get?_run_of_gone (issued_apply issued (.take id)) ?_ steps
  rw [get?_apply issued, held, change_of_ended ended, if_pos rfl]

theorem length_handedOut_le_one (orderly : store.IsOrderly) (id : JobId)
    (steps : List StoreStep) : (handedOut id store steps).length ≤ 1 := by
  induction steps generalizing store with
  | nil => simp [handedOut]
  | cons step rest ih =>
      rw [handedOut]
      cases handed : step.handsOut id store with
      | none => simpa using ih (isOrderly_apply orderly step)
      | some result =>
          obtain ⟨rfl, answered⟩ := take_of_handsOut handed
          obtain ⟨own, held, ended⟩ := orderly.exists_of_take (.inl ⟨result, answered⟩)
          have issued := orderly.issued id own held
          have gone := get?_run_take orderly held ended []
          rw [handedOut_of_gone (issued_apply issued (.take id)) gone rest]
          simp

theorem handedOut_append (id : JobId) (store : JobStore) (before after : List StoreStep) :
    handedOut id store (before ++ after) =
      handedOut id store before ++ handedOut id (run store before) after := by
  induction before generalizing store with
  | nil => rfl
  | cons step rest ih =>
      rw [List.cons_append, handedOut, handedOut, ih, List.append_assoc]
      rfl

theorem handedOut_of_held {job : SimulatedJob} (orderly : store.IsOrderly)
    {steps : List StoreStep} (held : (run store steps).jobs.get? id = some job) :
    handedOut id store steps = [] := by
  induction steps generalizing store with
  | nil => rfl
  | cons step rest ih =>
      rw [handedOut, ih (isOrderly_apply orderly step) held, List.append_nil]
      cases handed : step.handsOut id store with
      | none => rfl
      | some result =>
          obtain ⟨rfl, answered⟩ := take_of_handsOut handed
          obtain ⟨own, found, ended⟩ := orderly.exists_of_take (.inl ⟨result, answered⟩)
          rw [get?_run_take orderly found ended rest] at held
          cases held

end Runs

/--
Whatever steps any number of clients take on an empty store, in any order: a job
in the store is queued, completed or cancelled, and holds a result exactly when it
is completed.  A result is handed out at most once for each identifier, and never
for a job cancelled before it was completed.  When a job was taken as completed
or as cancelled, nobody finds it any more.  No take finds a job whose status and
result disagree.
-/
theorem run_empty (steps : List StoreStep) :
    let store := run .empty steps
    (∀ id job, store.jobs.get? id = some job →
      (job.status = .queued ∨ job.status = .completed ∨ job.status = .cancelled) ∧
        (job.result.isSome = true ↔ job.status = .completed)) ∧
    (∀ id, (handedOut id .empty steps).length ≤ 1) ∧
    (∀ id later,
      (∃ result, (store.take id).1 = .ok result) ∨ (store.take id).1 = .error .jobCancelled →
        let after := run store (.take id :: later)
        after.status id = .error (.jobNotFound id) ∧
          (after.take id).1 = .error (.jobNotFound id) ∧
          (after.cancel id).1 = .error (.jobNotFound id)) ∧
    (∀ id job later, store.jobs.get? id = some job → job.status ≠ .completed →
      handedOut id .empty (steps ++ .cancel id :: later) = []) ∧
    ∀ id, (∀ status : JobStatus, (store.take id).1 ≠ .error (.other ("job " ++ id.text ++
        " finished as " ++ status.text ++ " without a result"))) ∧
      (store.take id).1 ≠
        .error (.other ("job " ++ id.text ++ " holds a result it never completed")) := by
  intro store
  have orderly : store.IsOrderly := isOrderly_run .empty steps
  refine ⟨fun id job held => ?_, fun id => length_handedOut_le_one .empty id steps,
    fun id later answered => ?_, fun id job later held early => ?_, fun id => ?_⟩
  · have stored := orderly.stored id job held
    refine ⟨?_, stored.isSome_result_iff⟩
    cases stored <;> simp
  · obtain ⟨job, held, ended⟩ := orderly.exists_of_take answered
    have gone := get?_run_take orderly held ended later
    intro after
    refine ⟨?_, ?_, ?_⟩
    · simp only [JobStore.status, after, gone]
    · simp only [JobStore.take, after, gone]
    · simp only [JobStore.cancel, after, gone]
  · have issued := orderly.issued id job held
    have cancelled :
        (StoreStep.apply store (.cancel id)).jobs.get? id = some ⟨.cancelled, none⟩ := by
      rw [get?_apply issued, held]
      cases orderly.stored id job held with
      | queued => simp [change, SimulatedJob.abandon, JobStatus.isTerminal]
      | completed result => exact absurd rfl early
      | cancelled => simp [change, SimulatedJob.abandon, JobStatus.isTerminal]
    rw [handedOut_append, handedOut_of_held .empty held, List.nil_append]
    exact handedOut_of_cancelled (issued_apply issued _) cancelled later
  · exact orderly.take_ne id

/-- Two submissions overlap; the first is cancelled before it comes to its end. -/
def sampleSteps : List StoreStep :=
  [.enqueue, .enqueue, .cancel (JobStore.freshId 1),
    .complete (JobStore.freshId 2) ⟨.empty, 8, none⟩,
    .complete (JobStore.freshId 1) ⟨.empty, 5, none⟩]

/-- The cancelled job yields nothing, the other one its result, and both are gone when taken. -/
theorem run_empty_sample :
    let store := run .empty sampleSteps
    (store.take (JobStore.freshId 1)).1 = .error .jobCancelled ∧
      (store.take (JobStore.freshId 2)).1 = .ok ⟨.empty, 8, none⟩ ∧
      handedOut (JobStore.freshId 2) store
        [.take (JobStore.freshId 2), .take (JobStore.freshId 2)] = [⟨.empty, 8, none⟩] ∧
      (run store [.take (JobStore.freshId 1), .enqueue]).status (JobStore.freshId 1) =
        .error (.jobNotFound (JobStore.freshId 1)) := by
  intro store
  have cancelled : (store.take (JobStore.freshId 1)).1 = .error .jobCancelled := by rfl
  obtain ⟨-, -, gone, -, -⟩ := run_empty sampleSteps
  exact ⟨cancelled, by rfl, by rfl, (gone _ [.enqueue] (.inr cancelled)).1⟩

end StoreStep

end HybridQuantum
