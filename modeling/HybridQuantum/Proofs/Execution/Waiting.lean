import HybridQuantum.Execution.Backend
import Mathlib.Algebra.Order.Floor.Div

/-!
# Waiting for a job

Whoever waits polls until the first status that decides.  To say what a back end
was asked on the way, it is given a record of its calls, beside which it answers
as before.  One poll either ends the wait or leads to the next one; this comes a
poll interval later at least, so the deadline bounds how many there are.  A
deadline beyond the horizon of the clock ends the wait before the first poll.
-/

namespace HybridQuantum

/-- A call on a back end with what it answered. -/
inductive BackendCall where
  | submit (program : String) (shots : UInt32) (answer : Outcome BackendError JobId)
  | status (job : JobId) (answer : Outcome BackendError JobStatus)
  | result (job : JobId) (answer : Outcome BackendError ExecutionResult)
  | cancel (job : JobId) (answer : Outcome BackendError Unit)

namespace Backend

/-- The moment of a look at the deadline; the first one has number zero. -/
def Clock.look (clock : Clock) : Nat → Nat
  | 0 => clock.start + clock.delay
  | number + 1 => clock.look number + pollInterval + clock.late (clock.look number)

/--
How a wait ends, by the answer to its last status call: with which calls after it,
and with which answer.  `moment` is the look at the deadline that belongs to this
status; only a pending one makes it count.
-/
inductive Ends (job : JobId) (deadline moment : Nat) :
    Outcome BackendError JobStatus → List BackendCall →
      Outcome BackendError ExecutionResult → Prop where
  | error (fault : Fault BackendError) : Ends job deadline moment (.error fault) [] (.error fault)
  | completed (answer : Outcome BackendError ExecutionResult) :
      Ends job deadline moment (.ok .completed) [.result job answer] answer
  | failed (reason : String) :
      Ends job deadline moment (.ok (.failed reason)) [] (.fail (.jobFailed reason))
  | cancelled : Ends job deadline moment (.ok .cancelled) [] (.fail .jobCancelled)
  | timeout {status : JobStatus} (pending : status.isPending = true) (late : deadline ≤ moment) :
      Ends job deadline moment (.ok status) [] (.fail (.timeout job))

/-- What happens in a wait: pending statuses, the last answer to a status call, calls after it. -/
structure Course where
  pending : List JobStatus
  last : Outcome BackendError JobStatus
  after : List BackendCall
  answer : Outcome BackendError ExecutionResult

namespace Course

/-- All calls of a wait, in order. -/
def calls (course : Course) (job : JobId) : List BackendCall :=
  course.pending.map (fun status => .status job (.ok status)) ++
    .status job course.last :: course.after

/-- The statuses before the last came before the deadline, and the last answer decides. -/
structure IsDecided (course : Course) (job : JobId) (deadline : Nat) (clock : Clock)
    (first : Nat) : Prop where
  pending : ∀ status ∈ course.pending, status.isPending = true
  early : ∀ number < course.pending.length, clock.look (first + number) < deadline
  ends : Ends job deadline (clock.look (first + course.pending.length)) course.last course.after
    course.answer

end Course

variable {σ : Type}

/-- The same back end with its calls so far beside the state. -/
def recording (backend : Backend σ) : Backend (List BackendCall × σ) where
  info := backend.info
  submit held program shots :=
    let (answer, state) := backend.submit held.2 program shots
    (answer, held.1 ++ [.submit program shots answer], state)
  status held job :=
    let (answer, state) := backend.status held.2 job
    (answer, held.1 ++ [.status job answer], state)
  result held job :=
    let (answer, state) := backend.result held.2 job
    (answer, held.1 ++ [.result job answer], state)
  cancel held job :=
    let (answer, state) := backend.cancel held.2 job
    (answer, held.1 ++ [.cancel job answer], state)

section Polls

variable {backend : Backend σ} {job : JobId} {deadline : Nat} {clock : Clock} {number : Nat}
  {state next : σ} {record : List BackendCall} {last : Outcome BackendError JobStatus}

/-- How a wait goes on after the answer to a status call. -/
def goOn (backend : Backend σ) (job : JobId) (deadline : Nat) (late : Nat → Nat) (now : Nat)
    (state : σ) : Outcome BackendError JobStatus → Outcome BackendError ExecutionResult × σ
  | .error fault => (.error fault, state)
  | .ok .completed => backend.result state job
  | .ok (.failed reason) => (.fail (.jobFailed reason), state)
  | .ok .cancelled => (.fail .jobCancelled, state)
  | .ok _ =>
      if deadline ≤ now then (.fail (.timeout job), state)
      else backend.pollFrom job deadline late (now + pollInterval + late now) state

theorem pollFrom_eq_goOn {late : Nat → Nat} {now : Nat}
    (answered : backend.status state job = (last, next)) :
    backend.pollFrom job deadline late now state =
      backend.goOn job deadline late now next last := by
  rw [pollFrom, answered]
  rcases last with fault | (_ | _ | _ | _ | _) <;> rfl

theorem goOn_of_pending {late : Nat → Nat} {now : Nat} {status : JobStatus}
    (pending : status.isPending = true) :
    backend.goOn job deadline late now state (.ok status) =
      if deadline ≤ now then (.fail (.timeout job), state)
      else backend.pollFrom job deadline late (now + pollInterval + late now) state := by
  cases status with
  | queued | running => rfl
  | completed | failed _ | cancelled => cases pending

theorem status_recording (answered : backend.status state job = (last, next)) :
    backend.recording.status (record, state) job = (last, record ++ [.status job last], next) := by
  simp [recording, answered]

/-- From a poll on, a wait takes a course, which the record shows as well. -/
def Takes (backend : Backend σ) (job : JobId) (deadline : Nat) (clock : Clock) (number : Nat)
    (state : σ) (record : List BackendCall) (course : Course) (final : σ) : Prop :=
  backend.pollFrom job deadline clock.late (clock.look number) state = (course.answer, final) ∧
    backend.recording.pollFrom job deadline clock.late (clock.look number) (record, state) =
      (course.answer, record ++ course.calls job, final)

/-- A pending status before the deadline leads to the next poll. -/
theorem Takes.later {status : JobStatus} {course : Course} {final : σ}
    (answered : backend.status state job = (.ok status, next))
    (pending : status.isPending = true) (early : clock.look number < deadline)
    (others : Takes backend job deadline clock (number + 1) next
      (record ++ [.status job (.ok status)]) course final) :
    Takes backend job deadline clock number state record
      { course with pending := status :: course.pending } final := by
  obtain ⟨plain, recorded⟩ := others
  rw [List.append_assoc] at recorded
  rw [Takes, pollFrom_eq_goOn answered, pollFrom_eq_goOn (status_recording answered)]
  have before : ¬ deadline ≤ clock.look number := Nat.not_le.2 early
  rw [goOn_of_pending pending, goOn_of_pending pending, if_neg before, if_neg before]
  exact ⟨plain, recorded⟩

/-- Every other answer ends the wait, and so does a pending status from the deadline on. -/
theorem exists_takes_of_ends (answered : backend.status state job = (last, next))
    (late : ∀ status, last = .ok status → status.isPending = true →
      deadline ≤ clock.look number) :
    ∃ after answer final, Ends job deadline (clock.look number) last after answer ∧
      Takes backend job deadline clock number state record ⟨[], last, after, answer⟩ final := by
  simp only [Takes, pollFrom_eq_goOn answered, pollFrom_eq_goOn (status_recording answered)]
  cases last with
  | error fault => exact ⟨[], _, next, .error fault, rfl, rfl⟩
  | ok status =>
      cases status with
      | failed reason => exact ⟨[], _, next, .failed reason, rfl, rfl⟩
      | cancelled => exact ⟨[], _, next, .cancelled, rfl, rfl⟩
      | completed =>
          refine ⟨[.result job (backend.result next job).1], (backend.result next job).1,
            (backend.result next job).2, .completed _, rfl, ?_⟩
          simp [goOn, recording, Course.calls]
      | queued | running =>
          have now := late _ rfl rfl
          rw [goOn_of_pending rfl, goOn_of_pending rfl, if_pos now, if_pos now]
          exact ⟨[], _, next, .timeout rfl now, rfl, rfl⟩

theorem Course.IsDecided.later {status : JobStatus} {course : Course}
    (pending : status.isPending = true) (early : clock.look number < deadline)
    (decided : course.IsDecided job deadline clock (number + 1)) :
    Course.IsDecided { course with pending := status :: course.pending } job deadline clock
      number where
  pending := List.forall_mem_cons.2 ⟨pending, decided.pending⟩
  early
    | 0, _ => early
    | other + 1, inside => by
        rw [← Nat.succ_add_eq_add_succ]
        exact decided.early other (Nat.lt_of_succ_lt_succ inside)
  ends := by
    rw [List.length_cons, ← Nat.succ_add_eq_add_succ]
    exact decided.ends

/-- From every poll on a wait takes a course that is decided by its last status. -/
theorem exists_takes (backend : Backend σ) (job : JobId) (deadline : Nat) (clock : Clock)
    (number : Nat) (state : σ) (record : List BackendCall) :
    ∃ course final, Takes backend job deadline clock number state record course final ∧
      course.IsDecided job deadline clock number := by
  rcases answered : backend.status state job with ⟨last, next⟩
  by_cases goesOn : ∃ status, last = .ok status ∧ status.isPending = true ∧
      clock.look number < deadline
  · obtain ⟨status, rfl, pending, early⟩ := goesOn
    obtain ⟨course, final, takes, decided⟩ := exists_takes backend job deadline clock
      (number + 1) next (record ++ [.status job (.ok status)])
    exact ⟨_, final, takes.later answered pending early, decided.later pending early⟩
  · obtain ⟨after, answer, final, ends, takes⟩ := exists_takes_of_ends answered
      fun status same pending => Nat.not_lt.1 fun early => goesOn ⟨status, same, pending, early⟩
    exact ⟨_, final, takes, by simp, by simp, ends⟩
termination_by deadline - clock.look number
decreasing_by
  rw [Clock.look, pollInterval, millisecond]
  omega

end Polls

/-- Every job is complete, and nothing was counted. -/
def finished : Backend Unit where
  info := .simulator "finished" 1
  submit _ _ _ := (.ok ⟨"job"⟩, ())
  status _ _ := (.ok .completed, ())
  result _ _ := (.ok ⟨.empty, 0, none⟩, ())
  cancel _ _ := (.ok (), ())

end Backend

end HybridQuantum
