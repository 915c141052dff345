import HybridQuantum.Execution.Job

/-!
# The life of a job

A job asked to move, again and again and to any status, never leaves a status in
which it has ended.  Before that it takes every status it is asked for, so it
goes back in one case: a running job that is asked to queue.
-/

namespace HybridQuantum

namespace JobStatus

/-- How far a status is along the way: waiting, at work, ended. -/
def rank : JobStatus → Nat
  | queued => 0
  | running => 1
  | _ => 2

theorem rank_lt_iff {status next : JobStatus} (pending : status.isTerminal = false) :
    next.rank < status.rank ↔ status = .running ∧ next = .queued := by
  cases status <;> cases next <;> simp [rank, isTerminal] at pending ⊢

end JobStatus

namespace Job

variable {job : Job}

theorem transition_of_terminal (ended : job.status.isTerminal = true) (now : Nat)
    (status : JobStatus) : job.transition now status = (false, job) := by
  simp [transition, JobStatus.advance?, ended]

theorem status_transition_of_pending (pending : job.status.isTerminal = false) (now : Nat)
    (status : JobStatus) : (job.transition now status).2.status = status := by
  simp [transition, JobStatus.advance?, pending]

/-- One request takes a job back exactly when it asks a running job to queue. -/
theorem rank_transition_lt_iff (job : Job) (now : Nat) (status : JobStatus) :
    (job.transition now status).2.status.rank < job.status.rank ↔
      job.status = .running ∧ status = .queued := by
  cases ended : job.status.isTerminal with
  | true =>
      have apart : job.status ≠ .running := by
        intro running
        rw [running] at ended
        cases ended
      simp [transition_of_terminal ended, apart]
  | false =>
      rw [status_transition_of_pending ended]
      exact JobStatus.rank_lt_iff ended

/-- The job after requests in order, each a status and the moment it was asked for. -/
def transitions (job : Job) (requests : List (Nat × JobStatus)) : Job :=
  requests.foldl (fun job request => (job.transition request.1 request.2).2) job

theorem transitions_of_terminal (ended : job.status.isTerminal = true)
    (requests : List (Nat × JobStatus)) : job.transitions requests = job := by
  induction requests with
  | nil => rfl
  | cons request rest ih =>
      rw [transitions, List.foldl_cons, transition_of_terminal ended]
      exact ih

/-- Some request of a list asks a running job to queue. -/
def SendsBack (job : Job) (requests : List (Nat × JobStatus)) : Prop :=
  ∃ before now after, requests = before ++ (now, .queued) :: after ∧
    (job.transitions before).status = .running

theorem SendsBack.cons {request : Nat × JobStatus} {rest : List (Nat × JobStatus)}
    (later : (job.transition request.1 request.2).2.SendsBack rest) :
    job.SendsBack (request :: rest) := by
  obtain ⟨before, now, after, rfl, running⟩ := later
  exact ⟨request :: before, now, after, rfl, running⟩

theorem rank_le_transitions (requests : List (Nat × JobStatus))
    (forward : ¬ job.SendsBack requests) :
    job.status.rank ≤ (job.transitions requests).status.rank := by
  induction requests generalizing job with
  | nil => exact Nat.le_refl _
  | cons request rest ih =>
      have step : job.status.rank ≤ (job.transition request.1 request.2).2.status.rank := by
        rw [← Nat.not_lt, rank_transition_lt_iff]
        rintro ⟨running, queues⟩
        exact forward ⟨[], request.1, rest, by rw [← queues]; rfl, running⟩
      exact Nat.le_trans step (ih fun later => forward later.cons)

/--
A job that has ended stays as it is: every later request is refused and changes
neither its status nor the moments noted.  Until then it never goes back unless
some request asks a running job to queue, and each such request takes it back.
-/
theorem transitions_forward (id : JobId) (backend : String) (shots qubits : UInt32)
    (before after : List (Nat × JobStatus)) :
    let job := (Job.new id backend shots qubits).transitions before
    (job.status.isTerminal = true →
      job.transitions after = job ∧
        ∀ now status, (job.transitions after).transition now status = (false, job)) ∧
    (¬ job.SendsBack after → job.status.rank ≤ (job.transitions after).status.rank) ∧
    ∀ now status, (job.transition now status).2.status.rank < job.status.rank ↔
      job.status = .running ∧ status = .queued := by
  intro job
  refine ⟨fun ended => ?_, rank_le_transitions after, job.rank_transition_lt_iff⟩
  have stays := transitions_of_terminal ended after
  refine ⟨stays, fun now status => ?_⟩
  rw [stays]
  exact transition_of_terminal ended now status

/-- A job that started and completed refuses to be cancelled and keeps both moments. -/
theorem transitions_forward_completed :
    let job := (Job.new ⟨"job-1"⟩ "simulator" 100 2).transitions [(3, .running), (7, .completed)]
    job.startedAt = some 3 ∧ job.finishedAt = some 7 ∧
      job.transition 9 .cancelled = (false, job) := by
  intro job
  obtain ⟨stays, -, -⟩ := transitions_forward ⟨"job-1"⟩ "simulator" 100 2
    [(3, .running), (7, .completed)] []
  exact ⟨by rfl, by rfl, (stays (by rfl)).2 9 .cancelled⟩

/-- A running job that is asked to queue falls from the second rank to the first. -/
theorem transitions_back :
    let job := Job.new ⟨"job-1"⟩ "simulator" 100 2
    (job.transitions [(0, .running)]).status.rank = 1 ∧
      ((job.transitions [(0, .running)]).transition 1 .queued).1 = true ∧
      (job.transitions [(0, .running), (1, .queued)]).status.rank = 0 := by
  decide

end Job

end HybridQuantum
