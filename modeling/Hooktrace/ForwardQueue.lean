import Hooktrace.Forward

/-!
The job queue of the forwards. arq keeps a key for every job that is queued or
running and, for `keep_result` seconds after a job has finished, its result; while
either exists `enqueue_job` with that job id queues nothing and returns None.
`enqueue` is the repository's producer on top of it: the job id is made of the
forward id and the delay, and the returned job is not looked at.
-/
namespace Hooktrace.ForwardQueue

structure Job where
  jobId : String
  forwardIdStr : String
  dueAt : Datetime
  deriving DecidableEq

/-- A kept result is given by its job id and the time the job finished. -/
structure ArqQueue where
  queued : List Job
  running : List Job
  results : List (String × Datetime)
  deriving DecidableEq

/-- The default of arq's `keep_result`, which `WorkerSettings` does not override. -/
def keepResult : ℕ := 3600

namespace ArqQueue

def empty : ArqQueue := ⟨[], [], []⟩

/-- A stored result of this job id has not expired. -/
def KeepsResult (q : ArqQueue) (jobId : String) (now : Datetime) : Prop :=
  ∃ p ∈ q.results, p.1 = jobId ∧ now < p.2 + seconds keepResult

/-- The job id is taken: by a queued or running job, or by a kept result. -/
def Taken (q : ArqQueue) (jobId : String) (now : Datetime) : Prop :=
  (∃ job ∈ q.queued, job.jobId = jobId) ∨ (∃ job ∈ q.running, job.jobId = jobId) ∨
    q.KeepsResult jobId now

instance (q : ArqQueue) (jobId : String) (now : Datetime) : Decidable (q.KeepsResult jobId now) :=
  inferInstanceAs (Decidable (∃ p ∈ q.results, p.1 = jobId ∧ now < p.2 + seconds keepResult))

instance (q : ArqQueue) (jobId : String) (now : Datetime) : Decidable (q.Taken jobId now) :=
  inferInstanceAs (Decidable ((∃ job ∈ q.queued, job.jobId = jobId) ∨
    (∃ job ∈ q.running, job.jobId = jobId) ∨ q.KeepsResult jobId now))

/-- `enqueue_job("execute_forward", arg, _job_id=..., _defer_by=...)`. -/
def enqueueJob (q : ArqQueue) (jobId forwardIdStr : String) (deferBy : ℕ) (now : Datetime) :
    ArqQueue × Option Job :=
  if q.Taken jobId now then (q, none)
  else
    let job : Job := ⟨jobId, forwardIdStr, now + seconds deferBy⟩
    ({ q with queued := q.queued ++ [job] }, some job)

def start (q : ArqQueue) (job : Job) (now : Datetime) : Option ArqQueue :=
  if job ∈ q.queued ∧ job.dueAt ≤ now then
    some { q with queued := q.queued.erase job, running := job :: q.running }
  else none

def finish (q : ArqQueue) (job : Job) (now : Datetime) : Option ArqQueue :=
  if job ∈ q.running then
    some { q with running := q.running.erase job, results := (job.jobId, now) :: q.results }
  else none

end ArqQueue

def jobId (forwardId : UUID) (deferSeconds : ℕ) : String :=
  s!"forward:{forwardId.str}:{deferSeconds}"

/-- `ArqForwardQueue.enqueue`. -/
def enqueue (q : ArqQueue) (forwardId : UUID) (deferSeconds : ℕ) (now : Datetime) : ArqQueue :=
  (q.enqueueJob (jobId forwardId deferSeconds) forwardId.str deferSeconds now).1

/-- Some job for the forward is waiting in the queue, to start later. -/
def Waiting (q : ArqQueue) (forwardId : UUID) : Prop :=
  ∃ job ∈ q.queued, job.forwardIdStr = forwardId.str

instance (q : ArqQueue) (forwardId : UUID) : Decidable (Waiting q forwardId) :=
  inferInstanceAs (Decidable (∃ job ∈ q.queued, job.forwardIdStr = forwardId.str))

/-- A job id determines the forward and the delay. -/
theorem jobId_inj {f g : UUID} {d e : ℕ} : jobId f d = jobId g e ↔ f = g ∧ d = e := by
  constructor
  · intro h
    have hlist := congrArg String.toList h
    simp only [jobId, toString, String.toList_append, List.append_assoc,
      List.append_cancel_left_eq] at hlist
    obtain ⟨hid, hrest⟩ :=
      List.append_inj hlist (by rw [f.str_length, g.str_length])
    have hrepr : (Nat.repr d).toList = (Nat.repr e).toList := by simpa using hrest
    exact ⟨UUID.str_injective (String.toList_inj.mp hid),
      Nat.repr_inj.mp (String.toList_inj.mp hrepr)⟩
  · intro hsame
    obtain ⟨rfl, rfl⟩ := hsame
    rfl

theorem enqueue_of_taken {q : ArqQueue} {forwardId : UUID} {d : ℕ} {now : Datetime}
    (h : q.Taken (jobId forwardId d) now) : enqueue q forwardId d now = q := by
  simp [enqueue, ArqQueue.enqueueJob, h]

theorem enqueue_of_free {q : ArqQueue} {forwardId : UUID} {d : ℕ} {now : Datetime}
    (h : ¬ q.Taken (jobId forwardId d) now) :
    enqueue q forwardId d now = { q with
      queued := q.queued ++ [⟨jobId forwardId d, forwardId.str, now + seconds d⟩] } := by
  simp [enqueue, ArqQueue.enqueueJob, h]

/-- After an enqueue a job of the forward waits exactly when one waited before or
the job id was free. -/
theorem waiting_enqueue {q : ArqQueue} {forwardId : UUID} {d : ℕ} {now : Datetime} :
    Waiting (enqueue q forwardId d now) forwardId ↔
      Waiting q forwardId ∨ ¬ q.Taken (jobId forwardId d) now := by
  by_cases h : q.Taken (jobId forwardId d) now
  · simp [enqueue_of_taken h, h]
  · rw [enqueue_of_free h]
    simp [Waiting, h]

theorem enqueue_running (q : ArqQueue) (forwardId : UUID) (d : ℕ) (now : Datetime) :
    (enqueue q forwardId d now).running = q.running := by
  by_cases h : q.Taken (jobId forwardId d) now
  · rw [enqueue_of_taken h]
  · rw [enqueue_of_free h]

theorem start_eq {q q' : ArqQueue} {job : Job} {now : Datetime} (h : q.start job now = some q') :
    job ∈ q.queued ∧ q'.queued = q.queued.erase job ∧ q'.running = job :: q.running ∧
      q'.results = q.results := by
  unfold ArqQueue.start at h
  split at h
  · rename_i hdue
    obtain rfl := Option.some.inj h
    exact ⟨hdue.1, rfl, rfl, rfl⟩
  · simp at h

theorem finish_eq {q q' : ArqQueue} {job : Job} {now : Datetime}
    (h : q.finish job now = some q') :
    job ∈ q.running ∧ q'.queued = q.queued ∧ q'.running = q.running.erase job ∧
      q'.results = (job.jobId, now) :: q.results := by
  unfold ArqQueue.finish at h
  split at h
  · rename_i hrunning
    obtain rfl := Option.some.inj h
    exact ⟨hrunning, rfl, rfl, rfl⟩
  · simp at h

/-- The end of a running job takes no waiting job with it. -/
theorem waiting_finish {q q' : ArqQueue} {job : Job} {now : Datetime} {forwardId : UUID}
    (h : q.finish job now = some q') : Waiting q' forwardId ↔ Waiting q forwardId := by
  rw [Waiting, Waiting, (finish_eq h).2.1]

/-- An enqueue takes no waiting job away. -/
theorem Waiting.enqueue {q : ArqQueue} {forwardId : UUID} (h : Waiting q forwardId)
    (forwardId' : UUID) (d : ℕ) (now : Datetime) :
    Waiting (enqueue q forwardId' d now) forwardId := by
  by_cases htaken : q.Taken (jobId forwardId' d) now
  · rwa [enqueue_of_taken htaken]
  · obtain ⟨job, hjob, hid⟩ := h
    rw [enqueue_of_free htaken]
    exact ⟨job, List.mem_append_left _ hjob, hid⟩

/-- A waiting job goes only by the start of a job of its forward. -/
theorem Waiting.start {q q' : ArqQueue} {forwardId : UUID} {job : Job} {now : Datetime}
    (h : Waiting q forwardId) (hstart : q.start job now = some q')
    (hother : job.forwardIdStr ≠ forwardId.str) : Waiting q' forwardId := by
  obtain ⟨waiting, hwaiting, hid⟩ := h
  refine ⟨waiting, ?_, hid⟩
  rw [(start_eq hstart).2.1]
  refine (List.mem_erase_of_ne ?_).mpr hwaiting
  intro hsame
  obtain rfl := hsame
  exact hother hid

def Job.Named (job : Job) : Prop :=
  ∃ forwardId d, job.jobId = ForwardQueue.jobId forwardId d ∧ job.forwardIdStr = forwardId.str

theorem Job.Named.forwardIdStr_eq {job : Job} (h : job.Named) {forwardId : UUID} {d : ℕ}
    (hid : job.jobId = ForwardQueue.jobId forwardId d) : job.forwardIdStr = forwardId.str := by
  obtain ⟨forwardId', d', hid', hstr⟩ := h
  obtain ⟨rfl, _⟩ := jobId_inj.mp (hid'.symm.trans hid)
  exact hstr

theorem mem_enqueue_queued {q : ArqQueue} {forwardId : UUID} {d : ℕ} {now : Datetime}
    {job : Job} (h : job ∈ (enqueue q forwardId d now).queued) :
    job ∈ q.queued ∨ job = ⟨jobId forwardId d, forwardId.str, now + seconds d⟩ := by
  by_cases htaken : q.Taken (jobId forwardId d) now
  · rw [enqueue_of_taken htaken] at h
    exact Or.inl h
  · rw [enqueue_of_free htaken] at h
    simpa using h

theorem enqueue_results (q : ArqQueue) (forwardId : UUID) (d : ℕ) (now : Datetime) :
    (enqueue q forwardId d now).results = q.results := by
  by_cases h : q.Taken (jobId forwardId d) now
  · rw [enqueue_of_taken h]
  · rw [enqueue_of_free h]

end Hooktrace.ForwardQueue
