import Hooktrace.JobRuns
import Hooktrace.ReadCommitted

/-!
Whether a manual retry or a redrive that enqueues leads to a run. The rows, the transactions of
the producers and the queue move together: updates, enqueues, commits, starts, claims and ends of
jobs, in any order. The id of a job that is to run at once is always `forward:<id>:0`, and arq
does not accept it again while such a job runs or has ended within the last hour; and a job that
claims before the producer commits finds nothing.
-/
namespace Hooktrace.Requeue

open ForwardQueue ForwardRepository Lifecycle ReadCommitted Table Transition
open ExecuteForward (TargetAnswer expiredOutcome)
open RedrivePendingForwards (stuckInFlightThresholdSeconds)

/-- One forward. `core` has its committed row; `written` is the version of a transaction of a
producer that is open. The jobs of the forward in `starting` have started and not yet come to
their claim. -/
structure System where
  forwardId : UUID
  core : State
  written : Option Forward
  queue : ArqQueue
  starting : List Job

inductive SystemAction where
  /-- The UPDATE of `RetryForward`. -/
  | retry (endpointId : UUID) (now : Datetime)
  /-- The UPDATE of `RedrivePendingForwards`. -/
  | reclaim (endpointId : UUID) (now : Datetime)
  /-- The enqueue of one of the two, which has written the open version or sees the committed
  one. -/
  | requeue (own : Bool) (now : Datetime)
  /-- `get_session` comes to its end. -/
  | commit
  | rollback
  /-- An enqueue by the capture, a worker, or on behalf of another forward. -/
  | enqueue (forwardId : UUID) (deferSeconds : ℕ) (now : Datetime)
  | start (job : Job) (now : Datetime)
  | claim (job : Job) (w : WorkerId) (now : Datetime)
  /-- The claim, when the endpoint or the request is gone. -/
  | claimExpired (job : Job) (now expiredAt : Datetime)
  | finish (job : Job) (now : Datetime)
  | record (w : WorkerId) (answer : TargetAnswer) (decidedAt recordedAt : Datetime)
  | crash (w : WorkerId)
  | abandon (endpointId : UUID) (now : Datetime)

namespace System

def versioned (s : System) : VersionedRow Forward := ⟨some s.core.row, s.written⟩

def seen (s : System) (own : Bool) : Forward :=
  if own then s.written.getD s.core.row else s.core.row

/-- An UPDATE in a transaction that stays open. -/
def write (s : System) (u : Update Forward) : Option System :=
  match s.versioned.update u with
  | .noRow => some s
  | .waits => none
  | .updated r => some { s with written := some r }

/-- A statement that is committed at once. -/
def execute (s : System) (u : Update Forward) (a : Action) : Option System :=
  match s.versioned.update u with
  | .waits => none
  | _ => (step s.core a).map fun core => { s with core }

def claims (s : System) (job : Job) (now : Datetime) (a : Action) : Option System :=
  if job ∈ s.starting then
    (s.execute (claimForAttempt s.forwardId now) a).map fun s =>
      { s with starting := s.starting.erase job }
  else none

end System

def systemStep (s : System) : SystemAction → Option System
  | .retry endpointId now => s.write (claimForManualRetry s.forwardId endpointId now)
  | .reclaim endpointId now =>
    s.write (reclaimStuckInFlight endpointId stuckInFlightThresholdSeconds now)
  | .requeue _ now => some { s with queue := enqueue s.queue s.forwardId 0 now }
  | .commit => s.written.map fun r => { s with core := { s.core with row := r }, written := none }
  | .rollback => s.written.map fun _ => { s with written := none }
  | .enqueue forwardId d now => some { s with queue := enqueue s.queue forwardId d now }
  | .start job now => (s.queue.start job now).map fun queue =>
    { s with
      queue
      starting := if job.forwardIdStr = s.forwardId.str then job :: s.starting else s.starting }
  | .claim job w now => s.claims job now (.claim w now)
  | .claimExpired job now expiredAt => s.claims job now (.claimExpired now expiredAt)
  | .finish job now =>
    if job ∈ s.starting then none
    else (s.queue.finish job now).map fun queue => { s with queue }
  | .record w answer decidedAt recordedAt =>
    s.execute (recordOutcome s.forwardId expiredOutcome recordedAt)
      (.record w answer decidedAt recordedAt)
  | .crash w => (step s.core (.crash w)).map fun core => { s with core }
  | .abandon endpointId now =>
    s.execute (ForwardRepository.abandon s.forwardId endpointId now) (.abandon endpointId now)

abbrev SystemMove := Move System SystemAction

/-- The forward has been captured; its job may or may not have been enqueued. -/
def start (id requestId endpointId : UUID) (targetUrl : String) (now : Datetime) : System :=
  ⟨id, Lifecycle.start id requestId endpointId targetUrl now, none, .empty, []⟩

def SystemRunOf (ms : History System SystemAction) (t : System) : Prop :=
  ∃ id requestId endpointId targetUrl now,
    Run (Steps systemStep) (start id requestId endpointId targetUrl now) ms t

/-- The owner's retry or a redrive enqueues the forward, which is pending or failed for it. -/
def Requeues (m : SystemMove) : Prop :=
  ∃ own now, m.act = .requeue own now ∧ (m.pre.seen own).status.Claimable

def Open (s : System) : Prop :=
  s.core.row.status.Claimable ∨ ∃ r, s.written = some r ∧ r.status.Claimable

/-- There was such an enqueue, and nothing has come of it yet: the forward was open ever since. -/
def Owed : History System SystemAction → Prop
  | [] => False
  | m :: past => Requeues m ∨ (Owed past ∧ Open m.post)

/-- A job of the forward is to start, or is to claim. -/
def Attended (s : System) : Prop := Waiting s.queue s.forwardId ∨ s.starting ≠ []

/-- The enqueue leaves a job waiting, and until the forward is claimed, or is not to be claimed
any more, there is one. -/
def LeadsToRun (past : History System SystemAction) (m : SystemMove) : Prop :=
  (Requeues m → Waiting m.post.queue m.post.forwardId) ∧ (Owed (m :: past) → Attended m.post)

def EndedWithinHour (past : History System SystemAction) (jobId : String) (now : Datetime) :
    Prop :=
  ∃ m ∈ past, ∃ job endedAt, m.act = .finish job endedAt ∧ job.jobId = jobId ∧
    now < endedAt + seconds 3600

/-- A job of the forward waits already, or the job that is to run at once neither runs
nor has ended within the hour. -/
def FreeOrWaiting (past : History System SystemAction) (m : SystemMove) : Prop :=
  ∀ own now, m.act = .requeue own now → (m.pre.seen own).status.Claimable →
    Waiting m.pre.queue m.pre.forwardId ∨
    (¬ (∃ job ∈ m.pre.queue.running, job.jobId = jobId m.pre.forwardId 0) ∧
      ¬ EndedWithinHour past (jobId m.pre.forwardId 0) now)

def ClaimsOf (job : Job) (m : SystemMove) : Prop :=
  (∃ w now, m.act = .claim job w now) ∨ ∃ now expiredAt, m.act = .claimExpired job now expiredAt

/-- Between the enqueue and the commit of a transaction that opens the forward, no job claims,
unless another job of the forward is there. -/
def CommitsFirst (past : History System SystemAction) (m : SystemMove) : Prop :=
  ∀ job, ClaimsOf job m → Owed past → m.pre.written.isSome →
    m.pre.core.row.status.Claimable ∨ Waiting m.pre.queue m.pre.forwardId ∨
      m.pre.starting.erase job ≠ []

/-- A job that claims while the row is claimable, and nobody has written it, claims it. -/
def StartedJobClaims (s : System) : Prop :=
  ∀ job ∈ s.starting, ∀ w now, s.core.row.status.Claimable → s.written = none →
    s.core.workers w = none → ∃ u, systemStep s (.claim job w now) = some u ∧
      u.core.row.status = .inFlight ∧ u.core.workers w = some u.core.row

section Rows

variable {s u : System}

theorem write_cases {v : Update Forward} (h : s.write v = some u) :
    u = s ∨ (s.written = none ∧ v.holds s.core.row = true ∧
      u = { s with written := some (v.assign s.core.row) }) := by
  unfold System.write System.versioned VersionedRow.update at h
  cases hholds : v.holds s.core.row with
  | false =>
    simp only [hholds] at h
    exact Or.inl (Option.some.inj h).symm
  | true =>
    cases hwritten : s.written with
    | none =>
      simp only [hholds, hwritten] at h
      exact Or.inr ⟨rfl, rfl, (Option.some.inj h).symm⟩
    | some r => simp [hholds, hwritten] at h

theorem execute_cases {v : Update Forward} {a : Action} (h : s.execute v a = some u) :
    (v.holds s.core.row = true → s.written = none) ∧
      ∃ core, step s.core a = some core ∧ u = { s with core } := by
  unfold System.execute System.versioned at h
  split at h
  · cases h
  · rename_i hwaits
    obtain ⟨core, hcore, rfl⟩ := Option.map_eq_some_iff.mp h
    refine ⟨?_, core, hcore, rfl⟩
    intro hholds
    rcases VersionedRow.update_of_holds ⟨some s.core.row, s.written⟩ rfl hholds with
      hwait | ⟨hnone, -⟩
    · exact absurd hwait hwaits
    · exact hnone

theorem claims_cases {job : Job} {now : Datetime} {a : Action} (h : s.claims job now a = some u) :
    job ∈ s.starting ∧
      ((claimForAttempt s.forwardId now).holds s.core.row = true → s.written = none) ∧
      ∃ core, step s.core a = some core ∧
        u = { s with core, starting := s.starting.erase job } := by
  unfold System.claims at h
  split at h
  · rename_i hmem
    obtain ⟨u', hexecute, rfl⟩ := Option.map_eq_some_iff.mp h
    obtain ⟨hfree, core, hcore, rfl⟩ := execute_cases hexecute
    exact ⟨hmem, hfree, core, hcore, rfl⟩
  · cases h

end Rows

/-- The versions are of this forward, and what is written is open. -/
structure Kept (s : System) : Prop where
  own : OwnSnapshots s.core
  id : s.core.row.id = s.forwardId
  written : ∀ r, s.written = some r → r.id = s.forwardId ∧ r.status.Claimable

section Kept

variable {s u : System} {a : SystemAction}

theorem Kept.core (h : Kept s) {a : Action} {core : State} (hstep : step s.core a = some core) :
    OwnSnapshots core ∧ core.row.id = s.forwardId := by
  have heffect := step_effect h.own hstep
  exact ⟨heffect.ownSnapshots h.own, heffect.sameOrigin.id_eq.trans h.id⟩

theorem Kept.execute (h : Kept s) {v : Update Forward} {a : Action}
    (hstep : s.execute v a = some u) : Kept u := by
  obtain ⟨-, core, hcore, rfl⟩ := execute_cases hstep
  exact ⟨(h.core hcore).1, (h.core hcore).2, h.written⟩

theorem Kept.claims (h : Kept s) {job : Job} {now : Datetime} {a : Action}
    (hstep : s.claims job now a = some u) : Kept u := by
  obtain ⟨-, -, core, hcore, rfl⟩ := claims_cases hstep
  exact ⟨(h.core hcore).1, (h.core hcore).2, h.written⟩

/-- Both producers leave the row open. -/
theorem Kept.write (h : Kept s) {v : Update Forward} (hv : Writer v)
    (hopen : ∀ r, (v.assign r).status.Claimable) (hstep : s.write v = some u) : Kept u := by
  rcases write_cases hstep with rfl | ⟨-, -, rfl⟩
  · exact h
  · refine ⟨h.own, h.id, ?_⟩
    intro r hr
    obtain rfl := Option.some.inj hr
    exact ⟨(hv.sameOrigin s.core.row).id_eq.trans h.id, hopen _⟩

theorem Kept.step (h : Kept s) (hstep : systemStep s a = some u) : Kept u := by
  cases a with
  | retry endpointId now => exact h.write (.manualRetry _ _ _) (fun _ => Or.inl rfl) hstep
  | reclaim endpointId now => exact h.write (.reclaim _ _ _) (fun _ => Or.inr rfl) hstep
  | commit =>
    obtain ⟨r, hr, rfl⟩ := Option.map_eq_some_iff.mp hstep
    obtain ⟨hid, -⟩ := h.written r hr
    refine ⟨?_, hid, by simp⟩
    intro w claimed hw
    obtain ⟨hsnapshot, hcounted⟩ := h.own w claimed hw
    exact ⟨hsnapshot.trans (h.id.trans hid.symm), hcounted⟩
  | rollback =>
    obtain ⟨r, hr, rfl⟩ := Option.map_eq_some_iff.mp hstep
    exact ⟨h.own, h.id, by simp⟩
  | requeue own now =>
    obtain rfl := Option.some.inj hstep
    exact ⟨h.own, h.id, h.written⟩
  | enqueue forwardId d now =>
    obtain rfl := Option.some.inj hstep
    exact ⟨h.own, h.id, h.written⟩
  | start job now =>
    obtain ⟨queue, -, rfl⟩ := Option.map_eq_some_iff.mp hstep
    exact ⟨h.own, h.id, h.written⟩
  | claim job w now => exact h.claims hstep
  | claimExpired job now expiredAt => exact h.claims hstep
  | finish job now =>
    simp only [systemStep] at hstep
    split at hstep
    · cases hstep
    · obtain ⟨queue, -, rfl⟩ := Option.map_eq_some_iff.mp hstep
      exact ⟨h.own, h.id, h.written⟩
  | record w answer decidedAt recordedAt => exact h.execute hstep
  | crash w =>
    obtain ⟨core, hcore, rfl⟩ := Option.map_eq_some_iff.mp hstep
    exact ⟨(h.core hcore).1, (h.core hcore).2, h.written⟩
  | abandon endpointId now => exact h.execute hstep

end Kept

/-- Every waiting job carries the forward of its id; the kept results are those of the
jobs that have ended. -/
structure Recorded (past : History System SystemAction) (s : System) : Prop where
  named : ∀ job ∈ s.queue.queued, job.Named
  results : ∀ p, p ∈ s.queue.results ↔
    ∃ m ∈ past, ∃ job endedAt, m.act = .finish job endedAt ∧ p = (job.jobId, endedAt)

section Queue

variable {past : History System SystemAction} {s u : System} {a : SystemAction}

theorem named_enqueue {q : ArqQueue} {forwardId : UUID} {d : ℕ} {now : Datetime}
    (h : ∀ job ∈ q.queued, job.Named) :
    ∀ job ∈ (enqueue q forwardId d now).queued, job.Named := by
  intro job hjob
  rcases mem_enqueue_queued hjob with hold | rfl
  · exact h job hold
  · exact ⟨forwardId, d, rfl, rfl⟩

theorem Recorded.of_not_finish (h : Recorded past s) (hact : ∀ job now, a ≠ .finish job now)
    (hqueued : ∀ job ∈ u.queue.queued, job.Named) (hresults : u.queue.results = s.queue.results) :
    Recorded (⟨s, a, u⟩ :: past) u := by
  refine ⟨hqueued, ?_⟩
  intro p
  rw [hresults, h.results p, List.exists_mem_cons_iff]
  constructor
  · exact Or.inr
  · intro hended
    rcases hended with ⟨job, endedAt, hfinish, _⟩ | hold
    · exact absurd hfinish (hact job endedAt)
    · exact hold

theorem Recorded.of_queue (h : Recorded past s) (hact : ∀ job now, a ≠ .finish job now)
    (hqueue : u.queue = s.queue) : Recorded (⟨s, a, u⟩ :: past) u :=
  h.of_not_finish hact (hqueue ▸ h.named) (hqueue ▸ rfl)

theorem Recorded.finish (h : Recorded past s) {job : Job} {now : Datetime} {queue : ArqQueue}
    (hqueue : s.queue.finish job now = some queue) :
    Recorded (⟨s, .finish job now, { s with queue }⟩ :: past) { s with queue } := by
  obtain ⟨_, hqueued, _, hresults⟩ := finish_eq hqueue
  refine ⟨fun job' hjob' => h.named job' (hqueued ▸ hjob'), ?_⟩
  intro p
  rw [hresults, List.mem_cons, List.exists_mem_cons_iff, h.results p]
  constructor
  · intro hresult
    rcases hresult with rfl | hpast
    · exact Or.inl ⟨job, now, rfl, rfl⟩
    · exact Or.inr hpast
  · intro hended
    rcases hended with ⟨job', endedAt, hact, rfl⟩ | hpast
    · obtain ⟨rfl, rfl⟩ := SystemAction.finish.inj hact
      exact Or.inl rfl
    · exact Or.inr hpast

theorem Recorded.step (h : Recorded past s) (hstep : systemStep s a = some u) :
    Recorded (⟨s, a, u⟩ :: past) u := by
  cases a with
  | retry endpointId now =>
    rcases write_cases hstep with rfl | ⟨-, -, rfl⟩ <;> exact h.of_queue (by simp) rfl
  | reclaim endpointId now =>
    rcases write_cases hstep with rfl | ⟨-, -, rfl⟩ <;> exact h.of_queue (by simp) rfl
  | commit =>
    obtain ⟨r, -, rfl⟩ := Option.map_eq_some_iff.mp hstep
    exact h.of_queue (by simp) rfl
  | rollback =>
    obtain ⟨r, -, rfl⟩ := Option.map_eq_some_iff.mp hstep
    exact h.of_queue (by simp) rfl
  | requeue own now =>
    obtain rfl := Option.some.inj hstep
    exact h.of_not_finish (by simp) (named_enqueue h.named) (enqueue_results _ _ _ _)
  | enqueue forwardId d now =>
    obtain rfl := Option.some.inj hstep
    exact h.of_not_finish (by simp) (named_enqueue h.named) (enqueue_results _ _ _ _)
  | start job now =>
    obtain ⟨queue, hqueue, rfl⟩ := Option.map_eq_some_iff.mp hstep
    obtain ⟨_, hqueued, _, hresults⟩ := start_eq hqueue
    refine h.of_not_finish (by simp) ?_ hresults
    intro job' hjob'
    have hmem : job' ∈ s.queue.queued := List.mem_of_mem_erase (hqueued ▸ hjob')
    exact h.named job' hmem
  | claim job w now =>
    obtain ⟨-, -, core, -, rfl⟩ := claims_cases hstep
    exact h.of_queue (by simp) rfl
  | claimExpired job now expiredAt =>
    obtain ⟨-, -, core, -, rfl⟩ := claims_cases hstep
    exact h.of_queue (by simp) rfl
  | finish job now =>
    simp only [systemStep] at hstep
    split at hstep
    · cases hstep
    · obtain ⟨queue, hqueue, rfl⟩ := Option.map_eq_some_iff.mp hstep
      exact h.finish hqueue
  | record w answer decidedAt recordedAt =>
    obtain ⟨-, core, -, rfl⟩ := execute_cases hstep
    exact h.of_queue (by simp) rfl
  | crash w =>
    obtain ⟨core, -, rfl⟩ := Option.map_eq_some_iff.mp hstep
    exact h.of_queue (by simp) rfl
  | abandon endpointId now =>
    obtain ⟨-, core, -, rfl⟩ := execute_cases hstep
    exact h.of_queue (by simp) rfl

/-- Without a waiting job of the forward, its id for a run at once is taken exactly by a
running job or by one that has ended within the hour. -/
theorem Recorded.taken_iff (h : Recorded past s) {forwardId : UUID} {now : Datetime}
    (hnone : ¬ Waiting s.queue forwardId) :
    s.queue.Taken (jobId forwardId 0) now ↔
      (∃ job ∈ s.queue.running, job.jobId = jobId forwardId 0) ∨
        EndedWithinHour past (jobId forwardId 0) now := by
  have hkept : s.queue.KeepsResult (jobId forwardId 0) now ↔
      EndedWithinHour past (jobId forwardId 0) now := by
    constructor
    · intro hkept
      obtain ⟨p, hp, hid, hlt⟩ := hkept
      obtain ⟨m, hm, job, endedAt, hact, rfl⟩ := (h.results p).mp hp
      exact ⟨m, hm, job, endedAt, hact, hid, hlt⟩
    · intro hended
      obtain ⟨m, hm, job, endedAt, hact, hid, hlt⟩ := hended
      exact ⟨_, (h.results _).mpr ⟨m, hm, job, endedAt, hact, rfl⟩, hid, hlt⟩
  have hqueued : ¬ ∃ job ∈ s.queue.queued, job.jobId = jobId forwardId 0 := by
    intro hqueued
    obtain ⟨job, hjob, hid⟩ := hqueued
    exact hnone ⟨job, hjob, (h.named job hjob).forwardIdStr_eq hid⟩
  rw [ArqQueue.Taken, hkept]
  exact or_iff_right hqueued

/-- The enqueue of a retry or redrive leaves a job waiting exactly when one waited before
or the id was free. -/
theorem queues_iff (h : Recorded past s) (hstep : systemStep s a = some u) :
    (Requeues ⟨s, a, u⟩ → Waiting u.queue u.forwardId) ↔ FreeOrWaiting past ⟨s, a, u⟩ := by
  have hwaits : ∀ now, u = { s with queue := enqueue s.queue s.forwardId 0 now } →
      (Waiting u.queue u.forwardId ↔ Waiting s.queue s.forwardId ∨
        (¬ (∃ job ∈ s.queue.running, job.jobId = jobId s.forwardId 0) ∧
          ¬ EndedWithinHour past (jobId s.forwardId 0) now)) := by
    rintro now rfl
    refine waiting_enqueue.trans ?_
    by_cases hbefore : Waiting s.queue s.forwardId
    · exact ⟨fun _ => Or.inl hbefore, fun _ => Or.inl hbefore⟩
    · rw [h.taken_iff hbefore, not_or]
  constructor
  · intro hleads own now hact hclaim
    obtain rfl := hact
    exact (hwaits now (Option.some.inj hstep).symm).mp (hleads ⟨own, now, rfl, hclaim⟩)
  · rintro hfree ⟨own, now, hact, hclaim⟩
    obtain rfl := hact
    exact (hwaits now (Option.some.inj hstep).symm).mpr (hfree own now rfl hclaim)

end Queue

section Attended

variable {past : History System SystemAction} {s u : System} {a : SystemAction}

/-- What the producer looks at is one of the two versions. -/
theorem open_of_seen {own : Bool} (h : (s.seen own).status.Claimable) : Open s := by
  unfold System.seen at h
  cases own with
  | false => exact Or.inl h
  | true =>
    cases hwritten : s.written with
    | none =>
      rw [hwritten] at h
      exact Or.inl h
    | some r =>
      rw [hwritten] at h
      exact Or.inr ⟨r, hwritten, h⟩

/-- A claim of the row closes it. -/
theorem not_open_of_claims (h : Kept s) {job : Job} {now : Datetime} {a : Action}
    (ha : (∃ w, a = .claim w now) ∨ ∃ expiredAt, a = .claimExpired now expiredAt)
    (hclaim : s.core.row.status.Claimable) (hstep : s.claims job now a = some u) : ¬ Open u := by
  obtain ⟨-, hfree, core, hcore, rfl⟩ := claims_cases hstep
  have hwritten : s.written = none := hfree (claimForAttempt_holds.mpr ⟨h.id, hclaim⟩)
  have hclosed : ¬ core.row.status.Claimable := by
    rcases ha with ⟨w, rfl⟩ | ⟨expiredAt, rfl⟩
    · cases step_effect h.own hcore with
      | skip hskip => exact absurd hclaim hskip
      | claim hidle _ => simp [ForwardStatus.Claimable]
    · cases step_effect h.own hcore with
      | skip hskip => exact absurd hclaim hskip
      | claimExpired _ =>
        simp [ForwardStatus.Claimable, expiredOutcome, ForwardDecision.NextStatus.toStatus]
  rintro (hopen | ⟨r, hr, -⟩)
  · exact hclosed hopen
  · rw [show s.written = some r from hr] at hwritten
    cases hwritten

/-- Only a claim takes the last job of a forward that stays open. -/
theorem attended_step (h : Kept s) (hstep : systemStep s a = some u) (hattended : Attended s)
    (hbefore : Open s) (hopen : Open u)
    (hclaims : ∀ job, ClaimsOf job ⟨s, a, u⟩ → s.written.isSome →
      s.core.row.status.Claimable ∨ Waiting s.queue s.forwardId ∨ s.starting.erase job ≠ []) :
    Attended u := by
  -- a claim that finds the row closed, while the version that is open is not committed
  have hmissed : ∀ job now a', ClaimsOf job ⟨s, a, u⟩ → s.claims job now a' = some u →
      ((∃ w, a' = .claim w now) ∨ ∃ expiredAt, a' = .claimExpired now expiredAt) →
      Attended u := by
    intro job now a' hact hclaim ha'
    have hclosed : ¬ s.core.row.status.Claimable := fun hclaimable =>
      not_open_of_claims h ha' hclaimable hclaim hopen
    obtain ⟨r, hr, -⟩ := hbefore.resolve_left hclosed
    obtain ⟨-, -, core, -, rfl⟩ := claims_cases hclaim
    exact (hclaims job hact (by simp [hr])).resolve_left hclosed
  cases a with
  | retry endpointId now =>
    rcases write_cases hstep with rfl | ⟨-, -, rfl⟩ <;> exact hattended
  | reclaim endpointId now =>
    rcases write_cases hstep with rfl | ⟨-, -, rfl⟩ <;> exact hattended
  | commit =>
    obtain ⟨r, -, rfl⟩ := Option.map_eq_some_iff.mp hstep
    exact hattended
  | rollback =>
    obtain ⟨r, -, rfl⟩ := Option.map_eq_some_iff.mp hstep
    exact hattended
  | requeue own now =>
    obtain rfl := Option.some.inj hstep
    exact hattended.imp_left fun hwaiting => hwaiting.enqueue _ _ _
  | enqueue forwardId d now =>
    obtain rfl := Option.some.inj hstep
    exact hattended.imp_left fun hwaiting => hwaiting.enqueue _ _ _
  | start job now =>
    obtain ⟨queue, hqueue, rfl⟩ := Option.map_eq_some_iff.mp hstep
    by_cases hid : job.forwardIdStr = s.forwardId.str
    · exact Or.inr (by simp [hid])
    · rcases hattended with hwaiting | hstarting
      · exact Or.inl (hwaiting.start hqueue hid)
      · exact Or.inr (by simpa [hid] using hstarting)
  | claim job w now => exact hmissed job now _ (Or.inl ⟨w, now, rfl⟩) hstep (Or.inl ⟨w, rfl⟩)
  | claimExpired job now expiredAt =>
    exact hmissed job now _ (Or.inr ⟨now, expiredAt, rfl⟩) hstep (Or.inr ⟨expiredAt, rfl⟩)
  | finish job now =>
    simp only [systemStep] at hstep
    split at hstep
    · cases hstep
    · obtain ⟨queue, hqueue, rfl⟩ := Option.map_eq_some_iff.mp hstep
      exact hattended.imp_left (waiting_finish hqueue).mpr
  | record w answer decidedAt recordedAt =>
    obtain ⟨-, core, -, rfl⟩ := execute_cases hstep
    exact hattended
  | crash w =>
    obtain ⟨core, -, rfl⟩ := Option.map_eq_some_iff.mp hstep
    exact hattended
  | abandon endpointId now =>
    obtain ⟨-, core, -, rfl⟩ := execute_cases hstep
    exact hattended

/-- A claim before the commit leaves the forward open, and takes the job away. -/
theorem open_of_claimsOf (h : Kept s) {job : Job} (hact : ClaimsOf job ⟨s, a, u⟩)
    (hstep : systemStep s a = some u) (hwritten : s.written.isSome) :
    Open u ∧ u.queue = s.queue ∧ u.forwardId = s.forwardId ∧
      u.starting = s.starting.erase job := by
  obtain ⟨r, hr⟩ := Option.isSome_iff_exists.mp hwritten
  obtain ⟨now, a', hclaim⟩ : ∃ now a', s.claims job now a' = some u := by
    rcases hact with ⟨w, now, hact⟩ | ⟨now, expiredAt, hact⟩
    · obtain rfl : a = .claim job w now := hact
      exact ⟨now, _, hstep⟩
    · obtain rfl : a = .claimExpired job now expiredAt := hact
      exact ⟨now, _, hstep⟩
  obtain ⟨-, -, core, -, rfl⟩ := claims_cases hclaim
  exact ⟨Or.inr ⟨r, hr, (h.written r hr).2⟩, rfl, rfl, rfl⟩

end Attended

/-- What is known of a state with its past, as long as every enqueue has led to a run. -/
structure Followed (past : History System SystemAction) (s : System) : Prop where
  recorded : Recorded past s
  kept : Kept s
  owed : Owed past → Attended s ∧ Open s

section Runs

variable {past : History System SystemAction} {s u : System} {a : SystemAction}

theorem followed_start (id requestId endpointId : UUID) (targetUrl : String) (now : Datetime) :
    Followed [] (start id requestId endpointId targetUrl now) where
  recorded := ⟨by simp [start, ArqQueue.empty], by simp [start, ArqQueue.empty]⟩
  kept := ⟨start_ownSnapshots _ _ _ _ _, rfl, by simp [start]⟩
  owed h := h.elim

/-- The enqueue leaves both versions of the row as they are. -/
theorem open_of_requeues (h : Requeues ⟨s, a, u⟩) (hstep : systemStep s a = some u) :
    Open u := by
  obtain ⟨own, now, hact, hclaim⟩ := h
  obtain rfl : a = .requeue own now := hact
  obtain rfl := Option.some.inj hstep
  exact open_of_seen hclaim

theorem Followed.step (h : Followed past s) (hstep : systemStep s a = some u)
    (hleads : LeadsToRun past ⟨s, a, u⟩) : Followed (⟨s, a, u⟩ :: past) u where
  recorded := h.recorded.step hstep
  kept := h.kept.step hstep
  owed howed := by
    refine ⟨hleads.2 howed, ?_⟩
    rcases howed with hrequeues | ⟨-, hopen⟩
    · exact open_of_requeues hrequeues hstep
    · exact hopen

/-- One move leads to a run exactly if its enqueue finds a job waiting or the id free, and its
claim does not come between an enqueue and the commit. -/
theorem Followed.leadsToRun_iff (h : Followed past s) (hstep : systemStep s a = some u) :
    LeadsToRun past ⟨s, a, u⟩ ↔
      FreeOrWaiting past ⟨s, a, u⟩ ∧ CommitsFirst past ⟨s, a, u⟩ := by
  rw [LeadsToRun, queues_iff h.recorded hstep]
  refine and_congr_right fun hfree => ?_
  constructor
  · intro hleads job hact howed hwritten
    obtain ⟨hopen, hqueue, hid, hstarting⟩ := open_of_claimsOf h.kept hact hstep hwritten
    have hattended := hleads (Or.inr ⟨howed, hopen⟩)
    rw [Attended, hqueue, hid, hstarting] at hattended
    exact Or.inr hattended
  · rintro hcommits (hrequeues | ⟨howed, hopen⟩)
    · exact Or.inl ((queues_iff h.recorded hstep).mpr hfree hrequeues)
    · obtain ⟨hattended, hbefore⟩ := h.owed howed
      exact attended_step h.kept hstep hattended hbefore hopen fun job hact hwritten =>
        hcommits job hact howed hwritten

theorem Kept.startedJobClaims (h : Kept s) : StartedJobClaims s := by
  intro job hjob w now hclaim hwritten hidle
  have hstep : Lifecycle.step s.core (.claim w now) = some _ := JobRuns.step_claim hclaim hidle now
  have hupdate : s.versioned.update (claimForAttempt s.forwardId now) =
      .updated ((claimForAttempt s.forwardId now).assign s.core.row) := by
    have hholds : (claimForAttempt s.forwardId now).holds s.core.row = true :=
      claimForAttempt_holds.mpr ⟨h.id, hclaim⟩
    simp [System.versioned, VersionedRow.update, hwritten, hholds]
  have hexecute : s.execute (claimForAttempt s.forwardId now) (.claim w now) =
      some { s with core := ⟨claimedRow s.core.row now,
        Function.update s.core.workers w (some (claimedRow s.core.row now))⟩ } := by
    rw [System.execute, hupdate, hstep]
    rfl
  have hclaims := congrArg
    (Option.map fun s : System => { s with starting := s.starting.erase job }) hexecute
  rw [Option.map_some] at hclaims
  exact ⟨_, (if_pos hjob).trans hclaims, rfl, Function.update_self ..⟩

end Runs

def sampleSystem : System :=
  start sampleForwardId sampleRequest.id sampleEndpoint.id "https://api.example.com/webhook"
    (seconds 1000)

theorem systemRunOf_sample {as : List SystemAction} {ms : History System SystemAction}
    {t : System} (h : play systemStep [] sampleSystem as = some (ms, t)) : SystemRunOf ms t :=
  ⟨_, _, _, _, _, Run.of_play h⟩

def sampleJob (now : Datetime) : Job := ⟨jobId sampleForwardId 0, sampleForwardId.str, now⟩

/-- The capture's job runs, the receiver answers 404, and the owner presses Retry within
the hour. -/
def retryWithinHour : List SystemAction :=
  let job := sampleJob (seconds 1000)
  [.enqueue sampleForwardId 0 (seconds 1000), .start job (seconds 1001),
    .claim job 0 (seconds 1001), .record 0 (.status 404) (seconds 1002) (seconds 1002),
    .finish job (seconds 1003), .retry sampleEndpoint.id (seconds 1100),
    .requeue true (seconds 1100)]

/-- Two hours later the id is free, but the worker comes before the commit: the forward is
pending, and without a job. -/
def retryBeforeCommit : List SystemAction :=
  let job := sampleJob (seconds 9000)
  retryWithinHour.take 5 ++ [.retry sampleEndpoint.id (seconds 9000),
    .requeue true (seconds 9000), .start job (seconds 9000), .claim job 1 (seconds 9000),
    .finish job (seconds 9000), .commit]

example : ∃ t, (play systemStep [] sampleSystem retryBeforeCommit).map Prod.snd = some t ∧
    t.core.row.status = .pending ∧ ¬ Attended t := by
  refine ⟨_, rfl, rfl, ?_⟩
  rintro (hwaiting | hstarting)
  · exact absurd hwaiting (by decide)
  · exact hstarting rfl

end Hooktrace.Requeue
