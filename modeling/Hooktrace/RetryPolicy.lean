import Hooktrace.ErrorPaths
import Hooktrace.RetrySchedule

/-!
Whether repeated runs of the job follow the published retry policy. The loop takes the
forward's next job from the queue, runs it, and goes on while there is one. It refines
the retry schedule with the statuses that the code retries (`deliveries_refine`); the
README retries every 5xx, and the two agree as long as no attempt before the fifth is
answered with a 5xx that the code does not list.
-/
namespace Hooktrace.RetryPolicy

open ForwardDecision ForwardRepository ForwardQueue ExecuteForward Lifecycle JobRuns ErrorPaths
open RetrySchedule

inductive TargetOutcome where
  | status (code : {n : ℕ // 100 ≤ n ∧ n ≤ 599})
  | networkError (message kind : String)

def TargetOutcome.answer : TargetOutcome → TargetAnswer
  | .status code => .status code.1
  | .networkError message _ => .requestFailed message

def policySuccess : TargetOutcome → Bool
  | .status code => 200 ≤ code.1 && code.1 ≤ 299
  | .networkError _ _ => false

/-- Network errors, 408, 425, 429 and 5xx are retryable. -/
def policyRetryable : TargetOutcome → Bool
  | .status code => code.1 = 408 || code.1 = 425 || code.1 = 429 || 500 ≤ code.1
  | .networkError _ _ => true

/-- 4 retries at 30 s, 2 m, 10 m and 1 h, then `dead`. -/
def policySchedule : List ℤ := [30, 120, 600, 3600].map seconds

def finalStatus (succeeded : Bool) : ForwardStatus := if succeeded then .succeeded else .dead

/-- The attempts of the policy with their delays, and the final status. -/
def policy (outcomes : ℕ → TargetOutcome) : List (Attempt ℤ) × ForwardStatus :=
  let run := attempts policySuccess policyRetryable outcomes 1 0 policySchedule
  (run.1, finalStatus run.2)

def answering (base : Collaborators) (validated : ValidatedTarget) (o : TargetOutcome) :
    Collaborators :=
  { base with
    validate := fun _ => .returns validated
    send := fun _ _ _ _ => match o with
      | .status code => .returns ⟨code.1, .empty, []⟩
      | .networkError message kind => .raises (.httpRequestFailed message kind) }

structure Timing where
  lag : ℕ
  clock : Clock
  finishedAt : Datetime

def nextJob (w : World) : Option Job :=
  w.queue.queued.find? fun job => job.forwardIdStr = w.row.id.str

def runJob (env : Collaborators) (timing : Timing) (job : Job) (w : World) : Option World :=
  (w.queue.start job (job.dueAt + timing.lag)).bind fun queue =>
    executeForwardJob env timing.clock w.row.id job timing.finishedAt { w with queue }

/-- The forward's jobs one after the other, while there is one: each attempt with the
time between its enqueue and the time it is due. -/
def deliveries (env : ℕ → Collaborators) (timing : ℕ → Timing) :
    ℕ → Datetime → World → List (Attempt ℤ) × World
  | 0, _, w => ([], w)
  | fuel + 1, enqueuedAt, w =>
    match nextJob w with
    | none => ([], w)
    | some job =>
      let n := w.row.attemptCount + 1
      match runJob (env n) (timing n) job w with
      | none => ([], w)
      | some after =>
        let rest := deliveries env timing fuel (timing n).clock.enqueuedAt after
        (⟨n, job.dueAt - enqueuedAt⟩ :: rest.1, rest.2)

def captured (id requestId endpointId : UUID) (targetUrl : String) (now : Datetime) : World :=
  ⟨Forward.create id requestId endpointId targetUrl now, enqueue .empty id 0 now⟩

/-- The endpoint, the request, its body and the secret are at hand throughout. -/
structure Available (base : Collaborators) (requestId endpointId : UUID) : Prop where
  lookups : ∃ endpoint request, base.findEndpoint endpointId = some endpoint ∧
    base.findRequest requestId = some request ∧ BlobGiven base request ∧
    SecretOpens base endpoint

section Attempt

variable {base : Collaborators} {validated : ValidatedTarget} {o : TargetOutcome}

theorem deliver_answering (state : ClaimedState) (headers : Headers) :
    deliver (answering base validated o) state headers = .ok o.answer := by
  cases o <;> rfl

/-- With everything available the job records the target's outcome. -/
theorem execute_answering {clock : Clock} {w : World}
    (hbase : Available base w.row.requestId w.row.endpointId)
    (hclaim : w.row.status.Claimable) :
    ∃ call, recordCall (w.row.attemptCount + 1) o.answer.result clock.decidedAt = some call ∧
      (execute (answering base validated o) clock w.row.id w).1 =
        ⟨recordedRow (claimedRow w.row clock.claimedAt) call.outcome clock.recordedAt,
          reenqueued w clock call⟩ := by
  obtain ⟨endpoint, request, hendpoint, hrequest, hblob, hsecret⟩ := hbase.lookups
  have heffect := execute_effect (answering base validated o) clock w
  generalize execute (answering base validated o) clock w.row.id w = after at heffect ⊢
  cases heffect with
  | skipped hskip => exact absurd hclaim hskip
  | expired _ hgone =>
    rcases hgone with hnone | hnone
    · exact absurd (hnone.symm.trans hendpoint) (by simp)
    · exact absurd (hnone.symm.trans hrequest) (by simp)
  | rolledBack _ _ hcaptured hbody =>
    obtain rfl := Option.some.inj (hrequest.symm.trans hcaptured)
    obtain ⟨body, hok⟩ := blobGiven_iff.mp hblob
    exact absurd (hok.symm.trans hbody) (by simp)
  | @crashed endpoint' captured body interrupt _ he _ _ hphase =>
    obtain rfl := Option.some.inj (hendpoint.symm.trans he)
    have hopens : SecretOpens (answering base validated o)
      (claimedState w.row clock endpoint captured body).endpoint := hsecret
    obtain ⟨headers, hheaders⟩ := secretOpens_iff.mp hopens
    rw [httpPhase, hheaders] at hphase
    simp [deliver_answering, bind, Except.bind, pure, Except.pure] at hphase
  | recorded _ _ _ _ _ hanswer hcall =>
    rw [deliver_answering] at hanswer
    obtain rfl := Except.ok.inj hanswer
    exact ⟨_, hcall, rfl⟩

end Attempt

def codeRetryable (o : TargetOutcome) : Bool := o.answer.retryable

theorem policySuccess_eq (o : TargetOutcome) : policySuccess o = o.answer.success := by
  cases o with
  | status code =>
    have h : code.1 ≤ 299 ↔ code.1 < 300 := by omega
    simp [policySuccess, TargetOutcome.answer, TargetAnswer.success, TargetAnswer.result,
      isSuccess, h]
  | networkError message kind => rfl

/-- The forward before its n-th attempt, whose job was enqueued to run after `d` seconds.
The jobs that have ended had other ids than the next one to be enqueued. -/
structure Ready (base : Collaborators) (n d : ℕ) (enqueuedAt : Datetime) (w : World) : Prop where
  claimable : w.row.status.Claimable
  counted : w.row.attemptCount + 1 = n
  available : Available base w.row.requestId w.row.endpointId
  queued : w.queue.queued = [⟨jobId w.row.id d, w.row.id.str, enqueuedAt + seconds d⟩]
  running : w.queue.running = []
  shorter : d < backoff n
  results : ∀ p ∈ w.queue.results, ∃ e, p.1 = jobId w.row.id e ∧ e < backoff n

theorem captured_ready {base : Collaborators} {id requestId endpointId : UUID}
    {targetUrl : String} {now : Datetime} (hbase : Available base requestId endpointId) :
    Ready base 1 0 now (captured id requestId endpointId targetUrl now) where
  claimable := Or.inl rfl
  counted := rfl
  available := hbase
  queued := by
    rw [captured, enqueue_of_free (by simp [ArqQueue.Taken, ArqQueue.KeepsResult, ArqQueue.empty])]
    rfl
  running := enqueue_running _ _ _ _
  shorter := by decide
  results := by simp [captured, enqueue_results, ArqQueue.empty]

section Step

variable {base : Collaborators} {n d : ℕ} {enqueuedAt : Datetime} {w : World}

def readyJob (d : ℕ) (enqueuedAt : Datetime) (w : World) : Job :=
  ⟨jobId w.row.id d, w.row.id.str, enqueuedAt + seconds d⟩

theorem Ready.nextJob_eq (h : Ready base n d enqueuedAt w) :
    nextJob w = some (readyJob d enqueuedAt w) := by
  simp [nextJob, h.queued, readyJob]

def runningQueue (d : ℕ) (enqueuedAt : Datetime) (w : World) : ArqQueue :=
  ⟨[], [readyJob d enqueuedAt w], w.queue.results⟩

theorem Ready.start_eq (h : Ready base n d enqueuedAt w) (lag : ℕ) :
    w.queue.start (readyJob d enqueuedAt w) ((readyJob d enqueuedAt w).dueAt + lag) =
      some (runningQueue d enqueuedAt w) := by
  simp [ArqQueue.start, runningQueue, h.queued, h.running, readyJob]

/-- The id of the next attempt's job is free. -/
theorem Ready.free (h : Ready base n d enqueuedAt w) (now : Datetime) :
    ¬ (runningQueue d enqueuedAt w).Taken (jobId w.row.id (backoff n)) now := by
  have hne : ∀ e < backoff n, jobId w.row.id e ≠ jobId w.row.id (backoff n) := by
    intro e he heq
    exact absurd (jobId_inj.mp heq).2 (Nat.ne_of_lt he)
  intro htaken
  rcases htaken with ⟨job, hjob, _⟩ | ⟨job, hjob, hid⟩ | ⟨p, hp, hid, _⟩
  · simp [runningQueue] at hjob
  · obtain rfl := List.mem_singleton.mp hjob
    exact hne d h.shorter hid
  · obtain ⟨e, he, hlt⟩ := h.results p hp
    exact hne e hlt (he.symm.trans hid)

/-- One run of the job records the target's outcome. -/
theorem Ready.runJob_eq (h : Ready base n d enqueuedAt w) (validated : ValidatedTarget)
    (o : TargetOutcome) (timing : Timing) :
    ∃ call, recordCall n o.answer.result timing.clock.decidedAt = some call ∧
      runJob (answering base validated o) timing (readyJob d enqueuedAt w) w = some
        ⟨recordedRow (claimedRow w.row timing.clock.claimedAt) call.outcome
            timing.clock.recordedAt,
          ⟨(reenqueued ⟨w.row, runningQueue d enqueuedAt w⟩ timing.clock call).queued, [],
            (jobId w.row.id d, timing.finishedAt) :: w.queue.results⟩⟩ := by
  have hclaim : (⟨w.row, runningQueue d enqueuedAt w⟩ : World).row.status.Claimable :=
    h.claimable
  obtain ⟨call, hcall, hexecute⟩ := @execute_answering base validated o timing.clock
    ⟨w.row, runningQueue d enqueuedAt w⟩ h.available hclaim
  rw [h.counted] at hcall
  refine ⟨call, hcall, ?_⟩
  simp only [runJob, h.start_eq, Option.bind_some, executeForwardJob, hexecute]
  simp [ArqQueue.finish, reenqueued_running, reenqueued_results, runningQueue, readyJob]

/-- A retryable outcome before the fifth attempt leaves the next attempt ready. -/
theorem Ready.again (h : Ready base n d enqueuedAt w) (validated : ValidatedTarget)
    (o : TargetOutcome) (timing : Timing) (hn : 1 ≤ n)
    (hretry : o.answer.retryable = true) (hlt : n < maxAttempts) :
    ∃ after, runJob (answering base validated o) timing (readyJob d enqueuedAt w) w =
      some after ∧ Ready base (n + 1) (backoff n) timing.clock.enqueuedAt after := by
  obtain ⟨call, hcall, hrun⟩ := h.runJob_eq validated o timing
  refine ⟨_, hrun, ?_⟩
  rcases recordCall_cases hn hcall with ⟨_, hfailed, _, hre⟩ | ⟨hnot, _⟩
  · have hmono : backoff n < backoff (n + 1) := backoff_strictMono hn (Nat.lt_succ_self n) hlt
    refine ⟨?_, ?_, h.available, ?_, rfl, hmono, ?_⟩
    · rw [recordedRow_status, hfailed]
      exact Or.inr rfl
    · rw [recordedRow_attemptCount, claimedRow_attemptCount, h.counted]
    · simp only [reenqueued, hre]
      rw [enqueue_of_free (h.free _)]
      rfl
    · intro p hp
      rcases List.mem_cons.mp hp with rfl | hp
      · exact ⟨d, rfl, h.shorter.trans hmono⟩
      · obtain ⟨e, he, hlt'⟩ := h.results p hp
        exact ⟨e, he, hlt'.trans hmono⟩
  · exact absurd ⟨hretry, hlt⟩ hnot

/-- Any other attempt is the last one. -/
theorem Ready.last (h : Ready base n d enqueuedAt w) (validated : ValidatedTarget)
    (o : TargetOutcome) (timing : Timing) (hn : 1 ≤ n)
    (hlast : ¬ (o.answer.retryable = true ∧ n < maxAttempts)) :
    ∃ after, runJob (answering base validated o) timing (readyJob d enqueuedAt w) w =
      some after ∧ after.row.status = finalStatus o.answer.success ∧ nextJob after = none := by
  obtain ⟨call, hcall, hrun⟩ := h.runJob_eq validated o timing
  refine ⟨_, hrun, ?_⟩
  rcases recordCall_cases hn hcall with ⟨hretry, _⟩ | ⟨_, hstatus, _, hre⟩
  · exact absurd hretry hlast
  · refine ⟨?_, ?_⟩
    · rw [recordedRow_status, hstatus, finalStatus]
      split <;> rfl
    · simp [nextJob, reenqueued, hre, runningQueue]

end Step

def schedule (n k : ℕ) : List ℤ := ((List.range' n k).map backoff).map seconds

section Loop

variable {base : Collaborators} (validated : ValidatedTarget) (outcomes : ℕ → TargetOutcome)
  (timing : ℕ → Timing) {n d : ℕ} {enqueuedAt : Datetime} {w after : World}

/-- The loop makes the attempt that is ready and goes on after it. -/
theorem Ready.deliveries_succ (h : Ready base n d enqueuedAt w) (fuel : ℕ)
    (hrun : runJob (answering base validated (outcomes n)) (timing n)
      (readyJob d enqueuedAt w) w = some after) :
    deliveries (fun i => answering base validated (outcomes i)) timing (fuel + 1) enqueuedAt w =
      let rest := deliveries (fun i => answering base validated (outcomes i)) timing fuel
        (timing n).clock.enqueuedAt after
      (⟨n, seconds d⟩ :: rest.1, rest.2) := by
  have hdelay : (readyJob d enqueuedAt w).dueAt - enqueuedAt = seconds d := by
    simp [readyJob]
  simp only [deliveries, h.nextJob_eq, h.counted, hrun, hdelay]

theorem deliveries_done (env : ℕ → Collaborators) (fuel : ℕ) (hdone : nextJob after = none) :
    deliveries env timing fuel enqueuedAt after = ([], after) := by
  cases fuel with
  | zero => rfl
  | succ fuel => simp only [deliveries, hdone]

/-- With k attempts left after the n-th, the loop makes the attempts of the schedule. -/
theorem deliveries_refine {k fuel : ℕ} (hn : 1 ≤ n) (hk : n + k = maxAttempts)
    (hfuel : k < fuel) (hready : Ready base n d enqueuedAt w) :
    let made := deliveries (fun i => answering base validated (outcomes i)) timing fuel
      enqueuedAt w
    let run := attempts policySuccess codeRetryable outcomes n (seconds d) (schedule n k)
    made.1 = run.1 ∧ made.2.row.status = finalStatus run.2 ∧ nextJob made.2 = none := by
  induction k generalizing n d fuel enqueuedAt w with
  | zero =>
    obtain ⟨fuel, rfl⟩ := Nat.exists_eq_add_one_of_ne_zero (Nat.ne_of_gt hfuel)
    obtain ⟨after, hrun, hstatus, hdone⟩ :=
      hready.last validated (outcomes n) (timing n) hn (by omega)
    rw [hready.deliveries_succ validated outcomes timing fuel hrun,
      deliveries_done timing _ fuel hdone]
    simp [schedule, attempts_of_exhausted, hstatus, hdone, policySuccess_eq]
  | succ k ih =>
    obtain ⟨fuel, rfl⟩ := Nat.exists_eq_add_one_of_ne_zero (Nat.ne_zero_of_lt hfuel)
    have hschedule : schedule n (k + 1) = seconds (backoff n) :: schedule (n + 1) k := rfl
    cases hretry : codeRetryable (outcomes n) with
    | true =>
      obtain ⟨after, hrun, hnext⟩ := hready.again validated (outcomes n) (timing n) hn hretry
        (by omega)
      have hsuccess : policySuccess (outcomes n) = false := by
        rw [policySuccess_eq]
        exact TargetAnswer.not_success_of_retryable hretry
      have hfuel' : k < fuel := by omega
      obtain ⟨hmade, hstatus, hdone⟩ := ih (by omega) (by omega) hfuel' hnext
      rw [hready.deliveries_succ validated outcomes timing fuel hrun, hschedule,
        attempts_of_retry hsuccess hretry]
      exact ⟨congrArg (⟨n, seconds d⟩ :: ·) hmade, hstatus, hdone⟩
    | false =>
      obtain ⟨after, hrun, hstatus, hdone⟩ := hready.last validated (outcomes n) (timing n) hn
        (fun h => absurd (hretry.symm.trans h.1) Bool.false_ne_true)
      rw [hready.deliveries_succ validated outcomes timing fuel hrun,
      deliveries_done timing _ fuel hdone]
      cases hsuccess : policySuccess (outcomes n) with
      | true =>
        rw [policySuccess_eq] at hsuccess
        simp [attempts_of_success (policySuccess_eq _ ▸ hsuccess), hstatus, hsuccess, hdone]
      | false =>
        rw [attempts_of_hard hsuccess hretry]
        rw [policySuccess_eq] at hsuccess
        simp [hstatus, hsuccess, hdone]

end Loop

theorem schedule_eq : schedule 1 4 = policySchedule := by
  have h : (List.range' 1 4).map backoff = [30, 120, 600, 3600] := rfl
  rw [schedule, h, policySchedule]

def UnlistedServerError : TargetOutcome → Prop
  | .status code => 500 ≤ code.1 ∧ code.1 ∉ [500, 502, 503, 504, 507, 508]
  | .networkError _ _ => False

/-- Below the fifth attempt, none that follows answers which the code retries is answered
with a 5xx that the code leaves out. -/
def ListedServerErrors (outcomes : ℕ → TargetOutcome) : Prop :=
  ∀ n, 1 ≤ n → n < 5 → (∀ m, 1 ≤ m → m < n → codeRetryable (outcomes m) = true) →
    ¬ UnlistedServerError (outcomes n)

/-- The outcomes that tell the policies apart are the 5xx that the code leaves out. -/
theorem distinguishes_iff (o : TargetOutcome) :
    Distinguishes policySuccess codeRetryable policyRetryable o ↔ UnlistedServerError o := by
  cases o with
  | networkError message kind =>
    simp [Distinguishes, UnlistedServerError, codeRetryable, policyRetryable,
      TargetOutcome.answer, TargetAnswer.retryable, TargetAnswer.result, isRetryable]
  | status code =>
    obtain ⟨code, hlower, hupper⟩ := code
    have hsuccess : policySuccess (.status ⟨code, hlower, hupper⟩) = false ↔
        ¬ (200 ≤ code ∧ code ≤ 299) := by
      simp [policySuccess]
    have hcode : codeRetryable (.status ⟨code, hlower, hupper⟩) = true ↔
        code ∈ retryableStatus := by
      simp [codeRetryable, TargetOutcome.answer, TargetAnswer.retryable, TargetAnswer.result,
        isRetryable]
    have hpolicy : policyRetryable (.status ⟨code, hlower, hupper⟩) = true ↔
        code = 408 ∨ code = 425 ∨ code = 429 ∨ 500 ≤ code := by
      simp [policyRetryable, or_assoc]
    rw [Distinguishes, hsuccess, Ne, Bool.eq_iff_iff, hcode, hpolicy]
    simp only [retryableStatus, UnlistedServerError, List.mem_cons, List.not_mem_nil, or_false]
    omega

theorem undistinguished_iff (outcomes : ℕ → TargetOutcome) :
    Undistinguished policySuccess codeRetryable policyRetryable outcomes 1 4 ↔
      ListedServerErrors outcomes := by
  have hretry : ∀ o, policySuccess o = false ∧ codeRetryable o = true ↔
      codeRetryable o = true := by
    intro o
    refine and_iff_right_of_imp ?_
    rw [policySuccess_eq]
    exact TargetAnswer.not_success_of_retryable
  simp only [Undistinguished, Reaches, hretry, distinguishes_iff]
  constructor
  · intro h n hn hlt hbefore
    have hnth := h (n - 1) (by omega) (fun j hj => hbefore (1 + j) (by omega) (by omega))
    rwa [show 1 + (n - 1) = n by omega] at hnth
  · intro h i hi hreaches
    refine h (1 + i) (by omega) (by omega) ?_
    intro m hm hlt
    have hmth := hreaches (m - 1) (by omega)
    rwa [show 1 + (m - 1) = m by omega] at hmth

theorem finalStatus_inj {a b : Bool} : finalStatus a = finalStatus b ↔ a = b := by
  cases a <;> cases b <;> decide

/-- The loop over the forward's jobs comes to its end, and its attempts, delays and final
status are those of the README's policy exactly when the target answers none of the
attempts before the fifth with a 5xx that the code leaves out. -/
theorem deliveries_eq_policy_iff {base : Collaborators} {requestId endpointId : UUID}
    (hbase : Available base requestId endpointId) (validated : ValidatedTarget)
    (outcomes : ℕ → TargetOutcome) (timing : ℕ → Timing) (id : UUID) (targetUrl : String)
    (now : Datetime) {fuel : ℕ} (hfuel : maxAttempts ≤ fuel) :
    let made := deliveries (fun i => answering base validated (outcomes i)) timing fuel now
      (captured id requestId endpointId targetUrl now)
    nextJob made.2 = none ∧
      ((made.1, made.2.row.status) = policy outcomes ↔ ListedServerErrors outcomes) := by
  intro made
  have hready : Ready base 1 0 now (captured id requestId endpointId targetUrl now) :=
    captured_ready hbase
  obtain ⟨hmade, hstatus, hdone⟩ := deliveries_refine validated outcomes timing
    (Nat.le_refl 1) (rfl : 1 + 4 = maxAttempts) hfuel hready
  refine ⟨hdone, ?_⟩
  have hdelay : seconds 0 = 0 := rfl
  rw [← undistinguished_iff, show 4 = policySchedule.length from rfl, ← attempts_eq_iff]
  simp only [made, hmade, hstatus, policy, schedule_eq, hdelay]
  rw [Prod.ext_iff, Prod.ext_iff, finalStatus_inj]

def sampleBase : Collaborators := sampleCollaborators .hangs .hangs

theorem sampleBase_available (requestId endpointId : UUID) :
    Available sampleBase requestId endpointId := by
  refine ⟨sampleEndpoint, sampleRequest, rfl, rfl, ?_, ?_⟩
  · intro key _
    exact ⟨none, rfl⟩
  · intro blob hblob
    cases hblob

def sampleTarget : ValidatedTarget :=
  ⟨"https://api.example.com/webhook", "api.example.com", 443, "203.0.113.9"⟩

def sampleTiming (n : ℕ) : Timing := ⟨0, sampleClock (1000 + 5000 * n), seconds (1003 + 5000 * n)⟩

def always (code : {n : ℕ // 100 ≤ n ∧ n ≤ 599}) : ℕ → TargetOutcome := fun _ => .status code

/-- A target that answers with 501 is tried once; the README tries it five times. -/
theorem notImplemented_not_retried :
    ¬ ∀ base requestId endpointId validated outcomes timing id targetUrl now fuel,
      Available base requestId endpointId → maxAttempts ≤ fuel →
      let made := deliveries (fun i => answering base validated (outcomes i)) timing fuel now
        (captured id requestId endpointId targetUrl now)
      (made.1, made.2.row.status) = policy outcomes := by
  intro hclaim
  have hequal := hclaim sampleBase sample.row.requestId sample.row.endpointId sampleTarget
    (always ⟨501, by decide⟩) sampleTiming sample.row.id sample.row.targetUrl (seconds 1000)
    5 (sampleBase_available _ _) (by decide)
  have hlength := congrArg (fun run => run.1.length) hequal
  exact absurd hlength (by decide)

/-- A target that answers with 503 throughout is tried as the README says. -/
theorem unavailable_retried :
    let made := deliveries (fun i => answering sampleBase sampleTarget (always ⟨503, by decide⟩ i))
      sampleTiming 5 (seconds 1000) (captured sample.row.id sample.row.requestId
        sample.row.endpointId sample.row.targetUrl (seconds 1000))
    nextJob made.2 = none ∧ (made.1, made.2.row.status) = policy (always ⟨503, by decide⟩) := by
  obtain ⟨hdone, hiff⟩ := deliveries_eq_policy_iff (sampleBase_available sample.row.requestId
    sample.row.endpointId) sampleTarget (always ⟨503, by decide⟩) sampleTiming sample.row.id
    sample.row.targetUrl (seconds 1000) (by decide : maxAttempts ≤ 5)
  refine ⟨hdone, hiff.mpr ?_⟩
  intro n _ _ _ hunlisted
  obtain ⟨_, hunlisted⟩ := hunlisted
  exact hunlisted (by decide)

end Hooktrace.RetryPolicy
