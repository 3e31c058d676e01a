import Hooktrace.Lifecycle

/-!
What one run of the job does. `execute_effect` lists the ways in which it can end, each
with the answers of the collaborators that lead there; `execute_run` shows that each of
them is a run of the row machine, so that what is proved of that machine holds of the
job: a claim followed by a record, or by a crash where the job is left early.
-/
namespace Hooktrace.JobRuns

open Table ForwardRepository ForwardQueue ExecuteForward Transition Lifecycle

def claimedState (row : Forward) (clock : Clock) (endpoint : Endpoint)
    (captured : CapturedRequest) (body : Bytes) : ClaimedState :=
  ⟨claimedRow row clock.claimedAt, endpoint, captured, body⟩

/-- The queue after a record: the next attempt is enqueued when the outcome is failed. -/
def reenqueued (w : World) (clock : Clock) (call : RecordCall) : ArqQueue :=
  match call.reenqueue with
  | none => w.queue
  | some d => enqueue w.queue w.row.id d clock.enqueuedAt

theorem reenqueued_running (w : World) (clock : Clock) (call : RecordCall) :
    (reenqueued w clock call).running = w.queue.running := by
  unfold reenqueued
  split
  · rfl
  · exact enqueue_running _ _ _ _

theorem reenqueued_results (w : World) (clock : Clock) (call : RecordCall) :
    (reenqueued w clock call).results = w.queue.results := by
  unfold reenqueued
  split
  · rfl
  · exact enqueue_results _ _ _ _

/-- The ends of one run of the job, on the row of its forward. -/
inductive JobEffect (env : Collaborators) (clock : Clock) (w : World) :
    World × Except Interrupt Unit → Prop
  | skipped (hskip : ¬ w.row.status.Claimable) : JobEffect env clock w (w, .ok ())
  | expired (hclaim : w.row.status.Claimable)
      (hgone : env.findEndpoint w.row.endpointId = none ∨
        env.findRequest w.row.requestId = none) :
      JobEffect env clock w
        (⟨recordedRow (claimedRow w.row clock.claimedAt) expiredOutcome clock.expiredAt, w.queue⟩,
          .ok ())
  | rolledBack {endpoint : Endpoint} {captured : CapturedRequest} {interrupt : Interrupt}
      (hclaim : w.row.status.Claimable)
      (hendpoint : env.findEndpoint w.row.endpointId = some endpoint)
      (hcaptured : env.findRequest w.row.requestId = some captured)
      (hbody : loadBody env captured = .error interrupt) :
      JobEffect env clock w (w, .error interrupt)
  | crashed {endpoint : Endpoint} {captured : CapturedRequest} {body : Bytes}
      {interrupt : Interrupt} (hclaim : w.row.status.Claimable)
      (hendpoint : env.findEndpoint w.row.endpointId = some endpoint)
      (hcaptured : env.findRequest w.row.requestId = some captured)
      (hbody : loadBody env captured = .ok body)
      (hphase : httpPhase env clock (claimedState w.row clock endpoint captured body) =
        .error interrupt) :
      JobEffect env clock w
        (⟨claimedRow w.row clock.claimedAt, w.queue⟩, .error interrupt)
  | recorded {endpoint : Endpoint} {captured : CapturedRequest} {body : Bytes}
      {headers : Headers} {answer : TargetAnswer} {call : RecordCall}
      (hclaim : w.row.status.Claimable)
      (hendpoint : env.findEndpoint w.row.endpointId = some endpoint)
      (hcaptured : env.findRequest w.row.requestId = some captured)
      (hbody : loadBody env captured = .ok body)
      (hheaders : outboundHeaders env clock (claimedState w.row clock endpoint captured body) =
        .ok headers)
      (hanswer : deliver env (claimedState w.row clock endpoint captured body) headers =
        .ok answer)
      (hcall : recordCall (w.row.attemptCount + 1) answer.result clock.decidedAt = some call) :
      JobEffect env clock w
        (⟨recordedRow (claimedRow w.row clock.claimedAt) call.outcome clock.recordedAt,
          reenqueued w clock call⟩, .ok ())

theorem httpPhase_eq_ok {env : Collaborators} {clock : Clock} {state : ClaimedState}
    {http : HttpPhase} (h : httpPhase env clock state = .ok http) :
    ∃ headers answer, outboundHeaders env clock state = .ok headers ∧
      deliver env state headers = .ok answer ∧ http = answer.result := by
  unfold httpPhase at h
  cases hheaders : outboundHeaders env clock state with
  | error interrupt => simp [hheaders, bind, Except.bind] at h
  | ok headers =>
    cases hanswer : deliver env state headers with
    | error interrupt => simp [hheaders, hanswer, bind, Except.bind] at h
    | ok answer =>
      simp only [hheaders, hanswer, bind, Except.bind, pure, Except.pure, Except.ok.injEq] at h
      exact ⟨headers, answer, rfl, hanswer, h.symm⟩

section ClaimPhase

variable {env : Collaborators} {clock : Clock} {row : Forward} (hclaim : row.status.Claimable)
include hclaim

theorem returningRow_claim (now : Datetime) :
    (claimForAttempt row.id now).returningRow row = some (claimedRow row now) := by
  simp [Update.returningRow, claimForAttempt_holds.mpr ⟨rfl, hclaim⟩, claimedRow]

theorem claimPhase_gone
    (hgone : env.findEndpoint row.endpointId = none ∨ env.findRequest row.requestId = none) :
    claimPhase env clock row.id row =
      .ok (recordedRow (claimedRow row clock.claimedAt) expiredOutcome clock.expiredAt, none) := by
  have hrow : (recordOutcome row.id expiredOutcome clock.expiredAt).onRow
      (claimedRow row clock.claimedAt) = _ := recorded_claimedRow row clock.claimedAt _ _
  have hendpoint : (claimedRow row clock.claimedAt).endpointId = row.endpointId := rfl
  have hrequest : (claimedRow row clock.claimedAt).requestId = row.requestId := rfl
  simp only [claimPhase, returningRow_claim hclaim, hendpoint, hrequest, hrow]
  rcases hgone with hnone | hnone
  · simp only [hnone]
  · cases env.findEndpoint row.endpointId <;> simp only [hnone]

theorem claimPhase_found {endpoint : Endpoint} {captured : CapturedRequest}
    (hendpoint : env.findEndpoint row.endpointId = some endpoint)
    (hcaptured : env.findRequest row.requestId = some captured) :
    claimPhase env clock row.id row = (loadBody env captured).map fun body =>
      (claimedRow row clock.claimedAt, some (claimedState row clock endpoint captured body)) := by
  have hendpoint' : env.findEndpoint (claimedRow row clock.claimedAt).endpointId =
    some endpoint := hendpoint
  have hcaptured' : env.findRequest (claimedRow row clock.claimedAt).requestId =
    some captured := hcaptured
  simp only [claimPhase, returningRow_claim hclaim, hendpoint', hcaptured']
  rfl

end ClaimPhase

theorem execute_effect (env : Collaborators) (clock : Clock) (w : World) :
    JobEffect env clock w (execute env clock w.row.id w) := by
  by_cases hclaim : w.row.status.Claimable
  · by_cases hgone : env.findEndpoint w.row.endpointId = none ∨
      env.findRequest w.row.requestId = none
    · simp only [execute, claimPhase_gone hclaim hgone]
      exact .expired hclaim hgone
    push Not at hgone
    obtain ⟨endpoint, hendpoint⟩ := Option.ne_none_iff_exists'.mp hgone.1
    obtain ⟨captured, hcaptured⟩ := Option.ne_none_iff_exists'.mp hgone.2
    simp only [execute, claimPhase_found hclaim hendpoint hcaptured]
    cases hbody : loadBody env captured with
    | error interrupt => exact .rolledBack hclaim hendpoint hcaptured hbody
    | ok body =>
      simp only [Except.map]
      cases hphase : httpPhase env clock (claimedState w.row clock endpoint captured body) with
      | error interrupt => exact .crashed hclaim hendpoint hcaptured hbody hphase
      | ok http =>
        obtain ⟨headers, answer, hheaders, hanswer, rfl⟩ := httpPhase_eq_ok hphase
        obtain ⟨call, hcall⟩ := Option.isSome_iff_exists.mp
          (recordCall_isSome (w.row.attemptCount + 1) answer.result clock.decidedAt)
        have heffect := JobEffect.recorded hclaim hendpoint hcaptured hbody hheaders hanswer hcall
        have hrow : (recordOutcome w.row.id call.outcome clock.recordedAt).onRow
            (claimedRow w.row clock.claimedAt) = _ :=
          recorded_claimedRow w.row clock.claimedAt call.outcome clock.recordedAt
        have hcall' : recordCall (claimedState w.row clock endpoint captured
            body).forward.attemptCount answer.result clock.decidedAt = some call := hcall
        simp only [hcall', hrow]
        rw [reenqueued] at heffect
        cases hre : call.reenqueue with
        | none => simpa only [hre] using heffect
        | some d => simpa only [hre] using heffect
  · have hreturn : (claimForAttempt w.row.id clock.claimedAt).returningRow w.row = none := by
      rcases Update.returningRow_cases _ (claimForAttempt_holds (r := w.row)) with
        ⟨hm, _⟩ | ⟨_, hnone⟩
      · exact absurd hm.2 hclaim
      · exact hnone
    simp only [execute, claimPhase, hreturn]
    exact .skipped hclaim

section RowMachine

variable {row : Forward} {workers : WorkerId → Option Forward} {v : WorkerId}

theorem step_claim (hclaim : row.status.Claimable) (hidle : workers v = none) (now : Datetime) :
    step ⟨row, workers⟩ (.claim v now) =
      some ⟨claimedRow row now, Function.update workers v (some (claimedRow row now))⟩ := by
  simp only [step, hidle, if_true, returningRow_claim hclaim]

theorem step_claimExpired (hclaim : row.status.Claimable) (now expiredAt : Datetime) :
    step ⟨row, workers⟩ (.claimExpired now expiredAt) =
      some ⟨recordedRow (claimedRow row now) expiredOutcome expiredAt, workers⟩ := by
  have hrow : (recordOutcome row.id expiredOutcome expiredAt).onRow (claimedRow row now) = _ :=
    recorded_claimedRow row now expiredOutcome expiredAt
  simp only [step, returningRow_claim hclaim, hrow]

theorem step_record {claimed : Forward} {answer : TargetAnswer}
    {decidedAt recordedAt : Datetime} {call : RecordCall} (hw : workers v = some claimed)
    (hid : claimed.id = row.id)
    (hcall : recordCall claimed.attemptCount answer.result decidedAt = some call) :
    step ⟨row, workers⟩ (.record v answer decidedAt recordedAt) =
      some ⟨recordedRow row call.outcome recordedAt, forget workers v⟩ := by
  have hrow : (recordOutcome claimed.id call.outcome recordedAt).onRow row =
      recordedRow row call.outcome recordedAt := by
    rw [hid]
    exact Update.onRow_of_holds _ (recordOutcome_holds.mpr rfl)
  simp only [step, hw, hcall, hrow]

theorem forget_update (hidle : workers v = none) (claimed : Forward) :
    forget (Function.update workers v (some claimed)) v = workers := by
  rw [forget, Function.update_idem, ← hidle, Function.update_eq_self]

/-- One run of the job is a run of the row machine: nothing, a claim of an expired
request, or a claim followed by a crash or by a record. -/
theorem execute_run (env : Collaborators) (clock : Clock) (w : World) (hidle : workers v = none) :
    ∃ ms, Run (Steps step) ⟨w.row, workers⟩ ms
      ⟨(execute env clock w.row.id w).1.row, workers⟩ := by
  have heffect := execute_effect env clock w
  generalize execute env clock w.row.id w = after at heffect ⊢
  cases heffect with
  | skipped hskip => exact ⟨_, .nil⟩
  | rolledBack _ _ _ _ => exact ⟨_, .nil⟩
  | expired hclaim _ =>
    exact ⟨_, .single (step_claimExpired hclaim clock.claimedAt clock.expiredAt)⟩
  | crashed hclaim _ _ _ _ =>
    have hfirst : Run (Steps step) ⟨w.row, workers⟩ _ _ :=
      .single (step_claim hclaim hidle clock.claimedAt)
    have hcrash := hfirst.move (a := .crash v) (show Steps step _ _ _ by
      simp only [Steps, step, Function.update_self]
      rfl)
    rw [forget_update hidle] at hcrash
    exact ⟨_, hcrash⟩
  | @recorded _ _ _ _ answer _ hclaim _ _ _ _ _ hcall =>
    have hfirst : Run (Steps step) ⟨w.row, workers⟩ _ _ :=
      .single (step_claim hclaim hidle clock.claimedAt)
    have hw : Function.update workers v (some (claimedRow w.row clock.claimedAt)) v =
      some (claimedRow w.row clock.claimedAt) := Function.update_self v _ _
    have hstep : step ⟨claimedRow w.row clock.claimedAt, _⟩
      (.record v answer clock.decidedAt clock.recordedAt) = _ := step_record hw rfl hcall
    have hrecord := hfirst.move hstep
    rw [forget_update hidle] at hrecord
    exact ⟨_, hrecord⟩

end RowMachine

/-- Collaborators that know the sample endpoint and request, and a target that gives
these answers. -/
def sampleCollaborators (validated : Answer ValidatedTarget) (sent : Answer Response) :
    Collaborators where
  findEndpoint _ := some sampleEndpoint
  findRequest _ := some sampleRequest
  blobGet _ := .returns none
  aesGcmDecrypt _ _ _ := none
  hmacSha256Hex _ _ := ""
  validate _ := validated
  send _ _ _ _ := sent
  secretsKey := []

def sampleClock (n : ℕ) : Clock where
  claimedAt := seconds n
  expiredAt := seconds n
  unixNow := n
  decidedAt := seconds (n + 1)
  recordedAt := seconds (n + 1)
  enqueuedAt := seconds (n + 1)

end Hooktrace.JobRuns
