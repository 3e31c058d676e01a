import Hooktrace.JobRuns

/-!
Whether an error path drops the retry. When the job of a claimable row has ended, the
forward should be over, or open with another job waiting for it. The job catches two
exceptions of the target; every other interruption either rolls the claim back, with
the job consumed, or leaves the row in flight. `settled_iff_recovers` names the answers
of the collaborators under which the forward is settled.
-/
namespace Hooktrace.ErrorPaths

open ForwardDecision ForwardRepository ForwardQueue ExecuteForward Lifecycle JobRuns

/-- The forward is over, or it is open and a job waits for it. -/
def Settled (w : World) : Prop :=
  w.row.status.Terminal ∨ (w.row.status.Claimable ∧ Waiting w.queue w.row.id)

/-- The blob store returns for an offloaded body, be it to say that there is none. -/
def BlobGiven (env : Collaborators) (captured : CapturedRequest) : Prop :=
  ∀ key, captured.blobKey = some key → ∃ body, env.blobGet key = .returns body

def SecretOpens (env : Collaborators) (endpoint : Endpoint) : Prop :=
  ∀ blob, endpoint.forwardSecretEncrypted = some blob → blob ≠ [] →
    ∃ secret, decryptSecret env env.secretsKey blob = .ok secret

/-- The target answers in a way that the job handles. -/
inductive TargetGives (env : Collaborators) (state : ClaimedState) (headers : Headers) :
    TargetAnswer → Prop
  | blocked {message : String}
      (hvalidate : env.validate state.forward.targetUrl = .raises (.ssrfBlocked message)) :
      TargetGives env state headers (.ssrfBlocked message)
  | unreachable {message kind : String} (hvalidate :
      env.validate state.forward.targetUrl = .raises (.httpRequestFailed message kind)) :
      TargetGives env state headers (.requestFailed message)
  | sendBlocked {validated : ValidatedTarget} {message : String}
      (hvalidate : env.validate state.forward.targetUrl = .returns validated)
      (hsend : env.send state.captured.method validated headers state.body =
        .raises (.ssrfBlocked message)) :
      TargetGives env state headers (.ssrfBlocked message)
  | sendFailed {validated : ValidatedTarget} {message kind : String}
      (hvalidate : env.validate state.forward.targetUrl = .returns validated)
      (hsend : env.send state.captured.method validated headers state.body =
        .raises (.httpRequestFailed message kind)) :
      TargetGives env state headers (.requestFailed message)
  | answered {validated : ValidatedTarget} {response : Response}
      (hvalidate : env.validate state.forward.targetUrl = .returns validated)
      (hsend : env.send state.captured.method validated headers state.body =
        .returns response) :
      TargetGives env state headers (.status response.statusCode)

/-- When the answer asks for a retry its job id is free, or another job waits anyway. -/
def RetryQueued (clock : Clock) (w : World) (answer : TargetAnswer) : Prop :=
  answer.retryable = true → w.row.attemptCount + 1 < maxAttempts →
    Waiting w.queue w.row.id ∨
      ¬ w.queue.Taken (jobId w.row.id (backoff (w.row.attemptCount + 1))) clock.enqueuedAt

/-- What has to hold of the collaborators' answers, where endpoint and request are found. -/
def Recovers (env : Collaborators) (clock : Clock) (w : World) : Prop :=
  ∀ endpoint captured, env.findEndpoint w.row.endpointId = some endpoint →
    env.findRequest w.row.requestId = some captured →
    (¬ BlobGiven env captured ∧ Waiting w.queue w.row.id) ∨
    (BlobGiven env captured ∧ SecretOpens env endpoint ∧
      ∀ body headers, loadBody env captured = .ok body →
        outboundHeaders env clock (claimedState w.row clock endpoint captured body) =
          .ok headers →
        ∃ answer, TargetGives env (claimedState w.row clock endpoint captured body) headers
          answer ∧ RetryQueued clock w answer)

theorem blobGiven_iff {env : Collaborators} {captured : CapturedRequest} :
    BlobGiven env captured ↔ ∃ body, loadBody env captured = .ok body := by
  unfold BlobGiven loadBody
  cases captured.blobKey with
  | none => simp [pure, Except.pure]
  | some key =>
    cases hget : env.blobGet key <;>
      simp [hget, Answer.await, bind, Except.bind, pure, Except.pure]

theorem secretOpens_iff {env : Collaborators} {clock : Clock} {state : ClaimedState} :
    SecretOpens env state.endpoint ↔ ∃ headers, outboundHeaders env clock state = .ok headers := by
  unfold SecretOpens outboundHeaders
  cases state.endpoint.forwardSecretEncrypted with
  | none => simp
  | some blob =>
    cases blob with
    | nil => simp
    | cons byte rest =>
      cases hsecret : decryptSecret env env.secretsKey (byte :: rest) <;>
        simp [hsecret, bind, Except.bind, pure, Except.pure]

theorem targetGives_iff {env : Collaborators} {state : ClaimedState} {headers : Headers}
    {answer : TargetAnswer} :
    TargetGives env state headers answer ↔ deliver env state headers = .ok answer := by
  constructor
  · intro h
    cases h with
    | blocked hvalidate => simp [deliver, hvalidate, Answer.await, bind, Except.bind]
    | unreachable hvalidate => simp [deliver, hvalidate, Answer.await, bind, Except.bind]
    | sendBlocked hvalidate hsend =>
      simp [deliver, hvalidate, hsend, Answer.await, bind, Except.bind]
    | sendFailed hvalidate hsend =>
      simp [deliver, hvalidate, hsend, Answer.await, bind, Except.bind]
    | answered hvalidate hsend =>
      simp [deliver, hvalidate, hsend, Answer.await, bind, Except.bind]
  · intro h
    cases hvalidate : env.validate state.forward.targetUrl with
    | hangs => simp [deliver, hvalidate, Answer.await, bind, Except.bind] at h
    | raises error =>
      cases error with
      | ssrfBlocked message =>
        simp [deliver, hvalidate, Answer.await, bind, Except.bind] at h
        exact h ▸ .blocked hvalidate
      | httpRequestFailed message kind =>
        simp [deliver, hvalidate, Answer.await, bind, Except.bind] at h
        exact h ▸ .unreachable hvalidate
      | other name => simp [deliver, hvalidate, Answer.await, bind, Except.bind] at h
    | returns validated =>
      cases hsend : env.send state.captured.method validated headers state.body with
      | hangs => simp [deliver, hvalidate, hsend, Answer.await, bind, Except.bind] at h
      | returns response =>
        simp [deliver, hvalidate, hsend, Answer.await, bind, Except.bind] at h
        exact h ▸ .answered hvalidate hsend
      | raises error =>
        cases error with
        | ssrfBlocked message =>
          simp [deliver, hvalidate, hsend, Answer.await, bind, Except.bind] at h
          exact h ▸ .sendBlocked hvalidate hsend
        | httpRequestFailed message kind =>
          simp [deliver, hvalidate, hsend, Answer.await, bind, Except.bind] at h
          exact h ▸ .sendFailed hvalidate hsend
        | other name => simp [deliver, hvalidate, hsend, Answer.await, bind, Except.bind] at h

theorem not_settled_inFlight {w : World} (h : w.row.status = .inFlight) : ¬ Settled w := by
  simp [Settled, h, ForwardStatus.Terminal, ForwardStatus.Claimable]

/-- With the lookups answered and the body loaded, the rest is up to secret and target. -/
theorem recovers_iff_of_body {env : Collaborators} {clock : Clock} {w : World}
    {endpoint : Endpoint} {captured : CapturedRequest} {body : Bytes}
    (hendpoint : env.findEndpoint w.row.endpointId = some endpoint)
    (hcaptured : env.findRequest w.row.requestId = some captured)
    (hbody : loadBody env captured = .ok body) :
    Recovers env clock w ↔ ∃ headers answer,
      outboundHeaders env clock (claimedState w.row clock endpoint captured body) =
        .ok headers ∧
      deliver env (claimedState w.row clock endpoint captured body) headers = .ok answer ∧
      RetryQueued clock w answer := by
  have hgiven : BlobGiven env captured := blobGiven_iff.mpr ⟨body, hbody⟩
  have hopens : SecretOpens env (claimedState w.row clock endpoint captured body).endpoint ↔
    ∃ headers, outboundHeaders env clock (claimedState w.row clock endpoint captured body) =
      .ok headers := secretOpens_iff
  constructor
  · intro h
    rcases h endpoint captured hendpoint hcaptured with ⟨hnot, _⟩ | ⟨_, hsecret, htarget⟩
    · exact absurd hgiven hnot
    · obtain ⟨headers, hheaders⟩ := hopens.mp hsecret
      obtain ⟨answer, hgives, hqueued⟩ := htarget body headers hbody hheaders
      exact ⟨headers, answer, hheaders, targetGives_iff.mp hgives, hqueued⟩
  · intro hgiven endpoint' captured' he hc
    obtain ⟨headers, answer, hheaders, hanswer, hqueued⟩ := hgiven
    obtain rfl := Option.some.inj (hendpoint.symm.trans he)
    obtain rfl := Option.some.inj (hcaptured.symm.trans hc)
    refine Or.inr ⟨hgiven, hopens.mpr ⟨headers, hheaders⟩, ?_⟩
    intro body' headers' hb hh
    obtain rfl := Except.ok.inj (hbody.symm.trans hb)
    obtain rfl := Except.ok.inj (hheaders.symm.trans hh)
    exact ⟨answer, targetGives_iff.mpr hanswer, hqueued⟩

/-- A recorded attempt is settled exactly when the retry it asks for is queued. -/
theorem settled_recorded {w : World} {clock : Clock} {answer : TargetAnswer}
    {call : RecordCall}
    (hcall : recordCall (w.row.attemptCount + 1) answer.result clock.decidedAt = some call) :
    Settled ⟨recordedRow (claimedRow w.row clock.claimedAt) call.outcome clock.recordedAt,
      reenqueued w clock call⟩ ↔ RetryQueued clock w answer := by
  rcases recordCall_cases (Nat.le_add_left 1 _) hcall with
    ⟨⟨hretry, hlt⟩, hfailed, _, hre⟩ | ⟨hnot, hstatus, _, hre⟩
  · have hwaiting : Waiting (enqueue w.queue w.row.id (backoff (w.row.attemptCount + 1))
        clock.enqueuedAt) w.row.id ↔ _ := waiting_enqueue
    simp only [Settled, recordedRow_status, hfailed, NextStatus.toStatus, reenqueued, hre]
    constructor
    · intro hsettled _ _
      rcases hsettled with hterminal | ⟨_, hwaits⟩
      · exact absurd hterminal (by decide)
      · exact hwaiting.mp hwaits
    · intro hqueued
      exact Or.inr ⟨Or.inr rfl, hwaiting.mpr (hqueued hretry hlt)⟩
  · refine ⟨fun _ hretry hlt => absurd ⟨hretry, hlt⟩ hnot, fun _ => Or.inl ?_⟩
    rw [recordedRow_status, hstatus]
    split <;> decide

theorem settled_execute (env : Collaborators) (clock : Clock) {w : World}
    (hclaim : w.row.status.Claimable) :
    Settled (execute env clock w.row.id w).1 ↔ Recovers env clock w := by
  have heffect := execute_effect env clock w
  generalize execute env clock w.row.id w = after at heffect ⊢
  cases heffect with
  | skipped hskip => exact absurd hclaim hskip
  | expired _ hgone =>
    constructor
    · intro _ endpoint captured hendpoint hcaptured
      rcases hgone with hnone | hnone
      · simp [hnone] at hendpoint
      · simp [hnone] at hcaptured
    · intro _
      exact Or.inl (Or.inr (Or.inl rfl))
  | @rolledBack endpoint captured interrupt _ hendpoint hcaptured hbody =>
    have hnot : ¬ BlobGiven env captured := by
      rw [blobGiven_iff]
      intro hloaded
      obtain ⟨body, hok⟩ := hloaded
      simp [hbody] at hok
    constructor
    · intro hsettled endpoint' captured' _ hc
      rcases hsettled with hterminal | ⟨_, hwaits⟩
      · rcases hclaim with hs | hs <;> simp [hs, ForwardStatus.Terminal] at hterminal
      · obtain rfl := Option.some.inj (hcaptured.symm.trans hc)
        exact Or.inl ⟨hnot, hwaits⟩
    · intro hrecovers
      rcases hrecovers endpoint captured hendpoint hcaptured with ⟨_, hwaits⟩ | ⟨hgiven, _⟩
      · exact Or.inr ⟨hclaim, hwaits⟩
      · exact absurd hgiven hnot
  | crashed _ hendpoint hcaptured hbody hphase =>
    refine iff_of_false (not_settled_inFlight rfl) ?_
    rw [recovers_iff_of_body hendpoint hcaptured hbody]
    intro hgiven
    obtain ⟨headers, answer, hheaders, hanswer, _⟩ := hgiven
    simp [httpPhase, hheaders, hanswer, bind, Except.bind, pure, Except.pure] at hphase
  | recorded _ hendpoint hcaptured hbody hheaders hanswer hcall =>
    rw [settled_recorded hcall, recovers_iff_of_body hendpoint hcaptured hbody]
    constructor
    · intro hqueued
      exact ⟨_, _, hheaders, hanswer, hqueued⟩
    · intro hgiven
      obtain ⟨headers, answer, hheaders', hanswer', hqueued⟩ := hgiven
      obtain rfl := Except.ok.inj (hheaders.symm.trans hheaders')
      obtain rfl := Except.ok.inj (hanswer.symm.trans hanswer')
      exact hqueued

theorem execute_running (env : Collaborators) (clock : Clock) (w : World) :
    (execute env clock w.row.id w).1.queue.running = w.queue.running := by
  have heffect := execute_effect env clock w
  generalize execute env clock w.row.id w = after at heffect ⊢
  cases heffect with
  | recorded _ _ _ _ _ _ _ => exact reenqueued_running _ _ _
  | _ => rfl

/-- The job of a claimable row always ends, and the forward is then over, or open with a
job waiting, exactly when every collaborator answered in a way that the job handles and
the retry's job id was free. -/
theorem settled_iff_recovers (env : Collaborators) (clock : Clock) {w : World} {job : Job}
    (finishedAt : Datetime) (hclaim : w.row.status.Claimable)
    (hrunning : job ∈ w.queue.running) :
    ∃ after, executeForwardJob env clock w.row.id job finishedAt w = some after ∧
      (Settled after ↔ Recovers env clock w) := by
  have hstill : job ∈ (execute env clock w.row.id w).1.queue.running := by
    rwa [execute_running]
  obtain ⟨queue, hqueue⟩ : ∃ queue,
      (execute env clock w.row.id w).1.queue.finish job finishedAt = some queue := by
    simp [ArqQueue.finish, hstill]
  refine ⟨{ (execute env clock w.row.id w).1 with queue }, by simp [executeForwardJob, hqueue], ?_⟩
  rw [← settled_execute env clock hclaim, Settled, Settled, waiting_finish hqueue]

def captureJob : Job := ⟨jobId sample.row.id 0, sample.row.id.str, seconds 1000⟩

def lastJob : World := ⟨sample.row, ⟨[], [captureJob], []⟩⟩

/-- The name of the target does not resolve, which `validate` raises as a `gaierror`:
the row stays in flight and no job is left. -/
theorem unresolved_host_strands :
    ¬ ∀ env clock w job finishedAt after, w.row.status.Claimable → job ∈ w.queue.running →
      executeForwardJob env clock w.row.id job finishedAt w = some after → Settled after := by
  intro hclaim
  have hsettled := hclaim (sampleCollaborators (.raises (.other "gaierror")) .hangs)
    (sampleClock 1001) lastJob captureJob (seconds 1003) _ (by decide) (by decide) rfl
  exact not_settled_inFlight rfl hsettled

def accepting : Collaborators :=
  sampleCollaborators
    (.returns ⟨"https://api.example.com/webhook", "api.example.com", 443, "203.0.113.9"⟩)
    (.returns ⟨200, .empty, []⟩)

/-- A delivery that the receiver accepts settles the forward. -/
theorem accepted_settled : ∃ after,
    executeForwardJob accepting (sampleClock 1001) lastJob.row.id captureJob (seconds 1003)
      lastJob = some after ∧ Settled after := by
  have hrunning : captureJob ∈ lastJob.queue.running := List.mem_cons_self
  obtain ⟨after, hjob, hiff⟩ := settled_iff_recovers accepting (sampleClock 1001)
    (seconds 1003) (Or.inl rfl : lastJob.row.status.Claimable) hrunning
  refine ⟨after, hjob, hiff.mpr ?_⟩
  rw [recovers_iff_of_body rfl rfl rfl]
  exact ⟨_, .status 200, rfl, rfl, fun hretry => absurd hretry (by decide)⟩

end Hooktrace.ErrorPaths
