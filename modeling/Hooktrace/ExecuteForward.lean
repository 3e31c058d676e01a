import Hooktrace.Entities
import Hooktrace.ForwardRepository
import Hooktrace.ForwardQueue

/-!
The worker job of one attempt: claim and load in a first transaction, deliver with
no transaction open, record in a second one, enqueue the next attempt after it.
The collaborators are given by what they answer: a call returns, raises, or does
not come back before arq cancels the job at its timeout. An interrupted first or
second transaction is rolled back; the job wrapper swallows every exception but not
the cancellation, and in each case the job is over.
-/
namespace Hooktrace.ExecuteForward

open ForwardDecision ForwardRepository ForwardQueue

/-- The exceptions that some handler tells apart. -/
inductive PyError where
  | ssrfBlocked (message : String)
  | httpRequestFailed (message kind : String)
  | other (name : String)
  deriving DecidableEq

inductive Answer (α : Type) where
  | returns (value : α)
  | raises (error : PyError)
  | hangs

/-- How a phase is left early: by an exception, or by the cancellation of the job. -/
inductive Interrupt where
  | raised (error : PyError)
  | cancelled
  deriving DecidableEq

def Answer.await {α : Type} : Answer α → Except Interrupt α
  | .returns value => .ok value
  | .raises error => .error (.raised error)
  | .hangs => .error .cancelled

structure ValidatedTarget where
  url : String
  host : String
  port : ℕ
  ip : String
  deriving DecidableEq

structure Response where
  statusCode : ℕ
  headers : Headers
  body : Bytes

/-- What the job calls and does not implement: the two other tables, the blob store,
the target, and the AES-GCM and HMAC primitives (`none` is an InvalidTag). -/
structure Collaborators where
  findEndpoint : UUID → Option Endpoint
  findRequest : UUID → Option CapturedRequest
  blobGet : String → Answer (Option Bytes)
  aesGcmDecrypt : Bytes → Bytes → Bytes → Option Bytes
  hmacSha256Hex : Bytes → Bytes → String
  validate : String → Answer ValidatedTarget
  send : String → ValidatedTarget → Headers → Bytes → Answer Response
  secretsKey : Bytes

/-- The clock readings of one run of the job; `unixNow` is `int(time.time())`. -/
structure Clock where
  claimedAt : Datetime
  expiredAt : Datetime
  unixNow : ℕ
  decidedAt : Datetime
  recordedAt : Datetime
  enqueuedAt : Datetime

structure ClaimedState where
  forward : Forward
  endpoint : Endpoint
  captured : CapturedRequest
  body : Bytes

def nonceSize : ℕ := 12

def decryptSecret (env : Collaborators) (key blob : Bytes) : Except Interrupt String :=
  if key.length ≠ 32 then .error (.raised (.other "ValueError"))
  else if blob.length < nonceSize then .error (.raised (.other "ValueError"))
  else match env.aesGcmDecrypt key (blob.take nonceSize) (blob.drop nonceSize) with
    | none => .error (.raised (.other "InvalidTag"))
    | some plaintext => match decodeUtf8 plaintext with
      | none => .error (.raised (.other "UnicodeDecodeError"))
      | some secret => .ok secret

def signForward (env : Collaborators) (secret : Bytes) (timestamp : ℕ) (body : Bytes) : String :=
  env.hmacSha256Hex secret (encodeUtf8 s!"{timestamp}." ++ body)

def headersToStripFromCaptured : List String :=
  ["connection", "keep-alive", "te", "trailers", "upgrade", "transfer-encoding",
    "proxy-authenticate", "proxy-authorization", "content-length", "host", "authorization",
    "cookie", "set-cookie", "stripe-signature", "x-hub-signature-256",
    "x-shopify-hmac-sha256", "x-twilio-signature", "x-slack-signature", "x-zoom-signature"]

def expiredOutcome : Outcome :=
  ⟨.dead, none, some "endpoint or request not found (TTL expired?)", none⟩

def loadBody (env : Collaborators) (captured : CapturedRequest) : Except Interrupt Bytes :=
  match captured.blobKey with
  | some key => do
    let body ← (env.blobGet key).await
    pure (body.getD [])
  | none => pure (encodeUtf8 (captured.bodyPreview.getD ""))

/-- `_claim_phase`: the row that TX1 commits, and the state to go on with. An error
rolls the transaction back. -/
def claimPhase (env : Collaborators) (clock : Clock) (forwardId : UUID) (row : Forward) :
    Except Interrupt (Forward × Option ClaimedState) :=
  match (claimForAttempt forwardId clock.claimedAt).returningRow row with
  | none => .ok (row, none)
  | some claimed =>
    match env.findEndpoint claimed.endpointId, env.findRequest claimed.requestId with
    | some endpoint, some captured => do
      let body ← loadBody env captured
      pure (claimed, some ⟨claimed, endpoint, captured, body⟩)
    | _, _ => .ok ((recordOutcome forwardId expiredOutcome clock.expiredAt).onRow claimed, none)

/-- The headers before the signature is added. -/
def unsignedHeaders (state : ClaimedState) : Headers :=
  -- header names are latin-1, where `lower` maps no letter but A-Z to an ASCII one
  let captured := state.captured.headers.filterKeys
    (fun k => !(k.toLower ∈ headersToStripFromCaptured))
  let fused := match state.endpoint.forwardHeaders with
    | some forwardHeaders => captured.update forwardHeaders
    | none => captured
  (fused.set "Idempotency-Key" state.forward.idempotencyKey).set
    "X-Hooktrace-Forward-Id" state.forward.id.str

def outboundHeaders (env : Collaborators) (clock : Clock) (state : ClaimedState) :
    Except Interrupt Headers :=
  match state.endpoint.forwardSecretEncrypted with
  | none | some [] => .ok (unsignedHeaders state)
  | some blob => do
    let secret ← decryptSecret env env.secretsKey blob
    let sig := signForward env (encodeUtf8 secret) clock.unixNow state.body
    pure ((unsignedHeaders state).set "X-Hooktrace-Signature" s!"t={clock.unixNow},v1={sig}")

/-- Signed or not, a delivery carries the key of the attempt that was claimed. -/
theorem idempotencyKey_sent {env : Collaborators} {clock : Clock} {state : ClaimedState}
    {headers : Headers} (h : outboundHeaders env clock state = .ok headers) :
    headers.get? "Idempotency-Key" = some state.forward.idempotencyKey := by
  have hunsigned : (unsignedHeaders state).get? "Idempotency-Key" =
      some state.forward.idempotencyKey := by
    simp [unsignedHeaders]
  unfold outboundHeaders at h
  split at h
  · obtain rfl := Except.ok.inj h
    exact hunsigned
  · obtain rfl := Except.ok.inj h
    exact hunsigned
  · rename_i blob _ _
    cases hsecret : decryptSecret env env.secretsKey blob with
    | error interrupt => simp [hsecret, bind, Except.bind] at h
    | ok secret =>
      simp only [hsecret, bind, Except.bind, pure, Except.pure, Except.ok.injEq] at h
      subst h
      simpa using hunsigned

/-- The tuple that `_http_phase` returns. -/
structure HttpPhase where
  httpStatus : Option ℕ
  networkError : Bool
  finalError : Option String
  ssrfError : Option String
  deriving DecidableEq

/-- What the target did, when `_http_phase` returns. -/
inductive TargetAnswer where
  | status (code : ℕ)
  | ssrfBlocked (message : String)
  | requestFailed (message : String)
  deriving DecidableEq

def TargetAnswer.result : TargetAnswer → HttpPhase
  | .status code => ⟨some code, false, none, none⟩
  | .ssrfBlocked message => ⟨none, false, none, some message⟩
  | .requestFailed message => ⟨none, true, some message, none⟩

/-- The try block of `_http_phase`, which catches two exception types. -/
def deliver (env : Collaborators) (state : ClaimedState) (headers : Headers) :
    Except Interrupt TargetAnswer :=
  match (do
    let validated ← (env.validate state.forward.targetUrl).await
    (env.send state.captured.method validated headers state.body).await) with
  | .ok response => .ok (.status response.statusCode)
  | .error (.raised (.ssrfBlocked message)) => .ok (.ssrfBlocked message)
  | .error (.raised (.httpRequestFailed message _)) => .ok (.requestFailed message)
  | .error interrupt => .error interrupt

def httpPhase (env : Collaborators) (clock : Clock) (state : ClaimedState) :
    Except Interrupt HttpPhase := do
  let headers ← outboundHeaders env clock state
  let answer ← deliver env state headers
  pure answer.result

/-- What `execute` does after the HTTP phase: the arguments of `record_outcome`, and
the delay of the job enqueued once they are committed. -/
structure RecordCall where
  outcome : Outcome
  reenqueue : Option ℕ
  deriving DecidableEq

def recordCall (attemptCount : ℕ) (http : HttpPhase) (decidedAt : Datetime) :
    Option RecordCall :=
  match http.ssrfError with
  | some message => some ⟨⟨.dead, none, some s!"SsrfBlockedError: {message}", none⟩, none⟩
  | none => (decide attemptCount http.httpStatus http.networkError).map fun decision =>
    { outcome :=
        { nextStatus := decision.nextStatus
          finalStatusCode := http.httpStatus
          finalError := http.finalError
          nextAttemptAt := if decision.nextStatus = .failed
            then some decidedAt.replaceMicrosecond else none }
      reenqueue := if decision.nextStatus = .failed then some decision.deferSeconds else none }

def TargetAnswer.success (answer : TargetAnswer) : Bool :=
  isSuccess answer.result.httpStatus answer.result.networkError

def TargetAnswer.retryable (answer : TargetAnswer) : Bool :=
  isRetryable answer.result.httpStatus answer.result.networkError

theorem TargetAnswer.not_success_of_retryable {answer : TargetAnswer}
    (h : answer.retryable = true) : answer.success = false := by
  cases answer with
  | status code =>
    have hcode : code ∈ retryableStatus := by
      simpa [retryable, isRetryable, TargetAnswer.result] using h
    simp only [retryableStatus, List.mem_cons, List.not_mem_nil, or_false] at hcode
    rcases hcode with rfl | rfl | rfl | rfl | rfl | rfl | rfl | rfl | rfl <;> rfl
  | ssrfBlocked message => rfl
  | requestFailed message => rfl

/-- What is recorded after the n-th attempt: failed, to be tried again after the backoff,
or a terminal status. -/
theorem recordCall_cases {n : ℕ} {answer : TargetAnswer} {decidedAt : Datetime}
    {call : RecordCall} (hn : 1 ≤ n) (h : recordCall n answer.result decidedAt = some call) :
    ((answer.retryable = true ∧ n < maxAttempts) ∧ call.outcome.nextStatus = .failed ∧
      call.outcome.nextAttemptAt = some decidedAt.replaceMicrosecond ∧
      call.reenqueue = some (backoff n)) ∨
    (¬ (answer.retryable = true ∧ n < maxAttempts) ∧
      call.outcome.nextStatus = (if answer.success then .succeeded else .dead) ∧
      call.outcome.nextAttemptAt = none ∧ call.reenqueue = none) := by
  have hdecide := decide_eq hn answer.result.httpStatus answer.result.networkError
  by_cases hretry : answer.retryable = true ∧ n < maxAttempts
  · have hsuccess := TargetAnswer.not_success_of_retryable hretry.1
    have hssrf : answer.result.ssrfError = none := by
      cases answer with
      | ssrfBlocked message => exact absurd hretry.1 Bool.false_ne_true
      | _ => rfl
    simp only [TargetAnswer.retryable, TargetAnswer.success] at hretry hsuccess
    simp only [recordCall, hssrf, hdecide, hsuccess, hretry, decide_true, Bool.and_self,
      if_true, Option.map_some, Option.some.injEq] at h
    subst h
    exact Or.inl ⟨hretry, rfl, rfl, rfl⟩
  · refine Or.inr ⟨hretry, ?_⟩
    cases hssrf : answer.result.ssrfError with
    | some message =>
      simp only [recordCall, hssrf, Option.some.injEq] at h
      subst h
      cases answer with
      | ssrfBlocked message => exact ⟨rfl, rfl, rfl⟩
      | _ => simp [TargetAnswer.result] at hssrf
    | none =>
      simp only [recordCall, hssrf, hdecide, Option.map_some, Option.some.injEq] at h
      subst h
      simp only [TargetAnswer.retryable] at hretry
      cases hsuccess : answer.success with
      | true =>
        simp only [TargetAnswer.success] at hsuccess
        simp [hsuccess]
      | false =>
        simp only [TargetAnswer.success] at hsuccess
        simp [hsuccess, hretry]

/-- The forward's committed row and the queue, while nobody else touches them. -/
structure World where
  row : Forward
  queue : ArqQueue

/-- `ExecuteForward.execute`. -/
def execute (env : Collaborators) (clock : Clock) (forwardId : UUID) (w : World) :
    World × Except Interrupt Unit :=
  match claimPhase env clock forwardId w.row with
  | .error interrupt => (w, .error interrupt)
  | .ok (row, none) => ({ w with row }, .ok ())
  | .ok (row, some state) =>
    match httpPhase env clock state with
    | .error interrupt => ({ w with row }, .error interrupt)
    | .ok http =>
      match recordCall state.forward.attemptCount http clock.decidedAt with
      | none => ({ w with row }, .error (.raised (.other "IndexError")))
      | some call =>
        let row := (recordOutcome forwardId call.outcome clock.recordedAt).onRow row
        match call.reenqueue with
        | none => ({ w with row }, .ok ())
        | some d => (⟨row, enqueue w.queue forwardId d clock.enqueuedAt⟩, .ok ())

/-- The arq job: whatever `execute` ends with, arq finishes the job and keeps its result. -/
def executeForwardJob (env : Collaborators) (clock : Clock) (forwardId : UUID) (job : Job)
    (finishedAt : Datetime) (w : World) : Option World :=
  let after := (execute env clock forwardId w).1
  (after.queue.finish job finishedAt).map fun queue => { after with queue }

end Hooktrace.ExecuteForward
