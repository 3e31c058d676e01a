import Hooktrace.CaptureRequest
import Hooktrace.Delivery
import Hooktrace.ErrorPaths
import Hooktrace.ReplayRequest

/-!
What becomes of the captured body. A body that is not longer than the threshold goes through a
text column and back, a longer one through the blob store; the receiver gets what the worker
makes of the row. The way through the text column keeps exactly the bodies that are UTF-8, and
a row that lost its body is read like one with an empty body.
-/
namespace Hooktrace.BodyFidelity

open Delivery ExecuteForward
open CaptureRequest (Input blobKey decodeBodySafe isInline prepare prepare_body prepare_ping
  sampleCaptured sampleInput)

/-- The call carries the body, and a signature of the body where the endpoint has a secret. -/
def Carries (env : Collaborators) (clock : Clock) (row : Forward) (call : SendCall)
    (body : Bytes) : Prop :=
  call.body = body ∧ ∀ endpoint blob secret, env.findEndpoint row.endpointId = some endpoint →
    endpoint.forwardSecretEncrypted = some blob → blob ≠ [] →
    decryptSecret env env.secretsKey blob = .ok secret →
    call.headers.get? "X-Hooktrace-Signature" = some
      s!"t={clock.unixNow},v1={signForward env (encodeUtf8 secret) clock.unixNow body}"

def SendsBody (captured : CapturedRequest) (get : String → Answer (Option Bytes))
    (body : Bytes) : Prop :=
  ∀ (env : Collaborators) clock forwardId row call,
    env.findRequest row.requestId = some captured → env.blobGet = get →
    sent env clock forwardId row = some call → Carries env clock row call body

def ReplaysBody (captured : CapturedRequest) (get : String → Answer (Option Bytes))
    (body : Bytes) : Prop :=
  ∀ (env : ReplayRequest.Collaborators) token args (db later : Database),
    args.includeBody = true → env.blobGet = get →
    RequestRepository.findById args.requestId db.requests = some captured →
    ∀ call ∈ (ReplayRequest.execute env token args db later).sends, call.body = body

/-- A forward of the row is recorded as succeeded only after a delivery of the body. -/
def SucceedsWithBody (captured : CapturedRequest) (get : String → Answer (Option Bytes))
    (body : Bytes) : Prop :=
  ∀ (env : Collaborators) clock (w : World),
    env.findRequest w.row.requestId = some captured → env.blobGet = get →
    w.row.status ≠ .succeeded →
    (execute env clock w.row.id w).1.row.status = .succeeded →
    ∃ call, sent env clock w.row.id w.row = some call ∧ call.body = body

/-- The text of a body is the body again when the body is a text. -/
theorem encode_decodeBodySafe {body : Bytes} :
    encodeUtf8 (decodeBodySafe body) = body ↔ (decodeUtf8 body).isSome = true := by
  cases htext : decodeUtf8 body with
  | none =>
    have hne : encodeUtf8 (reprBytes body) ≠ body := by
      intro heq
      simp [decodeUtf8_eq_some.mpr heq] at htext
    simpa [decodeBodySafe, htext] using hne
  | some text => simp [decodeBodySafe, htext, decodeUtf8_eq_some.mp htext]

theorem encodeUtf8_empty : encodeUtf8 "" = [] := by simp [encodeUtf8_eq_flatMap]

/-- What both readers make of the row, if they get that far. -/
def readBody (get : String → Answer (Option Bytes)) (captured : CapturedRequest) :
    Except Interrupt Bytes :=
  match captured.blobKey with
  | some key => (get key).await.map fun body => body.getD []
  | none => .ok (encodeUtf8 (captured.bodyPreview.getD ""))

theorem loadBody_eq (env : Collaborators) (captured : CapturedRequest) :
    loadBody env captured = readBody env.blobGet captured := by
  unfold loadBody readBody
  cases captured.blobKey with
  | none => rfl
  | some key => cases env.blobGet key <;> rfl

theorem replay_loadBody_eq (env : ReplayRequest.Collaborators) (captured : CapturedRequest) :
    ReplayRequest.loadBody env captured =
      (readBody env.blobGet captured).mapError .interrupted := by
  unfold ReplayRequest.loadBody readBody
  cases captured.blobKey with
  | none => rfl
  | some key =>
    cases hget : env.blobGet key <;> simp [hget, Answer.await, Except.map, Except.mapError]

section Senders

variable {captured : CapturedRequest} {get : String → Answer (Option Bytes)} {body : Bytes}

/-- The worker sends what it reads, and signs it. -/
theorem sendsBody_of_read (h : ∀ read, readBody get captured = .ok read → read = body) :
    SendsBody captured get body := by
  intro env clock forwardId row call hrequest hget hsent
  obtain ⟨state, -, hendpoint, hcaptured, hload, hheaders, hbody⟩ := sent_eq_some hsent
  obtain rfl := Option.some.inj (hrequest.symm.trans hcaptured)
  rw [loadBody_eq, hget] at hload
  obtain rfl := h _ hload
  refine ⟨hbody, ?_⟩
  intro endpoint blob secret hfound hblob hne hsecret
  obtain rfl := Option.some.inj (hfound.symm.trans hendpoint)
  exact signature_sent hheaders hblob hne hsecret

theorem replaysBody_of_read (h : ∀ read, readBody get captured = .ok read → read = body) :
    ReplaysBody captured get body := by
  intro env token args db later hinclude hget hrequest call hcall
  obtain ⟨state, validated, hstate, rfl⟩ := ReplayRequest.mem_sends hcall
  obtain ⟨-, hfound, -, hload⟩ := ReplayRequest.authorizePhase_ok hstate
  obtain rfl : captured = state.captured := Option.some.inj (hrequest.symm.trans hfound)
  rw [replay_loadBody_eq, hget] at hload
  have hread : readBody get state.captured = .ok state.body := by
    cases hread : readBody get state.captured with
    | error interrupt => simp [hread, Except.mapError] at hload
    | ok read => simpa [hread, Except.mapError] using hload
  simp [ReplayRequest.outbound, ReplayRequest.sentBody, hinclude, h _ hread]

def receiver (captured : CapturedRequest) (get : String → Answer (Option Bytes)) :
    Collaborators :=
  { JobRuns.sampleCollaborators
      (.returns ⟨"https://api.example.com/webhook", "api.example.com", 443, "203.0.113.9"⟩)
      (.returns ⟨200, .empty, []⟩) with
    findRequest := fun _ => some captured
    blobGet := get }

def untried : Forward :=
  Forward.create sampleForwardId sampleRequest.id sampleEndpoint.id
    "https://api.example.com/webhook" (seconds 1000)

/-- What a claim of a row that may be claimed hands over. -/
theorem claimedFor_found {env : Collaborators} {clock : Clock} {row : Forward}
    {endpoint : Endpoint} (hclaim : row.status.Claimable)
    (hendpoint : env.findEndpoint row.endpointId = some endpoint)
    (hcaptured : env.findRequest row.requestId = some captured)
    (hload : loadBody env captured = .ok body) : claimedFor env clock row.id row =
      some (JobRuns.claimedState row clock endpoint captured body) := by
  simp [claimedFor, JobRuns.claimPhase_found hclaim hendpoint hcaptured, hload, Except.map]

theorem sent_receiver {read : Bytes} (h : readBody get captured = .ok read) (clock : Clock) :
    ∃ call, sent (receiver captured get) clock untried.id untried = some call ∧
      call.body = read := by
  have hload : loadBody (receiver captured get) captured = .ok read :=
    (loadBody_eq _ captured).trans h
  have hclaimed : claimedFor (receiver captured get) clock untried.id untried =
      some (JobRuns.claimedState untried clock sampleEndpoint captured read) :=
    claimedFor_found (Or.inl rfl) rfl rfl hload
  refine ⟨_, by rw [sent, hclaimed]; rfl, rfl⟩

theorem sendsBody_iff : SendsBody captured get body ↔
    ∀ read, readBody get captured = .ok read → read = body := by
  constructor
  · intro hsends read hread
    obtain ⟨call, hsent, hbody⟩ := sent_receiver hread (JobRuns.sampleClock 1001)
    exact hbody.symm.trans (hsends _ _ _ _ call rfl rfl hsent).1
  · exact sendsBody_of_read

/-- A success is recorded only on the answer to a call. -/
theorem sent_of_succeeded {env : Collaborators} {clock : Clock} {w : World}
    (hbefore : w.row.status ≠ .succeeded)
    (hafter : (execute env clock w.row.id w).1.row.status = .succeeded) :
    ∃ call, sent env clock w.row.id w.row = some call := by
  have heffect := JobRuns.execute_effect env clock w
  generalize execute env clock w.row.id w = result at heffect hafter
  cases heffect with
  | skipped hskip => exact absurd hafter hbefore
  | expired hclaim hgone => simp [expiredOutcome, ForwardDecision.NextStatus.toStatus] at hafter
  | rolledBack hclaim hendpoint hcaptured hload => exact absurd hafter hbefore
  | crashed hclaim hendpoint hcaptured hload hphase =>
    simp [Lifecycle.claimedRow, ForwardRepository.claimForAttempt] at hafter
  | recorded hclaim hendpoint hcaptured hload hheaders hanswer hcall =>
    rename_i endpoint captured body headers answer call
    have hsuccess : answer.success = true := by
      rw [Lifecycle.recordedRow_status] at hafter
      rcases recordCall_cases (Nat.le_add_left 1 _) hcall with
        ⟨-, hfailed, -⟩ | ⟨-, hstatus, -⟩
      · simp [hfailed, ForwardDecision.NextStatus.toStatus] at hafter
      · by_contra hno
        simp [hstatus, hno, ForwardDecision.NextStatus.toStatus] at hafter
    cases ErrorPaths.targetGives_iff.mpr hanswer with
    | answered hvalidate hsend =>
      rename_i validated response
      refine ⟨⟨captured.method, validated, headers, body⟩, ?_⟩
      rw [sent, claimedFor_found hclaim hendpoint hcaptured hload]
      simp only [Option.bind_some, sendCall, hheaders, hvalidate]
      rfl
    | _ => simp [TargetAnswer.success, TargetAnswer.result, ForwardDecision.isSuccess] at hsuccess

theorem succeedsWithBody_of_sendsBody (h : SendsBody captured get body) :
    SucceedsWithBody captured get body := by
  intro env clock w hrequest hget hbefore hafter
  obtain ⟨call, hsent⟩ := sent_of_succeeded hbefore hafter
  exact ⟨call, hsent, (h env clock _ _ call hrequest hget hsent).1⟩

end Senders

def StoresBody (capture : CaptureRequest.Collaborators) (endpoint : Endpoint) (body : Bytes)
    (get : String → Answer (Option Bytes)) : Prop :=
  isInline capture body = false →
    capture.blobPut (blobKey capture endpoint.id) body = .returns () ∧
      get (blobKey capture endpoint.id) = .returns (some body)

section Fidelity

variable {capture : CaptureRequest.Collaborators} {endpoint : Endpoint} {input : Input}
variable {captured : CapturedRequest} {get : String → Answer (Option Bytes)}

/-- What is read for a body that is kept in the row. -/
theorem readBody_inline (hkey : captured.blobKey = none)
    (hpreview : captured.bodyPreview = some (decodeBodySafe input.body)) :
    (∀ read, readBody get captured = .ok read → read = input.body) ↔
      (decodeUtf8 input.body).isSome = true := by
  rw [← encode_decodeBodySafe]
  simp [readBody, hkey, hpreview]

/-- With a faithful blob store the body arrives if and only if it is UTF-8 or offloaded. -/
theorem body_faithful_iff (hprepare : prepare capture endpoint input = .ok captured)
    (hstore : StoresBody capture endpoint input.body get) :
    SendsBody captured get input.body ∧ ReplaysBody captured get input.body ↔
      (decodeUtf8 input.body).isSome = true ∨ isInline capture input.body = false := by
  have hreads : SendsBody captured get input.body ∧ ReplaysBody captured get input.body ↔
      ∀ read, readBody get captured = .ok read → read = input.body := by
    constructor
    · intro h
      exact sendsBody_iff.mp h.1
    · intro h
      exact ⟨sendsBody_of_read h, replaysBody_of_read h⟩
  rw [hreads]
  cases prepare_body hprepare with
  | row hinline hkey hpreview => simp [readBody_inline hkey hpreview, hinline]
  | blob hinline hkey hpreview hput =>
    have hget := (hstore hinline).2
    simp [readBody, hkey, hget, Answer.await, Except.map, hinline]
  | lost hinline hkey hpreview error hput => simp [(hstore hinline).1] at hput

/-- No forward is told apart from one with an empty body when its body is lost. -/
theorem lost_body_iff (hprepare : prepare capture endpoint input = .ok captured)
    (hbody : input.body ≠ [])
    (hget : ∀ b, get (blobKey capture endpoint.id) = .returns (some b) → b = input.body) :
    SendsBody captured get input.body ∧ SucceedsWithBody captured get input.body ↔
      (isInline capture input.body = true ∧ (decodeUtf8 input.body).isSome = true) ∨
        (isInline capture input.body = false ∧
          capture.blobPut (blobKey capture endpoint.id) input.body = .returns () ∧
          get (blobKey capture endpoint.id) ≠ .returns none) := by
  have hsends : SendsBody captured get input.body ∧ SucceedsWithBody captured get input.body ↔
      ∀ read, readBody get captured = .ok read → read = input.body := by
    constructor
    · intro h
      exact sendsBody_iff.mp h.1
    · intro h
      exact ⟨sendsBody_of_read h, succeedsWithBody_of_sendsBody (sendsBody_of_read h)⟩
  rw [hsends]
  cases prepare_body hprepare with
  | row hinline hkey hpreview => simp [readBody_inline hkey hpreview, hinline]
  | lost hinline hkey hpreview error hput =>
    simp [readBody, hkey, hpreview, hinline, hput, encodeUtf8_empty, Ne.symm hbody]
  | blob hinline hkey hpreview hput =>
    cases hanswer : get (blobKey capture endpoint.id) with
    | hangs => simp [readBody, hkey, hanswer, Answer.await, Except.map, hinline, hput]
    | raises error => simp [readBody, hkey, hanswer, Answer.await, Except.map, hinline, hput]
    | returns stored =>
      cases stored with
      | none =>
        simp [readBody, hkey, hanswer, Answer.await, Except.map, hinline, Ne.symm hbody]
      | some b =>
        simp [readBody, hkey, hanswer, Answer.await, Except.map, hinline, hput, hget b hanswer]

end Fidelity

theorem text_faithful :
    SendsBody (sampleCaptured (some "ping") none 4) (fun _ => .returns none)
        (encodeUtf8 "ping") ∧
      ReplaysBody (sampleCaptured (some "ping") none 4) (fun _ => .returns none)
        (encodeUtf8 "ping") := by
  refine (body_faithful_iff prepare_ping ?_).mpr (Or.inl (by decide +kernel))
  intro hoffloaded
  exact absurd hoffloaded (by decide +kernel)

/-- One byte that is no UTF-8 arrives as the four letters of its escape. -/
theorem binary_body_changed : ¬ ∀ capture endpoint input captured get,
    prepare capture endpoint input = .ok captured →
    StoresBody capture endpoint input.body get →
    SendsBody captured get input.body ∧ ReplaysBody captured get input.body := by
  intro hclaim
  have hprepare : prepare (CaptureRequest.sampleCollaborators (.returns ())) sampleEndpoint
      (sampleInput [0xFF]) = .ok (sampleCaptured (some "\\xff") none 1) := by
    decide +kernel
  have hsends := (hclaim _ _ _ _ (fun _ => .returns none) hprepare (by
    intro hoffloaded
    exact absurd hoffloaded (by decide +kernel))).1
  have hread := sendsBody_iff.mp hsends (encodeUtf8 "\\xff") rfl
  exact absurd hread (by decide +kernel)

def offloadedBody : Bytes := encodeUtf8 "ping pong"

def offloadedKey : String :=
  blobKey (CaptureRequest.sampleCollaborators (.returns ())) sampleEndpoint.id

theorem stored_body_succeeds :
    SendsBody (sampleCaptured none (some offloadedKey) 9)
        (fun _ => .returns (some offloadedBody)) offloadedBody ∧
      SucceedsWithBody (sampleCaptured none (some offloadedKey) 9)
        (fun _ => .returns (some offloadedBody)) offloadedBody := by
  have hprepare : prepare (CaptureRequest.sampleCollaborators (.returns ())) sampleEndpoint
      (sampleInput offloadedBody) = .ok (sampleCaptured none (some offloadedKey) 9) := by
    decide +kernel
  refine (lost_body_iff hprepare (by decide +kernel) ?_).mpr
    (Or.inr ⟨by decide +kernel, rfl, by simp⟩)
  intro b hget
  have hb : offloadedBody = b := by simpa using hget
  exact hb.symm

/-- The store refuses the body, and the forward succeeds with an empty one. -/
theorem lost_body_succeeds :
    prepare (CaptureRequest.sampleCollaborators (.raises (.other "OSError"))) sampleEndpoint
        (sampleInput offloadedBody) = .ok (sampleCaptured none none 9) ∧
      offloadedBody ≠ [] ∧
      ¬ SendsBody (sampleCaptured none none 9) (fun _ => .returns none) offloadedBody ∧
      ¬ SucceedsWithBody (sampleCaptured none none 9) (fun _ => .returns none) offloadedBody := by
  have hload : readBody (fun _ => .returns none) (sampleCaptured none none 9) = .ok [] := by
    decide +kernel
  refine ⟨by decide +kernel, by decide +kernel, ?_, ?_⟩
  · intro hsends
    exact absurd (sendsBody_iff.mp hsends [] hload) (by decide +kernel)
  · intro hsucceeds
    obtain ⟨call, hsent, hbody⟩ := hsucceeds
      (receiver (sampleCaptured none none 9) fun _ => .returns none) (JobRuns.sampleClock 1001)
      ⟨untried, .empty⟩ rfl rfl (by decide +kernel) (by decide +kernel)
    obtain ⟨call', hsent', hempty⟩ := sent_receiver hload (JobRuns.sampleClock 1001)
    obtain rfl := Option.some.inj (hsent.symm.trans hsent')
    exact absurd (hempty.symm.trans hbody) (by decide +kernel)

end Hooktrace.BodyFidelity
