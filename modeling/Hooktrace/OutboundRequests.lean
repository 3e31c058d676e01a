import Hooktrace.CaptureRequest
import Hooktrace.ConfigScope
import Hooktrace.TargetContract

/-!
What leaves for a target, and what comes back of it. The HTTP client belongs to another package:
it is what it does with a request. Both use cases ask the same object, so that no request of
theirs leaves for a URL that the check has not let pass.
-/
namespace Hooktrace.OutboundRequests

open Delivery ExecuteForward SafeReplayTarget TargetContract

/-- The classes of exceptions that `send` tells apart; a cancellation is none of them. -/
inductive ErrorClass where
  | timeoutException
  | httpError
  | osError
  | other
  deriving DecidableEq

structure ClientError where
  errorClass : ErrorClass
  typeName : String
  text : String

inductive Ending where
  | ends
  | raises (error : ClientError)
  | hangs

inductive Exchange where
  | responds (statusCode : ℕ) (headers : Headers) (chunks : List Bytes) (ending : Ending)
  | raises (error : ClientError)
  | hangs

/-- `self`, the resolver and the client; a request is its method, URL, headers and content. -/
structure Target where
  net : SafeReplayTarget.Collaborators
  request : String → String → Headers → Bytes → Exchange
  maxResponseBytes : ℕ
  max_pos : 0 < maxResponseBytes

/-- `HttpRequestFailedError`, from the four clauses. -/
def requestFailed (error : ClientError) : PyError :=
  .httpRequestFailed s!"{error.typeName}: {error.text}"
    (match error.errorClass with
      | .timeoutException => "timeout"
      | .httpError => "network"
      | .osError => "network"
      | .other => "other")

def Ending.answer (bodyOut : Bytes) : Ending → Answer Bytes
  | .ends => .returns bodyOut
  | .raises error => .raises (requestFailed error)
  | .hangs => .hangs

/-- The loop over `aiter_bytes`. -/
def readBody (maxResponseBytes : ℕ) (ending : Ending) (bodyOut : Bytes) : List Bytes → Answer Bytes
  | [] => ending.answer bodyOut
  | chunk :: rest =>
    let bodyOut := bodyOut ++ chunk
    if maxResponseBytes ≤ bodyOut.length then .returns (bodyOut.take maxResponseBytes)
    else readBody maxResponseBytes ending bodyOut rest

def send (target : Target) (method : String) (validated : ValidatedTarget) (headers : Headers)
    (body : Bytes) : Answer Response :=
  match target.request method validated.url headers body with
  | .raises error => .raises (requestFailed error)
  | .hangs => .hangs
  | .responds statusCode headers chunks ending =>
    match readBody target.maxResponseBytes ending [] chunks with
    | .returns body => .returns ⟨statusCode, headers, body⟩
    | .raises error => .raises error
    | .hangs => .hangs

def validate (target : Target) (url : String) : Answer ValidatedTarget :=
  match SafeReplayTarget.validate target.net url with
  | .ok validated => .returns validated
  | .error error => .raises error

def defaultMaxResponseBytes : ℕ := 256 * 1024

def makeSafeReplayTarget (unicode : UrlSplit.Unicode) (getaddrinfo : List Char → Lookup)
    (request : String → String → Headers → Bytes → Exchange) : Target where
  net := ⟨unicode, getaddrinfo, ["hooktrace.io"]⟩
  request := request
  maxResponseBytes := defaultMaxResponseBytes
  max_pos := by decide

/-- The worker and the replay route with this target. -/
def forForwards (env : ExecuteForward.Collaborators) (target : Target) :
    ExecuteForward.Collaborators :=
  { env with
    validate := validate target
    send := send target }

def forReplays (env : ReplayRequest.Collaborators) (target : Target) :
    ReplayRequest.Collaborators :=
  { env with
    validate := validate target
    send := send target }

/-- The check has let the URL pass, on what the URL says and the resolver answered. -/
def Checked (target : Target) (url : String) (validated : ValidatedTarget) : Prop :=
  validated.url = url ∧ SafeReplayTarget.validate target.net url = .ok validated ∧
    ∃ parts host port ips, Accepted target.net url parts host port ips

/-- The first bytes of what the target sent, however it was cut into chunks. -/
def Brings (target : Target) (exchange : Exchange) (response : Response) : Prop :=
  ∃ chunks ending, exchange = .responds response.statusCode response.headers chunks ending ∧
    response.body = chunks.flatten.take target.maxResponseBytes ∧
    (chunks.flatten.length < target.maxResponseBytes → ending = .ends)

/-- What the client refuses, or breaks off too early, comes back as the error of the port. -/
def Fails (target : Target) (exchange : Exchange) (error : PyError) : Prop :=
  ∃ cause, error = requestFailed cause ∧ (exchange = .raises cause ∨
    ∃ statusCode headers chunks, exchange = .responds statusCode headers chunks (.raises cause) ∧
      chunks.flatten.length < target.maxResponseBytes)

def Prompt (target : Target) : Prop :=
  ∀ method url headers content, target.request method url headers content ≠ .hangs ∧
    ∀ statusCode headers' chunks,
      target.request method url headers content ≠ .responds statusCode headers' chunks .hangs

structure Guards (target : Target) : Prop where
  /-- A forward leaves for its own URL, when it was checked. -/
  forwards : ∀ env clock forwardId row call,
    sent (forForwards env target) clock forwardId row = some call →
      Checked target row.targetUrl call.validated
  /-- So does a replay. -/
  replays : ∀ env token args db later,
    ∀ call ∈ (ReplayRequest.execute (forReplays env target) token args db later).sends,
      Checked target args.targetUrl call.validated
  brings : ∀ method validated headers body response,
    send target method validated headers body = .returns response →
      Brings target (target.request method validated.url headers body) response
  fails : ∀ method validated headers body error,
    send target method validated headers body = .raises error →
      Fails target (target.request method validated.url headers body) error
  /-- Where the check honours its port, every attempt ends with an answer. -/
  settles : Prompt target → ∀ env state headers, WellBehaved target.net state.forward.targetUrl →
    ∃ answer, deliver (forForwards env target) state headers = .ok answer
  /-- And every replay that is not too large leaves its row to be stored. -/
  records : Prompt target → ∀ env args state later, WellBehaved target.net args.targetUrl →
    (ReplayRequest.sentBody args state).length ≤ ReplayRequest.maxReplayBodyBytes →
      ∃ replay sends, replay.requestId = args.requestId ∧
        ReplayRequest.httpPhase (forReplays env target) args state later =
          ReplayRequest.recordPhase replay sends later

section Reading

variable {target : Target} {ending : Ending} {chunks : List Bytes}

/-- However the content is cut, what is read of it is its first bytes; how it ends matters only
before the cap is reached. -/
theorem readBody_eq (cap : ℕ) (ending : Ending) (chunks : List Bytes) (bodyOut : Bytes)
    (h : bodyOut.length < cap) : readBody cap ending bodyOut chunks =
      if cap ≤ (bodyOut ++ chunks.flatten).length then
        .returns ((bodyOut ++ chunks.flatten).take cap)
      else ending.answer (bodyOut ++ chunks.flatten) := by
  induction chunks generalizing bodyOut with
  | nil =>
    have hopen : ¬ cap ≤ (bodyOut ++ ([] : List Bytes).flatten).length := by
      simp only [List.flatten_nil, List.append_nil]
      omega
    rw [if_neg hopen, List.flatten_nil, List.append_nil, readBody]
  | cons chunk rest ih =>
    rw [readBody, List.flatten_cons, ← List.append_assoc]
    by_cases hfull : cap ≤ (bodyOut ++ chunk).length
    · have hlong : cap ≤ (bodyOut ++ chunk ++ rest.flatten).length := by
        rw [List.length_append]
        omega
      rw [if_pos hfull, if_pos hlong, List.take_append_of_le_length hfull]
    · rw [if_neg hfull]
      apply ih
      omega

theorem readBody_start (target : Target) (ending : Ending) (chunks : List Bytes) :
    readBody target.maxResponseBytes ending [] chunks =
      if target.maxResponseBytes ≤ chunks.flatten.length then
        .returns (chunks.flatten.take target.maxResponseBytes)
      else ending.answer chunks.flatten := by
  have hread := readBody_eq target.maxResponseBytes ending chunks [] target.max_pos
  simpa only [List.nil_append] using hread

theorem readBody_returns {body : Bytes}
    (h : readBody target.maxResponseBytes ending [] chunks = .returns body) :
    body = chunks.flatten.take target.maxResponseBytes ∧
      (chunks.flatten.length < target.maxResponseBytes → ending = .ends) := by
  rw [readBody_start] at h
  split at h
  · rename_i hfull
    refine ⟨(Answer.returns.inj h).symm, ?_⟩
    intro hopen
    omega
  · rename_i hopen
    cases ending with
    | ends =>
      refine ⟨?_, fun _ => rfl⟩
      rw [List.take_of_length_le (by omega)]
      exact (Answer.returns.inj h).symm
    | raises error => cases h
    | hangs => cases h

theorem readBody_raises {error : PyError}
    (h : readBody target.maxResponseBytes ending [] chunks = .raises error) :
    ∃ cause, error = requestFailed cause ∧ ending = .raises cause ∧
      chunks.flatten.length < target.maxResponseBytes := by
  rw [readBody_start] at h
  split at h
  · cases h
  · rename_i hopen
    cases ending with
    | ends => cases h
    | raises cause =>
      obtain rfl := Answer.raises.inj h
      exact ⟨cause, rfl, rfl, by omega⟩
    | hangs => cases h

theorem readBody_hangs (h : readBody target.maxResponseBytes ending [] chunks = .hangs) :
    ending = .hangs := by
  rw [readBody_start] at h
  split at h
  · cases h
  · cases ending with
    | ends => cases h
    | raises error => cases h
    | hangs => rfl

end Reading

section Sending

variable {target : Target} {method : String} {validated : ValidatedTarget} {headers : Headers}
  {body : Bytes}

theorem send_brings {response : Response}
    (h : send target method validated headers body = .returns response) :
    Brings target (target.request method validated.url headers body) response := by
  unfold send at h
  split at h
  · cases h
  · cases h
  · rename_i statusCode responseHeaders chunks ending hexchange
    rw [hexchange]
    split at h
    · rename_i read hread
      obtain rfl := Answer.returns.inj h
      obtain ⟨hbody, hending⟩ := readBody_returns hread
      exact ⟨chunks, ending, rfl, hbody, hending⟩
    · cases h
    · cases h

theorem send_fails {error : PyError}
    (h : send target method validated headers body = .raises error) :
    Fails target (target.request method validated.url headers body) error := by
  unfold send at h
  split at h
  · rename_i cause hexchange
    exact ⟨cause, (Answer.raises.inj h).symm, Or.inl hexchange⟩
  · cases h
  · rename_i statusCode responseHeaders chunks ending hexchange
    rw [hexchange]
    split at h
    · cases h
    · rename_i raised hread
      obtain rfl := Answer.raises.inj h
      obtain ⟨cause, hcause, rfl, hshort⟩ := readBody_raises hread
      exact ⟨cause, hcause, Or.inr ⟨statusCode, responseHeaders, chunks, rfl, hshort⟩⟩
    · cases h

theorem send_prompt (hprompt : Prompt target) :
    send target method validated headers body ≠ .hangs := by
  intro h
  obtain ⟨hreturns, hends⟩ := hprompt method validated.url headers body
  unfold send at h
  split at h
  · cases h
  · rename_i hexchange
    exact hreturns hexchange
  · rename_i statusCode responseHeaders chunks ending hexchange
    split at h
    · cases h
    · cases h
    · rename_i hread
      obtain rfl := readBody_hangs hread
      exact hends statusCode responseHeaders chunks hexchange

/-- The client has answered, or `send` has raised the error of the port. -/
theorem send_cases (hprompt : Prompt target) :
    (∃ response, send target method validated headers body = .returns response) ∨
      ∃ cause, send target method validated headers body = .raises (requestFailed cause) := by
  cases hsend : send target method validated headers body with
  | returns response => exact Or.inl ⟨response, rfl⟩
  | raises error =>
    obtain ⟨cause, rfl, -⟩ := send_fails hsend
    exact Or.inr ⟨cause, rfl⟩
  | hangs => exact absurd hsend (send_prompt hprompt)

end Sending

section Checking

variable {target : Target} {url : String} {validated : ValidatedTarget}

theorem validated_url {env : SafeReplayTarget.Collaborators}
    (h : SafeReplayTarget.validate env url = .ok validated) : validated.url = url := by
  unfold SafeReplayTarget.validate at h
  split at h
  · cases h
  · split at h
    · cases h
    · split at h
      · cases h
      · split at h
        · cases h
        · split at h
          · cases h
          · split at h
            · cases h
            · split at h
              · cases h
              · obtain ⟨ips, -, h⟩ := CaptureRequest.bind_ok h
                cases ips with
                | nil => cases h
                | cons ip ips =>
                  obtain ⟨-, -, h⟩ := CaptureRequest.bind_ok h
                  obtain rfl := Except.ok.inj h
                  rfl

theorem checked_of_validate (h : (validate target url) = .returns validated) :
    Checked target url validated := by
  unfold validate at h
  split at h
  · rename_i value hvalid
    obtain rfl := Answer.returns.inj h
    exact ⟨validated_url hvalid, hvalid, validate_ok hvalid⟩
  · cases h

/-- Where the check honours its port, it lets the URL pass or blocks it. -/
theorem validate_cases (h : WellBehaved target.net url) :
    (∃ value, validate target url = .returns value) ∨
      ∃ message, validate target url = .raises (.ssrfBlocked message) := by
  rcases honours_iff.mpr h with ⟨value, hvalue⟩ | ⟨message, hmessage⟩
  · exact Or.inl ⟨value, by simp [validate, hvalue]⟩
  · exact Or.inr ⟨message, by simp [validate, hmessage]⟩

end Checking

section UseCases

variable {target : Target}

theorem forward_checked {env : ExecuteForward.Collaborators} {clock : Clock} {forwardId : UUID}
    {row : Forward} {call : SendCall}
    (h : sent (forForwards env target) clock forwardId row = some call) :
    Checked target row.targetUrl call.validated := by
  obtain ⟨state, hstate, hcall⟩ := Option.bind_eq_some_iff.mp h
  have hurl : state.forward.targetUrl = row.targetUrl := by
    unfold claimedFor at hstate
    split at hstate
    · rename_i hclaim
      obtain rfl := hstate
      exact ((ConfigScope.claimPhase_origin hclaim).2 state rfl).1.target_eq
    · cases hstate
  unfold sendCall at hcall
  split at hcall
  · rename_i headers validated hheaders hvalid
    obtain rfl := Option.some.inj hcall
    rw [← hurl]
    exact checked_of_validate hvalid
  · cases hcall

theorem returns_of_await {α : Type} {answer : Answer α} {value : α}
    (h : answer.await = .ok value) : answer = .returns value := by
  cases answer with
  | returns value' => exact congrArg Answer.returns (Except.ok.inj h)
  | raises error => cases h
  | hangs => cases h

theorem replay_checked {env : ReplayRequest.Collaborators} {token : String}
    {args : ReplayRequest.Args} {db later : Database} {call : SendCall}
    (h : call ∈ (ReplayRequest.execute (forReplays env target) token args db later).sends) :
    Checked target args.targetUrl call.validated := by
  unfold ReplayRequest.execute at h
  split at h
  · cases h
  · rename_i state hstate
    unfold ReplayRequest.httpPhase at h
    split at h
    · cases h
    · split at h
      · rename_i validated hvalid
        have hreturns := returns_of_await hvalid
        obtain rfl := ReplayRequest.mem_sendPhase_sends h
        exact checked_of_validate hreturns
      · cases ReplayRequest.mem_recordPhase_sends h
      · cases h

/-- Every attempt of the worker ends with an answer that is recorded. -/
theorem deliver_settles (hprompt : Prompt target) (env : ExecuteForward.Collaborators)
    (state : ClaimedState) (headers : Headers)
    (hurl : WellBehaved target.net state.forward.targetUrl) :
    ∃ answer, deliver (forForwards env target) state headers = .ok answer := by
  rcases validate_cases hurl with ⟨validated, hvalid⟩ | ⟨message, hblocked⟩
  · rcases @send_cases target state.captured.method validated headers state.body hprompt with
      ⟨response, hsend⟩ | ⟨cause, hsend⟩
    · exact ⟨.status response.statusCode, by
        simp [deliver, forForwards, hvalid, hsend, Answer.await, bind, Except.bind]⟩
    · exact ⟨.requestFailed s!"{cause.typeName}: {cause.text}", by
        simp [deliver, forForwards, hvalid, hsend, Answer.await, bind, Except.bind,
          requestFailed]⟩
  · exact ⟨.ssrfBlocked message, by
      simp [deliver, forForwards, hblocked, Answer.await, bind, Except.bind]⟩

theorem replay_records (hprompt : Prompt target) (env : ReplayRequest.Collaborators)
    (args : ReplayRequest.Args) (state : ReplayRequest.AuthorizedState) (later : Database)
    (hurl : WellBehaved target.net args.targetUrl)
    (hsize : (ReplayRequest.sentBody args state).length ≤ ReplayRequest.maxReplayBodyBytes) :
    ∃ replay sends, replay.requestId = args.requestId ∧
      ReplayRequest.httpPhase (forReplays env target) args state later =
        ReplayRequest.recordPhase replay sends later := by
  have hfits : ¬ (ReplayRequest.sentBody args state).length > ReplayRequest.maxReplayBodyBytes := by
    omega
  unfold ReplayRequest.httpPhase
  rw [if_neg hfits]
  rcases validate_cases hurl with ⟨validated, hvalid⟩ | ⟨message, hblocked⟩
  · let call := ReplayRequest.outbound args state validated
    rcases @send_cases target call.method call.validated call.headers call.body hprompt with
      ⟨response, hsend⟩ | ⟨cause, hsend⟩
    · refine ⟨ReplayRequest.success (forReplays env target) args response, [call], rfl, ?_⟩
      simp [forReplays, hvalid, Answer.await, ReplayRequest.sendPhase, call, hsend]
    · refine ⟨ReplayRequest.failure (forReplays env target) args
        s!"{cause.typeName}: {cause.text}", [call], rfl, ?_⟩
      simp [forReplays, hvalid, Answer.await, ReplayRequest.sendPhase, call, hsend, requestFailed]
  · refine ⟨ReplayRequest.failure (forReplays env target) args s!"SsrfBlockedError: {message}",
      [], rfl, ?_⟩
    simp [forReplays, hblocked, Answer.await]

end UseCases

/-- Whatever the resolver and the client do, no request leaves for a URL that the check did not
let pass, what comes back is cut at the cap and raises nothing but the error of the port, and
where the check honours its port every attempt is settled and every replay recorded. -/
theorem makeSafeReplayTarget_guards (unicode : UrlSplit.Unicode) (getaddrinfo : List Char → Lookup)
    (request : String → String → Headers → Bytes → Exchange) :
    Guards (makeSafeReplayTarget unicode getaddrinfo request) where
  forwards _ _ _ _ _ h := forward_checked h
  replays _ _ _ _ _ _ h := replay_checked h
  brings _ _ _ _ _ h := send_brings h
  fails _ _ _ _ _ h := send_fails h
  settles hprompt env state headers hurl := deliver_settles hprompt env state headers hurl
  records hprompt env args state later hurl hsize :=
    replay_records hprompt env args state later hurl hsize

end Hooktrace.OutboundRequests
