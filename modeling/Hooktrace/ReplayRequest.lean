import Hooktrace.Database
import Hooktrace.Delivery
import Hooktrace.PyText
import Hooktrace.RequestRepository

/-!
The replay use case: authorize and load in a first transaction, send with none open, store
the replay in a second one, which meets the tables as the other sessions have left them.
-/
namespace Hooktrace.ReplayRequest

open Database
open ExecuteForward (Answer Interrupt PyError Response ValidatedTarget headersToStripFromCaptured)
open Delivery (SendCall)

def maxReplayBodyBytes : ℕ := 1 * 1024 * 1024

def replayResponseBodyPreviewBytes : ℕ := 4 * 1024

structure Args where
  requestId : UUID
  targetUrl : String
  includeHeaders : Bool
  includeBody : Bool

structure Collaborators where
  blobGet : String → Answer (Option Bytes)
  validate : String → Answer ValidatedTarget
  send : String → ValidatedTarget → Headers → Bytes → Answer Response
  replayId : UUID
  now : Datetime
  durationMs : ℕ

inductive Failure where
  | endpointNotFound (message : String)
  | requestNotFound (message : String)
  | payloadTooLarge (message : String)
  | interrupted (interrupt : Interrupt)
  deriving DecidableEq

structure AuthorizedState where
  endpoint : Endpoint
  captured : CapturedRequest
  body : Bytes

def loadBody (env : Collaborators) (captured : CapturedRequest) : Except Failure Bytes :=
  match captured.blobKey with
  | some key =>
    match (env.blobGet key).await with
    | .ok body => .ok (body.getD [])
    | .error interrupt => .error (.interrupted interrupt)
  | none => .ok (encodeUtf8 (captured.bodyPreview.getD ""))

def requestNotFound (token : String) (requestId : UUID) : Failure :=
  .requestNotFound s!"request {requestId.str} not owned by endpoint {token}"

def authorizePhase (env : Collaborators) (token : String) (requestId : UUID) (db : Database) :
    Except Failure AuthorizedState :=
  match EndpointRepository.findByToken token db.endpoints with
  | none => .error (.endpointNotFound token)
  | some endpoint =>
    match RequestRepository.findById requestId db.requests with
    | none => .error (requestNotFound token requestId)
    | some captured =>
      if captured.endpointId ≠ endpoint.id then .error (requestNotFound token requestId)
      else do
        let body ← loadBody env captured
        pure ⟨endpoint, captured, body⟩

/-- `state.body if include_body else b""`. -/
def sentBody (args : Args) (state : AuthorizedState) : Bytes :=
  if args.includeBody then state.body else []

/-- What is to be sent, once the validator of targets has answered. -/
def outbound (args : Args) (state : AuthorizedState) (validated : ValidatedTarget) : SendCall where
  method := state.captured.method
  validated := validated
  headers := if args.includeHeaders
    then state.captured.headers.filterKeys fun k => !(k.toLower ∈ headersToStripFromCaptured)
    else .empty
  body := sentBody args state

/-- `Replay.success`. -/
def success (env : Collaborators) (args : Args) (response : Response) : Replay where
  id := env.replayId
  requestId := args.requestId
  targetUrl := args.targetUrl
  statusCode := some response.statusCode
  responseBodyPreview :=
    some (decodeReplace (response.body.take replayResponseBodyPreviewBytes))
  responseHeaders := some response.headers
  error := none
  durationMs := env.durationMs
  attemptedAt := env.now

/-- `Replay.failure`. -/
def failure (env : Collaborators) (args : Args) (error : String) : Replay where
  id := env.replayId
  requestId := args.requestId
  targetUrl := args.targetUrl
  statusCode := none
  responseBodyPreview := none
  responseHeaders := none
  error := some error
  durationMs := env.durationMs
  attemptedAt := env.now

structure Replayed where
  sends : List SendCall
  db : Database
  result : Except Failure Replay

/-- `_record_phase`; an INSERT that is rejected leaves the use case by an exception. -/
def recordPhase (replay : Replay) (sends : List SendCall) (db : Database) : Replayed :=
  match db.saveReplay replay with
  | some db' => ⟨sends, db', .ok replay⟩
  | none => ⟨sends, db, .error (.interrupted (.raised (.other "IntegrityError")))⟩

def sendPhase (env : Collaborators) (args : Args) (state : AuthorizedState)
    (validated : ValidatedTarget) (db : Database) : Replayed :=
  let call := outbound args state validated
  match (env.send call.method call.validated call.headers call.body).await with
  | .ok response => recordPhase (success env args response) [call] db
  | .error (.raised (.httpRequestFailed message _)) =>
    recordPhase (failure env args message) [call] db
  | .error interrupt => ⟨[call], db, .error (.interrupted interrupt)⟩

/-- What follows the first transaction; `later` are the tables that the second one meets. -/
def httpPhase (env : Collaborators) (args : Args) (state : AuthorizedState) (later : Database) :
    Replayed :=
  if (sentBody args state).length > maxReplayBodyBytes then
    ⟨[], later, .error
      (.payloadTooLarge s!"body {(sentBody args state).length} > {maxReplayBodyBytes}")⟩
  else match (env.validate args.targetUrl).await with
    | .ok validated => sendPhase env args state validated later
    | .error (.raised (.ssrfBlocked message)) =>
      recordPhase (failure env args s!"SsrfBlockedError: {message}") [] later
    | .error interrupt => ⟨[], later, .error (.interrupted interrupt)⟩

def execute (env : Collaborators) (token : String) (args : Args) (db later : Database) :
    Replayed :=
  match authorizePhase env token args.requestId db with
  | .error failure => ⟨[], later, .error failure⟩
  | .ok state => httpPhase env args state later

section Lemmas

variable {env : Collaborators} {token : String} {args : Args} {db later : Database}

/-- Who is authorized holds a request that the endpoint of the token captured. -/
theorem authorizePhase_ok {requestId : UUID} {state : AuthorizedState}
    (h : authorizePhase env token requestId db = .ok state) :
    EndpointRepository.findByToken token db.endpoints = some state.endpoint ∧
      RequestRepository.findById requestId db.requests = some state.captured ∧
      state.captured.endpointId = state.endpoint.id ∧
      loadBody env state.captured = .ok state.body := by
  unfold authorizePhase at h
  split at h
  · simp at h
  · rename_i endpoint hendpoint
    split at h
    · simp at h
    · rename_i captured hcaptured
      split at h
      · simp at h
      · rename_i hown
        cases hbody : loadBody env captured with
        | error failure => simp [hbody, bind, Except.bind] at h
        | ok body =>
          simp only [hbody, bind, Except.bind, pure, Except.pure, Except.ok.injEq] at h
          subst h
          exact ⟨hendpoint, hcaptured, not_not.mp hown, hbody⟩

/-- Who asks for a request of another endpoint, or for none, is not told which. -/
theorem authorizePhase_refused {requestId : UUID} {endpoint : Endpoint}
    (hendpoint : EndpointRepository.findByToken token db.endpoints = some endpoint)
    (h : ∀ r ∈ db.requests, r.id = requestId → r.endpointId ≠ endpoint.id) :
    authorizePhase env token requestId db = .error (requestNotFound token requestId) := by
  simp only [authorizePhase, hendpoint]
  cases hcaptured : RequestRepository.findById requestId db.requests with
  | none => rfl
  | some captured =>
    obtain ⟨hmem, hid⟩ := Table.mem_of_find hcaptured
    simp [h captured hmem hid]

/-- The tables after the second transaction have the replay besides what they had, or not
even that. -/
def AddsReplay (requestId : UUID) (later db : Database) : Prop :=
  db = later ∨ ∃ replay : Replay, replay.requestId = requestId ∧ db = later.put (.replay replay)

theorem recordPhase_db {replay : Replay} (h : replay.requestId = args.requestId)
    (sends : List SendCall) (later : Database) :
    AddsReplay args.requestId later (recordPhase replay sends later).db := by
  unfold recordPhase
  cases hsave : later.saveReplay replay with
  | none => exact Or.inl rfl
  | some db' => exact Or.inr ⟨replay, h, (save_eq_some hsave).1⟩

theorem sendPhase_db (state : AuthorizedState) (validated : ValidatedTarget) :
    AddsReplay args.requestId later (sendPhase env args state validated later).db := by
  unfold sendPhase
  dsimp only
  split
  · exact recordPhase_db rfl _ _
  · exact recordPhase_db rfl _ _
  · exact Or.inl rfl

theorem httpPhase_db (state : AuthorizedState) (later : Database) :
    AddsReplay args.requestId later (httpPhase env args state later).db := by
  unfold httpPhase
  split
  · exact Or.inl rfl
  · split
    · exact sendPhase_db _ _
    · exact recordPhase_db rfl _ _
    · exact Or.inl rfl

theorem mem_recordPhase_sends {replay : Replay} {sends : List SendCall} {call : SendCall}
    (h : call ∈ (recordPhase replay sends later).sends) : call ∈ sends := by
  unfold recordPhase at h
  split at h <;> exact h

theorem mem_sendPhase_sends {state : AuthorizedState} {validated : ValidatedTarget}
    {call : SendCall} (h : call ∈ (sendPhase env args state validated later).sends) :
    call = outbound args state validated := by
  unfold sendPhase at h
  dsimp only at h
  split at h
  · exact List.mem_singleton.mp (mem_recordPhase_sends h)
  · exact List.mem_singleton.mp (mem_recordPhase_sends h)
  · exact List.mem_singleton.mp h

/-- What is sent is made of the request that was authorized. -/
theorem mem_sends {call : SendCall} (h : call ∈ (execute env token args db later).sends) :
    ∃ state validated, authorizePhase env token args.requestId db = .ok state ∧
      call = outbound args state validated := by
  unfold execute at h
  split at h
  · simp at h
  · rename_i state hstate
    unfold httpPhase at h
    split at h
    · simp at h
    · split at h
      · exact ⟨state, _, hstate, mem_sendPhase_sends h⟩
      · simpa using mem_recordPhase_sends h
      · simp at h

end Lemmas

end Hooktrace.ReplayRequest
