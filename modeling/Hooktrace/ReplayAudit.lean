import Hooktrace.ColumnDomains
import Hooktrace.Json
import Hooktrace.ReplayRequest

/-!
Whether a replay leaves its row. The second transaction comes after the call of the target, and
its INSERT meets the columns: TEXT takes neither U+0000 nor a surrogate, JSONB takes surrogates
in pairs, the status is a SMALLINT. So the target's answers stand here as Python has them:
`Recordable` says which of them the row of the attempt can hold.
-/
namespace Hooktrace.ReplayAudit

open ColumnDomains (StorableText storableText_ofString)
open Delivery (SendCall)
open ExecuteForward (ValidatedTarget)
open Json (joinPair joinPair_eq)
open ReplayRequest (Args AuthorizedState Collaborators Failure authorizePhase outbound sentBody
  maxReplayBodyBytes replayResponseBodyPreviewBytes)

/-- The answer of `send`: any status, any headers, any body. -/
structure Response where
  statusCode : ℤ
  headers : PyDict PyStr PyStr
  body : Bytes

/-- `HttpReplayTarget`. The error of `validate` is an SsrfBlockedError, that of `send` an
HttpRequestFailedError, each by its message. -/
structure Port where
  validate : String → Except PyStr ValidatedTarget
  send : SendCall → Except PyStr Response

/-- The entity `Replay`. -/
structure Attempt where
  id : UUID
  requestId : UUID
  targetUrl : String
  statusCode : Option ℤ
  responseBodyPreview : Option String
  responseHeaders : Option (PyDict PyStr PyStr)
  error : Option PyStr
  durationMs : ℕ
  attemptedAt : Datetime
  deriving DecidableEq

/-- `Replay.success`. -/
def success (env : Collaborators) (args : Args) (response : Response) : Attempt where
  id := env.replayId
  requestId := args.requestId
  targetUrl := args.targetUrl
  statusCode := some response.statusCode
  responseBodyPreview :=
    some (decodeReplace (response.body.take replayResponseBodyPreviewBytes))
  responseHeaders := some response.headers
  error := none
  durationMs := env.durationMs
  attemptedAt := env.now

/-- `Replay.failure`. -/
def failure (env : Collaborators) (args : Args) (error : PyStr) : Attempt where
  id := env.replayId
  requestId := args.requestId
  targetUrl := args.targetUrl
  statusCode := none
  responseBodyPreview := none
  responseHeaders := none
  error := some error
  durationMs := env.durationMs
  attemptedAt := env.now

section Columns

/-- The text that JSONB reads out of the escapes of another. -/
def joined (text : PyStr) : PyStr := text.foldr joinPair []

/-- What JSONB holds of a dictionary; of two texts that it reads alike the last one stays. -/
def jsonb (d : PyDict PyStr PyStr) : PyDict PyStr PyStr :=
  d.items.foldl (fun held field => held.set (joined field.1) (joined field.2)) .empty

/-- A row that no column rejects, nor the CHECK on its outcome. -/
structure Storable (row : Attempt) : Prop where
  target : StorableText (.ofString row.targetUrl)
  status : ∀ status ∈ row.statusCode, -2 ^ 15 ≤ status ∧ status < 2 ^ 15
  preview : ∀ preview ∈ row.responseBodyPreview, StorableText (.ofString preview)
  headers : ∀ headers ∈ row.responseHeaders, ∀ field ∈ headers.items,
    StorableText (joined field.1) ∧ StorableText (joined field.2)
  error : ∀ error ∈ row.error, StorableText error
  duration : row.durationMs < 2 ^ 31
  outcome : row.statusCode.isSome ≠ row.error.isSome

instance (text : PyStr) : Decidable (StorableText text) := List.decidableBAll _ text

instance (row : Attempt) : Decidable (Storable row) :=
  decidable_of_iff
    (StorableText (.ofString row.targetUrl) ∧
      (∀ status ∈ row.statusCode, -2 ^ 15 ≤ status ∧ status < 2 ^ 15) ∧
      (∀ preview ∈ row.responseBodyPreview, StorableText (.ofString preview)) ∧
      (∀ headers ∈ row.responseHeaders, ∀ field ∈ headers.items,
        StorableText (joined field.1) ∧ StorableText (joined field.2)) ∧
      (∀ error ∈ row.error, StorableText error) ∧ row.durationMs < 2 ^ 31 ∧
      row.statusCode.isSome ≠ row.error.isSome)
    ⟨fun ⟨target, status, preview, headers, error, duration, outcome⟩ =>
        ⟨target, status, preview, headers, error, duration, outcome⟩,
      fun h => ⟨h.target, h.status, h.preview, h.headers, h.error, h.duration, h.outcome⟩⟩

end Columns

/-- The tables that the second transaction meets: the ids of the requests, and the replays. -/
structure Tables where
  requests : List UUID
  replays : List Attempt

def Attempt.stored (row : Attempt) : Attempt :=
  { row with responseHeaders := row.responseHeaders.map jsonb }

/-- `replay_repo.save`; `none` is an INSERT that the database or the driver rejects. -/
def Tables.save (row : Attempt) (t : Tables) : Option Tables :=
  if Storable row ∧ row.id ∉ t.replays.map Attempt.id ∧ row.requestId ∈ t.requests then
    some { t with replays := t.replays ++ [row.stored] }
  else none

/-- The calls of `target.send`, the `replay_attempt` metrics, the tables after the second
transaction, and the result. -/
structure Run where
  sends : List SendCall
  metrics : List String
  tables : Tables
  result : Except Failure Attempt

/-- `_record_phase` with the metric behind it. -/
def recordPhase (row : Attempt) (status : String) (sends : List SendCall) (t : Tables) : Run :=
  match t.save row with
  | some t' => ⟨sends, [status], t', .ok row⟩
  | none => ⟨sends, [], t, .error (.interrupted (.raised (.other "DBAPIError")))⟩

def ssrfBlocked (message : PyStr) : PyStr := .ofString "SsrfBlockedError: " ++ message

def metricStatus (statusCode : ℤ) : String :=
  if 200 ≤ statusCode ∧ statusCode < 300 then "success" else "target_error"

def sendPhase (port : Port) (env : Collaborators) (args : Args) (call : SendCall) (t : Tables) :
    Run :=
  match port.send call with
  | .ok response =>
    recordPhase (success env args response) (metricStatus response.statusCode) [call] t
  | .error message => recordPhase (failure env args message) "network_error" [call] t

/-- What follows the first transaction. -/
def httpPhase (port : Port) (env : Collaborators) (args : Args) (state : AuthorizedState)
    (later : Tables) : Run :=
  if (sentBody args state).length > maxReplayBodyBytes then
    ⟨[], ["payload_too_large"], later, .error
      (.payloadTooLarge s!"body {(sentBody args state).length} > {maxReplayBodyBytes}")⟩
  else match port.validate args.targetUrl with
    | .ok validated => sendPhase port env args (outbound args state validated) later
    | .error message =>
      recordPhase (failure env args (ssrfBlocked message)) "ssrf_blocked" [] later

/-- The metric of a request that is not authorized. -/
def refusalMetrics : Failure → List String
  | .endpointNotFound _ => ["endpoint_not_found"]
  | .requestNotFound _ => ["request_not_found"]
  | .payloadTooLarge _ => []
  | .interrupted _ => []

/-- `execute`; `later` are the tables that the second transaction meets. -/
def execute (port : Port) (env : Collaborators) (token : String) (args : Args) (db : Database)
    (later : Tables) : Run :=
  match authorizePhase env token args.requestId db with
  | .error failure => ⟨[], refusalMetrics failure, later, .error failure⟩
  | .ok state => httpPhase port env args state later

section Columns

/-- Without surrogates there is nothing to join. -/
theorem joined_eq {text : PyStr} (h : ∀ c ∈ text, isHighSurrogate c = false) :
    joined text = text := by
  induction text with
  | nil => rfl
  | cons c rest ih =>
    have hrest : rest.foldr joinPair [] = rest := ih fun d hd => h d (List.mem_cons_of_mem _ hd)
    show joinPair c (rest.foldr joinPair []) = c :: rest
    rw [hrest, joinPair_eq (h c List.mem_cons_self)]

theorem joined_storable {text : PyStr} (h : StorableText text) : joined text = text :=
  joined_eq fun c hc => (h c hc).2.1

theorem joined_ofString (s : String) : joined (.ofString s) = .ofString s := by
  refine joined_eq fun code hcode => ?_
  obtain ⟨c, -, rfl⟩ := List.mem_map.mp hcode
  exact (surrogate_toNat c).1

theorem jsonb_eq {d : PyDict PyStr PyStr}
    (h : ∀ field ∈ d.items, joined field.1 = field.1 ∧ joined field.2 = field.2) :
    jsonb d = d := by
  have hjoined : ∀ (held : PyDict PyStr PyStr), ∀ field ∈ d.items,
      held.set (joined field.1) (joined field.2) = held.set field.1 field.2 := by
    intro held field hfield
    rw [(h field hfield).1, (h field hfield).2]
  calc jsonb d = PyDict.empty.update d := List.foldl_ext _ _ _ hjoined
    _ = d := PyDict.empty_update d

/-- Everything that JSONB holds it has read out of a field. -/
theorem mem_jsonb {d : PyDict PyStr PyStr} {p : PyStr × PyStr} (h : p ∈ (jsonb d).items) :
    ∃ field ∈ d.items, p = (joined field.1, joined field.2) := by
  have hfold : ∀ (fields : List (PyStr × PyStr)) (held : PyDict PyStr PyStr),
      p ∈ (fields.foldl (fun held field => held.set (joined field.1) (joined field.2)) held).items →
      p ∈ held.items ∨ ∃ field ∈ fields, p = (joined field.1, joined field.2) := by
    intro fields
    induction fields with
    | nil => exact fun held hmem => Or.inl hmem
    | cons field rest ih =>
      intro held hmem
      rcases ih _ hmem with hset | ⟨field', hfield', hp⟩
      · rcases PyDict.mem_items_set hset with hp | hheld
        · exact Or.inr ⟨field, List.mem_cons_self, hp⟩
        · exact Or.inl hheld
      · exact Or.inr ⟨field', List.mem_cons_of_mem _ hfield', hp⟩
  rcases hfold _ _ h with hempty | hfield
  · simp [PyDict.empty] at hempty
  · exact hfield

/-- JSONB holds a dictionary as it is if and only if no text of it has a surrogate. -/
theorem jsonb_iff {d : PyDict PyStr PyStr} :
    (∀ field ∈ d.items, StorableText (joined field.1) ∧ StorableText (joined field.2)) ∧
      jsonb d = d ↔ ∀ field ∈ d.items, StorableText field.1 ∧ StorableText field.2 := by
  constructor
  · intro ⟨hjoined, heq⟩ p hp
    rw [← heq] at hp
    obtain ⟨field, hfield, rfl⟩ := mem_jsonb hp
    exact hjoined field hfield
  · intro h
    have hjoined : ∀ field ∈ d.items, joined field.1 = field.1 ∧ joined field.2 = field.2 :=
      fun field hfield => ⟨joined_storable (h field hfield).1, joined_storable (h field hfield).2⟩
    refine ⟨?_, jsonb_eq hjoined⟩
    intro field hfield
    rw [(hjoined field hfield).1, (hjoined field hfield).2]
    exact h field hfield

theorem storableText_append {s t : PyStr} :
    StorableText (s ++ t) ↔ StorableText s ∧ StorableText t := List.forall_mem_append

theorem storableText_ssrfBlocked {message : PyStr} :
    StorableText (ssrfBlocked message) ↔ StorableText message := by
  have hname : StorableText (.ofString "SsrfBlockedError: ") := by
    simp [storableText_ofString, nul]
  rw [ssrfBlocked, storableText_append]
  exact ⟨And.right, fun h => ⟨hname, h⟩⟩

/-- The preview of a body has the U+0000 of the bytes that it shows. -/
theorem storableText_preview {body : Bytes} :
    StorableText (.ofString (decodeReplace body)) ↔ 0 ∉ body := by
  rw [storableText_ofString, nul_mem_decodeReplace]

end Columns

theorem save_eq_some {t t' : Tables} {row : Attempt} : t.save row = some t' ↔
    Storable row ∧ row.id ∉ t.replays.map Attempt.id ∧ row.requestId ∈ t.requests ∧
      t' = { t with replays := t.replays ++ [row.stored] } := by
  unfold Tables.save
  split
  · rename_i h
    simp [h, eq_comm]
  · rename_i h
    simp only [reduceCtorEq, false_iff]
    intro hall
    exact h ⟨hall.1, hall.2.1, hall.2.2.1⟩

section Audit

inductive Outcome where
  | blocked (message : PyStr)
  | answered (response : Response)
  | failed (message : PyStr)

/-- What the target does with an authorized replay. -/
def outcomeOf (port : Port) (args : Args) (state : AuthorizedState) : Outcome :=
  match port.validate args.targetUrl with
  | .error message => .blocked message
  | .ok validated =>
    match port.send (outbound args state validated) with
    | .ok response => .answered response
    | .error message => .failed message

/-- A row that tells the outcome. -/
inductive Tells : Outcome → Attempt → Prop
  | blocked {message : PyStr} {row : Attempt} : row.statusCode = none →
      row.responseBodyPreview = none → row.responseHeaders = none →
      row.error = some (ssrfBlocked message) → Tells (.blocked message) row
  | answered {response : Response} {row : Attempt} :
      row.statusCode = some response.statusCode →
      row.responseBodyPreview = some (decodeReplace (response.body.take (4 * 1024))) →
      row.responseHeaders = some response.headers → row.error = none →
      Tells (.answered response) row
  | failed {message : PyStr} {row : Attempt} : row.statusCode = none →
      row.responseBodyPreview = none → row.responseHeaders = none → row.error = some message →
      Tells (.failed message) row

/-- One row more, which tells the outcome and is returned, and one metric. So no call of the
target goes without its row. -/
structure Audited (args : Args) (outcome : Outcome) (later : Tables) (run : Run) : Prop where
  row : ∃ row : Attempt, row.requestId = args.requestId ∧ row.targetUrl = args.targetUrl ∧
    Tells outcome row ∧ run.tables = { later with replays := later.replays ++ [row] } ∧
    run.result = .ok row
  metric : ∃ status, run.metrics = [status]

/-- What the columns can hold of an outcome. -/
def Representable : Outcome → Prop
  | .blocked message => StorableText message
  | .answered response => -2 ^ 15 ≤ response.statusCode ∧ response.statusCode < 2 ^ 15 ∧
      0 ∉ response.body.take (4 * 1024) ∧
      ∀ field ∈ response.headers.items, StorableText field.1 ∧ StorableText field.2
  | .failed message => StorableText message

/-- An outcome that the columns can hold, and a second transaction that finds the request
still there and the drawn id free. -/
structure Recordable (env : Collaborators) (args : Args) (outcome : Outcome) (later : Tables) :
    Prop where
  target : nul ∉ args.targetUrl.toList
  duration : env.durationMs < 2 ^ 31
  outcome : Representable outcome
  request : args.requestId ∈ later.requests
  fresh : env.replayId ∉ later.replays.map Attempt.id

variable {port : Port} {env : Collaborators} {token : String} {args : Args} {db : Database}
variable {later : Tables} {state : AuthorizedState} {outcome : Outcome}

/-- The row that the use case makes of an outcome, and the status of its metric. -/
def attempt (env : Collaborators) (args : Args) : Outcome → Attempt × String
  | .blocked message => (failure env args (ssrfBlocked message), "ssrf_blocked")
  | .answered response => (success env args response, metricStatus response.statusCode)
  | .failed message => (failure env args message, "network_error")

/-- Whatever the target does is recorded. -/
theorem execute_eq (hauthorized : authorizePhase env token args.requestId db = .ok state)
    (hlimit : (sentBody args state).length ≤ maxReplayBodyBytes) :
    ∃ sends, execute port env token args db later =
      recordPhase (attempt env args (outcomeOf port args state)).1
        (attempt env args (outcomeOf port args state)).2 sends later := by
  have hsmall : ¬ (sentBody args state).length > maxReplayBodyBytes := Nat.not_lt.mpr hlimit
  simp only [execute, hauthorized, httpPhase, if_neg hsmall, outcomeOf]
  cases hvalidate : port.validate args.targetUrl with
  | error message => exact ⟨_, rfl⟩
  | ok validated =>
    simp only [sendPhase]
    cases hsend : port.send (outbound args state validated) with
    | ok response => exact ⟨_, rfl⟩
    | error message => exact ⟨_, rfl⟩

theorem tells_attempt (outcome : Outcome) : Tells outcome (attempt env args outcome).1 := by
  cases outcome with
  | blocked message => exact .blocked rfl rfl rfl rfl
  | answered response => exact .answered rfl rfl rfl rfl
  | failed message => exact .failed rfl rfl rfl rfl

theorem storable_failure {error : PyStr} : Storable (failure env args error) ↔
    nul ∉ args.targetUrl.toList ∧ env.durationMs < 2 ^ 31 ∧ StorableText error := by
  rw [← storableText_ofString]
  constructor
  · intro h
    exact ⟨h.target, h.duration, h.error error rfl⟩
  · intro ⟨htarget, hduration, herror⟩
    refine ⟨htarget, ?_, ?_, ?_, ?_, hduration, by simp [failure]⟩
    · simp [failure]
    · simp [failure]
    · simp [failure]
    · intro error' herror'
      obtain rfl := Option.some.inj herror'
      exact herror

theorem storable_success {response : Response} : Storable (success env args response) ↔
    nul ∉ args.targetUrl.toList ∧ env.durationMs < 2 ^ 31 ∧ -2 ^ 15 ≤ response.statusCode ∧
      response.statusCode < 2 ^ 15 ∧ 0 ∉ response.body.take (4 * 1024) ∧
      ∀ field ∈ response.headers.items,
        StorableText (joined field.1) ∧ StorableText (joined field.2) := by
  rw [← storableText_ofString, ← storableText_preview]
  constructor
  · intro h
    have hstatus := h.status response.statusCode rfl
    exact ⟨h.target, h.duration, hstatus.1, hstatus.2, h.preview _ rfl, h.headers _ rfl⟩
  · intro ⟨htarget, hduration, hlower, hupper, hpreview, hheaders⟩
    refine ⟨htarget, ?_, ?_, ?_, ?_, hduration, by simp [success]⟩
    · intro status hstatus
      obtain rfl := Option.some.inj hstatus
      exact ⟨hlower, hupper⟩
    · intro preview hpreview'
      obtain rfl := Option.some.inj hpreview'
      exact hpreview
    · intro headers hheaders'
      obtain rfl := Option.some.inj hheaders'
      exact hheaders
    · simp [success]

/-- The row is stored as it is, if and only if the columns can hold the outcome. -/
theorem storable_attempt : Storable (attempt env args outcome).1 ∧
      (attempt env args outcome).1.stored = (attempt env args outcome).1 ↔
    nul ∉ args.targetUrl.toList ∧ env.durationMs < 2 ^ 31 ∧ Representable outcome := by
  cases outcome with
  | blocked message =>
    have hstored : (failure env args (ssrfBlocked message)).stored =
      failure env args (ssrfBlocked message) := rfl
    simp only [attempt, hstored, and_true, storable_failure, storableText_ssrfBlocked,
      Representable]
  | failed message =>
    have hstored : (failure env args message).stored = failure env args message := rfl
    simp only [attempt, hstored, and_true, storable_failure, Representable]
  | answered response =>
    have hstored : (success env args response).stored = success env args response ↔
        jsonb response.headers = response.headers := by
      simp [Attempt.stored, success]
    simp only [attempt, hstored, storable_success, Representable, ← jsonb_iff, and_assoc]

/-- What is recorded is audited if and only if the row can be stored as it is. -/
theorem audited_recordPhase {row : Attempt} {status : String} {sends : List SendCall}
    (hrequest : row.requestId = args.requestId) (htarget : row.targetUrl = args.targetUrl)
    (htells : Tells outcome row) :
    Audited args outcome later (recordPhase row status sends later) ↔
      Storable row ∧ row.stored = row ∧ row.id ∉ later.replays.map Attempt.id ∧
        args.requestId ∈ later.requests := by
  unfold recordPhase
  cases hsave : later.save row with
  | none =>
    constructor
    · intro h
      obtain ⟨_, -, -, -, -, hresult⟩ := h.row
      simp at hresult
    · intro ⟨hstorable, _, hfresh, hthere⟩
      have hsaved := save_eq_some.mpr ⟨hstorable, hfresh, hrequest ▸ hthere, rfl⟩
      simp [hsave] at hsaved
  | some t' =>
    obtain ⟨hstorable, hfresh, hthere, rfl⟩ := save_eq_some.mp hsave
    constructor
    · intro h
      obtain ⟨row', -, -, -, htables, hresult⟩ := h.row
      obtain rfl := Except.ok.inj hresult
      exact ⟨hstorable, by simpa using htables, hfresh, hrequest ▸ hthere⟩
    · intro h
      obtain ⟨-, hstored, -, -⟩ := h
      exact ⟨⟨row, hrequest, htarget, htells, by rw [hstored], rfl⟩, status, rfl⟩

/-- An authorized replay leaves its row and its metric, and returns the row, if and only if the
outcome can be recorded. -/
theorem audited_iff (hauthorized : authorizePhase env token args.requestId db = .ok state)
    (hlimit : (sentBody args state).length ≤ maxReplayBodyBytes) :
    Audited args (outcomeOf port args state) later (execute port env token args db later) ↔
      Recordable env args (outcomeOf port args state) later := by
  obtain ⟨sends, hexecute⟩ : ∃ sends, execute port env token args db later =
      recordPhase (attempt env args (outcomeOf port args state)).1
        (attempt env args (outcomeOf port args state)).2 sends later :=
    execute_eq hauthorized hlimit
  generalize outcomeOf port args state = outcome at hexecute ⊢
  have hrow : (attempt env args outcome).1.requestId = args.requestId ∧
      (attempt env args outcome).1.targetUrl = args.targetUrl ∧
      (attempt env args outcome).1.id = env.replayId := by
    cases outcome <;> exact ⟨rfl, rfl, rfl⟩
  rw [hexecute, audited_recordPhase hrow.1 hrow.2.1 (tells_attempt outcome), ← and_assoc,
    storable_attempt, hrow.2.2]
  constructor
  · intro ⟨⟨htarget, hduration, houtcome⟩, hfresh, hrequest⟩
    exact ⟨htarget, hduration, houtcome, hrequest, hfresh⟩
  · intro h
    exact ⟨⟨h.target, h.duration, h.outcome⟩, h.fresh, h.request⟩

def samplePort (response : Response) : Port where
  validate url := .ok ⟨url, "target.example.com", 443, "198.51.100.9"⟩
  send _ := .ok response

def sampleCollaborators : Collaborators where
  blobGet _ := .returns none
  validate _ := .hangs
  send _ _ _ _ := .hangs
  replayId := sampleForwardId
  now := seconds 3000
  durationMs := 12

def sampleArgs : Args := ⟨sampleRequest.id, "https://target.example.com/", true, true⟩

def sampleDatabase : Database := ⟨[sampleEndpoint], [sampleRequest], [], []⟩

def sampleState : AuthorizedState := ⟨sampleEndpoint, sampleRequest, encodeUtf8 "ping"⟩

theorem authorized_sample :
    authorizePhase sampleCollaborators "tok" sampleArgs.requestId sampleDatabase =
      .ok sampleState := rfl

def sampleTables : Tables := ⟨[sampleRequest.id], []⟩

def pong : Response := ⟨200, .empty, encodeUtf8 "pong"⟩

theorem pong_audited : Audited sampleArgs (.answered pong) sampleTables
    (execute (samplePort pong) sampleCollaborators "tok" sampleArgs sampleDatabase
      sampleTables) := by
  have hrecordable : Recordable sampleCollaborators sampleArgs
      (outcomeOf (samplePort pong) sampleArgs sampleState) sampleTables :=
    { target := by decide +kernel
      duration := by decide +kernel
      outcome := ⟨by decide, by decide, by decide +kernel, fun _ h => absurd h List.not_mem_nil⟩
      request := by decide +kernel
      fresh := List.not_mem_nil }
  exact (audited_iff authorized_sample (by decide +kernel)).mpr hrecordable

def zero : Response := ⟨200, .empty, [0]⟩

/-- A body of one zero byte goes unrecorded, though the target got the request. -/
theorem zero_unrecorded :
    authorizePhase sampleCollaborators "tok" sampleArgs.requestId sampleDatabase =
      .ok sampleState ∧
    (sentBody sampleArgs sampleState).length ≤ maxReplayBodyBytes ∧
    (execute (samplePort zero) sampleCollaborators "tok" sampleArgs sampleDatabase
      sampleTables).sends ≠ [] ∧
    ¬ Audited sampleArgs (outcomeOf (samplePort zero) sampleArgs sampleState) sampleTables
      (execute (samplePort zero) sampleCollaborators "tok" sampleArgs sampleDatabase
        sampleTables) := by
  refine ⟨rfl, by decide +kernel, by decide +kernel, ?_⟩
  intro h
  obtain ⟨status, hmetric⟩ := h.metric
  have hnone : (execute (samplePort zero) sampleCollaborators "tok" sampleArgs sampleDatabase
      sampleTables).metrics = [] := by
    decide +kernel
  simp [hnone] at hmetric

end Audit

section Refinement

def textHeaders (headers : Headers) : PyDict PyStr PyStr where
  items := headers.items.map fun field => (.ofString field.1, .ofString field.2)
  nodup := by
    rw [List.map_map]
    have hkeys : headers.items.map (Prod.fst ∘ fun field =>
        (PyStr.ofString field.1, PyStr.ofString field.2)) =
        (headers.items.map Prod.fst).map PyStr.ofString := by simp
    rw [hkeys]
    exact headers.nodup.map PyStr.ofString_injective

def ofReplay (replay : Replay) : Attempt where
  id := replay.id
  requestId := replay.requestId
  targetUrl := replay.targetUrl
  statusCode := replay.statusCode.map Nat.cast
  responseBodyPreview := replay.responseBodyPreview
  responseHeaders := replay.responseHeaders.map textHeaders
  error := replay.error.map PyStr.ofString
  durationMs := replay.durationMs
  attemptedAt := replay.attemptedAt

def tablesOf (db : Database) : Tables :=
  ⟨db.requests.map CapturedRequest.id, db.replays.map ofReplay⟩

/-- The port answers as the target of the collaborators does. -/
structure Answers (env : Collaborators) (port : Port) : Prop where
  validated : ∀ url validated, env.validate url = .returns validated →
    port.validate url = .ok validated
  blocked : ∀ url message, env.validate url = .raises (.ssrfBlocked message) →
    port.validate url = .error (.ofString message)
  answered : ∀ (call : SendCall) response,
    env.send call.method call.validated call.headers call.body = .returns response →
    port.send call = .ok ⟨response.statusCode, textHeaders response.headers, response.body⟩
  failed : ∀ (call : SendCall) message kind,
    env.send call.method call.validated call.headers call.body =
      .raises (.httpRequestFailed message kind) → port.send call = .error (.ofString message)

theorem stored_ofReplay (replay : Replay) : (ofReplay replay).stored = ofReplay replay := by
  have hjsonb : ∀ headers, jsonb (textHeaders headers) = textHeaders headers := by
    intro headers
    refine jsonb_eq fun field hfield => ?_
    obtain ⟨field, -, rfl⟩ := List.mem_map.mp hfield
    exact ⟨joined_ofString _, joined_ofString _⟩
  cases hheaders : replay.responseHeaders <;> simp [Attempt.stored, ofReplay, hheaders, hjsonb]

theorem save_ofReplay {replay : Replay} {later db' : Database}
    (hsave : later.saveReplay replay = some db') (hstorable : Storable (ofReplay replay)) :
    (tablesOf later).save (ofReplay replay) = some (tablesOf db') := by
  obtain ⟨rfl, hfresh, hreferences⟩ := Database.save_eq_some hsave
  refine save_eq_some.mpr ⟨hstorable, ?_, ?_, ?_⟩
  · intro hmem
    simp only [tablesOf, List.map_map, List.mem_map] at hmem
    obtain ⟨other, hother, hid⟩ := hmem
    exact hfresh (List.mem_map.mpr ⟨.replay other, Database.replay_mem_rows.mpr hother,
      congrArg (Prod.mk TableName.replays) hid⟩)
  · obtain ⟨row, hrow, hkey⟩ := List.mem_map.mp (hreferences _ List.mem_cons_self)
    cases row with
    | request r =>
      exact List.mem_map.mpr ⟨r, Database.request_mem_rows.mp hrow, congrArg Prod.snd hkey⟩
    | _ => simp [schema, Row.key] at hkey
  · simp [tablesOf, Database.put, stored_ofReplay]

/-- The record of a replay here is that of the use case over the whole database. -/
theorem recordPhase_ofReplay {replay returned : Replay} {sends : List SendCall}
    {later : Database} (status : String)
    (hresult : (ReplayRequest.recordPhase replay sends later).result = .ok returned)
    (hstorable : Storable (ofReplay returned)) :
    recordPhase (ofReplay replay) status sends (tablesOf later) =
      ⟨sends, [status], tablesOf (ReplayRequest.recordPhase replay sends later).db,
        .ok (ofReplay returned)⟩ := by
  unfold ReplayRequest.recordPhase at hresult ⊢
  cases hsave : later.saveReplay replay with
  | none => simp [hsave] at hresult
  | some db' =>
    simp only [hsave, Except.ok.injEq] at hresult
    subst hresult
    simp [recordPhase, save_ofReplay hsave hstorable]

theorem sends_recordPhase (replay : Replay) (sends : List SendCall) (later : Database) :
    (ReplayRequest.recordPhase replay sends later).sends = sends := by
  unfold ReplayRequest.recordPhase
  split <;> rfl

theorem ofReplay_failure (env : Collaborators) (args : Args) (error : String) :
    ofReplay (ReplayRequest.failure env args error) = failure env args (.ofString error) := rfl

theorem ofReplay_success (env : Collaborators) (args : Args)
    (response : ExecuteForward.Response) :
    ofReplay (ReplayRequest.success env args response) =
      success env args
        ⟨response.statusCode, textHeaders response.headers, response.body⟩ := rfl

theorem ssrfBlocked_ofString (message : String) :
    ssrfBlocked (.ofString message) = .ofString s!"SsrfBlockedError: {message}" := by
  simp [ssrfBlocked, PyStr.ofString, toString]

section Runs

variable {port : Port} {env : Collaborators} {token : String} {args : Args}
variable {db later : Database} {replay : Replay}

theorem sendPhase_ofReplay {state : AuthorizedState} {validated : ValidatedTarget}
    (hport : Answers env port)
    (hresult : (ReplayRequest.sendPhase env args state validated later).result = .ok replay)
    (hstorable : Storable (ofReplay replay)) :
    ∃ status, sendPhase port env args (outbound args state validated) (tablesOf later) =
      ⟨(ReplayRequest.sendPhase env args state validated later).sends, [status],
        tablesOf (ReplayRequest.sendPhase env args state validated later).db,
        .ok (ofReplay replay)⟩ := by
  unfold ReplayRequest.sendPhase at hresult ⊢
  dsimp only at hresult ⊢
  cases hsend : env.send (outbound args state validated).method
      (outbound args state validated).validated (outbound args state validated).headers
      (outbound args state validated).body with
  | hangs => simp [hsend, ExecuteForward.Answer.await] at hresult
  | raises error =>
    cases error with
    | httpRequestFailed message kind =>
      simp only [hsend, ExecuteForward.Answer.await] at hresult ⊢
      simp only [sendPhase, hport.failed _ _ _ hsend, ← ofReplay_failure, sends_recordPhase]
      exact ⟨_, recordPhase_ofReplay _ hresult hstorable⟩
    | _ => simp [hsend, ExecuteForward.Answer.await] at hresult
  | returns response =>
    simp only [hsend, ExecuteForward.Answer.await] at hresult ⊢
    simp only [sendPhase, hport.answered _ _ hsend, ← ofReplay_success, sends_recordPhase]
    exact ⟨_, recordPhase_ofReplay _ hresult hstorable⟩

/-- Where the target answers in characters, a replay that the use case over the whole database
returns is sent, stored and returned here too, unless a column rejects its row. -/
theorem execute_ofReplay (hport : Answers env port)
    (hresult : (ReplayRequest.execute env token args db later).result = .ok replay)
    (hstorable : Storable (ofReplay replay)) :
    ∃ status, execute port env token args db (tablesOf later) =
      ⟨(ReplayRequest.execute env token args db later).sends, [status],
        tablesOf (ReplayRequest.execute env token args db later).db, .ok (ofReplay replay)⟩ := by
  cases hauthorized : authorizePhase env token args.requestId db with
  | error failure => simp [ReplayRequest.execute, hauthorized] at hresult
  | ok state =>
    simp only [ReplayRequest.execute, hauthorized, ReplayRequest.httpPhase] at hresult
    simp only [ReplayRequest.execute, execute, hauthorized, ReplayRequest.httpPhase, httpPhase]
    by_cases hlimit : (sentBody args state).length > maxReplayBodyBytes
    · simp [hlimit] at hresult
    simp only [if_neg hlimit] at hresult ⊢
    cases hvalidate : env.validate args.targetUrl with
    | hangs => simp [hvalidate, ExecuteForward.Answer.await] at hresult
    | raises error =>
      cases error with
      | ssrfBlocked message =>
        simp only [hvalidate, ExecuteForward.Answer.await] at hresult ⊢
        simp only [hport.blocked _ _ hvalidate, ssrfBlocked_ofString, ← ofReplay_failure,
          sends_recordPhase]
        exact ⟨_, recordPhase_ofReplay _ hresult hstorable⟩
      | _ => simp [hvalidate, ExecuteForward.Answer.await] at hresult
    | returns validated =>
      simp only [hvalidate, ExecuteForward.Answer.await] at hresult ⊢
      simp only [hport.validated _ _ hvalidate]
      exact sendPhase_ofReplay hport hresult hstorable

end Runs

end Refinement

end Hooktrace.ReplayAudit
