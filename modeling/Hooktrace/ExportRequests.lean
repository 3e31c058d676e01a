import Hooktrace.EndpointRepository
import Hooktrace.ExecuteForward
import Hooktrace.JsonDumps
import Hooktrace.PagedWalk
import Hooktrace.RequestRepository

/-!
The export of an endpoint's requests. The count, which the header gives, and the rows come from
two statements, each with a snapshot of its own; the document is the dumped header without its
last brace, the rows between commas, and the end. What it says is one value; the number in the
header is that of the rows if the two snapshots agree about it (`exported_iff`).
-/
namespace Hooktrace.ExportRequests

open ExecuteForward (Answer Interrupt)
open JsonDumps JsonText
open Keyset PagedWalk
open RequestRepository (countByEndpoint listingColumns streamForExport)
open Table (UniqueKeys)

section Isoformat

/-- The year, month and day of a day after 1970-01-01. -/
def civil (days : ℤ) : ℤ × ℤ × ℤ :=
  -- eras of 400 years, which begin on March 1
  let shifted := days + 719468
  let era := shifted / 146097
  let dayOfEra := shifted % 146097
  let yearOfEra := (dayOfEra - dayOfEra / 1460 + dayOfEra / 36524 - dayOfEra / 146096) / 365
  let dayOfYear := dayOfEra - (365 * yearOfEra + yearOfEra / 4 - yearOfEra / 100)
  let monthFromMarch := (5 * dayOfYear + 2) / 153
  let day := dayOfYear - (153 * monthFromMarch + 2) / 5 + 1
  let month := if monthFromMarch < 10 then monthFromMarch + 3 else monthFromMarch - 9
  (yearOfEra + era * 400 + (if month ≤ 2 then 1 else 0), month, day)

def padded (width : ℕ) (n : ℤ) : String :=
  .ofList ((toString n).toList.leftpad width '0')

/-- `dt.isoformat()` of a `datetime` without a time zone, as the columns give it back. -/
def isoformat (dt : Datetime) : String :=
  let (year, month, day) := civil (dt / 86400000000)
  let second := dt / 1000000 % 86400
  let micro := dt % 1000000
  s!"{padded 4 year}-{padded 2 month}-{padded 2 day}T{padded 2 (second / 3600)}" ++
    s!":{padded 2 (second / 60 % 60)}:{padded 2 (second % 60)}" ++
    (if micro = 0 then "" else s!".{padded 6 micro}")

/-- `datetime.now(UTC).isoformat()`. -/
def isoformatUtc (now : Datetime) : String := isoformat now ++ "+00:00"

example : (isoformat 0, isoformat (seconds 951782399), isoformatUtc 1779122575744104) =
    ("1970-01-01T00:00:00", "2000-02-28T23:59:59", "2026-05-18T16:42:55.744104+00:00") := by
  decide +kernel

end Isoformat

structure Collaborators where
  blobGet : String → Answer (Option Bytes)
  now : Datetime
  maxRequests : ℤ

inductive Failure where
  | endpointNotFound (message : String)
  | exportTooLarge (message : String)
  | interrupted (interrupt : Interrupt)
  deriving DecidableEq

/-- The chunks that are yielded, and the exception that ends them. -/
structure Export where
  chunks : List Bytes
  failure : Option Failure
  deriving DecidableEq

def interruptedBy (name : String) : Failure := .interrupted (.raised (.other name))

def resolveBody (env : Collaborators) (req : CapturedRequest) :
    Except Interrupt (Option String) :=
  match req.blobKey with
  | none => .ok req.bodyPreview
  | some key =>
    match (env.blobGet key).await with
    | .error interrupt => .error interrupt
    | .ok none => .ok none
    | .ok (some raw) => .ok (some ((decodeUtf8 raw).getD (reprBytes raw)))

def ofHeaders (headers : Headers) : PyValue :=
  .dict (headers.items.map fun field => (field.1, .str field.2))

def ofText : Option String → PyValue
  | none => .none
  | some text => .str text

def requestToDict (req : CapturedRequest) (body : Option String) : PyValue :=
  .dict [("id", .str req.id.str), ("method", .str req.method), ("path", .str req.path),
    ("headers", ofHeaders req.headers), ("body", ofText body), ("body_size", .int req.bodySize),
    ("received_at", .str (isoformat req.receivedAt))]

def header (endpoint : Endpoint) (now : Datetime) (total : ℕ) : List (String × PyValue) :=
  [("endpoint", .dict [("token", .str endpoint.token),
      ("created_at", .str (isoformat endpoint.createdAt)),
      ("expires_at", .str (isoformat endpoint.expiresAt)),
      ("response", .dict [("status_code", .int endpoint.responseStatusCode),
        ("body", .str endpoint.responseBody), ("headers", ofHeaders endpoint.responseHeaders),
        ("delay_ms", .int endpoint.responseDelayMs)])]),
    ("exported_at", .str (isoformatUtc now)), ("exported_request_count", .int total)]

/-- `s.encode()`. -/
def encode (s : List Char) : Bytes := encodeUtf8 (.ofList s)

/-- The loop over the rows, and the end of the document; the comma goes out before the body is
fetched. -/
def rowChunks (env : Collaborators) (first : Bool) : List CapturedRequest → Export
  | [] => ⟨[encode [']', '}']], none⟩
  | req :: rows =>
    let comma := if first then [] else [encode [',']]
    match resolveBody env req with
    | .error interrupt => ⟨comma, some (.interrupted interrupt)⟩
    | .ok body =>
      let rest := rowChunks env false rows
      ⟨comma ++ encode (dumps (requestToDict req body)) :: rest.chunks, rest.failure⟩

/-- `_stream`, on the requests that the stream of rows sees. -/
def stream (env : Collaborators) (endpoint : Endpoint) (total : ℕ)
    (requests : List CapturedRequest) : Export :=
  let dumped := dumps (.dict (header endpoint env.now total))
  if dumped.getLast? ≠ some '}' then ⟨[], some (interruptedBy "AssertionError")⟩
  else
    let prefixed := encode (dumped.dropLast ++ ",\"requests\":[".toList)
    match streamForExport endpoint.id env.maxRequests requests with
    | none => ⟨[prefixed], some (interruptedBy "DBAPIError")⟩
    | some rows =>
      let rest := rowChunks env true rows
      ⟨prefixed :: rest.chunks, rest.failure⟩

/-- `execute`, on what the three statements see: the endpoints, the requests that are counted,
and those that are streamed. -/
def execute (env : Collaborators) (token : String) (endpoints : List Endpoint)
    (counted streamed : List CapturedRequest) : Export :=
  match EndpointRepository.findByToken token endpoints with
  | none => ⟨[], some (.endpointNotFound token)⟩
  | some endpoint =>
    let total := countByEndpoint endpoint.id counted
    if (total : ℤ) > env.maxRequests then
      ⟨[], some (.exportTooLarge (s!"Export exceeds {env.maxRequests} requests " ++
        "(filter then export will land in V3)."))⟩
    else stream env endpoint total streamed

section Framing

theorem encode_append (s t : List Char) : encode (s ++ t) = encode s ++ encode t := by
  rw [encode, String.ofList_append, encodeUtf8_append]
  rfl

theorem decode_encode (s : List Char) : decodeUtf8 (encode s) = some (.ofList s) :=
  decodeUtf8_eq_some.mpr rfl

def rowsText (first : Bool) : List PyValue → List Char
  | [] => [']', '}']
  | row :: rows => (if first then [] else [',']) ++ dumps row ++ rowsText false rows

def Resolved (env : Collaborators) (rows : List CapturedRequest) (values : List PyValue) : Prop :=
  List.Forall₂ (fun req value => ∃ body, resolveBody env req = .ok body ∧
    value = requestToDict req body) rows values

theorem rowChunks_eq {env : Collaborators} {rows : List CapturedRequest}
    {values : List PyValue} (h : Resolved env rows values) (first : Bool) :
    (rowChunks env first rows).failure = none ∧
      (rowChunks env first rows).chunks.flatten = encode (rowsText first values) := by
  induction h generalizing first with
  | nil => simp [rowChunks, rowsText]
  | @cons req value rows values hvalue hrows ih =>
    obtain ⟨body, hbody, rfl⟩ := hvalue
    obtain ⟨hfailure, hchunks⟩ := ih false
    refine ⟨by simp [rowChunks, hbody, hfailure], ?_⟩
    cases first with
    | true => simp [rowChunks, hbody, hchunks, rowsText, encode_append]
    | false =>
      have hcomma : encode (',' :: (dumps (requestToDict req body) ++ rowsText false values)) =
          encode [','] ++ (encode (dumps (requestToDict req body)) ++
            encode (rowsText false values)) := by
        rw [← encode_append, ← encode_append]
        rfl
      simp [rowChunks, hbody, hchunks, rowsText, hcomma]

/-- Rows whose bodies are all fetched have values; otherwise the export breaks off. -/
theorem rowChunks_failure {env : Collaborators} {rows : List CapturedRequest} {first : Bool}
    (h : (rowChunks env first rows).failure = none) : ∃ values, Resolved env rows values := by
  induction rows generalizing first with
  | nil => exact ⟨[], .nil⟩
  | cons req rows ih =>
    cases hbody : resolveBody env req with
    | error interrupt => simp [rowChunks, hbody] at h
    | ok body =>
      have hrest : (rowChunks env false rows).failure = none := by simpa [rowChunks, hbody] using h
      obtain ⟨values, hvalues⟩ := ih hrest
      exact ⟨_, .cons ⟨body, hbody, rfl⟩ hvalues⟩

theorem skipSpace_items {s rest : List Char} {items : List Json.Value}
    (h : ReadsItems s items rest) : Json.skipSpace s = s := by
  cases h with
  | last hvalue => exact hvalue.skipSpace_eq
  | cons hvalue => exact hvalue.skipSpace_eq

theorem reads_rows (row : PyValue) (rows : List PyValue) :
    ReadsItems (dumps row ++ rowsText false rows) ((row :: rows).map PyValue.value) ['}'] := by
  induction rows generalizing row with
  | nil =>
    have hstops : Stops (rowsText false []) := by
      intro c hc
      obtain rfl := Option.some.inj hc
      decide
    exact .last (reads_dumps row hstops) rfl
  | cons next rows ih =>
    have hstops : Stops (rowsText false (next :: rows)) := by
      intro c hc
      obtain rfl := Option.some.inj hc
      decide
    have hnext := ih next
    rw [← skipSpace_items hnext] at hnext
    exact .cons (reads_dumps row hstops) rfl hnext

/-- The rows are an array, behind which the document ends. -/
theorem reads_array (values : List PyValue) :
    Reads ('[' :: rowsText true values) (.array (values.map PyValue.value)) ['}'] := by
  cases values with
  | nil => exact .emptyArray rfl
  | cons row rows =>
    have hrows := reads_rows row rows
    rw [← skipSpace_items hrows] at hrows
    exact .array hrows

/-- The header without its brace, the array and the end say one object. -/
theorem says_document {fields : List (String × PyValue)} (hne : fields ≠ [])
    (values : List PyValue) :
    Says ((dumps (.dict fields)).dropLast ++ ",\"requests\":[".toList ++ rowsText true values)
      (.object (members fields ++
        [(.ofString "requests", .array (values.map PyValue.value))])) := by
  have hname : ",\"requests\":[".toList =
      ',' :: '"' :: ("requests".toList.flatMap escape ++ ['"', ':', '[']) := by
    simp [escape]
  have hscan := scanString_quoted "requests" (':' :: '[' :: rowsText true values)
  have hrequests : ReadsMembers (Json.skipSpace ('"' :: ("requests".toList.flatMap escape ++
      '"' :: ':' :: '[' :: rowsText true values)))
      [(.ofString "requests", .array (values.map PyValue.value))] [] :=
    .last hscan rfl (reads_array values) rfl
  have hmembers := reads_dumpsItems fields hne (.more hrequests)
  rw [← (skipSpace_members hmembers).1] at hmembers
  have hdropped : (dumps (.dict fields)).dropLast = '{' :: dumpsItems fields :=
    List.dropLast_concat
  have hopen : Json.skipSpace ((dumps (.dict fields)).dropLast ++ ",\"requests\":[".toList ++
      rowsText true values) = '{' :: (dumpsItems fields ++ ',' :: '"' ::
        ("requests".toList.flatMap escape ++ '"' :: ':' :: '[' :: rowsText true values)) := by
    rw [hdropped, hname]
    simp only [List.cons_append, List.append_assoc, List.nil_append]
    rfl
  refine ⟨[], ?_, rfl⟩
  rw [hopen]
  exact Reads.object hmembers

end Framing

section Rows

/-- The newest requests of an endpoint, as many as are asked for. -/
structure Newest (endpointId : UUID) (maxCount : ℤ) (requests rows : List CapturedRequest) :
    Prop where
  owned : ∀ r ∈ rows, r ∈ requests ∧ r.endpointId = endpointId
  order : Descending listingColumns rows
  nodup : (rows.map CapturedRequest.id).Nodup
  atMost : (rows.length : ℤ) ≤ maxCount
  rest : ∀ r ∈ requests, r.endpointId = endpointId → r ∉ rows →
    (rows.length : ℤ) = maxCount ∧ ∀ r' ∈ rows, stamp listingColumns r < stamp listingColumns r'

def exportRows (endpointId : UUID) (maxCount : ℤ) (requests : List CapturedRequest) :
    List CapturedRequest :=
  page listingColumns endpointId (fun _ => true) maxCount.toNat none requests

variable {endpointId : UUID} {maxCount : ℤ} {requests rows : List CapturedRequest}

theorem selected_iff {r : CapturedRequest} :
    selected listingColumns endpointId (fun _ => true) none r = true ↔
      r.endpointId = endpointId := by
  simp [selected, after, listingColumns]

theorem newest_exportRows (hmax : 0 ≤ maxCount)
    (hunique : UniqueKeys CapturedRequest.id requests) :
    Newest endpointId maxCount requests (exportRows endpointId maxCount requests) := by
  have horder : Descending listingColumns (exportRows endpointId maxCount requests) :=
    descending_page hunique
  have howned : ∀ r ∈ exportRows endpointId maxCount requests,
      r ∈ requests ∧ r.endpointId = endpointId := by
    intro r hr
    obtain ⟨hmem, hselected⟩ := mem_page hr
    exact ⟨hmem, selected_iff.mp hselected⟩
  have hlength : (exportRows endpointId maxCount requests).length ≤ maxCount.toNat :=
    List.length_take_le _ _
  refine ⟨howned, horder, ?_, by omega, ?_⟩
  · refine horder.nodup_keys fun r hr r' hr' hkey => ?_
    rw [hunique.eq (howned r hr).1 (howned r' hr').1 hkey]
  · intro r hr howner hnot
    obtain ⟨hfull, hnewer⟩ := of_not_mem_page hunique hr (selected_iff.mpr howner) hnot
    exact ⟨by rw [exportRows, hfull]; omega, hnewer⟩

theorem length_exportRows : (exportRows endpointId maxCount requests).length =
    min maxCount.toNat (countByEndpoint endpointId requests) := by
  have hselected : requests.filter (selected listingColumns endpointId (fun _ => true) none) =
      requests.filter fun r => r.endpointId = endpointId := by
    refine List.filter_congr fun r _ => ?_
    rw [Bool.eq_iff_iff, selected_iff, decide_eq_true_eq]
  rw [exportRows, page, List.length_take, List.length_mergeSort, hselected, countByEndpoint,
    List.countP_eq_length_filter]

theorem streamForExport_eq_some : streamForExport endpointId maxCount requests = some rows ↔
    0 ≤ maxCount ∧ maxCount < bigintBound ∧ rows = exportRows endpointId maxCount requests := by
  rcases limitRows_cases maxCount with ⟨hnone, hlimit⟩ | ⟨hsome, hpos, hlt⟩
  · have hrejected : ¬ (0 ≤ maxCount ∧ maxCount < bigintBound) := by omega
    rw [← and_assoc]
    simp [streamForExport, query, hnone, hrejected]
  · rw [streamForExport, query_eq_page hsome, Option.some.injEq]
    exact ⟨fun heq => ⟨hpos, hlt, heq.symm⟩, fun h => h.2.2.symm⟩

end Rows

section Export

/-- A finished document: the header with the number of the rows, and the newest requests. -/
structure Exported (env : Collaborators) (endpoint : Endpoint) (streamed : List CapturedRequest)
    (rows : List CapturedRequest) (out : Export) : Prop where
  finished : out.failure = none
  newest : Newest endpoint.id env.maxRequests streamed rows
  document : ∃ values text, Resolved env rows values ∧
    decodeUtf8 out.chunks.flatten = some text ∧
    Says text.toList (.object (members (header endpoint env.now rows.length) ++
      [(.ofString "requests", .array (values.map PyValue.value))]))

/-- A cap that the count exceeds is an ExportTooLargeError before the first chunk. -/
def Correct (env : Collaborators) (endpoint : Endpoint) (counted streamed : List CapturedRequest)
    (out : Export) : Prop :=
  if env.maxRequests < countByEndpoint endpoint.id counted then
    out.chunks = [] ∧ ∃ message, out.failure = some (.exportTooLarge message)
  else ∃ rows, Exported env endpoint streamed rows out

/-- Between count and stream the number of rows to export has not changed, LIMIT takes the cap,
and the blob store answers for each row. -/
structure Consistent (env : Collaborators) (endpoint : Endpoint)
    (counted streamed : List CapturedRequest) : Prop where
  number : min env.maxRequests (countByEndpoint endpoint.id streamed) =
    countByEndpoint endpoint.id counted
  limit : env.maxRequests < bigintBound
  bodies : ∀ r ∈ exportRows endpoint.id env.maxRequests streamed, ∀ key, r.blobKey = some key →
    ∃ body, env.blobGet key = .returns body

variable {env : Collaborators} {endpoint : Endpoint} {token : String}
variable {endpoints : List Endpoint} {counted streamed rows : List CapturedRequest}

theorem resolveBody_ok {req : CapturedRequest} : (∃ body, resolveBody env req = .ok body) ↔
    ∀ key, req.blobKey = some key → ∃ body, env.blobGet key = .returns body := by
  unfold resolveBody
  cases hkey : req.blobKey with
  | none => simp
  | some key =>
    simp only [Option.some.injEq, forall_eq']
    cases hget : env.blobGet key with
    | returns body => cases body <;> simp [Answer.await]
    | raises error => simp [Answer.await]
    | hangs => simp [Answer.await]

theorem resolved_iff : (∃ values, Resolved env rows values) ↔
    ∀ r ∈ rows, ∃ body, resolveBody env r = .ok body := by
  constructor
  · intro ⟨values, hvalues⟩ r hr
    induction hvalues with
    | nil => exact absurd hr List.not_mem_nil
    | cons hvalue _ ih =>
      rcases List.mem_cons.mp hr with rfl | hmem
      · exact hvalue.imp fun _ h => h.1
      · exact ih hmem
  · intro h
    induction rows with
    | nil => exact ⟨[], .nil⟩
    | cons r rows ih =>
      obtain ⟨body, hbody⟩ := h r List.mem_cons_self
      obtain ⟨values, hvalues⟩ := ih fun r' hr' => h r' (List.mem_cons_of_mem _ hr')
      exact ⟨_, .cons ⟨body, hbody, rfl⟩ hvalues⟩

theorem stream_eq (total : ℕ) {values : List PyValue}
    (hrows : streamForExport endpoint.id env.maxRequests streamed = some rows)
    (hvalues : Resolved env rows values) :
    ∃ text, (stream env endpoint total streamed).failure = none ∧
      decodeUtf8 (stream env endpoint total streamed).chunks.flatten = some text ∧
      Says text.toList (.object (members (header endpoint env.now total) ++
        [(.ofString "requests", .array (values.map PyValue.value))])) := by
  obtain ⟨hfailure, hchunks⟩ := rowChunks_eq hvalues true
  have hlast : (dumps (.dict (header endpoint env.now total))).getLast? = some '}' :=
    List.getLast?_concat
  have hsays := says_document (List.cons_ne_nil _ _ : header endpoint env.now total ≠ []) values
  refine ⟨.ofList ((dumps (.dict (header endpoint env.now total))).dropLast ++
    ",\"requests\":[".toList ++ rowsText true values), ?_, ?_, ?_⟩
  · simp [stream, hlast, hrows, hfailure]
  · rw [← decode_encode, encode_append]
    simp [stream, hlast, hrows, hchunks]
  · rw [String.toList_ofList]
    exact hsays

/-- A stream without an exception has its rows and their bodies. -/
theorem stream_finished {total : ℕ} (h : (stream env endpoint total streamed).failure = none) :
    ∃ rows values, streamForExport endpoint.id env.maxRequests streamed = some rows ∧
      Resolved env rows values := by
  have hlast : (dumps (.dict (header endpoint env.now total))).getLast? = some '}' :=
    List.getLast?_concat
  cases hrows : streamForExport endpoint.id env.maxRequests streamed with
  | none => simp [stream, hlast, hrows] at h
  | some rows =>
    simp only [stream, hlast, hrows, ne_eq, not_true_eq_false, if_false] at h
    obtain ⟨values, hvalues⟩ := rowChunks_failure h
    exact ⟨rows, values, rfl, hvalues⟩

/-- The two numbers that a document gives are the same if it says the one and the other. -/
theorem header_inj {n m : ℕ} {value value' : Json.Value}
    (h : Json.Value.object
        (members (header endpoint env.now n) ++ [(.ofString "requests", value)]) =
      .object (members (header endpoint env.now m) ++ [(.ofString "requests", value')])) :
    n = m ∧ value = value' := by
  simp only [header, members, PyValue.value, Json.Value.object.injEq, List.cons_append,
    List.nil_append, List.cons.injEq, Prod.mk.injEq, Json.Value.number.injEq, true_and,
    and_true] at h
  exact ⟨Nat.repr_inj.mp (String.toList_inj.mp h.1), h.2⟩

/-- A finished document gives the number of its rows only if the statements agree. -/
theorem Exported.consistent (h : Exported env endpoint streamed rows
    (stream env endpoint (countByEndpoint endpoint.id counted) streamed)) :
    Consistent env endpoint counted streamed := by
  obtain ⟨rows', values', hrows', hvalues'⟩ := stream_finished h.finished
  obtain ⟨hmax, hlimit, rfl⟩ := streamForExport_eq_some.mp hrows'
  obtain ⟨text', -, hdecoded', hsays'⟩ :=
    stream_eq (countByEndpoint endpoint.id counted) hrows' hvalues'
  obtain ⟨values, text, hvalues, hdecoded, hsays⟩ := h.document
  obtain rfl := Option.some.inj (hdecoded'.symm.trans hdecoded)
  obtain ⟨hcount, harray⟩ := header_inj (hsays'.unique hsays)
  have hlength : rows.length = (exportRows endpoint.id env.maxRequests streamed).length := by
    have hmapped := congrArg List.length (Json.Value.array.inj harray)
    rw [List.length_map, List.length_map] at hmapped
    rw [hvalues.length_eq, hvalues'.length_eq, hmapped]
  refine ⟨?_, hlimit, ?_⟩
  · rw [hcount, hlength, length_exportRows]
    omega
  · exact fun r hr => resolveBody_ok.mp (resolved_iff.mp ⟨values', hvalues'⟩ r hr)

/-- Statements that agree make a finished document. -/
theorem Consistent.exported (h : Consistent env endpoint counted streamed)
    (hmax : 0 ≤ env.maxRequests) (hunique : UniqueKeys CapturedRequest.id streamed) :
    Exported env endpoint streamed (exportRows endpoint.id env.maxRequests streamed)
      (stream env endpoint (countByEndpoint endpoint.id counted) streamed) := by
  have hrows := streamForExport_eq_some.mpr
    ⟨hmax, h.limit, (rfl : exportRows endpoint.id env.maxRequests streamed = _)⟩
  obtain ⟨values, hvalues⟩ := resolved_iff.mpr fun r hr => resolveBody_ok.mpr (h.bodies r hr)
  obtain ⟨text, hfinished, hdecoded, hsays⟩ :=
    stream_eq (countByEndpoint endpoint.id counted) hrows hvalues
  have hcount : (exportRows endpoint.id env.maxRequests streamed).length =
      countByEndpoint endpoint.id counted := by
    have hnumber := h.number
    rw [length_exportRows]
    omega
  exact ⟨hfinished, newest_exportRows hmax hunique, values, text, hvalues, hdecoded,
    hcount.symm ▸ hsays⟩

/-- The export is correct if and only if the two statements agree about the number of rows, the
cap is one that LIMIT takes, and the bodies are there, all this unless the cap is exceeded. -/
theorem exported_iff (hendpoint : EndpointRepository.findByToken token endpoints = some endpoint)
    (hunique : UniqueKeys CapturedRequest.id streamed) :
    Correct env endpoint counted streamed (execute env token endpoints counted streamed) ↔
      ((countByEndpoint endpoint.id counted : ℤ) ≤ env.maxRequests →
        Consistent env endpoint counted streamed) := by
  unfold Correct
  simp only [execute, hendpoint]
  by_cases hlarge : env.maxRequests < countByEndpoint endpoint.id counted
  · rw [if_pos hlarge, if_pos hlarge]
    have hnot : ¬ (countByEndpoint endpoint.id counted : ℤ) ≤ env.maxRequests := not_le.mpr hlarge
    simp [hnot]
  · rw [if_neg hlarge, if_neg hlarge]
    have hcap : (countByEndpoint endpoint.id counted : ℤ) ≤ env.maxRequests := not_lt.mp hlarge
    have hmax : 0 ≤ env.maxRequests := (Int.natCast_nonneg _).trans hcap
    constructor
    · intro h _
      obtain ⟨rows, hexported⟩ := h
      exact hexported.consistent
    · intro hconsistent
      exact ⟨_, (hconsistent hcap).exported hmax hunique⟩

def sampleCollaborators : Collaborators where
  blobGet _ := .returns none
  now := seconds 4000
  maxRequests := 10000

theorem single_exported :
    Correct sampleCollaborators sampleEndpoint [sampleRequest] [sampleRequest]
      (execute sampleCollaborators "tok" [sampleEndpoint] [sampleRequest] [sampleRequest]) := by
  refine (exported_iff (by decide +kernel) (by decide +kernel)).mpr fun _ =>
    ⟨by decide +kernel, by decide +kernel, ?_⟩
  intro r _ key _
  exact ⟨none, rfl⟩

/-- The first request of an endpoint, captured between count and stream, is exported under the
number 0. -/
theorem late_capture_miscounted :
    ¬ Correct sampleCollaborators sampleEndpoint [] [sampleRequest]
      (execute sampleCollaborators "tok" [sampleEndpoint] [] [sampleRequest]) := by
  have hexecute : execute sampleCollaborators "tok" [sampleEndpoint] [] [sampleRequest] =
      stream sampleCollaborators sampleEndpoint (countByEndpoint sampleEndpoint.id [])
        [sampleRequest] := rfl
  intro h
  obtain ⟨rows, hexported⟩ := h
  rw [hexecute] at hexported
  have hconsistent : Consistent sampleCollaborators sampleEndpoint [] [sampleRequest] :=
    hexported.consistent
  exact absurd hconsistent.number (by decide +kernel)

end Export

end Hooktrace.ExportRequests
