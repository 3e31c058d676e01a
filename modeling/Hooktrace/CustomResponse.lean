import Hooktrace.CaptureTransaction
import Hooktrace.HttpHead
import Hooktrace.Latin1

/-!
The custom response of an endpoint, from its validation to the wire. It is built and sent in the
session of the capture, so that an exception there undoes the capture. The validators look at the
names of five headers; which characters the names and values have is never looked at, nor whether
the status has a content.
-/
namespace Hooktrace.CustomResponse

open CaptureRequest (Collaborators Input prepare_ping sampleInput)
open CaptureTransaction (Failure SaveFault SessionWork Store execute pendingRollback raised)
open HttpHead Transaction

/-- The exceptions of `Endpoint.create`, with their messages. -/
inductive CreateError where
  | valueError (message : String)
  | invalidResponseStatus (message : String)
  | invalidResponseDelay (message : String)
  | responseBodyTooLarge (message : String)
  | forbiddenResponseHeader (message : String)

structure ResponseConfig where
  statusCode : ℤ
  body : String
  headers : Option Headers
  delayMs : ℤ

def maxBodyBytes : ℕ := 65536

def forbiddenHeaders : List String :=
  ["content-length", "transfer-encoding", "connection", "host", "date"]

def validateResponseStatus (code : ℤ) : Except CreateError Unit :=
  if 100 ≤ code ∧ code ≤ 599 then .ok ()
  else .error (.invalidResponseStatus s!"response_status_code must be in [100, 599], got {code}")

def validateResponseDelay (delayMs : ℤ) : Except CreateError Unit :=
  if 0 ≤ delayMs ∧ delayMs ≤ 30000 then .ok ()
  else .error
    (.invalidResponseDelay s!"response_delay_ms must be in [0, 30000], got {delayMs}")

def validateResponseBodySize (body : String) : Except CreateError Unit :=
  if maxBodyBytes < (encodeUtf8 body).length then
    .error (.responseBodyTooLarge s!"response_body exceeds {maxBodyBytes} bytes")
  else .ok ()

def validateResponseHeaders (headers : Headers) : Except CreateError Unit :=
  match headers.items.find? fun field => lower field.1 ∈ forbiddenHeaders with
  | some (name, _) =>
    .error (.forbiddenResponseHeader s!"header '{name}' is reserved and cannot be overridden")
  | none => .ok ()

/-- `Endpoint.create`, with the id and the time that it draws. -/
def create (id : UUID) (now : Datetime) (token : String) (ttlDays : ℤ) (config : ResponseConfig) :
    Except CreateError Endpoint :=
  if ttlDays ≤ 0 then .error (.valueError "ttl_days must be positive")
  else do
    validateResponseStatus config.statusCode
    validateResponseDelay config.delayMs
    validateResponseBodySize config.body
    validateResponseHeaders (config.headers.getD .empty)
    pure {
      id
      token
      createdAt := now
      expiresAt := now + ttlDays * seconds 86400
      requestCount := 0
      responseStatusCode := config.statusCode
      responseBody := config.body
      responseHeaders := config.headers.getD .empty
      responseDelayMs := config.delayMs
      signatureProvider := none
      signatureSecretEncrypted := none
      forwardUrl := none
      forwardHeaders := none
      forwardSecretEncrypted := none
      flaggedAt := none
      flagReason := none }

structure RawResponse where
  status : ℤ
  headers : List Field
  body : Bytes

def encodeField (field : String × String) : Option Field := do
  let name ← encodeLatin1 (lower field.1)
  let value ← encodeLatin1 field.2
  pure (name, value)

def contentLengthName : Bytes := "content-length".toList.map Latin1.byte

/-- The header that Starlette adds. -/
def contentLength (status : ℤ) (body : Bytes) : List Field :=
  if status < 200 ∨ status = 204 ∨ status = 304 then []
  else [(contentLengthName, (Nat.repr body.length).toList.map Latin1.byte)]

/-- `Response.init_headers`; `none` is a UnicodeEncodeError. -/
def initHeaders (headers : Option Headers) (status : ℤ) (body : Bytes) : Option (List Field) := do
  let raw ← (headers.getD .empty).items.mapM encodeField
  if contentLengthName ∈ raw.map Prod.fst then pure raw
  else pure (raw ++ contentLength status body)

/-- `Response(content=..., status_code=..., headers=... or None)`. -/
def buildResponse (endpoint : Endpoint) : Except Failure RawResponse :=
  let body := encodeUtf8 endpoint.responseBody
  let headers :=
    if endpoint.responseHeaders.items.isEmpty then none else some endpoint.responseHeaders
  match initHeaders headers endpoint.responseStatusCode body with
  | some raw => .ok ⟨endpoint.responseStatusCode, raw, body⟩
  | none => .error (raised "UnicodeEncodeError")

def content (method : String) (body : Bytes) : Bytes := if method = "HEAD" then [] else body

/-- A response with this status has no content. -/
def Bodiless (status : ℤ) : Prop := status = 204 ∨ status = 304

instance (status : ℤ) : Decidable (Bodiless status) := inferInstanceAs (Decidable (_ ∨ _))

/-- Neither the length nor the status says how the content ends, as in an interim response. -/
def Unframed (method : String) (status : ℤ) : Prop := status < 200 ∧ method ≠ "HEAD"

instance (method : String) (status : ℤ) : Decidable (Unframed method status) :=
  inferInstanceAs (Decidable (_ ∧ _))

def transferEncodingName : Bytes := "transfer-encoding".toList.map Latin1.byte

def chunkedField : Field := (transferEncodingName, "chunked".toList.map Latin1.byte)

/-- The fields of the endpoint with the framing of Starlette. -/
def framed (status : ℤ) (fields : List Field) (body : Bytes) : RawResponse :=
  ⟨status, fields ++ contentLength status body, body⟩

/-- No field has to do with the framing. -/
def Plain (fields : List Field) : Prop :=
  ∀ f ∈ fields, f.1 ≠ contentLengthName ∧ f.1 ≠ transferEncodingName

/-- The server, for one request. It checks each field by itself, adds fields of its own, and sends
the content of a response that is framed; where nothing frames it, it sends chunks and says so. -/
structure Server where
  send : String → RawResponse → Except Failure Bytes
  takes : Field → Bool
  /-- The date, the name of the server, and whether the connection is closed. -/
  own : List Field
  own_formed : ∀ f ∈ own, WellFormed f
  chunks : Bytes → Bytes
  refusesField : ∀ method status fields body, (∃ f ∈ fields, takes f = false) →
    ∃ failure, send method (framed status fields body) = .error failure
  /-- "Response content longer than Content-Length". -/
  refusesContent : ∀ method status fields body, Plain fields → Bodiless status →
    content method body ≠ [] → ∃ failure, send method (framed status fields body) = .error failure
  sends : ∀ method status fields body, Plain fields → (∀ f ∈ fields, takes f = true) →
    ¬ Unframed method status → (Bodiless status → content method body = []) →
      ∃ head, head.Perm (own ++ (framed status fields body).headers) ∧
        send method (framed status fields body) = .ok (render head ++ content method body)
  sendsChunks : ∀ method status fields body, Plain fields → (∀ f ∈ fields, takes f = true) →
    Unframed method status →
      ∃ head, head.Perm (chunkedField :: (own ++ (framed status fields body).headers)) ∧
        send method (framed status fields body) = .ok (render head ++ chunks (content method body))

def captureRoute (server : Server) (env : Collaborators) (fault : Option SaveFault)
    (token : String) (input : Input) (store : Store) :
    Except Failure (CaptureTransaction.Result × RawResponse × Bytes) × Store :=
  Work.transaction pendingRollback (do
    let result ← execute env fault token input
    let response ← Work.ofExcept (buildResponse result.endpoint)
    let wire ← Work.ofExcept (server.send input.method response)
    pure (result, response, wire)) store

/-- The row has the response that was created; JSONB keeps the items of an object, and not their
order. -/
structure Stored (created row : Endpoint) : Prop where
  status : row.responseStatusCode = created.responseStatusCode
  body : row.responseBody = created.responseBody
  headers : row.responseHeaders.items.Perm created.responseHeaders.items

/-- A field name of HTTP/1.1. -/
def TokenText (s : String) : Prop :=
  s ≠ "" ∧ ∀ c ∈ s.toList, c.toNat < 256 ∧ isTokenByte (Latin1.byte c) = true

instance (s : String) : Decidable (TokenText s) :=
  @instDecidableAnd _ _ inferInstance (List.decidableBAll _ _)

/-- A text in latin-1 without CR, LF and NUL. -/
def ValueText (s : String) : Prop :=
  ∀ c ∈ s.toList, c.toNat < 256 ∧ c ≠ '\r' ∧ c ≠ '\n' ∧ c ≠ nul

instance (s : String) : Decidable (ValueText s) := List.decidableBAll _ _

def Servable (headers : Headers) : Prop :=
  ∀ field ∈ headers.items, TokenText (lower field.1) ∧ ValueText field.2

def encoded (field : String × String) : Field :=
  ((lower field.1).toList.map Latin1.byte, field.2.toList.map Latin1.byte)

def Taken (server : Server) (headers : Headers) : Prop :=
  ∀ field ∈ headers.items, server.takes (encoded field) = true

/-- The response is final, and has a content only where its status has one; to a HEAD none is
sent. -/
def HasContent (method : String) (created : Endpoint) : Prop :=
  method = "HEAD" ∨ (200 ≤ created.responseStatusCode ∧
    (Bodiless created.responseStatusCode → created.responseBody = ""))

/-- The capture returns and is stored, the response has the headers of the endpoint and their
framing, and a recipient reads these, those of the server, and the body. -/
def Served (server : Server) (created : Endpoint) (method : String)
    (outcome : Except Failure (CaptureTransaction.Result × RawResponse × Bytes) × Store)
    (stored : Store) : Prop :=
  ∃ result raw wire head fields, outcome = (.ok (result, raw, wire), stored) ∧
    created.responseHeaders.items.mapM encodeField = some fields ∧
    raw.headers.Perm (fields ++ contentLength created.responseStatusCode raw.body) ∧
    raw.status = created.responseStatusCode ∧ raw.body = encodeUtf8 created.responseBody ∧
    head.Perm (server.own ++ raw.headers) ∧
    readHead [] (.name []) wire = some (head, content method raw.body)

def InLatin1 (field : String × String) : Prop :=
  (∀ c ∈ (lower field.1).toList, c.toNat < 256) ∧ ∀ c ∈ field.2.toList, c.toNat < 256

section Encode

variable {field : String × String} {items : List (String × String)} {fields : List Field}

theorem encodeField_eq_some {f : Field} :
    encodeField field = some f ↔ InLatin1 field ∧ encoded field = f := by
  constructor
  · intro h
    obtain ⟨name, hname, h⟩ := Option.bind_eq_some_iff.mp h
    obtain ⟨value, hvalue, h⟩ := Option.bind_eq_some_iff.mp h
    obtain ⟨hnameLatin1, rfl⟩ := encodeLatin1_eq_some.mp hname
    obtain ⟨hvalueLatin1, rfl⟩ := encodeLatin1_eq_some.mp hvalue
    exact ⟨⟨hnameLatin1, hvalueLatin1⟩, Option.some.inj h⟩
  · intro h
    obtain ⟨⟨hname, hvalue⟩, rfl⟩ := h
    simp [encodeField, encodeLatin1_eq_some.mpr ⟨hname, rfl⟩,
      encodeLatin1_eq_some.mpr ⟨hvalue, rfl⟩, encoded]

theorem mapM_encodeField : items.mapM encodeField = some fields ↔
    (∀ field ∈ items, InLatin1 field) ∧ items.map encoded = fields := by
  induction items generalizing fields with
  | nil => simp
  | cons field items ih =>
    rw [List.mapM_cons, List.forall_mem_cons, List.map_cons]
    constructor
    · intro h
      obtain ⟨f, hf, h⟩ := Option.bind_eq_some_iff.mp h
      obtain ⟨rest, hrest, h⟩ := Option.bind_eq_some_iff.mp h
      obtain ⟨hlatin, rfl⟩ := encodeField_eq_some.mp hf
      obtain ⟨hall, rfl⟩ := ih.mp hrest
      exact ⟨⟨hlatin, hall⟩, Option.some.inj h⟩
    · intro h
      obtain ⟨⟨hlatin, hall⟩, rfl⟩ := h
      simp [encodeField_eq_some.mpr ⟨hlatin, rfl⟩, ih.mpr ⟨hall, rfl⟩]

theorem TokenText.inLatin1 {s : String} (h : TokenText s) : ∀ c ∈ s.toList, c.toNat < 256 :=
  fun c hc => (h.2 c hc).1

theorem ValueText.inLatin1 {s : String} (h : ValueText s) : ∀ c ∈ s.toList, c.toNat < 256 :=
  fun c hc => (h c hc).1

theorem token_iff {s : String} (h : ∀ c ∈ s.toList, c.toNat < 256) :
    Token (s.toList.map Latin1.byte) ↔ TokenText s := by
  have hne : s.toList.map Latin1.byte ≠ [] ↔ s ≠ "" := by
    rw [ne_eq, List.map_eq_nil_iff, String.toList_eq_nil_iff]
  rw [Token, hne, List.forall_mem_map, TokenText]
  refine and_congr_right fun _ => forall₂_congr fun c hc => ?_
  simp [h c hc]

theorem byte_ne_iff {c : Char} (h : c.toNat < 256) (c' : Char) (h' : c'.toNat < 256) :
    Latin1.byte c ≠ Latin1.byte c' ↔ c ≠ c' := by
  refine not_congr ⟨Latin1.byte_injective h h', ?_⟩
  intro hsame
  rw [hsame]

theorem fieldValue_iff {s : String} (h : ∀ c ∈ s.toList, c.toNat < 256) :
    FieldValue (s.toList.map Latin1.byte) ↔ ValueText s := by
  rw [FieldValue, List.forall_mem_map, ValueText]
  refine forall₂_congr fun c hc => ?_
  have hcr := byte_ne_iff (h c hc) '\r' (by decide)
  have hlf := byte_ne_iff (h c hc) '\n' (by decide)
  have hnul := byte_ne_iff (h c hc) nul (by decide)
  rw [← hcr, ← hlf, ← hnul]
  simp only [h c hc, true_and]
  rfl

theorem wellFormed_encoded (h : InLatin1 field) :
    WellFormed (encoded field) ↔ TokenText (lower field.1) ∧ ValueText field.2 := by
  have hparts (f : Field) : WellFormed f ↔ Token f.1 ∧ FieldValue f.2 :=
    ⟨fun hform => ⟨hform.name, hform.value⟩, fun hform => ⟨hform.1, hform.2⟩⟩
  simp only [hparts, encoded, token_iff h.1, fieldValue_iff h.2]

theorem digit_bounds {n : ℕ} {c : Char} (h : c ∈ n.repr.toList) :
    48 ≤ c.toNat ∧ c.toNat ≤ 57 := by
  rw [Nat.toList_repr] at h
  have hdigit := Nat.isDigit_of_mem_toDigits (by decide) (by decide) h
  simpa [Char.isDigit, UInt32.le_iff_toNat_le] using hdigit

/-- The header that Starlette adds is well formed. -/
theorem wellFormed_contentLength (status : ℤ) (body : Bytes) :
    ∀ f ∈ contentLength status body, WellFormed f := by
  unfold contentLength
  split
  · simp
  · have hbytes : contentLengthName =
        [99, 111, 110, 116, 101, 110, 116, 45, 108, 101, 110, 103, 116, 104] := by decide +kernel
    have hname : Token contentLengthName := by
      rw [hbytes]
      simp [Token, isTokenByte]
    have hlatin1 : ∀ c ∈ (Nat.repr body.length).toList, c.toNat < 256 := fun c hc =>
      (digit_bounds hc).2.trans_lt (by decide)
    refine List.forall_mem_singleton.mpr ⟨hname, (fieldValue_iff hlatin1).mpr fun c hc => ?_⟩
    have hlow := (digit_bounds hc).1
    refine ⟨hlatin1 c hc, ?_, ?_, ?_⟩ <;> intro h <;> subst h <;> exact absurd hlow (by decide)

end Encode

section Route

variable {id : UUID} {now : Datetime} {token : String} {ttlDays : ℤ} {config : ResponseConfig}
variable {created row : Endpoint} {env : Collaborators} {fault : Option SaveFault}
variable {input : Input} {store stored : Store} {result : CaptureTransaction.Result}
variable {server : Server}

theorem validateResponseHeaders_ok {headers : Headers} {u : Unit}
    (h : validateResponseHeaders headers = .ok u) :
    ∀ field ∈ headers.items, lower field.1 ∉ forbiddenHeaders := by
  unfold validateResponseHeaders at h
  split at h
  · cases h
  · rename_i hnone
    simpa using hnone

theorem create_ok (h : create id now token ttlDays config = .ok created) :
    validateResponseHeaders (config.headers.getD .empty) = .ok () ∧
      created.token = token ∧ created.responseHeaders = config.headers.getD .empty := by
  unfold create at h
  split at h
  · cases h
  · cases hstatus : validateResponseStatus config.statusCode <;> rw [hstatus] at h
    · cases h
    cases hdelay : validateResponseDelay config.delayMs <;> rw [hdelay] at h
    · cases h
    cases hbody : validateResponseBodySize config.body <;> rw [hbody] at h
    · cases h
    cases hheaders : validateResponseHeaders (config.headers.getD .empty) <;> rw [hheaders] at h
    · cases h
    obtain rfl := Except.ok.inj h
    exact ⟨rfl, rfl, rfl⟩

/-- None of the five names gets through. -/
theorem not_forbidden (h : create id now token ttlDays config = .ok created) :
    ∀ field ∈ created.responseHeaders.items, lower field.1 ∉ forbiddenHeaders := by
  obtain ⟨hvalid, -, hheaders⟩ := create_ok h
  rw [hheaders]
  exact validateResponseHeaders_ok hvalid

theorem buildResponse_eq (endpoint : Endpoint) : buildResponse endpoint =
    match initHeaders (some endpoint.responseHeaders) endpoint.responseStatusCode
      (encodeUtf8 endpoint.responseBody) with
    | some raw => .ok ⟨endpoint.responseStatusCode, raw, encodeUtf8 endpoint.responseBody⟩
    | none => .error (raised "UnicodeEncodeError") := by
  cases hitems : endpoint.responseHeaders.items with
  | nil => simp [buildResponse, initHeaders, hitems, PyDict.empty]
  | cons field items => simp [buildResponse, hitems]

/-- A name that the validators let through is none of the five on the wire either. -/
theorem encoded_ne {field : String × String} {name : String} {bytes : Bytes}
    (hlatin1 : InLatin1 field) (hfield : lower field.1 ∉ forbiddenHeaders)
    (hname : name ∈ forbiddenHeaders) (hbytes : encodeLatin1 name = some bytes) :
    (encoded field).1 ≠ bytes := by
  intro hsame
  have hown : encodeLatin1 (lower field.1) = some bytes :=
    encodeLatin1_eq_some.mpr ⟨hlatin1.1, hsame⟩
  exact hfield (encodeLatin1_injective hown hbytes ▸ hname)

theorem encode_contentLength : encodeLatin1 "content-length" = some contentLengthName := by decide

theorem encode_transferEncoding :
    encodeLatin1 "transfer-encoding" = some transferEncodingName := by decide

/-- With the names of the validators, the headers are those of the row and their framing. -/
theorem initHeaders_eq_some {headers : Headers} (status : ℤ) (body : Bytes) {raw : List Field}
    (hnames : ∀ field ∈ headers.items, lower field.1 ∉ forbiddenHeaders) :
    initHeaders (some headers) status body = some raw ↔
      ∃ fields, headers.items.mapM encodeField = some fields ∧
        fields ++ contentLength status body = raw := by
  have hfree : ∀ fields, headers.items.mapM encodeField = some fields →
      contentLengthName ∉ fields.map Prod.fst := by
    intro fields hfields hmem
    obtain ⟨hlatin1, rfl⟩ := mapM_encodeField.mp hfields
    obtain ⟨f, hf, hname⟩ := List.mem_map.mp hmem
    obtain ⟨field, hfield, rfl⟩ := List.mem_map.mp hf
    exact encoded_ne (hlatin1 field hfield) (hnames field hfield) (by simp [forbiddenHeaders])
      encode_contentLength hname
  rw [initHeaders, Option.getD_some]
  constructor
  · intro h
    obtain ⟨fields, hfields, h⟩ := Option.bind_eq_some_iff.mp h
    rw [if_neg (hfree fields hfields)] at h
    exact ⟨fields, hfields, Option.some.inj h⟩
  · intro h
    obtain ⟨fields, hfields, rfl⟩ := h
    rw [hfields]
    exact if_neg (hfree fields hfields)

theorem plain_encoded {items : List (String × String)}
    (hnames : ∀ field ∈ items, lower field.1 ∉ forbiddenHeaders)
    (hlatin1 : ∀ field ∈ items, InLatin1 field) : Plain (items.map encoded) := by
  refine List.forall_mem_map.mpr fun field hfield => ?_
  exact ⟨encoded_ne (hlatin1 field hfield) (hnames field hfield) (by simp [forbiddenHeaders])
    encode_contentLength, encoded_ne (hlatin1 field hfield) (hnames field hfield)
    (by simp [forbiddenHeaders]) encode_transferEncoding⟩

/-- What follows the head is empty to a HEAD, and where the body is. -/
theorem content_eq_nil {method body : String} :
    content method (encodeUtf8 body) = [] ↔ method = "HEAD" ∨ body = "" := by
  have hempty : encodeUtf8 body = [] ↔ body = "" := by
    constructor
    · intro hnil
      have hlength := length_le_encodeUtf8 body
      rw [hnil, List.length_nil] at hlength
      apply String.toList_eq_nil_iff.mp
      exact List.length_eq_zero_iff.mp (by omega)
    · rintro rfl
      simp [encodeUtf8_eq_flatMap]
  unfold content
  split
  · rename_i hhead
    simp [hhead]
  · rename_i hhead
    rw [hempty]
    simp [hhead]

theorem hasContent_iff {method : String} : HasContent method created ↔
    ¬ Unframed method created.responseStatusCode ∧ (Bodiless created.responseStatusCode →
      content method (encodeUtf8 created.responseBody) = []) := by
  rw [content_eq_nil, HasContent, Unframed]
  by_cases hhead : method = "HEAD"
  · simp [hhead]
  · simp only [hhead, false_or, ne_eq, not_false_eq_true, and_true, not_lt]

/-- An exception in building the response undoes the capture. -/
theorem captureRoute_raised {failure : Failure}
    (hexecute : (execute env fault token input).run ⟨store, false⟩ =
      (.ok result, ⟨stored, false⟩))
    (hbuild : buildResponse result.endpoint = .error failure) :
    captureRoute server env fault token input store = (.error failure, store) := by
  rw [captureRoute, Work.transaction, Work.bind_run hexecute, hbuild,
    Work.bind_raised (Work.ofExcept_run _ _)]

theorem captureRoute_sent {raw : RawResponse} {wire : Bytes}
    (hexecute : (execute env fault token input).run ⟨store, false⟩ =
      (.ok result, ⟨stored, false⟩)) (hbuild : buildResponse result.endpoint = .ok raw)
    (hsend : server.send input.method raw = .ok wire) :
    captureRoute server env fault token input store = (.ok (result, raw, wire), stored) := by
  refine Work.transaction_of_ok ?_
  rw [Work.bind_run hexecute, hbuild, Work.bind_run (Work.ofExcept_run _ _), hsend,
    Work.bind_run (Work.ofExcept_run _ _), Work.pure_run]

/-- A route that returns has sent the response that it built. -/
theorem send_of_captureRoute {raw raw' : RawResponse} {result' : CaptureTransaction.Result}
    {wire : Bytes} {stored' : Store}
    (hexecute : (execute env fault token input).run ⟨store, false⟩ =
      (.ok result, ⟨stored, false⟩)) (hbuild : buildResponse result.endpoint = .ok raw)
    (hroute : captureRoute server env fault token input store =
      (.ok (result', raw', wire), stored')) :
    server.send input.method raw = .ok wire ∧ raw' = raw := by
  cases hsend : server.send input.method raw with
  | error failure =>
    rw [captureRoute, Work.transaction, Work.bind_run hexecute, hbuild,
      Work.bind_run (Work.ofExcept_run _ _), hsend,
      Work.bind_raised (Work.ofExcept_run _ _)] at hroute
    cases hroute
  | ok wire' =>
    rw [captureRoute_sent hexecute hbuild hsend] at hroute
    cases hroute
    exact ⟨rfl, rfl⟩

section Send

variable {method : String} {status : ℤ} {fields : List Field} {body wire : Bytes}

theorem takes_of_send (h : server.send method (framed status fields body) = .ok wire) :
    ∀ f ∈ fields, server.takes f = true := by
  intro f hf
  by_contra hrefuses
  obtain ⟨failure, hrefused⟩ := server.refusesField method status fields body
    ⟨f, hf, Bool.eq_false_iff.mpr hrefuses⟩
  rw [h] at hrefused
  cases hrefused

theorem content_of_send (hplain : Plain fields)
    (h : server.send method (framed status fields body) = .ok wire) (hbodiless : Bodiless status) :
    content method body = [] := by
  by_contra hcontent
  obtain ⟨failure, hrefused⟩ := server.refusesContent method status fields body hplain hbodiless
    hcontent
  rw [h] at hrefused
  cases hrefused

end Send

def latin1Response (endpoint : Endpoint) : RawResponse :=
  framed endpoint.responseStatusCode (endpoint.responseHeaders.items.map encoded)
    (encodeUtf8 endpoint.responseBody)

theorem buildResponse_ok {endpoint : Endpoint}
    (hnames : ∀ field ∈ endpoint.responseHeaders.items, lower field.1 ∉ forbiddenHeaders)
    (hlatin1 : ∀ field ∈ endpoint.responseHeaders.items, InLatin1 field) :
    buildResponse endpoint = .ok (latin1Response endpoint) := by
  have hinit := (initHeaders_eq_some endpoint.responseStatusCode
    (encodeUtf8 endpoint.responseBody) hnames).mpr
    ⟨_, mapM_encodeField.mpr ⟨hlatin1, rfl⟩, rfl⟩
  rw [buildResponse_eq, hinit]
  rfl

theorem wellFormed_chunkedField : WellFormed chunkedField := by
  have hbytes : transferEncodingName =
      [116, 114, 97, 110, 115, 102, 101, 114, 45, 101, 110, 99, 111, 100, 105, 110, 103] := by
    decide +kernel
  have hname : Token transferEncodingName := by
    rw [hbytes]
    simp [Token, isTokenByte]
  have hvalue : ValueText "chunked" := by decide +kernel
  exact ⟨hname, (fieldValue_iff hvalue.inLatin1).mpr hvalue⟩

theorem wellFormed_head {endpoint : Endpoint} {head : List Field} (more : List Field)
    (hperm : head.Perm (more ++ (server.own ++ (latin1Response endpoint).headers)))
    (hmore : ∀ f ∈ more, WellFormed f)
    (hrow : ∀ f ∈ endpoint.responseHeaders.items.map encoded, WellFormed f) :
    ∀ f ∈ head, WellFormed f := by
  intro f hf
  rcases List.mem_append.mp (hperm.mem_iff.mp hf) with hmem | hmem
  · exact hmore f hmem
  · rcases List.mem_append.mp hmem with hmem | hmem
    · exact server.own_formed f hmem
    · exact List.forall_mem_append.mpr ⟨hrow, wellFormed_contentLength _ _⟩ f hmem

/-- The field that announces chunks is read with the others. -/
theorem not_read_chunked {headers head head' : List Field} {body read : Bytes}
    (hhead : head.Perm (server.own ++ headers))
    (hhead' : head'.Perm (chunkedField :: (server.own ++ headers)))
    (hformed : ∀ f ∈ head', WellFormed f) :
    readHead [] (.name []) (render head' ++ body) ≠ some (head, read) := by
  intro hread
  obtain ⟨hsame, -⟩ := Prod.mk.inj
    (Option.some.inj ((readHead_render_iff.mpr hformed).symm.trans hread))
  have hlength := hhead.length_eq
  rw [← hsame, hhead'.length_eq, List.length_cons] at hlength
  omega

theorem wellFormed_row (h : Stored created row)
    (hlatin1 : ∀ field ∈ created.responseHeaders.items, InLatin1 field)
    (hservable : Servable created.responseHeaders) :
    ∀ f ∈ row.responseHeaders.items.map encoded, WellFormed f := by
  refine List.forall_mem_map.mpr fun field hfield => ?_
  have hmem := h.headers.mem_iff.mp hfield
  exact (wellFormed_encoded (hlatin1 field hmem)).mpr (hservable field hmem)

/-- The response of an accepted configuration is served exactly where the lower-cased names are
tokens and the values latin-1 without CR, LF and NUL, the server takes these fields, and the status
is final and goes with the body. -/
theorem served_iff (server : Server) (hcreate : create id now token ttlDays config = .ok created)
    {captureToken : String}
    (hexecute : (execute env fault captureToken input).run ⟨store, false⟩ =
      (.ok result, ⟨stored, false⟩)) (hrow : Stored created result.endpoint) :
    Served server created input.method (captureRoute server env fault captureToken input store)
        stored ↔
      Servable created.responseHeaders ∧ Taken server created.responseHeaders ∧
        HasContent input.method created := by
  have hnames := not_forbidden hcreate
  have hrowNames : ∀ field ∈ result.endpoint.responseHeaders.items,
      lower field.1 ∉ forbiddenHeaders :=
    fun field hfield => hnames field (hrow.headers.mem_iff.mp hfield)
  rw [hasContent_iff, ← hrow.status, ← hrow.body]
  constructor
  · intro hserved
    obtain ⟨result', raw, wire, head, fields, hroute, hfields, hheaders, -, -, hhead, hread⟩ :=
      hserved
    obtain ⟨hlatin1, rfl⟩ := mapM_encodeField.mp hfields
    have hrowLatin1 : ∀ field ∈ result.endpoint.responseHeaders.items, InLatin1 field :=
      fun field hfield => hlatin1 field (hrow.headers.mem_iff.mp hfield)
    have hplain := plain_encoded hrowNames hrowLatin1
    obtain ⟨hsent, rfl⟩ := send_of_captureRoute hexecute
      (buildResponse_ok hrowNames hrowLatin1) hroute
    have htaken := takes_of_send hsent
    have hformed := wellFormed_of_readHead (by simp) (by simp [Sound]) hread
    have hservable : Servable created.responseHeaders := by
      intro field hfield
      refine (wellFormed_encoded (hlatin1 field hfield)).mp (hformed _ ?_)
      refine hhead.mem_iff.mpr (List.mem_append_right _ (hheaders.mem_iff.mpr ?_))
      exact List.mem_append_left _ (List.mem_map_of_mem hfield)
    refine ⟨hservable, ?_, ?_, content_of_send hplain hsent⟩
    · intro field hfield
      exact htaken _ (List.mem_map_of_mem (hrow.headers.mem_iff.mpr hfield))
    · intro hunframed
      obtain ⟨head', hhead', hsend⟩ := server.sendsChunks input.method _ _
        (encodeUtf8 result.endpoint.responseBody) hplain htaken hunframed
      obtain rfl := Except.ok.inj (hsent.symm.trans hsend)
      refine not_read_chunked hhead hhead' ?_ hread
      exact wellFormed_head [chunkedField] hhead' (by simp [wellFormed_chunkedField])
        (wellFormed_row hrow hlatin1 hservable)
  · rintro ⟨hservable, htaken, hframed, hcontent⟩
    have hlatin1 : ∀ field ∈ created.responseHeaders.items, InLatin1 field := fun field hfield =>
      ⟨(hservable field hfield).1.inLatin1, (hservable field hfield).2.inLatin1⟩
    have hrowLatin1 : ∀ field ∈ result.endpoint.responseHeaders.items, InLatin1 field :=
      fun field hfield => hlatin1 field (hrow.headers.mem_iff.mp hfield)
    have hrowTaken : ∀ f ∈ result.endpoint.responseHeaders.items.map encoded,
        server.takes f = true :=
      List.forall_mem_map.mpr fun field hfield => htaken field (hrow.headers.mem_iff.mp hfield)
    have hrowFormed : ∀ f ∈ result.endpoint.responseHeaders.items.map encoded, WellFormed f :=
      wellFormed_row hrow hlatin1 hservable
    obtain ⟨head, hhead, hsend⟩ := server.sends input.method _ _ _
      (plain_encoded hrowNames hrowLatin1) hrowTaken hframed hcontent
    refine ⟨result, _, _, head, _,
      captureRoute_sent hexecute (buildResponse_ok hrowNames hrowLatin1) hsend,
      mapM_encodeField.mpr ⟨hlatin1, rfl⟩, ?_, hrow.status,
      congrArg encodeUtf8 hrow.body, hhead,
      readHead_render_iff.mpr (wellFormed_head [] hhead (by simp) hrowFormed)⟩
    rw [← hrow.status]
    exact (hrow.headers.map encoded).append_right _

end Route

def noteConfig (value : String) : ResponseConfig where
  statusCode := 200
  body := "ok"
  headers := some (PyDict.empty.set "X-Note" value)
  delayMs := 0

def noted (value : String) : Endpoint :=
  { sampleEndpoint with
    requestCount := 0
    responseHeaders := PyDict.empty.set "X-Note" value
    forwardUrl := none }

def notedStore (value : String) : Store := ⟨⟨[noted value], [], [], []⟩, []⟩

theorem create_noted (value : String) : create sampleEndpoint.id sampleEndpoint.createdAt "tok" 7
    (noteConfig value) = .ok (noted value) := by
  have hheaders : validateResponseHeaders ((noteConfig value).headers.getD .empty) = .ok () := by
    have hname : lower "X-Note" ∉ forbiddenHeaders := by decide +kernel
    simp [validateResponseHeaders, noteConfig, PyDict.set, PyDict.setItems, PyDict.empty, hname]
  have hbody : validateResponseBodySize (noteConfig value).body = .ok () := by
    have hsize : ¬ maxBodyBytes < (encodeUtf8 "ok").length := by decide +kernel
    exact if_neg hsize
  unfold create
  rw [hbody, hheaders]
  rfl

def pinged (value : String) : Store :=
  CaptureTransaction.recorded sampleEndpoint.id (CaptureRequest.sampleCaptured (some "ping") none 4)
    ((notedStore value).db.put (.request (CaptureRequest.sampleCaptured (some "ping") none 4)))
    (notedStore value)

theorem execute_noted (value : String) :
    (execute (CaptureRequest.sampleCollaborators (.returns ())) none "tok"
      (sampleInput (encodeUtf8 "ping"))).run ⟨notedStore value, false⟩ =
        (.ok ⟨CaptureRequest.sampleCaptured (some "ping") none 4, noted value, none⟩,
          ⟨pinged value, false⟩) := by
  have hendpoint : EndpointRepository.findByToken "tok" (notedStore value).db.endpoints =
      some (noted value) := rfl
  have hsave : (notedStore value).db.saveRequest
      (CaptureRequest.sampleCaptured (some "ping") none 4) =
        some ((notedStore value).db.put
          (.request (CaptureRequest.sampleCaptured (some "ping") none 4))) := by
    rw [Database.saveRequest, Database.save]
    exact if_pos rfl
  rw [CaptureTransaction.execute_run none hendpoint
    ((CaptureRequest.prepare_congr rfl rfl rfl).trans prepare_ping) hsave,
    CaptureTransaction.forwardPhase_none rfl, Work.bind_run (Work.pure_run _ _)]
  rfl

def sampleChunks (sent : Bytes) : Bytes :=
  let crlf : Bytes := [13, 10]
  (if sent = [] then [] else
    (Nat.toDigits 16 sent.length).map Latin1.byte ++ crlf ++ sent ++ crlf) ++ 48 :: crlf ++ crlf

def sampleOwn : List Field :=
  [("server".toList.map Latin1.byte, "uvicorn".toList.map Latin1.byte)]

theorem wellFormed_sampleOwn : ∀ f ∈ sampleOwn, WellFormed f := by
  have hname : TokenText "server" := by decide +kernel
  have hvalue : ValueText "uvicorn" := by decide +kernel
  exact List.forall_mem_singleton.mpr ⟨(token_iff hname.inLatin1).mpr hname,
    (fieldValue_iff hvalue.inLatin1).mpr hvalue⟩

def sampleSend (method : String) (response : RawResponse) : Except Failure Bytes :=
  let sent := content method response.body
  if Unframed method response.status then
    .ok (render (chunkedField :: (sampleOwn ++ response.headers)) ++ sampleChunks sent)
  else if Bodiless response.status ∧ sent ≠ [] then .error (raised "RuntimeError")
  else .ok (render (sampleOwn ++ response.headers) ++ sent)

theorem sampleSend_error {method : String} {response : RawResponse}
    (hbodiless : Bodiless response.status) (hcontent : content method response.body ≠ []) :
    ∃ failure, sampleSend method response = .error failure := by
  have hframed : ¬ Unframed method response.status := by
    intro hunframed
    have hlow := hunframed.1
    rcases hbodiless with h | h <;> omega
  exact ⟨_, (if_neg hframed).trans (if_pos ⟨hbodiless, hcontent⟩)⟩

theorem sampleSend_ok {method : String} {response : RawResponse}
    (hframed : ¬ Unframed method response.status)
    (hcontent : Bodiless response.status → content method response.body = []) :
    sampleSend method response =
      .ok (render (sampleOwn ++ response.headers) ++ content method response.body) :=
  (if_neg hframed).trans (if_neg fun hboth => hboth.2 (hcontent hboth.1))

def sampleServer : Server where
  send := sampleSend
  takes _ := true
  own := sampleOwn
  own_formed := wellFormed_sampleOwn
  chunks := sampleChunks
  refusesField _ _ _ _ h := Bool.noConfusion h.choose_spec.2
  refusesContent _ _ _ _ _ hbodiless hcontent := sampleSend_error hbodiless hcontent
  sends _ _ _ _ _ _ hframed hcontent := ⟨_, List.Perm.refl _, sampleSend_ok hframed hcontent⟩
  sendsChunks _ _ _ _ _ _ hunframed := ⟨_, List.Perm.refl _, if_pos hunframed⟩

theorem note_served : ∃ stored, stored.db.requests.length = 1 ∧
    Served sampleServer (noted "hello") "POST"
      (captureRoute sampleServer (CaptureRequest.sampleCollaborators (.returns ())) none "tok"
        (sampleInput (encodeUtf8 "ping")) (notedStore "hello")) stored := by
  refine ⟨pinged "hello", rfl, (served_iff sampleServer (create_noted "hello")
    (execute_noted "hello") ⟨rfl, rfl, List.Perm.refl _⟩).mpr ⟨?_, fun _ _ => rfl, ?_⟩⟩
  · have hname : lower "X-Note" = "x-note" := by decide +kernel
    refine List.forall_mem_singleton.mpr ⟨?_, by decide +kernel⟩
    dsimp only
    rw [hname]
    decide +kernel
  · refine Or.inr ⟨by decide, fun hbodiless => ?_⟩
    exact absurd hbodiless (by decide)

/-- A check mark is no latin-1, and the capture is lost. -/
theorem check_mark_lost : ¬ ∀ (server : Server) (id : UUID) (now : Datetime) (token : String)
    (ttlDays : ℤ) (config : ResponseConfig) (created : Endpoint) (env : Collaborators)
    (fault : Option SaveFault) (captureToken : String) (input : Input) (store stored : Store)
    (result : CaptureTransaction.Result), create id now token ttlDays config = .ok created →
    (execute env fault captureToken input).run ⟨store, false⟩ = (.ok result, ⟨stored, false⟩) →
    Stored created result.endpoint → Served server created input.method
      (captureRoute server env fault captureToken input store) stored := by
  intro hclaim
  have hserved := hclaim sampleServer _ _ _ _ _ _ _ _ _ _ _ _ _ (create_noted "✓")
    (execute_noted "✓") ⟨rfl, rfl, List.Perm.refl _⟩
  have hbuild : buildResponse (noted "✓") = .error (raised "UnicodeEncodeError") := by
    rw [buildResponse_eq]
    rfl
  obtain ⟨result, raw, wire, head, fields, hroute, -⟩ := hserved
  rw [captureRoute_raised (execute_noted "✓") hbuild] at hroute
  cases hroute

end Hooktrace.CustomResponse
