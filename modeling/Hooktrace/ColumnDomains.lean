import Hooktrace.CaptureRoute

/-!
Whether the INSERT of a captured request can be rejected. `Storable` is the domain of the
columns, `Acceptable` says of the request itself when its row is within it: the ingestor hands
on U+0000 from every text of the request, the text of a proxy header that is no address, and
what a Stripe body escapes.
-/
namespace Hooktrace.ColumnDomains

open CaptureRequest
open CaptureRoute (HttpRequest GivesIp captureMethods givesIp_iff)
open IntegrationDetection (HasStripeType integrationNames lowered)
open SignatureValidators (ValidationResult given)

/-- TEXT and JSONB take neither U+0000 nor a surrogate. -/
def StorableText (text : PyStr) : Prop :=
  ∀ c ∈ text, c.val ≠ 0 ∧ isHighSurrogate c = false ∧ isLowSurrogate c = false

/-- A row that none of its own columns rejects; `inet` tells the texts that INET takes. The column
`search_vector`, which the database generates from the row, is left out. -/
structure Storable (inet : String → Bool) (row : CapturedRequest) : Prop where
  method : StorableText (.ofString row.method)
  path : StorableText (.ofString row.path)
  query : ∀ query, row.queryString = some query → StorableText (.ofString query)
  headers : ∀ field ∈ row.headers.items,
    StorableText (.ofString field.1) ∧ StorableText (.ofString field.2)
  preview : ∀ preview, row.bodyPreview = some preview → StorableText (.ofString preview)
  size : row.bodySize < 2 ^ 31
  key : ∀ key, row.blobKey = some key → StorableText (.ofString key)
  source : inet row.sourceIp = true
  status : ∀ status, row.signatureStatus = some status → StorableText (.ofString status)
  integration : ∀ name, row.detectedIntegration = some name → name ∈ integrationNames
  event : ∀ eventType, row.detectedEventType = some eventType → StorableText eventType

/-- What has to hold of the request, and of the endpoint's token. -/
structure Acceptable (inet : String → Bool) (env : Collaborators) (token : String)
    (request : HttpRequest) : Prop where
  token : nul ∉ token.toList
  rest : nul ∉ request.rest.toList
  query : nul ∉ request.query.toList
  headers : ∀ field ∈ (lowerKeys request.headers).items,
    nul ∉ field.1.toList ∧ nul ∉ field.2.toList
  body : isInline env request.body = true → (decodeUtf8 request.body).isSome = true →
    0 ∉ request.body
  size : request.body.length < 2 ^ 31
  source : GivesIp (fun ip => inet ip = true) request
  event : (∃ field ∈ request.headers, field.1.toLower = "stripe-signature") →
    ∀ eventType, HasStripeType env.recursionLimit request.body eventType → StorableText eventType

/-- A text of characters has no surrogate. -/
theorem storableText_ofString {s : String} : StorableText (.ofString s) ↔ nul ∉ s.toList := by
  have hzero : ∀ c : Char, c.toNat = 0 ↔ c = nul := by
    intro c
    rw [← Char.toNat_inj]
    rfl
  constructor
  · intro h hmem
    exact (h _ (List.mem_map_of_mem hmem)).1 rfl
  · intro h code hcode
    obtain ⟨c, hc, rfl⟩ := List.mem_map.mp hcode
    refine ⟨?_, surrogate_toNat c⟩
    intro hcode
    exact h ((hzero c).mp hcode ▸ hc)

theorem storable_path {token : String} {request : HttpRequest} :
    StorableText (.ofString (CaptureRoute.input token request).path) ↔
      nul ∉ token.toList ∧ nul ∉ request.rest.toList := by
  rw [storableText_ofString]
  have hslash : nul ≠ '/' := by decide
  have hletter : nul ≠ 'h' := by decide
  simp only [CaptureRoute.input, String.toList_append, List.mem_append, toString]
  simp [hslash, hletter]

theorem storable_query {query : String} :
    (∀ text, given (some query) = some text → StorableText (.ofString text)) ↔
      nul ∉ query.toList := by
  simp only [CaptureRoute.given_eq_some, Option.some.injEq, storableText_ofString]
  constructor
  · intro h hmem
    have hne : query ≠ "" := by
      intro hempty
      simp [hempty] at hmem
    exact h query ⟨rfl, hne⟩ hmem
  · intro h text htext
    exact htext.1 ▸ h

/-- What stands for a body inline is free of U+0000 unless the body is a text that has it. -/
theorem storable_preview {body : Bytes} : StorableText (.ofString (decodeBodySafe body)) ↔
    ((decodeUtf8 body).isSome = true → 0 ∉ body) := by
  rw [storableText_ofString]
  cases hdecoded : decodeUtf8 body with
  | none => simp [decodeBodySafe, hdecoded, nul_notMem_reprBytes]
  | some text =>
    have hbody := decodeUtf8_eq_some.mp hdecoded
    simp [decodeBodySafe, hdecoded, ← zero_mem_encodeUtf8, hbody]

theorem nul_notMem_uuid (u : UUID) : nul ∉ u.str.toList := u.notMem_str (by simp [nul])

theorem storable_blobKey (env : Collaborators) (endpointId : UUID) :
    StorableText (.ofString (blobKey env endpointId)) := by
  rw [storableText_ofString]
  have hslash : nul ≠ '/' := by decide
  simp only [blobKey, String.toList_append, List.mem_append, toString]
  simp [hslash, nul_notMem_uuid]

theorem storable_method {method : String} (h : method ∈ captureMethods) :
    StorableText (.ofString method.toUpper) := by
  rw [storableText_ofString]
  simp only [captureMethods, List.mem_cons, List.not_mem_nil, or_false] at h
  rcases h with rfl | rfl | rfl | rfl | rfl | rfl | rfl <;>
    simp [String.toUpper, nul]

theorem storable_status (status : ValidationResult) :
    StorableText (.ofString status.value) := by
  rw [storableText_ofString]
  cases status <;> simp [ValidationResult.value, nul]

section Row

variable {inet : String → Bool} {env : Collaborators} {endpoint : Endpoint}
variable {request : HttpRequest} {row : CapturedRequest}

theorem preview_iff {body : Bytes} (h : BodyPlace env endpoint.id body row) :
    (∀ preview, row.bodyPreview = some preview → StorableText (.ofString preview)) ↔
      (isInline env body = true → (decodeUtf8 body).isSome = true → 0 ∉ body) := by
  cases h with
  | row hinline hkey hpreview => simp [hpreview, hinline, storable_preview]
  | blob hinline hkey hpreview hput => simp [hpreview, hinline]
  | lost hinline hkey hpreview error hput => simp [hpreview, hinline]

theorem key_storable {body : Bytes} (h : BodyPlace env endpoint.id body row) :
    ∀ key, row.blobKey = some key → StorableText (.ofString key) := by
  intro key hkey'
  cases h with
  | row hinline hkey hpreview => simp [hkey] at hkey'
  | blob hinline hkey hpreview hput =>
    exact Option.some.inj (hkey.symm.trans hkey') ▸ storable_blobKey env endpoint.id
  | lost hinline hkey hpreview error hput => simp [hkey] at hkey'

/-- The value of a header is storable where the headers are; Stripe's event type is not one. -/
theorem event_iff (h : Describes env (CaptureRoute.input endpoint.token request) row)
    (hheaders : ∀ field ∈ (lowerKeys request.headers).items,
      nul ∉ field.1.toList ∧ nul ∉ field.2.toList) :
    (∀ eventType, row.detectedEventType = some eventType → StorableText eventType) ↔
      ((∃ field ∈ request.headers, field.1.toLower = "stripe-signature") →
        ∀ eventType, HasStripeType env.recursionLimit request.body eventType →
          StorableText eventType) := by
  have hstripe : (lowered (lowerKeys request.headers)).has "stripe-signature" = true ↔
      ∃ field ∈ request.headers, field.1.toLower = "stripe-signature" := by
    rw [lowered, has_lowerKeys_lowerKeys, has_lowerKeys]
  rcases (detect_cases h.detect_eq).2 with ⟨hhas, hextract⟩ | ⟨hhas, hvalue⟩
  · have hfield := hstripe.mp hhas
    simp only [hfield, true_imp_iff]
    refine forall_congr' fun eventType => ?_
    rw [← IntegrationDetection.extractStripeEventType_iff]
    change _ ↔ (IntegrationDetection.extractStripeEventType env.recursionLimit
      (CaptureRoute.input endpoint.token request).body = _ → _)
    rw [hextract]
    simp
  · have hfield : ¬ ∃ field ∈ request.headers, field.1.toLower = "stripe-signature" :=
      fun hfound => hhas (hstripe.mpr hfound)
    simp only [hfield, false_imp_iff, iff_true]
    intro eventType heventType
    obtain ⟨k, v, hv, rfl⟩ := hvalue eventType heventType
    obtain ⟨field, hmem, heq⟩ := mem_lowerKeys (PyDict.mem_items_of_get? hv)
    obtain ⟨-, rfl⟩ := Prod.mk.inj heq
    exact storableText_ofString.mpr (hheaders field hmem).2

/-- The row of a request is storable if and only if the request is acceptable. -/
theorem storable_iff
    (h : prepare env endpoint (CaptureRoute.input endpoint.token request) = .ok row) :
    Storable inet row ↔ Acceptable inet env endpoint.token request := by
  have hbody := prepare_body h
  have hrow := prepare_describes h
  have hheaders : (∀ field ∈ row.headers.items,
      StorableText (.ofString field.1) ∧ StorableText (.ofString field.2)) ↔
      ∀ field ∈ (lowerKeys request.headers).items,
        nul ∉ field.1.toList ∧ nul ∉ field.2.toList := by
    simp only [hrow.headers_eq, storableText_ofString]
    rfl
  have hsource : inet row.sourceIp = true ↔ GivesIp (fun ip => inet ip = true) request := by
    rw [hrow.source_eq, givesIp_iff]
    rfl
  have hquery : (∀ query, row.queryString = some query → StorableText (.ofString query)) ↔
      nul ∉ request.query.toList := by
    rw [hrow.query_eq]
    exact storable_query
  have hpath : StorableText (.ofString row.path) ↔
      nul ∉ endpoint.token.toList ∧ nul ∉ request.rest.toList := by
    rw [hrow.path_eq, storable_path]
  constructor
  · intro hstorable
    have hfields := hheaders.mp hstorable.headers
    exact
      { token := (hpath.mp hstorable.path).1
        rest := (hpath.mp hstorable.path).2
        query := hquery.mp hstorable.query
        headers := hfields
        body := (preview_iff hbody).mp hstorable.preview
        size := hrow.size_eq ▸ hstorable.size
        source := hsource.mp hstorable.source
        event := (event_iff hrow hfields).mp hstorable.event }
  · intro hacceptable
    obtain ⟨status, hstatus⟩ := hrow.status_eq
    exact
      { method := hrow.method_eq ▸ storable_method request.method_mem
        path := hpath.mpr ⟨hacceptable.token, hacceptable.rest⟩
        query := hquery.mpr hacceptable.query
        headers := hheaders.mpr hacceptable.headers
        preview := (preview_iff hbody).mpr hacceptable.body
        size := hrow.size_eq ▸ hacceptable.size
        key := key_storable hbody
        source := hsource.mpr hacceptable.source
        status := by
          intro text htext
          exact Option.some.inj (hstatus.symm.trans htext) ▸ storable_status status
        integration := (detect_cases hrow.detect_eq).1
        event := (event_iff hrow hacceptable.headers).mpr hacceptable.event }

end Row

def directRequest (body : Bytes) : HttpRequest where
  method := "POST"
  rest := ""
  query := ""
  headers := []
  clientHost := some "203.0.113.7"
  body := body
  method_mem := by decide +kernel

theorem ping_storable :
    Storable (fun ip => ip = "203.0.113.7") (sampleCaptured (some "ping") none 4) := by
  have hprepare : prepare (sampleCollaborators (.returns ())) sampleEndpoint
      (CaptureRoute.input sampleEndpoint.token (directRequest (encodeUtf8 "ping"))) =
        .ok (sampleCaptured (some "ping") none 4) := by
    decide +kernel
  refine (storable_iff hprepare).mpr ?_
  exact
    { token := by decide +kernel
      rest := by decide +kernel
      query := by decide +kernel
      headers := by decide +kernel
      body := by decide +kernel
      size := by decide +kernel
      source := givesIp_iff.mpr (by decide +kernel)
      event := by
        intro hstripe
        obtain ⟨field, hfield, -⟩ := hstripe
        exact absurd hfield List.not_mem_nil }

/-- A body of one zero byte, in UTF-8 and kept inline, is rejected whatever INET takes. -/
theorem nul_body_rejected :
    prepare (sampleCollaborators (.returns ())) sampleEndpoint
        (CaptureRoute.input sampleEndpoint.token (directRequest [0])) =
      .ok (sampleCaptured (some (.ofList [nul])) none 1) ∧
    ∀ inet, ¬ Storable inet (sampleCaptured (some (.ofList [nul])) none 1) := by
  refine ⟨by decide +kernel, ?_⟩
  intro inet hstorable
  have hpreview := storableText_ofString.mp (hstorable.preview _ rfl)
  exact hpreview (by decide +kernel)

end Hooktrace.ColumnDomains
