import Hooktrace.IntegrationDetection
import Hooktrace.SignatureValidators

/-!
The ingestor up to the row that it hands to the repository: the signature is validated, the
integration detected, the body kept inline or put into the blob store. A put that raises is
caught, and the row is handed over without a body.
-/
namespace Hooktrace.CaptureRequest

open ExecuteForward (Answer Interrupt PyError nonceSize)
open SignatureValidators (Primitives ValidationResult getValidator given validate)
open IntegrationDetection

/-- What the use case is built with, and what one run draws: two fresh ids and the clock. -/
structure Collaborators where
  secretsKey : Bytes
  aesGcmDecrypt : Bytes → Bytes → Bytes → Option Bytes
  primitives : Primitives
  recursionLimit : ℕ
  inlineThreshold : ℤ
  blobPut : String → Bytes → Answer Unit
  requestId : UUID
  receivedAt : Datetime
  forwardId : UUID
  forwardedAt : Datetime

structure Input where
  method : String
  path : String
  queryString : Option String
  headers : Headers
  body : Bytes
  sourceIp : String

/-- `decrypt_secret`, as the worker has it too. -/
def decryptSecret (env : Collaborators) (blob : Bytes) : Except PyError String :=
  if env.secretsKey.length ≠ 32 then .error (.other "ValueError")
  else if blob.length < nonceSize then .error (.other "ValueError")
  else match env.aesGcmDecrypt env.secretsKey (blob.take nonceSize) (blob.drop nonceSize) with
    | none => .error (.other "InvalidTag")
    | some plaintext =>
      match decodeUtf8 plaintext with
      | none => .error (.other "UnicodeDecodeError")
      | some secret => .ok secret

/-- The two use cases read a secret in the same way. -/
theorem decryptSecret_eq (env : Collaborators) (worker : ExecuteForward.Collaborators)
    (hprimitive : worker.aesGcmDecrypt = env.aesGcmDecrypt) (blob : Bytes) :
    ExecuteForward.decryptSecret worker env.secretsKey blob =
      (decryptSecret env blob).mapError .raised := by
  unfold ExecuteForward.decryptSecret decryptSecret
  rw [hprimitive]
  split
  · rfl
  · split
    · rfl
    · cases env.aesGcmDecrypt env.secretsKey (blob.take nonceSize) (blob.drop nonceSize) with
      | none => rfl
      | some plaintext => cases hsecret : decodeUtf8 plaintext <;> simp [hsecret, Except.mapError]

/-- The try block around the validator; only an InvalidTag is caught. -/
def validateSignature (env : Collaborators) (provider : SignatureValidators.Provider)
    (blob : Bytes) (input : Input) : Except PyError ValidationResult :=
  match (do
    let secret ← decryptSecret env blob
    validate env.primitives provider input.body input.headers secret) with
  | .error (.other "InvalidTag") => .ok .invalid
  | result => result

def signatureStatus (env : Collaborators) (endpoint : Endpoint) (input : Input) :
    Except PyError ValidationResult :=
  match given endpoint.signatureProvider, endpoint.signatureSecretEncrypted with
  | some provider, some (b :: blob) =>
    match getValidator provider with
    | none => .ok .noProvider
    | some validator => validateSignature env validator (b :: blob) input
  | _, _ => .ok .noProvider

/-- The name and the event type, for Stripe from the body. -/
def detect (env : Collaborators) (input : Input) :
    Except PyError (Option String × Option PyStr) :=
  let formParams := parseFormParams input.body ((input.headers.get? "content-type").getD "")
  match detectIntegration input.headers ((input.headers.get? "user-agent").getD "") formParams with
  | none => .ok (none, none)
  | some ("stripe", _) => do
    let eventType ← extractStripeEventType env.recursionLimit input.body
    pure (some "stripe", eventType)
  | some (name, eventType) => .ok (some name, eventType)

def decodeBodySafe (body : Bytes) : String := (decodeUtf8 body).getD (reprBytes body)

def isInline (env : Collaborators) (body : Bytes) : Bool := body.length ≤ env.inlineThreshold

def blobKey (env : Collaborators) (endpointId : UUID) : String :=
  s!"{endpointId.str}/{env.requestId.str}"

/-- `CapturedRequest.create`. -/
def create (env : Collaborators) (endpointId : UUID) (input : Input) (status : ValidationResult)
    (integration : Option String) (eventType : Option PyStr) : Except PyError CapturedRequest :=
  let method := input.method.toUpper
  if method ≠ method.toUpper then .error (.other "ValueError")
  else .ok
    { id := env.requestId
      endpointId
      method
      path := input.path
      queryString := input.queryString
      headers := input.headers
      bodyPreview := if isInline env input.body then some (decodeBodySafe input.body) else none
      bodySize := input.body.length
      blobKey := if isInline env input.body then none else some (blobKey env endpointId)
      sourceIp := input.sourceIp
      receivedAt := env.receivedAt
      signatureStatus := some status.value
      detectedIntegration := integration
      detectedEventType := eventType }

/-- The row without its body; the size and the rest stay. -/
def downgraded (captured : CapturedRequest) : CapturedRequest :=
  { captured with
    bodyPreview := none
    blobKey := none }

/-- `blob_storage.put`, where the row has a key. -/
def storeBody (env : Collaborators) (body : Bytes) (captured : CapturedRequest) :
    Except Interrupt CapturedRequest :=
  match captured.blobKey with
  | none => .ok captured
  | some key =>
    match env.blobPut key body with
    | .returns _ => .ok captured
    | .raises _ => .ok (downgraded captured)
    | .hangs => .error .cancelled

def raise {α : Type} (result : Except PyError α) : Except Interrupt α := result.mapError .raised

/-- The row handed to `request_repo.save`. -/
def prepare (env : Collaborators) (endpoint : Endpoint) (input : Input) :
    Except Interrupt CapturedRequest := do
  let status ← raise (signatureStatus env endpoint input)
  let (integration, eventType) ← raise (detect env input)
  let captured ← raise (create env endpoint.id input status integration eventType)
  storeBody env input.body captured

section Lemmas

variable {env : Collaborators} {endpoint : Endpoint} {input : Input} {captured : CapturedRequest}

theorem bind_ok {E α β : Type} {x : Except E α} {f : α → Except E β} {b : β}
    (h : x >>= f = .ok b) : ∃ a, x = .ok a ∧ f a = .ok b := by
  cases x with
  | error e => simp [bind, Except.bind] at h
  | ok a => exact ⟨a, rfl, h⟩

theorem raise_ok {α : Type} {x : Except PyError α} {a : α} (h : raise x = .ok a) : x = .ok a := by
  cases x with
  | error e => simp [raise, Except.mapError] at h
  | ok a' => simpa [raise, Except.mapError] using h

theorem prepare_ok (h : prepare env endpoint input = .ok captured) :
    ∃ status integration eventType created,
      signatureStatus env endpoint input = .ok status ∧
      detect env input = .ok (integration, eventType) ∧
      create env endpoint.id input status integration eventType = .ok created ∧
      storeBody env input.body created = .ok captured := by
  obtain ⟨status, hstatus, h⟩ := bind_ok h
  obtain ⟨⟨integration, eventType⟩, hdetect, h⟩ := bind_ok h
  obtain ⟨created, hcreate, h⟩ := bind_ok h
  exact ⟨status, integration, eventType, created, raise_ok hstatus, raise_ok hdetect,
    raise_ok hcreate, h⟩

/-- What the row has of the request, wherever its body is. -/
structure Describes (env : Collaborators) (input : Input) (captured : CapturedRequest) : Prop where
  method_eq : captured.method = input.method.toUpper
  path_eq : captured.path = input.path
  query_eq : captured.queryString = input.queryString
  headers_eq : captured.headers = input.headers
  size_eq : captured.bodySize = input.body.length
  source_eq : captured.sourceIp = input.sourceIp
  status_eq : ∃ status : ValidationResult, captured.signatureStatus = some status.value
  detect_eq : detect env input = .ok (captured.detectedIntegration, captured.detectedEventType)

theorem prepare_describes (h : prepare env endpoint input = .ok captured) :
    Describes env input captured := by
  obtain ⟨status, integration, eventType, created, -, hdetect, hcreate, hstore⟩ := prepare_ok h
  have hcreated : Describes env input created := by
    unfold create at hcreate
    dsimp only at hcreate
    split at hcreate
    · simp at hcreate
    · obtain rfl := Except.ok.inj hcreate
      exact ⟨rfl, rfl, rfl, rfl, rfl, rfl, ⟨status, rfl⟩, hdetect⟩
  unfold storeBody at hstore
  split at hstore
  · exact Except.ok.inj hstore ▸ hcreated
  · split at hstore
    · exact Except.ok.inj hstore ▸ hcreated
    · exact Except.ok.inj hstore ▸ ⟨hcreated.method_eq, hcreated.path_eq, hcreated.query_eq,
        hcreated.headers_eq, hcreated.size_eq, hcreated.source_eq, hcreated.status_eq,
        hcreated.detect_eq⟩
    · simp at hstore

inductive BodyPlace (env : Collaborators) (endpointId : UUID) (body : Bytes)
    (captured : CapturedRequest) : Prop
  | row (hinline : isInline env body = true) (hkey : captured.blobKey = none)
      (hpreview : captured.bodyPreview = some (decodeBodySafe body))
  | blob (hinline : isInline env body = false)
      (hkey : captured.blobKey = some (blobKey env endpointId))
      (hpreview : captured.bodyPreview = none)
      (hput : env.blobPut (blobKey env endpointId) body = .returns ())
  | lost (hinline : isInline env body = false) (hkey : captured.blobKey = none)
      (hpreview : captured.bodyPreview = none) (error : PyError)
      (hput : env.blobPut (blobKey env endpointId) body = .raises error)

theorem prepare_body (h : prepare env endpoint input = .ok captured) :
    BodyPlace env endpoint.id input.body captured := by
  obtain ⟨status, integration, eventType, created, -, -, hcreate, hstore⟩ := prepare_ok h
  unfold create at hcreate
  dsimp only at hcreate
  split at hcreate
  · simp at hcreate
  · obtain rfl := Except.ok.inj hcreate
    cases hinline : isInline env input.body with
    | true =>
      simp only [storeBody, hinline, if_true, Except.ok.injEq] at hstore
      subst hstore
      exact .row hinline rfl rfl
    | false =>
      simp only [storeBody, hinline, Bool.false_eq_true, if_false] at hstore
      cases hput : env.blobPut (blobKey env endpoint.id) input.body with
      | returns u =>
        simp only [hput, Except.ok.injEq] at hstore
        subst hstore
        exact .blob hinline rfl rfl hput
      | raises error =>
        simp only [hput, Except.ok.injEq] at hstore
        subst hstore
        exact .lost hinline rfl rfl error hput
      | hangs => simp [hput] at hstore

/-- The event type of Stripe is the one in the body, any other is the value of a header. -/
theorem detect_cases {integration : Option String} {eventType : Option PyStr}
    (h : detect env input = .ok (integration, eventType)) :
    (∀ name, integration = some name → name ∈ integrationNames) ∧
      (((lowered input.headers).has "stripe-signature" = true ∧
          extractStripeEventType env.recursionLimit input.body = .ok eventType) ∨
        ((lowered input.headers).has "stripe-signature" ≠ true ∧
          ∀ text, eventType = some text →
            ∃ k v, (lowered input.headers).get? k = some v ∧ text = .ofString v)) := by
  unfold detect at h
  dsimp only at h
  split at h
  · rename_i hnone
    obtain ⟨rfl, rfl⟩ := Prod.mk.inj (Except.ok.inj h)
    refine ⟨by simp, Or.inr ⟨?_, by simp⟩⟩
    intro hstripe
    simp [detectIntegration_stripe hstripe] at hnone
  · rename_i hfound
    obtain ⟨eventType', hextract, hresult⟩ := bind_ok h
    obtain ⟨rfl, rfl⟩ := Prod.mk.inj (Except.ok.inj hresult)
    have hfinds := detectIntegration_finds hfound
    refine ⟨?_, Or.inl ⟨hfinds.stripe rfl, hextract⟩⟩
    intro name hname
    exact Option.some.inj hname ▸ hfinds.name_mem
  · rename_i name event hother hfound
    obtain ⟨rfl, rfl⟩ := Prod.mk.inj (Except.ok.inj h)
    have hfinds := detectIntegration_finds hfound
    refine ⟨?_, Or.inr ⟨?_, hfinds.event⟩⟩
    · intro name' hname
      exact Option.some.inj hname ▸ hfinds.name_mem
    · intro hstripe
      rw [detectIntegration_stripe hstripe] at hfound
      obtain ⟨rfl, rfl⟩ := Prod.mk.inj (Option.some.inj hfound)
      exact hother rfl

/-- Nothing that is prepared depends on where the endpoint forwards to. -/
theorem prepare_congr {endpoint' : Endpoint} (hid : endpoint'.id = endpoint.id)
    (hprovider : endpoint'.signatureProvider = endpoint.signatureProvider)
    (hsecret : endpoint'.signatureSecretEncrypted = endpoint.signatureSecretEncrypted) :
    prepare env endpoint' input = prepare env endpoint input := by
  unfold prepare signatureStatus
  rw [hid, hprovider, hsecret]

end Lemmas

def sampleCollaborators (blobPut : Answer Unit) : Collaborators where
  secretsKey := []
  aesGcmDecrypt _ _ _ := none
  primitives := SignatureValidators.samplePrimitives
  recursionLimit := 1000
  inlineThreshold := 8
  blobPut _ _ := blobPut
  requestId := sampleRequest.id
  receivedAt := seconds 1000
  forwardId := sampleForwardId
  forwardedAt := seconds 1000

def sampleInput (body : Bytes) : Input where
  method := "POST"
  path := "/h/tok"
  queryString := none
  headers := .empty
  body := body
  sourceIp := "203.0.113.7"

def sampleCaptured (bodyPreview blobKey : Option String) (bodySize : ℕ) : CapturedRequest :=
  { sampleRequest with
    bodyPreview
    blobKey
    bodySize
    signatureStatus := some "no_provider" }

theorem prepare_ping : prepare (sampleCollaborators (.returns ())) sampleEndpoint
    (sampleInput (encodeUtf8 "ping")) = .ok (sampleCaptured (some "ping") none 4) := by
  decide +kernel

end Hooktrace.CaptureRequest
