import Hooktrace.EndpointRepository
import Hooktrace.ExecuteForward

/-!
The config PATCH: read the endpoint, change the entity, write the entity back.
-/
namespace Hooktrace.UpdateEndpointConfig

open Table EndpointRepository
open ExecuteForward (PyError nonceSize)

/-- The keyword arguments of `execute`, as the route fills them from the body. -/
structure Patch where
  signatureProvider : Option String
  signatureSecret : Option String
  forwardUrl : Option String
  forwardHeaders : Option Headers
  forwardSecret : Option String
  deriving DecidableEq

/-- The key and the primitive, with the bytes that `os.urandom` gives each encryption. -/
structure Encryption where
  secretsKey : Bytes
  aesGcmEncrypt : Bytes → Bytes → Bytes → Bytes
  signatureNonce : Bytes
  forwardNonce : Bytes

def encryptSecret (env : Encryption) (nonce : Bytes) (plaintext : String) :
    Except PyError Bytes :=
  if env.secretsKey.length ≠ 32 then .error (.other "ValueError")
  else .ok (nonce ++ env.aesGcmEncrypt env.secretsKey nonce (encodeUtf8 plaintext))

/-- `if secret is not None`; otherwise the stored one stays. -/
def replacedSecret (env : Encryption) (nonce : Bytes) (secret : Option String)
    (stored : Option Bytes) : Except PyError (Option Bytes) :=
  match secret with
  | none => .ok stored
  | some plaintext => do
    let blob ← encryptSecret env nonce plaintext
    pure (some blob)

def signaturePart (env : Encryption) (p : Patch) (endpoint : Endpoint) :
    Except PyError Endpoint :=
  match p.signatureProvider with
  | none => .ok endpoint
  | some provider => do
    let secret ← replacedSecret env env.signatureNonce p.signatureSecret
      endpoint.signatureSecretEncrypted
    pure { endpoint with
      signatureProvider := some provider
      signatureSecretEncrypted := secret }

def forwardPart (env : Encryption) (p : Patch) (endpoint : Endpoint) : Except PyError Endpoint :=
  match p.forwardUrl with
  | none => .ok endpoint
  | some url => do
    let secret ← replacedSecret env env.forwardNonce p.forwardSecret
      endpoint.forwardSecretEncrypted
    pure { endpoint with
      forwardUrl := some url
      forwardHeaders := p.forwardHeaders
      forwardSecretEncrypted := secret }

/-- The entity with the fields changed that the PATCH names. -/
def patched (env : Encryption) (p : Patch) (endpoint : Endpoint) : Except PyError Endpoint := do
  let endpoint ← signaturePart env p endpoint
  forwardPart env p endpoint

inductive Failure where
  | endpointNotFound (message : String)
  | raised (error : PyError)
  deriving DecidableEq

/-- `execute`, with no other transaction in between. -/
def execute (env : Encryption) (token : String) (p : Patch) (endpoints : List Endpoint) :
    Except Failure (List Endpoint) :=
  match findByToken token endpoints with
  | none => .error (.endpointNotFound s!"endpoint not found: {token}")
  | some endpoint =>
    match patched env p endpoint with
    | .error error => .error (.raised error)
    | .ok entity =>
      if (update entity).returning endpoints = [] then
        .error (.endpointNotFound s!"endpoint id={entity.id.str} not found")
      else .ok ((update entity).apply endpoints)

structure SameUnnamed (p : Patch) (r r' : Endpoint) : Prop where
  signatureProvider : p.signatureProvider = none → r.signatureProvider = r'.signatureProvider
  signatureSecret : p.signatureProvider = none ∨ p.signatureSecret = none →
    r.signatureSecretEncrypted = r'.signatureSecretEncrypted
  responseStatusCode : r.responseStatusCode = r'.responseStatusCode
  responseBody : r.responseBody = r'.responseBody
  responseHeaders : r.responseHeaders = r'.responseHeaders
  responseDelayMs : r.responseDelayMs = r'.responseDelayMs
  forwardUrl : p.forwardUrl = none → r.forwardUrl = r'.forwardUrl
  forwardHeaders : p.forwardUrl = none → r.forwardHeaders = r'.forwardHeaders
  forwardSecret : p.forwardUrl = none ∨ p.forwardSecret = none →
    r.forwardSecretEncrypted = r'.forwardSecretEncrypted
  flaggedAt : r.flaggedAt = r'.flaggedAt
  flagReason : r.flagReason = r'.flagReason

theorem SameUnnamed.refl (p : Patch) (r : Endpoint) : SameUnnamed p r r := by
  constructor <;> simp

/-- What a PATCH assigns, given the ciphertexts of the secrets it names. -/
def assigned (p : Patch) (signatureBlob forwardBlob : Option Bytes) (r : Endpoint) : Endpoint :=
  { r with
    signatureProvider := p.signatureProvider.or r.signatureProvider
    signatureSecretEncrypted := signatureBlob.or r.signatureSecretEncrypted
    forwardUrl := p.forwardUrl.or r.forwardUrl
    forwardHeaders := if p.forwardUrl = none then r.forwardHeaders else p.forwardHeaders
    forwardSecretEncrypted := forwardBlob.or r.forwardSecretEncrypted }

section Patched

variable {env : Encryption} {p : Patch} {r r' entity : Endpoint}

theorem replacedSecret_ok {nonce : Bytes} {secret : Option String} {stored blob : Option Bytes}
    (h : replacedSecret env nonce secret stored = .ok blob) :
    ∃ fresh : Option Bytes, (fresh = none ↔ secret = none) ∧ blob = fresh.or stored ∧
      ∀ stored', replacedSecret env nonce secret stored' = .ok (fresh.or stored') := by
  cases secret with
  | none => exact ⟨none, by simp, (Except.ok.inj h).symm, fun _ => rfl⟩
  | some plaintext =>
    cases hencrypt : encryptSecret env nonce plaintext with
    | error error => simp [replacedSecret, hencrypt, bind, Except.bind] at h
    | ok fresh =>
      simp only [replacedSecret, hencrypt, bind, Except.bind, pure, Except.pure,
        Except.ok.injEq] at h
      refine ⟨some fresh, by simp, h.symm, ?_⟩
      intro stored'
      simp [replacedSecret, hencrypt, bind, Except.bind, pure, Except.pure]

theorem signaturePart_ok (h : signaturePart env p r = .ok entity) :
    ∃ blob : Option Bytes, (blob = none ↔ p.signatureProvider = none ∨ p.signatureSecret = none) ∧
      ∀ r', signaturePart env p r' = .ok { r' with
        signatureProvider := p.signatureProvider.or r'.signatureProvider
        signatureSecretEncrypted := blob.or r'.signatureSecretEncrypted } := by
  cases hprovider : p.signatureProvider with
  | none => exact ⟨none, by simp, fun r' => by simp [signaturePart, hprovider]⟩
  | some provider =>
    simp only [signaturePart, hprovider] at h
    cases hsecret : replacedSecret env env.signatureNonce p.signatureSecret
        r.signatureSecretEncrypted with
    | error error => simp [hsecret, bind, Except.bind] at h
    | ok stored =>
      obtain ⟨blob, hblob, -, hall⟩ := replacedSecret_ok hsecret
      refine ⟨blob, by simp [hblob], ?_⟩
      intro r'
      simp [signaturePart, hprovider, hall, bind, Except.bind, pure, Except.pure]

theorem forwardPart_ok (h : forwardPart env p r = .ok entity) :
    ∃ blob : Option Bytes, (blob = none ↔ p.forwardUrl = none ∨ p.forwardSecret = none) ∧
      ∀ r', forwardPart env p r' = .ok { r' with
        forwardUrl := p.forwardUrl.or r'.forwardUrl
        forwardHeaders := if p.forwardUrl = none then r'.forwardHeaders else p.forwardHeaders
        forwardSecretEncrypted := blob.or r'.forwardSecretEncrypted } := by
  cases hurl : p.forwardUrl with
  | none => exact ⟨none, by simp, fun r' => by simp [forwardPart, hurl]⟩
  | some url =>
    simp only [forwardPart, hurl] at h
    cases hsecret : replacedSecret env env.forwardNonce p.forwardSecret
        r.forwardSecretEncrypted with
    | error error => simp [hsecret, bind, Except.bind] at h
    | ok stored =>
      obtain ⟨blob, hblob, -, hall⟩ := replacedSecret_ok hsecret
      refine ⟨blob, by simp [hblob], ?_⟩
      intro r'
      simp [forwardPart, hurl, hall, bind, Except.bind, pure, Except.pure]

/-- A PATCH that does not fail on one endpoint assigns the same on every other. -/
theorem patched_ok (h : patched env p r = .ok entity) :
    ∃ signatureBlob forwardBlob : Option Bytes,
      (signatureBlob = none ↔ p.signatureProvider = none ∨ p.signatureSecret = none) ∧
      (forwardBlob = none ↔ p.forwardUrl = none ∨ p.forwardSecret = none) ∧
      ∀ r', patched env p r' = .ok (assigned p signatureBlob forwardBlob r') := by
  cases hsignature : signaturePart env p r with
  | error error => simp [patched, hsignature, bind, Except.bind] at h
  | ok signed =>
    have hforward : forwardPart env p signed = .ok entity := by
      simpa [patched, hsignature, bind, Except.bind] using h
    obtain ⟨signatureBlob, hsignatureBlob, hsigned⟩ := signaturePart_ok hsignature
    obtain ⟨forwardBlob, hforwardBlob, hall⟩ := forwardPart_ok hforward
    refine ⟨signatureBlob, forwardBlob, hsignatureBlob, hforwardBlob, ?_⟩
    intro r'
    simp [patched, hsigned, hall, bind, Except.bind, assigned]

theorem or_eq_or_iff {α : Type} {o a b : Option α} : o.or a = o.or b ↔ (o = none → b = a) := by
  cases o with
  | none => simp [eq_comm]
  | some x => simp

/-- Written over the row, the entity changes what the PATCH names and nothing else exactly
where the other columns are as they were read. -/
theorem patched_eq_update_iff (h : patched env p r = .ok entity) :
    patched env p r' = .ok ((update entity).assign r') ↔ SameUnnamed p r r' := by
  obtain ⟨signatureBlob, forwardBlob, hsignature, hforward, hall⟩ := patched_ok h
  obtain rfl := Except.ok.inj ((hall r).symm.trans h)
  rw [hall r', Except.ok.injEq]
  constructor
  · intro heq
    simp only [assigned, update, Endpoint.mk.injEq, true_and, or_eq_or_iff] at heq
    obtain ⟨hcode, hbody, hheaders, hdelay, hprovider, hsecret, hurl, hforwardHeaders,
      hforwardSecret, hflagged, hreason⟩ := heq
    exact
      { signatureProvider := hprovider
        signatureSecret := fun hunnamed => hsecret (hsignature.mpr hunnamed)
        responseStatusCode := hcode.symm
        responseBody := hbody.symm
        responseHeaders := hheaders.symm
        responseDelayMs := hdelay.symm
        forwardUrl := hurl
        forwardHeaders := fun hnone => by simpa [hnone, eq_comm] using hforwardHeaders
        forwardSecret := fun hunnamed => hforwardSecret (hforward.mpr hunnamed)
        flaggedAt := hflagged.symm
        flagReason := hreason.symm }
  · intro hsame
    simp only [assigned, update, Endpoint.mk.injEq, true_and, or_eq_or_iff]
    refine ⟨hsame.responseStatusCode.symm, hsame.responseBody.symm, hsame.responseHeaders.symm,
      hsame.responseDelayMs.symm, hsame.signatureProvider,
      fun hnone => hsame.signatureSecret (hsignature.mp hnone), hsame.forwardUrl, ?_,
      fun hnone => hsame.forwardSecret (hforward.mp hnone), hsame.flaggedAt.symm,
      hsame.flagReason.symm⟩
    by_cases hnone : p.forwardUrl = none
    · simp [hnone, hsame.forwardHeaders hnone]
    · simp [hnone]

/-- The entity keeps the id under which its row was found. -/
theorem patched_id (h : patched env p r = .ok entity) : entity.id = r.id := by
  obtain ⟨signatureBlob, forwardBlob, -, -, hall⟩ := patched_ok h
  obtain rfl := Except.ok.inj ((hall r).symm.trans h)
  rfl

/-- `execute` writes the one row of the token. -/
theorem execute_ok {token : String} {endpoints endpoints' : List Endpoint}
    (h : execute env token p endpoints = .ok endpoints') :
    ∃ endpoint entity, findByToken token endpoints = some endpoint ∧
      entity.id = endpoint.id ∧ endpoints' = (update entity).apply endpoints := by
  unfold execute at h
  split at h
  · simp at h
  · rename_i endpoint hendpoint
    split at h
    · simp at h
    · rename_i entity hentity
      split at h
      · simp at h
      · exact ⟨endpoint, entity, hendpoint, patched_id hentity, (Except.ok.inj h).symm⟩

end Patched

end Hooktrace.UpdateEndpointConfig
