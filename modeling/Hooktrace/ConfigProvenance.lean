import Hooktrace.AbuseScan
import Hooktrace.ConfigUpdates
import Hooktrace.CustomResponse
import Hooktrace.SignatureValidation

/-!
Where the settings of an endpoint come from. Concurrent PATCHes and scans may lose each other's
updates, but they never mix them: a provider keeps the secret it was given with, a URL its
headers, a flag its reason, and what was validated at the creation is not touched.
-/
namespace Hooktrace.ConfigProvenance

open ConfigUpdates EndpointRepository ExecuteForward ReadCommitted Transition
open UpdateEndpointConfig (Encryption Patch patched)
open SignatureValidators (Primitives ValidationResult getValidator validate validators)
open SignatureValidation (LowerCased typeError validate_eq)

/-- `SignatureConfig`; the provider is one of a `Literal`. -/
structure SignatureConfig where
  provider : String
  secret : String
  known : provider ∈ validators.map Prod.fst
  secret_ne : secret ≠ ""

/-- `ForwardConfig`; the URL is the text of an `HttpUrl`. -/
structure ForwardConfig where
  url : String
  headers : Option Headers
  secret : Option String
  url_ne : url ≠ ""
  secret_bounds : ∀ text, secret = some text → 8 ≤ text.length ∧ text.length ≤ 128

structure EndpointConfigPatch where
  signature : Option SignatureConfig
  forward : Option ForwardConfig

/-- The arguments that `update_config` calls the use case with. -/
def updateConfig (body : EndpointConfigPatch) : Patch where
  signatureProvider := body.signature.map SignatureConfig.provider
  signatureSecret := body.signature.map SignatureConfig.secret
  forwardUrl := body.forward.map ForwardConfig.url
  forwardHeaders := body.forward.bind ForwardConfig.headers
  forwardSecret := body.forward.bind ForwardConfig.secret

/-- The key of a deployment with AES-GCM under it, which opens what it has sealed. -/
structure Secrets where
  key : Bytes
  encrypt : Bytes → Bytes → Bytes → Bytes
  decrypt : Bytes → Bytes → Bytes → Option Bytes
  key_length : key.length = 32
  opens : ∀ nonce plaintext, decrypt key nonce (encrypt key nonce plaintext) = some plaintext

section Sealing

variable (sec : Secrets)

def Secrets.encryption (signatureNonce forwardNonce : Bytes) : Encryption :=
  ⟨sec.key, sec.encrypt, signatureNonce, forwardNonce⟩

def Secrets.blob (nonce : Bytes) (secret : String) : Bytes :=
  nonce ++ sec.encrypt sec.key nonce (encodeUtf8 secret)

/-- The ciphertext of this secret, under some nonce. -/
def Secrets.Seals (secret : String) (blob : Bytes) : Prop :=
  ∃ nonce, nonce.length = nonceSize ∧ blob = sec.blob nonce secret

inductive Issued : Action → Prop
  | read (t : TransactionId) (body : EndpointConfigPatch) (signatureNonce forwardNonce : Bytes)
      (hsignature : signatureNonce.length = nonceSize) (hforward : forwardNonce.length = nonceSize) :
      Issued (.read t (sec.encryption signatureNonce forwardNonce) (updateConfig body))
  | write (t : TransactionId) : Issued (.write t)
  | flag (t : TransactionId) (now : Datetime) :
      Issued (.flag t AbuseScan.flagReasonPhishing now)
  | commit (t : TransactionId) : Issued (.commit t)
  | rollback (t : TransactionId) : Issued (.rollback t)

end Sealing

def Patched (past : History State Action) (body : EndpointConfigPatch) : Prop :=
  ∃ m ∈ past, ∃ t env snapshot entity, m.act = .commit t ∧
    m.pre.sessions t = some (.wrote env (updateConfig body) snapshot entity)

def Flagged (past : History State Action) (now : Datetime) : Prop :=
  ∃ m ∈ past, ∃ t, m.act = .commit t ∧
    m.pre.sessions t = some (.flagged AbuseScan.flagReasonPhishing now)

/-- What a capture finds, whatever arrives. -/
def Validates (sec : Secrets) (row : Endpoint)
    (status : Primitives → CaptureRequest.Input → Except PyError ValidationResult) : Prop :=
  ∀ (env : CaptureRequest.Collaborators) (input : CaptureRequest.Input),
    env.secretsKey = sec.key → env.aesGcmDecrypt = sec.decrypt → LowerCased input.headers →
      CaptureRequest.signatureStatus env row input = status env.primitives input

def signedHeaders (worker : Collaborators) (clock : Clock) (state : ClaimedState) :
    Option String → Headers
  | none => unsignedHeaders state
  | some secret => (unsignedHeaders state).set "X-Hooktrace-Signature"
      s!"t={clock.unixNow},v1={signForward worker (encodeUtf8 secret) clock.unixNow state.body}"

/-- What a delivery that has claimed under this row is signed with. -/
def Signs (sec : Secrets) (row : Endpoint) (secret : Option String) : Prop :=
  ∀ (worker : Collaborators) (clock : Clock) (state : ClaimedState),
    worker.secretsKey = sec.key → worker.aesGcmDecrypt = sec.decrypt → state.endpoint = row →
      outboundHeaders worker clock state = .ok (signedHeaders worker clock state secret)

structure SameResponse (created row : Endpoint) : Prop where
  statusCode : row.responseStatusCode = created.responseStatusCode
  body : row.responseBody = created.responseBody
  headers : row.responseHeaders = created.responseHeaders
  delayMs : row.responseDelayMs = created.responseDelayMs

/-- Each setting is unset, or a PATCH that has committed gave all of it. -/
structure Whole (sec : Secrets) (created : Endpoint) (past : History State Action)
    (row : Endpoint) : Prop where
  identity : SameIdentity created row
  response : SameResponse created row
  signature : Validates sec row (fun _ _ => .ok .noProvider) ∨
    ∃ body config validator, Patched past body ∧ body.signature = some config ∧
      getValidator config.provider = some validator ∧
      Validates sec row fun p input => validate p validator input.body input.headers config.secret
  forward : (row.forwardUrl = none ∧ row.forwardHeaders = none ∧ Signs sec row none) ∨
    ∃ body config secret, Patched past body ∧ body.forward = some config ∧
      row.forwardUrl = some config.url ∧ row.forwardHeaders = config.headers ∧
      Signs sec row secret ∧ (config.secret ≠ none → secret = config.secret) ∧
      ∀ text, secret = some text →
        ∃ body' config', Patched past body' ∧ body'.forward = some config' ∧
          config'.secret = some text
  flag : (row.flaggedAt = none ∧ row.flagReason = none) ∨
    ∃ now, Flagged past now ∧ row.flaggedAt = some now ∧
      row.flagReason = some AbuseScan.flagReasonPhishing

/-- Which secret is stored for the URL of this config. -/
def SecretOf (sec : Secrets) (past : History State Action) (config : ForwardConfig)
    (stored : Option Bytes) : Prop :=
  (stored = none ∧ config.secret = none) ∨
    ∃ body' config' text blob, Patched past body' ∧ body'.forward = some config' ∧
      config'.secret = some text ∧ stored = some blob ∧ sec.Seals text blob ∧
      (config.secret ≠ none → config.secret = some text)

structure Sourced (sec : Secrets) (created : Endpoint) (past : History State Action)
    (row : Endpoint) : Prop where
  response : SameResponse created row
  signature : (row.signatureProvider = none ∧ row.signatureSecretEncrypted = none) ∨
    ∃ body config blob, Patched past body ∧ body.signature = some config ∧
      row.signatureProvider = some config.provider ∧
      row.signatureSecretEncrypted = some blob ∧ sec.Seals config.secret blob
  forward : (row.forwardUrl = none ∧ row.forwardHeaders = none ∧
      row.forwardSecretEncrypted = none) ∨
    ∃ body config, Patched past body ∧ body.forward = some config ∧
      row.forwardUrl = some config.url ∧ row.forwardHeaders = config.headers ∧
      SecretOf sec past config row.forwardSecretEncrypted
  flag : (row.flaggedAt = none ∧ row.flagReason = none) ∨
    ∃ now, Flagged past now ∧ row.flaggedAt = some now ∧
      row.flagReason = some AbuseScan.flagReasonPhishing

def Prepared (sec : Secrets) (created : Endpoint) (past : History State Action)
    (env : Encryption) (p : Patch) (snapshot : Endpoint) : Prop :=
  ∃ body signatureNonce forwardNonce, signatureNonce.length = nonceSize ∧
    forwardNonce.length = nonceSize ∧ env = sec.encryption signatureNonce forwardNonce ∧
    p = updateConfig body ∧ Sourced sec created past snapshot

def SessionSound (sec : Secrets) (created : Endpoint) (past : History State Action) :
    Session → Prop
  | .read env p snapshot _ => Prepared sec created past env p snapshot
  | .wrote env p snapshot _ => Prepared sec created past env p snapshot
  | .flagged reason _ => reason = AbuseScan.flagReasonPhishing

structure Kept (sec : Secrets) (created : Endpoint) (past : History State Action) (s : State) :
    Prop where
  committed : ∀ c, s.row.committed = some c →
    SameIdentity created c ∧ Sourced sec created past c
  sessions : ∀ t session, s.sessions t = some session → SessionSound sec created past session

section Providers

theorem toLower_known {provider : String} (h : provider ∈ validators.map Prod.fst) :
    provider.toLower = provider := by
  simp only [validators, List.map_cons, List.map_nil, List.mem_cons, List.not_mem_nil,
    or_false] at h
  rcases h with rfl | rfl | rfl | rfl | rfl | rfl | rfl | rfl | rfl <;> exact toLower_ofList _

/-- Each provider that a PATCH may name has a validator. -/
theorem exists_validator {provider : String} (h : provider ∈ validators.map Prod.fst) :
    ∃ validator, getValidator provider = some validator := by
  obtain ⟨entry, hentry, rfl⟩ := List.mem_map.mp h
  have hfound : (validators.find? fun e => e.1 = entry.1.toLower).isSome = true := by
    rw [List.find?_isSome]
    exact ⟨entry, hentry, by simp [toLower_known h]⟩
  obtain ⟨e, he⟩ := Option.isSome_iff_exists.mp hfound
  exact ⟨e.2, by simp [getValidator, he]⟩

theorem ne_empty_of_known {provider : String} (h : provider ∈ validators.map Prod.fst) :
    provider ≠ "" := by
  rintro rfl
  simp [validators] at h

theorem check_error {P S E : Type*} {m : SignatureScheme.Signed P S} {refusal x : E}
    {p : P} {texts : List S} (h : m.check refusal p texts = .error x) : x = refusal := by
  induction texts with
  | nil => simp [SignatureScheme.Signed.check] at h
  | cons s rest ih =>
    simp only [SignatureScheme.Signed.check] at h
    split at h
    · split at h
      · cases h
      · exact ih h
    · exact (Except.error.inj h).symm

theorem verdict_error {P S E : Type*} {m : SignatureScheme.Signed P S} {refusal x : E}
    (h : m.verdict refusal = .error x) : x = refusal := by
  unfold SignatureScheme.Signed.verdict at h
  split at h
  · split at h
    · cases h
    · rename_i p _
      cases hcheck : m.check refusal p m.carried with
      | ok matched => simp [hcheck, Except.map] at h
      | error y =>
        rw [hcheck] at h
        obtain rfl := Except.error.inj h
        exact check_error hcheck
  · cases h

/-- Where the header names are in lower case, a validator raises nothing but a TypeError. -/
theorem validate_error {p : Primitives} {provider : SignatureValidators.Provider} {body : Bytes}
    {headers : Headers} {secret : String} {error : PyError} (hheaders : LowerCased headers)
    (h : validate p provider body headers secret = .error error) : error = typeError := by
  rw [validate_eq p provider body headers secret hheaders] at h
  cases hverdict : (SignatureValidation.signed p provider body headers secret).verdict typeError with
  | ok v => simp [hverdict, Except.map] at h
  | error x =>
    rw [hverdict] at h
    obtain rfl := Except.error.inj h
    exact verdict_error hverdict

end Providers

section Columns

variable {sec : Secrets} {created row snapshot entity : Endpoint} {past : History State Action}
  {m : Move State Action} {body : EndpointConfigPatch} {signatureNonce forwardNonce : Bytes}

theorem replacedSecret_encryption (nonce : Bytes) (secret : Option String)
    (stored : Option Bytes) :
    UpdateEndpointConfig.replacedSecret (sec.encryption signatureNonce forwardNonce) nonce secret
      stored = .ok ((secret.map (sec.blob nonce)).or stored) := by
  cases secret with
  | none => rfl
  | some text =>
    simp [UpdateEndpointConfig.replacedSecret, UpdateEndpointConfig.encryptSecret,
      Secrets.encryption, sec.key_length, Secrets.blob, bind, Except.bind, pure, Except.pure]

theorem signaturePart_encryption (r : Endpoint) :
    UpdateEndpointConfig.signaturePart (sec.encryption signatureNonce forwardNonce)
      (updateConfig body) r = .ok { r with
        signatureProvider := (body.signature.map SignatureConfig.provider).or r.signatureProvider
        signatureSecretEncrypted :=
          (body.signature.map fun config => sec.blob signatureNonce config.secret).or
            r.signatureSecretEncrypted } := by
  unfold UpdateEndpointConfig.signaturePart
  cases hsignature : body.signature with
  | none => simp [updateConfig, hsignature]
  | some config =>
    rw [replacedSecret_encryption]
    simp [updateConfig, hsignature, bind, Except.bind, pure, Except.pure, Secrets.encryption,
      Secrets.blob]

theorem forwardPart_encryption (r : Endpoint) :
    UpdateEndpointConfig.forwardPart (sec.encryption signatureNonce forwardNonce)
      (updateConfig body) r = .ok { r with
        forwardUrl := (body.forward.map ForwardConfig.url).or r.forwardUrl
        forwardHeaders :=
          if body.forward = none then r.forwardHeaders
          else body.forward.bind ForwardConfig.headers
        forwardSecretEncrypted :=
          ((body.forward.bind ForwardConfig.secret).map (sec.blob forwardNonce)).or
            r.forwardSecretEncrypted } := by
  unfold UpdateEndpointConfig.forwardPart
  cases hforward : body.forward with
  | none => simp [updateConfig, hforward]
  | some config =>
    rw [replacedSecret_encryption]
    simp [updateConfig, hforward, bind, Except.bind, pure, Except.pure, Secrets.encryption]

/-- With a key of the right length no PATCH fails. -/
theorem patched_updateConfig (r : Endpoint) :
    patched (sec.encryption signatureNonce forwardNonce) (updateConfig body) r = .ok { r with
      signatureProvider := (body.signature.map SignatureConfig.provider).or r.signatureProvider
      signatureSecretEncrypted :=
        (body.signature.map fun config => sec.blob signatureNonce config.secret).or
          r.signatureSecretEncrypted
      forwardUrl := (body.forward.map ForwardConfig.url).or r.forwardUrl
      forwardHeaders :=
        if body.forward = none then r.forwardHeaders
        else body.forward.bind ForwardConfig.headers
      forwardSecretEncrypted :=
        ((body.forward.bind ForwardConfig.secret).map (sec.blob forwardNonce)).or
          r.forwardSecretEncrypted } := by
  simp [patched, signaturePart_encryption, forwardPart_encryption, bind, Except.bind]

theorem Patched.later (h : Patched past body) : Patched (m :: past) body := by
  obtain ⟨m', hm', h⟩ := h
  exact ⟨m', List.mem_cons_of_mem _ hm', h⟩

theorem Flagged.later {now : Datetime} (h : Flagged past now) : Flagged (m :: past) now := by
  obtain ⟨m', hm', h⟩ := h
  exact ⟨m', List.mem_cons_of_mem _ hm', h⟩

theorem SecretOf.later {config : ForwardConfig} {stored : Option Bytes}
    (h : SecretOf sec past config stored) : SecretOf sec (m :: past) config stored := by
  rcases h with h | ⟨body', config', text, blob, hbody, h⟩
  · exact Or.inl h
  · exact Or.inr ⟨body', config', text, blob, hbody.later, h⟩

theorem Sourced.later (h : Sourced sec created past row) : Sourced sec created (m :: past) row where
  response := h.response
  signature := by
    rcases h.signature with hnone | ⟨body, config, blob, hbody, h⟩
    · exact Or.inl hnone
    · exact Or.inr ⟨body, config, blob, hbody.later, h⟩
  forward := by
    rcases h.forward with hnone | ⟨body, config, hbody, hconfig, hurl, hheaders, hsecret⟩
    · exact Or.inl hnone
    · exact Or.inr ⟨body, config, hbody.later, hconfig, hurl, hheaders, hsecret.later⟩
  flag := by
    rcases h.flag with hnone | ⟨now, hnow, h⟩
    · exact Or.inl hnone
    · exact Or.inr ⟨now, hnow.later, h⟩

theorem SessionSound.later {session : Session} (h : SessionSound sec created past session) :
    SessionSound sec created (m :: past) session := by
  cases session with
  | read env p snapshot entity =>
    obtain ⟨body, signatureNonce, forwardNonce, hs, hf, henv, hp, hsourced⟩ := h
    exact ⟨body, signatureNonce, forwardNonce, hs, hf, henv, hp, hsourced.later⟩
  | wrote env p snapshot entity =>
    obtain ⟨body, signatureNonce, forwardNonce, hs, hf, henv, hp, hsourced⟩ := h
    exact ⟨body, signatureNonce, forwardNonce, hs, hf, henv, hp, hsourced.later⟩
  | flagged reason now => exact h

/-- The secret that is stored after a PATCH that names a URL. -/
theorem secretOf_patch {config : ForwardConfig} {stored : Option Bytes}
    (hbody : Patched past body) (hconfig : body.forward = some config)
    (hforward : forwardNonce.length = nonceSize)
    (hstored : stored = none ∨ ∃ body' config' text blob, Patched past body' ∧
      body'.forward = some config' ∧ config'.secret = some text ∧ stored = some blob ∧
      sec.Seals text blob) :
    SecretOf sec past config ((config.secret.map (sec.blob forwardNonce)).or stored) := by
  cases hsecret : config.secret with
  | none =>
    rcases hstored with rfl | ⟨body', config', text, blob, hbody', hconfig', htext, rfl, hseals⟩
    · exact Or.inl ⟨rfl, hsecret⟩
    · exact Or.inr ⟨body', config', text, blob, hbody', hconfig', htext, rfl, hseals,
        fun hne => absurd hsecret hne⟩
  | some text =>
    exact Or.inr ⟨body, config, text, sec.blob forwardNonce text, hbody, hconfig, hsecret, rfl,
      ⟨forwardNonce, hforward, rfl⟩, fun _ => hsecret⟩

/-- What a PATCH makes of a version is sourced as the version was, or by the PATCH. -/
theorem Sourced.patch (h : Sourced sec created past snapshot) (hbody : Patched past body)
    (hsignature : signatureNonce.length = nonceSize) (hforward : forwardNonce.length = nonceSize)
    (hpatched : patched (sec.encryption signatureNonce forwardNonce) (updateConfig body) snapshot =
      .ok entity) : Sourced sec created past ((update entity).assign row) := by
  rw [patched_updateConfig] at hpatched
  obtain rfl := Except.ok.inj hpatched
  refine ⟨⟨h.response.statusCode, h.response.body, h.response.headers, h.response.delayMs⟩,
    ?_, ?_, h.flag⟩
  · cases hconfig : body.signature with
    | none => simpa [update, hconfig] using h.signature
    | some config =>
      exact Or.inr ⟨body, config, sec.blob signatureNonce config.secret, hbody, hconfig, rfl, rfl,
        signatureNonce, hsignature, rfl⟩
  · cases hconfig : body.forward with
    | none => simpa [update, hconfig] using h.forward
    | some config =>
      refine Or.inr ⟨body, config, hbody, hconfig, rfl, rfl, ?_⟩
      have hstored : SecretOf sec past config ((config.secret.map (sec.blob forwardNonce)).or
          snapshot.forwardSecretEncrypted) := by
        apply secretOf_patch hbody hconfig hforward
        rcases h.forward with ⟨-, -, hnone⟩ | ⟨_, _, _, _, _, _, hsecret⟩
        · exact Or.inl hnone
        · rcases hsecret with ⟨hnone, -⟩ | ⟨body', config', text, blob, hbody', hconfig', htext,
            hblob, hseals, -⟩
          · exact Or.inl hnone
          · exact Or.inr ⟨body', config', text, blob, hbody', hconfig', htext, hblob, hseals⟩
      simpa [update, hconfig] using hstored

/-- A scan writes the two columns of the flag. -/
theorem Sourced.flagged {endpointId : UUID} {now : Datetime} (h : Sourced sec created past row)
    (hflagged : Flagged past now) : Sourced sec created past
      ((EndpointRepository.flag endpointId AbuseScan.flagReasonPhishing now).assign row) :=
  ⟨⟨h.response.statusCode, h.response.body, h.response.headers, h.response.delayMs⟩,
    h.signature, h.forward, Or.inr ⟨now, hflagged, rfl, rfl⟩⟩

theorem sameIdentity_assign {u : Table.Update Endpoint} (h : SameIdentity created row)
    (hwriter : Writer u) : SameIdentity created (u.assign row) := by
  have hrow := hwriter.sameIdentity row
  exact ⟨hrow.id_eq.trans h.id_eq, hrow.token_eq.trans h.token_eq,
    hrow.created_eq.trans h.created_eq, hrow.expires_eq.trans h.expires_eq⟩

end Columns

section Runs

variable {sec : Secrets} {created : Endpoint} {past : History State Action} {s u : State}
  {m : Move State Action} {a : Action} {endpointId : UUID}

theorem Kept.later (h : Kept sec created past s) : Kept sec created (m :: past) s where
  committed c hc := ⟨(h.committed c hc).1, (h.committed c hc).2.later⟩
  sessions t session hs := (h.sessions t session hs).later

/-- One session goes on, with the row as it is then. -/
theorem Kept.goTo (h : Kept sec created past s) {t : TransactionId} {session : Option Session}
    {row : VersionedRow Endpoint}
    (hrow : ∀ c, row.committed = some c → SameIdentity created c ∧ Sourced sec created past c)
    (hsession : ∀ session', session = some session' → SessionSound sec created past session') :
    Kept sec created past ⟨row, setSession s t session⟩ where
  committed := hrow
  sessions t' session' hs := by
    rcases setSession_cases hs with ⟨-, hnew⟩ | ⟨-, hold⟩
    · exact hsession session' hnew
    · exact h.sessions t' session' hold

theorem Kept.close (h : Kept sec created past s) {t : TransactionId}
    {row : VersionedRow Endpoint} (hrow : row.committed = s.row.committed) :
    Kept sec created past ⟨row, setSession s t none⟩ :=
  h.goTo (fun c hc => h.committed c (hrow ▸ hc)) fun _ hnone => by cases hnone

theorem read_cases {t : TransactionId} {env : Encryption} {p : Patch}
    (h : step endpointId s (.read t env p) = some u) :
    u = s ∨ ∃ snapshot entity, s.row.committed = some snapshot ∧
      u = ⟨s.row, setSession s t (some (.read env p snapshot entity))⟩ := by
  simp only [step] at h
  split at h
  · rename_i snapshot _ hcommitted
    split at h
    · rename_i entity _
      exact Or.inr ⟨snapshot, entity, hcommitted, (Option.some.inj h).symm⟩
    · exact Or.inl (Option.some.inj h).symm
  · simp at h

theorem Kept.commit (h : Kept sec created past s) (hheld : Held endpointId s) {t : TransactionId}
    {session : Session} (hsession : s.sessions t = some session)
    (hwriting : session.writing = true)
    (hm : m.act = .commit t ∧ m.pre = s) :
    Kept sec created (m :: past) ⟨s.row.commit, setSession s t none⟩ := by
  obtain ⟨hact, rfl⟩ := hm
  apply h.later.goTo
  · intro c hc
    obtain ⟨before, hbefore, hversion⟩ := hheld.version
    obtain ⟨hidentity, hsourced⟩ := h.committed before hbefore
    have hcommit : m.pre.row.commit.committed = some (session.version endpointId before) := by
      simp [VersionedRow.commit, hversion t session hsession hwriting]
    obtain rfl := Option.some.inj (hcommit.symm.trans hc)
    have hsound := h.sessions t session hsession
    cases session with
    | read env p snapshot entity => simp [Session.writing] at hwriting
    | wrote env p snapshot entity =>
      obtain ⟨body, signatureNonce, forwardNonce, hs, hf, rfl, rfl, hsnapshot⟩ := hsound
      have hpatched := hheld.patches t _ hsession
      have hbody : Patched (m :: past) body :=
        ⟨m, List.mem_cons_self, t, _, snapshot, entity, hact, hsession⟩
      exact ⟨sameIdentity_assign hidentity (.config entity),
        hsnapshot.later.patch hbody hs hf hpatched⟩
    | flagged reason now =>
      obtain rfl : reason = AbuseScan.flagReasonPhishing := hsound
      have hflagged : Flagged (m :: past) now :=
        ⟨m, List.mem_cons_self, t, hact, hsession⟩
      exact ⟨sameIdentity_assign hidentity (.flag endpointId _ now),
        hsourced.later.flagged hflagged⟩
  · intro session' hnone
    cases hnone

theorem Kept.step (h : Kept sec created past s) (hheld : Held endpointId s)
    (hissued : Issued sec a) (hstep : step endpointId s a = some u) :
    Kept sec created (⟨s, a, u⟩ :: past) u := by
  cases hissued with
  | read t body signatureNonce forwardNonce hsignature hforward =>
    rcases read_cases hstep with rfl | ⟨snapshot, entity, hcommitted, rfl⟩
    · exact h.later
    · apply h.later.goTo
      · exact h.later.committed
      · intro session' hnew
        obtain rfl := Option.some.inj hnew
        exact ⟨body, signatureNonce, forwardNonce, hsignature, hforward, rfl, rfl,
          (h.later.committed snapshot hcommitted).2⟩
  | write t =>
    cases step_effect hstep with
    | gone => exact h.later.close rfl
    | @writes t env p snapshot entity c hsession hc hfree =>
      apply h.later.goTo
      · exact h.later.committed
      · intro session' hnew
        obtain rfl := Option.some.inj hnew
        exact (h.sessions t _ hsession).later
  | flag t now =>
    cases step_effect hstep with
    | flags hc hfree =>
      apply h.later.goTo
      · exact h.later.committed
      · intro session' hnew
        obtain rfl := Option.some.inj hnew
        exact rfl
  | commit t =>
    cases step_effect hstep with
    | commits hsession hwriting => exact h.commit hheld hsession hwriting ⟨rfl, rfl⟩
  | rollback t =>
    cases step_effect hstep with
    | drops hsession hreading => exact h.later.close rfl
    | undoes hsession hwriting => exact h.later.close rfl

theorem create_unset {id : UUID} {now : Datetime} {token : String} {ttlDays : ℤ}
    {config : CustomResponse.ResponseConfig}
    (h : CustomResponse.create id now token ttlDays config = .ok created) :
    created.signatureProvider = none ∧ created.signatureSecretEncrypted = none ∧
      created.forwardUrl = none ∧ created.forwardHeaders = none ∧
      created.forwardSecretEncrypted = none ∧ created.flaggedAt = none ∧
      created.flagReason = none := by
  unfold CustomResponse.create at h
  split at h
  · cases h
  · obtain ⟨-, -, h⟩ := CaptureRequest.bind_ok h
    obtain ⟨-, -, h⟩ := CaptureRequest.bind_ok h
    obtain ⟨-, -, h⟩ := CaptureRequest.bind_ok h
    obtain ⟨-, -, h⟩ := CaptureRequest.bind_ok h
    obtain rfl := Except.ok.inj h
    exact ⟨rfl, rfl, rfl, rfl, rfl, rfl, rfl⟩

theorem kept_start {id : UUID} {now : Datetime} {token : String} {ttlDays : ℤ}
    {config : CustomResponse.ResponseConfig}
    (hcreate : CustomResponse.create id now token ttlDays config = .ok created) :
    Kept sec created [] (start created) where
  committed c hc := by
    obtain rfl := Option.some.inj hc
    obtain ⟨hprovider, hsecret, hurl, hheaders, hforwardSecret, hflagged, hreason⟩ :=
      create_unset hcreate
    exact ⟨⟨rfl, rfl, rfl, rfl⟩, ⟨rfl, rfl, rfl, rfl⟩, Or.inl ⟨hprovider, hsecret⟩,
      Or.inl ⟨hurl, hheaders, hforwardSecret⟩, Or.inl ⟨hflagged, hreason⟩⟩
  sessions t session hs := by cases hs

theorem kept_run {ms : History State Action} (hstart : Kept sec created [] (start created))
    (h : Run (Steps (ConfigUpdates.step endpointId)) (start created) ms s)
    (hissued : ∀ m ∈ ms, Issued sec m.act) : Kept sec created ms s := by
  induction h with
  | nil => exact hstart
  | @move ms t u a hrun hstep ih =>
    have hpast := ih fun m hm => hissued m (List.mem_cons_of_mem _ hm)
    exact hpast.step (Held.of_run hrun) (hissued _ List.mem_cons_self) hstep

end Runs

section Settings

variable {sec : Secrets} {created row : Endpoint} {past : History State Action} {blob : Bytes}
  {secret : String}

/-- What was sealed is opened. -/
theorem Secrets.Seals.opened (h : sec.Seals secret blob) : ¬ blob.length < nonceSize ∧
    sec.decrypt sec.key (blob.take nonceSize) (blob.drop nonceSize) = some (encodeUtf8 secret) := by
  obtain ⟨nonce, hnonce, rfl⟩ := h
  have htake : (sec.blob nonce secret).take nonceSize = nonce := by
    simp [Secrets.blob, ← hnonce]
  have hdrop : (sec.blob nonce secret).drop nonceSize =
      sec.encrypt sec.key nonce (encodeUtf8 secret) := by
    simp [Secrets.blob, ← hnonce]
  constructor
  · simp only [Secrets.blob, List.length_append]
    omega
  · rw [htake, hdrop]
    exact sec.opens nonce (encodeUtf8 secret)

theorem Secrets.Seals.decrypt (h : sec.Seals secret blob) {env : CaptureRequest.Collaborators}
    (hkey : env.secretsKey = sec.key) (hdecrypt : env.aesGcmDecrypt = sec.decrypt) :
    CaptureRequest.decryptSecret env blob = .ok secret := by
  obtain ⟨hlong, hopen⟩ := h.opened
  have hplain : decodeUtf8 (encodeUtf8 secret) = some secret := decodeUtf8_eq_some.mpr rfl
  simp [CaptureRequest.decryptSecret, hkey, hdecrypt, sec.key_length, hlong, hopen, hplain]

theorem Secrets.Seals.ne_nil (h : sec.Seals secret blob) : ∃ b rest, blob = b :: rest := by
  obtain ⟨nonce, hnonce, rfl⟩ := h
  cases hblob : sec.blob nonce secret with
  | nil =>
    have hlength := congrArg List.length hblob
    simp only [Secrets.blob, List.length_append, hnonce, nonceSize, List.length_nil] at hlength
    omega
  | cons b rest => exact ⟨b, rest, rfl⟩

theorem validates_unset (h : row.signatureProvider = none) :
    Validates sec row (fun _ _ => .ok .noProvider) := by
  intro env input _ _ _
  simp [CaptureRequest.signatureStatus, h, SignatureValidators.given]

/-- A stored pair validates as its provider does, under the secret it was given with. -/
theorem validates_config {config : SignatureConfig} {validator : SignatureValidators.Provider}
    (hvalidator : getValidator config.provider = some validator)
    (hprovider : row.signatureProvider = some config.provider)
    (hblob : row.signatureSecretEncrypted = some blob) (hseals : sec.Seals config.secret blob) :
    Validates sec row fun p input =>
      validate p validator input.body input.headers config.secret := by
  intro env input hkey hdecrypt hheaders
  have hgiven : SignatureValidators.given row.signatureProvider = some config.provider := by
    simp [SignatureValidators.given, hprovider, ne_empty_of_known config.known]
  obtain ⟨b, rest, rfl⟩ := hseals.ne_nil
  have hsecret := hseals.decrypt hkey hdecrypt
  unfold CaptureRequest.signatureStatus
  rw [hgiven, hblob]
  simp only [hvalidator, CaptureRequest.validateSignature, hsecret, bind, Except.bind]
  cases hresult : validate env.primitives validator input.body input.headers config.secret with
  | ok result => rfl
  | error error =>
    obtain rfl := validate_error hheaders hresult
    rfl

theorem signs_unset (h : row.forwardSecretEncrypted = none) : Signs sec row none := by
  intro worker clock state _ _ hrow
  simp [outboundHeaders, hrow, h, signedHeaders]

theorem signs_secret (hblob : row.forwardSecretEncrypted = some blob)
    (hseals : sec.Seals secret blob) : Signs sec row (some secret) := by
  intro worker clock state hkey hdecrypt hrow
  obtain ⟨hlong, hopen⟩ := hseals.opened
  have hplain : decodeUtf8 (encodeUtf8 secret) = some secret := decodeUtf8_eq_some.mpr rfl
  have hsecret : decryptSecret worker worker.secretsKey blob = .ok secret := by
    simp [decryptSecret, hkey, hdecrypt, sec.key_length, hlong, hopen, hplain]
  obtain ⟨b, rest, rfl⟩ := hseals.ne_nil
  simp [outboundHeaders, hrow, hblob, hsecret, signedHeaders, bind, Except.bind, pure, Except.pure]

/-- What the columns hold is what captures and deliveries use. -/
theorem Sourced.whole (h : Sourced sec created past row) (hidentity : SameIdentity created row) :
    Whole sec created past row where
  identity := hidentity
  response := h.response
  signature := by
    rcases h.signature with ⟨hnone, -⟩ | ⟨body, config, blob, hbody, hconfig, hprovider, hblob,
      hseals⟩
    · exact Or.inl (validates_unset hnone)
    · obtain ⟨validator, hvalidator⟩ := exists_validator config.known
      exact Or.inr ⟨body, config, validator, hbody, hconfig, hvalidator,
        validates_config hvalidator hprovider hblob hseals⟩
  forward := by
    rcases h.forward with ⟨hurl, hheaders, hnone⟩ | ⟨body, config, hbody, hconfig, hurl, hheaders,
      hsecret⟩
    · exact Or.inl ⟨hurl, hheaders, signs_unset hnone⟩
    · rcases hsecret with ⟨hnone, hunset⟩ | ⟨body', config', text, blob, hbody', hconfig', htext,
        hblob, hseals, hown⟩
      · refine Or.inr ⟨body, config, none, hbody, hconfig, hurl, hheaders, signs_unset hnone, ?_, ?_⟩
        · intro hgiven
          exact absurd hunset hgiven
        · intro text hsome
          cases hsome
      · refine Or.inr ⟨body, config, some text, hbody, hconfig, hurl, hheaders,
          signs_secret hblob hseals, ?_, ?_⟩
        · intro hgiven
          exact (hown hgiven).symm
        · intro text' hsome
          obtain rfl := Option.some.inj hsome
          exact ⟨body', config', hbody', hconfig', htext⟩
  flag := h.flag

end Settings

/-- In every run of PATCHes and scans the committed row is whole: captures validate with the
provider and the secret of one PATCH, deliveries have the URL and the headers of one PATCH and a
secret that some PATCH gave, its own if it gave one, a flag has its reason, and the response is
the one that was validated at the creation. -/
theorem config_run (sec : Secrets) {id : UUID} {now : Datetime} {token : String} {ttlDays : ℤ}
    {config : CustomResponse.ResponseConfig} {created : Endpoint}
    (hcreate : CustomResponse.create id now token ttlDays config = .ok created)
    {ms : History State Action} {t : State}
    (h : Run (Steps (step created.id)) (start created) ms t) (hissued : ∀ m ∈ ms, Issued sec m.act) :
    ∃ row, t.row.committed = some row ∧ Whole sec created ms row := by
  have hkept := kept_run (kept_start hcreate) h hissued
  obtain ⟨row, hrow, -⟩ := (Held.of_run h).version
  obtain ⟨hidentity, hsourced⟩ := hkept.committed row hrow
  exact ⟨row, hrow, hsourced.whole hidentity⟩

def sampleSecrets : Secrets where
  key := List.replicate 32 0
  encrypt _ _ plaintext := plaintext ++ List.replicate 16 0
  decrypt _ _ ciphertext :=
    if ciphertext.drop (ciphertext.length - 16) = List.replicate 16 0 then
      some (ciphertext.take (ciphertext.length - 16))
    else none
  key_length := List.length_replicate
  opens nonce plaintext := by simp

def stripeBody : EndpointConfigPatch where
  signature := some ⟨"stripe", "whsec_test123", by simp [validators], by simp⟩
  forward := none

def forwardBody : EndpointConfigPatch where
  signature := none
  forward := some ⟨"https://new.example.com/wh", none, none, by simp, by simp⟩

def crossing : List Action :=
  [.read 0 (sampleSecrets.encryption (List.replicate 12 1) (List.replicate 12 2))
      (updateConfig stripeBody),
    .read 1 (sampleSecrets.encryption (List.replicate 12 3) (List.replicate 12 4))
      (updateConfig forwardBody),
    .write 0, .commit 0, .flag 2 AbuseScan.flagReasonPhishing 5, .commit 2, .write 1, .commit 1]

theorem issued_crossing : ∀ a ∈ crossing, Issued sampleSecrets a := by
  intro a ha
  simp only [crossing, List.mem_cons, List.not_mem_nil, or_false] at ha
  rcases ha with rfl | rfl | rfl | rfl | rfl | rfl | rfl | rfl
  · exact .read 0 stripeBody _ _ rfl rfl
  · exact .read 1 forwardBody _ _ rfl rfl
  · exact .write 0
  · exact .commit 0
  · exact .flag 2 5
  · exact .commit 2
  · exact .write 1
  · exact .commit 1

/-- The moves of an executed run are its actions. -/
theorem act_mem_of_play {f : State → Action → Option State} {as : List Action}
    {ms ms' : History State Action} {s t : State} (h : play f ms s as = some (ms', t)) :
    ∀ m ∈ ms', m ∈ ms ∨ m.act ∈ as := by
  induction as generalizing ms s with
  | nil =>
    obtain ⟨rfl, rfl⟩ := Prod.mk.inj (Option.some.inj h)
    exact fun m hm => Or.inl hm
  | cons a as ih =>
    cases hstep : f s a with
    | none => simp [play, hstep] at h
    | some u =>
      simp only [play, hstep] at h
      intro m hm
      rcases ih h m hm with hcons | has
      · rcases List.mem_cons.mp hcons with rfl | hold
        · exact Or.inr List.mem_cons_self
        · exact Or.inl hold
      · exact Or.inr (List.mem_cons_of_mem _ has)

/-- The row has the URL of the second PATCH, and nothing that is neither's. -/
theorem crossing_whole : ∃ (ms : History State Action) (t : State) (row : Endpoint),
    Run (Steps (step (CustomResponse.noted "a").id)) (start (CustomResponse.noted "a")) ms t ∧
      t.row.committed = some row ∧ row.forwardUrl = some "https://new.example.com/wh" ∧
      Whole sampleSecrets (CustomResponse.noted "a") ms row := by
  have hplay := Eq.refl (play (step (CustomResponse.noted "a").id) []
    (start (CustomResponse.noted "a")) crossing)
  have hrun := Run.of_play hplay
  obtain ⟨row, hrow, hwhole⟩ := config_run sampleSecrets (CustomResponse.create_noted "a") hrun
    (fun m hm => issued_crossing _ ((act_mem_of_play hplay m hm).resolve_left List.not_mem_nil))
  refine ⟨_, _, row, hrun, hrow, ?_, hwhole⟩
  obtain rfl := Option.some.inj hrow
  rfl

end Hooktrace.ConfigProvenance
