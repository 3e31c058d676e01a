import Hooktrace.JobRuns
import Hooktrace.ReplayRequest
import Hooktrace.SignatureValidation

/-!
The headers from which the validators read signatures, against the headers that forwards and
replays strip from what was captured. Three of the eight are not stripped.
-/
namespace Hooktrace.SignatureHeaders

open SignatureValidators SignatureValidation
open ExecuteForward (ClaimedState Clock headersToStripFromCaptured outboundHeaders unsignedHeaders)
open ReplayRequest (Args AuthorizedState outbound)

/-- The signature texts that the validator compares depend on the header. -/
def ReadsSignature (provider : Provider) (name : String) : Prop :=
  ∃ p body secret headers value,
    (signed p provider body (headers.set name value) secret).carried ≠
      (signed p provider body headers secret).carried

/-- Mailgun's signature is a field of the form. -/
def signatureHeader : Provider → Option String
  | .stripe => some "stripe-signature"
  | .github => some "x-hub-signature-256"
  | .shopify => some "x-shopify-hmac-sha256"
  | .twilio => some "x-twilio-signature"
  | .mailgun => none
  | .discord => some "x-signature-ed25519"
  | .slack => some "x-slack-signature"
  | .zapier => some "x-hook-signature"
  | .n8n => some "x-n8n-signature"

/-- Header names are compared without their case. -/
def Carries (provider : Provider) (headers : Headers) : Prop :=
  ∃ field ∈ headers.items, ReadsSignature provider field.1.toLower

/-- The comprehension over the captured headers, in both use cases. -/
def fromCaptured (headers : Headers) : Headers :=
  headers.filterKeys fun k => !(k.toLower ∈ headersToStripFromCaptured)

/-- The providers whose header the list lacks. -/
def unlisted : List Provider := [.discord, .zapier, .n8n]

theorem carried_set {provider : Provider} {name : String}
    (h : signatureHeader provider ≠ some name) (p : Primitives) (body : Bytes)
    (secret : String) (headers : Headers) (value : String) :
    (signed p provider body (headers.set name value) secret).carried =
      (signed p provider body headers secret).carried := by
  have hother (read : String) (hread : signatureHeader provider = some read) :
      (headers.set name value).get? read = headers.get? read := by
    rw [PyDict.get?_set, if_neg]
    intro heq
    exact h (hread.trans (congrArg some heq))
  cases provider with
  | mailgun => rfl
  | stripe => simp only [signed, stripeSigned, macSigned, hother _ rfl]
  | discord => simp only [signed, discordSigned, hother _ rfl]
  | slack => simp only [signed, slackSigned, macSigned, hother _ rfl]
  | github => simp only [signed, bodySigned, macSigned, hother _ rfl]
  | shopify => simp only [signed, bodySigned, macSigned, hother _ rfl]
  | twilio => simp only [signed, bodySigned, macSigned, hother _ rfl]
  | zapier => simp only [signed, bodySigned, macSigned, hother _ rfl]
  | n8n => simp only [signed, bodySigned, macSigned, hother _ rfl]

def sampleSignature : Provider → String
  | .stripe => "t=1,v1=5f"
  | .github => "sha256=5f"
  | .slack => "v0=5f"
  | _ => "5f"

theorem carried_sample {provider : Provider} {name : String}
    (h : signatureHeader provider = some name) :
    (signed samplePrimitives provider [] (PyDict.empty.set name (sampleSignature provider))
      "").carried ≠ (signed samplePrimitives provider [] .empty "").carried := by
  cases provider with
  | mailgun => simp [signatureHeader] at h
  | _ =>
    obtain rfl := Option.some.inj h
    decide +kernel

theorem readsSignature_iff {provider : Provider} {name : String} :
    ReadsSignature provider name ↔ signatureHeader provider = some name := by
  constructor
  · intro hreads
    obtain ⟨p, body, secret, headers, value, hchanged⟩ := hreads
    by_contra hother
    exact hchanged (carried_set hother p body secret headers value)
  · exact fun hname =>
      ⟨samplePrimitives, [], "", .empty, sampleSignature provider, carried_sample hname⟩

/-- A header is stripped if and only if the list has its name in lower case. -/
theorem mem_fromCaptured {headers : Headers} {field : String × String} :
    field ∈ (fromCaptured headers).items ↔
      field ∈ headers.items ∧ field.1.toLower ∉ headersToStripFromCaptured := by
  simp [fromCaptured, PyDict.filterKeys]

theorem stripped_iff {provider : Provider} {name : String}
    (h : signatureHeader provider = some name) :
    name ∈ headersToStripFromCaptured ↔ provider ∉ unlisted := by
  cases provider with
  | mailgun => simp [signatureHeader] at h
  | _ =>
    obtain rfl := Option.some.inj h
    simp [headersToStripFromCaptured, unlisted]

theorem carries_fromCaptured_iff {provider : Provider} {headers : Headers} :
    Carries provider (fromCaptured headers) ↔ provider ∈ unlisted ∧ Carries provider headers := by
  constructor
  · intro hcarries
    obtain ⟨field, hfield, hreads⟩ := hcarries
    rw [mem_fromCaptured] at hfield
    have hname := readsSignature_iff.mp hreads
    refine ⟨?_, field, hfield.1, hreads⟩
    by_contra hlisted
    exact hfield.2 ((stripped_iff hname).mpr hlisted)
  · intro hunlisted
    obtain ⟨hunlisted, field, hfield, hreads⟩ := hunlisted
    have hname := readsSignature_iff.mp hreads
    refine ⟨field, mem_fromCaptured.mpr ⟨hfield, ?_⟩, hreads⟩
    intro hstripped
    exact (stripped_iff hname).mp hstripped hunlisted

theorem carries_set {provider : Provider} {headers : Headers} {name value : String}
    (hname : signatureHeader provider ≠ some name.toLower)
    (h : Carries provider (headers.set name value)) : Carries provider headers := by
  obtain ⟨field, hfield, hreads⟩ := h
  rcases PyDict.mem_items_set hfield with rfl | hmem
  · exact absurd (readsSignature_iff.mp hreads) hname
  · exact ⟨field, hmem, hreads⟩

theorem carries_set_of {provider : Provider} {headers : Headers} {name value : String}
    (hname : signatureHeader provider ≠ some name.toLower) (h : Carries provider headers) :
    Carries provider (headers.set name value) := by
  obtain ⟨field, hfield, hreads⟩ := h
  refine ⟨field, PyDict.mem_items_set_of_ne hfield ?_, hreads⟩
  intro heq
  rw [heq] at hreads
  exact hname (readsSignature_iff.mp hreads)

theorem toLower_key : "Idempotency-Key".toLower = "idempotency-key" := toLower_ofList _

theorem toLower_id : "X-Hooktrace-Forward-Id".toLower = "x-hooktrace-forward-id" :=
  toLower_ofList _

theorem toLower_signature : "X-Hooktrace-Signature".toLower = "x-hooktrace-signature" :=
  toLower_ofList _

section Outbound

variable {provider : Provider}

/-- What a forward adds to the captured headers is no signature of a sender's. -/
theorem added_header (provider : Provider) :
    signatureHeader provider ≠ some "Idempotency-Key".toLower ∧
      signatureHeader provider ≠ some "X-Hooktrace-Forward-Id".toLower ∧
      signatureHeader provider ≠ some "X-Hooktrace-Signature".toLower := by
  rw [toLower_key, toLower_id, toLower_signature]
  cases provider <;> simp [signatureHeader]

/-- The headers before the signature of this service, from the filtered ones. -/
theorem carries_unsignedHeaders {state : ClaimedState}
    (h : Carries provider (unsignedHeaders state)) :
    Carries provider (fromCaptured state.captured.headers) ∨
      ∃ own, state.endpoint.forwardHeaders = some own ∧ Carries provider own := by
  obtain ⟨hkey, hid, -⟩ := added_header provider
  have hfused := carries_set hkey (carries_set hid h)
  cases hown : state.endpoint.forwardHeaders with
  | none =>
    rw [hown] at hfused
    exact Or.inl hfused
  | some own =>
    rw [hown] at hfused
    obtain ⟨field, hfield, hreads⟩ := hfused
    rcases PyDict.mem_items_update hfield with hcaptured | hset
    · exact Or.inl ⟨field, hcaptured, hreads⟩
    · exact Or.inr ⟨own, rfl, field, hset, hreads⟩

theorem carries_outboundHeaders {env : ExecuteForward.Collaborators} {clock : Clock}
    {state : ClaimedState} {headers : Headers} (h : outboundHeaders env clock state = .ok headers)
    (hcarries : Carries provider headers) : Carries provider (unsignedHeaders state) := by
  unfold outboundHeaders at h
  split at h
  · obtain rfl := Except.ok.inj h
    exact hcarries
  · obtain rfl := Except.ok.inj h
    exact hcarries
  · rename_i blob _ _
    cases hsecret : ExecuteForward.decryptSecret env env.secretsKey blob with
    | error interrupt => simp [hsecret, bind, Except.bind] at h
    | ok secret =>
      simp only [hsecret, bind, Except.bind, pure, Except.pure, Except.ok.injEq] at h
      subst h
      exact carries_set (added_header provider).2.2 hcarries

/-- No forward of the request carries a signature that the endpoint's own headers lack. -/
def ForwardSeals (provider : Provider) (captured : CapturedRequest) : Prop :=
  ∀ env clock (state : ClaimedState) headers, state.captured = captured →
    outboundHeaders env clock state = .ok headers → Carries provider headers →
      ∃ own, state.endpoint.forwardHeaders = some own ∧ Carries provider own

def ReplaySeals (provider : Provider) (captured : CapturedRequest) : Prop :=
  ∀ args (state : AuthorizedState) validated, state.captured = captured →
    ¬ Carries provider (outbound args state validated).headers

/-- The list misses the header, and the request has it. -/
def Leaks (provider : Provider) (captured : CapturedRequest) : Prop :=
  provider ∈ unlisted ∧ Carries provider captured.headers

theorem forwardSeals_iff {captured : CapturedRequest} :
    ForwardSeals provider captured ↔ ¬ Leaks provider captured := by
  constructor
  · intro hseals hleaks
    -- a forward of an endpoint that has neither headers nor a secret of its own
    let state : ClaimedState :=
      ⟨Forward.create sampleForwardId captured.id sampleEndpoint.id "" (seconds 0),
        sampleEndpoint, captured, []⟩
    obtain ⟨hkey, hid, -⟩ := added_header provider
    have hcarries : Carries provider (unsignedHeaders state) :=
      carries_set_of hid (carries_set_of hkey (carries_fromCaptured_iff.mpr hleaks))
    obtain ⟨own, hown, -⟩ := hseals (JobRuns.sampleCollaborators .hangs .hangs)
      (JobRuns.sampleClock 1001) state (unsignedHeaders state) rfl rfl hcarries
    cases hown
  · intro hsealed env clock state headers hcaptured hout hcarries
    rcases carries_unsignedHeaders (carries_outboundHeaders hout hcarries) with hleft | hown
    · rw [hcaptured] at hleft
      exact absurd (carries_fromCaptured_iff.mp hleft) hsealed
    · exact hown

theorem replaySeals_iff {captured : CapturedRequest} :
    ReplaySeals provider captured ↔ ¬ Leaks provider captured := by
  constructor
  · intro hseals hleaks
    exact hseals ⟨captured.id, "", true, true⟩ ⟨sampleEndpoint, captured, []⟩ ⟨"", "", 0, ""⟩ rfl
      (carries_fromCaptured_iff.mpr hleaks)
  · intro hsealed args state validated hcaptured hcarries
    unfold outbound at hcarries
    dsimp only at hcarries
    split at hcarries
    · rw [hcaptured] at hcarries
      exact hsealed (carries_fromCaptured_iff.mp hcarries)
    · obtain ⟨field, hfield, -⟩ := hcarries
      simp [PyDict.empty] at hfield

/-- Forwards and replays carry no signature of the sender's if and only if the list has the
header of the provider, or the request lacks it. -/
theorem seals_iff (provider : Provider) (captured : CapturedRequest) :
    (ForwardSeals provider captured ∧ ReplaySeals provider captured) ↔
      ¬ Leaks provider captured := by
  rw [forwardSeals_iff, replaySeals_iff, and_self]

end Outbound

def discordRequest : CapturedRequest := { sampleRequest with
  headers := (PyDict.empty.set "x-signature-ed25519" "5f").set "x-signature-timestamp" "1000" }

/-- The replay of a Discord request carries its signature. -/
theorem discord_leaks : ¬ ∀ provider captured,
    ForwardSeals provider captured ∧ ReplaySeals provider captured := by
  intro hclaim
  refine (hclaim .discord discordRequest).2 ⟨sampleRequest.id, "", true, true⟩
    ⟨sampleEndpoint, discordRequest, []⟩ ⟨"", "", 0, ""⟩ rfl ?_
  refine ⟨("x-signature-ed25519", "5f"), ?_, ?_⟩
  · decide +kernel
  · rw [readsSignature_iff]
    decide +kernel

section Receiver

variable (p : Primitives) {provider : Provider} (body : Bytes) {headers : Headers}
variable (secret : String)

theorem header_eq_none {lower canonical : String} (hcanonical : canonical.toLower = lower)
    (h : ∀ field ∈ headers.items, field.1.toLower ≠ lower) :
    header headers lower canonical = none := by
  have hlower : lower.toLower = lower := hcanonical ▸ toLower_toLower canonical
  have habsent (name : String) (hname : name.toLower = lower) : headers.get? name = none := by
    rw [PyDict.get?, Option.map_eq_none_iff, List.find?_eq_none]
    intro field hfield heq
    have heq : field.1 = name := by simpa using heq
    exact h field hfield (heq ▸ hname)
  simp [header, habsent lower hlower, habsent canonical hcanonical, given]

/-- Without the header, in whatever case, there is nothing to validate. -/
theorem validate_missing {name : String} (hname : signatureHeader provider = some name)
    (h : ∀ field ∈ headers.items, field.1.toLower ≠ name) :
    validate p provider body headers secret = .ok .missing := by
  have hnone {lower canonical : String} (hread : signatureHeader provider = some lower)
      (hcanonical : canonical.toLower = lower) : header headers lower canonical = none := by
    obtain rfl := Option.some.inj (hname.symm.trans hread)
    exact header_eq_none hcanonical h
  cases provider with
  | mailgun => simp [signatureHeader] at hname
  | stripe =>
    rw [validate, validateStripe, hnone rfl (by exact toLower_ofList _)]
  | discord =>
    rw [validate, validateDiscord, hnone rfl (by exact toLower_ofList _)]
  | slack =>
    rw [validate, validateSlack, hnone rfl (by exact toLower_ofList _)]
  | github =>
    rw [validate, validateGithub, hnone rfl (by exact toLower_ofList _), validateBody]
  | shopify =>
    rw [validate, validateShopify, hnone rfl (by exact toLower_ofList _), validateBody]
  | twilio =>
    rw [validate, validateTwilio, hnone rfl (by exact toLower_ofList _), validateBody]
  | zapier =>
    rw [validate, validateZapier, hnone rfl (by exact toLower_ofList _), validateBody]
  | n8n =>
    rw [validate, validateN8n, hnone rfl (by exact toLower_ofList _), validateBody]

/-- The receiver of a listed provider's request cannot take it for the sender's. -/
theorem validate_stripped {name : String} (hname : signatureHeader provider = some name)
    (hlisted : provider ∉ unlisted) :
    validate p provider body (fromCaptured headers) secret = .ok .missing := by
  refine validate_missing p body secret hname fun field hfield heq => ?_
  refine (mem_fromCaptured.mp hfield).2 ?_
  rw [heq]
  exact (stripped_iff hname).mpr hlisted

theorem header_fromCaptured {lower canonical : String} (hcanonical : canonical.toLower = lower)
    (hkept : lower ∉ headersToStripFromCaptured) :
    header (fromCaptured headers) lower canonical = header headers lower canonical := by
  have hlower : lower.toLower = lower := hcanonical ▸ toLower_toLower canonical
  simp [header, fromCaptured, PyDict.get?_filterKeys, hlower, hcanonical, hkept]

/-- A request of a provider that is not listed verifies at the receiver as it did here. -/
theorem validate_unlisted (h : provider ∈ unlisted) :
    validate p provider body (fromCaptured headers) secret =
      validate p provider body headers secret := by
  simp only [unlisted, List.mem_cons, List.not_mem_nil, or_false] at h
  rcases h with rfl | rfl | rfl
  · simp only [validate, validateDiscord]
    rw [header_fromCaptured (by exact toLower_ofList _) (by simp [headersToStripFromCaptured]),
      header_fromCaptured (by exact toLower_ofList _) (by simp [headersToStripFromCaptured])]
  · simp only [validate, validateZapier]
    rw [header_fromCaptured (by exact toLower_ofList _) (by simp [headersToStripFromCaptured])]
  · simp only [validate, validateN8n]
    rw [header_fromCaptured (by exact toLower_ofList _) (by simp [headersToStripFromCaptured])]

end Receiver

end Hooktrace.SignatureHeaders
