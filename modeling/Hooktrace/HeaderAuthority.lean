import Hooktrace.FoldedKeys
import Hooktrace.SignatureHeaders

/-!
The headers of a forward come from the captured request, from the endpoint and from the service
itself, and are put into one dictionary, which knows names by their case. The receiver does not.
-/
namespace Hooktrace.HeaderAuthority

open ExecuteForward (ClaimedState Clock Collaborators Interrupt decryptSecret
  headersToStripFromCaptured outboundHeaders signForward unsignedHeaders)
open FoldedKeys
open SignatureHeaders (toLower_id toLower_key toLower_signature)

/-- The headers that the service sets, in lower case. -/
def serviceHeaders : List String :=
  ["idempotency-key", "x-hooktrace-forward-id", "x-hooktrace-signature"]

/-- The values under a name, as HTTP compares names. -/
def named (headers : Headers) (name : String) : List String :=
  under String.toLower headers name.toLower

def ownHeaders (state : ClaimedState) : Headers := state.endpoint.forwardHeaders.getD .empty

def signs (state : ClaimedState) : Bool :=
  match state.endpoint.forwardSecretEncrypted with
  | none | some [] => false
  | some _ => true

def signatureValue (env : Collaborators) (clock : Clock) (state : ClaimedState) :
    Except Interrupt (Option String) :=
  match state.endpoint.forwardSecretEncrypted with
  | none | some [] => .ok none
  | some blob => do
    let secret ← decryptSecret env env.secretsKey blob
    let sig := signForward env (encodeUtf8 secret) clock.unixNow state.body
    pure (some s!"t={clock.unixNow},v1={sig}")

/-- What the headers of a forward are to say. -/
structure Authoritative (env : Collaborators) (clock : Clock) (state : ClaimedState)
    (headers : Headers) : Prop where
  idempotencyKey : named headers "Idempotency-Key" = [state.forward.idempotencyKey]
  forwardId : named headers "X-Hooktrace-Forward-Id" = [state.forward.id.str]
  signature : ∃ value, signatureValue env clock state = .ok value ∧
    (value.isSome = true ↔ signs state = true) ∧
    named headers "X-Hooktrace-Signature" = value.toList
  own : ∀ name value, (ownHeaders state).get? name = some value →
    name.toLower ∉ serviceHeaders → named headers name = [value]

def Lower (headers : Headers) : Prop :=
  ∀ name value, headers.get? name = some value → name.toLower = name

/-- No two names differ by their case only. -/
def Distinct (headers : Headers) : Prop :=
  ∀ name value, headers.get? name = some value → Unrivalled String.toLower headers name

/-- The three sources have no name in common, but for the names that are spelled the same or are
stripped. -/
structure Apart (state : ClaimedState) : Prop where
  captured : ∀ name ∈ serviceHeaders, state.captured.headers.get? name = none
  idempotencyKey : Unrivalled String.toLower (ownHeaders state) "Idempotency-Key"
  forwardId : Unrivalled String.toLower (ownHeaders state) "X-Hooktrace-Forward-Id"
  signature : ∀ name value, (ownHeaders state).get? name = some value →
    name.toLower = "x-hooktrace-signature" →
      signs state = true ∧ name = "X-Hooktrace-Signature"
  shared : ∀ name value, (ownHeaders state).get? name = some value →
    name.toLower ∉ serviceHeaders → ∀ sent, state.captured.headers.get? name.toLower = some sent →
      name.toLower ∈ headersToStripFromCaptured ∨ name.toLower = name

section Fusion

variable {env : Collaborators} {clock : Clock} {state : ClaimedState} {headers : Headers}

def fused (state : ClaimedState) : Headers :=
  (SignatureHeaders.fromCaptured state.captured.headers).update (ownHeaders state)

theorem unsignedHeaders_eq (state : ClaimedState) : unsignedHeaders state =
    ((fused state).set "Idempotency-Key" state.forward.idempotencyKey).set
      "X-Hooktrace-Forward-Id" state.forward.id.str := by
  unfold unsignedHeaders fused ownHeaders
  cases state.endpoint.forwardHeaders <;> rfl

theorem outboundHeaders_eq (h : outboundHeaders env clock state = .ok headers) :
    (signs state = false ∧ signatureValue env clock state = .ok none ∧
      headers = unsignedHeaders state) ∨
    ∃ value, signs state = true ∧ signatureValue env clock state = .ok (some value) ∧
      headers = (unsignedHeaders state).set "X-Hooktrace-Signature" value := by
  rcases hblob : state.endpoint.forwardSecretEncrypted with _ | _ | ⟨byte, rest⟩ <;>
    simp only [outboundHeaders, signs, signatureValue, hblob] at h ⊢
  · exact Or.inl ⟨trivial, trivial, (Except.ok.inj h).symm⟩
  · exact Or.inl ⟨trivial, trivial, (Except.ok.inj h).symm⟩
  · right
    cases hsecret : decryptSecret env env.secretsKey (byte :: rest) with
    | error interrupt => simp [hsecret, bind, Except.bind] at h
    | ok secret =>
      simp only [hsecret, bind, Except.bind, pure, Except.pure, Except.ok.injEq] at h
      refine ⟨_, trivial, ?_, h.symm⟩
      simp only [bind, Except.bind, pure, Except.pure]

theorem get?_fromCaptured (hlower : Lower state.captured.headers) {name sent : String} :
    (SignatureHeaders.fromCaptured state.captured.headers).get? name = some sent ↔
      name ∉ headersToStripFromCaptured ∧ state.captured.headers.get? name = some sent := by
  rw [SignatureHeaders.fromCaptured, PyDict.get?_filterKeys]
  constructor
  · intro h
    split at h
    · rename_i hkeep
      rw [← hlower name sent h]
      exact ⟨by simpa using hkeep, by rw [hlower name sent h]; exact h⟩
    · cases h
  · rintro ⟨hkeep, h⟩
    rw [if_pos (by simpa [hlower name sent h] using hkeep), h]

/-- Among names in lower case the rival of a name is its own lower case. -/
theorem unrivalled_fromCaptured (hlower : Lower state.captured.headers) {name : String} :
    Unrivalled String.toLower (SignatureHeaders.fromCaptured state.captured.headers) name ↔
      ∀ sent, state.captured.headers.get? name.toLower = some sent →
        name.toLower ∈ headersToStripFromCaptured ∨ name.toLower = name := by
  constructor
  · intro h sent hget
    by_cases hstrip : name.toLower ∈ headersToStripFromCaptured
    · exact Or.inl hstrip
    · exact Or.inr (h _ sent ((get?_fromCaptured hlower).mpr ⟨hstrip, hget⟩)
        (toLower_toLower name))
  · intro h a sent hget hfold
    obtain ⟨hkeep, hget⟩ := (get?_fromCaptured hlower).mp hget
    have ha : a = name.toLower := (hlower a sent hget).symm.trans hfold
    subst ha
    rcases h sent hget with hstrip | heq
    · exact absurd hstrip hkeep
    · exact heq

/-- A header of the service is alone if no other source has its name. -/
theorem unrivalled_service (hlower : Lower state.captured.headers) {name : String}
    (hname : name.toLower ∈ serviceHeaders) (hcase : name.toLower ≠ name) :
    Unrivalled String.toLower (fused state) name ↔
      state.captured.headers.get? name.toLower = none ∧
        Unrivalled String.toLower (ownHeaders state) name := by
  have hkept : ∀ lower ∈ serviceHeaders, lower ∉ headersToStripFromCaptured := by
    simp [serviceHeaders, headersToStripFromCaptured]
  rw [fused, unrivalled_update, unrivalled_fromCaptured hlower, Option.eq_none_iff_forall_ne_some]
  simp [hkept _ hname, hcase]

def spelled : List String := ["Idempotency-Key", "X-Hooktrace-Forward-Id", "X-Hooktrace-Signature"]

theorem spelled_toLower : ∀ name ∈ spelled, name.toLower ∈ serviceHeaders ∧ name.toLower ≠ name ∧
    ∀ other ∈ spelled, other.toLower = name.toLower → other = name := by
  simp [spelled, serviceHeaders, toLower_key, toLower_id, toLower_signature]

/-- The headers of the service are nobody's rivals but in another spelling. -/
theorem unrivalled_outbound (h : outboundHeaders env clock state = .ok headers) {name : String}
    (hname : ∀ other ∈ spelled, other.toLower = name.toLower → other = name) :
    Unrivalled String.toLower headers name ↔ Unrivalled String.toLower (fused state) name := by
  simp only [spelled, List.forall_mem_cons] at hname
  obtain ⟨hkey, hid, hsignature, -⟩ := hname
  have hunsigned : Unrivalled String.toLower (unsignedHeaders state) name ↔
      Unrivalled String.toLower (fused state) name := by
    rw [unsignedHeaders_eq, unrivalled_set hid, unrivalled_set hkey]
  rcases outboundHeaders_eq h with ⟨-, -, rfl⟩ | ⟨value, -, -, rfl⟩
  · exact hunsigned
  · rw [unrivalled_set hsignature, hunsigned]

theorem get?_outbound (h : outboundHeaders env clock state = .ok headers) {name : String}
    (hname : name ∉ spelled) : headers.get? name = (fused state).get? name := by
  simp only [spelled, List.mem_cons, List.not_mem_nil, or_false, not_or] at hname
  obtain ⟨hkey, hid, hsignature⟩ := hname
  have hunsigned : (unsignedHeaders state).get? name = (fused state).get? name := by
    rw [unsignedHeaders_eq, PyDict.get?_set, if_neg hid, PyDict.get?_set, if_neg hkey]
  rcases outboundHeaders_eq h with ⟨-, -, rfl⟩ | ⟨value, -, -, rfl⟩
  · exact hunsigned
  · rw [PyDict.get?_set, if_neg hsignature, hunsigned]

theorem get?_forwardId (h : outboundHeaders env clock state = .ok headers) :
    headers.get? "X-Hooktrace-Forward-Id" = some state.forward.id.str := by
  have hunsigned : (unsignedHeaders state).get? "X-Hooktrace-Forward-Id" =
      some state.forward.id.str := by
    rw [unsignedHeaders_eq, PyDict.get?_set, if_pos rfl]
  rcases outboundHeaders_eq h with ⟨-, -, rfl⟩ | ⟨value, -, -, rfl⟩
  · exact hunsigned
  · rw [PyDict.get?_set, if_neg (by decide), hunsigned]

/-- A header of the service stands alone if no other source has its name. -/
theorem named_service (hlower : Lower state.captured.headers)
    (h : outboundHeaders env clock state = .ok headers) {name value : String}
    (hname : name ∈ spelled) (hget : headers.get? name = some value) :
    named headers name = [value] ↔ state.captured.headers.get? name.toLower = none ∧
      Unrivalled String.toLower (ownHeaders state) name := by
  obtain ⟨hservice, hcase, hothers⟩ := spelled_toLower name hname
  rw [named, under_eq_singleton hget, unrivalled_outbound h hothers,
    unrivalled_service hlower hservice hcase]

/-- A header of the endpoint stands alone if no captured one that is kept has its name. -/
theorem named_own (hlower : Lower state.captured.headers)
    (hdistinct : Distinct (ownHeaders state))
    (h : outboundHeaders env clock state = .ok headers) {name value : String}
    (hname : name.toLower ∉ serviceHeaders)
    (hget : (ownHeaders state).get? name = some value) :
    named headers name = [value] ↔
      ∀ sent, state.captured.headers.get? name.toLower = some sent →
        name.toLower ∈ headersToStripFromCaptured ∨ name.toLower = name := by
  have hothers : ∀ other ∈ spelled, other.toLower = name.toLower → other = name :=
    fun other hother heq => absurd (heq ▸ (spelled_toLower other hother).1) hname
  have hsent : headers.get? name = some value := by
    rw [get?_outbound h fun hmem => hname (spelled_toLower name hmem).1, fused,
      PyDict.get?_update, hget]
    rfl
  rw [named, under_eq_singleton hsent, unrivalled_outbound h hothers, fused, unrivalled_update,
    unrivalled_fromCaptured hlower]
  exact and_iff_left (hdistinct name value hget)

/-- Without a secret the signature header is absent if no source has its name. -/
theorem named_unsigned (hlower : Lower state.captured.headers) :
    named (unsignedHeaders state) "X-Hooktrace-Signature" = [] ↔
      state.captured.headers.get? "x-hooktrace-signature" = none ∧
        ∀ name value, (ownHeaders state).get? name = some value →
          name.toLower ≠ "x-hooktrace-signature" := by
  have hkey : "Idempotency-Key".toLower ≠ "x-hooktrace-signature" := by simp [toLower_key]
  have hid : "X-Hooktrace-Forward-Id".toLower ≠ "x-hooktrace-signature" := by simp [toLower_id]
  have hkept : "x-hooktrace-signature" ∉ headersToStripFromCaptured := by
    simp [headersToStripFromCaptured]
  have hlow : "x-hooktrace-signature".toLower = "x-hooktrace-signature" := toLower_ofList _
  rw [named, under_eq_nil, toLower_signature, unsignedHeaders_eq,
    Option.eq_none_iff_forall_ne_some]
  constructor
  · intro h
    have hfused : ∀ name value, (fused state).get? name = some value →
        name.toLower ≠ "x-hooktrace-signature" := by
      intro name value hget heq
      refine h name value ?_ heq
      rw [PyDict.get?_set, if_neg, PyDict.get?_set, if_neg, hget]
      · rintro rfl
        exact hkey heq
      · rintro rfl
        exact hid heq
    refine ⟨fun sent hget => ?_, fun name value hget => ?_⟩
    · cases hown : (ownHeaders state).get? "x-hooktrace-signature" with
      | some own =>
        exact hfused _ own (by rw [fused, PyDict.get?_update, hown]; rfl) hlow
      | none =>
        have hcaptured := (get?_fromCaptured hlower).mpr ⟨hkept, hget⟩
        exact hfused _ sent (by rw [fused, PyDict.get?_update, hown, hcaptured]; rfl) hlow
    · exact hfused name value (by rw [fused, PyDict.get?_update, hget]; rfl)
  · rintro ⟨hcaptured, hown⟩ name value hget heq
    rw [PyDict.get?_set, if_neg, PyDict.get?_set, if_neg, fused, PyDict.get?_update,
      Option.or_eq_some_iff] at hget
    · rcases hget with hset | ⟨-, hold⟩
      · exact hown name value hset heq
      · obtain ⟨-, hold⟩ := (get?_fromCaptured hlower).mp hold
        obtain rfl : name = "x-hooktrace-signature" := (hlower name value hold).symm.trans heq
        exact hcaptured value hold
    · rintro rfl
      exact hkey heq
    · rintro rfl
      exact hid heq

/-- The headers of a forward say what they are to say if and only if its sources keep apart. -/
theorem authoritative_iff_apart (hlower : Lower state.captured.headers)
    (hdistinct : Distinct (ownHeaders state)) (h : outboundHeaders env clock state = .ok headers) :
    Authoritative env clock state headers ↔ Apart state := by
  have hkey := named_service hlower h (by decide) (ExecuteForward.idempotencyKey_sent h)
  have hid := named_service hlower h (by decide) (get?_forwardId h)
  -- what the signature header says, of the captured headers and of the endpoint's
  have hsigned : (∃ value, signatureValue env clock state = .ok value ∧
      (value.isSome = true ↔ signs state = true) ∧
      named headers "X-Hooktrace-Signature" = value.toList) ↔
      state.captured.headers.get? "x-hooktrace-signature" = none ∧
        ∀ name value, (ownHeaders state).get? name = some value →
          name.toLower = "x-hooktrace-signature" →
            signs state = true ∧ name = "X-Hooktrace-Signature" := by
    rcases outboundHeaders_eq h with ⟨hoff, hvalue, rfl⟩ | ⟨value, hon, hvalue, heq⟩
    · simp only [hvalue, hoff, Except.ok.injEq, exists_eq_left', Option.isSome_none,
        Option.toList_none, named_unsigned hlower, Bool.false_eq_true, false_and, true_and]
    · have hget : headers.get? "X-Hooktrace-Signature" = some value := by
        rw [heq, PyDict.get?_set, if_pos rfl]
      have hnamed := named_service hlower h (by decide) hget
      simp only [hvalue, hon, Except.ok.injEq, exists_eq_left', Option.isSome_some,
        Option.toList_some, hnamed, true_and, toLower_signature, Unrivalled]
  rw [toLower_key] at hkey
  rw [toLower_id] at hid
  constructor
  · intro hauthority
    obtain ⟨hcaptured, hown⟩ := hsigned.mp hauthority.signature
    refine ⟨?_, (hkey.mp hauthority.idempotencyKey).2, (hid.mp hauthority.forwardId).2, hown,
      fun name value hget hname => ?_⟩
    · simp only [serviceHeaders, List.forall_mem_cons]
      exact ⟨(hkey.mp hauthority.idempotencyKey).1, (hid.mp hauthority.forwardId).1, hcaptured,
        by simp⟩
    · exact (named_own hlower hdistinct h hname hget).mp (hauthority.own name value hget hname)
  · intro hapart
    have hcaptured := hapart.captured
    simp only [serviceHeaders, List.forall_mem_cons] at hcaptured
    exact ⟨hkey.mpr ⟨hcaptured.1, hapart.idempotencyKey⟩,
      hid.mpr ⟨hcaptured.2.1, hapart.forwardId⟩, hsigned.mpr ⟨hcaptured.2.2.1, hapart.signature⟩,
      fun name value hget hname => (named_own hlower hdistinct h hname hget).mpr
        (hapart.shared name value hget hname)⟩

end Fusion

section Samples

def sampleState (own captured : Headers) : ClaimedState :=
  ⟨Forward.create sampleForwardId sampleRequest.id sampleEndpoint.id "" (seconds 0),
    { sampleEndpoint with forwardHeaders := some own },
    { sampleRequest with headers := captured }, []⟩

theorem eq_of_get?_single {name value other sent : String}
    (h : (PyDict.empty.set name value : Headers).get? other = some sent) : other = name := by
  rcases PyDict.mem_items_set (PyDict.mem_items_of_get? h) with heq | hmem
  · exact congrArg Prod.fst heq
  · simp [PyDict.empty] at hmem

/-- The endpoint's Authorization header comes in the place of the captured one. -/
theorem bearer_authoritative : Authoritative (JobRuns.sampleCollaborators .hangs .hangs)
    (JobRuns.sampleClock 1001)
    (sampleState (PyDict.empty.set "Authorization" "Bearer own")
      (PyDict.empty.set "authorization" "Bearer sent"))
    (unsignedHeaders (sampleState (PyDict.empty.set "Authorization" "Bearer own")
      (PyDict.empty.set "authorization" "Bearer sent"))) := by
  have hown : "Authorization".toLower = "authorization" := toLower_ofList _
  refine (authoritative_iff_apart ?_ ?_ rfl).mpr ⟨?_, ?_, ?_, ?_, ?_⟩
  · intro name value hget
    rw [eq_of_get?_single hget]
    exact toLower_ofList _
  · intro name value hget other sent hother hfold
    rw [eq_of_get?_single hget, eq_of_get?_single hother]
  · decide +kernel
  · intro name value hget hfold
    rw [eq_of_get?_single hget] at hfold
    simp [hown, toLower_key] at hfold
  · intro name value hget hfold
    rw [eq_of_get?_single hget] at hfold
    simp [hown, toLower_id] at hfold
  · intro name value hget hfold
    rw [eq_of_get?_single hget] at hfold
    simp [hown] at hfold
  · intro name value hget hname sent hsent
    rw [eq_of_get?_single hget]
    exact Or.inl (by simp [hown, headersToStripFromCaptured])

/-- A sender's own idempotency key is sent beside that of the service. -/
theorem key_duplicated : ¬ ∀ env clock state headers, Lower state.captured.headers →
    Distinct (ownHeaders state) → outboundHeaders env clock state = .ok headers →
      Authoritative env clock state headers := by
  intro hclaim
  have hlower : Lower (PyDict.empty.set "idempotency-key" "1") := by
    intro name value hget
    rw [eq_of_get?_single hget]
    exact toLower_ofList _
  have hdistinct : Distinct .empty := by
    intro name value hget
    simpa [PyDict.empty] using PyDict.mem_items_of_get? hget
  have hout : outboundHeaders (JobRuns.sampleCollaborators .hangs .hangs)
      (JobRuns.sampleClock 1001)
      (sampleState .empty (PyDict.empty.set "idempotency-key" "1")) =
      .ok (unsignedHeaders (sampleState .empty (PyDict.empty.set "idempotency-key" "1"))) := rfl
  have hauthority := hclaim (JobRuns.sampleCollaborators .hangs .hangs) (JobRuns.sampleClock 1001)
    (sampleState .empty (PyDict.empty.set "idempotency-key" "1")) _ hlower hdistinct hout
  have hnone := ((named_service hlower hout (by decide)
    (ExecuteForward.idempotencyKey_sent hout)).mp hauthority.idempotencyKey).1
  rw [toLower_key] at hnone
  have hsome : (PyDict.empty.set "idempotency-key" "1" : Headers).get? "idempotency-key" =
      some "1" := by rw [PyDict.get?_set, if_pos rfl]
  exact absurd (hnone.symm.trans hsome) (by simp)

end Samples

end Hooktrace.HeaderAuthority
