import Hooktrace.Database
import Hooktrace.Delivery
import Hooktrace.HeaderAuthority
import Hooktrace.Transition
import Hooktrace.UpdateEndpointConfig

/-!
Whose configuration a delivery carries. The target URL is fixed in the forward when the
request is captured; the custom headers and the secret belong to the endpoint and are
read when an attempt is claimed, however often the endpoint was changed in between.
-/
namespace Hooktrace.ConfigScope

open Table ForwardRepository ExecuteForward Delivery Transition

abbrev CaptureId := ℕ

/-- The committed tables, and what each open capture has read of its endpoint. -/
structure State where
  db : Database
  read : CaptureId → Option Endpoint

inductive Action where
  /-- A capture reads the endpoint of its token. -/
  | findEndpoint (c : CaptureId) (token : String)
  /-- It saves the request and, where the entity has a URL, the forward. -/
  | capture (c : CaptureId) (r : CapturedRequest) (forwardId : UUID) (now : Datetime)
  /-- A PATCH writes the entity it has made of some earlier version, a capture counts, a scan
  flags. -/
  | updateEndpoints (u : Update Endpoint) (h : EndpointRepository.Writer u)
  /-- A manual retry, an abandon, a reclaim, a recorded outcome. -/
  | updateForwards (u : Update Forward) (h : ForwardRepository.Writer u)
  /-- An attempt, until it has sent. -/
  | attempt (env : Collaborators) (clock : Clock) (forwardId : UUID)

/-- The collaborators of an attempt, with the committed tables behind the repositories. -/
def onTables (env : Collaborators) (db : Database) : Collaborators :=
  { env with
    findEndpoint := fun id => EndpointRepository.findById id db.endpoints
    findRequest := fun id => Table.find CapturedRequest.id id db.requests }

/-- The row as TX1 leaves it. -/
def claimedRow (env : Collaborators) (clock : Clock) (forwardId : UUID) (row : Forward) :
    Forward :=
  match claimPhase env clock forwardId row with
  | .ok (claimed, _) => claimed
  | .error _ => row

def step (s : State) : Action → Option State
  | .findEndpoint c token =>
    (EndpointRepository.findByToken token s.db.endpoints).map fun endpoint =>
      { s with read := Function.update s.read c (some endpoint) }
  | .capture c r forwardId now =>
    match s.read c with
    | none => none
    | some endpoint => (s.db.saveRequest { r with endpointId := endpoint.id }).bind fun db =>
      match endpoint.forwardUrl.filter (· ≠ "") with
      | none => some { s with db }
      | some url =>
        (db.saveForward (Forward.create forwardId r.id endpoint.id url now)).map
          fun db => { s with db }
  | .updateEndpoints u _ => some { s with db := s.db.updateEndpoints u }
  | .updateForwards u _ => some { s with db := s.db.updateForwards u }
  | .attempt env clock forwardId => some { s with db := { s.db with
      forwards := s.db.forwards.map (claimedRow (onTables env s.db) clock forwardId) } }

def start (endpoints : List Endpoint) : State := ⟨⟨endpoints, [], [], []⟩, fun _ => none⟩

def delivered (s : State) (env : Collaborators) (clock : Clock) (forwardId : UUID) :
    Option (Forward × SendCall) := do
  let row ← findById forwardId s.db.forwards
  let call ← sent (onTables env s.db) clock forwardId row
  pure (row, call)

def customized (e : Endpoint) (captured : CapturedRequest) : Headers :=
  (SignatureHeaders.fromCaptured captured.headers).update (e.forwardHeaders.getD .empty)

/-- The call is what one version of the endpoint makes of the request: nothing that it says
comes from elsewhere, but for the key and the id of the forward. -/
structure Carries (env : Collaborators) (clock : Clock) (url : String)
    (captured : CapturedRequest) (call : SendCall) (e : Endpoint) : Prop where
  target : env.validate url = .returns call.validated
  method : call.method = captured.method
  body : loadBody env captured = .ok call.body
  headers : ∀ name ∉ HeaderAuthority.spelled,
    call.headers.get? name = (customized e captured).get? name
  /-- Without a secret the service adds no signature. -/
  unsigned : e.forwardSecretEncrypted = none ∨ e.forwardSecretEncrypted = some [] →
    call.headers.get? "X-Hooktrace-Signature" =
      (customized e captured).get? "X-Hooktrace-Signature"
  signed : ∀ blob, e.forwardSecretEncrypted = some blob → blob ≠ [] →
    ∃ secret, decryptSecret env env.secretsKey blob = .ok secret ∧
      call.headers.get? "X-Hooktrace-Signature" = some
        s!"t={clock.unixNow},v1={signForward env (encodeUtf8 secret) clock.unixNow call.body}"

/-- The call is what this version of the endpoint makes of the request of the forward. -/
def Makes (now : State) (env : Collaborators) (clock : Clock) (row : Forward) (call : SendCall)
    (e : Endpoint) : Prop :=
  ∃ captured ∈ now.db.requests, captured.id = row.requestId ∧
    Carries env clock row.targetUrl captured call e

/-- The states that the run has passed, the present one last. -/
def Passed (past : History State Action) (now s : State) : Prop :=
  s = now ∨ ∃ m ∈ past, m.pre = s

/-- At some moment the endpoint of the forward had the URL of the forward, and was like this. -/
def Had (past : History State Action) (now : State) (row : Forward) (like : Endpoint → Prop) :
    Prop :=
  ∃ s, Passed past now s ∧ ∃ e ∈ s.db.endpoints, e.id = row.endpointId ∧
    e.forwardUrl = some row.targetUrl ∧ like e

/-- Whatever is sent carries only the configuration of its own target. -/
def OwnConfiguration (past : History State Action) (m : Move State Action) : Prop :=
  ∀ env clock forwardId row call, m.act = .attempt env clock forwardId →
    delivered m.pre env clock forwardId = some (row, call) →
    Had past m.pre row (Makes m.pre env clock row call)

/-- What is sent goes to the URL that a capture found on the endpoint, and is what the endpoint
makes of the request as it is at the claim. This is the configuration of its own target if the
endpoint ever had that URL with the same headers and secret. -/
def EndpointConfiguration (past : History State Action) (m : Move State Action) : Prop :=
  ∀ env clock forwardId row call, m.act = .attempt env clock forwardId →
    delivered m.pre env clock forwardId = some (row, call) →
    Had past m.pre row (fun _ => True) ∧
    ∃ e ∈ m.pre.db.endpoints, e.id = row.endpointId ∧ Makes m.pre env clock row call e ∧
      (Had past m.pre row (fun e' => e'.forwardHeaders = e.forwardHeaders ∧
        e'.forwardSecretEncrypted = e.forwardSecretEncrypted) →
        Had past m.pre row (Makes m.pre env clock row call))

/-- Every open capture has read, and every forward has been given, what the endpoint had. -/
structure Recorded (past : History State Action) (s : State) : Prop where
  read : ∀ c e, s.read c = some e → ∃ s', Passed past s s' ∧ e ∈ s'.db.endpoints
  target : ∀ f ∈ s.db.forwards, Had past s f (fun _ => True)

section Runs

variable {past : History State Action} {s s' u : State} {a : Action}

theorem Passed.later (h : Passed past s s') : Passed (⟨s, a, u⟩ :: past) u s' := by
  rcases h with rfl | ⟨m, hm, hpre⟩
  · exact Or.inr ⟨_, List.mem_cons_self, rfl⟩
  · exact Or.inr ⟨m, List.mem_cons_of_mem _ hm, hpre⟩

/-- What a claim hands over, and the row that it leaves, have the origin of the row. -/
theorem claimPhase_origin {env : Collaborators} {clock : Clock} {forwardId : UUID}
    {row row' : Forward} {state : Option ClaimedState}
    (h : claimPhase env clock forwardId row = .ok (row', state)) :
    SameOrigin row row' ∧ ∀ claimed, state = some claimed → SameOrigin row claimed.forward ∧
      env.findEndpoint claimed.forward.endpointId = some claimed.endpoint := by
  have hclaimed := (Writer.claim forwardId clock.claimedAt).sameOrigin row
  unfold claimPhase at h
  rcases (claimForAttempt forwardId clock.claimedAt).returningRow_cases
    (claimForAttempt_holds (r := row)) with ⟨-, hrow⟩ | ⟨-, hrow⟩
  · simp only [hrow] at h
    split at h
    · rename_i endpoint captured hendpoint hcaptured
      cases hbody : loadBody env captured with
      | error interrupt => simp [hbody, bind, Except.bind] at h
      | ok body =>
        simp only [hbody, bind, Except.bind, pure, Except.pure, Except.ok.injEq,
          Prod.mk.injEq] at h
        obtain ⟨rfl, rfl⟩ := h
        refine ⟨hclaimed, ?_⟩
        intro claimed hsome
        obtain rfl := Option.some.inj hsome
        exact ⟨hclaimed, hendpoint⟩
    · obtain ⟨rfl, rfl⟩ := Prod.mk.inj (Except.ok.inj h)
      exact ⟨hclaimed.trans ((Writer.record _ _ _).sameOrigin_onRow _), by simp⟩
  · simp only [hrow] at h
    obtain ⟨rfl, rfl⟩ := Prod.mk.inj (Except.ok.inj h)
    exact ⟨.refl _, by simp⟩

theorem claimedRow_origin (env : Collaborators) (clock : Clock) (forwardId : UUID)
    (row : Forward) : SameOrigin row (claimedRow env clock forwardId row) := by
  unfold claimedRow
  split
  · rename_i hclaim
    exact (claimPhase_origin hclaim).1
  · exact .refl row

theorem Recorded.step (h : Recorded past s) (hstep : step s a = some u) :
    Recorded (⟨s, a, u⟩ :: past) u := by
  have hread : ∀ c e, s.read c = some e →
      ∃ s', Passed (⟨s, a, u⟩ :: past) u s' ∧ e ∈ s'.db.endpoints := by
    intro c e hc
    obtain ⟨s', hpassed, hmem⟩ := h.read c e hc
    exact ⟨s', hpassed.later, hmem⟩
  have htarget : ∀ f ∈ s.db.forwards, ∀ f', SameOrigin f f' →
      Had (⟨s, a, u⟩ :: past) u f' (fun _ => True) := by
    intro f hf f' horigin
    obtain ⟨s', hpassed, e, he, hid, hurl, -⟩ := h.target f hf
    exact ⟨s', hpassed.later, e, he, hid.trans horigin.endpoint_eq.symm,
      horigin.target_eq ▸ hurl, trivial⟩
  cases a with
  | findEndpoint c token =>
    obtain ⟨endpoint, hfind, rfl⟩ := Option.map_eq_some_iff.mp hstep
    refine ⟨?_, fun f hf => htarget f hf f (.refl f)⟩
    intro c' e hc'
    by_cases hsame : c' = c
    · subst hsame
      obtain rfl : endpoint = e := by simpa using hc'
      exact ⟨s, Or.inr ⟨_, List.mem_cons_self, rfl⟩, List.mem_of_find?_eq_some hfind⟩
    · exact hread c' e (by simpa [hsame] using hc')
  | capture c r forwardId now =>
    simp only [ConfigScope.step] at hstep
    split at hstep
    · simp at hstep
    · rename_i endpoint hc
      obtain ⟨db, hsave, hstep⟩ := Option.bind_eq_some_iff.mp hstep
      obtain ⟨rfl, -, -⟩ := Database.save_eq_some hsave
      split at hstep
      · obtain rfl := Option.some.inj hstep
        exact ⟨hread, fun f hf => htarget f hf f (.refl f)⟩
      · rename_i url hurl
        obtain ⟨db', hforward, rfl⟩ := Option.map_eq_some_iff.mp hstep
        obtain ⟨rfl, -, -⟩ := Database.save_eq_some hforward
        refine ⟨hread, ?_⟩
        intro f hf
        rcases List.mem_append.mp hf with hold | hnew
        · exact htarget f hold f (.refl f)
        · -- the new forward has the URL that its capture has read
          obtain rfl := List.mem_singleton.mp hnew
          obtain ⟨s', hpassed, hmem⟩ := hread c endpoint hc
          exact ⟨s', hpassed, endpoint, hmem, rfl, (Option.filter_eq_some_iff.mp hurl).1, trivial⟩
  | updateEndpoints v hv =>
    obtain rfl := Option.some.inj hstep
    exact ⟨hread, fun f hf => htarget f hf f (.refl f)⟩
  | updateForwards v hv =>
    obtain rfl := Option.some.inj hstep
    refine ⟨hread, ?_⟩
    intro f' hf'
    obtain ⟨f, hf, rfl⟩ := List.mem_map.mp hf'
    exact htarget f hf _ (hv.sameOrigin_onRow f)
  | attempt env clock forwardId =>
    obtain rfl := Option.some.inj hstep
    refine ⟨hread, ?_⟩
    intro f' hf'
    obtain ⟨f, hf, rfl⟩ := List.mem_map.mp hf'
    exact htarget f hf _ (claimedRow_origin _ _ _ f)

theorem recorded_start (endpoints : List Endpoint) : Recorded [] (start endpoints) where
  read c e h := by simp [start] at h
  target f hf := by simp [start] at hf

/-- Without a secret the signature header is what the other sources make of it. -/
theorem get?_unsigned (state : ClaimedState) :
    (unsignedHeaders state).get? "X-Hooktrace-Signature" =
      (customized state.endpoint state.captured).get? "X-Hooktrace-Signature" := by
  rw [HeaderAuthority.unsignedHeaders_eq, PyDict.get?_set, if_neg (by decide), PyDict.get?_set,
    if_neg (by decide)]
  rfl

/-- With one it is made of the decrypted secret. -/
theorem decrypted_of_outbound {env : Collaborators} {clock : Clock} {state : ClaimedState}
    {headers : Headers} {blob : Bytes} (h : outboundHeaders env clock state = .ok headers)
    (hblob : state.endpoint.forwardSecretEncrypted = some blob) (hne : blob ≠ []) :
    ∃ secret, decryptSecret env env.secretsKey blob = .ok secret := by
  unfold outboundHeaders at h
  split at h
  · simp_all
  · simp_all
  · rename_i blob' _ hsome
    obtain rfl := Option.some.inj (hsome.symm.trans hblob)
    cases hsecret : decryptSecret env env.secretsKey blob' with
    | error interrupt => simp [hsecret, bind, Except.bind] at h
    | ok secret => exact ⟨secret, rfl⟩

/-- What is sent is what the endpoint that was loaded makes of the request. -/
theorem carries_sendCall {env : Collaborators} {clock : Clock} {state : ClaimedState}
    {call : SendCall} (h : sendCall env clock state = some call)
    (hbody : loadBody env state.captured = .ok state.body) :
    Carries env clock state.forward.targetUrl state.captured call state.endpoint := by
  unfold sendCall at h
  split at h
  · rename_i headers validated hheaders hvalid
    obtain rfl := Option.some.inj h
    refine ⟨hvalid, rfl, hbody, fun name hname => HeaderAuthority.get?_outbound hheaders hname,
      ?_, ?_⟩
    · intro hplain
      have hunsigned : headers = unsignedHeaders state := by
        rcases hplain with hplain | hplain <;>
          simpa [outboundHeaders, hplain] using hheaders.symm
      rw [hunsigned]
      exact get?_unsigned state
    · intro blob hblob hne
      obtain ⟨secret, hsecret⟩ := decrypted_of_outbound hheaders hblob hne
      exact ⟨secret, hsecret, signature_sent hheaders hblob hne hsecret⟩
  · cases h

/-- What is sent depends on the endpoint through its headers and its secret alone. -/
theorem Makes.congr {env : Collaborators} {clock : Clock} {row : Forward} {call : SendCall}
    {e e' : Endpoint} (h : Makes s env clock row call e)
    (hheaders : e'.forwardHeaders = e.forwardHeaders)
    (hsecret : e'.forwardSecretEncrypted = e.forwardSecretEncrypted) :
    Makes s env clock row call e' := by
  obtain ⟨captured, hmem, hid, hcarries⟩ := h
  have hcustomized : customized e' captured = customized e captured := by
    unfold customized
    rw [hheaders]
  exact ⟨captured, hmem, hid, hcarries.target, hcarries.method, hcarries.body,
    hcustomized ▸ hcarries.headers, hsecret ▸ hcustomized ▸ hcarries.unsigned,
    hsecret ▸ hcarries.signed⟩

theorem delivered_eq_some {env : Collaborators} {clock : Clock} {forwardId : UUID}
    {row : Forward} {call : SendCall}
    (h : delivered s env clock forwardId = some (row, call)) :
    row ∈ s.db.forwards ∧ ∃ e ∈ s.db.endpoints, e.id = row.endpointId ∧
      Makes s env clock row call e := by
  unfold delivered at h
  obtain ⟨row', hrow, h⟩ := Option.bind_eq_some_iff.mp h
  obtain ⟨call', hsent, h⟩ := Option.bind_eq_some_iff.mp h
  obtain ⟨rfl, rfl⟩ := Prod.mk.inj (Option.some.inj h)
  obtain ⟨state, hstate, hendpoint, hcaptured, hbody, -, -⟩ := sent_eq_some hsent
  obtain ⟨hmem, hid⟩ := mem_of_find hendpoint
  obtain ⟨hrequest, hrequestId⟩ := mem_of_find hcaptured
  have hcall : sendCall (onTables env s.db) clock state = some call' := by
    simpa [sent, hstate] using hsent
  have hurl : state.forward.targetUrl = row'.targetUrl := by
    unfold claimedFor at hstate
    split at hstate
    · rename_i hclaim
      exact ((claimPhase_origin hclaim).2 state hstate).1.target_eq
    · cases hstate
  obtain ⟨htarget, hmethod, hsentBody, hheaders, hunsigned, hsigned⟩ := carries_sendCall hcall hbody
  exact ⟨(mem_of_find hrow).1, state.endpoint, hmem, hid, state.captured, hrequest, hrequestId,
    hurl ▸ htarget, hmethod, hsentBody, hheaders, hunsigned, hsigned⟩

/-- In every run what is sent goes to the URL that its capture found on the endpoint, with the
headers and the signature of the endpoint as it is when the attempt is claimed. -/
theorem endpointConfiguration (endpoints : List Endpoint) (ms : History State Action) (t : State)
    (h : Run (Steps step) (start endpoints) ms t) : Always EndpointConfiguration ms := by
  refine (h.always (J := Recorded) (recorded_start endpoints) ?_).1
  intro past s a u hrecorded hstep
  refine ⟨?_, hrecorded.step hstep⟩
  intro env clock forwardId row call _ hdelivered
  obtain ⟨hrow, e, hmem, hid, hmakes⟩ := delivered_eq_some hdelivered
  refine ⟨hrecorded.target row hrow, e, hmem, hid, hmakes, ?_⟩
  rintro ⟨s', hpassed, e', hmem', hid', hurl, hheaders, hsecret⟩
  exact ⟨s', hpassed, e', hmem', hid', hurl, hmakes.congr hheaders hsecret⟩

end Runs

def acceptingTarget : Collaborators where
  findEndpoint _ := none
  findRequest _ := none
  blobGet _ := .returns none
  aesGcmDecrypt _ _ _ := none
  hmacSha256Hex _ _ := ""
  validate url := .returns ⟨url, "api.example.com", 443, "198.51.100.4"⟩
  send _ _ _ _ := .returns ⟨200, .empty, []⟩
  secretsKey := []

def attemptClock : Clock :=
  ⟨seconds 2000, seconds 2000, 2000, seconds 2001, seconds 2001, seconds 2001⟩

def movePatch : UpdateEndpointConfig.Patch where
  signatureProvider := none
  signatureSecret := none
  forwardUrl := some "https://new.example.com/wh"
  forwardHeaders := some (PyDict.empty.set "Authorization" "Bearer new")
  forwardSecret := none

def movedEndpoint : Endpoint := { sampleEndpoint with
  forwardUrl := movePatch.forwardUrl
  forwardHeaders := movePatch.forwardHeaders }

theorem patched_move (env : UpdateEndpointConfig.Encryption) :
    UpdateEndpointConfig.patched env movePatch sampleEndpoint = .ok movedEndpoint := rfl

def moves : List Action :=
  [.findEndpoint 0 "tok", .capture 0 sampleRequest sampleForwardId (seconds 1000),
    .updateEndpoints (EndpointRepository.update movedEndpoint) (.config movedEndpoint),
    .attempt acceptingTarget attemptClock sampleForwardId]

theorem moved_delivery : ∃ ms t, Run (Steps step) (start [sampleEndpoint]) ms t ∧
    Always EndpointConfiguration ms := by
  have hrun := Run.of_play (Eq.refl (play step [] (start [sampleEndpoint]) moves))
  exact ⟨_, _, hrun, endpointConfiguration [sampleEndpoint] _ _ hrun⟩

/-- The old target gets the credentials of the new one. -/
theorem moved_credentials_sent : ¬ ∀ endpoints ms t, Run (Steps step) (start endpoints) ms t →
    Always OwnConfiguration ms := by
  intro hclaim
  have hrun := Run.of_play (Eq.refl (play step [] (start [sampleEndpoint]) moves))
  have hown := (hclaim [sampleEndpoint] _ _ hrun).1
  obtain ⟨s, hpassed, e, he, -, hurl, captured, hcaptured, -, hcarries⟩ := hown acceptingTarget
    attemptClock sampleForwardId _ _ rfl rfl
  obtain rfl := List.mem_singleton.mp hcaptured
  rcases hpassed with rfl | ⟨m, hm, rfl⟩
  · obtain rfl := List.mem_singleton.mp he
    exact absurd hurl (by decide)
  · -- before the PATCH the endpoint had no custom headers
    have hbefore : m.pre.db.endpoints = [sampleEndpoint] := by
      simp only [List.mem_cons, List.not_mem_nil, or_false] at hm
      rcases hm with rfl | rfl | rfl <;> rfl
    rw [hbefore] at he
    obtain rfl := List.mem_singleton.mp he
    exact absurd (hcarries.headers "Authorization" (by decide)) (by decide)

end Hooktrace.ConfigScope
