import Hooktrace.Database
import Hooktrace.Transition

/-!
The daily cleanup is one DELETE on the endpoints; what becomes of their requests, forwards
and replays is left to the foreign keys. The requests hold their endpoint: one expired
endpoint that ever captured a request makes the statement fail, and no endpoint is deleted
at all. The states are those that the application reaches by its own statements.
-/
namespace Hooktrace.ExpiryCleanup

open Table ForeignKeys Database Transition

inductive Action where
  | createEndpoint (e : Endpoint)
  | capture (r : CapturedRequest)
  /-- A capture with its forward, to the URL the endpoint had. -/
  | captureAndForward (r : CapturedRequest) (forwardId : UUID) (url : String) (now : Datetime)
  | saveReplay (p : Replay)
  | updateEndpoints (u : Update Endpoint) (h : EndpointRepository.Writer u)
  | updateForwards (u : Update Forward) (h : ForwardRepository.Writer u)
  | cleanup (now : Datetime)

/-- `run_cleanup`: `delete_expired` is the whole transaction, and an error of it leaves the
job by an exception. -/
def runCleanup (now : Datetime) (db : Database) : Option (Database × ℕ) :=
  db.deleteEndpoints (EndpointRepository.expired now)

/-- `none` where a constraint rejects the statement. -/
def step (db : Database) : Action → Option Database
  | .createEndpoint e => db.saveEndpoint e
  | .capture r => (db.saveRequest r).map
      (updateEndpoints (EndpointRepository.incrementRequestCount r.endpointId))
  | .captureAndForward r forwardId url now => (db.saveRequest r).bind fun db' =>
      (db'.saveForward (Forward.create forwardId r.id r.endpointId url now)).map
        (updateEndpoints (EndpointRepository.incrementRequestCount r.endpointId))
  | .saveReplay p => db.saveReplay p
  | .updateEndpoints u _ => some (db.updateEndpoints u)
  | .updateForwards u _ => some (db.updateForwards u)
  | .cleanup now => (runCleanup now db).map Prod.fst

def Reachable (db : Database) : Prop := ∃ ms, Run (Steps step) Database.empty ms db

/-- The constraints hold, and a forward belongs to the endpoint of its request. -/
structure Consistent (db : Database) : Prop where
  sound : Sound schema db.rows
  forward_owner : ∀ f ∈ db.forwards, ∀ r ∈ db.requests, r.id = f.requestId →
    r.endpointId = f.endpointId

def ownedBy (db : Database) (endpointId : UUID) : Row → Bool
  | .endpoint e => e.id = endpointId
  | .request r => r.endpointId = endpointId
  | .forward f => f.endpointId = endpointId
  | .replay p => db.requests.any fun r => r.id = p.requestId ∧ r.endpointId = endpointId

def ofExpired (now : Datetime) (db : Database) (row : Row) : Bool :=
  db.endpoints.any fun e => EndpointRepository.expired now e && ownedBy db e.id row

/-- The cleanup succeeds, takes the expired endpoints with all that belongs to them, leaves
every other row, and returns the number of endpoints. -/
def CleanupExact (now : Datetime) (db : Database) : Prop :=
  runCleanup now db = some (db.restrict fun row => !ofExpired now db row,
    (db.endpoints.filter (EndpointRepository.expired now)).length)

def NoneCaptured (now : Datetime) (db : Database) : Prop :=
  ∀ e ∈ db.endpoints, EndpointRepository.expired now e = true →
    ∀ r ∈ db.requests, r.endpointId ≠ e.id

theorem mem_requests_of_key {db : Database} {id : UUID}
    (h : (TableName.requests, id) ∈ db.rows.map schema.key) : ∃ r ∈ db.requests, r.id = id := by
  obtain ⟨row, hrow, hkey⟩ := List.mem_map.mp h
  cases row with
  | request r => exact ⟨r, request_mem_rows.mp hrow, (Prod.mk.inj hkey).2⟩
  | endpoint e => simp [schema, Row.key] at hkey
  | forward f => simp [schema, Row.key] at hkey
  | replay p => simp [schema, Row.key] at hkey

namespace Consistent

variable {db db' : Database} (h : Consistent db)
include h

theorem request_eq {r r' : CapturedRequest} (hr : r ∈ db.requests) (hr' : r' ∈ db.requests)
    (hid : r.id = r'.id) : r = r' := by
  have hrow := h.sound.unique.eq (request_mem_rows.mpr hr) (request_mem_rows.mpr hr')
    (by simp [schema, Row.key, hid])
  simpa using hrow

theorem endpoint_eq {e e' : Endpoint} (he : e ∈ db.endpoints) (he' : e' ∈ db.endpoints)
    (hid : e.id = e'.id) : e = e' := by
  have hrow := h.sound.unique.eq (endpoint_mem_rows.mpr he) (endpoint_mem_rows.mpr he')
    (by simp [schema, Row.key, hid])
  simpa using hrow

theorem exists_request {f : Forward} (hf : f ∈ db.forwards) :
    ∃ r ∈ db.requests, r.id = f.requestId :=
  mem_requests_of_key (h.sound.referential _ (forward_mem_rows.mpr hf)
    ⟨(.requests, f.requestId), .cascade⟩ List.mem_cons_self)

theorem saveRequest {r : CapturedRequest} (hsave : db.saveRequest r = some db') :
    Consistent db' := by
  obtain ⟨rfl, hfresh, -⟩ := save_eq_some hsave
  refine ⟨sound_save h.sound hsave, ?_⟩
  intro f hf r' hr' hid
  rcases List.mem_append.mp hr' with hold | hnew
  · exact h.forward_owner f hf r' hold hid
  · -- a forward that refers to the new request would have referred to nothing
    obtain rfl := List.mem_singleton.mp hnew
    obtain ⟨r₀, hr₀, hid₀⟩ := h.exists_request hf
    exact absurd (List.mem_map.mpr ⟨.request r₀, request_mem_rows.mpr hr₀, by
      simp [schema, Row.key, hid₀, hid]⟩) hfresh

theorem saveForward {f : Forward} (hsave : db.saveForward f = some db')
    (howner : ∀ r ∈ db.requests, r.id = f.requestId → r.endpointId = f.endpointId) :
    Consistent db' := by
  obtain ⟨rfl, -, -⟩ := save_eq_some hsave
  refine ⟨sound_save h.sound hsave, ?_⟩
  intro f' hf' r hr hid
  rcases List.mem_append.mp hf' with hold | hnew
  · exact h.forward_owner f' hold r hr hid
  · obtain rfl := List.mem_singleton.mp hnew
    exact howner r hr hid

theorem updateForwards {u : Update Forward} (hu : ForwardRepository.Writer u) :
    Consistent (db.updateForwards u) := by
  refine ⟨sound_updateForwards h.sound hu, ?_⟩
  intro f hf r hr hid
  obtain ⟨f₀, hf₀, rfl⟩ := List.mem_map.mp hf
  have horigin := hu.sameOrigin_onRow f₀
  rw [horigin.endpoint_eq]
  exact h.forward_owner f₀ hf₀ r hr (hid.trans horigin.request_eq)

theorem updateEndpoints {u : Update Endpoint} (hu : EndpointRepository.Writer u) :
    Consistent (db.updateEndpoints u) :=
  ⟨sound_updateEndpoints h.sound hu, h.forward_owner⟩

theorem deleteEndpoints {p : Endpoint → Bool} {n : ℕ}
    (hdelete : db.deleteEndpoints p = some (db', n)) : Consistent db' := by
  refine ⟨sound_deleteEndpoints h.sound hdelete, ?_⟩
  unfold Database.deleteEndpoints at hdelete
  split at hdelete
  · simp at hdelete
  · obtain ⟨rfl, -⟩ := Prod.mk.inj (Option.some.inj hdelete)
    intro f hf r hr hid
    exact h.forward_owner f (List.mem_filter.mp hf).1 r (List.mem_filter.mp hr).1 hid

theorem step {a : Action} (hstep : step db a = some db') : Consistent db' := by
  cases a with
  | createEndpoint e =>
    have hsave := saveEndpoint_eq_some hstep
    obtain ⟨rfl, -, -⟩ := save_eq_some hsave
    exact ⟨sound_save h.sound hsave, h.forward_owner⟩
  | capture r =>
    obtain ⟨db₁, hsave, rfl⟩ := Option.map_eq_some_iff.mp hstep
    exact (h.saveRequest hsave).updateEndpoints (.count r.endpointId)
  | captureAndForward r forwardId url now =>
    obtain ⟨db₁, hsave, hstep⟩ := Option.bind_eq_some_iff.mp hstep
    obtain ⟨db₂, hforward, rfl⟩ := Option.map_eq_some_iff.mp hstep
    have hrequest := h.saveRequest hsave
    refine (hrequest.saveForward hforward ?_).updateEndpoints (.count r.endpointId)
    intro r' hr' hid
    have hmem : r ∈ db₁.requests := by
      obtain ⟨rfl, -, -⟩ := save_eq_some hsave
      exact List.mem_append_right _ (List.mem_singleton.mpr rfl)
    rw [hrequest.request_eq hr' hmem hid]
    rfl
  | saveReplay p =>
    obtain ⟨rfl, -, -⟩ := save_eq_some hstep
    exact ⟨sound_save h.sound hstep, h.forward_owner⟩
  | updateEndpoints u hu => exact Option.some.inj hstep ▸ h.updateEndpoints hu
  | updateForwards u hu => exact Option.some.inj hstep ▸ h.updateForwards hu
  | cleanup now =>
    obtain ⟨left, hdelete, rfl⟩ := Option.map_eq_some_iff.mp hstep
    exact h.deleteEndpoints hdelete

end Consistent

theorem Reachable.consistent {db : Database} (h : Reachable db) : Consistent db := by
  obtain ⟨ms, hrun⟩ := h
  refine hrun.invariant ⟨⟨by simp [UniqueKeys, rows, Database.empty], ?_⟩, ?_⟩
    fun _ _ _ hs hstep => hs.step hstep
  · intro row hrow
    simp [rows, Database.empty] at hrow
  · intro f hf
    simp [Database.empty] at hf

/-- A request is never deleted with its endpoint. -/
theorem not_doomed_request {t : List Row} {p : Endpoint → Bool} {r : CapturedRequest} :
    ¬ Doomed schema t (hitsEndpoint p) (.request r) := by
  intro h
  cases h with
  | hit hhit => simp [hitsEndpoint] at hhit
  | cascade hf hcascade _ _ _ =>
    simp only [schema, Row.references, List.mem_singleton] at hf
    subst hf
    simp at hcascade

theorem doomed_endpoint_iff {t : List Row} {p : Endpoint → Bool} {e : Endpoint} :
    Doomed schema t (hitsEndpoint p) (.endpoint e) ↔ p e = true := by
  constructor
  · intro h
    cases h with
    | hit hhit => exact hhit
    | cascade hf _ _ _ _ => simp [schema, Row.references] at hf
  · exact fun hp => .hit hp

/-- A row that is deleted by a cascade refers to a deleted endpoint: nothing cascades from
a request, which is never deleted. -/
theorem endpoint_of_reference {db : Database} {p : Endpoint → Bool} {parent : Row}
    {k : TableName × UUID} (hparent : parent ∈ db.rows) (hkey : schema.key parent = k)
    (hdoomed : Doomed schema db.rows (hitsEndpoint p) parent) (hk : k.1.rank ≤ 1) :
    ∃ e ∈ db.endpoints, p e = true ∧ k = (.endpoints, e.id) := by
  subst hkey
  cases parent with
  | endpoint e => exact ⟨e, endpoint_mem_rows.mp hparent, doomed_endpoint_iff.mp hdoomed, rfl⟩
  | request r => exact absurd hdoomed not_doomed_request
  | forward f => simp [schema, Row.key, TableName.rank] at hk
  | replay p => simp [schema, Row.key, TableName.rank] at hk

section Exact

variable {now : Datetime} {db : Database}

/-- One request of an expired endpoint, and nothing is deleted. -/
theorem runCleanup_eq_none {e : Endpoint} {r : CapturedRequest} (he : e ∈ db.endpoints)
    (hexpired : EndpointRepository.expired now e = true) (hr : r ∈ db.requests)
    (howner : r.endpointId = e.id) : runCleanup now db = none := by
  have hviolation : ForeignKeys.delete schema (hitsEndpoint (EndpointRepository.expired now))
      db.rows = none := by
    refine delete_eq_none_iff.mpr ⟨.request r, request_mem_rows.mpr hr, not_doomed_request,
      ⟨(.endpoints, r.endpointId), .noAction⟩, List.mem_singleton.mpr rfl, .endpoint e,
      endpoint_mem_rows.mpr he, ?_, doomed_endpoint_iff.mpr hexpired⟩
    simp [schema, Row.key, howner]
  rw [← rows_deleteEndpoints] at hviolation
  simpa [runCleanup] using hviolation

/-- Where no expired endpoint has captured anything, the expired endpoints are alone. -/
theorem ofExpired_iff (h : Consistent db) (hnone : NoneCaptured now db) {row : Row}
    (hrow : row ∈ db.rows) : ofExpired now db row = true ↔
      Doomed schema db.rows (hitsEndpoint (EndpointRepository.expired now)) row := by
  simp only [ofExpired, List.any_eq_true, Bool.and_eq_true]
  cases row with
  | endpoint e =>
    rw [doomed_endpoint_iff]
    constructor
    · intro hof
      obtain ⟨e', he', hexpired, howned⟩ := hof
      have heq := h.endpoint_eq (endpoint_mem_rows.mp hrow) he' (by simpa [ownedBy] using howned)
      rwa [heq]
    · intro hexpired
      exact ⟨e, endpoint_mem_rows.mp hrow, hexpired, by simp [ownedBy]⟩
  | request r =>
    constructor
    · intro hof
      obtain ⟨e, he, hexpired, howned⟩ := hof
      exact absurd (by simpa [ownedBy] using howned)
        (hnone e he hexpired r (request_mem_rows.mp hrow))
    · exact fun hdoomed => absurd hdoomed not_doomed_request
  | forward f =>
    -- its endpoint is the endpoint of a request
    have hfree : ∀ e ∈ db.endpoints, EndpointRepository.expired now e = true →
        f.endpointId ≠ e.id := by
      intro e he hexpired
      obtain ⟨r, hr, hid⟩ := h.exists_request (forward_mem_rows.mp hrow)
      rw [← h.forward_owner f (forward_mem_rows.mp hrow) r hr hid]
      exact hnone e he hexpired r hr
    constructor
    · intro hof
      obtain ⟨e, he, hexpired, howned⟩ := hof
      exact absurd (by simpa [ownedBy] using howned) (hfree e he hexpired)
    · intro hdoomed
      cases hdoomed with
      | hit hhit => simp [hitsEndpoint] at hhit
      | @cascade _ parent ref hf _ hparent hkey hdoomed =>
        simp only [schema, Row.references, List.mem_cons, List.not_mem_nil, or_false] at hf
        obtain ⟨e, he, hexpired, hk⟩ := endpoint_of_reference hparent hkey hdoomed
          (by rcases hf with rfl | rfl <;> simp [TableName.rank])
        rcases hf with rfl | rfl
        · simp at hk
        · exact absurd (Prod.mk.inj hk).2 (hfree e he hexpired)
  | replay p =>
    constructor
    · intro hof
      obtain ⟨e, he, hexpired, howned⟩ := hof
      simp only [ownedBy, List.any_eq_true, decide_eq_true_eq] at howned
      obtain ⟨r, hr, -, howner⟩ := howned
      exact absurd howner (hnone e he hexpired r hr)
    · intro hdoomed
      cases hdoomed with
      | hit hhit => simp [hitsEndpoint] at hhit
      | cascade hf _ hparent hkey hdoomed =>
        simp only [schema, Row.references, List.mem_singleton] at hf
        subst hf
        obtain ⟨e, -, -, hk⟩ := endpoint_of_reference hparent hkey hdoomed (le_refl 1)
        simp at hk

theorem not_blocked (hnone : NoneCaptured now db) :
    blocked schema db.rows (hitsEndpoint (EndpointRepository.expired now)) = false := by
  by_contra hblocked
  obtain ⟨row, hrow, hstays, f, hf, parent, hparent, hkey, hdoomed⟩ :=
    blocked_iff.mp (by simpa using hblocked)
  cases row with
  | endpoint e => simp [schema, Row.references] at hf
  | request r =>
    simp only [schema, Row.references, List.mem_singleton] at hf
    subst hf
    obtain ⟨e, he, hexpired, hk⟩ := endpoint_of_reference hparent hkey hdoomed (Nat.zero_le 1)
    exact hnone e he hexpired r (request_mem_rows.mp hrow) (Prod.mk.inj hk).2
  | forward f' =>
    -- both references cascade
    refine hstays (.cascade hf ?_ hparent hkey hdoomed)
    simp only [schema, Row.references, List.mem_cons, List.not_mem_nil, or_false] at hf
    rcases hf with rfl | rfl <;> rfl
  | replay p =>
    refine hstays (.cascade hf ?_ hparent hkey hdoomed)
    simp only [schema, Row.references, List.mem_singleton] at hf
    rw [hf]

/-- In every state that the application reaches, the cleanup is exact if and only if no
expired endpoint ever captured a request. -/
theorem cleanup_exact_iff (now : Datetime) (db : Database) (h : Reachable db) :
    CleanupExact now db ↔ NoneCaptured now db := by
  constructor
  · intro hexact e he hexpired r hr howner
    rw [CleanupExact, runCleanup_eq_none he hexpired hr howner] at hexact
    simp at hexact
  · intro hnone
    have hstays : ∀ row ∈ db.rows,
        (!doomed schema db.rows (hitsEndpoint (EndpointRepository.expired now)) row) =
          !ofExpired now db row := by
      intro row hrow
      rw [Bool.not_eq_eq_eq_not, Bool.not_not, Bool.eq_iff_iff, doomed_iff]
      exact (ofExpired_iff h.consistent hnone hrow).symm
    have hunblocked := not_blocked hnone
    rw [CleanupExact, runCleanup, Database.deleteEndpoints, if_neg (by simp [hunblocked]),
      restrict_congr hstays]

end Exact

def uncaptured : Database := ⟨[sampleEndpoint], [], [], []⟩

theorem reachable_uncaptured : Reachable uncaptured :=
  ⟨_, Run.single (show step Database.empty (.createEndpoint sampleEndpoint) = some uncaptured
    from rfl)⟩

def liveEndpoint : Endpoint := { sampleEndpoint with
  id := ⟨"5d2f8a10-93b4-4e6c-a7d8-1f0e2c3b4a59", by decide +kernel⟩
  token := "live"
  expiresAt := seconds 900000 }

def liveRequest : CapturedRequest := { sampleRequest with endpointId := liveEndpoint.id }

def liveReplay : Replay where
  id := ⟨"c41e7b62-0d95-4f38-b6a3-8e2d5f7c9014", by decide +kernel⟩
  requestId := liveRequest.id
  targetUrl := "https://api.example.com/webhook"
  statusCode := some 200
  responseBodyPreview := some "ok"
  responseHeaders := none
  error := none
  durationMs := 12
  attemptedAt := seconds 2000

def liveForward : Forward :=
  .create sampleForwardId liveRequest.id liveEndpoint.id "https://api.example.com/webhook"
    (seconds 1000)

def live : Database :=
  ⟨[{ liveEndpoint with requestCount := 3 }], [liveRequest], [liveForward], [liveReplay]⟩

def besideLive : Database := { live with endpoints := sampleEndpoint :: live.endpoints }

theorem reachable_besideLive : Reachable besideLive := by
  have hrun := Run.of_play (Eq.refl (play step [] Database.empty [.createEndpoint sampleEndpoint,
    .createEndpoint liveEndpoint,
    .captureAndForward liveRequest sampleForwardId "https://api.example.com/webhook" (seconds 1000),
    .saveReplay liveReplay]))
  exact ⟨_, hrun⟩

/-- The expired endpoint goes, and all four rows of the live one stay. -/
theorem cleanup_exact_uncaptured : CleanupExact (seconds 700000) besideLive ∧
    runCleanup (seconds 700000) besideLive = some (live, 1) := by
  have hexact := (cleanup_exact_iff (seconds 700000) besideLive reachable_besideLive).mpr ?_
  · refine ⟨hexact, ?_⟩
    rw [hexact]
    rfl
  · intro e he hexpired r hr howner
    obtain rfl : r = liveRequest := List.mem_singleton.mp hr
    rcases List.mem_cons.mp he with rfl | hlive
    · exact absurd howner (by decide)
    · obtain rfl := List.mem_singleton.mp hlive
      exact absurd hexpired (by decide)

def captured : Database := ⟨[{ sampleEndpoint with requestCount := 3 }], [sampleRequest], [], []⟩

/-- One captured request keeps its expired endpoint, and fails the cleanup. -/
theorem cleanup_fails : ¬ ∀ now db, Reachable db → CleanupExact now db := by
  intro hclaim
  obtain ⟨ms, hcreated⟩ := reachable_uncaptured
  have hcaptured := hcreated.move
    (show step uncaptured (.capture sampleRequest) = some captured from rfl)
  have hnone : runCleanup (seconds 700000) captured = none :=
    runCleanup_eq_none List.mem_cons_self (by decide) List.mem_cons_self rfl
  have hexact := hclaim (seconds 700000) captured ⟨_, hcaptured⟩
  rw [CleanupExact, hnone] at hexact
  simp at hexact

end Hooktrace.ExpiryCleanup
