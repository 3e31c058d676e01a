import Hooktrace.ExpiryCleanup
import Hooktrace.Routes

/-!
What a token can reach. Each of the five routes finds the endpoint by the token and carries
its id into every statement: into the WHERE clause of the updates and of the selections, or,
for a replay, into the comparison with the endpoint of the request. What another endpoint
owns is left alone, and an id that another endpoint owns is refused like one that no row has.
-/
namespace Hooktrace.TokenScope

open Table ForeignKeys Database ForwardQueue Routes
open ForwardRepository hiding Outcome
open ExpiryCleanup (ownedBy)

/-- No row of another endpoint is changed, added or removed, as far as the tables tell that
the token was looked up in. -/
def Untouched (db : Database) (endpointId : UUID) (before after : Database) : Prop :=
  after.rows.filter (fun row => !ownedBy db endpointId row) =
    before.rows.filter fun row => !ownedBy db endpointId row

/-- A new job is for a forward of the endpoint. -/
def EnqueuesOwn (db : Database) (endpointId : UUID) (before after : ArqQueue) : Prop :=
  ∀ job ∈ after.queued, job ∈ before.queued ∨
    ∃ f ∈ db.forwards, f.endpointId = endpointId ∧ job.forwardIdStr = f.id.str

theorem Untouched.refl (db : Database) (endpointId : UUID) (before : Database) :
    Untouched db endpointId before before := rfl

theorem EnqueuesOwn.refl (db : Database) (endpointId : UUID) (queue : ArqQueue) :
    EnqueuesOwn db endpointId queue queue := fun _ hjob => Or.inl hjob

theorem EnqueuesOwn.trans {db : Database} {endpointId : UUID} {q q' q'' : ArqQueue}
    (h : EnqueuesOwn db endpointId q q') (h' : EnqueuesOwn db endpointId q' q'') :
    EnqueuesOwn db endpointId q q'' := by
  intro job hjob
  rcases h' job hjob with hold | hown
  · exact h job hold
  · exact Or.inr hown

theorem enqueuesOwn_enqueue {db : Database} {f : Forward} (hf : f ∈ db.forwards) (q : ArqQueue)
    (d : ℕ) (now : Datetime) : EnqueuesOwn db f.endpointId q (enqueue q f.id d now) := by
  intro job hjob
  rcases mem_enqueue_queued hjob with hold | rfl
  · exact Or.inl hold
  · exact Or.inr ⟨f, hf, rfl, rfl⟩

/-- A statement under the endpoint's id leaves the forwards of the others. -/
theorem untouched_updateForwards {db : Database} {endpointId : UUID} {u : Update Forward}
    (hwriter : Writer u) (hscope : ∀ f, u.holds f = true → f.endpointId = endpointId)
    (before : Database) : Untouched db endpointId before (before.updateForwards u) := by
  refine filter_updateForwards (fun f hholds => ?_) before
  have hown := hscope f hholds
  have hkept := (hwriter.sameOrigin f).endpoint_eq
  simp [ownedBy, hown, hkept]

theorem untouched_updateEndpoints {db : Database} {endpointId : UUID} {u : Update Endpoint}
    (hwriter : EndpointRepository.Writer u) (hscope : ∀ e, u.holds e = true → e.id = endpointId)
    (before : Database) : Untouched db endpointId before (before.updateEndpoints u) := by
  refine filter_updateEndpoints (fun e hholds => ?_) before
  have hown := hscope e hholds
  have hkept := (hwriter.sameIdentity e).id_eq
  simp [ownedBy, hown, hkept]

def Foreign (db : Database) (endpointId : UUID) : Call → Prop
  | .retryForward forwardId => ∀ f ∈ db.forwards, f.id = forwardId → f.endpointId ≠ endpointId
  | .abandonForward forwardId => ∀ f ∈ db.forwards, f.id = forwardId → f.endpointId ≠ endpointId
  | .replayRequest args => ∀ r ∈ db.requests, r.id = args.requestId → r.endpointId ≠ endpointId
  | .redriveForwards => False
  | .updateConfig _ => False

def refusal : Call → Reply
  | .retryForward _ => .httpException 404 "forward not retryable"
  | .abandonForward _ => .httpException 404 "forward not found"
  | .replayRequest _ => .httpException 404 "request not found"
  | .redriveForwards => .returned
  | .updateConfig _ => .returned

/-- What one request with the token may do. -/
structure Scoped (db later : Database) (queue : ArqQueue) (endpointId : UUID) (c : Call)
    (out : Outcome) : Prop where
  untouched : Untouched db endpointId (c.meets db later) out.db
  jobs : ∀ f ∈ db.forwards, f.endpointId ≠ endpointId →
    ∀ job ∈ out.queue.queued, job.forwardIdStr = f.id.str → job ∈ queue.queued
  refused : Foreign db endpointId c → out = ⟨c.meets db later, queue, [], refusal c⟩

section Handlers

variable {env : Environment} {token : String} {db later : Database} {queue : ArqQueue}
variable {endpoint : Endpoint}

/-- Ids are unique, so that the forward of a job belongs to one endpoint. -/
theorem EnqueuesOwn.not_foreign (hsound : Sound schema db.rows) {q q' : ArqQueue}
    {endpointId : UUID} (h : EnqueuesOwn db endpointId q q') {f : Forward} (hf : f ∈ db.forwards)
    (hother : f.endpointId ≠ endpointId) {job : Job} (hjob : job ∈ q'.queued)
    (hid : job.forwardIdStr = f.id.str) : job ∈ q.queued := by
  rcases h job hjob with hold | ⟨f', hf', hown, hid'⟩
  · exact hold
  · have hsame : f.id = f'.id := UUID.str_injective (hid.symm.trans hid')
    have hrow := hsound.unique.eq (forward_mem_rows.mpr hf) (forward_mem_rows.mpr hf')
      (by simp [schema, Row.key, hsame])
    obtain rfl := Row.forward.inj hrow
    exact absurd hown hother

/-- The two actions on one forward, under any statement that is scoped. -/
theorem onForward_scoped {statement : UUID → Update Forward} {failure : OwnerActions.Failure}
    {db' : Database} {row : Forward}
    (hendpoint : EndpointRepository.findByToken token db.endpoints = some endpoint)
    (hwriter : Writer (statement endpoint.id))
    (hscope : ∀ f, (statement endpoint.id).holds f = true → f.endpointId = endpoint.id)
    (h : OwnerActions.onForward token statement failure db = .ok (db', row)) :
    Untouched db endpoint.id db db' ∧
      ∃ f ∈ db.forwards, f.endpointId = endpoint.id ∧ row.id = f.id := by
  obtain ⟨rfl, f, hf, hholds, rfl⟩ := OwnerActions.onForward_ok hendpoint h
  exact ⟨untouched_updateForwards hwriter hscope db, f, hf, hscope f hholds,
    (hwriter.sameOrigin f).id_eq⟩

theorem retryForwardRoute_scoped
    (hendpoint : EndpointRepository.findByToken token db.endpoints = some endpoint)
    (forwardId : UUID) :
    Untouched db endpoint.id db (retryForwardRoute env token forwardId db queue).db ∧
      EnqueuesOwn db endpoint.id queue (retryForwardRoute env token forwardId db queue).queue := by
  unfold retryForwardRoute
  split
  · rename_i db' row hretry
    obtain ⟨huntouched, f, hf, hown, hid⟩ := onForward_scoped hendpoint (.manualRetry _ _ _)
      (fun f hholds => (claimForManualRetry_holds.mp hholds).2.1) hretry
    refine ⟨huntouched, ?_⟩
    unfold safeEnqueue
    split
    · exact .refl _ _ _
    · rw [hid, ← hown]
      exact enqueuesOwn_enqueue hf _ _ _
  · exact ⟨.refl _ _ _, .refl _ _ _⟩

theorem abandonForwardRoute_scoped
    (hendpoint : EndpointRepository.findByToken token db.endpoints = some endpoint)
    (forwardId : UUID) :
    Untouched db endpoint.id db (abandonForwardRoute env token forwardId db queue).db ∧
      EnqueuesOwn db endpoint.id queue
        (abandonForwardRoute env token forwardId db queue).queue := by
  unfold abandonForwardRoute
  split
  · rename_i db' row habandon
    obtain ⟨huntouched, -⟩ := onForward_scoped hendpoint (.abandon _ _ _)
      (fun f hholds => (abandon_holds.mp hholds).2.1) habandon
    exact ⟨huntouched, .refl _ _ _⟩
  · exact ⟨.refl _ _ _, .refl _ _ _⟩

theorem enqueuesOwn_enqueueAll {endpointId : UUID} {ids : List UUID}
    (hown : ∀ id ∈ ids, ∃ f ∈ db.forwards, f.endpointId = endpointId ∧ f.id = id)
    (raises : UUID → Bool) (now : Datetime) (q : ArqQueue) :
    EnqueuesOwn db endpointId q (RedrivePendingForwards.enqueueAll raises now q ids) := by
  induction ids generalizing q with
  | nil => exact .refl _ _ _
  | cons id ids ih =>
    obtain ⟨⟨f, hf, hfe, hid⟩, hrest⟩ := List.forall_mem_cons.mp hown
    refine EnqueuesOwn.trans ?_ (ih hrest _)
    dsimp only
    split
    · exact .refl _ _ _
    · rw [← hid, ← hfe]
      exact enqueuesOwn_enqueue hf _ _ _

theorem redriveForwardsRoute_scoped
    (hendpoint : EndpointRepository.findByToken token db.endpoints = some endpoint) :
    Untouched db endpoint.id db (redriveForwardsRoute env token db queue).db ∧
      EnqueuesOwn db endpoint.id queue (redriveForwardsRoute env token db queue).queue := by
  let reclaim := reclaimStuckInFlight endpoint.id
    RedrivePendingForwards.stuckInFlightThresholdSeconds env.now
  have hwriter : Writer reclaim := .reclaim _ _ _
  -- the rows after the reclaim are those of the table, with their ids and endpoints
  have hfrom : ∀ f ∈ reclaim.apply db.forwards, f.endpointId = endpoint.id →
      ∃ f' ∈ db.forwards, f'.endpointId = endpoint.id ∧ f'.id = f.id := by
    intro f hf hown
    obtain ⟨f', hf', rfl⟩ := List.mem_map.mp hf
    have horigin := hwriter.sameOrigin_onRow f'
    exact ⟨f', hf', horigin.endpoint_eq ▸ hown, horigin.id_eq.symm⟩
  simp only [redriveForwardsRoute, RedrivePendingForwards.execute, hendpoint]
  refine ⟨untouched_updateForwards hwriter
    (fun f hholds => (reclaimStuckInFlight_holds.mp hholds).1) db, ?_⟩
  refine enqueuesOwn_enqueueAll (fun id hid => ?_) _ _ _
  rcases List.mem_append.mp hid with hfailed | hpending
  · obtain ⟨f, hf, rfl, hoverdue⟩ := mem_listOverdueFailed.mp hfailed
    exact hfrom f hf (overdueFailed_eq_true.mp hoverdue).1
  · obtain ⟨f, hf, rfl, hstuck⟩ := mem_redriveStuckPending.mp hpending
    exact hfrom f hf (stuckPending_eq_true.mp hstuck).1

theorem replayRequestRoute_db (env : Environment) (token : String) (args : ReplayRequest.Args) :
    (replayRequestRoute env token args db later queue).db =
      (ReplayRequest.execute env.replay token args db later).db := by
  unfold replayRequestRoute
  dsimp only
  split <;> rfl

theorem replayRequestRoute_scoped
    (hendpoint : EndpointRepository.findByToken token db.endpoints = some endpoint)
    (args : ReplayRequest.Args) :
    Untouched db endpoint.id later (replayRequestRoute env token args db later queue).db := by
  rw [replayRequestRoute_db]
  unfold ReplayRequest.execute
  split
  · exact .refl _ _ _
  · rename_i state hstate
    obtain ⟨hfound, hrequest, hown, -⟩ := ReplayRequest.authorizePhase_ok hstate
    obtain rfl := Option.some.inj (hfound.symm.trans hendpoint)
    obtain ⟨hmem, hid⟩ := mem_of_find hrequest
    rcases ReplayRequest.httpPhase_db state later with hsame | ⟨replay, hreplay, hput⟩
    · rw [hsame]
      exact .refl _ _ _
    · rw [hput]
      refine filter_put ?_ later
      simp only [ownedBy, Bool.not_eq_eq_eq_not, Bool.not_false, List.any_eq_true,
        decide_eq_true_eq]
      exact ⟨state.captured, hmem, hid.trans hreplay.symm, hown⟩

theorem updateConfigRoute_scoped
    (hendpoint : EndpointRepository.findByToken token db.endpoints = some endpoint)
    (p : UpdateEndpointConfig.Patch) :
    Untouched db endpoint.id db (updateConfigRoute env token p db queue).db := by
  unfold updateConfigRoute
  split
  · rename_i endpoints hexecute
    obtain ⟨found, entity, hfound, hid, rfl⟩ := UpdateEndpointConfig.execute_ok hexecute
    obtain rfl := Option.some.inj (hfound.symm.trans hendpoint)
    refine untouched_updateEndpoints (.config entity) (fun e hholds => ?_) db
    have hkey : e.id = entity.id := by simpa [EndpointRepository.update] using hholds
    exact hkey.trans hid
  · exact .refl _ _ _

/-- Whatever the request asks for. -/
theorem handle_scoped
    (hendpoint : EndpointRepository.findByToken token db.endpoints = some endpoint)
    (env : Environment) (later : Database) (queue : ArqQueue) (c : Call) :
    Untouched db endpoint.id (c.meets db later) (handle env token db later queue c).db ∧
      EnqueuesOwn db endpoint.id queue (handle env token db later queue c).queue := by
  cases c with
  | retryForward forwardId => exact retryForwardRoute_scoped hendpoint forwardId
  | abandonForward forwardId => exact abandonForwardRoute_scoped hendpoint forwardId
  | redriveForwards => exact redriveForwardsRoute_scoped hendpoint
  | replayRequest args =>
    refine ⟨replayRequestRoute_scoped hendpoint args, ?_⟩
    have hqueue : (replayRequestRoute env token args db later queue).queue = queue := by
      unfold replayRequestRoute
      dsimp only
      split <;> rfl
    show EnqueuesOwn db endpoint.id queue (replayRequestRoute env token args db later queue).queue
    rw [hqueue]
    exact .refl _ _ _
  | updateConfig p =>
    refine ⟨updateConfigRoute_scoped hendpoint p, ?_⟩
    have hqueue : (updateConfigRoute env token p db queue).queue = queue := by
      unfold updateConfigRoute
      split <;> rfl
    show EnqueuesOwn db endpoint.id queue (updateConfigRoute env token p db queue).queue
    rw [hqueue]
    exact .refl _ _ _

/-- An id of none of the endpoint's rows is refused, and the request does nothing. -/
theorem handle_refused
    (hendpoint : EndpointRepository.findByToken token db.endpoints = some endpoint) {c : Call}
    (hforeign : Foreign db endpoint.id c) :
    handle env token db later queue c = ⟨c.meets db later, queue, [], refusal c⟩ := by
  cases c with
  | retryForward forwardId =>
    simp [handle, retryForwardRoute, OwnerActions.retryForward_refused hendpoint hforeign,
      ownerReply, Call.meets, refusal]
  | abandonForward forwardId =>
    simp [handle, abandonForwardRoute, OwnerActions.abandonForward_refused hendpoint hforeign,
      ownerReply, Call.meets, refusal]
  | replayRequest args =>
    have hrefused : ReplayRequest.authorizePhase env.replay token args.requestId db =
        .error (ReplayRequest.requestNotFound token args.requestId) :=
      ReplayRequest.authorizePhase_refused hendpoint hforeign
    simp [handle, replayRequestRoute, ReplayRequest.execute, hrefused,
      ReplayRequest.requestNotFound, replayReply, Call.meets, refusal]
  | redriveForwards => exact hforeign.elim
  | updateConfig p => exact hforeign.elim

end Handlers

/-- A request with the token of an endpoint writes no row and enqueues no job of another
endpoint, and cannot tell an id of another endpoint from one that does not exist. -/
theorem handle_tokenScoped {db : Database} (hsound : Sound schema db.rows) {token : String}
    {endpoint : Endpoint}
    (hendpoint : EndpointRepository.findByToken token db.endpoints = some endpoint)
    (env : Environment) (later : Database) (queue : ArqQueue) (c : Call) :
    Scoped db later queue endpoint.id c (handle env token db later queue c) := by
  obtain ⟨huntouched, hown⟩ := handle_scoped hendpoint env later queue c
  exact
    { untouched := huntouched
      jobs := fun f hf hother job hjob hid => hown.not_foreign hsound hf hother hjob hid
      refused := fun hforeign => handle_refused hendpoint hforeign }

def otherEndpoint : Endpoint :=
  { sampleEndpoint with
    id := ⟨"5d1c7e90-3b2f-4c6a-9e8d-7f6a5b4c3d2e", by decide +kernel⟩
    token := "other" }

def twoOwners : Database where
  endpoints := [sampleEndpoint, otherEndpoint]
  requests := [{ sampleRequest with endpointId := otherEndpoint.id }]
  forwards := [Forward.create sampleForwardId sampleRequest.id otherEndpoint.id
    "https://other.example.com/webhook" (seconds 1000)]
  replays := []

theorem sound_twoOwners : Sound schema twoOwners.rows := by
  refine ⟨by decide +kernel, ?_⟩
  intro row hrow f hf
  simp only [Database.rows, twoOwners, List.map_cons, List.map_nil, List.nil_append,
    List.cons_append, List.mem_cons, List.not_mem_nil, or_false] at hrow
  rcases hrow with rfl | rfl | rfl | rfl <;> revert f hf <;> decide +kernel

def unreachable : Environment where
  now := seconds 2000
  raises _ := false
  encryption :=
    { secretsKey := List.replicate 32 0
      aesGcmEncrypt := fun _ _ plaintext => plaintext
      signatureNonce := List.replicate 12 0
      forwardNonce := List.replicate 12 1 }
  replay :=
    { blobGet := fun _ => .returns none
      validate := fun _ => .raises (.ssrfBlocked "no address")
      send := fun _ _ _ _ => .raises (.httpRequestFailed "no route" "network")
      replayId := ⟨"9c8b7a60-1d2e-4f3a-8b4c-5d6e7f809123", by decide +kernel⟩
      now := seconds 2000
      durationMs := 3 }

/-- The first endpoint's token does not abandon the forward of the second, and does not show
that it exists. -/
theorem foreign_abandon :
    Scoped twoOwners twoOwners .empty sampleEndpoint.id (.abandonForward sampleForwardId)
      (handle unreachable "tok" twoOwners twoOwners .empty (.abandonForward sampleForwardId)) :=
  handle_tokenScoped sound_twoOwners (by decide +kernel) unreachable twoOwners .empty _

end Hooktrace.TokenScope
