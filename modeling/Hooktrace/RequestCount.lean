import Hooktrace.CaptureTransaction
import Hooktrace.ConfigUpdates
import Mathlib.Data.Finset.Insert

/-!
Concurrent captures, config PATCHes and abuse scans on one endpoint, statement by statement. A
capture inserts its request and increments the counter of the row in one transaction; the
counter of whoever holds the row is the committed one, plus one if it is a capture.
-/
namespace Hooktrace.RequestCount

open CaptureRequest (Collaborators Input prepare)
open CaptureTransaction (SaveFault Store capture)
open ConfigUpdates (Session TransactionId step_effect)
open EndpointRepository ReadCommitted Table Transition

inductive Capture where
  | found (endpoint : Endpoint)
  | inserted (request : CapturedRequest)
  | counted (request : CapturedRequest)
  /-- A statement was rejected: the server has undone the transaction. -/
  | aborted

/-- The row, the committed requests, the open transactions, and those whose INSERT has locked
the key of the row. -/
structure State where
  row : VersionedRow Endpoint
  requests : List CapturedRequest
  config : TransactionId → Option Session
  captures : TransactionId → Option Capture
  keyShares : Finset TransactionId

inductive Action where
  | config (a : ConfigUpdates.Action)
  | find (t : TransactionId)
  | insert (t : TransactionId) (env : Collaborators) (input : Input)
  | count (t : TransactionId)
  | reject (t : TransactionId)
  | commit (t : TransactionId)
  | rollback (t : TransactionId)
  | remove

def setCapture (s : State) (t : TransactionId) (c : Option Capture) :
    TransactionId → Option Capture :=
  Function.update s.captures t c

def rowsOf (endpointId : UUID) (requests : List CapturedRequest) : List CapturedRequest :=
  requests.filter fun r => r.endpointId = endpointId

def unwritten (row : VersionedRow Endpoint) : VersionedRow Endpoint := { row with written := none }

/-- `none` where the transaction cannot take the step, or waits for the row. -/
def step (endpointId : UUID) (s : State) : Action → Option State
  | .config a => (ConfigUpdates.step endpointId ⟨s.row, s.config⟩ a).map fun c =>
    { s with row := c.row, config := c.sessions }
  | .find t =>
    match s.captures t, s.row.committed with
    | none, some endpoint => some { s with captures := setCapture s t (some (.found endpoint)) }
    | _, _ => none
  | .insert t env input =>
    match s.captures t with
    | some (.found endpoint) =>
      match prepare env endpoint input, s.row.committed with
      | .ok captured, some _ => some { s with
          captures := setCapture s t (some (.inserted captured))
          keyShares := insert t s.keyShares }
      | .ok _, none => some { s with captures := setCapture s t (some .aborted) }
      | .error _, _ => some { s with captures := setCapture s t none }
    | _ => none
  | .count t =>
    match s.captures t with
    | some (.inserted request) =>
      match s.row.update (incrementRequestCount request.endpointId) with
      | .updated r => some { s with
          row := s.row.write r
          captures := setCapture s t (some (.counted request)) }
      | .waits => none
      | .noRow => some { s with captures := setCapture s t (some (.counted request)) }
    | _ => none
  | .reject t =>
    match s.captures t with
    | some (.counted _) => some { s with
        row := unwritten s.row
        captures := setCapture s t (some .aborted)
        keyShares := s.keyShares.erase t }
    | some _ => some { s with
        captures := setCapture s t (some .aborted)
        keyShares := s.keyShares.erase t }
    | none => none
  | .commit t =>
    match s.captures t with
    | some (.counted request) => some { s with
        row := s.row.commit
        requests := s.requests ++ [request]
        captures := setCapture s t none
        keyShares := s.keyShares.erase t }
    | some .aborted => some { s with captures := setCapture s t none }
    | _ => none
  | .rollback t =>
    match s.captures t with
    | some (.counted _) => some { s with
        row := unwritten s.row
        captures := setCapture s t none
        keyShares := s.keyShares.erase t }
    | some _ => some { s with
        captures := setCapture s t none
        keyShares := s.keyShares.erase t }
    | none => none
  | .remove =>
    -- the DELETE waits for whoever has written the row or locked its key
    if s.row.written = none ∧ s.keyShares = ∅ then
      some { s with
        row := ⟨none, none⟩
        requests := s.requests.filter fun r => r.endpointId ≠ endpointId }
    else none

def start (endpoint : Endpoint) : State :=
  ⟨⟨some endpoint, none⟩, [], fun _ => none, fun _ => none, ∅⟩

inductive Holder where
  | config (t : TransactionId)
  | capture (t : TransactionId)

def Holder.added : Holder → ℕ
  | .config _ => 0
  | .capture _ => 1

def Holds (s : State) : Holder → Prop
  | .config t => ∃ session, s.config t = some session ∧ session.writing = true
  | .capture t => ∃ request, s.captures t = some (.counted request)

/-- The committed counter is `n`; the one transaction that holds the row has added to it. -/
structure RowCounts (endpointId : UUID) (n : ℕ) (row : VersionedRow Endpoint)
    (holds : Holder → Prop) : Prop where
  committed : ∀ c, row.committed = some c → c.id = endpointId ∧ c.requestCount = n
  held : ∀ h, holds h → (∃ c, row.committed = some c) ∧
    ∃ w, row.written = some w ∧ w.id = endpointId ∧ w.requestCount = n + h.added
  one : ∀ h h', holds h → holds h' → h = h'

def Inserted (captures : TransactionId → Option Capture) (t : TransactionId)
    (request : CapturedRequest) : Prop :=
  captures t = some (.inserted request) ∨ captures t = some (.counted request)

structure References (endpointId : UUID) (s : State) : Prop where
  found : ∀ t endpoint, s.captures t = some (.found endpoint) → endpoint.id = endpointId
  own : ∀ t request, Inserted s.captures t request → request.endpointId = endpointId
  locked : ∀ t request, Inserted s.captures t request → t ∈ s.keyShares
  present : ∀ t ∈ s.keyShares, ∃ c, s.row.committed = some c

structure Counted (endpointId : UUID) (s : State) : Prop where
  row : RowCounts endpointId (rowsOf endpointId s.requests).length s.row (Holds s)
  references : References endpointId s

section Row

variable {endpointId : UUID} {n : ℕ} {row : VersionedRow Endpoint} {holds holds' : Holder → Prop}

theorem RowCounts.mono (h : RowCounts endpointId n row holds) (hsub : ∀ x, holds' x → holds x) :
    RowCounts endpointId n row holds' where
  committed := h.committed
  held x hx := h.held x (hsub x hx)
  one x y hx hy := h.one x y (hsub x hx) (hsub y hy)

/-- Nobody holds a row that is free. -/
theorem RowCounts.free (h : RowCounts endpointId n row holds) (hfree : row.written = none)
    (x : Holder) : ¬ holds x := by
  intro hx
  obtain ⟨-, w, hw, -⟩ := h.held x hx
  simp [hfree] at hw

/-- A transaction updates the free row. -/
theorem RowCounts.take (h : RowCounts endpointId n row holds) (hfree : row.written = none)
    {c w : Endpoint} (hc : row.committed = some c) {x : Holder}
    (hsub : ∀ y, holds' y → y = x ∨ holds y) (hid : w.id = c.id)
    (hadded : w.requestCount = c.requestCount + x.added) :
    RowCounts endpointId n (row.write w) holds' := by
  obtain ⟨hcid, hcount⟩ := h.committed c hc
  have honly : ∀ y, holds' y → y = x := fun y hy => (hsub y hy).resolve_right (h.free hfree y)
  refine ⟨h.committed, ?_, ?_⟩
  · intro y hy
    obtain rfl := honly y hy
    exact ⟨⟨c, hc⟩, w, rfl, hid.trans hcid, hadded.trans (by rw [hcount])⟩
  · intro y z hy hz
    rw [honly y hy, honly z hz]

theorem RowCounts.commit (h : RowCounts endpointId n row holds) {x : Holder} (hx : holds x)
    (hsub : ∀ y, holds' y → y ≠ x ∧ holds y) :
    RowCounts endpointId (n + x.added) row.commit holds' := by
  obtain ⟨-, w, hw, hid, hcount⟩ := h.held x hx
  refine ⟨?_, ?_, ?_⟩
  · intro c hc
    obtain rfl : w = c := by simpa [VersionedRow.commit, hw] using hc
    exact ⟨hid, hcount⟩
  · intro y hy
    exact absurd (h.one y x (hsub y hy).2 hx) (hsub y hy).1
  · intro y z hy hz
    exact h.one y z (hsub y hy).2 (hsub z hz).2

theorem RowCounts.undo (h : RowCounts endpointId n row holds) {x : Holder} (hx : holds x)
    (hsub : ∀ y, holds' y → y ≠ x ∧ holds y) : RowCounts endpointId n (unwritten row) holds' where
  committed := h.committed
  held y hy := absurd (h.one y x (hsub y hy).2 hx) (hsub y hy).1
  one y z hy hz := h.one y z (hsub y hy).2 (hsub z hz).2

end Row

section Steps

variable {endpointId : UUID} {s u : State} {t t' : TransactionId}

/-- The capture of a transaction after its own step, and of every other one. -/
theorem setCapture_cases {c : Option Capture} {c' : Capture}
    (h : setCapture s t c t' = some c') :
    (t' = t ∧ c = some c') ∨ (t' ≠ t ∧ s.captures t' = some c') := by
  unfold setCapture at h
  by_cases ht : t' = t
  · subst ht
    exact Or.inl ⟨rfl, by simpa using h⟩
  · exact Or.inr ⟨ht, by simpa [ht] using h⟩

theorem inserted_setCapture {c : Option Capture} {request : CapturedRequest}
    (h : Inserted (setCapture s t c) t' request) :
    (t' = t ∧ (c = some (.inserted request) ∨ c = some (.counted request))) ∨
      (t' ≠ t ∧ Inserted s.captures t' request) := by
  rcases h with h | h
  · rcases setCapture_cases h with ⟨ht, hc⟩ | ⟨ht, hc⟩
    · exact Or.inl ⟨ht, Or.inl hc⟩
    · exact Or.inr ⟨ht, Or.inl hc⟩
  · rcases setCapture_cases h with ⟨ht, hc⟩ | ⟨ht, hc⟩
    · exact Or.inl ⟨ht, Or.inr hc⟩
    · exact Or.inr ⟨ht, Or.inr hc⟩

theorem References.close (h : References endpointId s) (t : TransactionId) {c : Option Capture}
    (hc : c = none ∨ c = some .aborted) {shares : Finset TransactionId}
    (hshares : shares ⊆ s.keyShares) (hothers : ∀ t' ≠ t, t' ∈ s.keyShares → t' ∈ shares)
    (row : VersionedRow Endpoint)
    (hrow : (∃ r, s.row.committed = some r) → ∃ r, row.committed = some r)
    (requests : List CapturedRequest) :
    References endpointId ⟨row, requests, s.config, setCapture s t c, shares⟩ where
  found t' endpoint hfound := by
    rcases setCapture_cases hfound with ⟨-, hnew⟩ | ⟨-, hold⟩
    · rcases hc with rfl | rfl <;> simp at hnew
    · exact h.found t' endpoint hold
  own t' request hinserted := by
    rcases inserted_setCapture hinserted with ⟨-, hnew⟩ | ⟨-, hold⟩
    · rcases hc with rfl | rfl <;> simp at hnew
    · exact h.own t' request hold
  locked t' request hinserted := by
    rcases inserted_setCapture hinserted with ⟨-, hnew⟩ | ⟨ht, hold⟩
    · rcases hc with rfl | rfl <;> simp at hnew
    · exact hothers t' ht (h.locked t' request hold)
  present t' ht' := hrow (h.present t' (hshares ht'))

/-- Who holds the row after a capture has taken a step without the row. -/
theorem holds_setCapture {c : Option Capture} {row : VersionedRow Endpoint}
    {requests : List CapturedRequest} {shares : Finset TransactionId}
    (hc : ∀ request, c ≠ some (.counted request)) {x : Holder}
    (h : Holds ⟨row, requests, s.config, setCapture s t c, shares⟩ x) :
    x ≠ .capture t ∧ Holds s x := by
  cases x with
  | config t' => exact ⟨by simp, h⟩
  | capture t' =>
    obtain ⟨request, hrequest⟩ := h
    rcases setCapture_cases hrequest with ⟨-, hnew⟩ | ⟨ht, hold⟩
    · exact absurd hnew (hc request)
    · exact ⟨by simpa using ht, request, hold⟩

inductive Effect (endpointId : UUID) (s : State) : Action → State → Prop
  | config {a : ConfigUpdates.Action} {c : ConfigUpdates.State}
      (heffect : ConfigUpdates.Effect endpointId ⟨s.row, s.config⟩ a c) :
      Effect endpointId s (.config a) { s with row := c.row, config := c.sessions }
  | finds {t : TransactionId} {endpoint : Endpoint} (hc : s.row.committed = some endpoint) :
      Effect endpointId s (.find t)
        { s with captures := setCapture s t (some (.found endpoint)) }
  | inserts {t : TransactionId} {env : Collaborators} {input : Input} {endpoint c : Endpoint}
      {captured : CapturedRequest} (hfound : s.captures t = some (.found endpoint))
      (hprepare : prepare env endpoint input = .ok captured) (hc : s.row.committed = some c) :
      Effect endpointId s (.insert t env input) { s with
        captures := setCapture s t (some (.inserted captured))
        keyShares := insert t s.keyShares }
  | leaves {a : Action} {t : TransactionId} {c : Option Capture} {shares : Finset TransactionId}
      (hc : c = none ∨ c = some .aborted) (hidle : ¬ Holds s (.capture t))
      (hshares : shares ⊆ s.keyShares) (hothers : ∀ t' ≠ t, t' ∈ s.keyShares → t' ∈ shares) :
      Effect endpointId s a { s with captures := setCapture s t c, keyShares := shares }
  | counts {t : TransactionId} {request : CapturedRequest} {c : Endpoint}
      (hinserted : s.captures t = some (.inserted request)) (hc : s.row.committed = some c)
      (hfree : s.row.written = none) :
      Effect endpointId s (.count t) { s with
        row := s.row.write ((incrementRequestCount request.endpointId).assign c)
        captures := setCapture s t (some (.counted request)) }
  | misses {t : TransactionId} {request : CapturedRequest}
      (hinserted : s.captures t = some (.inserted request))
      (hmissed : s.row.update (incrementRequestCount request.endpointId) = .noRow) :
      Effect endpointId s (.count t)
        { s with captures := setCapture s t (some (.counted request)) }
  | undoes {a : Action} {t : TransactionId} {c : Option Capture}
      (hc : c = none ∨ c = some .aborted) (hholds : Holds s (.capture t)) :
      Effect endpointId s a { s with
        row := unwritten s.row
        captures := setCapture s t c
        keyShares := s.keyShares.erase t }
  | commits {t : TransactionId} {request : CapturedRequest}
      (hcounted : s.captures t = some (.counted request)) :
      Effect endpointId s (.commit t) { s with
        row := s.row.commit
        requests := s.requests ++ [request]
        captures := setCapture s t none
        keyShares := s.keyShares.erase t }
  | removes (hfree : s.row.written = none) (hunlocked : s.keyShares = ∅) :
      Effect endpointId s .remove { s with
        row := ⟨none, none⟩
        requests := s.requests.filter fun r => r.endpointId ≠ endpointId }

/-- A session that has not updated the row leaves it alone. -/
theorem Effect.leave {a : Action} {capture : Capture} {c : Option Capture}
    (hsession : s.captures t = some capture)
    (hidle : ∀ request, capture ≠ .counted request) (hc : c = none ∨ c = some .aborted) :
    Effect endpointId s a { s with
      captures := setCapture s t c
      keyShares := s.keyShares.erase t } := by
  refine .leaves hc ?_ (Finset.erase_subset _ _) fun t' ht hmem => Finset.mem_erase.mpr ⟨ht, hmem⟩
  intro hholds
  obtain ⟨request, hcounted⟩ := hholds
  exact hidle request (Option.some.inj (hsession.symm.trans hcounted))

theorem Effect.leave_unlocked {a : Action} {capture : Capture} {c : Option Capture}
    (hsession : s.captures t = some capture)
    (hidle : ∀ request, capture ≠ .counted request) (hc : c = none ∨ c = some .aborted) :
    Effect endpointId s a { s with captures := setCapture s t c } := by
  refine .leaves hc ?_ (Finset.Subset.refl _) fun _ _ hmem => hmem
  intro hholds
  obtain ⟨request, hcounted⟩ := hholds
  exact hidle request (Option.some.inj (hsession.symm.trans hcounted))

theorem step_cases {a : Action} (h : step endpointId s a = some u) : Effect endpointId s a u := by
  cases a with
  | config a =>
    obtain ⟨c, hc, rfl⟩ := Option.map_eq_some_iff.mp h
    exact .config (step_effect hc)
  | find t =>
    simp only [step] at h
    split at h
    · rename_i hc
      exact Option.some.inj h ▸ .finds hc
    · simp at h
  | insert t env input =>
    simp only [step] at h
    split at h
    · rename_i endpoint hfound
      split at h
      · rename_i hprepare hc
        exact Option.some.inj h ▸ .inserts hfound hprepare hc
      · exact Option.some.inj h ▸ .leave_unlocked hfound (by simp) (Or.inr rfl)
      · exact Option.some.inj h ▸ .leave_unlocked hfound (by simp) (Or.inl rfl)
    · simp at h
  | count t =>
    simp only [step] at h
    split at h
    · rename_i request hinserted
      split at h
      · rename_i r hupdated
        obtain ⟨c, hc, hfree, rfl⟩ := s.row.update_eq_updated hupdated
        exact Option.some.inj h ▸ .counts hinserted hc hfree
      · simp at h
      · rename_i hmissed
        exact Option.some.inj h ▸ .misses hinserted hmissed
    · simp at h
  | reject t =>
    simp only [step] at h
    split at h
    · rename_i request hcounted
      exact Option.some.inj h ▸ .undoes (Or.inr rfl) ⟨request, hcounted⟩
    · rename_i capture hidle hsession
      exact Option.some.inj h ▸ .leave hsession hidle (Or.inr rfl)
    · simp at h
  | commit t =>
    simp only [step] at h
    split at h
    · rename_i request hcounted
      exact Option.some.inj h ▸ .commits hcounted
    · rename_i haborted
      exact Option.some.inj h ▸ .leave_unlocked haborted (by simp) (Or.inl rfl)
    · simp at h
  | rollback t =>
    simp only [step] at h
    split at h
    · rename_i request hcounted
      exact Option.some.inj h ▸ .undoes (Or.inl rfl) ⟨request, hcounted⟩
    · rename_i capture hidle hsession
      exact Option.some.inj h ▸ .leave hsession hidle (Or.inl rfl)
    · simp at h
  | remove =>
    simp only [step] at h
    split at h
    · rename_i hfree
      exact Option.some.inj h ▸ .removes hfree.1 hfree.2
    · simp at h

theorem References.withRow (h : References endpointId s) {row : VersionedRow Endpoint}
    {config : TransactionId → Option Session}
    (hrow : (∃ r, s.row.committed = some r) → ∃ r, row.committed = some r) :
    References endpointId { s with row, config } :=
  ⟨h.found, h.own, h.locked, fun t ht => hrow (h.present t ht)⟩

theorem committed_commit {row : VersionedRow Endpoint} (h : ∃ r, row.committed = some r) :
    ∃ r, row.commit.committed = some r := by
  obtain ⟨r, hr, -⟩ := row.commit_invariant (P := fun _ => True)
    (h.imp fun r hr => ⟨hr, trivial⟩) fun _ _ => trivial
  exact ⟨r, hr⟩

/-- Who holds the row after a session of the configuration has taken a step. -/
theorem holds_setSession {row : VersionedRow Endpoint} {session : Option Session} {x : Holder}
    (h : Holds { s with row, config := ConfigUpdates.setSession ⟨s.row, s.config⟩ t session } x) :
    (x = .config t ∧ ∃ session', session = some session' ∧ session'.writing = true) ∨
      (x ≠ .config t ∧ Holds s x) := by
  cases x with
  | capture t' => exact Or.inr ⟨by simp, h⟩
  | config t' =>
    obtain ⟨session', hsession, hwriting⟩ := h
    rcases ConfigUpdates.setSession_cases hsession with ⟨rfl, hnew⟩ | ⟨ht, hold⟩
    · exact Or.inl ⟨rfl, session', hnew, hwriting⟩
    · exact Or.inr ⟨by simpa using ht, session', hold, hwriting⟩

/-- No statement of a PATCH or of the scan writes the counter. -/
theorem Counted.config (h : Counted endpointId s) {a : ConfigUpdates.Action}
    {c : ConfigUpdates.State} (heffect : ConfigUpdates.Effect endpointId ⟨s.row, s.config⟩ a c) :
    Counted endpointId { s with row := c.row, config := c.sessions } := by
  cases heffect with
  | failed => exact h
  | reads hpatched =>
    refine ⟨h.row.mono fun x hx => ?_, h.references.withRow id⟩
    rcases holds_setSession hx with ⟨-, session, hnew, hwriting⟩ | ⟨-, hold⟩
    · simp [← Option.some.inj hnew, Session.writing] at hwriting
    · exact hold
  | gone =>
    refine ⟨h.row.mono fun x hx => ?_, h.references.withRow id⟩
    rcases holds_setSession hx with ⟨-, session, hnew, -⟩ | ⟨-, hold⟩
    · simp at hnew
    · exact hold
  | @writes t env p snapshot entity c hsession hc hfree =>
    refine ⟨h.row.take (x := .config t) hfree hc (fun x hx => ?_) rfl rfl,
      h.references.withRow id⟩
    exact (holds_setSession hx).imp And.left And.right
  | @flags t reason now c hc hfree =>
    refine ⟨h.row.take (x := .config t) hfree hc (fun x hx => ?_) rfl rfl,
      h.references.withRow id⟩
    exact (holds_setSession hx).imp And.left And.right
  | @commits t session hsession hwriting =>
    have hholds : Holds s (.config t) := ⟨session, hsession, hwriting⟩
    refine ⟨h.row.commit hholds fun x hx => ?_, h.references.withRow committed_commit⟩
    rcases holds_setSession hx with ⟨-, session, hnew, -⟩ | hold
    · simp at hnew
    · exact hold
  | drops hsession _ =>
    refine ⟨h.row.mono fun x hx => ?_, h.references.withRow id⟩
    rcases holds_setSession hx with ⟨-, session, hnew, -⟩ | ⟨-, hold⟩
    · simp at hnew
    · exact hold
  | @undoes t session hsession hwriting =>
    have hholds : Holds s (.config t) := ⟨session, hsession, hwriting⟩
    refine ⟨h.row.undo hholds fun x hx => ?_, h.references.withRow id⟩
    rcases holds_setSession hx with ⟨-, session, hnew, -⟩ | hold
    · simp at hnew
    · exact hold

/-- What a capture hands over is a request of the endpoint that it found. -/
theorem prepare_endpointId {env : Collaborators} {endpoint : Endpoint} {input : Input}
    {captured : CapturedRequest} (h : prepare env endpoint input = .ok captured) :
    captured.endpointId = endpoint.id := by
  obtain ⟨status, integration, eventType, created, -, -, hcreate, hstore⟩ :=
    CaptureRequest.prepare_ok h
  have hcreated : created.endpointId = endpoint.id := by
    unfold CaptureRequest.create at hcreate
    dsimp only at hcreate
    split at hcreate
    · simp at hcreate
    · obtain rfl := Except.ok.inj hcreate
      rfl
  unfold CaptureRequest.storeBody at hstore
  split at hstore
  · obtain rfl := Except.ok.inj hstore
    exact hcreated
  · split at hstore
    · obtain rfl := Except.ok.inj hstore
      exact hcreated
    · obtain rfl := Except.ok.inj hstore
      exact hcreated
    · simp at hstore

theorem References.find (h : References endpointId s) {endpoint : Endpoint}
    (hid : endpoint.id = endpointId) :
    References endpointId { s with captures := setCapture s t (some (.found endpoint)) } where
  found t' endpoint' hfound := by
    rcases setCapture_cases hfound with ⟨-, hnew⟩ | ⟨-, hold⟩
    · cases hnew
      exact hid
    · exact h.found t' endpoint' hold
  own t' request hinserted := by
    rcases inserted_setCapture hinserted with ⟨-, hnew⟩ | ⟨-, hold⟩
    · simp at hnew
    · exact h.own t' request hold
  locked t' request hinserted := by
    rcases inserted_setCapture hinserted with ⟨-, hnew⟩ | ⟨-, hold⟩
    · simp at hnew
    · exact h.locked t' request hold
  present := h.present

theorem References.insert (h : References endpointId s) {request : CapturedRequest}
    {c : Capture} (hc : c = .inserted request ∨ c = .counted request)
    (hown : request.endpointId = endpointId) (hpresent : ∃ r, s.row.committed = some r)
    (row : VersionedRow Endpoint) (hrow : row.committed = s.row.committed) :
    References endpointId { s with
      row
      captures := setCapture s t (some c)
      keyShares := insert t s.keyShares } where
  found t' endpoint hfound := by
    rcases setCapture_cases hfound with ⟨-, hnew⟩ | ⟨-, hold⟩
    · rcases hc with rfl | rfl <;> simp at hnew
    · exact h.found t' endpoint hold
  own t' request' hinserted := by
    rcases inserted_setCapture hinserted with ⟨-, hnew⟩ | ⟨-, hold⟩
    · rcases hc with rfl | rfl
      · rcases hnew with hnew | hnew <;> cases hnew
        exact hown
      · rcases hnew with hnew | hnew <;> cases hnew
        exact hown
    · exact h.own t' request' hold
  locked t' request' hinserted := by
    rcases inserted_setCapture hinserted with ⟨rfl, -⟩ | ⟨-, hold⟩
    · exact Finset.mem_insert_self _ _
    · exact Finset.mem_insert_of_mem (h.locked t' request' hold)
  present t' ht' := by
    show ∃ r, row.committed = some r
    rw [hrow]
    rcases Finset.mem_insert.mp ht' with rfl | hold
    · exact hpresent
    · exact h.present t' hold

/-- The increment of a transaction that has inserted its request finds the row. -/
theorem Counted.not_missed (h : Counted endpointId s) {request : CapturedRequest}
    (hinserted : s.captures t = some (.inserted request)) :
    s.row.update (incrementRequestCount request.endpointId) ≠ .noRow := by
  have hown := h.references.own t request (Or.inl hinserted)
  obtain ⟨c, hc⟩ := h.references.present t (h.references.locked t request (Or.inl hinserted))
  have hholds : (incrementRequestCount request.endpointId).holds c = true := by
    simp [incrementRequestCount, hown, (h.row.committed c hc).1]
  intro hmissed
  rcases s.row.update_of_holds hc hholds with hwaits | ⟨-, hupdated⟩
  · simp [hmissed] at hwaits
  · simp [hmissed] at hupdated

theorem rowsOf_append_own {requests : List CapturedRequest} {request : CapturedRequest}
    (h : request.endpointId = endpointId) :
    (rowsOf endpointId (requests ++ [request])).length =
      (rowsOf endpointId requests).length + 1 := by
  simp [rowsOf, h]

theorem Counted.keeps (h : Counted endpointId s) {a : Action}
    (heffect : Effect endpointId s a u) : Counted endpointId u := by
  cases heffect with
  | config heffect => exact h.config heffect
  | @finds t endpoint hc =>
    refine ⟨h.row.mono fun x hx => ?_, h.references.find (h.row.committed endpoint hc).1⟩
    exact (holds_setCapture (by simp) hx).2
  | @inserts t env input endpoint c captured hfound hprepare hc =>
    have hown := (prepare_endpointId hprepare).trans (h.references.found t endpoint hfound)
    refine ⟨h.row.mono fun x hx => ?_, h.references.insert (Or.inl rfl) hown ⟨c, hc⟩ _ rfl⟩
    exact (holds_setCapture (by simp) hx).2
  | leaves hc hidle hshares hothers =>
    refine ⟨h.row.mono fun x hx => ?_, h.references.close _ hc hshares hothers _ id _⟩
    rcases hc with rfl | rfl
    · exact (holds_setCapture (by simp) hx).2
    · exact (holds_setCapture (by simp) hx).2
  | @counts t request c hinserted hc hfree =>
    have hown := h.references.own t request (Or.inl hinserted)
    have hlocked := h.references.locked t request (Or.inl hinserted)
    refine ⟨h.row.take (x := .capture t) hfree hc (fun x hx => ?_) rfl rfl, ?_⟩
    · cases x with
      | config t' => exact Or.inr hx
      | capture t' =>
        obtain ⟨request', hcounted⟩ := hx
        rcases setCapture_cases hcounted with ⟨rfl, -⟩ | ⟨-, hold⟩
        · exact Or.inl rfl
        · exact Or.inr ⟨request', hold⟩
    · have hinsert := h.references.insert (t := t) (Or.inr rfl) hown ⟨c, hc⟩
        (s.row.write ((incrementRequestCount request.endpointId).assign c)) rfl
      rwa [Finset.insert_eq_of_mem hlocked] at hinsert
  | misses hinserted hmissed => exact absurd hmissed (h.not_missed hinserted)
  | @undoes a t c hc hholds =>
    have hothers : ∀ t' ≠ t, t' ∈ s.keyShares → t' ∈ s.keyShares.erase t :=
      fun _ ht hmem => Finset.mem_erase.mpr ⟨ht, hmem⟩
    refine ⟨h.row.undo hholds fun x hx => ?_,
      h.references.close t hc (Finset.erase_subset _ _) hothers (unwritten s.row) id _⟩
    rcases hc with rfl | rfl
    · exact holds_setCapture (by simp) hx
    · exact holds_setCapture (by simp) hx
  | @commits t request hcounted =>
    have hothers : ∀ t' ≠ t, t' ∈ s.keyShares → t' ∈ s.keyShares.erase t :=
      fun _ ht hmem => Finset.mem_erase.mpr ⟨ht, hmem⟩
    have hholds : Holds s (.capture t) := ⟨request, hcounted⟩
    refine ⟨?_, h.references.close t (Or.inl rfl) (Finset.erase_subset _ _) hothers _
      committed_commit _⟩
    rw [rowsOf_append_own (h.references.own t request (Or.inr hcounted))]
    exact h.row.commit hholds fun x hx => holds_setCapture (by simp) hx
  | removes hfree hunlocked =>
    have hunreferenced : ∀ t request, ¬ Inserted s.captures t request := by
      intro t request hinserted
      have hlocked := h.references.locked t request hinserted
      simp [hunlocked] at hlocked
    refine ⟨⟨by simp, ?_, ?_⟩, h.references.found, h.references.own, h.references.locked, ?_⟩
    · intro x hx
      exact absurd hx (h.row.free hfree x)
    · intro x y hx _
      exact absurd hx (h.row.free hfree x)
    · intro t ht
      simp [hunlocked] at ht

theorem counted_start {endpoint : Endpoint} (hnew : endpoint.requestCount = 0) :
    Counted endpoint.id (start endpoint) where
  row := by
    refine ⟨?_, ?_, ?_⟩
    · intro c hc
      obtain rfl := Option.some.inj hc
      exact ⟨rfl, hnew⟩
    · intro x hx
      cases x with
      | config t => simp [Holds, start] at hx
      | capture t => simp [Holds, start] at hx
    · intro x y hx _
      cases x with
      | config t => simp [Holds, start] at hx
      | capture t => simp [Holds, start] at hx
  references := by
    refine ⟨?_, ?_, ?_, ?_⟩ <;> simp [start, Inserted]

/-- In every interleaving of captures, PATCHes and scans, the committed counter is the number of
the endpoint's committed requests. -/
theorem requestCount_eq (endpoint : Endpoint) (hnew : endpoint.requestCount = 0)
    (ms : History State Action) (s : State)
    (h : Run (Steps (step endpoint.id)) (start endpoint) ms s) (c : Endpoint)
    (hc : s.row.committed = some c) :
    c.requestCount = (rowsOf endpoint.id s.requests).length :=
  ((h.invariant (counted_start hnew) fun _ _ _ hcounted hstep =>
    hcounted.keeps (step_cases hstep)).row.committed c hc).2

end Steps

def seen (endpointId : UUID) (store : Store) : State :=
  ⟨⟨Table.find Endpoint.id endpointId store.db.endpoints, none⟩, store.db.requests,
    fun _ => none, fun _ => none, ∅⟩

/-- A capture in a session of its own stores nothing, or it is the run of its statements. -/
theorem capture_run {env : Collaborators} {fault : Option SaveFault}
    {token : String} {input : Input} {store : Store} {endpoint : Endpoint}
    (hkeys : UniqueKeys Endpoint.id store.db.endpoints)
    (hendpoint : findByToken token store.db.endpoints = some endpoint) :
    (capture env fault token input store).2 = store ∨
      ∃ ms, play (step endpoint.id) [] (seen endpoint.id store)
        [.find 0, .insert 0 env input, .count 0, .commit 0] =
          some (ms, seen endpoint.id (capture env fault token input store).2) := by
  rcases CaptureTransaction.capture_cases fault hendpoint with hnothing | hstored
  · exact Or.inl hnothing
  obtain ⟨captured, hprepare, hrequests, hendpoints⟩ := hstored
  have hfind : Table.find Endpoint.id endpoint.id store.db.endpoints = some endpoint :=
    find_of_mem hkeys (List.mem_of_find?_eq_some hendpoint)
  have hcounted : Table.find Endpoint.id endpoint.id
      ((incrementRequestCount endpoint.id).apply store.db.endpoints) =
        some ((incrementRequestCount endpoint.id).assign endpoint) := by
    rw [(Writer.count endpoint.id).keepsKey.find_apply, hfind, Option.map_some,
      (incrementRequestCount endpoint.id).onRow_of_holds (by simp [incrementRequestCount])]
  have hown : captured.endpointId = endpoint.id := prepare_endpointId hprepare
  let found : State := { seen endpoint.id store with
    captures := setCapture (seen endpoint.id store) 0 (some (.found endpoint)) }
  let inserted : State := { found with
    captures := setCapture found 0 (some (.inserted captured))
    keyShares := {0} }
  let counted : State := { inserted with
    row := ⟨some endpoint, some ((incrementRequestCount endpoint.id).assign endpoint)⟩
    captures := setCapture inserted 0 (some (.counted captured)) }
  have hfound : step endpoint.id (seen endpoint.id store) (.find 0) = some found := by
    simp [step, seen, hfind, found]
  have hinserted : step endpoint.id found (.insert 0 env input) = some inserted := by
    simp [step, found, seen, hfind, setCapture, hprepare, inserted]
  have hupdated : inserted.row.update (incrementRequestCount captured.endpointId) =
      .updated ((incrementRequestCount endpoint.id).assign endpoint) := by
    simp [VersionedRow.update, inserted, found, seen, hfind, hown, incrementRequestCount]
  have hcount : step endpoint.id inserted (.count 0) = some counted := by
    have hsession : inserted.captures 0 = some (.inserted captured) := by
      simp [inserted, setCapture]
    simp only [step, hsession, hupdated]
    simp [counted, inserted, found, seen, hfind, VersionedRow.write]
  have hcommit : step endpoint.id counted (.commit 0) = some (seen endpoint.id
      (capture env fault token input store).2) := by
    have hsession : counted.captures 0 = some (.counted captured) := by
      simp [counted, setCapture]
    simp only [step, hsession]
    simp [counted, inserted, found, seen, VersionedRow.commit, hrequests, hendpoints, hcounted,
      setCapture]
  refine Or.inr ⟨[⟨counted, .commit 0, seen endpoint.id (capture env fault token input store).2⟩,
    ⟨inserted, .count 0, counted⟩, ⟨found, .insert 0 env input, inserted⟩,
    ⟨seen endpoint.id store, .find 0, found⟩], ?_⟩
  simp only [play, hfound, hinserted, hcount, hcommit]

def fresh : Endpoint := { sampleEndpoint with requestCount := 0 }

/-- A PATCH that has read the row before a capture increments it, and writes it afterwards. -/
def staleWrite : List Action :=
  [.config (.read 0 ConfigUpdates.sampleEncryption ConfigUpdates.signaturePatch), .find 1,
    .insert 1 (CaptureRequest.sampleCollaborators (.returns ()))
      (CaptureRequest.sampleInput (encodeUtf8 "ping")),
    .count 1, .commit 1, .config (.write 0), .config (.commit 0)]

theorem stale_write_counts : ∃ ms s c, Run (Steps (step fresh.id)) (start fresh) ms s ∧
    s.row.committed = some c ∧ s.requests.length = 1 ∧
    c.requestCount = (rowsOf fresh.id s.requests).length := by
  have hends : (play (step fresh.id) [] (start fresh) staleWrite).map (fun last =>
      (last.2.row.committed.isSome, last.2.requests.length)) = some (true, 1) := by
    decide +kernel
  obtain ⟨⟨ms, s⟩, hplay, hlast⟩ := Option.map_eq_some_iff.mp hends
  obtain ⟨hcommitted, hone⟩ := Prod.mk.inj hlast
  obtain ⟨c, hc⟩ := Option.isSome_iff_exists.mp hcommitted
  exact ⟨ms, s, c, Run.of_play hplay, hc, hone,
    requestCount_eq fresh rfl ms s (Run.of_play hplay) c hc⟩

end Hooktrace.RequestCount
