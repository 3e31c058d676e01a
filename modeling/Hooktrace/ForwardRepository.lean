import Hooktrace.ForwardDecision
import Hooktrace.Keyset

/-!
The statements of the forward repository. Every writer is one conditional update,
so its WHERE clause and its assignment are given separately and act on a single row
or on the whole table alike; the readers select ids from the table. A comparison
with a NULL column is never true.
-/
namespace Hooktrace.ForwardRepository

open Table ForwardDecision

/-- The arguments that `record_outcome` is called with. -/
structure Outcome where
  nextStatus : NextStatus
  finalStatusCode : Option ℕ
  finalError : Option String
  nextAttemptAt : Option Datetime
  deriving DecidableEq

/-- `column < t` and `column <= t` on a nullable column. -/
def nullLt (column : Option Datetime) (t : Datetime) : Bool :=
  match column with
  | some c => c < t
  | none => false

def nullLe (column : Option Datetime) (t : Datetime) : Bool :=
  match column with
  | some c => c ≤ t
  | none => false

def claimForAttempt (forwardId : UUID) (now : Datetime) : Update Forward where
  holds r := r.id = forwardId ∧ r.status.Claimable
  assign r := { r with
    status := .inFlight
    attemptCount := r.attemptCount + 1
    lastAttemptAt := some now
    forwardStartedAt := some now }

/-- The row is addressed by its id alone. -/
def recordOutcome (forwardId : UUID) (outcome : Outcome) (now : Datetime) : Update Forward where
  holds r := r.id = forwardId
  assign r := { r with
    status := outcome.nextStatus.toStatus
    finalStatusCode := outcome.finalStatusCode
    finalError := outcome.finalError
    nextAttemptAt := outcome.nextAttemptAt
    forwardCompletedAt := match outcome.nextStatus with
      | .succeeded => some now
      | .dead => some now
      | .failed => none }

def claimForManualRetry (forwardId endpointId : UUID) (now : Datetime) : Update Forward where
  holds r := r.id = forwardId ∧ r.endpointId = endpointId ∧
    (r.status = .failed ∨ r.status = .dead ∨ r.status = .abandoned)
  assign r := { r with
    status := .pending
    attemptCount := if r.status = .dead ∨ r.status = .abandoned
      then max 0 (maxAttempts - 1) else r.attemptCount
    manualRetryAt := some now
    nextAttemptAt := some now
    finalError := none
    finalStatusCode := none
    forwardCompletedAt := none }

def abandon (forwardId endpointId : UUID) (now : Datetime) : Update Forward where
  holds r := r.id = forwardId ∧ r.endpointId = endpointId ∧ ¬ r.status.Terminal
  assign r := { r with
    status := .abandoned
    forwardCompletedAt := some now
    finalError := some "manually abandoned by owner" }

def reclaimStuckInFlight (endpointId : UUID) (stuckThresholdSeconds : ℕ) (now : Datetime) :
    Update Forward where
  holds r := r.endpointId = endpointId ∧ r.status = .inFlight ∧
    nullLt r.forwardStartedAt (now - seconds stuckThresholdSeconds)
  assign r := { r with
    status := .failed
    nextAttemptAt := some now }

/-- The WHERE clause of `redrive_stuck_pending`. -/
def stuckPending (endpointId : UUID) (stuckThresholdSeconds : ℕ) (now : Datetime)
    (r : Forward) : Bool :=
  r.endpointId = endpointId ∧ r.status = .pending ∧
    r.createdAt < now - seconds stuckThresholdSeconds

def redriveStuckPending (endpointId : UUID) (stuckThresholdSeconds : ℕ) (now : Datetime)
    (forwards : List Forward) : List UUID :=
  ((forwards.filter (stuckPending endpointId stuckThresholdSeconds now)).mergeSort
    (fun r r' => r.createdAt ≤ r'.createdAt)).map Forward.id

/-- The WHERE clause of `list_overdue_failed`. -/
def overdueFailed (endpointId : UUID) (now : Datetime) (r : Forward) : Bool :=
  r.endpointId = endpointId ∧ r.status = .failed ∧ r.nextAttemptAt.isSome ∧
    nullLe r.nextAttemptAt now

def listOverdueFailed (endpointId : UUID) (now : Datetime) (forwards : List Forward) :
    List UUID :=
  ((forwards.filter (overdueFailed endpointId now)).mergeSort
    (fun r r' => r.nextAttemptAt.getD 0 ≤ r'.nextAttemptAt.getD 0)).map Forward.id

/-- `save`: an INSERT, rejected when the id is taken. -/
def save (forward : Forward) (forwards : List Forward) : Option (List Forward) :=
  Table.insert Forward.id forward forwards

def findById (forwardId : UUID) (forwards : List Forward) : Option Forward :=
  Table.find Forward.id forwardId forwards

def listingColumns : Keyset.Columns Forward UUID UUID Datetime where
  owner := Forward.endpointId
  key := Forward.id
  time := Forward.createdAt

/-- `if statuses:`, any texts; the server rejects one that contains a NUL. -/
def inStatuses (statuses : List String) : Option (Forward → Bool) :=
  if statuses.isEmpty then some fun _ => true
  else if statuses.any (fun name => '\x00' ∈ name.toList) then none
  else some fun r => r.status.text ∈ statuses

def listByEndpoint (endpointId : UUID) (statuses : Option (List String)) (limit : ℤ)
    (beforeId : Option UUID) (forwards : List Forward) : Option (List Forward) :=
  Keyset.query listingColumns endpointId (inStatuses (statuses.getD [])) limit beforeId forwards

theorem nullLt_eq_true {column : Option Datetime} {t : Datetime} :
    nullLt column t = true ↔ ∃ c, column = some c ∧ c < t := by
  cases column <;> simp [nullLt]

theorem nullLe_eq_true {column : Option Datetime} {t : Datetime} :
    nullLe column t = true ↔ ∃ c, column = some c ∧ c ≤ t := by
  cases column <;> simp [nullLe]

section Holds

variable {r : Forward} {forwardId endpointId : UUID} {now : Datetime}

@[simp] theorem claimForAttempt_holds :
    (claimForAttempt forwardId now).holds r = true ↔ r.id = forwardId ∧ r.status.Claimable := by
  simp [claimForAttempt]

@[simp] theorem recordOutcome_holds {outcome : Outcome} :
    (recordOutcome forwardId outcome now).holds r = true ↔ r.id = forwardId := by
  simp [recordOutcome]

@[simp] theorem claimForManualRetry_holds :
    (claimForManualRetry forwardId endpointId now).holds r = true ↔
      r.id = forwardId ∧ r.endpointId = endpointId ∧
        (r.status = .failed ∨ r.status = .dead ∨ r.status = .abandoned) := by
  simp [claimForManualRetry]

@[simp] theorem abandon_holds :
    (abandon forwardId endpointId now).holds r = true ↔
      r.id = forwardId ∧ r.endpointId = endpointId ∧ ¬ r.status.Terminal := by
  simp [abandon]

@[simp] theorem reclaimStuckInFlight_holds {threshold : ℕ} :
    (reclaimStuckInFlight endpointId threshold now).holds r = true ↔
      r.endpointId = endpointId ∧ r.status = .inFlight ∧
        ∃ t, r.forwardStartedAt = some t ∧ t < now - seconds threshold := by
  simp [reclaimStuckInFlight, nullLt_eq_true]

theorem stuckPending_eq_true {threshold : ℕ} :
    stuckPending endpointId threshold now r = true ↔
      r.endpointId = endpointId ∧ r.status = .pending ∧
        r.createdAt < now - seconds threshold := by
  simp [stuckPending]

theorem overdueFailed_eq_true :
    overdueFailed endpointId now r = true ↔
      r.endpointId = endpointId ∧ r.status = .failed ∧
        ∃ t, r.nextAttemptAt = some t ∧ t ≤ now := by
  simp only [overdueFailed, nullLe_eq_true, Bool.decide_and, Bool.and_eq_true,
    decide_eq_true_eq]
  constructor
  · intro hwhere
    obtain ⟨he, hs, -, hn⟩ := hwhere
    exact ⟨he, hs, hn⟩
  · intro hdue
    obtain ⟨he, hs, t, ht, hle⟩ := hdue
    exact ⟨he, hs, by simp [ht], t, ht, hle⟩

end Holds

theorem mem_redriveStuckPending {endpointId id : UUID} {threshold : ℕ} {now : Datetime}
    {forwards : List Forward} :
    id ∈ redriveStuckPending endpointId threshold now forwards ↔
      ∃ r ∈ forwards, r.id = id ∧ stuckPending endpointId threshold now r = true :=
  mem_keys_of_perm_filter (List.mergeSort_perm _ _)

theorem mem_listOverdueFailed {endpointId id : UUID} {now : Datetime}
    {forwards : List Forward} :
    id ∈ listOverdueFailed endpointId now forwards ↔
      ∃ r ∈ forwards, r.id = id ∧ overdueFailed endpointId now r = true :=
  mem_keys_of_perm_filter (List.mergeSort_perm _ _)

/-- No statement moves a row to another id, request, endpoint, target or creation time. -/
structure SameOrigin (r r' : Forward) : Prop where
  id_eq : r'.id = r.id
  request_eq : r'.requestId = r.requestId
  endpoint_eq : r'.endpointId = r.endpointId
  target_eq : r'.targetUrl = r.targetUrl
  created_eq : r'.createdAt = r.createdAt

theorem SameOrigin.refl (r : Forward) : SameOrigin r r := ⟨rfl, rfl, rfl, rfl, rfl⟩

theorem SameOrigin.trans {r r' r'' : Forward} (h : SameOrigin r r') (h' : SameOrigin r' r'') :
    SameOrigin r r'' where
  id_eq := h'.id_eq.trans h.id_eq
  request_eq := h'.request_eq.trans h.request_eq
  endpoint_eq := h'.endpoint_eq.trans h.endpoint_eq
  target_eq := h'.target_eq.trans h.target_eq
  created_eq := h'.created_eq.trans h.created_eq

inductive Writer : Update Forward → Prop
  | claim (id : UUID) (now : Datetime) : Writer (claimForAttempt id now)
  | record (id : UUID) (outcome : Outcome) (now : Datetime) :
      Writer (recordOutcome id outcome now)
  | manualRetry (id endpointId : UUID) (now : Datetime) :
      Writer (claimForManualRetry id endpointId now)
  | abandon (id endpointId : UUID) (now : Datetime) : Writer (abandon id endpointId now)
  | reclaim (endpointId : UUID) (threshold : ℕ) (now : Datetime) :
      Writer (reclaimStuckInFlight endpointId threshold now)

theorem Writer.sameOrigin {u : Update Forward} (h : Writer u) (r : Forward) :
    SameOrigin r (u.assign r) := by
  cases h <;> exact ⟨rfl, rfl, rfl, rfl, rfl⟩

theorem Writer.sameOrigin_onRow {u : Update Forward} (h : Writer u) (r : Forward) :
    SameOrigin r (u.onRow r) := by
  unfold Update.onRow
  split
  · exact h.sameOrigin r
  · exact .refl r

theorem Writer.keepsKey {u : Update Forward} (h : Writer u) : KeepsKey Forward.id u :=
  fun r => (h.sameOrigin r).id_eq

end Hooktrace.ForwardRepository
