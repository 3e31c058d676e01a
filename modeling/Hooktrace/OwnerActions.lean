import Hooktrace.Database

/-!
The two actions that an owner takes on a single forward. Each is one conditional update
under the endpoint of the token, and refused when it returns no row.
-/
namespace Hooktrace.OwnerActions

open Table Database ForwardRepository

inductive Failure where
  | endpointNotFound (message : String)
  | forwardNotRetryable (message : String)
  | forwardNotFound (message : String)
  deriving DecidableEq

def onForward (token : String) (statement : UUID → Update Forward) (refusal : Failure)
    (db : Database) : Except Failure (Database × Forward) :=
  match EndpointRepository.findByToken token db.endpoints with
  | none => .error (.endpointNotFound token)
  | some endpoint =>
    match ((statement endpoint.id).returning db.forwards).head? with
    | none => .error refusal
    | some row => .ok (db.updateForwards (statement endpoint.id), row)

/-- `RetryForward.execute`. -/
def retryForward (token : String) (forwardId : UUID) (now : Datetime) (db : Database) :
    Except Failure (Database × Forward) :=
  onForward token (fun endpointId => claimForManualRetry forwardId endpointId now)
    (.forwardNotRetryable s!"forward {forwardId.str} not retryable under endpoint {token}") db

/-- `AbandonForward.execute`. -/
def abandonForward (token : String) (forwardId : UUID) (now : Datetime) (db : Database) :
    Except Failure (Database × Forward) :=
  onForward token (fun endpointId => abandon forwardId endpointId now)
    (.forwardNotFound s!"forward {forwardId.str} not found under endpoint {token}") db

section Lemmas

variable {token : String} {statement : UUID → Update Forward} {refusal : Failure}
variable {db db' : Database} {endpoint : Endpoint} {row : Forward}

theorem onForward_ok
    (hendpoint : EndpointRepository.findByToken token db.endpoints = some endpoint)
    (h : onForward token statement refusal db = .ok (db', row)) :
    db' = db.updateForwards (statement endpoint.id) ∧
      ∃ f ∈ db.forwards, (statement endpoint.id).holds f = true ∧
        row = (statement endpoint.id).assign f := by
  simp only [onForward, hendpoint] at h
  split at h
  · simp at h
  · rename_i claimed hclaimed
    obtain ⟨rfl, rfl⟩ := Prod.mk.inj (Except.ok.inj h)
    obtain ⟨f, hf, hreturned⟩ := List.mem_filterMap.mp (List.mem_of_head? hclaimed)
    refine ⟨rfl, f, hf, ?_⟩
    rcases (statement endpoint.id).returningRow_cases (r := f) Iff.rfl with
      ⟨hholds, hsome⟩ | ⟨-, hnone⟩
    · exact ⟨hholds, Option.some.inj (hreturned.symm.trans hsome)⟩
    · simp [hnone] at hreturned

/-- No row that the statement may touch: it is refused, whatever rows there are besides. -/
theorem onForward_refused
    (hendpoint : EndpointRepository.findByToken token db.endpoints = some endpoint)
    (h : ∀ f ∈ db.forwards, (statement endpoint.id).holds f = false) :
    onForward token statement refusal db = .error refusal := by
  have hnone : (statement endpoint.id).returning db.forwards = [] := by
    refine List.filterMap_eq_nil_iff.mpr fun f hf => ?_
    simp [Update.returningRow, h f hf]
  simp [onForward, hendpoint, hnone]

/-- An id of another endpoint is answered like one that no row has. -/
theorem retryForward_refused {forwardId : UUID} {now : Datetime}
    (hendpoint : EndpointRepository.findByToken token db.endpoints = some endpoint)
    (h : ∀ f ∈ db.forwards, f.id = forwardId → f.endpointId ≠ endpoint.id) :
    retryForward token forwardId now db = .error
      (.forwardNotRetryable s!"forward {forwardId.str} not retryable under endpoint {token}") := by
  refine onForward_refused hendpoint fun f hf => ?_
  rw [Bool.eq_false_iff, ne_eq, claimForManualRetry_holds]
  exact fun hholds => h f hf hholds.1 hholds.2.1

theorem abandonForward_refused {forwardId : UUID} {now : Datetime}
    (hendpoint : EndpointRepository.findByToken token db.endpoints = some endpoint)
    (h : ∀ f ∈ db.forwards, f.id = forwardId → f.endpointId ≠ endpoint.id) :
    abandonForward token forwardId now db = .error
      (.forwardNotFound s!"forward {forwardId.str} not found under endpoint {token}") := by
  refine onForward_refused hendpoint fun f hf => ?_
  rw [Bool.eq_false_iff, ne_eq, abandon_holds]
  exact fun hholds => h f hf hholds.1 hholds.2.1

end Lemmas

end Hooktrace.OwnerActions
