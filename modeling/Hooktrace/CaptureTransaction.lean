import Hooktrace.CaptureRequest
import Hooktrace.Database
import Hooktrace.Transaction

/-!
A capture in the session that its dependency commits. The forward is saved last, and its failure
is caught; what was written before it is stored with it or not at all.
-/
namespace Hooktrace.CaptureTransaction

open CaptureRequest (Collaborators Input prepare prepare_congr prepare_ping sampleCaptured
  sampleInput)
open EndpointRepository (findByToken incrementRequestCount)
open ExecuteForward (Interrupt PyError)
open SignatureValidators (given)
open Table Transaction

/-- The tables, and the payloads that listeners of `new_request` have got. -/
structure Store where
  db : Database
  notified : List String

inductive Failure where
  | endpointNotFound (token : String)
  | interrupted (interrupt : Interrupt)

def raised (name : String) : Failure := .interrupted (.raised (.other name))

/-- What a session answers once its flush has failed. -/
def pendingRollback : Failure := raised "PendingRollbackError"

abbrev SessionWork (α : Type) := Work Store Failure α

/-- An INSERT; `save` is `none` where a constraint rejects the row. -/
def insert (save : Database → Option Database) (store : Store) : Except Failure Store :=
  match save store.db with
  | some db => .ok { store with db }
  | none => .error (raised "IntegrityError")

def payload (request : CapturedRequest) : String := s!"{request.endpointId.str}:{request.id.str}"

def notify (request : CapturedRequest) (store : Store) : Except Failure Store :=
  .ok { store with notified := store.notified ++ [payload request] }

def increment (endpointId : UUID) (store : Store) : Except Failure Store :=
  .ok { store with db := store.db.updateEndpoints (incrementRequestCount endpointId) }

/-- The INSERT and the NOTIFY of `request_repo.save`. -/
def saveRequest (request : CapturedRequest) : SessionWork Unit := do
  Work.execute pendingRollback (insert (Database.saveRequest request))
  Work.execute pendingRollback (notify request)

/-- Where `forward_repo.save` raises, apart from a constraint: before the flush, or in it. -/
inductive SaveFault where
  | beforeFlush (error : PyError)
  | inFlush (error : PyError)

def saveForward (fault : Option SaveFault) (forward : Forward) : SessionWork Unit :=
  match fault with
  | some (.beforeFlush error) => Work.raise (.interrupted (.raised error))
  | some (.inFlush error) =>
    Work.execute pendingRollback fun _ => .error (.interrupted (.raised error))
  | none => Work.execute pendingRollback (insert (Database.saveForward forward))

/-- `except Exception`; the cancellation is none. -/
def exceptException : Failure → Option (SessionWork (Option UUID))
  | .interrupted .cancelled => none
  | _ => some (pure none)

def newForward (env : Collaborators) (endpoint : Endpoint) (captured : CapturedRequest)
    (url : String) : Forward :=
  Forward.create env.forwardId captured.id endpoint.id url env.forwardedAt

/-- The block `if endpoint.forward_url:`. -/
def forwardPhase (env : Collaborators) (fault : Option SaveFault) (endpoint : Endpoint)
    (captured : CapturedRequest) : SessionWork (Option UUID) :=
  match given endpoint.forwardUrl with
  | none => pure none
  | some url =>
    let forward := newForward env endpoint captured url
    Work.attempt (do
      saveForward fault forward
      pure (some forward.id)) exceptException

/-- `CaptureRequestResult`. -/
structure Result where
  captured : CapturedRequest
  endpoint : Endpoint
  pendingForwardId : Option UUID

/-- `CaptureRequest.execute`. -/
def execute (env : Collaborators) (fault : Option SaveFault) (token : String) (input : Input) :
    SessionWork Result := do
  let found ← Work.select pendingRollback fun store => findByToken token store.db.endpoints
  match found with
  | none => Work.raise (.endpointNotFound token)
  | some endpoint => do
    let captured ← Work.ofExcept ((prepare env endpoint input).mapError .interrupted)
    saveRequest captured
    Work.execute pendingRollback (increment endpoint.id)
    let pendingForwardId ← forwardPhase env fault endpoint captured
    pure ⟨captured, endpoint, pendingForwardId⟩

/-- The use case inside `get_session`. -/
def capture (env : Collaborators) (fault : Option SaveFault) (token : String) (input : Input)
    (store : Store) : Except Failure Result × Store :=
  Work.transaction pendingRollback (execute env fault token input) store

def clearForwardUrl (token : String) : Update Endpoint where
  holds r := r.token = token
  assign r := { r with forwardUrl := none }

def withoutForward (token : String) (store : Store) : Store :=
  { store with db := store.db.updateEndpoints (clearForwardUrl token) }

/-- No forward is returned, and what is stored is what would be without a forward_url. -/
def Survives (env : Collaborators) (fault : Option SaveFault) (token : String) (input : Input)
    (store : Store) : Prop :=
  (∃ result, ((execute env fault token input).run ⟨store, false⟩).1 = .ok result ∧
    result.pendingForwardId = none) ∧
  withoutForward token (capture env fault token input store).2 =
    (capture env fault token input (withoutForward token store)).2

def recorded (endpointId : UUID) (request : CapturedRequest) (db : Database) (store : Store) :
    Store :=
  ⟨db.updateEndpoints (incrementRequestCount endpointId), store.notified ++ [payload request]⟩

section Run

variable {env : Collaborators} {fault : Option SaveFault} {token : String} {input : Input}
variable {store : Store} {endpoint : Endpoint} {captured : CapturedRequest} {db : Database}

theorem execute_run (fault : Option SaveFault)
    (hendpoint : findByToken token store.db.endpoints = some endpoint)
    (hprepare : prepare env endpoint input = .ok captured)
    (hsave : store.db.saveRequest captured = some db) :
    (execute env fault token input).run ⟨store, false⟩ =
      ((forwardPhase env fault endpoint captured) >>= fun pendingForwardId =>
        pure (⟨captured, endpoint, pendingForwardId⟩ : Result)).run
          ⟨recorded endpoint.id captured db store, false⟩ := by
  have hinsert : insert (Database.saveRequest captured) store = .ok { store with db } := by
    simp [insert, hsave]
  have hrequest : (saveRequest captured).run ⟨store, false⟩ =
      (.ok (), ⟨⟨db, store.notified ++ [payload captured]⟩, false⟩) := by
    rw [saveRequest, Work.bind_run (Work.execute_run hinsert)]
    exact Work.execute_run rfl
  have hincrement : (Work.execute pendingRollback (increment endpoint.id)).run
      ⟨⟨db, store.notified ++ [payload captured]⟩, false⟩ =
        (.ok (), ⟨recorded endpoint.id captured db store, false⟩) :=
    Work.execute_run rfl
  unfold execute
  rw [Work.bind_run (Work.select_run _ _ _), hendpoint]
  dsimp only
  rw [hprepare, Except.mapError]
  rw [Work.bind_run (Work.ofExcept_run _ _), Work.bind_run hrequest, Work.bind_run hincrement]

theorem forwardPhase_none (h : given endpoint.forwardUrl = none) :
    forwardPhase env fault endpoint captured = pure none := by
  simp [forwardPhase, h]

/-- The save of the forward leaves the two other tables alone. -/
theorem saveForward_tables (fault : Option SaveFault) (forward : Forward) (t : Store) :
    ((saveForward fault forward).run ⟨t, false⟩).2.current.db.endpoints = t.db.endpoints ∧
      ((saveForward fault forward).run ⟨t, false⟩).2.current.db.requests = t.db.requests := by
  cases fault with
  | some fault => cases fault <;> exact ⟨rfl, rfl⟩
  | none =>
    cases hinsert : insert (Database.saveForward forward) t with
    | error failure => simp [saveForward, Work.execute_rejected hinsert]
    | ok t' =>
      rw [saveForward, Work.execute_run hinsert]
      unfold insert at hinsert
      split at hinsert
      · rename_i db hsave
        obtain rfl := Except.ok.inj hinsert
        rw [(Database.save_eq_some hsave).1]
        exact ⟨rfl, rfl⟩
      · simp at hinsert

theorem forwardPhase_tables (env : Collaborators) (fault : Option SaveFault)
    (endpoint : Endpoint) (captured : CapturedRequest) (t : Store) :
    ((forwardPhase env fault endpoint captured).run ⟨t, false⟩).2.current.db.endpoints =
        t.db.endpoints ∧
      ((forwardPhase env fault endpoint captured).run ⟨t, false⟩).2.current.db.requests =
        t.db.requests := by
  cases hurl : given endpoint.forwardUrl with
  | none => simp [forwardPhase_none hurl]
  | some url =>
    have hsaved := saveForward_tables fault (newForward env endpoint captured url) t
    simp only [forwardPhase, hurl]
    rcases hrun : (saveForward fault (newForward env endpoint captured url)).run ⟨t, false⟩ with
      ⟨result, s⟩
    rw [hrun] at hsaved
    cases result with
    | ok saved =>
      rw [Work.attempt_returned (Work.bind_run hrun)]
      exact hsaved
    | error failure =>
      cases hhandler : exceptException failure with
      | none =>
        rw [Work.attempt_uncaught (Work.bind_raised hrun) hhandler]
        exact hsaved
      | some caught =>
        have hcaught : caught = pure none := by
          unfold exceptException at hhandler
          split at hhandler
          · simp at hhandler
          · exact (Option.some.inj hhandler).symm
        rw [Work.attempt_caught (Work.bind_raised hrun) hhandler, hcaught, Work.pure_run]
        exact hsaved

/-- A capture stores nothing, or its request and the counter that goes with it. -/
theorem capture_cases (fault : Option SaveFault)
    (hendpoint : findByToken token store.db.endpoints = some endpoint) :
    (capture env fault token input store).2 = store ∨
      ∃ captured, prepare env endpoint input = .ok captured ∧
        (capture env fault token input store).2.db.requests = store.db.requests ++ [captured] ∧
        (capture env fault token input store).2.db.endpoints =
          (incrementRequestCount endpoint.id).apply store.db.endpoints := by
  cases hprepare : prepare env endpoint input with
  | error interrupt =>
    have hraised : (execute env fault token input).run ⟨store, false⟩ =
        (.error (.interrupted interrupt), ⟨store, false⟩) := by
      unfold execute
      rw [Work.bind_run (Work.select_run _ _ _), hendpoint]
      dsimp only
      rw [hprepare, Except.mapError]
      exact Work.bind_raised (Work.ofExcept_run _ _)
    exact Or.inl (Work.transaction_of_raised hraised)
  | ok captured =>
    cases hsave : store.db.saveRequest captured with
    | none =>
      have hinsert : insert (Database.saveRequest captured) store =
          .error (raised "IntegrityError") := by
        simp [insert, hsave]
      have hraised : (execute env fault token input).run ⟨store, false⟩ =
          (.error (raised "IntegrityError"), ⟨store, true⟩) := by
        unfold execute
        rw [Work.bind_run (Work.select_run _ _ _), hendpoint]
        dsimp only
        rw [hprepare, Except.mapError, Work.bind_run (Work.ofExcept_run _ _)]
        exact Work.bind_raised (Work.bind_raised (Work.execute_rejected hinsert))
      exact Or.inl (Work.transaction_of_raised hraised)
    | some db =>
      have hcurrent : ((execute env fault token input).run ⟨store, false⟩).2 =
          ((forwardPhase env fault endpoint captured).run
            ⟨recorded endpoint.id captured db store, false⟩).2 := by
        rw [execute_run fault hendpoint hprepare hsave, Work.bind_pure_session]
      rcases Work.transaction_cases pendingRollback (execute env fault token input) store with
        hnothing | hstored
      · exact Or.inl hnothing
      · obtain ⟨hendpoints, hrequests⟩ := forwardPhase_tables env fault endpoint captured
          (recorded endpoint.id captured db store)
        have hput : db = store.db.put (.request captured) := (Database.save_eq_some hsave).1
        refine Or.inr ⟨captured, rfl, ?_, ?_⟩
        · rw [capture, hstored, hcurrent, hrequests, hput]
          rfl
        · rw [capture, hstored, hcurrent, hendpoints, hput]
          rfl

/-- A failure of the save is swallowed; what it did to the session stays. -/
theorem forwardPhase_failed {url : String} {s s' : Session Store} {error : PyError}
    (hurl : given endpoint.forwardUrl = some url)
    (h : (saveForward fault (newForward env endpoint captured url)).run s =
      (.error (.interrupted (.raised error)), s')) :
    (forwardPhase env fault endpoint captured).run s = (.ok none, s') := by
  simp only [forwardPhase, hurl]
  rw [Work.attempt_caught (y := pure none) (Work.bind_raised h) rfl, Work.pure_run]

theorem saveForward_failed {forward : Forward} {t : Store} {failure : Failure}
    (h : ((saveForward fault forward).run ⟨t, false⟩).1 = .error failure) :
    ∃ error, ((∃ e, fault = some (.beforeFlush e)) ∧
        (saveForward fault forward).run ⟨t, false⟩ =
          (.error (.interrupted (.raised error)), ⟨t, false⟩)) ∨
      ((¬ ∃ e, fault = some (.beforeFlush e)) ∧
        (saveForward fault forward).run ⟨t, false⟩ =
          (.error (.interrupted (.raised error)), ⟨t, true⟩)) := by
  cases fault with
  | none =>
    cases hinsert : insert (Database.saveForward forward) t with
    | ok t' => simp [saveForward, Work.execute_run hinsert] at h
    | error failure' =>
      have hrejected : failure' = raised "IntegrityError" := by
        unfold insert at hinsert
        split at hinsert
        · simp at hinsert
        · simpa using hinsert.symm
      subst hrejected
      exact ⟨_, Or.inr ⟨by simp, Work.execute_rejected hinsert⟩⟩
  | some fault =>
    cases fault with
    | beforeFlush error => exact ⟨error, Or.inl ⟨⟨error, rfl⟩, rfl⟩⟩
    | inFlush error => exact ⟨error, Or.inr ⟨by simp, rfl⟩⟩

theorem clearForwardUrl_keepsKey : KeepsKey Endpoint.id (clearForwardUrl token) := fun _ => rfl

/-- What is recorded of a request does not depend on the forward_url. -/
theorem withoutForward_recorded (db : Database) :
    withoutForward token (recorded endpoint.id captured db store) =
      recorded endpoint.id captured (db.updateEndpoints (clearForwardUrl token))
        (withoutForward token store) := by
  have hcomm := (clearForwardUrl token).apply_comm (v := incrementRequestCount endpoint.id)
    (fun _ => rfl) (fun _ => rfl) (fun _ => rfl) db.endpoints
  simp only [withoutForward, recorded, Database.updateEndpoints, hcomm]

theorem capture_withoutForward (fault : Option SaveFault)
    (hendpoint : findByToken token store.db.endpoints = some endpoint)
    (hprepare : prepare env endpoint input = .ok captured)
    (hsave : store.db.saveRequest captured = some db) :
    (capture env fault token input (withoutForward token store)).2 =
      withoutForward token (recorded endpoint.id captured db store) := by
  have htoken : endpoint.token = token := by simpa using List.find?_some hendpoint
  have hcleared : findByToken token (withoutForward token store).db.endpoints =
      some { endpoint with forwardUrl := none } := by
    have hfind := (clearForwardUrl token).find?_apply
      (p := fun r => decide (r.token = token)) (fun _ => rfl) store.db.endpoints
    have hrow : (clearForwardUrl token).onRow endpoint = { endpoint with forwardUrl := none } :=
      (clearForwardUrl token).onRow_of_holds (by simp [clearForwardUrl, htoken])
    simp only [findByToken] at hendpoint ⊢
    rw [← hrow, ← Option.map_some, ← hendpoint]
    exact hfind
  have hprepared : prepare env { endpoint with forwardUrl := none } input = .ok captured :=
    (prepare_congr rfl rfl rfl).trans hprepare
  have hput : db = store.db.put (.request captured) := (Database.save_eq_some hsave).1
  have hsaved : (withoutForward token store).db.saveRequest captured =
      some (db.updateEndpoints (clearForwardUrl token)) := by
    rw [hput]
    exact Database.save_updateEndpoints clearForwardUrl_keepsKey hsave
  have hrun := execute_run fault hcleared hprepared hsaved
  rw [forwardPhase_none rfl, Work.bind_run (Work.pure_run _ _)] at hrun
  rw [capture, Work.transaction_of_ok hrun, withoutForward_recorded]

/-- A failed save costs the capture unless it raises before the flush. -/
theorem survives_iff {url : String} {failure : Failure}
    (hendpoint : findByToken token store.db.endpoints = some endpoint)
    (hurl : given endpoint.forwardUrl = some url)
    (hprepare : prepare env endpoint input = .ok captured)
    (hsave : store.db.saveRequest captured = some db)
    (hfails : ((saveForward fault (newForward env endpoint captured url)).run
      ⟨recorded endpoint.id captured db store, false⟩).1 = .error failure) :
    Survives env fault token input store ↔ ∃ error, fault = some (.beforeFlush error) := by
  have hrun := execute_run fault hendpoint hprepare hsave
  have hreference := capture_withoutForward fault hendpoint hprepare hsave
  obtain ⟨error, ⟨hbefore, hforward⟩ | ⟨hflush, hforward⟩⟩ := saveForward_failed hfails
  · rw [Work.bind_run (forwardPhase_failed hurl hforward), Work.pure_run] at hrun
    refine iff_of_true ⟨⟨_, by rw [hrun], rfl⟩, ?_⟩ hbefore
    rw [hreference, capture, Work.transaction_of_ok hrun]
  · rw [Work.bind_run (forwardPhase_failed hurl hforward), Work.pure_run] at hrun
    refine iff_of_false ?_ hflush
    intro hsurvives
    have hstore := hsurvives.2
    rw [hreference, capture, Work.transaction_of_failed hrun] at hstore
    have hrequests := congrArg (fun store => store.db.requests.length) hstore
    simp [withoutForward, recorded, (Database.save_eq_some hsave).1, Database.put,
      Database.updateEndpoints] at hrequests

end Run

def sampleStore : Store := ⟨⟨[sampleEndpoint], [], [], []⟩, []⟩

theorem raised_before_flush_survives :
    Survives (CaptureRequest.sampleCollaborators (.returns ()))
      (some (.beforeFlush (.other "RuntimeError"))) "tok" (sampleInput (encodeUtf8 "ping"))
      sampleStore := by
  have hendpoint : findByToken "tok" sampleStore.db.endpoints = some sampleEndpoint := by
    decide +kernel
  have hsave : sampleStore.db.saveRequest (sampleCaptured (some "ping") none 4) =
      some (sampleStore.db.put (.request (sampleCaptured (some "ping") none 4))) := by
    rw [Database.saveRequest, Database.save, if_pos (by decide +kernel)]
  exact (survives_iff hendpoint rfl prepare_ping hsave rfl).mpr ⟨_, rfl⟩

/-- The INSERT of the forward fails, and the request is not there; without a forward_url it is. -/
theorem flush_failure_loses_capture :
    (capture (CaptureRequest.sampleCollaborators (.returns ()))
      (some (.inFlush (.other "OperationalError"))) "tok" (sampleInput (encodeUtf8 "ping"))
      sampleStore).2.db.requests = [] ∧
    (capture (CaptureRequest.sampleCollaborators (.returns ()))
      (some (.inFlush (.other "OperationalError"))) "tok" (sampleInput (encodeUtf8 "ping"))
      (withoutForward "tok" sampleStore)).2.db.requests =
        [sampleCaptured (some "ping") none 4] ∧
    ¬ Survives (CaptureRequest.sampleCollaborators (.returns ()))
      (some (.inFlush (.other "OperationalError"))) "tok" (sampleInput (encodeUtf8 "ping"))
      sampleStore := by
  have hlost : (capture (CaptureRequest.sampleCollaborators (.returns ()))
      (some (.inFlush (.other "OperationalError"))) "tok" (sampleInput (encodeUtf8 "ping"))
      sampleStore).2.db.requests = [] := by
    decide +kernel
  have hkept : (capture (CaptureRequest.sampleCollaborators (.returns ()))
      (some (.inFlush (.other "OperationalError"))) "tok" (sampleInput (encodeUtf8 "ping"))
      (withoutForward "tok" sampleStore)).2.db.requests =
        [sampleCaptured (some "ping") none 4] := by
    decide +kernel
  refine ⟨hlost, hkept, ?_⟩
  intro hsurvives
  have hrequests := congrArg (fun store => store.db.requests) hsurvives.2
  exact absurd (hlost.symm.trans (hrequests.trans hkept)) (by simp)

end Hooktrace.CaptureTransaction
