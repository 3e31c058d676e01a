import Hooktrace.JobRuns
import Hooktrace.RedriveSweep

/-!
The table of all forwards with the workers of all of them. Every statement acts on the
whole table. Seen from one row a run of the store is a run of the row machine (`row_run`):
a statement for another id leaves the row alone, and a worker of another forward is no
worker of this one. What is proved of the row machine holds of each row of the table.
-/
namespace Hooktrace.ForwardStore

open Table ForwardRepository ExecuteForward Transition Lifecycle JobRuns
open RedrivePendingForwards (stuckInFlightThresholdSeconds)

structure Store where
  forwards : List Forward
  workers : WorkerId → Option Forward

inductive Statement where
  | capture (id requestId endpointId : UUID) (targetUrl : String) (now : Datetime)
  | claim (w : WorkerId) (id : UUID) (now : Datetime)
  | claimExpired (id : UUID) (now expiredAt : Datetime)
  | record (w : WorkerId) (answer : TargetAnswer) (decidedAt recordedAt : Datetime)
  | crash (w : WorkerId)
  | abandon (id endpointId : UUID) (now : Datetime)
  | manualRetry (id endpointId : UUID) (now : Datetime)
  | reclaim (endpointId : UUID) (now : Datetime)

def storeStep (s : Store) : Statement → Option Store
  | .capture id requestId endpointId targetUrl now =>
    (save (Forward.create id requestId endpointId targetUrl now) s.forwards).map
      fun forwards => { s with forwards }
  | .claim w id now =>
    if s.workers w = none then
      match ((claimForAttempt id now).returning s.forwards).head? with
      | none => some s
      | some claimed => some ⟨(claimForAttempt id now).apply s.forwards,
          Function.update s.workers w (some claimed)⟩
    else none
  | .claimExpired id now expiredAt =>
    match ((claimForAttempt id now).returning s.forwards).head? with
    | none => some s
    | some _ =>
      let claimed := (claimForAttempt id now).apply s.forwards
      some { s with forwards := (recordOutcome id expiredOutcome expiredAt).apply claimed }
  | .record w answer decidedAt recordedAt =>
    match s.workers w with
    | none => none
    | some claimed =>
      match recordCall claimed.attemptCount answer.result decidedAt with
      | none => some { s with workers := forget s.workers w }
      | some call => some ⟨(recordOutcome claimed.id call.outcome recordedAt).apply s.forwards,
          forget s.workers w⟩
  | .crash w =>
    match s.workers w with
    | none => none
    | some _ => some { s with workers := forget s.workers w }
  | .abandon id endpointId now =>
    some { s with forwards := (ForwardRepository.abandon id endpointId now).apply s.forwards }
  | .manualRetry id endpointId now =>
    some { s with forwards := (claimForManualRetry id endpointId now).apply s.forwards }
  | .reclaim endpointId now =>
    let update := reclaimStuckInFlight endpointId stuckInFlightThresholdSeconds now
    some { s with forwards := update.apply s.forwards }

def emptyStore : Store := ⟨[], fun _ => none⟩

def workersOf (workers : WorkerId → Option Forward) (id : UUID) : WorkerId → Option Forward :=
  fun w => (workers w).filter fun claimed => claimed.id = id

def rowState (s : Store) (id : UUID) (row : Forward) : State := ⟨row, workersOf s.workers id⟩

/-- The table is sound, and every worker's snapshot is one of a row of the table. -/
structure Consistent (s : Store) : Prop where
  sound : RedriveSweep.Sound s.forwards
  owned : ∀ w claimed, s.workers w = some claimed → (findById claimed.id s.forwards).isSome

inductive StoreEffect (s : Store) : Statement → Store → Prop
  | unmatched {a : Statement} : StoreEffect s a s
  | capture {id requestId endpointId : UUID} {targetUrl : String} {now : Datetime}
      {forwards : List Forward}
      (hsave : save (Forward.create id requestId endpointId targetUrl now) s.forwards =
        some forwards) :
      StoreEffect s (.capture id requestId endpointId targetUrl now) { s with forwards }
  | claim {w : WorkerId} {id : UUID} {now : Datetime} {claimed : Forward}
      (hidle : s.workers w = none)
      (hhead : ((claimForAttempt id now).returning s.forwards).head? = some claimed) :
      StoreEffect s (.claim w id now) ⟨(claimForAttempt id now).apply s.forwards,
        Function.update s.workers w (some claimed)⟩
  | claimExpired {id : UUID} {now expiredAt : Datetime} {claimed : Forward}
      (hhead : ((claimForAttempt id now).returning s.forwards).head? = some claimed) :
      StoreEffect s (.claimExpired id now expiredAt)
        ⟨(recordOutcome id expiredOutcome expiredAt).apply
          ((claimForAttempt id now).apply s.forwards), s.workers⟩
  | record {w : WorkerId} {answer : TargetAnswer} {decidedAt recordedAt : Datetime}
      {claimed : Forward} {call : RecordCall} (hw : s.workers w = some claimed)
      (hcall : recordCall claimed.attemptCount answer.result decidedAt = some call) :
      StoreEffect s (.record w answer decidedAt recordedAt)
        ⟨(recordOutcome claimed.id call.outcome recordedAt).apply s.forwards,
          forget s.workers w⟩
  | crash {w : WorkerId} {claimed : Forward} (hw : s.workers w = some claimed) :
      StoreEffect s (.crash w) { s with workers := forget s.workers w }
  | abandon {id endpointId : UUID} {now : Datetime} :
      StoreEffect s (.abandon id endpointId now)
        { s with forwards := (ForwardRepository.abandon id endpointId now).apply s.forwards }
  | manualRetry {id endpointId : UUID} {now : Datetime} :
      StoreEffect s (.manualRetry id endpointId now)
        { s with forwards := (claimForManualRetry id endpointId now).apply s.forwards }
  | reclaim {endpointId : UUID} {now : Datetime} :
      StoreEffect s (.reclaim endpointId now) ⟨(reclaimStuckInFlight endpointId
        stuckInFlightThresholdSeconds now).apply s.forwards, s.workers⟩

theorem storeStep_effect {s u : Store} {a : Statement} (hstep : storeStep s a = some u) :
    StoreEffect s a u := by
  cases a with
  | capture id requestId endpointId targetUrl now =>
    obtain ⟨forwards, hsave, rfl⟩ := Option.map_eq_some_iff.mp hstep
    exact .capture hsave
  | claim w id now =>
    simp only [storeStep] at hstep
    split at hstep
    · rename_i hidle
      split at hstep
      · obtain rfl := Option.some.inj hstep
        exact .unmatched
      · rename_i hhead
        obtain rfl := Option.some.inj hstep
        exact .claim hidle hhead
    · simp at hstep
  | claimExpired id now expiredAt =>
    simp only [storeStep] at hstep
    split at hstep
    · obtain rfl := Option.some.inj hstep
      exact .unmatched
    · rename_i hhead
      obtain rfl := Option.some.inj hstep
      exact .claimExpired hhead
  | record w answer decidedAt recordedAt =>
    simp only [storeStep] at hstep
    cases hw : s.workers w with
    | none => simp [hw] at hstep
    | some claimed =>
      obtain ⟨call, hcall⟩ := Option.isSome_iff_exists.mp
        (recordCall_isSome claimed.attemptCount answer.result decidedAt)
      simp only [hw, hcall] at hstep
      obtain rfl := Option.some.inj hstep
      exact .record hw hcall
  | crash w =>
    simp only [storeStep] at hstep
    cases hw : s.workers w with
    | none => simp [hw] at hstep
    | some claimed =>
      simp only [hw] at hstep
      obtain rfl := Option.some.inj hstep
      exact .crash hw
  | abandon id endpointId now =>
    obtain rfl := Option.some.inj hstep
    exact .abandon
  | manualRetry id endpointId now =>
    obtain rfl := Option.some.inj hstep
    exact .manualRetry
  | reclaim endpointId now =>
    obtain rfl := Option.some.inj hstep
    exact .reclaim

section Workers

variable {workers : WorkerId → Option Forward} {w : WorkerId} {claimed : Forward} {id : UUID}

theorem workersOf_idle (hidle : workers w = none) : workersOf workers id w = none := by
  simp [workersOf, hidle]

theorem workersOf_self (hw : workers w = some claimed) :
    workersOf workers claimed.id w = some claimed := by
  simp [workersOf, hw]

theorem workersOf_other (hw : workers w = some claimed) (hid : claimed.id ≠ id) :
    workersOf workers id w = none := by
  simp [workersOf, hw, hid]

theorem workersOf_update_self (workers : WorkerId → Option Forward) (w : WorkerId)
    (claimed : Forward) : workersOf (Function.update workers w (some claimed)) claimed.id =
      Function.update (workersOf workers claimed.id) w (some claimed) := by
  funext v
  by_cases hv : v = w
  · subst hv
    simp [workersOf]
  · simp [workersOf, hv]

theorem workersOf_update_other (hidle : workers w = none) (hid : claimed.id ≠ id) :
    workersOf (Function.update workers w (some claimed)) id = workersOf workers id := by
  funext v
  by_cases hv : v = w
  · subst hv
    simp [workersOf, hidle, hid]
  · simp [workersOf, hv]

theorem workersOf_forget : workersOf (forget workers w) id = forget (workersOf workers id) w := by
  funext v
  by_cases hv : v = w
  · subst hv
    simp [workersOf, forget]
  · simp [workersOf, forget, hv]

theorem forget_idle (hidle : workers w = none) : forget workers w = workers := by
  rw [forget, ← hidle, Function.update_eq_self]

end Workers

theorem findById_apply {u : Update Forward} (hu : Writer u) {id : UUID} {row : Forward}
    {forwards : List Forward} (hrow : findById id forwards = some row) :
    findById id (u.apply forwards) = some (u.onRow row) := by
  rw [findById, hu.keepsKey.find_apply]
  exact congrArg (Option.map u.onRow) hrow

theorem findById_id {id : UUID} {row : Forward} {forwards : List Forward}
    (hrow : findById id forwards = some row) : row.id = id := (mem_of_find hrow).2

/-- The forward's row and its workers stay, or take a step of the row machine. -/
def RowMoves (s u : Store) (id : UUID) : Prop :=
  ∀ row, findById id s.forwards = some row → ∃ row', findById id u.forwards = some row' ∧
    (rowState u id row' = rowState s id row ∨
      ∃ a, step (rowState s id row) a = some (rowState u id row'))

section Rows

variable {s u : Store} {id : UUID} {now : Datetime}

theorem returned_claim (hs : Consistent s) {claimed : Forward}
    (hhead : ((claimForAttempt id now).returning s.forwards).head? = some claimed) :
    ∃ row, findById id s.forwards = some row ∧ row.status.Claimable ∧
      claimed = claimedRow row now := by
  rw [head_returning (fun r hr => (claimForAttempt_holds.mp hr).1) hs.sound.unique] at hhead
  obtain ⟨row, hrow, hclaimed⟩ := Option.bind_eq_some_iff.mp hhead
  obtain rfl := findById_id hrow
  refine ⟨row, hrow, ?_⟩
  rcases Update.returningRow_cases _ (claimForAttempt_holds (r := row)) with
    ⟨hm, hreturn⟩ | ⟨_, hnone⟩
  · exact ⟨hm.2, Option.some.inj (hclaimed.symm.trans hreturn)⟩
  · simp [hnone] at hclaimed

theorem onRow_claim {row : Forward} (hclaim : row.status.Claimable) :
    (claimForAttempt row.id now).onRow row = claimedRow row now :=
  Update.onRow_of_holds _ (claimForAttempt_holds.mpr ⟨rfl, hclaim⟩)

theorem onRow_claim_other {row : Forward} (hid : row.id ≠ id) :
    (claimForAttempt id now).onRow row = row :=
  Update.onRow_of_not _ (by simp [claimForAttempt, hid])

theorem onRow_record_other {row : Forward} {outcome : Outcome} (hid : row.id ≠ id) :
    (recordOutcome id outcome now).onRow row = row :=
  Update.onRow_of_not _ (by simp [recordOutcome, hid])

theorem rowMoves_claim {w : WorkerId} {id' : UUID} {claimed : Forward} (hs : Consistent s)
    (hidle : s.workers w = none)
    (hhead : ((claimForAttempt id' now).returning s.forwards).head? = some claimed) :
    RowMoves s ⟨(claimForAttempt id' now).apply s.forwards,
      Function.update s.workers w (some claimed)⟩ id := by
  obtain ⟨row', hrow', hclaim, rfl⟩ := returned_claim hs hhead
  obtain rfl := findById_id hrow'
  intro row hfound
  refine ⟨_, findById_apply (.claim row'.id now) hfound, ?_⟩
  by_cases hid : row'.id = id
  · subst id
    obtain rfl := Option.some.inj (hrow'.symm.trans hfound)
    refine Or.inr ⟨.claim w now, ?_⟩
    rw [onRow_claim hclaim, rowState, step_claim hclaim (workersOf_idle hidle), rowState]
    exact congrArg some (congrArg (State.mk _) (workersOf_update_self s.workers w _).symm)
  · refine Or.inl ?_
    have hother : row.id ≠ row'.id := fun heq => hid (heq.symm.trans (findById_id hfound))
    have hclaimed : (claimedRow row' now).id ≠ id := hid
    rw [onRow_claim_other hother, rowState, rowState, workersOf_update_other hidle hclaimed]

theorem rowMoves_claimExpired {id' : UUID} {expiredAt : Datetime} {claimed : Forward}
    (hs : Consistent s)
    (hhead : ((claimForAttempt id' now).returning s.forwards).head? = some claimed) :
    RowMoves s ⟨(recordOutcome id' expiredOutcome expiredAt).apply
      ((claimForAttempt id' now).apply s.forwards), s.workers⟩ id := by
  obtain ⟨row', hrow', hclaim, rfl⟩ := returned_claim hs hhead
  obtain rfl := findById_id hrow'
  intro row hfound
  refine ⟨_, findById_apply (.record row'.id _ _)
    (findById_apply (.claim row'.id now) hfound), ?_⟩
  by_cases hid : row'.id = id
  · subst id
    obtain rfl := Option.some.inj (hrow'.symm.trans hfound)
    refine Or.inr ⟨.claimExpired now expiredAt, ?_⟩
    rw [rowState, step_claimExpired hclaim, rowState, onRow_claim hclaim]
    exact congrArg some (congrArg (fun r => State.mk r _)
      (recorded_claimedRow row' now expiredOutcome expiredAt).symm)
  · have hother : row.id ≠ row'.id := fun heq => hid (heq.symm.trans (findById_id hfound))
    rw [onRow_claim_other hother, onRow_record_other hother]
    exact Or.inl rfl

theorem rowMoves_record {w : WorkerId} {answer : TargetAnswer} {decidedAt recordedAt : Datetime}
    {claimed : Forward} {call : RecordCall} (hw : s.workers w = some claimed)
    (hcall : recordCall claimed.attemptCount answer.result decidedAt = some call) :
    RowMoves s ⟨(recordOutcome claimed.id call.outcome recordedAt).apply s.forwards,
      forget s.workers w⟩ id := by
  intro row hfound
  refine ⟨_, findById_apply (.record claimed.id _ recordedAt) hfound, ?_⟩
  obtain rfl := findById_id hfound
  by_cases hid : claimed.id = row.id
  · refine Or.inr ⟨.record w answer decidedAt recordedAt, ?_⟩
    have hworker : workersOf s.workers row.id w = some claimed := hid ▸ workersOf_self hw
    rw [rowState, step_record hworker hid hcall, rowState, workersOf_forget, hid,
      Update.onRow_of_holds _ (recordOutcome_holds.mpr rfl)]
    rfl
  · refine Or.inl ?_
    rw [onRow_record_other (Ne.symm hid), rowState, rowState, workersOf_forget,
      forget_idle (workersOf_other hw hid)]

theorem rowMoves_crash {w : WorkerId} {claimed : Forward} (hw : s.workers w = some claimed) :
    RowMoves s { s with workers := forget s.workers w } id := by
  intro row hfound
  refine ⟨row, hfound, ?_⟩
  by_cases hid : claimed.id = id
  · subst id
    refine Or.inr ⟨.crash w, ?_⟩
    simp only [rowState, step, workersOf_self hw, workersOf_forget]
  · refine Or.inl ?_
    rw [rowState, rowState, workersOf_forget, forget_idle (workersOf_other hw hid)]

/-- A statement of the owner acts on the row that it names, and on no other. -/
theorem rowMoves_owner {v : Update Forward} {id' : UUID} {a : Action} (hv : Writer v)
    (hother : ∀ row, row.id ≠ id' → v.holds row = false)
    (hself : ∀ row workers, row.id = id' → step ⟨row, workers⟩ a = some ⟨v.onRow row, workers⟩) :
    RowMoves s { s with forwards := v.apply s.forwards } id := by
  intro row hfound
  refine ⟨_, findById_apply hv hfound, ?_⟩
  by_cases hid : row.id = id'
  · exact Or.inr ⟨a, hself row _ hid⟩
  · rw [Update.onRow_of_not v (hother row hid)]
    exact Or.inl rfl

theorem rowMoves_capture {forward : Forward} {forwards : List Forward}
    (hsave : save forward s.forwards = some forwards) :
    RowMoves s { s with forwards } id := by
  intro row hfound
  refine ⟨row, ?_, Or.inl rfl⟩
  have hinsert := find_insert hsave id
  rw [findById] at hfound ⊢
  rw [hinsert, hfound]
  rfl

theorem StoreEffect.rowMoves {a : Statement} (h : StoreEffect s a u) (hs : Consistent s) :
    RowMoves s u id := by
  cases h with
  | unmatched => exact fun row hfound => ⟨row, hfound, Or.inl rfl⟩
  | capture hsave => exact rowMoves_capture hsave
  | claim hidle hhead => exact rowMoves_claim hs hidle hhead
  | claimExpired hhead => exact rowMoves_claimExpired hs hhead
  | record hw hcall => exact rowMoves_record hw hcall
  | crash hw => exact rowMoves_crash hw
  | @abandon id' endpointId now =>
    refine @rowMoves_owner _ _ _ id' (.abandon endpointId now) (.abandon id' endpointId now) ?_ ?_
    · intro row hid
      simp [ForwardRepository.abandon, hid]
    · intro row workers hid
      obtain rfl := hid
      rfl
  | @manualRetry id' endpointId now =>
    refine @rowMoves_owner _ _ _ id' (.manualRetry endpointId now)
      (.manualRetry id' endpointId now) ?_ ?_
    · intro row hid
      simp [claimForManualRetry, hid]
    · intro row workers hid
      obtain rfl := hid
      rfl
  | @reclaim endpointId now =>
    exact fun row hfound => ⟨_, findById_apply (.reclaim endpointId _ now) hfound,
      Or.inr ⟨.reclaim endpointId now, rfl⟩⟩

/-- A worker carries on with its snapshot, or has just claimed a row of the table. -/
theorem StoreEffect.workers_cases {a : Statement} (h : StoreEffect s a u) (hs : Consistent s)
    {w : WorkerId} {claimed : Forward} (hw : u.workers w = some claimed) :
    s.workers w = some claimed ∨ (findById claimed.id s.forwards).isSome := by
  cases h with
  | @claim v id' now claimed' _ hhead =>
    by_cases hv : w = v
    · subst hv
      obtain rfl : claimed' = claimed := by simpa using hw
      obtain ⟨row, hrow, _, rfl⟩ := returned_claim hs hhead
      obtain rfl := findById_id hrow
      exact Or.inr (Option.isSome_iff_exists.mpr ⟨row, hrow⟩)
    · exact Or.inl (by simpa [hv] using hw)
  | record _ _ => exact Or.inl (forget_eq_some.mp hw).2
  | crash _ => exact Or.inl (forget_eq_some.mp hw).2
  | _ => exact Or.inl hw

theorem findById_apply_none {v : Update Forward} (hv : Writer v) {forwards : List Forward}
    (hnone : findById id forwards = none) : findById id (v.apply forwards) = none := by
  rw [findById, hv.keepsKey.find_apply]
  exact congrArg (Option.map v.onRow) hnone

/-- A row that was not there is that of a capture. -/
theorem StoreEffect.new_row {a : Statement} (h : StoreEffect s a u) {row : Forward}
    (hnone : findById id s.forwards = none) (hrow : findById id u.forwards = some row) :
    u.workers = s.workers ∧ ∃ requestId endpointId targetUrl now,
      row = Forward.create id requestId endpointId targetUrl now := by
  cases h with
  | @capture id' requestId endpointId targetUrl now forwards hsave =>
    refine ⟨rfl, requestId, endpointId, targetUrl, now, ?_⟩
    have hinsert := find_insert hsave id
    rw [findById] at hnone hrow
    rw [hinsert, hnone] at hrow
    simp only [Option.none_or, Option.ite_none_right_eq_some, Option.some.injEq] at hrow
    obtain ⟨rfl, rfl⟩ := hrow
    rfl
  | unmatched => simp [hnone] at hrow
  | @claim _ id' now _ _ _ => simp [findById_apply_none (.claim id' now) hnone] at hrow
  | @claimExpired id' now expiredAt _ _ =>
    simp [findById_apply_none (.record id' expiredOutcome expiredAt)
      (findById_apply_none (.claim id' now) hnone)] at hrow
  | @record _ _ _ recordedAt _ _ _ _ =>
    simp [findById_apply_none (.record _ _ recordedAt) hnone] at hrow
  | crash _ => simp [hnone] at hrow
  | @abandon id' endpointId now =>
    simp [findById_apply_none (.abandon id' endpointId now) hnone] at hrow
  | @manualRetry id' endpointId now =>
    simp [findById_apply_none (.manualRetry id' endpointId now) hnone] at hrow
  | @reclaim endpointId now =>
    simp [findById_apply_none (.reclaim endpointId _ now) hnone] at hrow

end Rows

theorem table_step {forwards forwards' : List Forward} (a : RedriveSweep.StoreAction)
    (h : RedriveSweep.storeStep forwards a = some forwards') :
    ∃ ms, Run (Steps RedriveSweep.storeStep) forwards ms forwards' := ⟨_, .single h⟩

/-- On the table alone a statement of the store is at most two of its writers' statements. -/
theorem StoreEffect.forwards_run {s u : Store} {a : Statement} (h : StoreEffect s a u) :
    ∃ ms, Run (Steps RedriveSweep.storeStep) s.forwards ms u.forwards := by
  cases h with
  | unmatched => exact ⟨_, .nil⟩
  | @capture id requestId endpointId targetUrl now _ hsave =>
    exact table_step (.capture id requestId endpointId targetUrl now) hsave
  | @claim _ id now _ _ _ => exact table_step (.claim id now) rfl
  | @claimExpired id now expiredAt _ _ =>
    obtain ⟨first, hclaim⟩ := table_step (.claim id now) (Eq.refl (some (_ : List Forward)))
    obtain ⟨second, hrecord⟩ := table_step (.recordExpired id expiredAt) rfl
    exact ⟨second ++ first, hclaim.trans hrecord⟩
  | @record _ answer decidedAt recordedAt claimed _ _ hcall =>
    exact table_step (.record claimed.id claimed.attemptCount answer decidedAt recordedAt)
      (by simp only [RedriveSweep.storeStep, hcall, Option.map_some])
  | crash _ => exact ⟨_, .nil⟩
  | @abandon id endpointId now => exact table_step (.abandon id endpointId now) rfl
  | @manualRetry id endpointId now => exact table_step (.manualRetry id endpointId now) rfl
  | @reclaim endpointId now => exact table_step (.reclaim endpointId now) rfl

/-- The tables that the store reaches are among those of its writers in any order. -/
theorem forwards_run {ms : History Store Statement} {s : Store}
    (h : Run (Steps storeStep) emptyStore ms s) :
    ∃ ms', Run (Steps RedriveSweep.storeStep) [] ms' s.forwards :=
  h.simulate Store.forwards fun _ _ _ hstep => (storeStep_effect hstep).forwards_run

theorem Consistent.step {s u : Store} {a : Statement} (hs : Consistent s)
    (heffect : StoreEffect s a u) : Consistent u where
  sound := by
    obtain ⟨ms, hrun⟩ := heffect.forwards_run
    exact hrun.invariant hs.sound fun _ _ _ h hnext => h.step hnext
  owned w claimed hw := by
    have hfound : (findById claimed.id s.forwards).isSome := by
      rcases heffect.workers_cases hs hw with hold | hfound
      · exact hs.owned w claimed hold
      · exact hfound
    obtain ⟨row, hrow⟩ := Option.isSome_iff_exists.mp hfound
    obtain ⟨row', hrow', _⟩ := heffect.rowMoves hs row hrow
    simp [hrow']

theorem consistent_empty : Consistent emptyStore where
  sound := RedriveSweep.sound_empty
  owned w claimed hw := by simp [emptyStore] at hw

/-- Every row, with its workers, is in a state that a run of the row machine reaches. -/
def RowsReached (s : Store) : Prop :=
  ∀ id row, findById id s.forwards = some row → ∃ ms, RunOf ms (rowState s id row)

theorem rowState_captured {s u : Store} (hs : Consistent s) {id : UUID}
    (hnone : findById id s.forwards = none) (hworkers : u.workers = s.workers)
    (requestId endpointId : UUID) (targetUrl : String) (now : Datetime) :
    rowState u id (Forward.create id requestId endpointId targetUrl now) =
      start id requestId endpointId targetUrl now := by
  have hidle : workersOf s.workers id = fun _ => none := by
    funext w
    cases hw : s.workers w with
    | none => exact workersOf_idle hw
    | some claimed =>
      refine workersOf_other hw ?_
      intro hid
      obtain rfl := hid
      simpa [hnone] using hs.owned w claimed hw
  rw [rowState, hworkers, hidle, start]

theorem RowsReached.step {s u : Store} {a : Statement} (h : RowsReached s) (hs : Consistent s)
    (heffect : StoreEffect s a u) : RowsReached u := by
  intro id row hrow
  cases hbefore : findById id s.forwards with
  | none =>
    obtain ⟨hworkers, requestId, endpointId, targetUrl, now, rfl⟩ :=
      heffect.new_row hbefore hrow
    refine ⟨[], id, requestId, endpointId, targetUrl, now, ?_⟩
    rw [rowState_captured hs hbefore hworkers]
    exact .nil
  | some old =>
    obtain ⟨ms, hreached⟩ := h id old hbefore
    obtain ⟨row', hrow', hmove⟩ := heffect.rowMoves hs old hbefore
    obtain rfl := Option.some.inj (hrow.symm.trans hrow')
    rcases hmove with hsame | ⟨b, hb⟩
    · exact ⟨ms, hsame ▸ hreached⟩
    · obtain ⟨id', requestId, endpointId, targetUrl, now, hrun⟩ := hreached
      exact ⟨_, id', requestId, endpointId, targetUrl, now, hrun.move hb⟩

/-- Each row of a table that the store reaches, with the workers that hold it, has been
led there by a run of the row machine. -/
theorem row_run {ms : History Store Statement} {s : Store}
    (h : Run (Steps storeStep) emptyStore ms s) {row : Forward} (hrow : row ∈ s.forwards) :
    ∃ ms', RunOf ms' (rowState s row.id row) := by
  have hstart : RowsReached emptyStore := by
    intro id row hnone
    simp [findById, find, emptyStore] at hnone
  have hend := h.invariant (I := fun s => Consistent s ∧ RowsReached s)
    ⟨consistent_empty, hstart⟩ fun _ _ _ hI hstep =>
      ⟨hI.1.step (storeStep_effect hstep), hI.2.step hI.1 (storeStep_effect hstep)⟩
  exact hend.2 row.id row (find_of_mem hend.1.sound.unique hrow)

end Hooktrace.ForwardStore
