import Hooktrace.ExecuteForward
import Hooktrace.RedrivePendingForwards
import Hooktrace.Transition

/-!
No forward is stranded beyond redrive. The table is changed by its six writers in any
order and with any arguments; every row it ever holds is well formed, so that a redrive
late enough finds each open row of the endpoint in one of its selections: rows in flight
are reclaimed and then overdue, failed rows are overdue, pending rows are stuck.
-/
namespace Hooktrace.RedriveSweep

open Table ForwardDecision ForwardRepository ExecuteForward Transition RedrivePendingForwards

inductive StoreAction where
  | capture (id requestId endpointId : UUID) (targetUrl : String) (now : Datetime)
  | claim (id : UUID) (now : Datetime)
  /-- TX1, when the endpoint or the request is gone. -/
  | recordExpired (id : UUID) (now : Datetime)
  /-- TX2 of the attempt with the given number. -/
  | record (id : UUID) (attemptCount : ℕ) (answer : TargetAnswer)
      (decidedAt recordedAt : Datetime)
  | abandon (id endpointId : UUID) (now : Datetime)
  | manualRetry (id endpointId : UUID) (now : Datetime)
  | reclaim (endpointId : UUID) (now : Datetime)

def storeStep (forwards : List Forward) : StoreAction → Option (List Forward)
  | .capture id requestId endpointId targetUrl now =>
    save (Forward.create id requestId endpointId targetUrl now) forwards
  | .claim id now => some ((claimForAttempt id now).apply forwards)
  | .recordExpired id now => some ((recordOutcome id expiredOutcome now).apply forwards)
  | .record id attemptCount answer decidedAt recordedAt =>
    (recordCall attemptCount answer.result decidedAt).map fun call =>
      (recordOutcome id call.outcome recordedAt).apply forwards
  | .abandon id endpointId now =>
    some ((ForwardRepository.abandon id endpointId now).apply forwards)
  | .manualRetry id endpointId now =>
    some ((claimForManualRetry id endpointId now).apply forwards)
  | .reclaim endpointId now =>
    some ((reclaimStuckInFlight endpointId stuckInFlightThresholdSeconds now).apply forwards)

structure WellFormed (r : Forward) : Prop where
  completed_iff : r.forwardCompletedAt.isSome ↔ r.status.Terminal
  scheduled : r.status.Claimable → r.nextAttemptAt.isSome
  started : r.status = .inFlight → r.forwardStartedAt.isSome ∧ 1 ≤ r.attemptCount

/-- An outcome that leaves the row to be tried again says when. -/
def Schedules (outcome : Outcome) : Prop :=
  outcome.nextStatus = .failed → outcome.nextAttemptAt.isSome

theorem wellFormed_create (id requestId endpointId : UUID) (targetUrl : String)
    (now : Datetime) : WellFormed (Forward.create id requestId endpointId targetUrl now) where
  completed_iff := by simp [Forward.create, ForwardStatus.Terminal]
  scheduled _ := rfl
  started h := by simp [Forward.create] at h

theorem recordCall_schedules {n : ℕ} {http : HttpPhase} {decidedAt : Datetime}
    {call : RecordCall} (h : recordCall n http decidedAt = some call) :
    Schedules call.outcome := by
  intro hfailed
  unfold recordCall at h
  split at h
  · obtain rfl := Option.some.inj h
    simp at hfailed
  · obtain ⟨decision, _, rfl⟩ := Option.map_eq_some_iff.mp h
    simp only at hfailed
    simp [hfailed]

section Writers

variable {r : Forward} {id endpointId : UUID} {now : Datetime}

theorem wellFormed_claim (hclaim : r.status.Claimable) (h : WellFormed r) :
    WellFormed ((claimForAttempt id now).assign r) where
  completed_iff := by
    have hopen : ¬ r.status.Terminal := by
      rcases hclaim with hs | hs <;> simp [hs, ForwardStatus.Terminal]
    have hnone : ¬ r.forwardCompletedAt.isSome := fun hc => hopen (h.completed_iff.mp hc)
    simp [claimForAttempt, ForwardStatus.Terminal, Option.not_isSome_iff_eq_none.mp hnone]
  scheduled hs := by simp [claimForAttempt, ForwardStatus.Claimable] at hs
  started _ := ⟨rfl, Nat.le_add_left 1 r.attemptCount⟩

theorem wellFormed_record {outcome : Outcome} (h : Schedules outcome) :
    WellFormed ((recordOutcome id outcome now).assign r) where
  completed_iff := by
    cases hnext : outcome.nextStatus <;>
      simp [recordOutcome, hnext, NextStatus.toStatus, ForwardStatus.Terminal]
  scheduled hs := by
    have hfailed : outcome.nextStatus = .failed := by
      cases hnext : outcome.nextStatus with
      | failed => rfl
      | _ => simp [recordOutcome, hnext, NextStatus.toStatus, ForwardStatus.Claimable] at hs
    exact h hfailed
  started hs := by
    cases hnext : outcome.nextStatus <;>
      simp [recordOutcome, hnext, NextStatus.toStatus] at hs

theorem wellFormed_abandon :
    WellFormed ((ForwardRepository.abandon id endpointId now).assign r) where
  completed_iff := by simp [ForwardRepository.abandon, ForwardStatus.Terminal]
  scheduled hs := by simp [ForwardRepository.abandon, ForwardStatus.Claimable] at hs
  started hs := by simp [ForwardRepository.abandon] at hs

theorem wellFormed_manualRetry :
    WellFormed ((claimForManualRetry id endpointId now).assign r) where
  completed_iff := by simp [claimForManualRetry, ForwardStatus.Terminal]
  scheduled _ := rfl
  started hs := by simp [claimForManualRetry] at hs

theorem wellFormed_reclaim {threshold : ℕ} (hflight : r.status = .inFlight) (h : WellFormed r) :
    WellFormed ((reclaimStuckInFlight endpointId threshold now).assign r) where
  completed_iff := by
    have hnone : ¬ r.forwardCompletedAt.isSome := by
      rw [h.completed_iff, hflight]
      decide
    simp [reclaimStuckInFlight, ForwardStatus.Terminal, Option.not_isSome_iff_eq_none.mp hnone]
  scheduled _ := rfl
  started hs := by simp [reclaimStuckInFlight] at hs

end Writers

structure Sound (forwards : List Forward) : Prop where
  unique : UniqueKeys Forward.id forwards
  rows : ∀ r ∈ forwards, WellFormed r

theorem Sound.apply {forwards : List Forward} {u : Update Forward} (h : Sound forwards)
    (hu : Writer u) (hrow : ∀ r, u.holds r = true → WellFormed r → WellFormed (u.assign r)) :
    Sound (u.apply forwards) where
  unique := hu.keepsKey.uniqueKeys h.unique
  rows := u.apply_invariant hrow h.rows

theorem Sound.step {forwards forwards' : List Forward} {a : StoreAction} (h : Sound forwards)
    (hstep : storeStep forwards a = some forwards') : Sound forwards' := by
  cases a with
  | capture id requestId endpointId targetUrl now =>
    refine ⟨insert_uniqueKeys Forward.id hstep h.unique, ?_⟩
    intro r hr
    rcases mem_insert hstep hr with hold | rfl
    · exact h.rows r hold
    · exact wellFormed_create id requestId endpointId targetUrl now
  | claim id now =>
    obtain rfl := Option.some.inj hstep
    exact h.apply (.claim id now) (fun r hr => wellFormed_claim (claimForAttempt_holds.mp hr).2)
  | recordExpired id now =>
    obtain rfl := Option.some.inj hstep
    exact h.apply (.record id _ now)
      (fun _ _ _ => wellFormed_record (by simp [Schedules, expiredOutcome]))
  | record id attemptCount answer decidedAt recordedAt =>
    obtain ⟨call, hcall, rfl⟩ := Option.map_eq_some_iff.mp hstep
    exact h.apply (.record id _ recordedAt)
      (fun _ _ _ => wellFormed_record (recordCall_schedules hcall))
  | abandon id endpointId now =>
    obtain rfl := Option.some.inj hstep
    exact h.apply (.abandon id endpointId now) (fun _ _ _ => wellFormed_abandon)
  | manualRetry id endpointId now =>
    obtain rfl := Option.some.inj hstep
    exact h.apply (.manualRetry id endpointId now) (fun _ _ _ => wellFormed_manualRetry)
  | reclaim endpointId now =>
    obtain rfl := Option.some.inj hstep
    exact h.apply (.reclaim endpointId _ now)
      (fun r hr => wellFormed_reclaim (reclaimStuckInFlight_holds.mp hr).2.1)

theorem sound_empty : Sound [] := ⟨List.nodup_nil, by simp⟩

def timestamps (r : Forward) : List Datetime :=
  r.createdAt :: [r.lastAttemptAt, r.nextAttemptAt, r.forwardStartedAt, r.forwardCompletedAt,
    r.manualRetryAt].filterMap id

/-- The endpoint's forwards that are not over. -/
def isOpen (endpointId : UUID) (r : Forward) : Bool :=
  r.endpointId = endpointId ∧
    (r.status = .pending ∨ r.status = .failed ∨ r.status = .inFlight)

/-- The clock is more than 300 s past every time in the endpoint's rows. -/
def Late (endpointId : UUID) (now : Datetime) (forwards : List Forward) : Prop :=
  ∀ r ∈ forwards, r.endpointId = endpointId → ∀ t ∈ timestamps r, t + seconds 300 < now

instance (endpointId : UUID) (now : Datetime) (forwards : List Forward) :
    Decidable (Late endpointId now forwards) :=
  inferInstanceAs (Decidable (∀ r ∈ forwards, r.endpointId = endpointId →
    ∀ t ∈ timestamps r, t + seconds 300 < now))

section Redrive

variable {forwards : List Forward} {endpointId : UUID} {now : Datetime} {r : Forward}

theorem mem_timestamps {column : Option Datetime} {t : Datetime} (h : column = some t)
    (hcolumn : column ∈ [r.lastAttemptAt, r.nextAttemptAt, r.forwardStartedAt,
      r.forwardCompletedAt, r.manualRetryAt]) : t ∈ timestamps r := by
  refine List.mem_cons_of_mem _ (List.mem_filterMap.mpr ⟨column, hcolumn, h⟩)

/-- After the reclaim the overdue rows are the failed ones and those that were in flight. -/
theorem overdueFailed_reclaimed (hwell : WellFormed r)
    (hlate : r.endpointId = endpointId → ∀ t ∈ timestamps r, t + seconds 300 < now) :
    overdueFailed endpointId now
        ((reclaimStuckInFlight endpointId stuckInFlightThresholdSeconds now).onRow r) = true ↔
      r.endpointId = endpointId ∧ (r.status = .failed ∨ r.status = .inFlight) := by
  rw [overdueFailed_eq_true]
  rcases Update.onRow_cases _ (reclaimStuckInFlight_holds (r := r)) with
    ⟨⟨he, hflight, _⟩, hrow⟩ | ⟨hnot, hrow⟩
  all_goals rw [hrow]
  · exact ⟨fun _ => ⟨he, Or.inr hflight⟩, fun _ => ⟨he, rfl, now, rfl, le_refl now⟩⟩
  · constructor
    · intro hselected
      obtain ⟨he, hfailed, _⟩ := hselected
      exact ⟨he, Or.inl hfailed⟩
    · intro hopen
      rcases hopen with ⟨he, hfailed | hflight⟩
      · obtain ⟨t, ht⟩ := Option.isSome_iff_exists.mp (hwell.scheduled (Or.inr hfailed))
        have hpast := hlate he t (mem_timestamps ht (by simp))
        have hthreshold : 0 ≤ seconds 300 := by decide
        exact ⟨he, hfailed, t, ht, by linarith⟩
      · obtain ⟨t, ht⟩ := Option.isSome_iff_exists.mp (hwell.started hflight).1
        have hpast := hlate he t (mem_timestamps ht (by simp))
        have hthreshold : seconds stuckInFlightThresholdSeconds = seconds 300 := rfl
        exact absurd ⟨he, hflight, t, ht, by linarith⟩ hnot

/-- After the reclaim the stuck rows are the pending ones. -/
theorem stuckPending_reclaimed
    (hlate : r.endpointId = endpointId → ∀ t ∈ timestamps r, t + seconds 300 < now) :
    stuckPending endpointId stuckPendingThresholdSeconds now
        ((reclaimStuckInFlight endpointId stuckInFlightThresholdSeconds now).onRow r) = true ↔
      r.endpointId = endpointId ∧ r.status = .pending := by
  rw [stuckPending_eq_true]
  rcases Update.onRow_cases _ (reclaimStuckInFlight_holds (r := r)) with
    ⟨⟨he, hflight, _⟩, hrow⟩ | ⟨_, hrow⟩
  all_goals rw [hrow]
  · simp [reclaimStuckInFlight, hflight]
  · constructor
    · intro hselected
      obtain ⟨he, hpending, _⟩ := hselected
      exact ⟨he, hpending⟩
    · intro hopen
      obtain ⟨he, hpending⟩ := hopen
      have hpast := hlate he r.createdAt List.mem_cons_self
      have hthreshold : seconds stuckPendingThresholdSeconds = seconds 300 := rfl
      exact ⟨he, hpending, by linarith⟩

/-- The two selections of a redrive share no id, and each lists an id once. -/
theorem selected_nodup (h : UniqueKeys Forward.id forwards) (threshold : ℕ) :
    (listOverdueFailed endpointId now forwards ++
      redriveStuckPending endpointId threshold now forwards).Nodup := by
  refine List.nodup_append.mpr ⟨?_, ?_, ?_⟩
  · exact h.nodup_of_perm_filter (List.mergeSort_perm _ _)
  · exact h.nodup_of_perm_filter (List.mergeSort_perm _ _)
  · intro id hoverdue _ hstuck hid
    obtain rfl := hid
    obtain ⟨r, hr, rfl, hfailed⟩ := mem_listOverdueFailed.mp hoverdue
    obtain ⟨r', hr', heq, hpending⟩ := mem_redriveStuckPending.mp hstuck
    obtain rfl := h.eq hr' hr heq
    have hstatus := (overdueFailed_eq_true.mp hfailed).2.1
    have hstatus' := (stuckPending_eq_true.mp hpending).2.1
    simp [hstatus] at hstatus'

/-- A late redrive selects the open forwards of the endpoint, each once, and no other. -/
theorem selected_perm {findByToken : String → Option Endpoint} {raises : UUID → Bool}
    {token : String} {queue : ForwardQueue.ArqQueue} {redriven : Redriven} {endpoint : Endpoint}
    (hsound : Sound forwards) (hfind : findByToken token = some endpoint)
    (hlate : Late endpoint.id now forwards)
    (h : execute findByToken raises token now forwards queue = .ok redriven) :
    redriven.selected.Perm ((forwards.filter (isOpen endpoint.id)).map Forward.id) := by
  obtain ⟨endpoint', hfind', hforwards, hoverdue, hpending, _⟩ := execute_ok h
  obtain rfl := Option.some.inj (hfind.symm.trans hfind')
  have hunique : UniqueKeys Forward.id redriven.forwards := by
    rw [hforwards]
    exact (Writer.reclaim endpoint.id _ now).keepsKey.uniqueKeys hsound.unique
  refine (List.perm_ext_iff_of_nodup ?_ ?_).mpr ?_
  · rw [Redriven.selected, hoverdue, hpending]
    exact selected_nodup hunique _
  · exact hsound.unique.nodup_of_perm_filter (List.Perm.refl _)
  · intro id
    rw [Redriven.selected, List.mem_append, hoverdue, hpending, mem_listOverdueFailed,
      mem_redriveStuckPending, hforwards]
    simp only [Update.apply, List.mem_map, List.mem_filter, exists_exists_and_eq_and]
    have hkeep := (Writer.reclaim endpoint.id stuckInFlightThresholdSeconds now).keepsKey
    constructor
    · intro hselected
      rcases hselected with ⟨r, hr, hid, hselected⟩ | ⟨r, hr, hid, hselected⟩
      all_goals rw [hkeep.onRow r] at hid
      · obtain ⟨he, hstatus⟩ :=
          (overdueFailed_reclaimed (hsound.rows r hr) (hlate r hr)).mp hselected
        exact ⟨r, ⟨hr, by simp [isOpen, he, Or.inr hstatus]⟩, hid⟩
      · obtain ⟨he, hstatus⟩ := (stuckPending_reclaimed (hlate r hr)).mp hselected
        exact ⟨r, ⟨hr, by simp [isOpen, he, hstatus]⟩, hid⟩
    · intro hrow
      obtain ⟨r, ⟨hr, hopen⟩, hid⟩ := hrow
      simp only [isOpen, decide_eq_true_eq] at hopen
      rcases hopen with ⟨he, hpending | hother⟩
      · exact Or.inr ⟨r, hr, (hkeep.onRow r).trans hid,
          (stuckPending_reclaimed (hlate r hr)).mpr ⟨he, hpending⟩⟩
      · exact Or.inl ⟨r, hr, (hkeep.onRow r).trans hid,
          (overdueFailed_reclaimed (hsound.rows r hr) (hlate r hr)).mpr ⟨he, hother⟩⟩

end Redrive

/-- Every table reached is well formed, and a redrive 300 s after all its times selects
exactly the open forwards of the endpoint, each once, and returns their number. -/
theorem redrive_selects_open {ms : History (List Forward) StoreAction} {forwards : List Forward}
    (h : Run (Steps storeStep) [] ms forwards) :
    (∀ r ∈ forwards, WellFormed r) ∧
    ∀ (findByToken : String → Option Endpoint) (raises : UUID → Bool) (token : String)
      (now : Datetime) (queue : ForwardQueue.ArqQueue) (endpoint : Endpoint),
      findByToken token = some endpoint → Late endpoint.id now forwards →
      ∃ redriven, execute findByToken raises token now forwards queue = .ok redriven ∧
        redriven.selected.Nodup ∧
        redriven.selected.Perm ((forwards.filter (isOpen endpoint.id)).map Forward.id) ∧
        redriven.count = (forwards.filter (isOpen endpoint.id)).length := by
  have hsound : Sound forwards := h.invariant sound_empty (fun _ _ _ hs hstep => hs.step hstep)
  refine ⟨hsound.rows, ?_⟩
  intro findByToken raises token now queue endpoint hfind hlate
  obtain ⟨redriven, hredriven⟩ : ∃ redriven,
      execute findByToken raises token now forwards queue = .ok redriven := by
    simp [RedrivePendingForwards.execute, hfind]
  have hperm := selected_perm hsound hfind hlate hredriven
  obtain ⟨_, _, _, _, _, hcount⟩ := execute_ok hredriven
  refine ⟨redriven, hredriven, ?_, hperm, ?_⟩
  · exact hperm.nodup_iff.mpr (hsound.unique.nodup_of_perm_filter (List.Perm.refl _))
  · rw [hcount, hperm.length_eq, List.length_map]

def crashed : List StoreAction :=
  let second : UUID := ⟨"5d2e9b10-77c3-4f08-a1b6-94e0c3d8f256", by decide +kernel⟩
  let url := "https://api.example.com/webhook"
  [.capture sampleForwardId sampleRequest.id sampleEndpoint.id url (seconds 1000),
    .claim sampleForwardId (seconds 1001),
    .capture second sampleRequest.id sampleEndpoint.id url (seconds 1002)]

/-- Ten minutes later both are selected. -/
theorem crashed_redriven : ∃ forwards redriven,
    RedrivePendingForwards.execute (fun _ => some sampleEndpoint) (fun _ => false) "tok"
      (seconds 1600) forwards .empty = .ok redriven ∧
    forwards.length = 2 ∧ redriven.selected.Nodup ∧ redriven.count = 2 := by
  have hrun := Run.of_play (Eq.refl (play storeStep [] [] crashed))
  obtain ⟨redriven, hexecute, hnodup, _, hcount⟩ := (redrive_selects_open hrun).2
    (fun _ => some sampleEndpoint) (fun _ => false) "tok" (seconds 1600) .empty sampleEndpoint
    rfl (by decide)
  exact ⟨_, redriven, hexecute, rfl, hnodup, hcount⟩

end Hooktrace.RedriveSweep
