import Hooktrace.ErrorPaths
import Hooktrace.RedriveSweep

/-!
What a redrive leaves. Whatever workers, owners and crashes have done to the forwards of an
endpoint, a redrive that comes late enough settles each of them: it is over, or it is open and a
job waits for it. What can stand against that is the queue alone, as long as no job of the sweep
starts before the sweep is committed.
-/
namespace Hooktrace.RedriveRecovery

open Table Transition ForwardRepository ForwardQueue ErrorPaths RedrivePendingForwards RedriveSweep

/-- A job for the forward waits already, or one is taken in: Redis answers, and the job id of a
redrive is free. -/
def Enqueueable (raises : UUID → Bool) (now : Datetime) (queue : ArqQueue) (forwardId : UUID) :
    Prop :=
  Waiting queue forwardId ∨
    (raises forwardId = false ∧ ¬ queue.Taken (jobId forwardId 0) now)

/-- What the queue meets between the enqueues of a redrive and its commit. -/
inductive QueueAction where
  | enqueue (forwardId : UUID) (deferSeconds : ℕ) (now : Datetime)
  | start (job : Job) (now : Datetime)
  | finish (job : Job) (now : Datetime)

def queueStep (q : ArqQueue) : QueueAction → Option ArqQueue
  | .enqueue forwardId d now => some (enqueue q forwardId d now)
  | .start job now => q.start job now
  | .finish job now => q.finish job now

/-- It is about another forward; a job that ends is no matter. -/
def QueueAction.Apart (forwardId : UUID) : QueueAction → Prop
  | .enqueue other _ _ => forwardId ≠ other
  | .start job _ => job.forwardIdStr ≠ forwardId.str
  | .finish _ _ => True

section Enqueues

variable {q : ArqQueue} {f g : UUID} {d : ℕ} {now later : Datetime} {raises : UUID → Bool}

/-- The job of one forward does not wait for another. -/
theorem waiting_enqueue_ne (h : f ≠ g) : Waiting (enqueue q g d now) f ↔ Waiting q f := by
  by_cases htaken : q.Taken (jobId g d) now
  · rw [enqueue_of_taken htaken]
  · rw [enqueue_of_free htaken]
    have hother : g.str ≠ f.str := by
      intro hstr
      exact h (UUID.str_injective hstr).symm
    simp [Waiting, hother]

/-- Nor does it take the other's job ids. -/
theorem taken_enqueue_ne (h : f ≠ g) {e : ℕ} :
    (enqueue q g d now).Taken (jobId f e) later ↔ q.Taken (jobId f e) later := by
  by_cases htaken : q.Taken (jobId g d) now
  · rw [enqueue_of_taken htaken]
  · rw [enqueue_of_free htaken]
    have hother : jobId g d ≠ jobId f e := by
      intro hid
      exact h (jobId_inj.mp hid).1.symm
    simp [ArqQueue.Taken, ArqQueue.KeepsResult, hother]

/-- Each id of the loop is asked for once, and meets the queue as it was for it. -/
theorem waiting_enqueueAll {ids : List UUID} (h : ids.Nodup) :
    Waiting (enqueueAll raises now q ids) f ↔
      Waiting q f ∨ (f ∈ ids ∧ raises f = false ∧ ¬ q.Taken (jobId f 0) now) := by
  induction ids generalizing q with
  | nil => simp [enqueueAll]
  | cons g ids ih =>
    obtain ⟨hg, hids⟩ := List.nodup_cons.mp h
    have hstep : enqueueAll raises now q (g :: ids) =
        enqueueAll raises now (if raises g then q else enqueue q g 0 now) ids := rfl
    rw [hstep, ih hids]
    by_cases hfg : f = g
    · subst hfg
      cases hraises : raises f with
      | true => simp [hg]
      | false => simp [hg, waiting_enqueue]
    · cases hraises : raises g with
      | true => simp [hfg]
      | false => simp [hfg, waiting_enqueue_ne hfg, taken_enqueue_ne hfg]

/-- A job that is none of the forward's takes no waiting job of it away, and is none. -/
theorem waiting_start_ne {q' : ArqQueue} {job : Job} (h : q.start job now = some q')
    (hother : job.forwardIdStr ≠ f.str) : Waiting q' f ↔ Waiting q f := by
  constructor
  · rintro ⟨waiting, hwaiting, hid⟩
    rw [(start_eq h).2.1] at hwaiting
    exact ⟨waiting, List.mem_of_mem_erase hwaiting, hid⟩
  · intro hwaiting
    exact hwaiting.start h hother

/-- Until the commit a forward waits as it did, if only others are enqueued and started. -/
theorem waiting_meanwhile {q' : ArqQueue} {meanwhile : History ArqQueue QueueAction}
    (h : Run (Steps queueStep) q meanwhile q') (hapart : ∀ m ∈ meanwhile, m.act.Apart f) :
    Waiting q' f ↔ Waiting q f := by
  refine (h.guarded (C := fun _ m => m.act.Apart f) (P := fun _ _ => True)
    (J := fun _ q₁ => Waiting q₁ f ↔ Waiting q f) Iff.rfl ?_ (always_iff_forall_mem.mpr hapart)).2
  intro past q₁ a q₂ hJ hC hstep
  refine ⟨trivial, Iff.trans ?_ hJ⟩
  cases a with
  | enqueue other e at' =>
    obtain rfl := Option.some.inj hstep
    exact waiting_enqueue_ne hC
  | start job at' => exact waiting_start_ne hstep hC
  | finish job at' => exact waiting_finish hstep

end Enqueues

section Rows

variable {forwards : List Forward} {endpointId : UUID} {now : Datetime} {r : Forward}

/-- After the reclaim an open row can be claimed, and every other row is over. -/
theorem status_reclaimed (hwell : WellFormed r)
    (hlate : ∀ t ∈ timestamps r, t + seconds 300 < now) (howner : r.endpointId = endpointId) :
    if isOpen endpointId r = true then
      ((reclaimStuckInFlight endpointId stuckInFlightThresholdSeconds now).onRow
        r).status.Claimable
    else ((reclaimStuckInFlight endpointId stuckInFlightThresholdSeconds now).onRow
      r).status.Terminal := by
  have hreclaimed := @overdueFailed_reclaimed endpointId now r hwell fun _ => hlate
  have hstuck := @stuckPending_reclaimed endpointId now r fun _ => hlate
  split
  · rename_i hopen
    simp only [isOpen, decide_eq_true_eq] at hopen
    rcases hopen.2 with hpending | hother
    · have hselected := hstuck.mpr ⟨howner, hpending⟩
      exact Or.inl (stuckPending_eq_true.mp hselected).2.1
    · have hselected := hreclaimed.mpr ⟨howner, hother⟩
      exact Or.inr (overdueFailed_eq_true.mp hselected).2.1
  · rename_i hclosed
    have hflight : r.status ≠ .inFlight := by
      intro hstatus
      exact hclosed (by simp [isOpen, howner, hstatus])
    have hrow : (reclaimStuckInFlight endpointId stuckInFlightThresholdSeconds now).onRow r = r := by
      apply Update.onRow_of_not
      simp [reclaimStuckInFlight, hflight]
    rw [hrow]
    cases hstatus : r.status with
    | pending => exact absurd (by simp [isOpen, howner, hstatus]) hclosed
    | inFlight => exact absurd hstatus hflight
    | failed => exact absurd (by simp [isOpen, howner, hstatus]) hclosed
    | succeeded => exact Or.inl rfl
    | dead => exact Or.inr (Or.inl rfl)
    | abandoned => exact Or.inr (Or.inr rfl)

theorem not_claimable_of_terminal {s : ForwardStatus} (h : s.Terminal) : ¬ s.Claimable := by
  cases s <;> simp_all [ForwardStatus.Terminal, ForwardStatus.Claimable]

/-- With an open row's job waiting at the commit exactly where it was to be enqueued. -/
theorem settled_reclaimed {raises : UUID → Bool} {queue committed : ArqQueue}
    (hwell : WellFormed r) (hlate : ∀ t ∈ timestamps r, t + seconds 300 < now)
    (howner : r.endpointId = endpointId)
    (hwaiting : isOpen endpointId r = true →
      (Waiting committed r.id ↔ Enqueueable raises now queue r.id)) :
    Settled ⟨(reclaimStuckInFlight endpointId stuckInFlightThresholdSeconds now).onRow r,
      committed⟩ ↔ (isOpen endpointId r = true → Enqueueable raises now queue r.id) := by
  have hid := (Writer.reclaim endpointId stuckInFlightThresholdSeconds now).keepsKey.onRow r
  have hstatus := status_reclaimed hwell hlate howner
  by_cases hopen : isOpen endpointId r = true
  · rw [if_pos hopen] at hstatus
    rw [Settled, hid, hwaiting hopen]
    constructor
    · intro hsettled _
      rcases hsettled with hterminal | ⟨-, henqueueable⟩
      · exact absurd hstatus (not_claimable_of_terminal hterminal)
      · exact henqueueable
    · intro henqueueable
      exact Or.inr ⟨hstatus, henqueueable hopen⟩
  · rw [if_neg hopen] at hstatus
    simp [Settled, hstatus, hopen]

end Rows

/-- In every state that the forwards reach, a late redrive settles all forwards of its endpoint,
when it is committed, exactly if each open one has a job waiting, or gets one; no job of an open
forward is to start before the commit. -/
theorem redrive_settles_iff {ms : History (List Forward) StoreAction} {forwards : List Forward}
    (h : Run (Steps storeStep) [] ms forwards) {findByToken : String → Option Endpoint}
    {raises : UUID → Bool} {token : String} {now : Datetime} {queue : ArqQueue}
    {endpoint : Endpoint} (hfind : findByToken token = some endpoint)
    (hlate : Late endpoint.id now forwards) :
    ∃ redriven, RedrivePendingForwards.execute findByToken raises token now forwards queue =
        .ok redriven ∧
      ∀ (meanwhile : History ArqQueue QueueAction) (committed : ArqQueue),
        Run (Steps queueStep) redriven.queue meanwhile committed →
        (∀ r ∈ forwards, isOpen endpoint.id r = true → ∀ m ∈ meanwhile, m.act.Apart r.id) →
        ((∀ r ∈ redriven.forwards, r.endpointId = endpoint.id → Settled ⟨r, committed⟩) ↔
          ∀ r ∈ forwards, isOpen endpoint.id r = true → Enqueueable raises now queue r.id) := by
  have hsound : Sound forwards := h.invariant sound_empty fun _ _ _ hs hstep => hs.step hstep
  obtain ⟨redriven, hredriven⟩ : ∃ redriven, RedrivePendingForwards.execute findByToken raises
      token now forwards queue = .ok redriven := by
    simp [RedrivePendingForwards.execute, hfind]
  have hperm := selected_perm hsound hfind hlate hredriven
  have hnodup : redriven.selected.Nodup :=
    hperm.nodup_iff.mpr (hsound.unique.nodup_of_perm_filter (List.Perm.refl _))
  obtain ⟨endpoint', hfind', hforwards, -, -, -⟩ := execute_ok hredriven
  obtain rfl := Option.some.inj (hfind.symm.trans hfind')
  have hqueue : redriven.queue = enqueueAll raises now queue redriven.selected := by
    simp only [RedrivePendingForwards.execute, hfind, Except.ok.injEq] at hredriven
    rw [← hredriven]
    rfl
  refine ⟨redriven, hredriven, ?_⟩
  intro meanwhile committed hmeanwhile hapart
  have hwriter := Writer.reclaim endpoint.id stuckInFlightThresholdSeconds now
  have hmem : ∀ r ∈ forwards, isOpen endpoint.id r = true → r.id ∈ redriven.selected := by
    intro r hr hopen
    exact hperm.mem_iff.mpr (List.mem_map.mpr ⟨r, List.mem_filter.mpr ⟨hr, hopen⟩, rfl⟩)
  have hsettled : ∀ r ∈ forwards, r.endpointId = endpoint.id →
      (Settled ⟨(reclaimStuckInFlight endpoint.id stuckInFlightThresholdSeconds now).onRow r,
        committed⟩ ↔ (isOpen endpoint.id r = true → Enqueueable raises now queue r.id)) := by
    intro r hr howner
    refine settled_reclaimed (hsound.rows r hr) (hlate r hr howner) howner ?_
    intro hopen
    rw [waiting_meanwhile hmeanwhile (hapart r hr hopen), hqueue, waiting_enqueueAll hnodup]
    simp [Enqueueable, hmem r hr hopen]
  constructor
  · intro hall r hr hopen
    have howner : r.endpointId = endpoint.id := by
      simp only [isOpen, decide_eq_true_eq] at hopen
      exact hopen.1
    have hrow : (reclaimStuckInFlight endpoint.id stuckInFlightThresholdSeconds now).onRow r ∈
        redriven.forwards := by
      rw [hforwards]
      exact List.mem_map_of_mem hr
    have hsame := (hwriter.sameOrigin_onRow r).endpoint_eq
    exact (hsettled r hr howner).mp (hall _ hrow (hsame.trans howner)) hopen
  · intro hall r' hr' howner'
    rw [hforwards] at hr'
    obtain ⟨r, hr, rfl⟩ := List.mem_map.mp hr'
    have hsame := (hwriter.sameOrigin_onRow r).endpoint_eq
    exact (hsettled r hr (hsame.symm.trans howner')).mpr fun hopen => hall r hr hopen

/-- Two forwards whose jobs are lost, one of them in flight, and an empty queue; a third forward
is enqueued before the commit. -/
theorem crashed_settled : ∃ forwards redriven meanwhile committed, forwards.length = 2 ∧
    RedrivePendingForwards.execute (fun _ => some sampleEndpoint) (fun _ => false) "tok"
      (seconds 1600) forwards .empty = .ok redriven ∧
    Run (Steps queueStep) redriven.queue meanwhile committed ∧ meanwhile.length = 1 ∧
    ∀ r ∈ redriven.forwards, r.endpointId = sampleEndpoint.id → Settled ⟨r, committed⟩ := by
  have hrun := Run.of_play (Eq.refl (play storeStep [] [] crashed))
  obtain ⟨redriven, hexecute, hiff⟩ := @redrive_settles_iff _ _ hrun (fun _ => some sampleEndpoint)
    (fun _ => false) "tok" (seconds 1600) .empty sampleEndpoint rfl (by decide)
  have hmeanwhile : Run (Steps queueStep) redriven.queue _ _ :=
    .single (show queueStep _ (.enqueue sampleEndpoint.id 0 (seconds 1600)) = some _ from rfl)
  refine ⟨_, redriven, _, _, rfl, hexecute, hmeanwhile, rfl, (hiff _ _ hmeanwhile ?_).mpr ?_⟩
  · intro r hr _ m hm
    obtain rfl := List.mem_singleton.mp hm
    have hids : ∀ id ∈ [sampleForwardId,
        ⟨"5d2e9b10-77c3-4f08-a1b6-94e0c3d8f256", by decide +kernel⟩], id ≠ sampleEndpoint.id := by
      decide
    exact hids r.id (List.mem_map_of_mem (f := Forward.id) hr)
  · intro r _ _
    refine Or.inr ⟨rfl, ?_⟩
    simp [ArqQueue.Taken, ArqQueue.KeepsResult, ArqQueue.empty]

end Hooktrace.RedriveRecovery
