import Hooktrace.ReadCommitted
import Hooktrace.RedrivePendingForwards
import Hooktrace.Transition

/-!
Whether the producers of jobs commit before they enqueue. FastAPI runs the background
tasks of a response while it is sent and leaves the `get_session` dependency, which
commits, after that; redrive enqueues inside its use case. A worker that takes the job
at once looks for a row that may not be committed yet. One request and one worker are
interleaved here on the row of one forward.
-/
namespace Hooktrace.CommitOrder

open Table ReadCommitted ForwardRepository RedrivePendingForwards Transition

inductive ProducerStep where
  | write (r : Forward)
  | enqueue
  | commit

/-- The handler, then the background tasks, then the exit of `get_session`. -/
def respond (handler background : List ProducerStep) : List ProducerStep :=
  handler ++ background ++ [.commit]

inductive Request where
  /-- `saved` is false when `save` raises, which the use case logs. -/
  | capture (endpoint : Endpoint) (forwardId requestId : UUID) (now : Datetime) (saved : Bool)
  | retry (row : Forward) (endpointId : UUID) (now : Datetime)
  | redrive (row : Forward) (endpointId : UUID) (now : Datetime)

/-- `if endpoint.forward_url`, and the save has succeeded. -/
def captureUrl (endpoint : Endpoint) (saved : Bool) : Option String :=
  endpoint.forwardUrl.filter fun url => url ≠ "" ∧ saved

namespace Request

def forwardId : Request → UUID
  | .capture _ forwardId _ _ _ => forwardId
  | .retry row _ _ => row.id
  | .redrive row _ _ => row.id

def before : Request → Option Forward
  | .capture _ _ _ _ _ => none
  | .retry row _ _ => some row
  | .redrive row _ _ => some row

/-- What the request does to the row and its job, in the order in which it does it. -/
def program : Request → List ProducerStep
  | .capture endpoint forwardId requestId now saved =>
    match captureUrl endpoint saved with
    | some url =>
      respond [.write (Forward.create forwardId requestId endpoint.id url now)] [.enqueue]
    | none => respond [] []
  | .retry row endpointId now =>
    match (claimForManualRetry row.id endpointId now).returningRow row with
    | some claimed => respond [.write claimed] [.enqueue]
    -- the 404 leaves the dependency by an exception, with nothing to roll back
    | none => []
  | .redrive row endpointId now =>
    let reclaim := reclaimStuckInFlight endpointId stuckInFlightThresholdSeconds now
    let reclaimed := (reclaim.returningRow row).toList.map ProducerStep.write
    let selected := overdueFailed endpointId now (reclaim.onRow row) ||
      stuckPending endpointId stuckPendingThresholdSeconds now (reclaim.onRow row)
    respond (reclaimed ++ if selected then [.enqueue] else []) []

end Request

inductive WorkerPhase where
  | noJob
  | queued
  | waiting
  | claimed
  | skipped
  deriving DecidableEq

def WorkerPhase.enqueued : WorkerPhase → WorkerPhase
  | .noJob => .queued
  | phase => phase

structure State where
  forwardId : UUID
  row : VersionedRow Forward
  todo : List ProducerStep
  worker : WorkerPhase

inductive Action where
  | producer
  | worker (now : Datetime)

def step (s : State) : Action → Option State
  | .producer => match s.todo with
    | [] => none
    | .write r :: todo => some { s with row := s.row.write r, todo }
    | .enqueue :: todo => some { s with todo, worker := s.worker.enqueued }
    | .commit :: todo => some { s with row := s.row.commit, todo }
  | .worker now =>
    if s.worker = .queued ∨ s.worker = .waiting then
      match s.row.update (claimForAttempt s.forwardId now) with
      | .noRow => some { s with worker := .skipped }
      | .waits => some { s with worker := .waiting }
      | .updated r => some { s with row := { s.row with committed := some r }, worker := .claimed }
    else none

def Request.start (p : Request) : State := ⟨p.forwardId, ⟨p.before, none⟩, p.program, .noJob⟩

inductive Effect (s : State) : Action → State → Prop
  | write {r : Forward} {rest : List ProducerStep} (htodo : s.todo = .write r :: rest) :
      Effect s .producer { s with row := s.row.write r, todo := rest }
  | enqueue {rest : List ProducerStep} (htodo : s.todo = .enqueue :: rest) :
      Effect s .producer { s with todo := rest, worker := s.worker.enqueued }
  | commit {rest : List ProducerStep} (htodo : s.todo = .commit :: rest) :
      Effect s .producer { s with row := s.row.commit, todo := rest }
  | skips {now : Datetime} (hphase : s.worker = .queued ∨ s.worker = .waiting)
      (hrow : s.row.update (claimForAttempt s.forwardId now) = .noRow) :
      Effect s (.worker now) { s with worker := .skipped }
  | waits {now : Datetime} (hphase : s.worker = .queued ∨ s.worker = .waiting)
      (hrow : s.row.update (claimForAttempt s.forwardId now) = .waits) :
      Effect s (.worker now) { s with worker := .waiting }
  | claims {now : Datetime} {r : Forward} (hphase : s.worker = .queued ∨ s.worker = .waiting)
      (hrow : s.row.update (claimForAttempt s.forwardId now) = .updated r) :
      Effect s (.worker now)
        { s with row := { s.row with committed := some r }, worker := .claimed }

theorem step_effect {s u : State} {a : Action} (h : step s a = some u) : Effect s a u := by
  cases a with
  | producer =>
    cases htodo : s.todo with
    | nil => simp [step, htodo] at h
    | cons next rest =>
      cases next with
      | write r =>
        simp only [step, htodo, Option.some.injEq] at h
        exact h ▸ .write htodo
      | enqueue =>
        simp only [step, htodo, Option.some.injEq] at h
        exact h ▸ .enqueue htodo
      | commit =>
        simp only [step, htodo, Option.some.injEq] at h
        exact h ▸ .commit htodo
  | worker now =>
    simp only [step] at h
    split at h
    · rename_i hphase
      split at h
      · rename_i hrow
        exact Option.some.inj h ▸ .skips hphase hrow
      · rename_i hrow
        exact Option.some.inj h ▸ .waits hphase hrow
      · rename_i hrow
        exact Option.some.inj h ▸ .claims hphase hrow
    · simp at h

/-- No enqueue happens while a write of the request is uncommitted. -/
def CommitsFirst (p : Request) : Prop :=
  ∀ ms t, Run (Steps step) p.start ms t → ∀ m ∈ ms, m.act = .producer →
    m.pre.todo.head? = some .enqueue → m.pre.row.written = none

def NeverSkipped (p : Request) : Prop :=
  ∀ ms t, Run (Steps step) p.start ms t → t.worker ≠ .skipped

/-- The request is over, its job has been consumed by a skip, and the row waits for one. -/
def Stranded (t : State) : Prop :=
  t.todo = [] ∧ t.worker = .skipped ∧ ∃ r, t.row.committed = some r ∧ r.status.Claimable

/-- The request creates the row, or moves it to a claimable status. -/
def Moves : Request → Prop
  | .capture endpoint _ _ _ saved => (captureUrl endpoint saved).isSome
  | .retry row endpointId _ => row.endpointId = endpointId ∧
      (row.status = .failed ∨ row.status = .dead ∨ row.status = .abandoned)
  | .redrive row endpointId now => row.endpointId = endpointId ∧ row.status = .inFlight ∧
      ∃ t, row.forwardStartedAt = some t ∧ t < now - seconds stuckInFlightThresholdSeconds

/-- The request moves a row that was not claimable before. -/
def MovesUnclaimable (p : Request) : Prop :=
  Moves p ∧ ∀ r, p.before = some r → ¬ r.status.Claimable

/-- The job's statement finds this version. -/
def Found (forwardId : UUID) (r : Forward) : Prop := r.id = forwardId ∧ r.status.Claimable

/-- A request that moves the row writes it, enqueues it, and commits last. -/
theorem program_of_moves {p : Request} (h : Moves p) :
    ∃ r, p.program = [.write r, .enqueue, .commit] ∧ Found p.forwardId r := by
  cases p with
  | capture endpoint forwardId requestId now saved =>
    obtain ⟨url, hurl⟩ := Option.isSome_iff_exists.mp h
    exact ⟨_, by simp only [Request.program, hurl]; rfl, rfl, Or.inl rfl⟩
  | retry row endpointId now =>
    have hholds : (claimForManualRetry row.id endpointId now).holds row = true :=
      claimForManualRetry_holds.mpr ⟨rfl, h⟩
    refine ⟨(claimForManualRetry row.id endpointId now).assign row, ?_, rfl, Or.inl rfl⟩
    simp only [Request.program, Update.returningRow, hholds, if_true]
    rfl
  | redrive row endpointId now =>
    have hholds : (reclaimStuckInFlight endpointId stuckInFlightThresholdSeconds now).holds row =
      true := reclaimStuckInFlight_holds.mpr h
    have hoverdue : overdueFailed endpointId now
        ((reclaimStuckInFlight endpointId stuckInFlightThresholdSeconds now).assign row) = true :=
      overdueFailed_eq_true.mpr ⟨h.1, rfl, now, rfl, le_refl now⟩
    refine ⟨(reclaimStuckInFlight endpointId stuckInFlightThresholdSeconds now).assign row, ?_,
      rfl, Or.inr rfl⟩
    simp only [Request.program, Update.returningRow, Update.onRow_of_holds _ hholds, hholds,
      hoverdue, if_true, Bool.true_or]
    rfl

/-- A request that does not move the row writes nothing, and enqueues only a claimable
row. -/
theorem program_of_not_moves {p : Request} (h : ¬ Moves p) :
    (∀ r, .write r ∉ p.program) ∧
      (.enqueue ∈ p.program → ∃ r, p.before = some r ∧ Found p.forwardId r) := by
  cases p with
  | capture endpoint forwardId requestId now saved =>
    have hnone : captureUrl endpoint saved = none := by simpa [Moves] using h
    simp [Request.program, hnone, respond]
  | retry row endpointId now =>
    have hnone : (claimForManualRetry row.id endpointId now).returningRow row = none := by
      rcases Update.returningRow_cases _ (claimForManualRetry_holds (r := row)) with
        ⟨hm, _⟩ | ⟨_, hnone⟩
      · exact absurd hm.2 h
      · exact hnone
    simp [Request.program, hnone]
  | redrive row endpointId now =>
    rcases Update.returningRow_cases _ (reclaimStuckInFlight_holds (r := row)) with
      ⟨hm, _⟩ | ⟨hm, hnone⟩
    · exact absurd hm h
    have hrow : (reclaimStuckInFlight endpointId stuckInFlightThresholdSeconds now).onRow row =
      row := by rw [Update.onRow_eq, hnone]; rfl
    simp only [Request.program, hnone, hrow, respond]
    refine ⟨by intro r; split <;> simp, ?_⟩
    intro henqueue
    refine ⟨row, rfl, rfl, ?_⟩
    split at henqueue
    · rename_i hselected
      rcases Bool.or_eq_true_iff.mp hselected with hfailed | hpending
      · exact Or.inr (overdueFailed_eq_true.mp hfailed).2.1
      · exact Or.inl (stuckPending_eq_true.mp hpending).2.1
    · simp at henqueue

/-- The row is found in every version that the worker's statement can meet. -/
structure Open (s : State) : Prop where
  committed : ∃ r, s.row.committed = some r ∧ Found s.forwardId r
  written : ∀ r, s.row.written = some r → Found s.forwardId r
  todo : ∀ r, .write r ∈ s.todo → Found s.forwardId r

/-- The worker has claimed, it will never have a job, or it cannot miss the row. -/
def CannotSkip (s : State) : Prop :=
  s.worker = .claimed ∨ (s.worker = .noJob ∧ .enqueue ∉ s.todo) ∨
    (s.worker ≠ .skipped ∧ Open s)

theorem CannotSkip.not_skipped {s : State} (h : CannotSkip s) : s.worker ≠ .skipped := by
  rcases h with h | ⟨h, _⟩ | ⟨h, _⟩
  · simp [h]
  · simp [h]
  · exact h

theorem WorkerPhase.enqueued_ne_skipped {phase : WorkerPhase} (h : phase ≠ .skipped) :
    phase.enqueued ≠ .skipped := by
  cases phase <;> simp_all [WorkerPhase.enqueued]

theorem CannotSkip.step {s u : State} {a : Action} (h : CannotSkip s) (heffect : Effect s a u) :
    CannotSkip u := by
  cases heffect with
  | @write r rest htodo =>
    rcases h with h | ⟨h, hnone⟩ | ⟨h, hopen⟩
    · exact Or.inl h
    · exact Or.inr (Or.inl ⟨h, fun hmem => hnone (htodo ▸ List.mem_cons_of_mem _ hmem)⟩)
    · refine Or.inr (Or.inr ⟨h, hopen.committed, ?_, ?_⟩)
      · intro r' hr'
        obtain rfl := Option.some.inj hr'
        exact hopen.todo r (htodo ▸ List.mem_cons_self)
      · exact fun r' hr' => hopen.todo r' (htodo ▸ List.mem_cons_of_mem _ hr')
  | @enqueue rest htodo =>
    rcases h with h | ⟨_, hnone⟩ | ⟨h, hopen⟩
    · exact Or.inl (by simp [h, WorkerPhase.enqueued])
    · exact absurd (htodo ▸ List.mem_cons_self) hnone
    · exact Or.inr (Or.inr ⟨WorkerPhase.enqueued_ne_skipped h, hopen.committed, hopen.written,
        fun r' hr' => hopen.todo r' (htodo ▸ List.mem_cons_of_mem _ hr')⟩)
  | @commit rest htodo =>
    rcases h with h | ⟨h, hnone⟩ | ⟨h, hopen⟩
    · exact Or.inl h
    · exact Or.inr (Or.inl ⟨h, fun hmem => hnone (htodo ▸ List.mem_cons_of_mem _ hmem)⟩)
    · refine Or.inr (Or.inr ⟨h, s.row.commit_invariant hopen.committed hopen.written, ?_, ?_⟩)
      · intro r' hr'
        simp [VersionedRow.commit] at hr'
      · exact fun r' hr' => hopen.todo r' (htodo ▸ List.mem_cons_of_mem _ hr')
  | @skips now hphase hrow =>
    rcases h with h | ⟨h, _⟩ | ⟨_, hopen⟩
    · simp [h] at hphase
    · simp [h] at hphase
    · obtain ⟨r, hr, hfound⟩ := hopen.committed
      have hholds : (claimForAttempt s.forwardId now).holds r = true :=
        claimForAttempt_holds.mpr hfound
      rcases s.row.update_of_holds hr hholds with hwaits | ⟨_, hupdated⟩
      · simp [hrow] at hwaits
      · simp [hrow] at hupdated
  | waits hphase _ =>
    rcases h with h | ⟨h, _⟩ | ⟨_, hopen⟩
    · simp [h] at hphase
    · simp [h] at hphase
    · exact Or.inr (Or.inr ⟨by simp, hopen.committed, hopen.written, hopen.todo⟩)
  | claims _ _ => exact Or.inl rfl

theorem neverSkipped_of_cannotSkip {p : Request} (h : CannotSkip p.start) : NeverSkipped p := by
  intro ms t hrun
  have hend := hrun.invariant h fun _ _ _ hs hstep => hs.step (step_effect hstep)
  exact hend.not_skipped

/-- Where nothing is written, nothing is uncommitted at the enqueue. -/
theorem commitsFirst_of_not_moves {p : Request} (h : ¬ Moves p) : CommitsFirst p := by
  intro ms t hrun
  have hall := hrun.always (P := fun _ m => m.pre.row.written = none)
    (J := fun _ s => s.row.written = none ∧ ∀ r, .write r ∉ s.todo)
    ⟨rfl, (program_of_not_moves h).1⟩ ?_
  · intro m hm _ _
    exact always_iff_forall_mem.mp hall.1 m hm
  · intro past s a u hnothing hstep
    obtain ⟨hwritten, hnone⟩ := hnothing
    refine ⟨hwritten, ?_⟩
    cases step_effect hstep with
    | @write r rest htodo => exact absurd (htodo ▸ List.mem_cons_self) (hnone r)
    | enqueue htodo =>
      exact ⟨hwritten, fun r hmem => hnone r (htodo ▸ List.mem_cons_of_mem _ hmem)⟩
    | commit htodo => exact ⟨rfl, fun r hmem => hnone r (htodo ▸ List.mem_cons_of_mem _ hmem)⟩
    | skips _ _ => exact ⟨hwritten, hnone⟩
    | waits _ _ => exact ⟨hwritten, hnone⟩
    | claims _ _ => exact ⟨hwritten, hnone⟩

def afterEnqueue (p : Request) (r : Forward) : State :=
  ⟨p.forwardId, ⟨p.before, some r⟩, [.commit], .queued⟩

theorem run_to_enqueue {p : Request} {r : Forward}
    (hprogram : p.program = [.write r, .enqueue, .commit]) :
    ∃ s, step p.start .producer = some s ∧ s.todo = [.enqueue, .commit] ∧
      s.row.written = some r ∧ step s .producer = some (afterEnqueue p r) := by
  refine ⟨⟨p.forwardId, ⟨p.before, some r⟩, [.enqueue, .commit], .noJob⟩, ?_, rfl, rfl, rfl⟩
  simp only [step, Request.start, hprogram]
  rfl

theorem not_commitsFirst_of_moves {p : Request} (h : Moves p) : ¬ CommitsFirst p := by
  intro hfirst
  obtain ⟨r, hprogram, _⟩ := program_of_moves h
  obtain ⟨s, hwrite, htodo, hwritten, henqueue⟩ := run_to_enqueue hprogram
  have hrun := (Run.single (show Steps step _ _ _ from hwrite)).move henqueue
  have hnone := hfirst _ _ hrun _ List.mem_cons_self rfl (by simp [htodo])
  simp [hwritten] at hnone

/-- The worker comes before the commit, finds nothing to claim, and the row is left
without a job. -/
theorem stranded_of_movesUnclaimable {p : Request} (h : MovesUnclaimable p) :
    ∃ ms t, Run (Steps step) p.start ms t ∧ Stranded t := by
  obtain ⟨r, hprogram, hfound⟩ := program_of_moves h.1
  obtain ⟨s, hwrite, _, _, henqueue⟩ := run_to_enqueue hprogram
  have hrun := (Run.single (show Steps step _ _ _ from hwrite)).move henqueue
  have hnoRow : (afterEnqueue p r).row.update (claimForAttempt p.forwardId 0) = .noRow := by
    refine VersionedRow.update_eq_noRow _ ?_
    intro r' hr'
    have hnot := h.2 r' hr'
    simp [claimForAttempt, hnot]
  have hskip : step (afterEnqueue p r) (.worker 0) =
      some { afterEnqueue p r with worker := .skipped } := by
    have hid : (afterEnqueue p r).forwardId = p.forwardId := rfl
    simp only [step, hid, hnoRow]
    rfl
  have hcommit : step { afterEnqueue p r with worker := .skipped } .producer =
      some ⟨p.forwardId, ⟨some r, none⟩, [], .skipped⟩ := rfl
  exact ⟨_, _, (hrun.move hskip).move hcommit, rfl, rfl, r, rfl, hfound.2⟩

theorem neverSkipped_iff {p : Request} : NeverSkipped p ↔ ¬ MovesUnclaimable p := by
  constructor
  · intro hnever h
    obtain ⟨ms, t, hrun, _, hskipped, _⟩ := stranded_of_movesUnclaimable h
    exact hnever ms t hrun hskipped
  · intro h
    refine neverSkipped_of_cannotSkip ?_
    by_cases hmoves : Moves p
    · -- the row was claimable before, and the job's statement waits for the commit
      obtain ⟨r, hprogram, hfound⟩ := program_of_moves hmoves
      have hbefore : ∃ r, p.before = some r ∧ r.status.Claimable := by
        by_contra hnone
        push Not at hnone
        exact h ⟨hmoves, hnone⟩
      obtain ⟨r₀, hr₀, hclaim⟩ := hbefore
      refine Or.inr (Or.inr ⟨by simp [Request.start], ⟨r₀, hr₀, ?_, hclaim⟩, ?_, ?_⟩)
      · cases p with
        | capture _ _ _ _ _ => simp [Request.before] at hr₀
        | retry row _ _ => exact congrArg Forward.id (Option.some.inj hr₀).symm
        | redrive row _ _ => exact congrArg Forward.id (Option.some.inj hr₀).symm
      · intro r' hr'
        simp [Request.start] at hr'
      · intro r' hr'
        have hmem : ProducerStep.write r' ∈ p.program := hr'
        simp only [hprogram, List.mem_cons, ProducerStep.write.injEq, reduceCtorEq,
          List.not_mem_nil, or_false] at hmem
        exact hmem ▸ hfound
    · obtain ⟨hnone, henqueue⟩ := program_of_not_moves hmoves
      by_cases hjob : .enqueue ∈ p.program
      · refine Or.inr (Or.inr ⟨by simp [Request.start], henqueue hjob, ?_, ?_⟩)
        · intro r' hr'
          simp [Request.start] at hr'
        · intro r' hr'
          exact absurd hr' (hnone r')
      · exact Or.inr (Or.inl ⟨rfl, hjob⟩)

/-- A request commits before it enqueues, and its job is never skipped, exactly when it
does not move the row itself; the job can be lost exactly when it moves a row that was
not claimable before. -/
theorem commitOrder_iff (p : Request) :
    ((CommitsFirst p ∧ NeverSkipped p) ↔ ¬ Moves p) ∧
    (NeverSkipped p ↔ ¬ MovesUnclaimable p) ∧
    (MovesUnclaimable p → ∃ ms t, Run (Steps step) p.start ms t ∧ Stranded t) := by
  refine ⟨⟨?_, ?_⟩, neverSkipped_iff, stranded_of_movesUnclaimable⟩
  · intro horder hmoves
    obtain ⟨hfirst, _⟩ := horder
    exact not_commitsFirst_of_moves hmoves hfirst
  · intro h
    exact ⟨commitsFirst_of_not_moves h, neverSkipped_iff.mpr fun hlost => h hlost.1⟩

/-- The row of one forward takes part in a redrive as its request says. -/
theorem enqueue_mem_redrive {findByToken : String → Option Endpoint} {raises : UUID → Bool}
    {token : String} {now : Datetime} {forwards : List Forward} {queue : ForwardQueue.ArqQueue}
    {redriven : Redriven} {endpoint : Endpoint} {row : Forward}
    (hunique : UniqueKeys Forward.id forwards) (hrow : row ∈ forwards)
    (hfind : findByToken token = some endpoint)
    (h : execute findByToken raises token now forwards queue = .ok redriven) :
    .enqueue ∈ (Request.redrive row endpoint.id now).program ↔ row.id ∈ redriven.selected := by
  obtain ⟨endpoint', hfind', hforwards, hoverdue, hpending, _⟩ := execute_ok h
  obtain rfl := Option.some.inj (hfind.symm.trans hfind')
  have hkeep := (Writer.reclaim endpoint.id stuckInFlightThresholdSeconds now).keepsKey
  have hselect : ∀ p : Forward → Bool, (∃ r ∈ redriven.forwards, r.id = row.id ∧ p r = true) ↔
      p ((reclaimStuckInFlight endpoint.id stuckInFlightThresholdSeconds now).onRow row) =
        true := by
    intro p
    rw [hforwards]
    constructor
    · intro hselected
      obtain ⟨r, hr, hid, hp⟩ := hselected
      obtain ⟨r₀, hr₀, rfl⟩ := List.mem_map.mp hr
      rw [hkeep.onRow r₀] at hid
      rwa [hunique.eq hr₀ hrow hid] at hp
    · intro hp
      exact ⟨_, List.mem_map_of_mem hrow, hkeep.onRow row, hp⟩
  rw [Redriven.selected, List.mem_append, hoverdue, hpending, mem_listOverdueFailed,
    mem_redriveStuckPending, hselect, hselect]
  cases hreclaim : (reclaimStuckInFlight endpoint.id stuckInFlightThresholdSeconds now).returningRow
      row <;>
    simp [Request.program, respond, hreclaim]

def captureRequest : Request :=
  .capture sampleEndpoint sampleForwardId sampleRequest.id (seconds 1000) true

/-- The worker takes the job of a capture before the capture commits. -/
theorem capture_loses_job : ¬ ∀ p, CommitsFirst p ∧ NeverSkipped p := by
  intro hclaim
  have hrun := Run.of_play (Eq.refl (play step [] captureRequest.start
    [.producer, .producer, .worker (seconds 1000), .producer]))
  exact (hclaim captureRequest).2 _ _ hrun rfl

end Hooktrace.CommitOrder
