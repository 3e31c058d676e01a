import Hooktrace.Lifecycle

/-!
Whether one forward can have two attempts in progress. Every action now happens at an
instant, and a worker is between its claim and its record for no longer than
`job_timeout`: arq has cancelled its job by then. A reclaim asks for a row more than
300 s in flight, so it never meets a worker; a manual retry of an abandoned row does
not ask whether the attempt that was abandoned is over.
-/
namespace Hooktrace.SingleFlight

open ForwardRepository ExecuteForward Transition Lifecycle
open RedrivePendingForwards (stuckInFlightThresholdSeconds)

/-- `WorkerSettings.job_timeout`, in seconds. -/
def jobTimeout : ℕ := 120

structure Timed where
  core : State
  clock : Datetime

def WithinTimeout (claimed : Forward) (t : Datetime) : Prop :=
  ∃ startedAt, claimed.forwardStartedAt = some startedAt ∧ t ≤ startedAt + seconds jobTimeout

/-- The actor has read the clock before its statement takes effect, a worker while its
job runs. -/
def ReadBefore (a : Action) (t : Datetime) : Prop :=
  match a with
  | .claim _ now => now ≤ t ∧ t ≤ now + seconds jobTimeout
  | .claimExpired now expiredAt => now ≤ t ∧ expiredAt ≤ t
  | .record _ _ decidedAt recordedAt => decidedAt ≤ t ∧ recordedAt ≤ t
  | .crash _ => True
  | .abandon _ now => now ≤ t
  | .manualRetry _ now => now ≤ t
  | .reclaim _ now => now ≤ t

instance (a : Action) (t : Datetime) : Decidable (ReadBefore a t) :=
  match a with
  | .claim _ now => inferInstanceAs (Decidable (now ≤ t ∧ t ≤ now + seconds jobTimeout))
  | .claimExpired now expiredAt => inferInstanceAs (Decidable (now ≤ t ∧ expiredAt ≤ t))
  | .record _ _ decidedAt recordedAt =>
    inferInstanceAs (Decidable (decidedAt ≤ t ∧ recordedAt ≤ t))
  | .crash _ => inferInstanceAs (Decidable True)
  | .abandon _ now => inferInstanceAs (Decidable (now ≤ t))
  | .manualRetry _ now => inferInstanceAs (Decidable (now ≤ t))
  | .reclaim _ now => inferInstanceAs (Decidable (now ≤ t))

/-- An action of the row machine at an instant that no job in progress has to be
cancelled before. -/
structure TimedStep (s : Timed) (a : Action × Datetime) (u : Timed) : Prop where
  clock_le : s.clock ≤ a.2
  clock_eq : u.clock = a.2
  timeout : ∀ w claimed, s.core.workers w = some claimed → WithinTimeout claimed a.2
  read : ReadBefore a.1 a.2
  core : step s.core a.1 = some u.core

abbrev TimedMove := Move Timed (Action × Datetime)

def TimedRunOf (ms : History Timed (Action × Datetime)) (t : Timed) : Prop :=
  ∃ id requestId endpointId targetUrl now,
    Run TimedStep ⟨start id requestId endpointId targetUrl now, now⟩ ms t

/-- The worker is between the commit of its claim and the commit of its record. -/
def InProgress (s : State) (w : WorkerId) : Prop := ∃ claimed, s.workers w = some claimed

/-- At most one attempt is in progress, and none where the next one may be claimed. -/
structure Exclusive (s : State) : Prop where
  single : ∀ w w', InProgress s w → InProgress s w' → w = w'
  claimable_idle : s.row.status.Claimable → ∀ w, ¬ InProgress s w

/-- A manual retry that takes effect finds no attempt in progress. -/
def QuietRetry (m : TimedMove) : Prop :=
  ∀ e now, m.act.1 = .manualRetry e now → Matches m.pre.core m.act.1 →
    ∀ w, ¬ InProgress m.pre.core w

/-- An attempt in progress is the only one; the row is in flight since its claim, or
the owner has abandoned it meanwhile. -/
def Flying (s : State) : Prop :=
  ∀ w claimed, s.workers w = some claimed → (∀ w', InProgress s w' → w' = w) ∧
    (s.row.status = .abandoned ∨
      (s.row.status = .inFlight ∧ s.row.forwardStartedAt = claimed.forwardStartedAt))

theorem Flying.exclusive {s : State} (h : Flying s) : Exclusive s where
  single := by
    intro w w' hprogress hw'
    obtain ⟨claimed, hw⟩ := hprogress
    exact ((h w claimed hw).1 w' hw').symm
  claimable_idle := by
    intro hclaim w hprogress
    obtain ⟨claimed, hw⟩ := hprogress
    rcases (h w claimed hw).2 with hrow | ⟨hrow, _⟩
    all_goals simp [hrow, ForwardStatus.Claimable] at hclaim

theorem flying_of_idle {s : State} (h : ∀ w, ¬ InProgress s w) : Flying s :=
  fun w claimed hw => absurd ⟨claimed, hw⟩ (h w)

/-- The worker that records or crashes was the only one. -/
theorem Flying.forget {s u : State} {w : WorkerId} {claimed : Forward} (h : Flying s)
    (hw : s.workers w = some claimed) (hu : u.workers = Lifecycle.forget s.workers w) :
    Flying u := by
  refine flying_of_idle ?_
  intro w' hprogress
  obtain ⟨claimed', hw'⟩ := hprogress
  rw [hu, forget_eq_some] at hw'
  exact hw'.1 ((h w claimed hw).1 w' ⟨claimed', hw'.2⟩)

/-- No reclaim meets an attempt in progress, since the threshold exceeds the timeout. -/
theorem idle_of_reclaim {s : State} {t now startedAt : Datetime} (h : Flying s)
    (htimeout : ∀ w claimed, s.workers w = some claimed → WithinTimeout claimed t)
    (hread : now ≤ t) (hflight : s.row.status = .inFlight)
    (hstarted : s.row.forwardStartedAt = some startedAt)
    (hstuck : startedAt < now - seconds stuckInFlightThresholdSeconds) (w : WorkerId) :
    ¬ InProgress s w := by
  intro hprogress
  obtain ⟨claimed, hw⟩ := hprogress
  obtain ⟨startedAt', hclaimed, hle⟩ := htimeout w claimed hw
  rcases (h w claimed hw).2 with habandoned | ⟨_, heq⟩
  · simp [hflight] at habandoned
  · have hsame : startedAt = startedAt' := by
      simpa [hstarted, hclaimed] using heq
    have hthreshold : seconds jobTimeout + seconds 180 =
        seconds stuckInFlightThresholdSeconds := rfl
    have hmargin : 0 ≤ seconds 180 := by decide
    linarith

theorem Flying.step {s u : State} {a : Action} {t : Datetime} (h : Flying s)
    (htimeout : ∀ w claimed, s.workers w = some claimed → WithinTimeout claimed t)
    (hread : ReadBefore a t) (hquiet : ∀ e now, a = .manualRetry e now → Matches s a →
      ∀ w, ¬ InProgress s w)
    (heffect : Effect s a u) : Flying u := by
  cases heffect with
  | skip _ => exact h
  | @claim v now hidle hclaim =>
    have hnone := h.exclusive.claimable_idle hclaim
    have honly : ∀ w claimed,
        Function.update s.workers v (some (claimedRow s.row now)) w = some claimed →
          w = v ∧ claimed = claimedRow s.row now := by
      intro w claimed hw
      by_cases hwv : w = v
      · subst w
        exact ⟨rfl, by simpa [eq_comm] using hw⟩
      · exact absurd ⟨claimed, by simpa [hwv] using hw⟩ (hnone w)
    intro w claimed hw
    obtain ⟨rfl, rfl⟩ := honly w claimed hw
    refine ⟨?_, Or.inr ⟨rfl, rfl⟩⟩
    intro w' hprogress
    obtain ⟨claimed', hw'⟩ := hprogress
    exact (honly w' claimed' hw').1
  | claimExpired hclaim => exact flying_of_idle (h.exclusive.claimable_idle hclaim)
  | record hw _ _ => exact h.forget hw rfl
  | crash hw => exact h.forget hw rfl
  | abandon _ _ =>
    intro w claimed hw
    exact ⟨(h w claimed hw).1, Or.inl rfl⟩
  | @manualRetry e now he hretry =>
    exact flying_of_idle (hquiet e now rfl ⟨he, hretry⟩)
  | reclaim he hflight hstarted hstuck =>
    have hnone : ∀ w, ¬ InProgress s w := idle_of_reclaim h htimeout hread hflight hstarted hstuck
    exact flying_of_idle hnone

/-- After a manual retry the row may be claimed, so that a worker still at it would have
company. -/
theorem Exclusive.idle_before_retry {s u : State} {e : UUID} {now : Datetime}
    (hu : Exclusive u) (hmatches : Matches s (.manualRetry e now))
    (heffect : Effect s (.manualRetry e now) u) (w : WorkerId) : ¬ InProgress s w := by
  cases heffect with
  | skip hskip => exact absurd hmatches hskip
  | manualRetry _ _ => exact hu.claimable_idle (Or.inl rfl) w

/-- In a run at most one attempt is ever in progress, and none when a claim may follow,
exactly when no manual retry takes effect during an attempt. -/
theorem exclusive_iff_quietRetry {ms : History Timed (Action × Datetime)} {t : Timed}
    (h : TimedRunOf ms t) :
    Always (fun _ m => Exclusive m.post.core) ms ↔ Always (fun _ m => QuietRetry m) ms := by
  obtain ⟨id, requestId, endpointId, targetUrl, now, hrun⟩ := h
  have hstart := start_ownSnapshots id requestId endpointId targetUrl now
  have hidle : ∀ w, ¬ InProgress (start id requestId endpointId targetUrl now) w := by
    intro w hprogress
    obtain ⟨claimed, hw⟩ := hprogress
    simp [start] at hw
  constructor
  · intro hexclusive
    refine (hrun.guarded (J := fun _ s => OwnSnapshots s.core) hstart ?_ hexclusive).1
    intro past s action u hown hC hstep
    obtain ⟨a, instant⟩ := action
    have heffect : Effect s.core a u.core := step_effect hown hstep.core
    refine ⟨?_, heffect.ownSnapshots hown⟩
    intro e now' hact hmatches
    obtain rfl := hact
    exact hC.idle_before_retry hmatches heffect
  · intro hquiet
    refine (hrun.guarded (J := fun _ s => OwnSnapshots s.core ∧ Flying s.core)
      ⟨hstart, flying_of_idle hidle⟩ ?_ hquiet).1
    intro past s a u hJ hC hstep
    obtain ⟨hown, hflying⟩ := hJ
    have heffect := step_effect hown hstep.core
    have hnext := hflying.step hstep.timeout hstep.read hC heffect
    exact ⟨hnext.exclusive, heffect.ownSnapshots hown, hnext⟩

/-- A move of a run in which at most one worker is at work. -/
theorem TimedStep.of_alone {s : Timed} {a : Action} {t : Datetime} {u : State}
    (v : WorkerId) (hothers : ∀ w, w ≠ v → s.core.workers w = none)
    (hv : ∀ claimed, s.core.workers v = some claimed → WithinTimeout claimed t)
    (hclock : s.clock ≤ t) (hread : ReadBefore a t) (hcore : step s.core a = some u) :
    TimedStep s (a, t) ⟨u, t⟩ where
  clock_le := hclock
  clock_eq := rfl
  timeout := by
    intro w claimed hw
    by_cases hwv : w = v
    · exact hv claimed (hwv ▸ hw)
    · simp [hothers w hwv] at hw
  read := hread
  core := hcore

theorem sample_idle (w : WorkerId) : sample.workers w = none := rfl

theorem sample_run : Run TimedStep ⟨sample, seconds 1000⟩ [] ⟨sample, seconds 1000⟩ := .nil

/-- The second attempt starts an hour after the first, when a job with the id of the
first is accepted again; the owner abandons it, presses Retry, and a second worker
claims. -/
theorem retry_starts_second_flight :
    ¬ ∀ ms t, TimedRunOf ms t →
      ∀ w w', InProgress t.core w → InProgress t.core w' → w = w' := by
  intro hclaim
  have hfirst := sample_run.move
    (TimedStep.of_alone (a := .claim 0 (seconds 1001)) (t := seconds 1001) 0
      (fun w _ => sample_idle w) (by simp [sample_idle]) (by decide) (by decide) rfl)
  have hfailed := hfirst.move
    (TimedStep.of_alone (a := .record 0 (.status 503) (seconds 1002) (seconds 1002))
      (t := seconds 1002) 0 (by intro w hw; simp [hw, sample_idle])
      (by intro c hc; cases hc; exact ⟨_, rfl, by decide⟩) (by decide) (by decide) rfl)
  have hsecond := hfailed.move
    (TimedStep.of_alone (a := .claim 0 (seconds 5000)) (t := seconds 5000) 0
      (by intro w hw; simp [hw, sample_idle, forget]) (by simp [forget]) (by decide)
      (by decide) rfl)
  have habandoned := hsecond.move
    (TimedStep.of_alone (a := .abandon sample.row.endpointId (seconds 5003))
      (t := seconds 5003) 0 (by intro w hw; simp [hw, sample_idle, forget])
      (by intro c hc; cases hc; exact ⟨_, rfl, by decide⟩) (by decide) (by decide) rfl)
  have hretried := habandoned.move
    (TimedStep.of_alone (a := .manualRetry sample.row.endpointId (seconds 5005))
      (t := seconds 5005) 0 (by intro w hw; simp [hw, sample_idle, forget])
      (by intro c hc; cases hc; exact ⟨_, rfl, by decide⟩) (by decide) (by decide) rfl)
  have hoverlap := hretried.move
    (TimedStep.of_alone (a := .claim 1 (seconds 5006)) (t := seconds 5006) 0
      (by intro w hw; simp [hw, sample_idle, forget])
      (by intro c hc; cases hc; exact ⟨_, rfl, by decide⟩) (by decide) (by decide) rfl)
  exact absurd (hclaim _ _ ⟨_, _, _, _, _, hoverlap⟩ 0 1 ⟨_, rfl⟩ ⟨_, rfl⟩) (by decide)

/-- An attempt that nobody interrupts is alone. -/
theorem undisturbed_attempt_exclusive : ∃ ms t, TimedRunOf ms t ∧ ms.length = 2 ∧
    Always (fun _ m => Exclusive m.post.core) ms := by
  have hclaimed := sample_run.move
    (TimedStep.of_alone (a := .claim 0 (seconds 1001)) (t := seconds 1001) 0
      (fun w _ => sample_idle w) (by simp [sample_idle]) (by decide) (by decide) rfl)
  have hrecorded := hclaimed.move
    (TimedStep.of_alone (a := .record 0 (.status 200) (seconds 1002) (seconds 1002))
      (t := seconds 1002) 0 (by intro w hw; simp [hw, sample_idle])
      (by intro c hc; cases hc; exact ⟨_, rfl, by decide⟩) (by decide) (by decide) rfl)
  have hrun : TimedRunOf _ _ := ⟨_, _, _, _, _, hrecorded⟩
  refine ⟨_, _, hrun, rfl, (exclusive_iff_quietRetry hrun).mpr ⟨?_, ?_, trivial⟩⟩
  · intro e now hact
    cases hact
  · intro e now hact
    cases hact

end Hooktrace.SingleFlight
