import Hooktrace.Lifecycle

/-!
The attempt budget. `decide` refuses a further attempt once `attempt_count` has reached
`MAX_ATTEMPTS`, but a reclaim brings a row back without asking it, and a late outcome is
decided by the number of an older claim. As long as neither of the two returns a row
whose budget is used up, the count stays within the budget and bounds the attempts.
-/
namespace Hooktrace.AttemptBudget

open ForwardDecision ForwardRepository ExecuteForward Transition Lifecycle

/-- A reclaim, or an outcome to be tried again, finds the row with budget left. -/
def Budgeted (m : Move State Action) : Prop :=
  match m.act with
  | .reclaim _ _ => Matches m.pre m.act → m.pre.row.attemptCount < maxAttempts
  | .record w answer _ _ => ∀ claimed, m.pre.workers w = some claimed →
      answer.retryable = true → claimed.attemptCount < maxAttempts →
      m.pre.row.attemptCount < maxAttempts
  | _ => True

/-- The attempt count is within the budget, and below it where an attempt may be claimed. -/
structure Within (s : State) : Prop where
  le_max : s.row.attemptCount ≤ maxAttempts
  claimable_lt : s.row.status.Claimable → s.row.attemptCount < maxAttempts
  snapshot : ∀ w claimed, s.workers w = some claimed →
    1 ≤ claimed.attemptCount ∧ claimed.attemptCount ≤ maxAttempts

theorem start_within (id requestId endpointId : UUID) (targetUrl : String) (now : Datetime) :
    Within (start id requestId endpointId targetUrl now) where
  le_max := Nat.zero_le _
  claimable_lt _ := Nat.succ_pos _
  snapshot := by
    intro w claimed hw
    simp [start] at hw

theorem Within.snapshots {s u : State} {a : Action} (hs : Within s) (heffect : Effect s a u)
    (hle : u.row.attemptCount ≤ maxAttempts) :
    ∀ w claimed, u.workers w = some claimed →
      1 ≤ claimed.attemptCount ∧ claimed.attemptCount ≤ maxAttempts := by
  intro w claimed hw
  rcases heffect.workers_cases hw with hold | ⟨_, _, _, rfl, hrow⟩
  · exact hs.snapshot w claimed hold
  · exact ⟨Nat.le_add_left 1 _, hrow ▸ hle⟩

theorem not_claimable_toStatus {n : NextStatus} (h : n ≠ .failed) : ¬ n.toStatus.Claimable := by
  cases n with
  | failed => exact absurd rfl h
  | _ => decide

/-- Each step but the two in the condition leaves a claimable row with budget left. -/
theorem Within.step {s u : State} {a : Action} (hs : Within s) (hC : Budgeted ⟨s, a, u⟩)
    (heffect : Effect s a u) : Within u := by
  have hmax : maxAttempts = 5 := rfl
  have hrow : u.row.attemptCount ≤ maxAttempts ∧
      (u.row.status.Claimable → u.row.attemptCount < maxAttempts) := by
    cases heffect with
    | skip _ => exact ⟨hs.le_max, hs.claimable_lt⟩
    | claim _ hclaim =>
      refine ⟨hs.claimable_lt hclaim, fun h => ?_⟩
      simp [ForwardStatus.Claimable] at h
    | claimExpired hclaim =>
      refine ⟨hs.claimable_lt hclaim, fun h => ?_⟩
      exact absurd h (not_claimable_toStatus (n := .dead) (by simp))
    | @record w answer decidedAt recordedAt claimed call hw hcounted hcall =>
      refine ⟨hs.le_max, fun h => ?_⟩
      rcases recordCall_cases hcounted hcall with ⟨⟨hretry, hlt⟩, _⟩ | ⟨_, hstatus, _⟩
      · exact hC claimed hw hretry hlt
      · refine absurd h (not_claimable_toStatus ?_)
        rw [hstatus]
        split <;> simp
    | crash _ => exact ⟨hs.le_max, hs.claimable_lt⟩
    | abandon _ _ =>
      refine ⟨hs.le_max, fun h => ?_⟩
      simp [ForwardRepository.abandon, ForwardStatus.Claimable] at h
    | @manualRetry e now he hretry =>
      have hlt : (retriedRow s.row now).attemptCount < maxAttempts := by
        rcases hretry with hfailed | hterminal
        · simpa [retriedRow, claimForManualRetry, hfailed] using hs.claimable_lt (Or.inr hfailed)
        · simp [retriedRow, claimForManualRetry, hterminal, hmax]
      exact ⟨Nat.le_of_lt hlt, fun _ => hlt⟩
    | reclaim he hflight hstarted hstuck =>
      exact ⟨hs.le_max, fun _ => hC ⟨he, hflight, _, hstarted, hstuck⟩⟩
  exact ⟨hrow.1, hrow.2, hs.snapshots heffect hrow.1⟩

/-- A step outside the condition leaves a row whose next claim exceeds the budget. -/
theorem overdrawn_of_not_budgeted {s u : State} {a : Action} (heffect : Effect s a u)
    (hC : ¬ Budgeted ⟨s, a, u⟩) : u.row.status.Claimable ∧ maxAttempts ≤ u.row.attemptCount := by
  cases heffect with
  | @record w answer decidedAt recordedAt claimed call hw hcounted hcall =>
    simp only [Budgeted] at hC
    push Not at hC
    obtain ⟨claimed', hw', hretry, hlt, hover⟩ := hC
    obtain rfl := Option.some.inj (hw'.symm.trans hw)
    rcases recordCall_cases hcounted hcall with ⟨_, hfailed, _⟩ | ⟨hnot, _⟩
    · exact ⟨Or.inr (by simp [hfailed, NextStatus.toStatus]), hover⟩
    · exact absurd ⟨hretry, hlt⟩ hnot
  | reclaim _ _ _ _ =>
    simp only [Budgeted] at hC
    push Not at hC
    exact ⟨Or.inr rfl, hC.2⟩
  | skip hskip =>
    cases a with
    | reclaim e now => exact absurd (fun h => absurd h hskip) hC
    | record w answer decidedAt recordedAt => exact absurd trivial hskip
    | _ => exact absurd trivial hC
  | _ => exact absurd trivial hC

instance (m : Move State Action) : Decidable (Claims m) :=
  match hact : m.act with
  | .claim w now => decidable_of_iff m.pre.row.status.Claimable
      ⟨fun h => ⟨Or.inl ⟨w, now, hact⟩, h⟩, fun h => h.2⟩
  | .claimExpired now expiredAt => decidable_of_iff m.pre.row.status.Claimable
      ⟨fun h => ⟨Or.inr ⟨now, expiredAt, hact⟩, h⟩, fun h => h.2⟩
  | .record _ _ _ _ | .crash _ | .abandon _ _ | .manualRetry _ _ | .reclaim _ _ =>
    .isFalse (by rintro ⟨⟨_, _, h⟩ | ⟨_, _, h⟩, _⟩ <;> simp [hact] at h)

instance (m : Move State Action) : Decidable (Revives m) :=
  match hact : m.act with
  | .manualRetry e now => decidable_of_iff
      (m.pre.row.endpointId = e ∧ (m.pre.row.status = .dead ∨ m.pre.row.status = .abandoned))
      ⟨fun h => ⟨⟨e, now, hact⟩, by rw [hact]; exact ⟨h.1, Or.inr h.2⟩, h.2⟩,
        fun h => by obtain ⟨_, hm, hs⟩ := h; rw [hact] at hm; exact ⟨hm.1, hs⟩⟩
  | .claim _ _ | .claimExpired _ _ | .record _ _ _ _ | .crash _ | .abandon _ _
  | .reclaim _ _ => .isFalse (by rintro ⟨⟨_, _, h⟩, _⟩; simp [hact] at h)

/-- The attempts of a run; each delivers at most once. -/
def attempts (ms : History State Action) : ℕ := ms.countP (fun m => Claims m)

/-- The manual retries of a run that brought back a dead or abandoned forward. -/
def revivals (ms : History State Action) : ℕ := ms.countP (fun m => Revives m)

/-- After a revival there is at most one attempt until the row is terminal again. -/
def OneShotPerRevival (ms : History State Action) : Prop :=
  ∀ newer older r, ms = newer ++ r :: older → Revives r →
    (∀ m ∈ newer, ¬ m.pre.row.status.Terminal) → attempts newer ≤ 1

/-- The attempt number that a recording worker passes to `decide`. -/
def CountedDecision (m : Move State Action) : Prop :=
  ∀ w claimed, RecordsBy w claimed m →
    1 ≤ claimed.attemptCount ∧ claimed.attemptCount ≤ maxAttempts

theorem attempts_cons (m : Move State Action) (ms : History State Action) :
    attempts (m :: ms) = attempts ms + if Claims m then 1 else 0 := by
  simp [attempts, List.countP_cons]

theorem revivals_cons (m : Move State Action) (ms : History State Action) :
    revivals (m :: ms) = revivals ms + if Revives m then 1 else 0 := by
  simp [revivals, List.countP_cons]

/-- Attempts are paid for by the attempt count and the revivals. -/
theorem attempts_paid_step {past : History State Action} {s u : State} {a : Action}
    (hs : Within s) (hpaid : attempts past ≤ s.row.attemptCount + revivals past)
    (heffect : Effect s a u) :
    attempts (⟨s, a, u⟩ :: past) ≤ u.row.attemptCount + revivals (⟨s, a, u⟩ :: past) := by
  have hle := hs.le_max
  rw [attempts_cons, revivals_cons]
  rcases heffect.attemptCount_cases with ⟨hclaims, hcount⟩ | ⟨hnot, hrevives, hcount⟩ |
    ⟨hnot, _, hcount⟩
  · rw [if_pos hclaims]
    omega
  · rw [if_neg hnot, if_pos hrevives]
    omega
  · rw [if_neg hnot]
    omega

/-- Where no terminal row is met, only claims change the attempt count. -/
theorem attemptCount_of_open {s t : State} {ms : History State Action}
    (h : Run (Steps step) s ms t) (hown : OwnSnapshots s)
    (hopen : ∀ m ∈ ms, ¬ m.pre.row.status.Terminal) :
    t.row.attemptCount = s.row.attemptCount + attempts ms := by
  have hall := h.guarded (C := fun _ m => ¬ m.pre.row.status.Terminal)
    (P := fun _ _ => True)
    (J := fun past u => OwnSnapshots u ∧ u.row.attemptCount = s.row.attemptCount + attempts past)
    ⟨hown, rfl⟩ ?_ (always_iff_forall_mem.mpr hopen)
  · exact hall.2.2
  · intro past v a u hJ hC hstep
    have heffect := step_effect hJ.1 hstep
    refine ⟨trivial, heffect.ownSnapshots hJ.1, ?_⟩
    rw [attempts_cons]
    rcases heffect.attemptCount_cases with ⟨hclaims, hcount⟩ | ⟨_, hrevives, _⟩ |
      ⟨hnot, _, hcount⟩
    · rw [if_pos hclaims, hcount, hJ.2]
      rfl
    · exact absurd (Or.inr hrevives.2.2) hC
    · rw [if_neg hnot, hcount, hJ.2]
      rfl

theorem oneShotPerRevival {ms : History State Action} {t : State} (h : RunOf ms t)
    (hle : t.row.attemptCount ≤ maxAttempts) : OneShotPerRevival ms := by
  intro newer older r hsplit hrevives hopen
  obtain rfl := hsplit
  obtain ⟨id, requestId, endpointId, targetUrl, now, hrun⟩ := h
  obtain ⟨u, holder, hnewer⟩ := hrun.of_append
  obtain ⟨hbefore, hstep, rfl⟩ := holder.step_of_cons
  have hown := RunOf.ownSnapshots ⟨id, requestId, endpointId, targetUrl, now, hbefore⟩
  have heffect := step_effect hown hstep
  have hfour : r.post.row.attemptCount = maxAttempts - 1 := by
    rcases heffect.attemptCount_cases with ⟨⟨hact, _⟩, _⟩ | ⟨_, _, hcount⟩ | ⟨_, hnot, _⟩
    · obtain ⟨⟨e, now', hretry⟩, _⟩ := hrevives
      rcases hact with ⟨_, _, hact⟩ | ⟨_, _, hact⟩ <;> simp [hretry] at hact
    · exact hcount
    · exact absurd hrevives hnot
  have hcount := attemptCount_of_open hnewer (heffect.ownSnapshots hown) hopen
  have hmax : maxAttempts = 5 := rfl
  omega

/-- The count is within the budget after the move, and would be after a claim that
follows it; a recording worker decides by a number within the budget. -/
def InBudget (m : Move State Action) : Prop :=
  (m.post.row.attemptCount ≤ maxAttempts ∧
    (m.post.row.status.Claimable → m.post.row.attemptCount + 1 ≤ maxAttempts)) ∧
  CountedDecision m

/-- What the budget promises of a run. -/
def KeepsBudget (ms : History State Action) : Prop :=
  Always (fun _ m => InBudget m) ms ∧ OneShotPerRevival ms ∧
    attempts ms ≤ maxAttempts + revivals ms

structure Paid (past : History State Action) (s : State) : Prop where
  within : Within s
  paid : attempts past ≤ s.row.attemptCount + revivals past

theorem Paid.step {past : History State Action} {s u : State} {a : Action}
    (hJ : Paid past s) (hC : Budgeted ⟨s, a, u⟩) (heffect : Effect s a u) :
    InBudget ⟨s, a, u⟩ ∧ Paid (⟨s, a, u⟩ :: past) u := by
  have hu := hJ.within.step hC heffect
  refine ⟨⟨⟨hu.le_max, hu.claimable_lt⟩, ?_⟩, hu, attempts_paid_step hJ.within hJ.paid heffect⟩
  intro w claimed hrecord
  exact hJ.within.snapshot w claimed hrecord.2

/-- A run keeps the budget exactly when its reclaims and late outcomes return no row
whose attempt count has reached it. -/
theorem keepsBudget_iff_budgeted {ms : History State Action} {t : State} (h : RunOf ms t) :
    KeepsBudget ms ↔ Always (fun _ m => Budgeted m) ms := by
  constructor
  · intro hkeeps
    obtain ⟨hall, -, -⟩ := hkeeps
    refine (h.guarded (J := fun _ _ => True) (fun _ _ _ _ _ => trivial) ?_ hall).1
    intro past s a u _ hin heffect
    refine ⟨?_, trivial⟩
    by_contra hC
    obtain ⟨hclaim, hover⟩ := overdrawn_of_not_budgeted heffect hC
    have hfits : u.row.attemptCount + 1 ≤ maxAttempts := hin.1.2 hclaim
    omega
  · intro hbudgeted
    obtain ⟨hall, hJ⟩ := h.guarded (J := Paid)
      (fun id requestId endpointId targetUrl now => ⟨start_within .., Nat.zero_le _⟩)
      (fun _ _ _ _ hJ hC heffect => hJ.step hC heffect) hbudgeted
    have hle := hJ.within.le_max
    have hpaid := hJ.paid
    exact ⟨hall, oneShotPerRevival h hle, by omega⟩

def crashedAttempt (n : ℕ) : List Action :=
  [.claim n (seconds (1000 + 600 * n)), .crash n,
    .reclaim sample.row.endpointId (seconds (1400 + 600 * n))]

/-- Five workers die in turn, and the row is claimed a sixth time. -/
def sixCrashes : List Action :=
  [1, 2, 3, 4, 5].flatMap crashedAttempt ++ [.claim 6 (seconds 5000)]

theorem crashes_exceed_budget :
    ¬ ∀ ms t, RunOf ms t → Always (fun _ m => m.post.row.attemptCount ≤ maxAttempts) ms := by
  intro hclaim
  have hrun := runOf_sample (Eq.refl (play step [] sample sixCrashes))
  exact absurd (hclaim _ _ hrun).1 (by decide)

theorem one_crash_keeps_budget : ∃ ms t, RunOf ms t ∧ ms.length = 3 ∧ KeepsBudget ms := by
  have hrun := runOf_sample (Eq.refl (play step [] sample (crashedAttempt 1)))
  refine ⟨_, _, hrun, rfl, (keepsBudget_iff_budgeted hrun).mpr ?_⟩
  exact ⟨fun _ => by decide, trivial, trivial, trivial⟩

end Hooktrace.AttemptBudget
