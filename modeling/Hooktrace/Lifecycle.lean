import Hooktrace.ExecuteForward
import Hooktrace.RedrivePendingForwards
import Hooktrace.Transition

/-!
The life of one forward under any number of workers, its owner and redrives. Every
statement on the row is atomic; between the commit of its claim and the commit of
its record a worker holds only the snapshot that the claim returned. Workers may
also stop in between, and every actor may come with any clock reading, so that a
run of this machine is one interleaving of the five writers.

`step_effect` says once what a step does; the results on runs are case analyses
over `Effect`.
-/
namespace Hooktrace.Lifecycle

open Table ForwardDecision ForwardRepository ExecuteForward Transition
open RedrivePendingForwards (stuckInFlightThresholdSeconds)

/-- Runs of the arq job are told apart by a number; there are as many as it takes. -/
abbrev WorkerId := ℕ

structure State where
  row : Forward
  workers : WorkerId → Option Forward

inductive Action where
  /-- TX1, when endpoint and request are found and the body is loaded. -/
  | claim (w : WorkerId) (now : Datetime)
  /-- TX1, when the endpoint or the request is gone. -/
  | claimExpired (now expiredAt : Datetime)
  /-- TX2, after the target's answer. -/
  | record (w : WorkerId) (answer : TargetAnswer) (decidedAt recordedAt : Datetime)
  /-- The worker dies, is cancelled or leaves by an uncaught exception. -/
  | crash (w : WorkerId)
  | abandon (endpointId : UUID) (now : Datetime)
  | manualRetry (endpointId : UUID) (now : Datetime)
  | reclaim (endpointId : UUID) (now : Datetime)
  deriving DecidableEq

def forget (workers : WorkerId → Option Forward) (w : WorkerId) : WorkerId → Option Forward :=
  Function.update workers w none

def step (s : State) : Action → Option State
  | .claim w now =>
    if s.workers w = none then
      match (claimForAttempt s.row.id now).returningRow s.row with
      | none => some s
      | some claimed => some ⟨claimed, Function.update s.workers w (some claimed)⟩
    else none
  | .claimExpired now expiredAt =>
    match (claimForAttempt s.row.id now).returningRow s.row with
    | none => some s
    | some claimed =>
      some { s with row := (recordOutcome s.row.id expiredOutcome expiredAt).onRow claimed }
  | .record w answer decidedAt recordedAt =>
    match s.workers w with
    | none => none
    | some claimed =>
      match recordCall claimed.attemptCount answer.result decidedAt with
      | none => some { s with workers := forget s.workers w }
      | some call =>
        some ⟨(recordOutcome claimed.id call.outcome recordedAt).onRow s.row, forget s.workers w⟩
  | .crash w =>
    match s.workers w with
    | none => none
    | some _ => some { s with workers := forget s.workers w }
  | .abandon endpointId now =>
    some { s with row := (ForwardRepository.abandon s.row.id endpointId now).onRow s.row }
  | .manualRetry endpointId now =>
    some { s with row := (claimForManualRetry s.row.id endpointId now).onRow s.row }
  | .reclaim endpointId now =>
    some { s with row :=
      (reclaimStuckInFlight endpointId stuckInFlightThresholdSeconds now).onRow s.row }

def Matches (s : State) : Action → Prop
  | .claim _ _ => s.row.status.Claimable
  | .claimExpired _ _ => s.row.status.Claimable
  | .record _ _ _ _ => True
  | .crash _ => True
  | .abandon endpointId _ => s.row.endpointId = endpointId ∧ ¬ s.row.status.Terminal
  | .manualRetry endpointId _ => s.row.endpointId = endpointId ∧
      (s.row.status = .failed ∨ s.row.status = .dead ∨ s.row.status = .abandoned)
  | .reclaim endpointId now => s.row.endpointId = endpointId ∧ s.row.status = .inFlight ∧
      ∃ t, s.row.forwardStartedAt = some t ∧ t < now - seconds stuckInFlightThresholdSeconds

def claimedRow (r : Forward) (now : Datetime) : Forward := (claimForAttempt r.id now).assign r

def recordedRow (r : Forward) (outcome : Outcome) (now : Datetime) : Forward :=
  (recordOutcome r.id outcome now).assign r

def retriedRow (r : Forward) (now : Datetime) : Forward :=
  (claimForManualRetry r.id r.endpointId now).assign r

section Rows

variable (r : Forward) (outcome : Outcome) (now : Datetime)

@[simp] theorem claimedRow_status : (claimedRow r now).status = .inFlight := rfl

@[simp] theorem claimedRow_attemptCount :
    (claimedRow r now).attemptCount = r.attemptCount + 1 := rfl

@[simp] theorem recordedRow_status :
    (recordedRow r outcome now).status = outcome.nextStatus.toStatus := rfl

@[simp] theorem recordedRow_attemptCount :
    (recordedRow r outcome now).attemptCount = r.attemptCount := rfl

@[simp] theorem retriedRow_status : (retriedRow r now).status = .pending := rfl

end Rows

inductive Effect (s : State) : Action → State → Prop
  | skip {a : Action} (hskip : ¬ Matches s a) : Effect s a s
  | claim {w : WorkerId} {now : Datetime} (hidle : s.workers w = none)
      (hclaim : s.row.status.Claimable) :
      Effect s (.claim w now)
        ⟨claimedRow s.row now, Function.update s.workers w (some (claimedRow s.row now))⟩
  | claimExpired {now expiredAt : Datetime} (hclaim : s.row.status.Claimable) :
      Effect s (.claimExpired now expiredAt)
        { s with row := recordedRow (claimedRow s.row now) expiredOutcome expiredAt }
  | record {w : WorkerId} {answer : TargetAnswer} {decidedAt recordedAt : Datetime}
      {claimed : Forward} {call : RecordCall} (hw : s.workers w = some claimed)
      (hcounted : 1 ≤ claimed.attemptCount)
      (hcall : recordCall claimed.attemptCount answer.result decidedAt = some call) :
      Effect s (.record w answer decidedAt recordedAt)
        ⟨recordedRow s.row call.outcome recordedAt, forget s.workers w⟩
  | crash {w : WorkerId} {claimed : Forward} (hw : s.workers w = some claimed) :
      Effect s (.crash w) { s with workers := forget s.workers w }
  | abandon {endpointId : UUID} {now : Datetime} (he : s.row.endpointId = endpointId)
      (hopen : ¬ s.row.status.Terminal) :
      Effect s (.abandon endpointId now)
        { s with row := (ForwardRepository.abandon s.row.id endpointId now).assign s.row }
  | manualRetry {endpointId : UUID} {now : Datetime} (he : s.row.endpointId = endpointId)
      (hretry : s.row.status = .failed ∨ s.row.status = .dead ∨ s.row.status = .abandoned) :
      Effect s (.manualRetry endpointId now) { s with row := retriedRow s.row now }
  | reclaim {endpointId : UUID} {now t : Datetime} (he : s.row.endpointId = endpointId)
      (hflight : s.row.status = .inFlight) (hstarted : s.row.forwardStartedAt = some t)
      (hstuck : t < now - seconds stuckInFlightThresholdSeconds) :
      Effect s (.reclaim endpointId now)
        { s with row := { s.row with status := .failed, nextAttemptAt := some now } }

def OwnSnapshots (s : State) : Prop :=
  ∀ w claimed, s.workers w = some claimed → claimed.id = s.row.id ∧ 1 ≤ claimed.attemptCount

theorem recordCall_isSome (n : ℕ) (http : HttpPhase) (decidedAt : Datetime) :
    (recordCall n http decidedAt).isSome := by
  unfold recordCall
  cases http.ssrfError with
  | some message => rfl
  | none => simpa using decide_isSome n http.httpStatus http.networkError

theorem recorded_claimedRow (r : Forward) (now : Datetime) (outcome : Outcome)
    (recordedAt : Datetime) :
    (recordOutcome r.id outcome recordedAt).onRow ((claimForAttempt r.id now).assign r) =
      recordedRow (claimedRow r now) outcome recordedAt :=
  Update.onRow_of_holds _ (recordOutcome_holds.mpr rfl)

theorem step_effect {s t : State} {a : Action} (hown : OwnSnapshots s)
    (h : step s a = some t) : Effect s a t := by
  cases a with
  | claim w now =>
    simp only [step] at h
    split at h
    · rename_i hidle
      rcases Update.returningRow_cases _ (claimForAttempt_holds (r := s.row)) with
        ⟨hm, hreturn⟩ | ⟨hm, hreturn⟩
      all_goals
        rw [hreturn] at h
        obtain rfl := Option.some.inj h
      · exact .claim hidle hm.2
      · exact .skip (fun hclaim => hm ⟨rfl, hclaim⟩)
    · simp at h
  | claimExpired now expiredAt =>
    simp only [step] at h
    rcases Update.returningRow_cases _ (claimForAttempt_holds (r := s.row)) with
      ⟨hm, hreturn⟩ | ⟨hm, hreturn⟩
    all_goals
      rw [hreturn] at h
      obtain rfl := Option.some.inj h
    · exact recorded_claimedRow s.row now expiredOutcome expiredAt ▸ .claimExpired hm.2
    · exact .skip (fun hclaim => hm ⟨rfl, hclaim⟩)
  | record w answer decidedAt recordedAt =>
    simp only [step] at h
    cases hw : s.workers w with
    | none => simp [hw] at h
    | some claimed =>
      obtain ⟨call, hcall⟩ := Option.isSome_iff_exists.mp
        (recordCall_isSome claimed.attemptCount answer.result decidedAt)
      simp only [hw, hcall] at h
      obtain rfl := Option.some.inj h
      obtain ⟨hid, hcounted⟩ := hown w claimed hw
      rw [hid, Update.onRow_of_holds _ (recordOutcome_holds.mpr rfl)]
      exact .record hw hcounted hcall
  | crash w =>
    simp only [step] at h
    cases hw : s.workers w with
    | none => simp [hw] at h
    | some claimed =>
      simp only [hw] at h
      obtain rfl := Option.some.inj h
      exact .crash hw
  | abandon endpointId now =>
    obtain rfl := Option.some.inj h
    rcases (ForwardRepository.abandon s.row.id endpointId now).onRow_cases
      (abandon_holds (r := s.row)) with ⟨hm, hrow⟩ | ⟨hm, hrow⟩
    all_goals rw [hrow]
    · exact .abandon hm.2.1 hm.2.2
    · exact .skip (fun hopen => hm ⟨rfl, hopen⟩)
  | manualRetry endpointId now =>
    obtain rfl := Option.some.inj h
    rcases (claimForManualRetry s.row.id endpointId now).onRow_cases
      (claimForManualRetry_holds (r := s.row)) with ⟨hm, hrow⟩ | ⟨hm, hrow⟩
    all_goals rw [hrow]
    · exact .manualRetry hm.2.1 hm.2.2
    · exact .skip (fun hretry => hm ⟨rfl, hretry⟩)
  | reclaim endpointId now =>
    obtain rfl := Option.some.inj h
    rcases Update.onRow_cases _ (reclaimStuckInFlight_holds (r := s.row)) with
      ⟨hm, hrow⟩ | ⟨hm, hrow⟩
    all_goals rw [hrow]
    · obtain ⟨he, hflight, t, hstarted, hstuck⟩ := hm
      exact .reclaim he hflight hstarted hstuck
    · exact .skip hm

theorem Effect.sameOrigin {s t : State} {a : Action} (h : Effect s a t) :
    SameOrigin s.row t.row := by
  cases h <;> exact ⟨rfl, rfl, rfl, rfl, rfl⟩

theorem forget_eq_some {workers : WorkerId → Option Forward} {w v : WorkerId} {f : Forward} :
    forget workers w v = some f ↔ v ≠ w ∧ workers v = some f := by
  by_cases hv : v = w
  · subst hv
    simp [forget]
  · simp [forget, hv]

/-- A worker carries on with what it had, or has just claimed the row. -/
theorem Effect.workers_cases {s t : State} {a : Action} (h : Effect s a t) {w : WorkerId}
    {claimed : Forward} (hw : t.workers w = some claimed) :
    s.workers w = some claimed ∨ (∃ now, a = .claim w now ∧ s.row.status.Claimable ∧
      claimed = claimedRow s.row now ∧ t.row = claimed) := by
  cases h with
  | @claim v now hidle hclaim =>
    by_cases hwv : w = v
    · subst w
      obtain rfl : claimedRow s.row now = claimed := by simpa using hw
      exact Or.inr ⟨now, rfl, hclaim, rfl, rfl⟩
    · exact Or.inl (by simpa [hwv] using hw)
  | record _ _ _ => exact Or.inl (forget_eq_some.mp hw).2
  | crash _ => exact Or.inl (forget_eq_some.mp hw).2
  | _ => exact Or.inl hw

theorem Effect.ownSnapshots {s t : State} {a : Action} (h : Effect s a t)
    (hs : OwnSnapshots s) : OwnSnapshots t := by
  intro w claimed hw
  rcases h.workers_cases hw with hold | ⟨now, _, _, rfl, hrow⟩
  · rw [h.sameOrigin.id_eq]
    exact hs w claimed hold
  · exact ⟨by rw [hrow], Nat.le_add_left 1 s.row.attemptCount⟩

/-- The state left by the commit that creates the forward. -/
def start (id requestId endpointId : UUID) (targetUrl : String) (now : Datetime) : State :=
  ⟨Forward.create id requestId endpointId targetUrl now, fun _ => none⟩

/-- The moves made on a forward since its creation, and the state they led to. -/
def RunOf (ms : History State Action) (t : State) : Prop :=
  ∃ id requestId endpointId targetUrl now,
    Run (Steps step) (start id requestId endpointId targetUrl now) ms t

theorem start_ownSnapshots (id requestId endpointId : UUID) (targetUrl : String)
    (now : Datetime) : OwnSnapshots (start id requestId endpointId targetUrl now) := by
  intro w claimed hw
  simp [start] at hw

namespace RunOf

theorem ownSnapshots {ms : History State Action} {t : State} (h : RunOf ms t) :
    OwnSnapshots t := by
  obtain ⟨id, requestId, endpointId, targetUrl, now, hrun⟩ := h
  exact hrun.invariant (start_ownSnapshots id requestId endpointId targetUrl now)
    (fun _ _ _ hown hstep => (step_effect hown hstep).ownSnapshots hown)

/-- The rule for results on runs: an invariant of past and state, kept by every effect
that the guard allows. -/
theorem guarded {C P : History State Action → Move State Action → Prop}
    {J : History State Action → State → Prop} {ms : History State Action} {t : State}
    (h : RunOf ms t)
    (hinit : ∀ id requestId endpointId targetUrl now,
      J [] (start id requestId endpointId targetUrl now))
    (hmove : ∀ past s a u, J past s → C past ⟨s, a, u⟩ → Effect s a u →
      P past ⟨s, a, u⟩ ∧ J (⟨s, a, u⟩ :: past) u)
    (hguard : Always C ms) : Always P ms ∧ J ms t := by
  obtain ⟨id, requestId, endpointId, targetUrl, now, hrun⟩ := h
  have hall := hrun.guarded (C := C) (P := P) (J := fun past s => OwnSnapshots s ∧ J past s)
    ⟨start_ownSnapshots id requestId endpointId targetUrl now,
      hinit id requestId endpointId targetUrl now⟩
    (fun past s a u hJ hC hstep => by
      have heffect := step_effect hJ.1 hstep
      obtain ⟨hP, hnext⟩ := hmove past s a u hJ.2 hC heffect
      exact ⟨hP, heffect.ownSnapshots hJ.1, hnext⟩)
    hguard
  exact ⟨hall.1, hall.2.2⟩

theorem effect {ms : History State Action} {t : State} (h : RunOf ms t)
    {m : Move State Action} (hm : m ∈ ms) : Effect m.pre m.act m.post := by
  obtain ⟨id, requestId, endpointId, targetUrl, now, hrun⟩ := h
  have hall := hrun.always (P := fun _ m => Effect m.pre m.act m.post)
    (J := fun _ s => OwnSnapshots s) (start_ownSnapshots id requestId endpointId targetUrl now)
    (fun _ _ _ _ hown hstep =>
      ⟨step_effect hown hstep, (step_effect hown hstep).ownSnapshots hown⟩)
  exact always_iff_forall_mem.mp hall.1 m hm

end RunOf

/-- In this move the worker claims the row, to deliver it. -/
def ClaimsBy (w : WorkerId) (m : Move State Action) : Prop :=
  (∃ now, m.act = .claim w now) ∧ m.pre.row.status.Claimable

/-- In this move the worker, which had claimed the row as `claimed`, records. -/
def RecordsBy (w : WorkerId) (claimed : Forward) (m : Move State Action) : Prop :=
  (∃ answer decidedAt recordedAt, m.act = .record w answer decidedAt recordedAt) ∧
    m.pre.workers w = some claimed

/-- In this move some worker claims the row, be it to find that the request is gone. -/
def Claims (m : Move State Action) : Prop :=
  ((∃ w now, m.act = .claim w now) ∨ ∃ now expiredAt, m.act = .claimExpired now expiredAt) ∧
    m.pre.row.status.Claimable

/-- In this move the owner brings a dead or abandoned row back. -/
def Revives (m : Move State Action) : Prop :=
  (∃ endpointId now, m.act = .manualRetry endpointId now) ∧ Matches m.pre m.act ∧
    (m.pre.row.status = .dead ∨ m.pre.row.status = .abandoned)

/-- The attempt number is raised by a claim, set to one below the budget by a revival,
and kept by everything else. -/
theorem Effect.attemptCount_cases {s t : State} {a : Action} (h : Effect s a t) :
    (Claims ⟨s, a, t⟩ ∧ t.row.attemptCount = s.row.attemptCount + 1) ∨
    (¬ Claims ⟨s, a, t⟩ ∧ Revives ⟨s, a, t⟩ ∧ t.row.attemptCount = maxAttempts - 1) ∨
    (¬ Claims ⟨s, a, t⟩ ∧ ¬ Revives ⟨s, a, t⟩ ∧ t.row.attemptCount = s.row.attemptCount) := by
  cases h with
  | skip hskip =>
    refine Or.inr (Or.inr ⟨?_, fun hrevives => hskip hrevives.2.1, rfl⟩)
    intro hclaims
    rcases hclaims with ⟨⟨w, now, hact⟩ | ⟨now, expiredAt, hact⟩, hclaim⟩
    all_goals
      obtain rfl : a = _ := hact
      exact hskip hclaim
  | @claim w now hidle hclaim => exact Or.inl ⟨⟨Or.inl ⟨w, now, rfl⟩, hclaim⟩, rfl⟩
  | @claimExpired now expiredAt hclaim =>
    exact Or.inl ⟨⟨Or.inr ⟨now, expiredAt, rfl⟩, hclaim⟩, rfl⟩
  | @manualRetry e now he hretry =>
    have hnot : ¬ Claims ⟨s, .manualRetry e now, { s with row := retriedRow s.row now }⟩ := by
      rintro ⟨⟨_, _, hact⟩ | ⟨_, _, hact⟩, _⟩ <;> cases hact
    by_cases hdead : s.row.status = .dead ∨ s.row.status = .abandoned
    · refine Or.inr (Or.inl ⟨hnot, ⟨⟨e, now, rfl⟩, ⟨he, hretry⟩, hdead⟩, ?_⟩)
      simp [retriedRow, claimForManualRetry, hdead]
    · refine Or.inr (Or.inr ⟨hnot, fun hrevives => hdead hrevives.2.2, ?_⟩)
      simp [retriedRow, claimForManualRetry, hdead]
  | _ =>
    refine Or.inr (Or.inr ⟨?_, ?_, rfl⟩)
    · rintro ⟨⟨_, _, hact⟩ | ⟨_, _, hact⟩, _⟩ <;> cases hact
    · intro hrevives
      obtain ⟨⟨_, _, hact⟩, _⟩ := hrevives
      cases hact

theorem not_claimsBy_of_skip {s t : State} {a : Action} (hskip : ¬ Matches s a) (w : WorkerId) :
    ¬ ClaimsBy w ⟨s, a, t⟩ := by
  intro hclaims
  obtain ⟨⟨now, ha⟩, hclaim⟩ := hclaims
  obtain rfl : a = .claim w now := ha
  exact hskip hclaim

def sample : State :=
  start sampleForwardId sampleRequest.id sampleEndpoint.id "https://api.example.com/webhook"
    (seconds 1000)

theorem runOf_sample {as : List Action} {ms : History State Action} {t : State}
    (h : play step [] sample as = some (ms, t)) : RunOf ms t :=
  ⟨_, _, _, _, _, Run.of_play h⟩

end Hooktrace.Lifecycle
