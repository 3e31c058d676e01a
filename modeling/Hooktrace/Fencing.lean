import Hooktrace.Lifecycle

/-!
Whether the outcome of an attempt is fenced by its claim. `record_outcome` addresses
the row by id alone, so a worker writes its outcome also when the owner has abandoned
the forward, or a redrive has reclaimed it, while the attempt was in progress. The
outcome is fenced in exactly those runs in which no abandon and no reclaim falls
between a claim and its record.
-/
namespace Hooktrace.Fencing

open ForwardRepository ExecuteForward Transition Lifecycle

def lastClaim : History State Action → Option WorkerId
  | [] => none
  | m :: past => match m.act with
    | .claim w _ => if m.pre.row.status.Claimable then some w else lastClaim past
    | .claimExpired _ _ => if m.pre.row.status.Claimable then none else lastClaim past
    | _ => lastClaim past

/-- An abandon or a reclaim finds the row in flight. -/
def TakesAway (m : Move State Action) : Prop :=
  m.pre.row.status = .inFlight ∧ Matches m.pre m.act ∧
    ((∃ e now, m.act = .abandon e now) ∨ ∃ e now, m.act = .reclaim e now)

/-- No abandon and no reclaim has taken the row away since the worker's claim. -/
def Undisturbed (w : WorkerId) : History State Action → Prop
  | [] => False
  | m :: past => ClaimsBy w m ∨ (¬ TakesAway m ∧ Undisturbed w past)

/-- A worker that records still holds its claim. -/
def FencedRecord (past : History State Action) (m : Move State Action) : Prop :=
  ∀ w claimed, RecordsBy w claimed m →
    m.pre.row.status = .inFlight ∧ m.pre.row.attemptCount = claimed.attemptCount ∧
      lastClaim past = some w

def AbandonedKept (m : Move State Action) : Prop :=
  m.pre.row.status = .abandoned → m.post.row.status ≠ .abandoned →
    ∃ e now, m.act = .manualRetry e now

def Fenced (past : History State Action) (m : Move State Action) : Prop :=
  FencedRecord past m ∧ AbandonedKept m

def UndisturbedRecord (past : History State Action) (m : Move State Action) : Prop :=
  ∀ w claimed, RecordsBy w claimed m → Undisturbed w past

theorem lastClaim_of_skip {s t : State} {a : Action} {past : History State Action}
    (hskip : ¬ Matches s a) : lastClaim (⟨s, a, t⟩ :: past) = lastClaim past := by
  cases a with
  | claim w now => simp only [lastClaim, if_neg (show ¬ s.row.status.Claimable from hskip)]
  | claimExpired now expiredAt =>
    simp only [lastClaim, if_neg (show ¬ s.row.status.Claimable from hskip)]
  | _ => rfl

/-- A worker that is not disturbed holds the row: it is in flight with the attempt
number of the worker's claim, which is the last one. -/
def HoldsRow (past : History State Action) (s : State) : Prop :=
  ∀ w claimed, s.workers w = some claimed → Undisturbed w past →
    s.row.status = .inFlight ∧ s.row.attemptCount = claimed.attemptCount ∧
      lastClaim past = some w

/-- When the row is not in flight nobody is undisturbed. -/
theorem HoldsRow.not_undisturbed {past : History State Action} {s : State}
    (h : HoldsRow past s) (hflight : s.row.status ≠ .inFlight) {w : WorkerId} {claimed : Forward}
    (hw : s.workers w = some claimed) : ¬ Undisturbed w past :=
  fun hu => hflight (h w claimed hw hu).1

theorem undisturbed_of_not_claim {s u : State} {a : Action} {past : History State Action}
    {w : WorkerId} (hact : ∀ now, a ≠ .claim w now)
    (hu : Undisturbed w (⟨s, a, u⟩ :: past)) :
    ¬ TakesAway ⟨s, a, u⟩ ∧ Undisturbed w past := by
  rcases hu with ⟨⟨now, hclaim⟩, _⟩ | hu
  · exact absurd hclaim (hact now)
  · exact hu

theorem abandonedKept_of_eq {m : Move State Action}
    (h : m.pre.row.status ≠ .abandoned ∨ m.post.row.status = .abandoned) : AbandonedKept m := by
  intro hpre hpost
  rcases h with h | h
  · exact absurd hpre h
  · exact absurd h hpost

theorem not_inFlight_of_claimable {s : ForwardStatus} (h : s.Claimable) :
    s ≠ .inFlight ∧ s ≠ .abandoned := by
  rcases h with rfl | rfl <;> decide

/-- One step under the condition: the outcome is fenced and the holders stay holders. -/
theorem holdsRow_step {past : History State Action} {s u : State} {a : Action}
    (hJ : HoldsRow past s) (hC : UndisturbedRecord past ⟨s, a, u⟩) (heffect : Effect s a u) :
    Fenced past ⟨s, a, u⟩ ∧ HoldsRow (⟨s, a, u⟩ :: past) u := by
  have hfenced : FencedRecord past ⟨s, a, u⟩ := by
    intro w claimed hrecord
    exact hJ w claimed hrecord.2 (hC w claimed hrecord)
  cases heffect with
  | skip hskip =>
    refine ⟨⟨hfenced, ?_⟩, ?_⟩
    · intro hpre hpost
      exact absurd hpre hpost
    · intro w claimed hw hu
      rw [lastClaim_of_skip hskip]
      rcases hu with hclaims | ⟨_, hu⟩
      · exact absurd hclaims (not_claimsBy_of_skip hskip w)
      · exact hJ w claimed hw hu
  | @claim v now hidle hclaim =>
    obtain ⟨hnot, hnotAbandoned⟩ := not_inFlight_of_claimable hclaim
    refine ⟨⟨hfenced, abandonedKept_of_eq (Or.inl hnotAbandoned)⟩, ?_⟩
    intro w claimed hw hu
    by_cases hwv : w = v
    · subst w
      obtain rfl : claimedRow s.row now = claimed := by simpa using hw
      exact ⟨rfl, rfl, by simp [lastClaim, hclaim]⟩
    · have hold : s.workers w = some claimed := by simpa [hwv] using hw
      have hact : ∀ now', Action.claim v now ≠ .claim w now' := by
        intro now' heq
        exact hwv (Action.claim.inj heq).1.symm
      have hpast := (undisturbed_of_not_claim hact hu).2
      exact absurd hpast (hJ.not_undisturbed hnot hold)
  | claimExpired hclaim =>
    obtain ⟨hnot, hnotAbandoned⟩ := not_inFlight_of_claimable hclaim
    refine ⟨⟨hfenced, abandonedKept_of_eq (Or.inl hnotAbandoned)⟩, ?_⟩
    intro w claimed hw hu
    have hpast := (undisturbed_of_not_claim (by simp) hu).2
    exact absurd hpast (hJ.not_undisturbed hnot hw)
  | @record v answer decidedAt recordedAt snapshot call hv hcounted hcall =>
    have hrecord : RecordsBy v snapshot ⟨s, .record v answer decidedAt recordedAt,
        ⟨recordedRow s.row call.outcome recordedAt, forget s.workers v⟩⟩ :=
      ⟨⟨answer, decidedAt, recordedAt, rfl⟩, hv⟩
    obtain ⟨hflight, _, hlast⟩ := hfenced v snapshot hrecord
    have hnotAbandoned : s.row.status ≠ .abandoned := fun h => by simp [h] at hflight
    refine ⟨⟨hfenced, abandonedKept_of_eq (Or.inl hnotAbandoned)⟩, ?_⟩
    intro w claimed hw hu
    obtain ⟨hwv, hold⟩ := forget_eq_some.mp hw
    have hpast := (undisturbed_of_not_claim (by simp) hu).2
    -- two undisturbed workers would both be the last to claim
    have hw' := (hJ w claimed hold hpast).2.2
    exact absurd (Option.some.inj (hw'.symm.trans hlast)) hwv
  | @crash v snapshot hv =>
    refine ⟨⟨hfenced, abandonedKept_of_eq ?_⟩, ?_⟩
    · by_cases habandoned : s.row.status = .abandoned
      · exact Or.inr habandoned
      · exact Or.inl habandoned
    · intro w claimed hw hu
      have hpast := (undisturbed_of_not_claim (by simp) hu).2
      exact hJ w claimed (forget_eq_some.mp hw).2 hpast
  | @abandon e now he hopen =>
    refine ⟨⟨hfenced, abandonedKept_of_eq (Or.inr rfl)⟩, ?_⟩
    intro w claimed hw hu
    obtain ⟨haway, hpast⟩ := undisturbed_of_not_claim (by simp) hu
    have hflight := (hJ w claimed hw hpast).1
    exact absurd ⟨hflight, ⟨he, hopen⟩, Or.inl ⟨e, now, rfl⟩⟩ haway
  | @manualRetry e now he hretry =>
    refine ⟨⟨hfenced, fun _ _ => ⟨e, now, rfl⟩⟩, ?_⟩
    intro w claimed hw hu
    have hnot : s.row.status ≠ .inFlight := by
      rcases hretry with h | h | h <;> simp [h]
    have hpast := (undisturbed_of_not_claim (by simp) hu).2
    exact absurd hpast (hJ.not_undisturbed hnot hw)
  | @reclaim e now t he hflight hstarted hstuck =>
    refine ⟨⟨hfenced, abandonedKept_of_eq (Or.inl (by simp [hflight]))⟩, ?_⟩
    intro w claimed hw hu
    have haway := (undisturbed_of_not_claim (by simp) hu).1
    exact absurd ⟨hflight, ⟨he, hflight, t, hstarted, hstuck⟩, Or.inr ⟨e, now, rfl⟩⟩ haway

def FlightUndisturbed (past : History State Action) (s : State) : Prop :=
  ∀ w claimed, s.workers w = some claimed → lastClaim past = some w →
    s.row.status = .inFlight → Undisturbed w past

theorem toStatus_ne_inFlight (n : ForwardDecision.NextStatus) : n.toStatus ≠ .inFlight := by
  cases n <;> decide

theorem flightUndisturbed_step {past : History State Action} {s u : State} {a : Action}
    (hK : FlightUndisturbed past s) (heffect : Effect s a u) :
    FlightUndisturbed (⟨s, a, u⟩ :: past) u := by
  intro w claimed hw hlast hflight
  cases heffect with
  | skip hskip =>
    rw [lastClaim_of_skip hskip] at hlast
    exact Or.inr ⟨fun haway => hskip haway.2.1, hK w claimed hw hlast hflight⟩
  | @claim v now hidle hclaim =>
    have hvw : v = w := by simpa [lastClaim, hclaim] using hlast
    subst hvw
    exact Or.inl ⟨⟨now, rfl⟩, hclaim⟩
  | claimExpired hclaim => simp [lastClaim, hclaim] at hlast
  | record _ _ _ => exact absurd hflight (toStatus_ne_inFlight _)
  | crash _ =>
    refine Or.inr ⟨?_, hK w claimed (forget_eq_some.mp hw).2 hlast hflight⟩
    rintro ⟨_, _, ⟨e, now, hact⟩ | ⟨e, now, hact⟩⟩ <;> cases hact
  | abandon _ _ => exact absurd hflight (by simp [ForwardRepository.abandon])
  | manualRetry _ _ => exact absurd hflight (by simp [retriedRow, claimForManualRetry])
  | reclaim _ _ _ _ => exact absurd hflight (by simp)

/-- In a run the outcomes are fenced, and abandoned forwards stay abandoned until a
manual retry, exactly when no claim was taken away before its record. -/
theorem fenced_iff_undisturbed {ms : History State Action} {t : State} (h : RunOf ms t) :
    Always Fenced ms ↔ Always UndisturbedRecord ms := by
  constructor
  · intro hfenced
    refine (h.guarded (J := FlightUndisturbed) ?_ ?_ hfenced).1
    · intro id requestId endpointId targetUrl now w claimed hw
      simp [start] at hw
    · intro past s a u hK hC heffect
      refine ⟨?_, flightUndisturbed_step hK heffect⟩
      intro w claimed hrecord
      obtain ⟨hflight, _, hlast⟩ := hC.1 w claimed hrecord
      exact hK w claimed hrecord.2 hlast hflight
  · intro hundisturbed
    refine (h.guarded (J := HoldsRow) ?_ ?_ hundisturbed).1
    · intro id requestId endpointId targetUrl now w claimed hw
      simp [start] at hw
    · intro past s a u hJ hC heffect
      exact holdsRow_step hJ hC heffect

/-- The owner abandons while the first attempt is in progress, and the receiver's 200
arrives afterwards. -/
def lateRecord : List Action :=
  [.claim 0 (seconds 1001), .abandon sample.row.endpointId (seconds 1004),
    .record 0 (.status 200) (seconds 1009) (seconds 1009)]

/-- The late outcome changes a row that is not in flight, and the abandoned forward
becomes succeeded without a retry. -/
theorem late_record_overwrites :
    ¬ ∀ ms t, RunOf ms t → Always (fun _ m =>
      (∀ w claimed, RecordsBy w claimed m → m.post.row ≠ m.pre.row →
        m.pre.row.status = .inFlight ∧ m.pre.row.attemptCount = claimed.attemptCount) ∧
      AbandonedKept m) ms := by
  intro hclaim
  have hrun := runOf_sample (Eq.refl (play step [] sample lateRecord))
  obtain ⟨⟨hfenced, _⟩, _⟩ := hclaim _ _ hrun
  have hlate := hfenced 0 _ ⟨⟨.status 200, seconds 1009, seconds 1009, rfl⟩, rfl⟩ (by decide)
  exact absurd hlate.1 (by decide)

/-- A claim recorded before the owner acts is undisturbed. -/
theorem prompt_record_fenced : ∃ ms t, RunOf ms t ∧ ms.length = 2 ∧ Always Fenced ms := by
  have hrun := runOf_sample (Eq.refl (play step [] sample
    [.claim 0 (seconds 1001), .record 0 (.status 200) (seconds 1002) (seconds 1002)]))
  refine ⟨_, _, hrun, rfl, (fenced_iff_undisturbed hrun).mpr ⟨?_, ?_, trivial⟩⟩
  · intro w claimed hrecord
    obtain ⟨⟨_, _, _, hact⟩, _⟩ := hrecord
    obtain rfl := (Action.record.inj hact).1
    exact Or.inl ⟨⟨_, rfl⟩, by decide⟩
  · intro w claimed hrecord
    obtain ⟨⟨_, _, _, hact⟩, _⟩ := hrecord
    cases hact

end Hooktrace.Fencing
