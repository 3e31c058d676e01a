import Hooktrace.Lifecycle

/-!
Whether the idempotency key of a delivery identifies the attempt. A claim raises the
attempt number, so keys can only repeat after a manual retry has set it back. It does
so for a dead or abandoned forward that had used up its budget: the attempt after the
retry is number 5 once more. The keys of a run are distinct exactly when no claim
follows such a retry.
-/
namespace Hooktrace.IdempotencyKeys

open Transition Lifecycle

/-- A manual retry finds a dead or abandoned row whose attempt number is at the budget. -/
def SetsBack (m : Move State Action) : Prop :=
  Revives m ∧ maxAttempts ≤ m.pre.row.attemptCount

/-- A claim has a larger attempt number and another key than every claim before it. -/
def FreshKey (past : History State Action) (m : Move State Action) : Prop :=
  Claims m → ∀ m' ∈ past, Claims m' →
    m'.post.row.attemptCount < m.post.row.attemptCount ∧
      m'.post.row.idempotencyKey ≠ m.post.row.idempotencyKey

/-- The claim comes after no manual retry that set the attempt number back. -/
def NotSetBack (past : History State Action) (m : Move State Action) : Prop :=
  Claims m → ∀ m' ∈ past, ¬ SetsBack m'

/-- Unless it was set back, the attempt number bounds those of all claims so far. -/
structure CountBounds (past : History State Action) (s : State) : Prop where
  id_eq : ∀ m ∈ past, m.post.row.id = s.row.id
  bound : (∀ m ∈ past, ¬ SetsBack m) →
    ∀ m ∈ past, Claims m → m.post.row.attemptCount ≤ s.row.attemptCount

theorem CountBounds.step {past : History State Action} {s u : State} {a : Action}
    (hJ : CountBounds past s) (heffect : Effect s a u) :
    CountBounds (⟨s, a, u⟩ :: past) u where
  id_eq := by
    intro m hm
    rcases List.mem_cons.mp hm with rfl | hm
    · rfl
    · rw [hJ.id_eq m hm, heffect.sameOrigin.id_eq]
  bound := by
    intro hnone m hm hclaims
    obtain ⟨hnotBack, hnonePast⟩ := List.forall_mem_cons.mp hnone
    rcases List.mem_cons.mp hm with rfl | hm
    · exact Nat.le_refl _
    have hbound := hJ.bound hnonePast m hm hclaims
    rcases heffect.attemptCount_cases with ⟨_, hcount⟩ | ⟨_, hrevives, hcount⟩ | ⟨_, _, hcount⟩
    · omega
    · -- a revival that does not set the number back raises it or keeps it
      have hbelow : ¬ maxAttempts ≤ s.row.attemptCount := fun h => hnotBack ⟨hrevives, h⟩
      omega
    · omega

theorem freshKey_of_notSetBack {past : History State Action} {s u : State} {a : Action}
    (hJ : CountBounds past s) (hC : NotSetBack past ⟨s, a, u⟩) (heffect : Effect s a u) :
    FreshKey past ⟨s, a, u⟩ := by
  intro hclaims m hm hm'
  have hcount : u.row.attemptCount = s.row.attemptCount + 1 := by
    rcases heffect.attemptCount_cases with ⟨_, hcount⟩ | ⟨hnot, _⟩ | ⟨hnot, _⟩
    · exact hcount
    · exact absurd hclaims hnot
    · exact absurd hclaims hnot
  have hbound := hJ.bound (hC hclaims) m hm hm'
  have hlt : m.post.row.attemptCount < u.row.attemptCount := by omega
  have hid : m.post.row.id = u.row.id := by rw [hJ.id_eq m hm, heffect.sameOrigin.id_eq]
  exact ⟨hlt, fun hkey => Nat.ne_of_lt hlt ((Forward.idempotencyKey_inj hid).mp hkey)⟩

def Claimed (n : ℕ) (past : History State Action) : Prop :=
  ∃ m ∈ past, Claims m ∧ m.post.row.attemptCount = n

/-- A number at the budget was reached by a claim; after a set back with no claim since,
the next claim repeats it. -/
structure BudgetClaimed (past : History State Action) (s : State) : Prop where
  reached : maxAttempts ≤ s.row.attemptCount → Claimed maxAttempts past
  setBack : (∃ m ∈ past, SetsBack m) →
    s.row.attemptCount = maxAttempts - 1 ∧ Claimed maxAttempts past

theorem Claimed.cons {n : ℕ} {past : History State Action} (h : Claimed n past)
    (m : Move State Action) : Claimed n (m :: past) := by
  obtain ⟨m', hm', hclaims⟩ := h
  exact ⟨m', List.mem_cons_of_mem m hm', hclaims⟩

theorem BudgetClaimed.step {past : History State Action} {s u : State} {a : Action}
    (hK : BudgetClaimed past s) (hP : FreshKey past ⟨s, a, u⟩) (heffect : Effect s a u) :
    NotSetBack past ⟨s, a, u⟩ ∧ BudgetClaimed (⟨s, a, u⟩ :: past) u := by
  have hmax : maxAttempts = 5 := rfl
  rcases heffect.attemptCount_cases with ⟨hclaims, hcount⟩ | ⟨hnot, hrevives, hcount⟩ |
    ⟨hnot, hnotRevives, hcount⟩
  · have hnotBack : NotSetBack past ⟨s, a, u⟩ := by
      intro _ m hm hback
      obtain ⟨hfour, m', hm', hclaims', hfive⟩ := hK.setBack ⟨m, hm, hback⟩
      have hlt : m'.post.row.attemptCount < u.row.attemptCount := (hP hclaims m' hm' hclaims').1
      omega
    refine ⟨hnotBack, ⟨?_, ?_⟩⟩
    · intro hreached
      by_cases hfirst : u.row.attemptCount = maxAttempts
      · exact ⟨_, List.mem_cons_self, hclaims, hfirst⟩
      · exact (hK.reached (by omega)).cons _
    · intro hbefore
      obtain ⟨m, hm, hback⟩ := hbefore
      rcases List.mem_cons.mp hm with rfl | hm
      · obtain ⟨⟨⟨e, now, hact⟩, _⟩, _⟩ := hback
        obtain rfl : a = _ := hact
        rcases hclaims with ⟨⟨_, _, hact⟩ | ⟨_, _, hact⟩, _⟩ <;> cases hact
      · exact absurd hback (hnotBack hclaims m hm)
  · refine ⟨fun hclaims => absurd hclaims hnot, ⟨fun hreached => by omega, ?_⟩⟩
    intro hbefore
    obtain ⟨m, hm, hback⟩ := hbefore
    refine ⟨hcount, ?_⟩
    rcases List.mem_cons.mp hm with rfl | hm
    · exact (hK.reached hback.2).cons _
    · exact (hK.setBack ⟨m, hm, hback⟩).2.cons _
  · refine ⟨fun hclaims => absurd hclaims hnot, ⟨?_, ?_⟩⟩
    · intro hreached
      exact (hK.reached (by omega)).cons _
    · intro hbefore
      obtain ⟨m, hm, hback⟩ := hbefore
      rcases List.mem_cons.mp hm with rfl | hm
      · exact absurd hback.1 hnotRevives
      · obtain ⟨hfour, hclaimed⟩ := hK.setBack ⟨m, hm, hback⟩
        exact ⟨hcount.trans hfour, hclaimed.cons _⟩

/-- In a run the attempt numbers of the claims increase, and their keys differ, exactly
when no claim follows a manual retry that set the number back. -/
theorem freshKeys_iff_notSetBack {ms : History State Action} {t : State} (h : RunOf ms t) :
    Always FreshKey ms ↔ Always NotSetBack ms := by
  constructor
  · intro hfresh
    refine (h.guarded (J := BudgetClaimed) ?_ ?_ hfresh).1
    · intro id requestId endpointId targetUrl now
      exact ⟨fun hreached => absurd hreached (Nat.not_succ_le_zero 4), by simp⟩
    · intro past s a u hK hP heffect
      exact hK.step hP heffect
  · intro hback
    refine (h.guarded (J := CountBounds) ?_ ?_ hback).1
    · intro id requestId endpointId targetUrl now
      exact ⟨by simp, by simp⟩
    · intro past s a u hJ hC heffect
      exact ⟨freshKey_of_notSetBack hJ hC heffect, hJ.step heffect⟩

theorem notSetBack_of_forall {ms : History State Action} (h : ∀ m ∈ ms, ¬ SetsBack m) :
    Always NotSetBack ms := by
  induction ms with
  | nil => trivial
  | cons m ms ih =>
    have hpast := (List.forall_mem_cons.mp h).2
    exact ⟨fun _ => hpast, ih hpast⟩

def failingAttempt (n : ℕ) : List Action :=
  [.claim n (seconds (1000 + 60 * n)),
    .record n (.status 503) (seconds (1001 + 60 * n)) (seconds (1001 + 60 * n))]

def retryAfterFive : List Action :=
  [1, 2, 3, 4, 5].flatMap failingAttempt ++
    [.manualRetry sample.row.endpointId (seconds 2000), .claim 6 (seconds 2001)]

/-- The attempt after the retry has the number and the key of the fifth attempt. -/
theorem retry_repeats_key : ¬ ∀ ms t, RunOf ms t → Always FreshKey ms := by
  intro hclaim
  have hrun := runOf_sample (Eq.refl (play step [] sample retryAfterFive))
  have hfresh := (hclaim _ _ hrun).1 ⟨Or.inl ⟨6, seconds 2001, rfl⟩, by decide⟩
  -- the fifth claim is two moves back
  have hfifth := (List.forall_mem_cons.mp (List.forall_mem_cons.mp
    (List.forall_mem_cons.mp hfresh).2).2).1 ⟨Or.inl ⟨5, seconds 1300, rfl⟩, by decide⟩
  exact absurd hfifth.1 (by decide)

/-- Two attempts without a manual retry carry different keys. -/
theorem two_attempts_fresh : ∃ ms t, RunOf ms t ∧ ms.length = 4 ∧ Always FreshKey ms := by
  have hrun := runOf_sample (Eq.refl (play step [] sample
    (failingAttempt 1 ++ failingAttempt 2)))
  refine ⟨_, _, hrun, rfl, (freshKeys_iff_notSetBack hrun).mpr (notSetBack_of_forall ?_)⟩
  simp only [List.forall_mem_cons]
  refine ⟨?_, ?_, ?_, ?_, by simp⟩
  all_goals
    intro hback
    obtain ⟨⟨⟨e, now, hact⟩, _⟩, _⟩ := hback
    cases hact

end Hooktrace.IdempotencyKeys
