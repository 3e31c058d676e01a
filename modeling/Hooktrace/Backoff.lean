import Hooktrace.Lifecycle

/-!
Whether the backoff of a failed attempt is respected. The delay that `decide` returns
goes to the queue alone: the row gets the time of the decision, truncated to the second,
as its `next_attempt_at`. From then on it is overdue, and it may be claimed, so the
backoff holds only as long as no redrive and no other job touches the forward.
-/
namespace Hooktrace.Backoff

open Table ForwardDecision ForwardRepository ExecuteForward Transition Lifecycle
open RedrivePendingForwards (Redriven execute_ok)

/-- The attempt is recorded as failed, to be tried again after `d` seconds. -/
def FailsWith (m : Move State Action) (recordedAt : Datetime) (d : ℕ) : Prop :=
  ∃ w answer decidedAt claimed, m.act = .record w answer decidedAt recordedAt ∧
    m.pre.workers w = some claimed ∧
    decide claimed.attemptCount answer.result.httpStatus answer.result.networkError =
      some ⟨.failed, d⟩

/-- The outcome is decided before it is recorded. -/
def ReadInOrder (m : Move State Action) : Prop :=
  ∀ w answer decidedAt recordedAt, m.act = .record w answer decidedAt recordedAt →
    decidedAt ≤ recordedAt

/-- The stored time of the next attempt is not before the end of the backoff. -/
def StoresBackoff (r : Forward) (recordedAt : Datetime) (d : ℕ) : Prop :=
  ∃ t, r.nextAttemptAt = some t ∧ recordedAt + seconds d ≤ t

/-- `list_overdue_failed` and every redrive of the endpoint select the row, in whatever
table it is. -/
def Selected (r : Forward) (now : Datetime) : Prop :=
  ∀ forwards, r ∈ forwards → r.id ∈ listOverdueFailed r.endpointId now forwards ∧
    ∀ findByToken raises token queue endpoint redriven, findByToken token = some endpoint →
      endpoint.id = r.endpointId →
      RedrivePendingForwards.execute findByToken raises token now forwards queue =
        .ok redriven → r.id ∈ redriven.selected

def ClaimSucceeds (r : Forward) (now : Datetime) : Prop :=
  ((claimForAttempt r.id now).returningRow r).isSome

/-- The row that a failed attempt leaves, and its backoff. -/
theorem FailsWith.row {m : Move State Action} {recordedAt : Datetime} {d : ℕ}
    (h : FailsWith m recordedAt d) (heffect : Effect m.pre m.act m.post) :
    m.post.row.status = .failed ∧ 0 < d ∧
      ∃ w answer decidedAt, m.act = .record w answer decidedAt recordedAt ∧
        m.post.row.nextAttemptAt = some decidedAt.replaceMicrosecond := by
  obtain ⟨w, answer, decidedAt, claimed, hact, hw, hdecide⟩ := h
  obtain ⟨s, a, u⟩ := m
  obtain rfl : a = .record w answer decidedAt recordedAt := hact
  have heffect : Effect s (.record w answer decidedAt recordedAt) u := heffect
  cases heffect with
  | skip hskip => exact absurd trivial hskip
  | @record _ _ _ _ claimed' call hw' hcounted hcall =>
    obtain rfl := Option.some.inj (hw.symm.trans hw')
    obtain ⟨_, hretry, hlt⟩ := decide_eq_failed hdecide
    rcases recordCall_cases hcounted hcall with ⟨_, hfailed, hnext, _⟩ | ⟨hnot, _⟩
    · refine ⟨by simp [hfailed, NextStatus.toStatus], ?_, w, answer, decidedAt, rfl, hnext⟩
      have hd := hdecide.symm.trans
        (decide_retry (decide_eq_failed hdecide).1 hretry hcounted hlt)
      obtain rfl : d = backoff claimed.attemptCount := by simpa using hd
      exact backoff_pos hcounted (Nat.le_of_lt hlt)
    · exact absurd ⟨hretry, hlt⟩ hnot

theorem failed_listed {r : Forward} {now t : Datetime} {forwards : List Forward}
    (hfailed : r.status = .failed) (hnext : r.nextAttemptAt = some t) (hle : t ≤ now)
    (hr : r ∈ forwards) : r.id ∈ listOverdueFailed r.endpointId now forwards :=
  mem_listOverdueFailed.mpr
    ⟨r, hr, rfl, overdueFailed_eq_true.mpr ⟨rfl, hfailed, t, hnext, hle⟩⟩

/-- The reclaim leaves a failed row alone, and the redrive lists it. -/
theorem failed_redriven {r : Forward} {now t : Datetime} {forwards : List Forward}
    {findByToken : String → Option Endpoint} {raises : UUID → Bool} {token : String}
    {queue : ForwardQueue.ArqQueue} {endpoint : Endpoint} {redriven : Redriven}
    (hfailed : r.status = .failed) (hnext : r.nextAttemptAt = some t) (hle : t ≤ now)
    (hr : r ∈ forwards) (hfind : findByToken token = some endpoint)
    (he : endpoint.id = r.endpointId)
    (h : RedrivePendingForwards.execute findByToken raises token now forwards queue =
      .ok redriven) : r.id ∈ redriven.selected := by
  obtain ⟨endpoint', hfind', hforwards, hoverdue, _, _⟩ := execute_ok h
  obtain rfl := Option.some.inj (hfind.symm.trans hfind')
  refine List.mem_append_left _ ?_
  rw [hoverdue, he]
  refine failed_listed hfailed hnext hle ?_
  rw [hforwards]
  refine List.mem_map.mpr ⟨r, hr, Update.onRow_of_not _ ?_⟩
  simp [reclaimStuckInFlight, hfailed]

theorem failed_selected {r : Forward} {now t : Datetime} (hfailed : r.status = .failed)
    (hnext : r.nextAttemptAt = some t) (hle : t ≤ now) : Selected r now := by
  intro forwards hr
  refine ⟨failed_listed hfailed hnext hle hr, ?_⟩
  intro findByToken raises token queue endpoint redriven hfind he h
  exact failed_redriven hfailed hnext hle hr hfind he h

/-- A claimable row is claimed by whichever job runs. -/
theorem failed_claimed {r : Forward} (now : Datetime) (hfailed : r.status = .failed) :
    ClaimSucceeds r now := by
  have hholds : (claimForAttempt r.id now).holds r = true :=
    claimForAttempt_holds.mpr ⟨rfl, Or.inr hfailed⟩
  simp [ClaimSucceeds, Update.returningRow, hholds]

/-- Whenever an attempt is recorded as failed its backoff is not stored, and at every
instant of the backoff the forward is selected by redrives and open to a claim. -/
theorem backoff_never_kept {ms : History State Action} {t : State} (h : RunOf ms t)
    (hread : ∀ m ∈ ms, ReadInOrder m) {m : Move State Action} (hm : m ∈ ms)
    {recordedAt : Datetime} {d : ℕ} (hfails : FailsWith m recordedAt d) :
    ¬ StoresBackoff m.post.row recordedAt d ∧ recordedAt < recordedAt + seconds d ∧
    ∀ now, recordedAt ≤ now → now < recordedAt + seconds d →
      Selected m.post.row now ∧ ClaimSucceeds m.post.row now := by
  obtain ⟨hfailed, hpos, w, answer, decidedAt, hact, hnext⟩ := hfails.row (h.effect hm)
  have hdecided := hread m hm w answer decidedAt recordedAt hact
  have htruncated := Datetime.replaceMicrosecond_le decidedAt
  have hd : 0 < seconds d := by
    simp only [seconds]
    omega
  refine ⟨?_, by linarith, ?_⟩
  · intro hstores
    obtain ⟨t', ht', hle⟩ := hstores
    obtain rfl := Option.some.inj (hnext.symm.trans ht')
    linarith
  · intro now hfrom huntil
    exact ⟨failed_selected hfailed hnext (by linarith), failed_claimed now hfailed⟩

def oneFailure : List Action :=
  [.claim 0 (seconds 1001), .record 0 (.status 503) (seconds 1002) (seconds 1002)]

/-- The retry due 30 s after the record is stored as due at the record. -/
theorem failure_due_at_once :
    ¬ ∀ ms t, RunOf ms t → ∀ m ∈ ms, ∀ recordedAt d, FailsWith m recordedAt d →
      StoresBackoff m.post.row recordedAt d := by
  intro hclaim
  have hrun := runOf_sample (Eq.refl (play step [] sample oneFailure))
  obtain ⟨t, ht, hle⟩ := hclaim _ _ hrun _ List.mem_cons_self (seconds 1002) 30
    ⟨0, .status 503, seconds 1002, _, rfl, rfl, by decide⟩
  obtain rfl := Option.some.inj ht
  exact absurd hle (by decide)

theorem failure_open_after_ten_seconds : ∃ ms t, RunOf ms t ∧ ∃ m ∈ ms,
    FailsWith m (seconds 1002) 30 ∧ Selected m.post.row (seconds 1012) ∧
      ClaimSucceeds m.post.row (seconds 1012) := by
  have hrun := runOf_sample (Eq.refl (play step [] sample oneFailure))
  refine ⟨_, _, hrun, _, List.mem_cons_self,
    ⟨0, .status 503, seconds 1002, _, rfl, rfl, by decide⟩, ?_⟩
  refine (@backoff_never_kept _ _ hrun ?_ _ List.mem_cons_self (seconds 1002) 30
    ⟨0, .status 503, seconds 1002, _, rfl, rfl, by decide⟩).2.2 (seconds 1012) ?_ ?_
  · simp only [List.forall_mem_cons]
    refine ⟨?_, ?_, by simp⟩
    · intro w answer decidedAt recordedAt hact
      cases hact
      decide
    · intro w answer decidedAt recordedAt hact
      cases hact
  · decide
  · decide

end Hooktrace.Backoff
