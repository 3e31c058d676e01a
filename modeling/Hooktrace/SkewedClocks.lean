import Hooktrace.SlidingWindow

/-!
The Lua script on one key, called with clocks that disagree. A caller reads its clock before the
script runs, and another process may have run it in between with a later reading; what that one
has dropped from the set, or an expiry of the key, is lost to the earlier one.
-/
namespace Hooktrace.SkewedClocks

open Transition WindowLimiter SlidingWindow

/-- No reading before this one is later by more than the skew, and every call has a member of its
own. -/
def Timely (skew : ℤ) (past : History Key Action) (m : Move Key Action) : Prop :=
  (∀ p ∈ past, p.act.time ≤ m.act.time + skew) ∧
    ∀ p ∈ past, calledWith m = none ∨ calledWith p ≠ calledWith m

instance (skew : ℤ) (past : History Key Action) (m : Move Key Action) :
    Decidable (Timely skew past m) :=
  inferInstanceAs (Decidable (_ ∧ _))

/-- The set holds all admissions that any call to come must not miss. -/
structure Covers (skew window : ℤ) (limit : ℕ) (past : History Key Action) (key : Key) :
    Prop where
  held : ∀ t, (∀ p ∈ past, p.act.time ≤ t + skew) →
    ((admissions window limit past).filter fun a => t + 2 * skew - window < a).Subperm
      key.set.scores
  members : ∀ member ∈ key.set.members, ∃ p ∈ past, calledWith p = some member
  admitted : LooselyAdmitted window (2 * skew) limit (admissions window limit past)
  deadline : ∀ d, key.deadline = some d → ∀ a ∈ admissions window limit past,
    a + window ≤ d + skew

variable {skew window : ℤ} {limit : ℕ} {past : History Key Action} {key : Key} {now : ℤ}
variable {member : String} {m : Move Key Action}

theorem covers_absent : Covers skew window limit [] absent where
  held _ _ := List.nil_subperm
  members member hmember := by simp [absent, SortedSet.empty, SortedSet.members] at hmember
  admitted := .nil
  deadline d hd := by simp [absent] at hd

/-- What a call drops is in the window of no later one. -/
theorem Covers.held_kept (h : Covers skew window limit past key) (hskew : 0 ≤ skew) {t : ℤ}
    (hpast : ∀ p ∈ past, p.act.time ≤ t + skew) (hnow : now ≤ t + skew) :
    ((admissions window limit past).filter fun a => t + 2 * skew - window < a).Subperm
      (key.set.removeUpTo (now - window)).scores := by
  have hkept := (h.held t hpast).filter fun a => now - window < a
  rw [List.filter_filter] at hkept
  rw [SortedSet.scores_removeUpTo]
  have hsame : (fun a : ℤ => decide (now - window < a) && decide (t + 2 * skew - window < a)) =
      fun a => decide (t + 2 * skew - window < a) := by
    funext a
    by_cases ha : t + 2 * skew - window < a
    · have hlater : now - window < a := by omega
      simp [ha, hlater]
    · simp [ha]
  rwa [hsame] at hkept

/-- A call that is let in had not missed more than the slack. -/
theorem Covers.room (h : Covers skew window limit past key) (hskew : 0 ≤ skew)
    (hpast : ∀ p ∈ past, p.act.time ≤ now + skew)
    (hroom : (key.set.removeUpTo (now - window)).card < limit) :
    (admissions window limit past).countP (fun a => now + 2 * skew - window < a) < limit := by
  have hle := (h.held_kept hskew hpast (by omega : now ≤ now + skew)).length_le
  rw [SortedSet.length_scores, ← List.countP_eq_length_filter] at hle
  omega

theorem Covers.reject (h : Covers skew window limit past key) (hskew : 0 ≤ skew)
    (htime : m.act.time = now) (hnone : admission window limit m = none) :
    Covers skew window limit (m :: past) { key with set := key.set.removeUpTo (now - window) } := by
  have hsame : admissions window limit (m :: past) = admissions window limit past := by
    simp [admissions, hnone]
  refine ⟨?_, ?_, ?_, ?_⟩
  · intro t ht
    obtain ⟨hm, hpast⟩ := List.forall_mem_cons.mp ht
    rw [hsame]
    exact h.held_kept hskew hpast (htime ▸ hm)
  · intro member hmember
    obtain ⟨p, hp, hcalled⟩ := h.members member (SortedSet.mem_members_removeUpTo hmember)
    exact ⟨p, List.mem_cons_of_mem _ hp, hcalled⟩
  · rw [hsame]
    exact h.admitted
  · rw [hsame]
    exact h.deadline

theorem Covers.admit (h : Covers skew window limit past key) (hskew : 0 ≤ skew)
    (hpast : ∀ p ∈ past, p.act.time ≤ now + skew)
    (hroom : (key.set.removeUpTo (now - window)).card < limit)
    (hfresh : ∀ p ∈ past, calledWith p ≠ some member) (hact : m.act = .call now member)
    (hsome : admission window limit m = some now) :
    Covers skew window limit (m :: past)
      ⟨(key.set.removeUpTo (now - window)).add now member, some (now + window)⟩ := by
  have hadded : admissions window limit (m :: past) = now :: admissions window limit past := by
    simp [admissions, hsome]
  have hunused : member ∉ (key.set.removeUpTo (now - window)).members := by
    intro hmember
    obtain ⟨p, hp, hcalled⟩ := h.members member (SortedSet.mem_members_removeUpTo hmember)
    exact hfresh p hp hcalled
  refine ⟨?_, ?_, ?_, ?_⟩
  · intro t ht
    obtain ⟨hm, hbefore⟩ := List.forall_mem_cons.mp ht
    have hnow : now ≤ t + skew := by simpa [hact, Action.time] using hm
    have hkept := h.held_kept hskew hbefore hnow
    rw [hadded]
    apply List.Subperm.trans _ (SortedSet.scores_add hunused).symm.subperm
    by_cases hin : t + 2 * skew - window < now
    · rw [List.filter_cons_of_pos (by simpa using hin)]
      exact (List.subperm_cons now).mpr hkept
    · rw [List.filter_cons_of_neg (by simpa using hin)]
      exact hkept.trans (List.sublist_cons_self _ _).subperm
  · intro member' hmember'
    rcases SortedSet.mem_members_add hmember' with rfl | hold
    · exact ⟨m, List.mem_cons_self, by simp [calledWith, hact]⟩
    · obtain ⟨p, hp, hcalled⟩ := h.members member' (SortedSet.mem_members_removeUpTo hold)
      exact ⟨p, List.mem_cons_of_mem _ hp, hcalled⟩
  · rw [hadded]
    exact .cons h.admitted (h.room hskew hpast hroom)
  · intro d hd a ha
    obtain rfl : now + window = d := Option.some.inj hd
    rw [hadded, List.mem_cons] at ha
    rcases ha with rfl | hold
    · omega
    · obtain ⟨p, hp, rfl⟩ := mem_admissions hold
      have hbefore := hpast p hp
      omega

/-- An admission that an expiry drops is in the window of no later call. -/
theorem Covers.expire (h : Covers skew window limit past key) {d : ℤ} (hd : key.deadline = some d)
    (htime : d ≤ m.act.time) (hnone : admission window limit m = none) :
    Covers skew window limit (m :: past) absent := by
  have hsame : admissions window limit (m :: past) = admissions window limit past := by
    simp [admissions, hnone]
  refine ⟨?_, ?_, ?_, ?_⟩
  · intro t ht
    have hexpiry := ht m List.mem_cons_self
    have hgone :
        ((admissions window limit past).filter fun a => t + 2 * skew - window < a) = [] := by
      apply List.filter_eq_nil_iff.mpr
      intro a ha hin
      have hdropped := h.deadline d hd a ha
      have hin : t + 2 * skew - window < a := by simpa using hin
      omega
    rw [hsame, hgone]
    exact List.nil_subperm
  · intro member hmember
    simp [absent, SortedSet.empty, SortedSet.members] at hmember
  · rw [hsame]
    exact h.admitted
  · intro d' hd'
    simp [absent] at hd'

theorem Covers.move (h : Covers skew window limit past key) (hskew : 0 ≤ skew)
    (hlimit : 1 ≤ limit) {a : Action} {key' : Key} (htimely : Timely skew past ⟨key, a, key'⟩)
    (hstep : step window limit key a = some key') :
    Covers skew window limit (⟨key, a, key'⟩ :: past) key' := by
  obtain ⟨hpast, hfresh⟩ := htimely
  cases a with
  | call now member =>
    obtain rfl := Option.some.inj hstep
    by_cases hroom : (key.set.removeUpTo (now - window)).card < limit
    · have hscript := script_allows member hroom
      have hunused : ∀ p ∈ past, calledWith p ≠ some member := by
        intro p hp
        exact (hfresh p hp).resolve_left (by simp [calledWith])
      rw [hscript]
      exact h.admit hskew hpast hroom hunused rfl
        (by simp [admission, reply, hscript, Action.time])
    · obtain ⟨oldest, -, hscript⟩ := script_rejects member hlimit (not_lt.mp hroom)
      rw [hscript]
      exact h.reject hskew rfl (by simp [admission, reply, hscript])
  | expire now =>
    simp only [step] at hstep
    split at hstep
    · simp at hstep
    · rename_i d hd
      split at hstep
      · rename_i hpassed
        obtain rfl := Option.some.inj hstep
        exact h.expire hd hpassed rfl
      · simp at hstep

theorem run_covers {ms : History Key Action} (hskew : 0 ≤ skew) (hlimit : 1 ≤ limit)
    (h : Run (Steps (step window limit)) absent ms key) (htimely : Always (Timely skew) ms) :
    Covers skew window limit ms key := by
  refine (h.guarded (P := fun _ _ => True) covers_absent ?_ htimely).2
  intro past k a k' hcovers hguard hstep
  exact ⟨trivial, hcovers.move hskew hlimit hguard hstep⟩

end Hooktrace.SkewedClocks
