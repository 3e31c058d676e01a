import Mathlib.Data.List.Count
import Mathlib.Data.Int.Init

/-!
Admission over a sliding window, by the full list of past admissions: a call is admitted while
fewer than `limit` were in the window that ends with it. Every window then has at most `limit`
admissions (`Admitted.le_limit`), and a full one admits again when its oldest leaves it
(`admits_later_iff`). Where the clocks of the callers disagree, the limit is kept in windows that
are shorter by as much (`LooselyAdmitted.le_limit`).
-/
namespace Hooktrace.WindowLimiter

section Window

variable (window : ℤ)

def recent (past : List ℤ) (now : ℤ) : ℕ :=
  past.countP fun a => now - window < a ∧ a ≤ now

/-- The times of the admissions, latest first, each within the limit. -/
inductive Admitted (limit : ℕ) : List ℤ → Prop
  | nil : Admitted limit []
  | cons {past : List ℤ} {now : ℤ} : Admitted limit past → (∀ a ∈ past, a ≤ now) →
      recent window past now < limit → Admitted limit (now :: past)

structure Oldest (past : List ℤ) (now a : ℤ) : Prop where
  mem : a ∈ past
  after : now - window < a
  before : a ≤ now
  least : ∀ b ∈ past, now - window < b → a ≤ b

variable {window} {limit : ℕ} {past : List ℤ} {now t a : ℤ}

/-- The admissions of the window that ends with an admission are all of it that lies after the
start of another window around it. -/
theorem countP_le_recent (hle : ∀ a ∈ past, a ≤ now) (hafter : now ≤ t + window) :
    past.countP (fun a => t < a ∧ a ≤ t + window) ≤ recent window past now := by
  refine List.countP_mono_left fun a ha hin => ?_
  have hin : t < a ∧ a ≤ t + window := by simpa using hin
  have hnow := hle a ha
  simp only [decide_eq_true_eq]
  omega

theorem Admitted.le_limit (h : Admitted window limit past) (t : ℤ) :
    past.countP (fun a => t < a ∧ a ≤ t + window) ≤ limit := by
  induction h with
  | nil => simp
  | @cons past now _ hle hadmits ih =>
    by_cases hnow : t < now ∧ now ≤ t + window
    · have hrecent := countP_le_recent hle hnow.2
      rw [List.countP_cons_of_pos (by simpa using hnow)]
      omega
    · rw [List.countP_cons_of_neg (by simpa using hnow)]
      exact ih

theorem Admitted.recent_le (h : Admitted window limit past) (now : ℤ) :
    recent window past now ≤ limit := by
  have hle := h.le_limit (now - window)
  simpa [recent] using hle

/-- After a rejection, and with no other admission, a call is admitted from the moment when the
oldest admission has left the window. -/
theorem admits_later_iff (h : Admitted window limit past) (hle : ∀ a ∈ past, a ≤ now)
    (hfull : limit ≤ recent window past now) (holdest : Oldest window past now a)
    (ht : now ≤ t) : recent window past t < limit ↔ a + window ≤ t := by
  constructor
  · intro hadmits
    by_contra hearly
    have hstill : recent window past now ≤ recent window past t := by
      refine List.countP_mono_left fun b hb hin => ?_
      have hin : now - window < b ∧ b ≤ now := by simpa using hin
      have hleast := holdest.least b hb hin.1
      simp only [decide_eq_true_eq]
      omega
    omega
  · intro hfreed
    obtain ⟨before, after, rfl⟩ := List.append_of_mem holdest.mem
    have hlost : recent window (before ++ a :: after) t <
        recent window (before ++ a :: after) now := by
      have hmono (part : List ℤ) (hpart : ∀ b ∈ part, b ≤ now) :
          recent window part t ≤ recent window part now := by
        refine List.countP_mono_left fun b hb hin => ?_
        have hin : t - window < b ∧ b ≤ t := by simpa using hin
        have hnow := hpart b hb
        simp only [decide_eq_true_eq]
        omega
      have hbefore := hmono before fun b hb => hle b (by simp [hb])
      have hafter := hmono after fun b hb => hle b (by simp [hb])
      have hout : ¬ (t - window < a ∧ a ≤ t) := by omega
      have hin : now - window < a ∧ a ≤ now := ⟨holdest.after, holdest.before⟩
      simp only [recent, List.countP_append] at hbefore hafter ⊢
      rw [List.countP_cons_of_neg (by simpa using hout),
        List.countP_cons_of_pos (by simpa using hin)]
      omega
    have hlimit := h.recent_le now
    omega

end Window

section Loose

/-- The times of the admissions, latest first, where each was within the limit of what it saw, and
it may have missed all that lies no more than `slack` behind the start of its window. -/
inductive LooselyAdmitted (window slack : ℤ) (limit : ℕ) : List ℤ → Prop
  | nil : LooselyAdmitted window slack limit []
  | cons {past : List ℤ} {now : ℤ} : LooselyAdmitted window slack limit past →
      past.countP (fun a => now + slack - window < a) < limit →
      LooselyAdmitted window slack limit (now :: past)

variable {window slack : ℤ} {limit : ℕ} {past : List ℤ}

/-- A window that is shorter by the slack has no more admissions than the limit. -/
theorem LooselyAdmitted.le_limit (h : LooselyAdmitted window slack limit past) (t : ℤ) :
    past.countP (fun a => t < a ∧ a ≤ t + (window - slack)) ≤ limit := by
  induction h with
  | nil => simp
  | @cons past now _ hadmits ih =>
    by_cases hnow : t < now ∧ now ≤ t + (window - slack)
    · have hseen : past.countP (fun a => t < a ∧ a ≤ t + (window - slack)) ≤
          past.countP (fun a => now + slack - window < a) := by
        apply List.countP_mono_left
        intro a _ hin
        have hin : t < a ∧ a ≤ t + (window - slack) := by simpa using hin
        simp only [decide_eq_true_eq]
        omega
      rw [List.countP_cons_of_pos (by simpa using hnow)]
      omega
    · rw [List.countP_cons_of_neg (by simpa using hnow)]
      exact ih

end Loose

end Hooktrace.WindowLimiter
