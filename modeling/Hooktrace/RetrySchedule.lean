import Mathlib.Data.List.Basic

/-!
A retry policy with a finite schedule: attempts are made until one succeeds, one is not
worth a retry, or the schedule of delays is used up. Outcomes and delays are arbitrary
types. Two policies that differ in what they retry give the same attempts exactly when
no outcome reached below the end of the schedule tells them apart.
-/
namespace Hooktrace.RetrySchedule

structure Attempt (D : Type*) where
  number : ℕ
  delay : D
  deriving DecidableEq

variable {O D : Type*}

/-- The attempts from the n-th on, and whether the last one succeeded. -/
def attempts (success retryable : O → Bool) (outcomes : ℕ → O) :
    ℕ → D → List D → List (Attempt D) × Bool
  | n, delay, [] => ([⟨n, delay⟩], success (outcomes n))
  | n, delay, next :: schedule =>
    if success (outcomes n) then ([⟨n, delay⟩], true)
    else if retryable (outcomes n) then
      let rest := attempts success retryable outcomes (n + 1) next schedule
      (⟨n, delay⟩ :: rest.1, rest.2)
    else ([⟨n, delay⟩], false)

section

variable {success retryable : O → Bool} {outcomes : ℕ → O} {n : ℕ} {delay next : D}
  {schedule : List D}

theorem attempts_of_success (h : success (outcomes n) = true) :
    attempts success retryable outcomes n delay schedule = ([⟨n, delay⟩], true) := by
  cases schedule <;> simp [attempts, h]

theorem attempts_of_exhausted :
    attempts success retryable outcomes n delay [] =
      ([⟨n, delay⟩], success (outcomes n)) := rfl

theorem attempts_of_hard (hsuccess : success (outcomes n) = false)
    (hretry : retryable (outcomes n) = false) :
    attempts success retryable outcomes n delay schedule = ([⟨n, delay⟩], false) := by
  cases schedule <;> simp [attempts, hsuccess, hretry]

theorem attempts_of_retry (hsuccess : success (outcomes n) = false)
    (hretry : retryable (outcomes n) = true) :
    attempts success retryable outcomes n delay (next :: schedule) =
      (⟨n, delay⟩ :: (attempts success retryable outcomes (n + 1) next schedule).1,
        (attempts success retryable outcomes (n + 1) next schedule).2) := by
  simp [attempts, hsuccess, hretry]

theorem attempts_ne_nil : (attempts success retryable outcomes n delay schedule).1 ≠ [] := by
  cases schedule with
  | nil => simp [attempts]
  | cons next schedule =>
    simp only [attempts]
    split
    · simp
    · split <;> simp

end

variable (success retryable retryable' : O → Bool) (outcomes : ℕ → O)

/-- The outcome tells the two policies apart. -/
def Distinguishes (o : O) : Prop := success o = false ∧ retryable o ≠ retryable' o

/-- The first policy makes every attempt from the n-th up to, and without, the i-th next. -/
def Reaches (n i : ℕ) : Prop :=
  ∀ j < i, success (outcomes (n + j)) = false ∧ retryable (outcomes (n + j)) = true

/-- No outcome that is reached within the next `k` tells the two policies apart. -/
def Undistinguished (n k : ℕ) : Prop :=
  ∀ i < k, Reaches success retryable outcomes n i →
    ¬ Distinguishes success retryable retryable' (outcomes (n + i))

/-- The first outcome decides whether the others are reached. -/
theorem undistinguished_succ_iff (n k : ℕ) :
    Undistinguished success retryable retryable' outcomes n (k + 1) ↔
      ¬ Distinguishes success retryable retryable' (outcomes n) ∧
      (success (outcomes n) = false → retryable (outcomes n) = true →
        Undistinguished success retryable retryable' outcomes (n + 1) k) := by
  constructor
  · intro h
    refine ⟨h 0 (by omega) (by intro j hj; omega), ?_⟩
    intro hsuccess hretry i hi hreaches
    have hnext := h (i + 1) (by omega) ?_
    · rwa [show n + 1 + i = n + (i + 1) by omega]
    · intro j hj
      cases j with
      | zero => exact ⟨hsuccess, hretry⟩
      | succ j =>
        have hj' := hreaches j (by omega)
        rwa [show n + 1 + j = n + (j + 1) by omega] at hj'
  · intro hboth i hi hreaches
    obtain ⟨hfirst, hrest⟩ := hboth
    cases i with
    | zero => exact hfirst
    | succ i =>
      obtain ⟨hsuccess, hretry⟩ := hreaches 0 (by omega)
      have hnext := hrest hsuccess hretry i (by omega) ?_
      · rwa [show n + 1 + i = n + (i + 1) by omega] at hnext
      · intro j hj
        have hj' := hreaches (j + 1) (by omega)
        rwa [show n + (j + 1) = n + 1 + j by omega] at hj'

/-- Two policies make the same attempts exactly when, below the end of the schedule, no
outcome that is reached tells them apart. -/
theorem attempts_eq_iff (n : ℕ) (delay : D) (schedule : List D) :
    attempts success retryable outcomes n delay schedule =
      attempts success retryable' outcomes n delay schedule ↔
    Undistinguished success retryable retryable' outcomes n schedule.length := by
  induction schedule generalizing n delay with
  | nil => simp [attempts_of_exhausted, Undistinguished]
  | cons next schedule ih =>
    rw [List.length_cons, undistinguished_succ_iff]
    cases hsuccess : success (outcomes n) with
    | true => simp [attempts_of_success hsuccess, Distinguishes, hsuccess]
    | false =>
      cases hretry : retryable (outcomes n) <;> cases hretry' : retryable' (outcomes n)
      · simp [attempts_of_hard hsuccess hretry, attempts_of_hard hsuccess hretry', Distinguishes,
          hretry, hretry']
      · simp [attempts_of_hard hsuccess hretry, attempts_of_retry hsuccess hretry', Distinguishes,
          hretry, hretry', hsuccess, attempts_ne_nil]
      · simp [attempts_of_retry hsuccess hretry, attempts_of_hard hsuccess hretry', Distinguishes,
          hretry, hretry', hsuccess, attempts_ne_nil]
      · simp only [attempts_of_retry hsuccess hretry, attempts_of_retry hsuccess hretry',
          Distinguishes, hretry, hretry', ← ih (n + 1) next]
        simp [Prod.ext_iff]

end Hooktrace.RetrySchedule
