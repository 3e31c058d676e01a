import Hooktrace.Forward

/-!
The retry decision: what becomes of a forward after an attempt. `decide` may raise
in Python only by indexing the backoff table, so it is partial here and `decide_eq`
says what it returns for every attempt count; in particular it never raises.
-/
namespace Hooktrace.ForwardDecision

/-- `xs[i]` of Python, where a negative index counts from the end and an index out
of range raises. -/
def pyIndex {α : Type*} (xs : List α) (i : ℤ) : Option α :=
  if 0 ≤ i then xs[i.toNat]?
  else if -(xs.length : ℤ) ≤ i then xs[(xs.length + i).toNat]?
  else none

def retryableStatus : List ℕ := [408, 425, 429, 500, 502, 503, 504, 507, 508]

inductive NextStatus where
  | succeeded
  | failed
  | dead
  deriving DecidableEq, Repr

def NextStatus.toStatus : NextStatus → ForwardStatus
  | .succeeded => .succeeded
  | .failed => .failed
  | .dead => .dead

/-- `defer_seconds` is 0 when terminal. -/
structure Decision where
  nextStatus : NextStatus
  deferSeconds : ℕ
  deriving DecidableEq, Repr

def isSuccess (httpStatus : Option ℕ) (networkError : Bool) : Bool :=
  !networkError && match httpStatus with
    | some code => 200 ≤ code && code < 300
    | none => false

def isRetryable (httpStatus : Option ℕ) (networkError : Bool) : Bool :=
  networkError || match httpStatus with
    | some code => code ∈ retryableStatus
    | none => false

def decide (attemptCount : ℕ) (httpStatus : Option ℕ) (networkError : Bool) :
    Option Decision :=
  if isSuccess httpStatus networkError then some ⟨.succeeded, 0⟩
  else if !isRetryable httpStatus networkError then
    -- hard failure, such as a 4xx other than 408/425/429
    some ⟨.dead, 0⟩
  else if attemptCount ≥ maxAttempts then some ⟨.dead, 0⟩
  else (pyIndex retryBackoffs (attemptCount - 1)).map (fun d => ⟨.failed, d⟩)

/-- The delay after the n-th attempt, where the table has one. -/
def backoff (attemptCount : ℕ) : ℕ := retryBackoffs.getD (attemptCount - 1) 0

theorem maxAttempts_eq : maxAttempts = 5 := rfl

theorem pyIndex_backoff {n : ℕ} (hlower : 1 ≤ n) (hupper : n < maxAttempts) :
    pyIndex retryBackoffs (n - 1) = some (backoff n) := by
  rw [maxAttempts_eq] at hupper
  interval_cases n <;> rfl

theorem backoff_pos {n : ℕ} (hlower : 1 ≤ n) (hupper : n ≤ maxAttempts) : 0 < backoff n := by
  rw [maxAttempts_eq] at hupper
  interval_cases n <;> decide

/-- Later attempts are followed by longer delays. -/
theorem backoff_strictMono {m n : ℕ} (hm : 1 ≤ m) (hmn : m < n) (hn : n ≤ maxAttempts) :
    backoff m < backoff n := by
  rw [maxAttempts_eq] at hn
  interval_cases n <;> interval_cases m <;> decide

/-- A retryable attempt below the budget is scheduled again after its backoff. -/
theorem decide_retry {n : ℕ} {status : Option ℕ} {network : Bool}
    (hsuccess : isSuccess status network = false) (hretry : isRetryable status network = true)
    (hlower : 1 ≤ n) (hupper : n < maxAttempts) :
    decide n status network = some ⟨.failed, backoff n⟩ := by
  have hn : ¬ n ≥ maxAttempts := by omega
  simp [decide, hsuccess, hretry, hn, pyIndex_backoff hlower hupper]

theorem decide_exhausted {n : ℕ} {status : Option ℕ} {network : Bool}
    (hsuccess : isSuccess status network = false) (hn : maxAttempts ≤ n) :
    decide n status network = some ⟨.dead, 0⟩ := by
  cases hretry : isRetryable status network <;> simp [decide, hsuccess, hretry, hn]

theorem decide_hard {n : ℕ} {status : Option ℕ} {network : Bool}
    (hsuccess : isSuccess status network = false)
    (hretry : isRetryable status network = false) :
    decide n status network = some ⟨.dead, 0⟩ := by
  simp [decide, hsuccess, hretry]

theorem decide_success {n : ℕ} {status : Option ℕ} {network : Bool}
    (hsuccess : isSuccess status network = true) :
    decide n status network = some ⟨.succeeded, 0⟩ := by
  simp [decide, hsuccess]

/-- The whole decision for a counted attempt. -/
theorem decide_eq {n : ℕ} (hn : 1 ≤ n) (status : Option ℕ) (network : Bool) :
    decide n status network = some (
      if isSuccess status network then ⟨.succeeded, 0⟩
      else if isRetryable status network && n < maxAttempts then ⟨.failed, backoff n⟩
      else ⟨.dead, 0⟩) := by
  cases hsuccess : isSuccess status network with
  | true => simp [decide_success hsuccess]
  | false =>
    cases hretry : isRetryable status network with
    | false => simp [decide_hard hsuccess hretry]
    | true =>
      by_cases hmax : n < maxAttempts
      · simp [decide_retry hsuccess hretry hn hmax, hmax]
      · simp [decide_exhausted hsuccess (by omega : maxAttempts ≤ n), hmax]

theorem decide_isSome (n : ℕ) (status : Option ℕ) (network : Bool) :
    (decide n status network).isSome := by
  cases n with
  | zero =>
    unfold decide
    split
    · rfl
    split
    · rfl
    split
    · rfl
    -- an uncounted attempt would read the last entry of the table
    · rfl
  | succ n => rw [decide_eq (by omega)]; rfl

/-- Only a retryable answer within the budget is recorded as failed. -/
theorem decide_eq_failed {n d : ℕ} {status : Option ℕ} {network : Bool}
    (h : decide n status network = some ⟨.failed, d⟩) :
    isSuccess status network = false ∧ isRetryable status network = true ∧ n < maxAttempts := by
  unfold decide at h
  split at h
  · simp at h
  rename_i hsuccess
  split at h
  · simp at h
  rename_i hretry
  split at h
  · simp at h
  rename_i hmax
  exact ⟨by simpa using hsuccess, by simpa using hretry, by omega⟩

end Hooktrace.ForwardDecision
