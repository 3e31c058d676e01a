import Mathlib

/-!
The forward entity: one row per captured request and target. Times are instants
in microseconds, the resolution of the timestamps stored with the row; a UUID is
its canonical text, the form in which it enters job ids and outbound headers.
-/
namespace Hooktrace

/-- An aware UTC `datetime`, in microseconds since the epoch. -/
abbrev Datetime := ℤ

/-- `timedelta(seconds=n)`. -/
def seconds (n : ℕ) : ℤ := n * 1000000

/-- `dt.replace(microsecond=0)`. -/
def Datetime.replaceMicrosecond (dt : Datetime) : Datetime := dt - dt % 1000000

theorem Datetime.replaceMicrosecond_le (dt : Datetime) : dt.replaceMicrosecond ≤ dt := by
  have h : 0 ≤ dt % 1000000 := Int.emod_nonneg dt (by decide)
  exact Int.sub_le_self dt h

/-- Hexadecimal digits in groups of 8-4-4-4-12. -/
def canonicalUuid (text : String) : Bool :=
  text.toList.length == 36 && text.toList.zipIdx.all fun (c, i) =>
    if i = 8 ∨ i = 13 ∨ i = 18 ∨ i = 23 then c == '-'
    else c ∈ "0123456789abcdef".toList

structure UUID where
  str : String
  canonical : canonicalUuid str = true
  deriving DecidableEq

namespace UUID

theorem str_length (u : UUID) : u.str.toList.length = 36 := by
  have h := u.canonical
  simp only [canonicalUuid, Bool.and_eq_true, beq_iff_eq] at h
  exact h.1

/-- A UUID has no other characters. -/
theorem mem_str {u : UUID} {c : Char} (h : c ∈ u.str.toList) :
    c = '-' ∨ c ∈ "0123456789abcdef".toList := by
  have hall := u.canonical
  simp only [canonicalUuid, Bool.and_eq_true, List.all_eq_true] at hall
  obtain ⟨i, hi⟩ := List.mem_iff_getElem?.mp h
  have hchar := hall.2 (c, i) (List.mk_mem_zipIdx_iff_getElem?.mpr hi)
  dsimp only at hchar
  split at hchar
  · exact Or.inl (beq_iff_eq.mp hchar)
  · exact Or.inr (of_decide_eq_true hchar)

theorem notMem_str (u : UUID) {c : Char} (hc : c ≠ '-' ∧ c ∉ "0123456789abcdef".toList) :
    c ∉ u.str.toList := fun hmem => (mem_str hmem).elim hc.1 hc.2

theorem hyphen_mem_str (u : UUID) : '-' ∈ u.str.toList := by
  have hall := u.canonical
  simp only [canonicalUuid, Bool.and_eq_true, List.all_eq_true] at hall
  have hlength : 8 < u.str.toList.length := by
    rw [u.str_length]
    decide
  have hget := List.getElem?_eq_getElem hlength
  have hchar := hall.2 (u.str.toList[8], 8) (List.mk_mem_zipIdx_iff_getElem?.mpr hget)
  simp only [true_or, if_true, beq_iff_eq] at hchar
  exact hchar ▸ List.getElem_mem hlength

theorem str_injective {u v : UUID} (h : u.str = v.str) : u = v := by
  cases u
  cases v
  simpa using h

/-- The server compares UUIDs byte by byte, as their canonical texts. -/
instance : LinearOrder UUID where
  le u v := u.str ≤ v.str
  lt u v := u.str < v.str
  le_refl u := le_refl u.str
  le_trans _ _ _ := le_trans
  le_antisymm _ _ huv hvu := str_injective (le_antisymm huv hvu)
  le_total u v := le_total u.str v.str
  lt_iff_le_not_ge _ _ := lt_iff_le_not_ge
  toDecidableLE u v := inferInstanceAs (Decidable (u.str ≤ v.str))
  toDecidableLT u v := inferInstanceAs (Decidable (u.str < v.str))
  toDecidableEq := inferInstance

end UUID

inductive ForwardStatus where
  | pending
  | inFlight
  | succeeded
  | failed
  | dead
  | abandoned
  deriving DecidableEq, Repr

namespace ForwardStatus

def text : ForwardStatus → String
  | .pending => "pending"
  | .inFlight => "in_flight"
  | .succeeded => "succeeded"
  | .failed => "failed"
  | .dead => "dead"
  | .abandoned => "abandoned"

/-- The statuses from which an attempt may be claimed. -/
def Claimable (s : ForwardStatus) : Prop := s = .pending ∨ s = .failed

def Terminal (s : ForwardStatus) : Prop := s = .succeeded ∨ s = .dead ∨ s = .abandoned

instance (s : ForwardStatus) : Decidable s.Claimable :=
  inferInstanceAs (Decidable (s = .pending ∨ s = .failed))

instance (s : ForwardStatus) : Decidable s.Terminal :=
  inferInstanceAs (Decidable (s = .succeeded ∨ s = .dead ∨ s = .abandoned))

end ForwardStatus

/-- Schedule for failed retries in seconds, indexed by `attempt_count - 1`. -/
def retryBackoffs : List ℕ := [30, 120, 600, 3600, 14400]

def maxAttempts : ℕ := retryBackoffs.length

structure Forward where
  id : UUID
  requestId : UUID
  endpointId : UUID
  targetUrl : String
  status : ForwardStatus
  attemptCount : ℕ
  lastAttemptAt : Option Datetime
  nextAttemptAt : Option Datetime
  finalStatusCode : Option ℕ
  finalError : Option String
  forwardStartedAt : Option Datetime
  forwardCompletedAt : Option Datetime
  createdAt : Datetime
  manualRetryAt : Option Datetime
  deriving DecidableEq

/-- `Forward.create`; the fresh `uuid4()` is an argument. -/
def Forward.create (id requestId endpointId : UUID) (targetUrl : String) (now : Datetime) :
    Forward where
  id := id
  requestId := requestId
  endpointId := endpointId
  targetUrl := targetUrl
  status := .pending
  attemptCount := 0
  lastAttemptAt := none
  nextAttemptAt := some now
  finalStatusCode := none
  finalError := none
  forwardStartedAt := none
  forwardCompletedAt := none
  createdAt := now
  manualRetryAt := none

namespace Forward

/-- The value of the outbound `Idempotency-Key` header. -/
def idempotencyKey (f : Forward) : String := s!"{f.id.str}:{f.attemptCount}"

/-- Two keys of one forward are equal only for one attempt number. -/
theorem idempotencyKey_inj {f g : Forward} (hid : f.id = g.id) :
    f.idempotencyKey = g.idempotencyKey ↔ f.attemptCount = g.attemptCount := by
  constructor
  · intro h
    have hlist := congrArg String.toList h
    simp only [idempotencyKey, hid, toString, String.toList_append] at hlist
    have hrepr : (Nat.repr f.attemptCount).toList = (Nat.repr g.attemptCount).toList := by
      simpa using hlist
    exact Nat.repr_inj.mp (String.toList_inj.mp hrepr)
  · intro h
    simp [idempotencyKey, hid, h]

end Forward

end Hooktrace
