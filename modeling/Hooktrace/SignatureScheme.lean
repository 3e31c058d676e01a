import Mathlib.Data.List.TakeWhile

/-!
Signed messages in the abstract. A scheme reads the fields that its signature is made of; from
them and the message comes the payload that was signed, if there is one, and any number of
signature texts, each of which may verify. Texts of some kind cannot be compared: the check
raises where it meets one, and stops at the first text that verifies.
-/
namespace Hooktrace.SignatureScheme

/-- What a scheme finds in a message. -/
structure Signed (P S : Type*) where
  /-- Every field is there and not empty. -/
  present : Bool
  payload : Option P
  carried : List S
  verifies : P → S → Bool
  comparable : S → Bool
  present_of_payload : ∀ p, payload = some p → present = true
  comparable_of_verifies : ∀ p s, verifies p s = true → comparable s = true

inductive Verdict where
  | valid
  | invalid
  | missing
  deriving DecidableEq

namespace Signed

variable {P S E : Type*} (m : Signed P S)

def Satisfied : Prop := ∃ p, m.payload = some p ∧ ∃ s ∈ m.carried, m.verifies p s = true

def check (refusal : E) (p : P) : List S → Except E Bool
  | [] => .ok false
  | s :: rest =>
    if m.comparable s then
      if m.verifies p s then .ok true else check refusal p rest
    else .error refusal

def verdict (refusal : E) : Except E Verdict :=
  if m.present then
    match m.payload with
    | none => .ok .invalid
    | some p => (m.check refusal p m.carried).map fun matched =>
      if matched then .valid else .invalid
  else .ok .missing

/-- The verdict is reached, and is the right one of the three. -/
def Exact (verdict : Except E Verdict) : Prop :=
  ∃ v, verdict = .ok v ∧ (v = .valid ↔ m.Satisfied) ∧ (v = .missing ↔ m.present = false)

def compared (p : P) : List S := m.carried.takeWhile fun s => !m.verifies p s

variable {m}

theorem check_eq_ok_iff {refusal : E} {p : P} {texts : List S} {matched : Bool} :
    m.check refusal p texts = .ok matched ↔
      (∀ s ∈ texts.takeWhile (fun s => !m.verifies p s), m.comparable s = true) ∧
        texts.any (m.verifies p) = matched := by
  induction texts with
  | nil => simp [check]
  | cons s rest ih =>
    cases hverifies : m.verifies p s with
    | true =>
      have hcomparable := m.comparable_of_verifies p s hverifies
      simp [check, hverifies, hcomparable]
    | false =>
      cases hcomparable : m.comparable s with
      | false => simp [check, hverifies, hcomparable]
      | true => simp [check, hverifies, hcomparable, ih]

/-- The check is exact unless it meets a text that cannot be compared. -/
theorem exact_verdict_iff (refusal : E) :
    m.Exact (m.verdict refusal) ↔
      ∀ p, m.payload = some p → ∀ s ∈ m.compared p, m.comparable s = true := by
  cases hpayload : m.payload with
  | none =>
    -- nothing is compared
    have hunsatisfied : ¬ m.Satisfied := by
      intro hsatisfied
      obtain ⟨p, hp, -⟩ := hsatisfied
      simp [hpayload] at hp
    cases hpresent : m.present with
    | false => simp [Exact, verdict, hpresent, hunsatisfied]
    | true => simp [Exact, verdict, hpresent, hpayload, hunsatisfied]
  | some p =>
    have hpresent := m.present_of_payload p hpayload
    have hsatisfied : m.Satisfied ↔ m.carried.any (m.verifies p) = true := by
      simp [Satisfied, hpayload]
    have hverdict : m.verdict refusal = (m.check refusal p m.carried).map
        fun matched => if matched then .valid else .invalid := by
      simp [verdict, hpresent, hpayload]
    constructor
    · intro hexact p' hp'
      obtain rfl := Option.some.inj hp'
      obtain ⟨v, hv, -⟩ := hexact
      rw [hverdict] at hv
      cases hcheck : m.check refusal p m.carried with
      | error refused => simp [hcheck, Except.map] at hv
      | ok matched => exact (check_eq_ok_iff.mp hcheck).1
    · intro hall
      have hcheck : m.check refusal p m.carried = .ok (m.carried.any (m.verifies p)) :=
        check_eq_ok_iff.mpr ⟨hall p rfl, rfl⟩
      rw [hverdict, hcheck]
      refine ⟨_, rfl, ?_, ?_⟩
      · rw [hsatisfied]
        cases m.carried.any (m.verifies p) <;> simp
      · cases m.carried.any (m.verifies p) <;> simp [hpresent]

end Signed

end Hooktrace.SignatureScheme
