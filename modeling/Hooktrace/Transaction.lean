import Mathlib.Logic.Function.Basic

/-!
Work on a session that holds one transaction. A statement that the server rejects fails the
transaction, whatever the program makes of the exception: later statements are refused, and the
commit rolls back (`transaction_of_failed`). An exception that no statement raised leaves the
transaction as it is.
-/
namespace Hooktrace.Transaction

/-- What the transaction sees, and whether one of its statements has failed. -/
structure Session (σ : Type) where
  current : σ
  failed : Bool

/-- A computation that may raise; what it did to the session stays. -/
structure Work (σ ε α : Type) where
  run : Session σ → Except ε α × Session σ

variable {σ ε α β : Type}

instance : Monad (Work σ ε) where
  pure a := ⟨fun s => (.ok a, s)⟩
  bind x f := ⟨fun s =>
    match x.run s with
    | (.ok a, s') => (f a).run s'
    | (.error e, s') => (.error e, s')⟩

namespace Work

def raise (e : ε) : Work σ ε α := ⟨fun s => (.error e, s)⟩

def ofExcept (result : Except ε α) : Work σ ε α := ⟨fun s => (result, s)⟩

def select (aborted : ε) (f : σ → α) : Work σ ε α := ⟨fun s =>
  if s.failed then (.error aborted, s) else (.ok (f s.current), s)⟩

def execute (aborted : ε) (f : σ → Except ε σ) : Work σ ε Unit := ⟨fun s =>
  if s.failed then (.error aborted, s)
  else match f s.current with
    | .ok t => (.ok (), ⟨t, false⟩)
    | .error e => (.error e, ⟨s.current, true⟩)⟩

/-- `try: x except`, for the exceptions that the handler takes. -/
def attempt (x : Work σ ε α) (handler : ε → Option (Work σ ε α)) : Work σ ε α := ⟨fun s =>
  match x.run s with
  | (.ok a, s') => (.ok a, s')
  | (.error e, s') =>
    match handler e with
    | some y => y.run s'
    | none => (.error e, s')⟩

/-- The session's block: commit if nothing was raised, and roll back otherwise. -/
def transaction (aborted : ε) (x : Work σ ε α) (stored : σ) : Except ε α × σ :=
  match x.run ⟨stored, false⟩ with
  | (.ok a, s) => if s.failed then (.error aborted, stored) else (.ok a, s.current)
  | (.error e, _) => (.error e, stored)

@[simp] theorem pure_run (a : α) (s : Session σ) :
    (pure a : Work σ ε α).run s = (.ok a, s) := rfl

@[simp] theorem raise_run (e : ε) (s : Session σ) :
    (raise e : Work σ ε α).run s = (.error e, s) := rfl

@[simp] theorem ofExcept_run (result : Except ε α) (s : Session σ) :
    (ofExcept result).run s = (result, s) := rfl

@[simp] theorem select_run (aborted : ε) (f : σ → α) (t : σ) :
    (select aborted f).run ⟨t, false⟩ = (.ok (f t), ⟨t, false⟩) := rfl

theorem bind_run {x : Work σ ε α} {f : α → Work σ ε β} {s s' : Session σ} {a : α}
    (h : x.run s = (.ok a, s')) : (x >>= f).run s = (f a).run s' := by
  simp [bind, h]

theorem bind_raised {x : Work σ ε α} {f : α → Work σ ε β} {s s' : Session σ} {e : ε}
    (h : x.run s = (.error e, s')) : (x >>= f).run s = (.error e, s') := by
  simp [bind, h]

/-- What follows without a statement does nothing to the session. -/
theorem bind_pure_session (x : Work σ ε α) (f : α → β) (s : Session σ) :
    ((x >>= fun a => pure (f a)).run s).2 = (x.run s).2 := by
  rcases hrun : x.run s with ⟨a | a, s'⟩
  · rw [bind_raised hrun]
  · rw [bind_run hrun, pure_run]

theorem execute_run {aborted : ε} {f : σ → Except ε σ} {t t' : σ} (h : f t = .ok t') :
    (execute aborted f).run ⟨t, false⟩ = (.ok (), ⟨t', false⟩) := by
  simp [execute, h]

theorem execute_rejected {aborted e : ε} {f : σ → Except ε σ} {t : σ} (h : f t = .error e) :
    (execute aborted f).run ⟨t, false⟩ = (.error e, ⟨t, true⟩) := by
  simp [execute, h]

theorem attempt_returned {x : Work σ ε α} {handler : ε → Option (Work σ ε α)} {s s' : Session σ}
    {a : α} (h : x.run s = (.ok a, s')) : (attempt x handler).run s = (.ok a, s') := by
  simp [attempt, h]

theorem attempt_uncaught {x : Work σ ε α} {handler : ε → Option (Work σ ε α)} {s s' : Session σ}
    {e : ε} (h : x.run s = (.error e, s')) (huncaught : handler e = none) :
    (attempt x handler).run s = (.error e, s') := by
  simp [attempt, h, huncaught]

theorem attempt_caught {x y : Work σ ε α} {handler : ε → Option (Work σ ε α)}
    {s s' : Session σ} {e : ε} (h : x.run s = (.error e, s')) (hcaught : handler e = some y) :
    (attempt x handler).run s = y.run s' := by
  simp [attempt, h, hcaught]

theorem transaction_of_ok {aborted : ε} {x : Work σ ε α} {stored t : σ} {a : α}
    (h : x.run ⟨stored, false⟩ = (.ok a, ⟨t, false⟩)) :
    transaction aborted x stored = (.ok a, t) := by
  simp [transaction, h]

theorem transaction_of_raised {aborted e : ε} {x : Work σ ε α} {stored : σ} {s : Session σ}
    (h : x.run ⟨stored, false⟩ = (.error e, s)) : (transaction aborted x stored).2 = stored := by
  simp [transaction, h]

/-- A transaction stores what its session has at the end, or nothing. -/
theorem transaction_cases (aborted : ε) (x : Work σ ε α) (stored : σ) :
    (transaction aborted x stored).2 = stored ∨
      (transaction aborted x stored).2 = (x.run ⟨stored, false⟩).2.current := by
  unfold transaction
  split
  · split
    · exact Or.inl rfl
    · rename_i s hrun _
      exact Or.inr (by rw [hrun])
  · exact Or.inl rfl

/-- Nothing of a failed transaction is stored, whether or not the exception was caught. -/
theorem transaction_of_failed {aborted : ε} {x : Work σ ε α} {stored t : σ}
    {result : Except ε α} (h : x.run ⟨stored, false⟩ = (result, ⟨t, true⟩)) :
    (transaction aborted x stored).2 = stored := by
  cases result <;> simp [transaction, h]

end Work

end Hooktrace.Transaction
