import Hooktrace.Table

/-!
One row of a table under READ COMMITTED, while one transaction may have written it and
not yet committed. An update of another session looks for the row in what is committed:
if the WHERE clause is not met there it finds no row, and otherwise it waits for the
transaction that holds the row before it looks again.
-/
namespace Hooktrace.ReadCommitted

open Table

structure VersionedRow (R : Type*) where
  committed : Option R
  written : Option R

/-- What an update of another session meets. -/
inductive UpdateResult (R : Type*) where
  | noRow
  | waits
  | updated (r : R)

namespace VersionedRow

variable {R : Type*} (row : VersionedRow R)

def write (r : R) : VersionedRow R := { row with written := some r }

def commit : VersionedRow R := ⟨row.written.or row.committed, none⟩

def update (u : Update R) : UpdateResult R :=
  match row.committed with
  | none => .noRow
  | some r =>
    if u.holds r then
      match row.written with
      | none => .updated (u.assign r)
      | some _ => .waits
    else .noRow

/-- What is not yet committed is not found, whatever has been written. -/
theorem update_eq_noRow {u : Update R} (h : ∀ r, row.committed = some r → u.holds r = false) :
    row.update u = .noRow := by
  unfold update
  cases hc : row.committed with
  | none => rfl
  | some r => simp [h r hc]

theorem update_of_holds {u : Update R} {r : R} (hc : row.committed = some r)
    (hholds : u.holds r = true) :
    row.update u = .waits ∨ (row.written = none ∧ row.update u = .updated (u.assign r)) := by
  cases hw : row.written with
  | none => exact Or.inr ⟨rfl, by simp [update, hc, hholds, hw]⟩
  | some r' => exact Or.inl (by simp [update, hc, hholds, hw])

/-- An update is executed on the committed version, while nobody holds the row. -/
theorem update_eq_updated {u : Update R} {r : R} (h : row.update u = .updated r) :
    ∃ c, row.committed = some c ∧ row.written = none ∧ r = u.assign c := by
  unfold update at h
  split at h
  · simp at h
  · rename_i c hc
    split at h
    · split at h
      · rename_i hwritten
        obtain rfl := UpdateResult.updated.inj h
        exact ⟨c, hc, hwritten, rfl⟩
      · simp at h
    · simp at h

/-- A property of the committed and of the written version outlives the commit. -/
theorem commit_invariant {P : R → Prop} (hc : ∃ r, row.committed = some r ∧ P r)
    (hw : ∀ r, row.written = some r → P r) : ∃ r, row.commit.committed = some r ∧ P r := by
  cases hwritten : row.written with
  | none => simpa [commit, hwritten] using hc
  | some r => exact ⟨r, by simp [commit, hwritten], hw r hwritten⟩

end VersionedRow

end Hooktrace.ReadCommitted
