import Mathlib.Algebra.BigOperators.Group.List.Lemmas
import Mathlib.Algebra.GroupWithZero.Nat
import Mathlib.Data.List.Dedup

/-!
A grouped count and the left join of SQL. Joining a list with grouped counts on the grouped key
gives one row for each row of the list, however many rows were counted: two counts can be joined
to one table without multiplying each other.
-/
namespace Hooktrace.Aggregate

variable {A B R K : Type*} [DecidableEq K]

/-- `SELECT key, COUNT(*) FROM rows GROUP BY key`. -/
def countBy (key : R → K) (rows : List R) : List (K × ℕ) :=
  (rows.map key).dedup.map fun k => (k, rows.countP fun r => key r = k)

/-- What a left join makes of one row: a pair with each match, or one with NULL. -/
def joinRow (a : A) : List B → List (A × Option B)
  | [] => [(a, none)]
  | b :: bs => (b :: bs).map fun b => (a, some b)

/-- `a LEFT JOIN b ON matches`. -/
def leftJoin (on : A → B → Bool) (as : List A) (bs : List B) : List (A × Option B) :=
  as.flatMap fun a => joinRow a (bs.filter (on a))

/-- `COALESCE(count, 0)`. -/
def coalesce (counted : Option (K × ℕ)) : ℕ := (counted.map Prod.snd).getD 0

/-- A group that no row belongs to is not there. -/
def counted (key : R → K) (rows : List R) (k : K) : Option (K × ℕ) :=
  if k ∈ rows.map key then some (k, rows.countP fun r => key r = k) else none

@[simp] theorem coalesce_counted (key : R → K) (rows : List R) (k : K) :
    coalesce (counted key rows k) = rows.countP fun r => key r = k := by
  unfold counted
  split
  · rfl
  · rename_i hnone
    have hzero : rows.countP (fun r => key r = k) = 0 := by
      rw [List.countP_eq_zero]
      intro r hr hkey
      exact hnone (List.mem_map.mpr ⟨r, hr, of_decide_eq_true hkey⟩)
    simp [coalesce, hzero]

/-- At most one group has the key. -/
theorem filter_countBy (key : R → K) (rows : List R) (k : K) :
    (countBy key rows).filter (fun group => group.1 = k) = (counted key rows k).toList := by
  have hfilter : (rows.map key).dedup.filter (fun k' => k' = k) =
      if k ∈ rows.map key then [k] else [] := by
    rw [List.filter_eq, List.count_dedup]
    split <;> rfl
  rw [countBy, List.filter_map, show (fun group : K × ℕ => decide (group.1 = k)) ∘
    (fun k' => (k', rows.countP fun r => key r = k')) = fun k' => decide (k' = k) from rfl,
    hfilter, counted]
  split <;> rfl

theorem joinRow_toList (a : A) (b : Option B) : joinRow a b.toList = [(a, b)] := by
  cases b <;> rfl

/-- A join with grouped counts has one row for each row on the left. -/
theorem leftJoin_countBy (key : R → K) (rows : List R) (f : A → K) (as : List A) :
    leftJoin (fun a group => group.1 = f a) as (countBy key rows) =
      as.map fun a => (a, counted key rows (f a)) := by
  rw [leftJoin, List.map_eq_flatMap]
  refine List.flatMap_congr fun a _ => ?_
  rw [filter_countBy, joinRow_toList]

theorem countBy_keys (key : R → K) (rows : List R) :
    (countBy key rows).map Prod.fst = (rows.map key).dedup := by
  rw [countBy, List.map_map]
  exact List.map_id _

theorem countBy_nodup (key : R → K) (rows : List R) :
    ((countBy key rows).map Prod.fst).Nodup := countBy_keys key rows ▸ List.nodup_dedup _

/-- The groups whose key has a property count the rows whose key has it. -/
theorem sum_countBy (key : R → K) (p : K → Bool) (rows : List R) :
    (((countBy key rows).filter fun group => p group.1).map Prod.snd).sum =
      rows.countP fun r => p (key r) := by
  have hcount (k : K) : (rows.countP fun r => key r = k) = (rows.map key).count k := by
    rw [List.count, List.countP_map]
    exact List.countP_congr fun r _ => by simp
  have hgroups : ((countBy key rows).filter fun group => p group.1).map Prod.snd =
      ((rows.map key).dedup.filter p).map fun k => (rows.map key).count k := by
    rw [countBy, List.filter_map, List.map_map]
    exact List.map_congr_left fun k _ => hcount k
  rw [hgroups, List.sum_map_count_dedup_filter_eq_countP, List.countP_map]
  rfl

end Hooktrace.Aggregate
