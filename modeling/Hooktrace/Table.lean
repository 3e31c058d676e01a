import Mathlib.Data.List.Nodup
import Mathlib.Data.List.Map2

/-!
A table as a list of rows, with the conditional update of SQL: the rows that meet
the WHERE clause are assigned, all others stay. An update that keeps the key acts
on the row of each key separately (`Update.find_apply`), so that what is proved of
one row at a time holds of the table, and a property of single rows that the
assignment keeps is a property of every row of every table reached.
-/
namespace Hooktrace.Table

/-- `UPDATE t SET assign WHERE holds`. -/
structure Update (R : Type*) where
  holds : R → Bool
  assign : R → R

namespace Update

variable {R : Type*} (u : Update R)

def onRow (r : R) : R := if u.holds r then u.assign r else r

/-- What `RETURNING` gives for one row. -/
def returningRow (r : R) : Option R := if u.holds r then some (u.assign r) else none

def apply (t : List R) : List R := t.map u.onRow

def returning (t : List R) : List R := t.filterMap u.returningRow

theorem onRow_of_holds {r : R} (h : u.holds r = true) : u.onRow r = u.assign r := by
  simp [onRow, h]

theorem onRow_of_not {r : R} (h : u.holds r = false) : u.onRow r = r := by
  simp [onRow, h]

/-- Either the WHERE clause is met and the row assigned, or the row stays. -/
theorem onRow_cases {r : R} {p : Prop} (hp : u.holds r = true ↔ p) :
    (p ∧ u.onRow r = u.assign r) ∨ (¬ p ∧ u.onRow r = r) := by
  cases h : u.holds r with
  | true => exact Or.inl ⟨hp.mp h, u.onRow_of_holds h⟩
  | false => exact Or.inr ⟨fun hq => by simp [hp.mpr hq] at h, u.onRow_of_not h⟩

theorem returningRow_cases {r : R} {p : Prop} (hp : u.holds r = true ↔ p) :
    (p ∧ u.returningRow r = some (u.assign r)) ∨ (¬ p ∧ u.returningRow r = none) := by
  cases h : u.holds r with
  | true => exact Or.inl ⟨hp.mp h, by simp [returningRow, h]⟩
  | false => exact Or.inr ⟨fun hq => by simp [hp.mpr hq] at h, by simp [returningRow, h]⟩

/-- A row is left in the state the update returns, or as it was. -/
theorem onRow_eq (r : R) : u.onRow r = (u.returningRow r).getD r := by
  cases h : u.holds r <;> simp [onRow, returningRow, h]

theorem onRow_invariant {I : R → Prop} (hI : ∀ r, u.holds r = true → I r → I (u.assign r))
    {r : R} (hr : I r) : I (u.onRow r) := by
  cases h : u.holds r with
  | false => rwa [u.onRow_of_not h]
  | true => rw [u.onRow_of_holds h]; exact hI r h hr

theorem apply_invariant {I : R → Prop} (hI : ∀ r, u.holds r = true → I r → I (u.assign r))
    {t : List R} (ht : ∀ r ∈ t, I r) : ∀ r ∈ u.apply t, I r := by
  intro r hr
  obtain ⟨r₀, hr₀, rfl⟩ := List.mem_map.mp hr
  exact u.onRow_invariant hI (ht r₀ hr₀)

/-- A search that does not look at what the update changes finds the updated row. -/
theorem find?_apply {p : R → Bool} (h : ∀ r, p (u.assign r) = p r) (t : List R) :
    (u.apply t).find? p = (t.find? p).map u.onRow := by
  have hrow : p ∘ u.onRow = p := by
    funext r
    cases hholds : u.holds r with
    | true => simp [u.onRow_of_holds hholds, h]
    | false => simp [u.onRow_of_not hholds]
  rw [apply, List.find?_map, hrow]

/-- Updates commute that write different columns, and none that the other looks at. -/
theorem apply_comm {v : Update R} (hu : ∀ r, v.holds (u.assign r) = v.holds r)
    (hv : ∀ r, u.holds (v.assign r) = u.holds r)
    (hassign : ∀ r, u.assign (v.assign r) = v.assign (u.assign r)) (t : List R) :
    u.apply (v.apply t) = v.apply (u.apply t) := by
  simp only [apply, List.map_map]
  refine List.map_congr_left fun r _ => ?_
  cases hur : u.holds r <;> cases hvr : v.holds r <;> simp [onRow, hu, hv, hassign, hur, hvr]

/-- A selection that the update neither takes rows from nor adds rows to. -/
theorem filter_apply {p : R → Bool}
    (h : ∀ r, u.holds r = true → p r = false ∧ p (u.assign r) = false) (t : List R) :
    (u.apply t).filter p = t.filter p := by
  induction t with
  | nil => rfl
  | cons r t ih =>
    simp only [apply, List.map_cons] at ih ⊢
    cases hholds : u.holds r with
    | false => rw [u.onRow_of_not hholds, List.filter_cons, List.filter_cons, ih]
    | true =>
      obtain ⟨hbefore, hafter⟩ := h r hholds
      simp [u.onRow_of_holds hholds, hbefore, hafter, ih]

end Update

variable {R K : Type*} (key : R → K)

/-- The update never assigns the primary key. -/
def KeepsKey (u : Update R) : Prop := ∀ r, key (u.assign r) = key r

theorem KeepsKey.onRow {key : R → K} {u : Update R} (h : KeepsKey key u) (r : R) :
    key (u.onRow r) = key r := by
  unfold Update.onRow
  split
  · exact h r
  · rfl

def UniqueKeys (t : List R) : Prop := (t.map key).Nodup

/-- A key belongs to one row. -/
theorem UniqueKeys.eq {key : R → K} {t : List R} (h : UniqueKeys key t) {r r' : R}
    (hr : r ∈ t) (hr' : r' ∈ t) (heq : key r = key r') : r = r' :=
  List.inj_on_of_nodup_map h hr hr' heq

/-- The keys of the rows that a SELECT returns, in whatever order. -/
theorem UniqueKeys.nodup_of_perm_filter {key : R → K} {t rows : List R} {p : R → Bool}
    (h : UniqueKeys key t) (hrows : rows.Perm (t.filter p)) : (rows.map key).Nodup :=
  (hrows.map key).nodup_iff.mpr ((List.filter_sublist.map key).nodup h)

/-- A key is selected with the rows of the WHERE clause, whatever their order. -/
theorem mem_keys_of_perm_filter {key : R → K} {t rows : List R} {p : R → Bool} {k : K}
    (hrows : rows.Perm (t.filter p)) :
    k ∈ rows.map key ↔ ∃ r ∈ t, key r = k ∧ p r = true := by
  rw [List.mem_map]
  constructor
  · intro hselected
    obtain ⟨r, hr, hkey⟩ := hselected
    obtain ⟨hmem, hp⟩ := List.mem_filter.mp (hrows.mem_iff.mp hr)
    exact ⟨r, hmem, hkey, hp⟩
  · intro hrow
    obtain ⟨r, hmem, hkey, hp⟩ := hrow
    exact ⟨r, hrows.mem_iff.mpr (List.mem_filter.mpr ⟨hmem, hp⟩), hkey⟩

theorem KeepsKey.keys {key : R → K} {u : Update R} (h : KeepsKey key u) (t : List R) :
    (u.apply t).map key = t.map key := by
  rw [Update.apply, List.map_map]
  exact List.map_congr_left (fun r _ => h.onRow r)

theorem KeepsKey.uniqueKeys {key : R → K} {u : Update R} (h : KeepsKey key u) {t : List R}
    (ht : UniqueKeys key t) : UniqueKeys key (u.apply t) := by
  unfold UniqueKeys
  rwa [h.keys t]

variable [DecidableEq K]

instance (t : List R) : Decidable (UniqueKeys key t) :=
  inferInstanceAs (Decidable (t.map key).Nodup)

/-- `SELECT ... WHERE key = k`. -/
def find (k : K) (t : List R) : Option R := t.find? (fun r => key r = k)

/-- `INSERT`, which a taken primary key rejects. -/
def insert (r : R) (t : List R) : Option (List R) :=
  if key r ∈ t.map key then none else some (t ++ [r])

theorem mem_insert {key : R → K} {r r' : R} {t t' : List R} (h : insert key r t = some t')
    (hr : r' ∈ t') : r' ∈ t ∨ r' = r := by
  unfold insert at h
  split at h
  · simp at h
  · obtain rfl := Option.some.inj h
    simpa using hr

theorem insert_uniqueKeys {r : R} {t t' : List R} (h : insert key r t = some t')
    (ht : UniqueKeys key t) : UniqueKeys key t' := by
  unfold insert at h
  split at h
  · simp at h
  · rename_i hfresh
    obtain rfl := Option.some.inj h
    simp only [UniqueKeys, List.map_append, List.map_cons, List.map_nil]
    exact List.nodup_append.mpr ⟨ht, List.nodup_singleton _, by
      intro a ha b hb
      simp only [List.mem_singleton] at hb
      subst hb
      intro hsame
      obtain rfl := hsame
      exact hfresh ha⟩

/-- An update acts on each key's row by itself. -/
theorem KeepsKey.find_apply {key : R → K} {u : Update R} (h : KeepsKey key u) (k : K)
    (t : List R) : find key k (u.apply t) = (find key k t).map u.onRow := by
  induction t with
  | nil => rfl
  | cons r t ih =>
    simp only [find, Update.apply, List.map_cons, List.find?_cons, h.onRow r] at ih ⊢
    by_cases hk : key r = k
    · simp [hk]
    · simpa [hk] using ih

theorem mem_of_find {key : R → K} {k : K} {t : List R} {r : R} (h : find key k t = some r) :
    r ∈ t ∧ key r = k := by
  refine ⟨List.mem_of_find?_eq_some h, ?_⟩
  simpa using List.find?_some h

theorem find_of_mem {key : R → K} {t : List R} (ht : UniqueKeys key t) {r : R} (hr : r ∈ t) :
    find key (key r) t = some r := by
  induction t with
  | nil => simp at hr
  | cons r₀ t ih =>
    simp only [UniqueKeys, List.map_cons, List.nodup_cons] at ht
    rcases List.mem_cons.mp hr with rfl | htail
    · simp [find]
    · have hne : key r₀ ≠ key r := fun heq => ht.1 (heq ▸ List.mem_map_of_mem htail)
      simpa [find, hne] using ih ht.2 htail

/-- A new row is found besides those that were there. -/
theorem find_insert {key : R → K} {r : R} {t t' : List R} (h : insert key r t = some t') (k : K) :
    find key k t' = (find key k t).or (if key r = k then some r else none) := by
  unfold insert at h
  split at h
  · simp at h
  · obtain rfl := Option.some.inj h
    rw [find, List.find?_append]
    congr 1
    by_cases hk : key r = k <;> simp [hk]

/-- An update that addresses one key returns what it makes of the row with that key. -/
theorem head_returning {key : R → K} {u : Update R} {k : K} {t : List R}
    (hu : ∀ r, u.holds r = true → key r = k) (ht : UniqueKeys key t) :
    (u.returning t).head? = (find key k t).bind u.returningRow := by
  induction t with
  | nil => rfl
  | cons r t ih =>
    simp only [UniqueKeys, List.map_cons, List.nodup_cons] at ht
    cases hholds : u.holds r with
    | true => simp [Update.returning, Update.returningRow, find, hholds, hu r hholds]
    | false =>
      have htail : u.returning (r :: t) = u.returning t := by
        simp [Update.returning, Update.returningRow, hholds]
      rw [htail, ih ht.2]
      by_cases hk : key r = k
      · -- no later row has this key
        have hnone : find key k t = none := by
          rw [find, List.find?_eq_none]
          intro r' hr'
          have hne : key r' ≠ k := fun heq => ht.1 (hk ▸ heq ▸ List.mem_map_of_mem hr')
          simpa using hne
        have hfirst : find key k (r :: t) = some r := by simp [find, hk]
        simp [hnone, hfirst, Update.returningRow, hholds]
      · have hskip : find key k (r :: t) = find key k t := by simp [find, hk]
        rw [hskip]

end Hooktrace.Table
