import Mathlib.Data.List.Nodup
import Mathlib.Data.List.Sublists

/-!
Python's `dict`: distinct keys in insertion order. Setting a key that is present
keeps its place, a new key goes to the end, and `update` sets the items of another
dictionary one after the other.
-/
namespace Hooktrace

structure PyDict (K V : Type*) where
  items : List (K × V)
  nodup : (items.map Prod.fst).Nodup

namespace PyDict

theorem ext_items {K V : Type*} {d e : PyDict K V} (h : d.items = e.items) : d = e := by
  cases d
  cases e
  simpa using h

variable {K V : Type*} [DecidableEq K]

instance [DecidableEq V] : DecidableEq (PyDict K V) := fun d e =>
  decidable_of_iff (d.items = e.items) ⟨ext_items, congrArg items⟩

def empty : PyDict K V := ⟨[], List.nodup_nil⟩

def get? (d : PyDict K V) (k : K) : Option V := (d.items.find? (fun p => p.1 = k)).map Prod.snd

def setItems (k : K) (v : V) : List (K × V) → List (K × V)
  | [] => [(k, v)]
  | (k', v') :: rest => if k' = k then (k, v) :: rest else (k', v') :: setItems k v rest

theorem mem_keys_setItems {k a : K} {v : V} {items : List (K × V)} :
    a ∈ (setItems k v items).map Prod.fst ↔ a = k ∨ a ∈ items.map Prod.fst := by
  induction items with
  | nil => simp [setItems]
  | cons p rest ih =>
    obtain ⟨k', v'⟩ := p
    by_cases hk : k' = k
    · subst k'
      simp [setItems]
    · simp only [setItems, hk, if_false, List.map_cons, List.mem_cons, ih]
      tauto

theorem nodup_setItems {k : K} {v : V} {items : List (K × V)}
    (h : (items.map Prod.fst).Nodup) : ((setItems k v items).map Prod.fst).Nodup := by
  induction items with
  | nil => simp [setItems]
  | cons p rest ih =>
    obtain ⟨k', v'⟩ := p
    simp only [List.map_cons, List.nodup_cons] at h
    by_cases hk : k' = k
    · subst k'
      simpa [setItems] using h
    · simp only [setItems, hk, if_false, List.map_cons, List.nodup_cons]
      refine ⟨?_, ih h.2⟩
      rw [mem_keys_setItems]
      intro hkey
      rcases hkey with heq | hmem
      · exact hk heq
      · exact h.1 hmem

/-- `d[k] = v`. -/
def set (d : PyDict K V) (k : K) (v : V) : PyDict K V :=
  ⟨setItems k v d.items, nodup_setItems d.nodup⟩

/-- `d.update(e)`. -/
def update (d e : PyDict K V) : PyDict K V := e.items.foldl (fun acc p => acc.set p.1 p.2) d

/-- `{k: v for k, v in d.items() if keep(k)}`. -/
def filterKeys (d : PyDict K V) (keep : K → Bool) : PyDict K V where
  items := d.items.filter (fun p => keep p.1)
  nodup := d.nodup.sublist (List.filter_sublist.map Prod.fst)

/-- `{k: f(v) for k, v in d.items() if f is defined}`. -/
def filterMapValues {W : Type*} (f : V → Option W) (d : PyDict K V) : PyDict K W where
  items := d.items.filterMap fun p => (f p.2).map fun w => (p.1, w)
  nodup := by
    have hkeys : (d.items.filterMap fun p => (f p.2).map fun w => (p.1, w)).map Prod.fst =
        (d.items.filter fun p => (f p.2).isSome).map Prod.fst := by
      induction d.items with
      | nil => rfl
      | cons p rest ih => cases hp : f p.2 <;> simp [hp, ih]
    rw [hkeys]
    exact d.nodup.sublist (List.filter_sublist.map Prod.fst)

/-- `k in d`. -/
def has (d : PyDict K V) (k : K) : Bool := (d.get? k).isSome

theorem find_setItems (k a : K) (v : V) (items : List (K × V)) :
    ((setItems k v items).find? (fun p => p.1 = a)).map Prod.snd =
      if a = k then some v else (items.find? (fun p => p.1 = a)).map Prod.snd := by
  induction items with
  | nil =>
    by_cases ha : a = k
    · simp [setItems, ha]
    · simp [setItems, ha, Ne.symm ha]
  | cons p rest ih =>
    obtain ⟨k', v'⟩ := p
    by_cases hk : k' = k
    · subst k'
      by_cases ha : a = k
      · simp [setItems, ha]
      · simp [setItems, ha, Ne.symm ha]
    · by_cases ha : k' = a
      · have hak : ¬ a = k := fun h => hk (ha.trans h)
        simp [setItems, ha, hak]
      · simpa [setItems, hk, ha] using ih

@[simp] theorem get?_set (d : PyDict K V) (k a : K) (v : V) :
    (d.set k v).get? a = if a = k then some v else d.get? a := find_setItems k a v d.items

theorem has_set (d : PyDict K V) (k a : K) (v : V) :
    (d.set k v).has a = true ↔ a = k ∨ d.has a = true := by
  rw [has, get?_set]
  split
  · simp [*]
  · simp [*, has]

theorem has_iff {d : PyDict K V} {k : K} : d.has k = true ↔ ∃ v, d.get? k = some v :=
  Option.isSome_iff_exists

theorem mem_items_of_get? {d : PyDict K V} {k : K} {v : V} (h : d.get? k = some v) :
    (k, v) ∈ d.items := by
  obtain ⟨p, hp, rfl⟩ := Option.map_eq_some_iff.mp h
  obtain rfl : p.1 = k := by simpa using List.find?_some hp
  exact List.mem_of_find?_eq_some hp

theorem get?_filterKeys (d : PyDict K V) (keep : K → Bool) (k : K) :
    (d.filterKeys keep).get? k = if keep k then d.get? k else none := by
  unfold get? filterKeys
  rw [List.find?_filter]
  cases hkeep : keep k with
  | true =>
    refine congrArg (fun select => (d.items.find? select).map Prod.snd) (funext fun p => ?_)
    by_cases hp : p.1 = k <;> simp [hp, hkeep]
  | false =>
    refine Option.map_eq_none_iff.mpr (List.find?_eq_none.mpr fun p _ hfound => ?_)
    have hfound : keep p.1 = true ∧ p.1 = k := by simpa using hfound
    rw [hfound.2, hkeep] at hfound
    exact Bool.false_ne_true hfound.1

theorem mem_setItems {items : List (K × V)} {k : K} {v : V} {p : K × V}
    (h : p ∈ setItems k v items) : p = (k, v) ∨ p ∈ items := by
  induction items with
  | nil => simpa [setItems] using h
  | cons q rest ih =>
    obtain ⟨k', v'⟩ := q
    unfold setItems at h
    split at h
    · rcases List.mem_cons.mp h with rfl | hmem
      · exact Or.inl rfl
      · exact Or.inr (List.mem_cons_of_mem _ hmem)
    · rcases List.mem_cons.mp h with rfl | hmem
      · exact Or.inr List.mem_cons_self
      · rcases ih hmem with heq | hmem
        · exact Or.inl heq
        · exact Or.inr (List.mem_cons_of_mem _ hmem)

theorem mem_items_set {d : PyDict K V} {k : K} {v : V} {p : K × V}
    (h : p ∈ (d.set k v).items) : p = (k, v) ∨ p ∈ d.items := mem_setItems h

/-- Setting a key leaves the items of all others. -/
theorem mem_items_set_of_ne {d : PyDict K V} {k : K} {v : V} {p : K × V} (h : p ∈ d.items)
    (hne : p.1 ≠ k) : p ∈ (d.set k v).items := by
  show p ∈ setItems k v d.items
  generalize d.items = items at h
  induction items with
  | nil => simp at h
  | cons q rest ih =>
    obtain ⟨k', v'⟩ := q
    unfold setItems
    rcases List.mem_cons.mp h with rfl | hmem
    · rw [if_neg hne]
      exact List.mem_cons_self
    · split
      · exact List.mem_cons_of_mem _ hmem
      · exact List.mem_cons_of_mem _ (ih hmem)

theorem mem_items_update {d e : PyDict K V} {p : K × V} (h : p ∈ (d.update e).items) :
    p ∈ d.items ∨ p ∈ e.items := by
  unfold update at h
  generalize e.items = own at h
  induction own generalizing d with
  | nil => exact Or.inl h
  | cons q rest ih =>
    rcases ih h with hset | hrest
    · rcases mem_items_set hset with rfl | hmem
      · exact Or.inr List.mem_cons_self
      · exact Or.inl hmem
    · exact Or.inr (List.mem_cons_of_mem _ hrest)

theorem get?_of_mem_items {d : PyDict K V} {k : K} {v : V} (h : (k, v) ∈ d.items) :
    d.get? k = some v := by
  obtain ⟨items, nodup⟩ := d
  simp only [get?]
  dsimp only at h
  induction items with
  | nil => simp at h
  | cons p rest ih =>
    rw [List.map_cons, List.nodup_cons] at nodup
    rcases List.mem_cons.mp h with rfl | hmem
    · simp
    · have hne : p.1 ≠ k := by
        rintro rfl
        exact nodup.1 (List.mem_map.mpr ⟨_, hmem, rfl⟩)
      rw [List.find?_cons_of_neg (by simpa using hne)]
      exact ih nodup.2 hmem

/-- The items of the other dictionary come over its own. -/
theorem get?_update (d e : PyDict K V) (k : K) :
    (d.update e).get? k = (e.get? k).or (d.get? k) := by
  obtain ⟨items, nodup⟩ := e
  simp only [update]
  induction items generalizing d with
  | nil => simp [get?]
  | cons p rest ih =>
    rw [List.map_cons, List.nodup_cons] at nodup
    rw [List.foldl_cons, ih _ nodup.2, get?_set]
    by_cases hk : k = p.1
    · subst hk
      have hfresh : get? ⟨rest, nodup.2⟩ p.1 = none := by
        rw [get?, Option.map_eq_none_iff, List.find?_eq_none]
        intro q hq heq
        have heq : q.1 = p.1 := by simpa using heq
        exact nodup.1 (heq ▸ List.mem_map_of_mem hq)
      rw [hfresh]
      simp [get?]
    · rw [if_neg hk]
      simp [get?, Ne.symm hk]

theorem setItems_of_notMem {k : K} {v : V} {items : List (K × V)}
    (h : k ∉ items.map Prod.fst) : setItems k v items = items ++ [(k, v)] := by
  induction items with
  | nil => rfl
  | cons p rest ih =>
    obtain ⟨k', v'⟩ := p
    simp only [List.map_cons, List.mem_cons, not_or] at h
    simp [setItems, Ne.symm h.1, ih h.2]

/-- A dictionary is what its items make of the empty one. -/
theorem empty_update (d : PyDict K V) : (empty : PyDict K V).update d = d := by
  have hfold : ∀ (done rest : List (K × V)) (e : PyDict K V), e.items = done →
      ((done ++ rest).map Prod.fst).Nodup →
      (rest.foldl (fun acc p => acc.set p.1 p.2) e).items = done ++ rest := by
    intro done rest
    induction rest generalizing done with
    | nil =>
      intro e he _
      simpa using he
    | cons p rest ih =>
      intro e he hnodup
      have hfresh : p.1 ∉ e.items.map Prod.fst := by
        rw [he]
        simp only [List.map_append, List.map_cons, List.nodup_append] at hnodup
        intro hmem
        exact hnodup.2.2 _ hmem _ List.mem_cons_self rfl
      have hset : (e.set p.1 p.2).items = done ++ [p] := by
        rw [← he]
        exact setItems_of_notMem hfresh
      have hrest := ih (done ++ [p]) (e.set p.1 p.2) hset (by simpa using hnodup)
      simpa using hrest
  refine ext_items ?_
  simpa [update] using hfold [] d.items empty rfl d.nodup

end PyDict

end Hooktrace
