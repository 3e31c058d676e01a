import Hooktrace.PyDict

/-!
Dictionaries whose keys are told apart by less than what they are, as the names of headers are
without their case: which values stand under a name, and when a key has no rival for it.
-/
namespace Hooktrace.FoldedKeys

variable {K F V : Type*} [DecidableEq K] (fold : K → F)

/-- The values of the keys that are folded to the name. -/
def under [DecidableEq F] (d : PyDict K V) (name : F) : List V :=
  (d.items.filter fun p => fold p.1 = name).map Prod.snd

/-- No other key is folded to the same. -/
def Unrivalled (d : PyDict K V) (k : K) : Prop :=
  ∀ a v, d.get? a = some v → fold a = fold k → a = k

variable {fold}

theorem under_eq_nil [DecidableEq F] {d : PyDict K V} {name : F} :
    under fold d name = [] ↔ ∀ a v, d.get? a = some v → fold a ≠ name := by
  simp only [under, List.map_eq_nil_iff, List.filter_eq_nil_iff, decide_eq_true_eq]
  constructor
  · intro h a v hget
    exact h (a, v) (PyDict.mem_items_of_get? hget)
  · intro h p hp
    exact h p.1 p.2 (PyDict.get?_of_mem_items hp)

/-- A value stands alone under its key if and only if the key has no rival. -/
theorem under_eq_singleton [DecidableEq F] {d : PyDict K V} {k : K} {v : V}
    (h : d.get? k = some v) :
    under fold d (fold k) = [v] ↔ Unrivalled fold d k := by
  obtain ⟨items, nodup⟩ := d
  have hmem := PyDict.mem_items_of_get? h
  obtain ⟨before, after, rfl⟩ := List.append_of_mem hmem
  have hnone (rest : List (K × V)) : rest.filter (fun p => fold p.1 = fold k) = [] ↔
      ∀ p ∈ rest, fold p.1 ≠ fold k := by
    simp [List.filter_eq_nil_iff]
  have halone : under fold ⟨before ++ (k, v) :: after, nodup⟩ (fold k) = [v] ↔
      ∀ p ∈ before ++ after, fold p.1 ≠ fold k := by
    simp only [under, List.filter_append, List.filter_cons, decide_true, if_true, List.map_append,
      List.map_cons]
    rw [List.append_eq_singleton_iff]
    simp [hnone, or_imp, forall_and]
  rw [halone]
  have hkeys : ∀ p ∈ before ++ after, p.1 ≠ k := by
    simp only [List.map_append, List.map_cons, List.nodup_append, List.nodup_cons] at nodup
    rintro p hp rfl
    rcases List.mem_append.mp hp with hbefore | hafter
    · exact nodup.2.2 _ (List.mem_map_of_mem hbefore) _ List.mem_cons_self rfl
    · exact nodup.2.1.1 (List.mem_map_of_mem hafter)
  constructor
  · intro halone a w hget hfold
    have ha := PyDict.mem_items_of_get? hget
    simp only [List.mem_append, List.mem_cons, Prod.mk.injEq] at ha
    by_contra hne
    refine halone (a, w) (List.mem_append.mpr ?_) hfold
    rcases ha with hbefore | ⟨heq, -⟩ | hafter
    · exact Or.inl hbefore
    · exact absurd heq hne
    · exact Or.inr hafter
  · intro hunrivalled p hp hfold
    refine hkeys p hp (hunrivalled p.1 p.2 (PyDict.get?_of_mem_items ?_) hfold)
    rcases List.mem_append.mp hp with hbefore | hafter
    · exact List.mem_append_left _ hbefore
    · exact List.mem_append_right _ (List.mem_cons_of_mem _ hafter)

/-- Setting a key makes it no rival of itself, nor of a key that is folded to something else. -/
theorem unrivalled_set {d : PyDict K V} {k other : K} {v : V}
    (h : fold other = fold k → other = k) :
    Unrivalled fold (d.set other v) k ↔ Unrivalled fold d k := by
  constructor
  · intro hset a w hget hfold
    by_cases ha : a = other
    · subst ha
      exact h hfold
    · exact hset a w (by rw [PyDict.get?_set, if_neg ha, hget]) hfold
  · intro hd a w hget hfold
    by_cases ha : a = other
    · subst ha
      exact h hfold
    · rw [PyDict.get?_set, if_neg ha] at hget
      exact hd a w hget hfold

theorem unrivalled_update {d e : PyDict K V} {k : K} :
    Unrivalled fold (d.update e) k ↔ Unrivalled fold d k ∧ Unrivalled fold e k := by
  constructor
  · intro h
    refine ⟨fun a w hget hfold => ?_, fun a w hget hfold => ?_⟩
    · cases hown : e.get? a with
      | none => exact h a w (by rw [PyDict.get?_update, hown, hget]; rfl) hfold
      | some own => exact h a own (by rw [PyDict.get?_update, hown]; rfl) hfold
    · exact h a w (by rw [PyDict.get?_update, hget]; rfl) hfold
  · rintro ⟨hd, he⟩ a w hget hfold
    rw [PyDict.get?_update, Option.or_eq_some_iff] at hget
    rcases hget with hown | ⟨-, hold⟩
    · exact he a w hown hfold
    · exact hd a w hold hfold

end Hooktrace.FoldedKeys
