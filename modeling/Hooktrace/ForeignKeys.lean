import Hooktrace.Table

/-!
Foreign keys. The rows of all tables stand in one list; a row refers to others by their
keys, and each reference says what becomes of the row when the other is deleted. A DELETE
takes every row that cascades from those it hits (`Doomed`), and fails when a row that
would stay refers to one that would go. References lead to tables of lower rank, which
bounds the cascades and makes `doomed` computable.
-/
namespace Hooktrace.ForeignKeys

open Table

inductive OnDelete where
  | noAction
  | cascade
  deriving DecidableEq

structure Reference (K : Type*) where
  target : K
  onDelete : OnDelete

structure Schema (R K : Type*) where
  key : R → K
  references : R → List (Reference K)
  rank : K → ℕ
  rank_lt : ∀ r, ∀ f ∈ references r, rank f.target < rank (key r)

variable {R K : Type*} (sch : Schema R K)

/-- What a DELETE takes from the rows: those it hits, and those that cascade from them. -/
inductive Doomed (t : List R) (hit : R → Bool) : R → Prop
  | hit {r : R} : hit r = true → Doomed t hit r
  | cascade {r p : R} {f : Reference K} : f ∈ sch.references r → f.onDelete = .cascade →
      p ∈ t → sch.key p = f.target → Doomed t hit p → Doomed t hit r

def Referential (t : List R) : Prop :=
  ∀ r ∈ t, ∀ f ∈ sch.references r, f.target ∈ t.map sch.key

/-- Unique keys and no reference that leads nowhere. -/
structure Sound (t : List R) : Prop where
  unique : UniqueKeys sch.key t
  referential : Referential sch t

/-- Updates that touch neither keys nor references. -/
theorem Sound.map {sch : Schema R K} {t : List R} {g : R → R}
    (hkey : ∀ r, sch.key (g r) = sch.key r)
    (hreferences : ∀ r, sch.references (g r) = sch.references r) (ht : Sound sch t) :
    Sound sch (t.map g) := by
  have hkeys : (t.map g).map sch.key = t.map sch.key := by
    rw [List.map_map]
    exact List.map_congr_left fun r _ => hkey r
  refine ⟨by rw [UniqueKeys, hkeys]; exact ht.unique, ?_⟩
  intro r hr f hf
  obtain ⟨r₀, hr₀, rfl⟩ := List.mem_map.mp hr
  rw [hkeys]
  exact ht.referential r₀ hr₀ f (hreferences r₀ ▸ hf)

theorem Sound.perm {sch : Schema R K} {t t' : List R} (ht : Sound sch t) (hperm : t.Perm t') :
    Sound sch t' := by
  refine ⟨(hperm.map sch.key).nodup_iff.mp ht.unique, ?_⟩
  intro r hr f hf
  exact (hperm.map sch.key).mem_iff.mp (ht.referential r (hperm.mem_iff.mpr hr) f hf)

theorem Sound.append {sch : Schema R K} {t : List R} {r : R} (ht : Sound sch t)
    (hfresh : sch.key r ∉ t.map sch.key)
    (hreferences : ∀ f ∈ sch.references r, f.target ∈ t.map sch.key) : Sound sch (t ++ [r]) := by
  refine ⟨?_, ?_⟩
  · simp only [UniqueKeys, List.map_append, List.map_cons, List.map_nil]
    rw [← List.concat_eq_append, List.nodup_concat]
    exact ⟨hfresh, ht.unique⟩
  · intro r' hr' f hf
    rw [List.map_append, List.mem_append]
    rcases List.mem_append.mp hr' with hold | hnew
    · exact Or.inl (ht.referential r' hold f hf)
    · obtain rfl := List.mem_singleton.mp hnew
      exact Or.inl (hreferences f hf)

variable [DecidableEq K]

def doomedWithin (t : List R) (hit : R → Bool) : ℕ → R → Bool
  | 0, r => hit r
  | n + 1, r => hit r || (sch.references r).any fun f =>
      f.onDelete = .cascade && t.any fun p => sch.key p = f.target && doomedWithin t hit n p

def doomed (t : List R) (hit : R → Bool) (r : R) : Bool :=
  doomedWithin sch t hit (sch.rank (sch.key r)) r

/-- A row that would stay refers to one that would go. -/
def blocked (t : List R) (hit : R → Bool) : Bool :=
  t.any fun r => !doomed sch t hit r && (sch.references r).any fun f =>
    t.any fun p => sch.key p = f.target && doomed sch t hit p

/-- `DELETE`, with the number of rows it hits; `none` is a foreign key violation. -/
def delete (hit : R → Bool) (t : List R) : Option (List R × ℕ) :=
  if blocked sch t hit then none
  else some (t.filter fun r => !doomed sch t hit r, (t.filter hit).length)

/-- `INSERT`, which a taken key or a reference that leads nowhere rejects. -/
def insert (r : R) (t : List R) : Option (List R) :=
  if (sch.references r).all fun f => f.target ∈ t.map sch.key then Table.insert sch.key r t
  else none

section Lemmas

variable {sch} {t t' : List R} {hit : R → Bool} {r : R}

theorem doomed_of_doomedWithin {n : ℕ} (h : doomedWithin sch t hit n r = true) :
    Doomed sch t hit r := by
  induction n generalizing r with
  | zero => exact .hit h
  | succ n ih =>
    simp only [doomedWithin, Bool.or_eq_true, List.any_eq_true, Bool.and_eq_true,
      decide_eq_true_eq] at h
    rcases h with hhit | ⟨f, hf, hcascade, p, hp, hkey, hdoomed⟩
    · exact .hit hhit
    · exact .cascade hf hcascade hp hkey (ih hdoomed)

/-- Each cascade goes up one table at least. -/
theorem Doomed.within {n : ℕ} (h : Doomed sch t hit r) (hn : sch.rank (sch.key r) ≤ n) :
    doomedWithin sch t hit n r = true := by
  induction h generalizing n with
  | hit hhit => cases n <;> simp [doomedWithin, hhit]
  | @cascade r p f hf hcascade hp hkey _ ih =>
    have hlt := sch.rank_lt r f hf
    cases n with
    | zero => omega
    | succ n =>
      have hwithin : doomedWithin sch t hit n p = true := ih (by rw [hkey]; omega)
      simp only [doomedWithin, Bool.or_eq_true, List.any_eq_true, Bool.and_eq_true,
        decide_eq_true_eq]
      exact Or.inr ⟨f, hf, hcascade, p, hp, hkey, hwithin⟩

theorem doomed_iff : doomed sch t hit r = true ↔ Doomed sch t hit r :=
  ⟨doomed_of_doomedWithin, fun h => h.within (Nat.le_refl _)⟩

theorem blocked_iff : blocked sch t hit = true ↔ ∃ r ∈ t, ¬ Doomed sch t hit r ∧
    ∃ f ∈ sch.references r, ∃ p ∈ t, sch.key p = f.target ∧ Doomed sch t hit p := by
  simp only [blocked, List.any_eq_true, Bool.and_eq_true, Bool.not_eq_true', decide_eq_true_eq,
    ← doomed_iff, Bool.not_eq_true]

theorem delete_eq_none_iff : delete sch hit t = none ↔ ∃ r ∈ t, ¬ Doomed sch t hit r ∧
    ∃ f ∈ sch.references r, ∃ p ∈ t, sch.key p = f.target ∧ Doomed sch t hit p := by
  rw [← blocked_iff]
  unfold delete
  split <;> simp_all

theorem delete_eq_some {n : ℕ} (h : delete sch hit t = some (t', n)) :
    t' = t.filter (fun r => !doomed sch t hit r) ∧ n = (t.filter hit).length ∧
      blocked sch t hit = false := by
  unfold delete at h
  split at h
  · simp at h
  · rename_i hblocked
    obtain ⟨rfl, rfl⟩ := Prod.mk.inj (Option.some.inj h)
    exact ⟨rfl, rfl, by simpa using hblocked⟩

theorem Sound.delete {n : ℕ} (ht : Sound sch t) (h : delete sch hit t = some (t', n)) :
    Sound sch t' := by
  obtain ⟨rfl, -, hblocked⟩ := delete_eq_some h
  refine ⟨(List.filter_sublist.map sch.key).nodup ht.unique, ?_⟩
  intro r hr f hf
  obtain ⟨hr, hstays⟩ := List.mem_filter.mp hr
  obtain ⟨p, hp, hkey⟩ := List.mem_map.mp (ht.referential r hr f hf)
  have hpstays : doomed sch t hit p = false := by
    by_contra hgoes
    have hviolation : blocked sch t hit = true := by
      refine blocked_iff.mpr ⟨r, hr, ?_, f, hf, p, hp, hkey, ?_⟩
      · rw [← doomed_iff]
        simpa using hstays
      · rw [← doomed_iff]
        simpa using hgoes
    simp [hblocked] at hviolation
  exact hkey ▸ List.mem_map_of_mem (List.mem_filter.mpr ⟨hp, by simp [hpstays]⟩)

/-- Whether a row is rejected depends on the keys of the table alone. -/
theorem insert_isSome_congr (h : t.map sch.key = t'.map sch.key) :
    (insert sch r t).isSome = (insert sch r t').isSome := by
  unfold insert Table.insert
  rw [h]
  split
  · split <;> rfl
  · rfl

theorem insert_eq_some (h : insert sch r t = some t') :
    t' = t ++ [r] ∧ sch.key r ∉ t.map sch.key ∧
      ∀ f ∈ sch.references r, f.target ∈ t.map sch.key := by
  unfold insert at h
  split at h
  · rename_i hall
    unfold Table.insert at h
    split at h
    · simp at h
    · rename_i hfresh
      exact ⟨(Option.some.inj h).symm, hfresh, by simpa using hall⟩
  · simp at h

end Lemmas

end Hooktrace.ForeignKeys
