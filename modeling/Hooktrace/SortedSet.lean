import Mathlib.Data.List.Sort
import Mathlib.Data.Prod.Lex

/-!
Sorted sets of a store: distinct members with scores, ordered by the score and then by the
member.
-/
namespace Hooktrace

structure SortedSet (S M : Type*) [LinearOrder S] [LinearOrder M] where
  items : List (S ×ₗ M)
  sorted : items.Pairwise (· ≤ ·)
  nodup : (items.map fun item => (ofLex item).2).Nodup

namespace SortedSet

variable {S M : Type*} [LinearOrder S] [LinearOrder M] (set : SortedSet S M)

def empty : SortedSet S M := ⟨[], List.Pairwise.nil, List.nodup_nil⟩

def scores : List S := set.items.map fun item => (ofLex item).1

def members : List M := set.items.map fun item => (ofLex item).2

/-- `ZCARD`. -/
def card : ℕ := set.items.length

/-- `ZREMRANGEBYSCORE key -inf max`. -/
def removeUpTo (max : S) : SortedSet S M where
  items := set.items.filter fun item => max < (ofLex item).1
  sorted := set.sorted.sublist List.filter_sublist
  nodup := set.nodup.sublist (List.filter_sublist.map _)

/-- `ZRANGE key 0 0 WITHSCORES`. -/
def first : Option (S ×ₗ M) := set.items.head?

/-- `ZADD key score member`; the score of a member that is there is replaced. -/
def add (score : S) (member : M) : SortedSet S M where
  items := (set.items.filter fun item => (ofLex item).2 ≠ member).orderedInsert (· ≤ ·)
    (toLex (score, member))
  sorted := (set.sorted.sublist List.filter_sublist).orderedInsert _ _
  nodup := by
    have hrest : ((set.items.filter fun item => (ofLex item).2 ≠ member).map
        fun item => (ofLex item).2).Nodup := set.nodup.sublist (List.filter_sublist.map _)
    refine ((List.perm_orderedInsert (· ≤ ·) _ _).map _).nodup_iff.mpr ?_
    rw [List.map_cons, List.nodup_cons]
    refine ⟨?_, hrest⟩
    simp

variable {set}

theorem length_scores : set.scores.length = set.card := by simp [scores, card]

theorem scores_removeUpTo (max : S) :
    (set.removeUpTo max).scores = set.scores.filter fun score => max < score := by
  simp [scores, removeUpTo, List.filter_map, Function.comp_def]

theorem mem_members_removeUpTo {max : S} {member : M}
    (h : member ∈ (set.removeUpTo max).members) : member ∈ set.members := by
  obtain ⟨item, hitem, rfl⟩ := List.mem_map.mp h
  exact List.mem_map_of_mem (List.mem_filter.mp hitem).1

theorem scores_add {score : S} {member : M} (h : member ∉ set.members) :
    (set.add score member).scores.Perm (score :: set.scores) := by
  have hkept : (set.items.filter fun item => (ofLex item).2 ≠ member) = set.items := by
    rw [List.filter_eq_self]
    intro item hitem
    have hother : (ofLex item).2 ≠ member := fun heq => h (heq ▸ List.mem_map_of_mem hitem)
    simpa using hother
  have hperm := (List.perm_orderedInsert (· ≤ ·) (toLex (score, member))
    (set.items.filter fun item => (ofLex item).2 ≠ member)).map fun item => (ofLex item).1
  rw [hkept, List.map_cons] at hperm
  rw [scores, add]
  simp only [hkept]
  exact hperm

theorem mem_members_add {score : S} {member member' : M}
    (h : member' ∈ (set.add score member).members) : member' = member ∨ member' ∈ set.members := by
  obtain ⟨item, hitem, rfl⟩ := List.mem_map.mp h
  rcases (List.mem_orderedInsert (· ≤ ·)).mp hitem with rfl | hold
  · exact Or.inl rfl
  · exact Or.inr (List.mem_map_of_mem (List.mem_filter.mp hold).1)

/-- The first item has the least of the scores. -/
theorem first_least {item : S ×ₗ M} (h : set.first = some item) :
    (ofLex item).1 ∈ set.scores ∧ ∀ score ∈ set.scores, (ofLex item).1 ≤ score := by
  obtain ⟨rest, hitems⟩ := List.head?_eq_some_iff.mp h
  have hsorted := set.sorted
  rw [hitems, List.pairwise_cons] at hsorted
  refine ⟨?_, ?_⟩
  · simp [scores, hitems]
  · intro score hscore
    rw [scores, hitems, List.map_cons, List.mem_cons] at hscore
    rcases hscore with rfl | hrest
    · exact le_rfl
    · obtain ⟨other, hother, rfl⟩ := List.mem_map.mp hrest
      exact Prod.Lex.monotone_fst_ofLex (hsorted.1 other hother)

theorem first_eq_none : set.first = none ↔ set.card = 0 := by
  simp [first, card]

end SortedSet

end Hooktrace
