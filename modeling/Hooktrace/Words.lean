import Mathlib.Data.List.Infix

/-!
Where a word stands in a text that is joined from pieces: a word without the separator stands in
one of the pieces.
-/
namespace Hooktrace.Words

variable {α : Type*} {w a b : List α} {c : α}

theorem infix_or_infix (hc : c ∉ w) (h : w <:+: a ++ c :: b) : w <:+: a ∨ w <:+: b := by
  obtain ⟨pre, post, h⟩ := h
  rw [List.append_assoc] at h
  obtain ⟨x, ha, hx⟩ | ⟨x, rfl, hx⟩ := List.append_eq_append_iff.mp h
  · -- the word begins before the separator
    obtain ⟨y, rfl, hy⟩ | ⟨y, hw, hy⟩ := List.append_eq_append_iff.mp hx
    · left
      rw [ha]
      exact ⟨pre, y, by simp⟩
    · cases y with
      | nil =>
        left
        rw [ha, hw, List.append_nil]
        exact (List.suffix_append pre x).isInfix
      | cons d y =>
        obtain ⟨rfl, -⟩ := List.cons.inj hy
        exact absurd (hw ▸ List.mem_append_right x List.mem_cons_self) hc
  · cases x with
    | nil =>
      cases w with
      | nil => exact Or.inl (List.nil_infix)
      | cons d w =>
        obtain ⟨rfl, -⟩ := List.cons.inj hx
        exact absurd List.mem_cons_self hc
    | cons d x =>
      right
      obtain ⟨-, rfl⟩ := List.cons.inj hx
      exact ⟨x, post, by simp⟩

theorem exists_infix_of_intercalate (hc : c ∉ w) (hw : w ≠ []) {pieces : List (List α)}
    (h : w <:+: [c].intercalate pieces) : ∃ piece ∈ pieces, w <:+: piece := by
  induction pieces with
  | nil => exact absurd (List.infix_nil.mp (by simpa using h)) hw
  | cons piece pieces ih =>
    by_cases hpieces : pieces = []
    · subst hpieces
      exact ⟨piece, List.mem_cons_self, by simpa using h⟩
    · rw [List.intercalate_cons_of_ne_nil hpieces, List.append_assoc] at h
      obtain hfirst | hlater := infix_or_infix hc h
      · exact ⟨piece, List.mem_cons_self, hfirst⟩
      · obtain ⟨piece', hmem, hin⟩ := ih hlater
        exact ⟨piece', List.mem_cons_of_mem _ hmem, hin⟩

/-- What is added to the last piece is added to the text. -/
theorem intercalate_concat_append (pieces : List (List α)) :
    [c].intercalate (pieces ++ [a ++ b]) = [c].intercalate (pieces ++ [a]) ++ b := by
  induction pieces with
  | nil => simp
  | cons piece pieces ih =>
    rw [List.cons_append, List.cons_append, List.intercalate_cons_of_ne_nil (by simp),
      List.intercalate_cons_of_ne_nil (by simp), ih, List.append_assoc _ _ b]

/-- Long pieces make a long text. -/
theorem length_intercalate_concat {n : ℕ} {pieces : List (List α)}
    (h : ∀ piece ∈ pieces, n ≤ piece.length) :
    (n + 1) * pieces.length + a.length ≤ ([c].intercalate (pieces ++ [a])).length := by
  induction pieces with
  | nil => simp
  | cons piece pieces ih =>
    have hfirst := h piece List.mem_cons_self
    have hrest := ih fun piece' hmem => h piece' (List.mem_cons_of_mem _ hmem)
    rw [List.cons_append, List.intercalate_cons_of_ne_nil (by simp)]
    simp only [List.length_append, List.length_cons, List.length_nil, Nat.mul_add]
    omega

theorem infix_intercalate {piece : List α} {pieces : List (List α)} (h : piece ∈ pieces) :
    piece <:+: [c].intercalate pieces := by
  induction pieces with
  | nil => simp at h
  | cons first pieces ih =>
    by_cases hpieces : pieces = []
    · subst hpieces
      simp [List.mem_singleton.mp h]
    · rw [List.intercalate_cons_of_ne_nil hpieces, List.append_assoc]
      rcases List.mem_cons.mp h with rfl | h
      · exact (List.prefix_append _ _).isInfix
      · exact (ih h).trans ⟨first ++ [c], [], by simp⟩

theorem not_infix_of_length (h : a.length < w.length) : ¬ w <:+: a :=
  fun hinfix => absurd hinfix.length_le (Nat.not_le_of_lt h)

end Hooktrace.Words
