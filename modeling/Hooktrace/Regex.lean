import Mathlib.Data.List.Infix
import Mathlib.Data.List.TakeWhile

/-!
Regular expressions that are sequences: character classes with counts, some of them captured, and
the anchors `^` and `$`. They match as Python's `re` does. A class takes all that it can and gives
back one character at a time, and `$` also holds in front of a line feed that ends the text.
-/
namespace Hooktrace.Regex

inductive Atom where
  /-- `^` -/
  | start
  /-- `$` -/
  | stop
  /-- `[...]{least,most}`; without `most` there is no bound. -/
  | chars (p : Char → Bool) (least : ℕ) (most : Option ℕ)
  /-- The same, captured. -/
  | group (p : Char → Bool) (least : ℕ) (most : Option ℕ)

/-- The characters of the text itself. -/
def literal (text : List Char) : List Atom := text.map fun c => .chars (· == c) 1 (some 1)

/-- What a class can take, the most first, and what stands behind it. -/
def splits (p : Char → Bool) (least : ℕ) (most : Option ℕ) (text : List Char) :
    List (List Char × List Char) :=
  let longest := (text.takeWhile p).length
  ((List.range ((most.elim longest (min longest)) + 1)).filter (least ≤ ·)).reverse.map fun n =>
    (text.take n, text.drop n)

/-- The groups of all ways to match, in the order in which they are tried. `atStart` is whether
nothing stands in front of the text. -/
def ways : Bool → List Atom → List Char → List (List (List Char))
  | _, [], _ => [[]]
  | atStart, .start :: atoms, text => if atStart then ways atStart atoms text else []
  | atStart, .stop :: atoms, text =>
    if text = [] ∨ text = ['\n'] then ways atStart atoms text else []
  | atStart, .chars p least most :: atoms, text =>
    (splits p least most text).flatMap fun (piece, rest) =>
      ways (atStart && piece.isEmpty) atoms rest
  | atStart, .group p least most :: atoms, text =>
    (splits p least most text).flatMap fun (piece, rest) =>
      (ways (atStart && piece.isEmpty) atoms rest).map (piece :: ·)

/-- `pattern.match(text)`, with the groups. -/
def pyMatch (pattern : List Atom) (text : List Char) : Option (List (List Char)) :=
  (ways true pattern text).head?

example : pyMatch (.start :: literal ['a'] ++ [.group (· ≠ 'b') 1 none, .stop]) ['a', 'c', '\n'] =
    some [['c', '\n']] := by decide

section Ways

variable {p : Char → Bool} {least : ℕ} {most : Option ℕ} {atoms : List Atom} {text : List Char}
variable {atStart : Bool} {groups : List (List Char)}

theorem le_length_takeWhile {n : ℕ} : n ≤ (text.takeWhile p).length ↔
    n ≤ text.length ∧ ∀ c ∈ text.take n, p c = true := by
  constructor
  · intro hn
    refine ⟨hn.trans (List.takeWhile_prefix p).length_le, fun c hc => ?_⟩
    have htake : text.take n = (text.takeWhile p).take n := by
      conv_lhs => rw [← List.takeWhile_append_dropWhile (p := p) (l := text)]
      rw [List.take_append_of_le_length hn]
    rw [htake] at hc
    exact List.mem_takeWhile_imp (List.mem_of_mem_take hc)
  · rintro ⟨hn, hall⟩
    have hprefix : text.take n <+: text.takeWhile p := by
      conv_rhs => rw [← List.take_append_drop n text]
      rw [List.takeWhile_append_of_pos hall]
      exact List.prefix_append _ _
    simpa [hn] using hprefix.length_le

structure Takes (p : Char → Bool) (least : ℕ) (most : Option ℕ) (piece : List Char) : Prop where
  all : ∀ c ∈ piece, p c = true
  least : least ≤ piece.length
  most : ∀ m ∈ most, piece.length ≤ m

theorem mem_splits {piece rest : List Char} : (piece, rest) ∈ splits p least most text ↔
    text = piece ++ rest ∧ Takes p least most piece := by
  have hcount : ∀ n, n < most.elim (text.takeWhile p).length
      (min (text.takeWhile p).length) + 1 ↔
        n ≤ (text.takeWhile p).length ∧ ∀ m ∈ most, n ≤ m := by
    intro n
    cases most with
    | none =>
      rw [Option.elim_none, Nat.lt_succ_iff]
      simp
    | some m =>
      rw [Option.elim_some, Nat.lt_succ_iff, Nat.le_min]
      simp
  simp only [splits, List.mem_map, List.mem_reverse, List.mem_filter, List.mem_range,
    decide_eq_true_eq, hcount, le_length_takeWhile, Prod.mk.injEq]
  constructor
  · rintro ⟨n, ⟨⟨⟨hn, hall⟩, hmost⟩, hleast⟩, rfl, rfl⟩
    have htake : (text.take n).length = n := List.length_take_of_le hn
    exact ⟨(List.take_append_drop n text).symm, hall, by rwa [htake], by rwa [htake]⟩
  · rintro ⟨rfl, hall, hleast, hmost⟩
    refine ⟨piece.length, ⟨⟨⟨by simp, ?_⟩, hmost⟩, hleast⟩, List.take_left, List.drop_left⟩
    rwa [List.take_left]

theorem mem_ways_chars : groups ∈ ways atStart (.chars p least most :: atoms) text ↔
    ∃ piece rest, text = piece ++ rest ∧ Takes p least most piece ∧
      groups ∈ ways (atStart && piece.isEmpty) atoms rest := by
  rw [ways, List.mem_flatMap]
  simp only [Prod.exists, mem_splits, and_assoc]

theorem mem_ways_group : groups ∈ ways atStart (.group p least most :: atoms) text ↔
    ∃ piece rest, text = piece ++ rest ∧ Takes p least most piece ∧
      ∃ others ∈ ways (atStart && piece.isEmpty) atoms rest, piece :: others = groups := by
  rw [ways, List.mem_flatMap]
  simp only [Prod.exists, mem_splits, List.mem_map, and_assoc]

theorem ways_start : ways atStart (.start :: atoms) text =
    if atStart then ways atStart atoms text else [] := by rw [ways]

theorem mem_ways_stop : groups ∈ ways atStart [.stop] text ↔
    (text = [] ∨ text = ['\n']) ∧ groups = [] := by
  rw [ways]
  split <;> simp_all [ways]

/-- A literal matches itself only. -/
theorem mem_ways_literal {word : List Char} (hword : word ≠ []) :
    groups ∈ ways atStart (literal word ++ atoms) text ↔
      ∃ rest, text = word ++ rest ∧ groups ∈ ways false atoms rest := by
  induction word generalizing atStart text with
  | nil => exact absurd rfl hword
  | cons c word ih =>
    have hfirst : groups ∈ ways atStart (literal (c :: word) ++ atoms) text ↔
        ∃ rest, text = c :: rest ∧ groups ∈ ways false (literal word ++ atoms) rest := by
      show groups ∈ ways atStart (.chars (· == c) 1 (some 1) :: (literal word ++ atoms)) text ↔ _
      rw [mem_ways_chars]
      constructor
      · rintro ⟨piece, rest, rfl, htakes, hgroups⟩
        obtain ⟨d, rfl⟩ := List.length_eq_one_iff.mp (le_antisymm (htakes.most 1 rfl) htakes.least)
        have hd : d = c := by simpa using htakes.all d List.mem_cons_self
        subst hd
        exact ⟨rest, rfl, by simpa using hgroups⟩
      · rintro ⟨rest, rfl, hgroups⟩
        exact ⟨[c], rest, rfl, ⟨by simp, le_refl 1, by simp⟩, by simpa using hgroups⟩
    rw [hfirst]
    cases word with
    | nil => simp [literal]
    | cons d word => simp [ih]

theorem isSome_match {pattern : List Atom} : (pyMatch pattern text).isSome = true ↔
    ∃ groups, groups ∈ ways true pattern text := by
  rw [pyMatch, List.isSome_head?]
  exact ⟨List.exists_mem_of_ne_nil _, fun ⟨_, hgroups⟩ => List.ne_nil_of_mem hgroups⟩

/-- What a literal leaves is matched by the rest of the pattern. -/
theorem ways_literal_append {word : List Char} (hword : word ≠ []) (rest : List Char) :
    ways atStart (literal word ++ atoms) (word ++ rest) = ways false atoms rest := by
  induction word generalizing atStart with
  | nil => exact absurd rfl hword
  | cons c word ih =>
    have hsplits : splits (· == c) 1 (some 1) (c :: (word ++ rest)) = [([c], word ++ rest)] := by
      have hrange : (List.range 2).filter (1 ≤ ·) = [1] := by decide
      simp [splits, hrange]
    show ways atStart (.chars (· == c) 1 (some 1) :: (literal word ++ atoms))
      (c :: (word ++ rest)) = _
    rw [ways, hsplits, List.flatMap_singleton]
    simp only [List.isEmpty_cons, Bool.and_false]
    cases word with
    | nil => rfl
    | cons d word => exact ih (by simp)

/-- A class without a bound takes all that it can first. -/
theorem head?_splits {piece rest : List Char} (hall : ∀ c ∈ piece, p c = true)
    (hleast : least ≤ piece.length) (hrest : ∀ c ∈ rest.head?, p c = false) :
    (splits p least none (piece ++ rest)).head? = some (piece, rest) := by
  have hnone : rest.takeWhile p = [] := by
    cases rest with
    | nil => rfl
    | cons c rest => rw [List.takeWhile_cons_of_neg (by simpa using hrest c rfl)]
  have hrange : ((List.range (piece.length + 1)).filter (least ≤ ·)).reverse.head? =
      some piece.length := by
    rw [List.head?_reverse, List.range_succ, List.filter_append,
      List.filter_cons_of_pos (by simpa using hleast), List.filter_nil, List.getLast?_concat]
  rw [splits, List.takeWhile_append_of_pos hall, hnone, List.append_nil, List.head?_map]
  simp only [Option.elim_none, hrange, Option.map_some, List.take_left, List.drop_left]

/-- The first way of a group, where what it takes first can be followed. -/
theorem head?_ways_group {piece rest : List Char} (hall : ∀ c ∈ piece, p c = true)
    (hleast : least ≤ piece.length) (hrest : ∀ c ∈ rest.head?, p c = false)
    (hways : (ways (atStart && piece.isEmpty) atoms rest).head? = some groups) :
    (ways atStart (.group p least none :: atoms) (piece ++ rest)).head? =
      some (piece :: groups) := by
  obtain ⟨others, hsplits⟩ := List.head?_eq_some_iff.mp (head?_splits hall hleast hrest)
  rw [ways, hsplits, List.flatMap_cons, List.head?_append, List.head?_map, hways]
  rfl

end Ways

end Hooktrace.Regex
