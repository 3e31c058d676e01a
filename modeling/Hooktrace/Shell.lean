import Mathlib.Data.List.Infix

/-!
The words of a command line, by the rules of POSIX shells: blanks, quotes, backslashes and
comments. Where a shell would do anything but take characters for themselves (operators,
expansions, patterns, a second line) there are no words.
-/
namespace Hooktrace.Shell

inductive Mode where
  | blank
  | blankEscape
  | word
  | wordEscape
  | single
  | double
  | doubleEscape
  | comment

/-- What an unquoted character stands for in place of itself. -/
def special : List Char :=
  ['|', '&', ';', '<', '>', '(', ')', '$', '`', '*', '?', '[', '\n']

/-- The word that is being read, and the text that follows. -/
def scan : Mode → List Char → List Char → Option (List (List Char))
  | .blank, _, [] => some []
  | .comment, _, [] => some []
  | .word, w, [] => some [w]
  | .blankEscape, _, [] => none
  | .wordEscape, _, [] => none
  | .single, _, [] => none
  | .double, _, [] => none
  | .doubleEscape, _, [] => none
  | .blank, _, c :: s =>
    if c = ' ' ∨ c = '\t' then scan .blank [] s
    else if c = '#' then scan .comment [] s
    else if c = '\\' then scan .blankEscape [] s
    else if c = '\'' then scan .single [] s
    else if c = '"' then scan .double [] s
    else if c ∈ special ∨ c = '~' then none
    else scan .word [c] s
  -- a backslash before the end of a line joins it to the next one
  | .blankEscape, _, c :: s => if c = '\n' then scan .blank [] s else scan .word [c] s
  | .word, w, c :: s =>
    if c = ' ' ∨ c = '\t' then (scan .blank [] s).map (w :: ·)
    else if c = '\\' then scan .wordEscape w s
    else if c = '\'' then scan .single w s
    else if c = '"' then scan .double w s
    else if c ∈ special then none
    else scan .word (w ++ [c]) s
  | .wordEscape, w, c :: s => scan .word (if c = '\n' then w else w ++ [c]) s
  | .single, w, c :: s => if c = '\'' then scan .word w s else scan .single (w ++ [c]) s
  | .double, w, c :: s =>
    if c = '"' then scan .word w s
    else if c = '\\' then scan .doubleEscape w s
    else if c = '$' ∨ c = '`' then none
    else scan .double (w ++ [c]) s
  | .doubleEscape, w, c :: s =>
    if c = '\n' then scan .double w s
    else if c ∈ ['$', '`', '"', '\\'] then scan .double (w ++ [c]) s
    else scan .double (w ++ ['\\', c]) s
  | .comment, _, c :: s => if c = '\n' then none else scan .comment [] s

def words (text : List Char) : Option (List (List Char)) := scan .blank [] text

/-- `text.replace(/'/g, "'\\''")`. -/
def escape (text : List Char) : List Char :=
  text.flatMap fun c => if c = '\'' then ['\'', '\\', '\'', '\''] else [c]

section Scan

variable {w rest : List Char}

@[simp] theorem scan_blank_space : scan .blank w (' ' :: rest) = scan .blank [] rest := rfl

@[simp] theorem scan_word_space :
    scan .word w (' ' :: rest) = (scan .blank [] rest).map (w :: ·) := rfl

@[simp] theorem scan_blank_quote : scan .blank w ('\'' :: rest) = scan .single [] rest := rfl

@[simp] theorem scan_single_quote : scan .single w ('\'' :: rest) = scan .word w rest := rfl

/-- A line that goes on. -/
@[simp] theorem scan_blank_continuation :
    scan .blank w ('\\' :: '\n' :: rest) = scan .blank [] rest := rfl

@[simp] theorem scan_word_nil : scan .word w [] = some [w] := rfl

/-- Between quotes an escaped text is itself. -/
theorem scan_escape (text : List Char) :
    scan .single w (escape text ++ '\'' :: rest) = scan .word (w ++ text) rest := by
  induction text generalizing w with
  | nil => simp [escape]
  | cons c text ih =>
    by_cases hc : c = '\''
    · subst hc
      have hstep : scan .single w (escape ('\'' :: text) ++ '\'' :: rest) =
          scan .single (w ++ ['\'']) (escape text ++ '\'' :: rest) := by
        simp [escape, scan]
      rw [hstep, ih]
      simp
    · have hstep : scan .single w (escape (c :: text) ++ '\'' :: rest) =
          scan .single (w ++ [c]) (escape text ++ '\'' :: rest) := by
        simp [escape, scan, hc]
      rw [hstep, ih]
      simp

theorem scan_single {text : List Char} (h : '\'' ∉ text) :
    scan .single w (text ++ rest) = scan .single (w ++ text) rest := by
  induction text generalizing w with
  | nil => simp
  | cons c text ih =>
    obtain ⟨hc, htext⟩ := List.ne_and_not_mem_of_not_mem_cons h
    rw [List.cons_append, scan, if_neg hc.symm, ih htext]
    simp

/-- A comment is no word. -/
theorem scan_comment {text : List Char} (h : '\n' ∉ text) :
    scan .blank w ('#' :: text) = some [] := by
  have hskip : scan .comment [] text = some [] := by
    induction text with
    | nil => rfl
    | cons c text ih =>
      obtain ⟨hc, htext⟩ := List.ne_and_not_mem_of_not_mem_cons h
      rw [scan, if_neg hc.symm, ih htext]
  exact hskip

def Mode.inWord : Mode → Bool
  | .word | .wordEscape | .single | .double | .doubleEscape => true
  | .blank | .blankEscape | .comment => false

/-- What has been read of a word stays at its beginning. -/
theorem prefix_of_scan {mode : Mode} {s first : List Char} {others : List (List Char)}
    (hmode : mode.inWord = true) (h : scan mode w s = some (first :: others)) : w <+: first := by
  induction s generalizing mode w with
  | nil =>
    cases mode <;> simp only [scan, reduceCtorEq] at h <;> try cases hmode
    simp only [Option.some.injEq, List.cons.injEq] at h
    exact h.1 ▸ List.prefix_rfl
  | cons c s ih =>
    have hlonger {mode : Mode} {added : List Char} (hmode : mode.inWord = true)
        (h : scan mode (w ++ added) s = some (first :: others)) : w <+: first :=
      (List.prefix_append w added).trans (ih hmode h)
    cases mode with
    | blank | blankEscape | comment => cases hmode
    | word =>
      simp only [scan] at h
      split at h
      · obtain ⟨ws, -, heq⟩ := Option.map_eq_some_iff.mp h
        exact (List.cons.inj heq).1 ▸ List.prefix_rfl
      · split at h
        · exact ih rfl h
        · split at h
          · exact ih rfl h
          · split at h
            · exact ih rfl h
            · split at h
              · cases h
              · exact hlonger rfl h
    | wordEscape =>
      simp only [scan] at h
      split at h
      · exact ih rfl h
      · exact hlonger rfl h
    | single =>
      simp only [scan] at h
      split at h
      · exact ih rfl h
      · exact hlonger rfl h
    | double =>
      simp only [scan] at h
      split at h
      · exact ih rfl h
      · split at h
        · exact ih rfl h
        · split at h
          · cases h
          · exact hlonger rfl h
    | doubleEscape =>
      simp only [scan] at h
      split at h
      · exact ih rfl h
      · split at h
        · exact hlonger rfl h
        · exact hlonger rfl h

/-- A word that goes on with another character than a quote has no quote there. -/
theorem not_prefix_of_append {c : Char} {first : List Char} (hquote : c ≠ '\'')
    (h : w ++ [c] <+: first) : ¬ w ++ ['\''] <+: first := by
  obtain ⟨t, rfl⟩ := h
  simpa [List.prefix_append_right_inj] using hquote.symm

/-- Quotes that are not escaped put no quote into the word. -/
theorem not_prefix_of_scan {mode : Mode} (hmode : mode = .word ∨ mode = .single) {c : Char}
    (hquote : c ≠ '\'') (hdouble : c ≠ '"') (hback : c ≠ '\\') {n : ℕ} {s first : List Char}
    {others : List (List Char)}
    (h : scan mode w (List.replicate n '\'' ++ c :: s) = some (first :: others)) :
    ¬ w ++ ['\''] <+: first := by
  induction n generalizing mode with
  | zero =>
    rw [List.replicate_zero, List.nil_append] at h
    rcases hmode with rfl | rfl
    · simp only [scan, hquote, hdouble, hback, if_false] at h
      split at h
      · obtain ⟨ws, -, heq⟩ := Option.map_eq_some_iff.mp h
        obtain rfl := (List.cons.inj heq).1
        exact fun hlonger => absurd hlonger.length_le (by simp)
      · split at h
        · cases h
        · exact not_prefix_of_append hquote (prefix_of_scan rfl h)
    · rw [scan, if_neg hquote] at h
      exact not_prefix_of_append hquote (prefix_of_scan rfl h)
  | succ n ih =>
    rw [List.replicate_succ, List.cons_append] at h
    rcases hmode with rfl | rfl
    · exact ih (Or.inr rfl) (by simpa [scan] using h)
    · exact ih (Or.inl rfl) (by simpa [scan] using h)

end Scan

end Hooktrace.Shell
