import Hooktrace.HtmlTemplate
import Hooktrace.JsonDumps

/-!
JSON in a template. Angle brackets, ampersands and apostrophes are escaped as JSON escapes them, so
that the text says what it said (`Says.htmlsafe`), and may stand between single quotes as it is.
-/
namespace Hooktrace.HtmlsafeJson

open HtmlTemplate (Literal Value.WellFormed)
open HtmlText (Printable forall_mem_of_all)
open Json JsonDumps JsonText

def Special (c : Char) : Prop := c = '<' ∨ c = '>' ∨ c = '&' ∨ c = '\''

instance decidableSpecial : DecidablePred Special :=
  fun c => inferInstanceAs (Decidable (c = '<' ∨ c = '>' ∨ c = '&' ∨ c = '\''))

def htmlsafeChar (c : Char) : List Char := if Special c then unicodeEscape c.toNat else [c]

/-- `htmlsafe_json_dumps`, behind `json.dumps`. -/
def htmlsafe (s : List Char) : List Char := s.flatMap htmlsafeChar

theorem htmlsafe_special {c : Char} (h : Special c) (s : List Char) :
    htmlsafe (c :: s) = unicodeEscape c.toNat ++ htmlsafe s := by
  rw [htmlsafe, List.flatMap_cons, htmlsafeChar, if_pos h]
  rfl

theorem htmlsafe_cons {c : Char} (h : ¬ Special c) (s : List Char) :
    htmlsafe (c :: s) = c :: htmlsafe s := by
  rw [htmlsafe, List.flatMap_cons, htmlsafeChar, if_neg h]
  rfl

section Meaning

/-- Where the special characters and the backslash end a run of characters. -/
theorem span_htmlsafe {p : Char → Bool} (hp : ∀ c, Special c → p c = false)
    (hslash : p '\\' = false) (s : List Char) :
    (htmlsafe s).takeWhile p = s.takeWhile p ∧
      (htmlsafe s).dropWhile p = htmlsafe (s.dropWhile p) := by
  induction s with
  | nil => exact ⟨rfl, rfl⟩
  | cons c s ih =>
    by_cases hc : Special c
    · obtain ⟨t, hescape⟩ : ∃ t, htmlsafe (c :: s) = '\\' :: t := ⟨_, htmlsafe_special hc s⟩
      have hstop : p c = false := hp c hc
      simp [hstop, hescape, hslash]
    · rw [htmlsafe_cons hc, List.takeWhile_cons, List.dropWhile_cons, List.takeWhile_cons,
        List.dropWhile_cons, ih.1, ih.2]
      cases p c with
      | true => exact ⟨rfl, rfl⟩
      | false => exact ⟨rfl, (htmlsafe_cons hc s).symm⟩

theorem skipSpace_htmlsafe (s : List Char) :
    skipSpace (htmlsafe s) = htmlsafe (skipSpace s) := by
  refine (span_htmlsafe ?_ (by decide) s).2
  rintro c (rfl | rfl | rfl | rfl) <;> decide

theorem number_htmlsafe (s : List Char) :
    (htmlsafe s).takeWhile isNumberChar = s.takeWhile isNumberChar ∧
      (htmlsafe s).dropWhile isNumberChar = htmlsafe (s.dropWhile isNumberChar) := by
  refine span_htmlsafe ?_ (by decide) s
  rintro c (rfl | rfl | rfl | rfl) <;> decide

theorem not_special_of_hexDigit {c : Char} {n : ℕ} (h : UrlEncoding.hexDigit c = some n) :
    ¬ Special c := by
  have hnone : ∀ d, Special d → UrlEncoding.hexDigit d = none := by
    rintro d (rfl | rfl | rfl | rfl) <;> decide
  intro hc
  rw [hnone c hc] at h
  exact Option.some_ne_none n h.symm

/-- What may stand behind a backslash is not escaped, and begins no escape by number. -/
theorem unescaped {c : Char} {code : CodePoint} (h : unescape c = some code) :
    ¬ Special c ∧ c ≠ 'u' := by
  have hnone : ∀ d, Special d ∨ d = 'u' → unescape d = none := by
    rintro d ((rfl | rfl | rfl | rfl) | rfl) <;> decide
  have hne : ¬ (Special c ∨ c = 'u') := fun hc => Option.some_ne_none code (h ▸ hnone c hc)
  exact not_or.mp hne

theorem scanCodes_special {c : Char} (h : Special c) (t : List Char) :
    scanCodes (unicodeEscape c.toNat ++ t) = prepend (.ofChar c) (scanCodes t) := by
  have hsmall : c.toNat < 0x10000 := by
    rcases h with rfl | rfl | rfl | rfl <;> decide
  rw [scanCodes_unicodeEscape hsmall, ofNat_toNat]

theorem prepend_eq_some {c : CodePoint} {scanned : Option (PyStr × List Char)} {text : PyStr}
    {rest : List Char} (h : prepend c scanned = some (text, rest)) :
    ∃ more, scanned = some (more, rest) ∧ text = c :: more := by
  cases scanned with
  | none => simp [prepend] at h
  | some found =>
    obtain ⟨rfl, rfl⟩ := Prod.mk.inj (Option.some.inj h)
    exact ⟨found.1, rfl, rfl⟩

theorem scanCodes_htmlsafe {s : List Char} {text : PyStr} {rest : List Char}
    (h : scanCodes s = some (text, rest)) :
    scanCodes (htmlsafe s) = some (text, htmlsafe rest) := by
  fun_induction scanCodes s generalizing text with
  | case1 => simp at h
  | case2 s =>
    obtain ⟨rfl, rfl⟩ := Prod.mk.inj (Option.some.inj h)
    rfl
  | case3 => simp at h
  | case4 a b c d s n hquad ih =>
    obtain ⟨more, hmore, rfl⟩ := prepend_eq_some h
    have hdigits : (∃ w, UrlEncoding.hexDigit a = some w) ∧ (∃ x, UrlEncoding.hexDigit b = some x) ∧
        (∃ y, UrlEncoding.hexDigit c = some y) ∧ ∃ z, UrlEncoding.hexDigit d = some z := by
      simp only [hexQuad, Option.bind_eq_bind, Option.bind_eq_some_iff] at hquad
      obtain ⟨w, hw, x, hx, y, hy, z, hz, -⟩ := hquad
      exact ⟨⟨w, hw⟩, ⟨x, hx⟩, ⟨y, hy⟩, ⟨z, hz⟩⟩
    obtain ⟨⟨w, hw⟩, ⟨x, hx⟩, ⟨y, hy⟩, ⟨z, hz⟩⟩ := hdigits
    have hcons : htmlsafe ('\\' :: 'u' :: a :: b :: c :: d :: s) =
        '\\' :: 'u' :: a :: b :: c :: d :: htmlsafe s := by
      rw [htmlsafe_cons (by decide), htmlsafe_cons (by decide),
        htmlsafe_cons (not_special_of_hexDigit hw), htmlsafe_cons (not_special_of_hexDigit hx),
        htmlsafe_cons (not_special_of_hexDigit hy), htmlsafe_cons (not_special_of_hexDigit hz)]
    rw [hcons]
    simp only [scanCodes, hquad, ih hmore]
    rfl
  | case5 c s hquad hnone => simp at h
  | case6 c s hquad code hcode ih =>
    obtain ⟨more, hmore, rfl⟩ := prepend_eq_some h
    obtain ⟨hc, hne⟩ := unescaped hcode
    rw [htmlsafe_cons (by decide), htmlsafe_cons hc, scanCodes]
    · simp only [hcode, ih hmore]
      rfl
    · intro a b d e t hu _
      exact hne hu
  | case7 c s hquote hquad hslash hcontrol => simp at h
  | case8 c s hquote hquad hslash hplain ih =>
    obtain ⟨more, hmore, rfl⟩ := prepend_eq_some h
    by_cases hc : Special c
    · rw [htmlsafe_special hc, scanCodes_special hc, ih hmore]
      rfl
    · have hne : c ≠ '\\' := by
        rintro rfl
        cases s with
        | nil => simp [scanCodes] at hmore
        | cons d s => exact hslash d s rfl rfl
      rw [htmlsafe_cons hc, scanCodes_plain hquote hne (Nat.not_lt.mp hplain), ih hmore]
      rfl

theorem scanString_htmlsafe {s : List Char} {text : PyStr} {rest : List Char}
    (h : scanString s = some (text, rest)) :
    scanString (htmlsafe s) = some (text, htmlsafe rest) := by
  obtain ⟨⟨codes, rest'⟩, hcodes, heq⟩ := Option.map_eq_some_iff.mp h
  obtain ⟨rfl, rfl⟩ := Prod.mk.inj heq
  rw [scanString, scanCodes_htmlsafe hcodes]
  rfl

theorem skipSpace_head {s t : List Char} {c : Char} (hc : ¬ Special c)
    (h : skipSpace s = c :: t) : skipSpace (htmlsafe s) = c :: htmlsafe t := by
  rw [skipSpace_htmlsafe, h, htmlsafe_cons hc]

mutual

theorem reads_htmlsafe {s rest : List Char} {value : Value} (h : Reads s value rest) :
    Reads (htmlsafe s) value (htmlsafe rest) := by
  cases h with
  | literalNull => exact .literalNull
  | literalTrue => exact .literalTrue
  | literalFalse => exact .literalFalse
  | number hnumber =>
    obtain ⟨htake, hdrop⟩ := number_htmlsafe s
    have hreads := Reads.number (htake.symm ▸ hnumber)
    rwa [htake, hdrop] at hreads
  | string hscan => exact .string (scanString_htmlsafe hscan)
  | emptyArray hclose => exact .emptyArray (skipSpace_head (by decide) hclose)
  | array hitems =>
    have hreads := readsItems_htmlsafe hitems
    rw [← skipSpace_htmlsafe] at hreads
    exact .array hreads
  | emptyObject hclose => exact .emptyObject (skipSpace_head (by decide) hclose)
  | object hmembers =>
    have hreads := readsMembers_htmlsafe hmembers
    rw [← skipSpace_htmlsafe] at hreads
    exact .object hreads

theorem readsItems_htmlsafe {s rest : List Char} {items : List Value}
    (h : ReadsItems s items rest) : ReadsItems (htmlsafe s) items (htmlsafe rest) := by
  cases h with
  | last hvalue hclose =>
    exact .last (reads_htmlsafe hvalue) (skipSpace_head (by decide) hclose)
  | cons hvalue hcomma hitems =>
    have hreads := readsItems_htmlsafe hitems
    rw [← skipSpace_htmlsafe] at hreads
    exact .cons (reads_htmlsafe hvalue) (skipSpace_head (by decide) hcomma) hreads

theorem readsMembers_htmlsafe {s rest : List Char} {members : List (PyStr × Value)}
    (h : ReadsMembers s members rest) : ReadsMembers (htmlsafe s) members (htmlsafe rest) := by
  cases h with
  | last hkey hcolon hvalue hclose =>
    have hreads := reads_htmlsafe hvalue
    rw [← skipSpace_htmlsafe] at hreads
    exact .last (scanString_htmlsafe hkey) (skipSpace_head (by decide) hcolon) hreads
      (skipSpace_head (by decide) hclose)
  | cons hkey hcolon hvalue hcomma hmembers =>
    have hreads := reads_htmlsafe hvalue
    have hmore := readsMembers_htmlsafe hmembers
    rw [← skipSpace_htmlsafe] at hreads hmore
    exact .cons (scanString_htmlsafe hkey) (skipSpace_head (by decide) hcolon) hreads
      (skipSpace_head (by decide) hcomma) hmore

end

/-- The text says what it said. -/
theorem says_htmlsafe {s : List Char} {value : Value} (h : Says s value) :
    Says (htmlsafe s) value := by
  obtain ⟨rest, hreads, hrest⟩ := h
  refine ⟨htmlsafe rest, ?_, ?_⟩
  · rw [skipSpace_htmlsafe]
    exact reads_htmlsafe hreads
  · rw [skipSpace_htmlsafe, hrest]
    rfl

theorem says_dumps (v : PyValue) : Says (htmlsafe (dumps v)) v.value := by
  have hreads := reads_dumps v (show Stops [] by simp [Stops])
  rw [List.append_nil] at hreads
  exact says_htmlsafe ⟨[], hreads.skipSpace_eq.symm ▸ hreads, rfl⟩

end Meaning

section Quoting

/-- A digit of an escape is written as it is. -/
theorem hexChar_safe (n : ℕ) : Printable (hexChar (n % 16)) ∧ ¬ Special (hexChar (n % 16)) := by
  have hall : ∀ k < 16, Printable (hexChar k) ∧ ¬ Special (hexChar k) := by decide
  exact hall _ (Nat.mod_lt n (by decide))

theorem unicodeEscape_safe (n : ℕ) : ∀ c ∈ unicodeEscape n, Printable c ∧ ¬ Special c := by
  intro c hc
  simp only [unicodeEscape, List.mem_cons, List.not_mem_nil, or_false] at hc
  rcases hc with rfl | rfl | rfl | rfl | rfl | rfl
  · decide
  · decide
  all_goals exact hexChar_safe _

theorem printable_escape (c : Char) : ∀ d ∈ escape c, Printable d := by
  have hunicode : ∀ n, ∀ d ∈ unicodeEscape n, Printable d :=
    fun n d hd => (unicodeEscape_safe n d hd).1
  unfold escape
  split
  · exact forall_mem_of_all (by decide)
  split
  · exact forall_mem_of_all (by decide)
  split
  · exact forall_mem_of_all (by decide)
  split
  · exact forall_mem_of_all (by decide)
  split
  · exact forall_mem_of_all (by decide)
  split
  · exact forall_mem_of_all (by decide)
  split
  · exact forall_mem_of_all (by decide)
  split
  · rename_i hplain
    exact List.forall_mem_singleton.mpr hplain
  split
  · exact hunicode _
  · exact List.forall_mem_append.mpr ⟨hunicode _, hunicode _⟩

theorem printable_quoted (s : String) : ∀ c ∈ quoted s, Printable c := by
  intro c hc
  simp only [quoted, List.cons_append, List.mem_cons, List.mem_append, List.mem_flatMap,
    List.not_mem_nil, or_false] at hc
  rcases hc with rfl | ⟨d, -, hd⟩ | rfl
  · decide
  · exact printable_escape d c hd
  · decide

theorem printable_int (n : ℤ) : ∀ c ∈ (toString n).toList, Printable c := by
  intro c hc
  have hnumber := isNumberChar_toString n c hc
  simp only [isNumberChar, decide_eq_true_eq] at hnumber
  rcases hnumber with hdigit | rfl | rfl | rfl | rfl | rfl
  · have hbounds := isDigit_bounds hdigit
    unfold Printable
    omega
  all_goals decide

mutual

/-- What is dumped is printable ASCII. -/
theorem printable_dumps (v : PyValue) : ∀ c ∈ dumps v, Printable c := by
  cases v with
  | none => exact forall_mem_of_all (by decide)
  | int n => exact printable_int n
  | str s => exact printable_quoted s
  | dict items =>
    intro c hc
    simp only [dumps, List.cons_append, List.mem_cons, List.mem_append, List.not_mem_nil,
      or_false] at hc
    rcases hc with rfl | hc | rfl
    · decide
    · exact printable_dumpsItems items c hc
    · decide

theorem printable_dumpsItems (items : List (String × PyValue)) :
    ∀ c ∈ dumpsItems items, Printable c := by
  match items with
  | [] => simp [dumpsItems]
  | [(key, value)] =>
    rw [dumpsItems]
    exact List.forall_mem_append.mpr ⟨List.forall_mem_append.mpr
      ⟨printable_quoted key, forall_mem_of_all (by decide)⟩, printable_dumps value⟩
  | (key, value) :: item :: items =>
    rw [dumpsItems]
    · refine List.forall_mem_append.mpr ⟨List.forall_mem_append.mpr
        ⟨List.forall_mem_append.mpr ⟨List.forall_mem_append.mpr
          ⟨printable_quoted key, forall_mem_of_all (by decide)⟩, printable_dumps value⟩,
          forall_mem_of_all (by decide)⟩, ?_⟩
      exact printable_dumpsItems (item :: items)
    · simp

end

/-- Between single quotes the text is written as it is. -/
theorem literal_htmlsafe (v : PyValue) :
    ∀ c ∈ htmlsafe (dumps v), Literal c ∧ c ≠ '\'' := by
  intro c hc
  obtain ⟨d, hd, hcd⟩ := List.mem_flatMap.mp hc
  have hsafe : Printable c ∧ ¬ Special c := by
    unfold htmlsafeChar at hcd
    split at hcd
    · exact unicodeEscape_safe _ c hcd
    · rw [List.mem_singleton.mp hcd]
      exact ⟨printable_dumps v d hd, ‹_›⟩
  obtain ⟨hprintable, hspecial⟩ := hsafe
  refine ⟨⟨Or.inr hprintable, ?_, ?_⟩, ?_⟩ <;> rintro rfl <;> exact hspecial (by decide)

end Quoting

end Hooktrace.HtmlsafeJson
