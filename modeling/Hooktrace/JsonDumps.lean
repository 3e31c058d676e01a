import Hooktrace.JsonText

/-!
`json.dumps` with its default arguments, on dictionaries, texts of characters, integers and
None. What it writes is ASCII, and says the value that it was given (`reads_dumps`).
-/
namespace Hooktrace.JsonDumps

open Json JsonText
open UrlEncoding (hexDigit hexDigit_hexChar)

inductive PyValue where
  | none
  | int (n : ℤ)
  | str (s : String)
  | dict (items : List (String × PyValue))

/-- `\uXXXX`. -/
def unicodeEscape (n : ℕ) : List Char :=
  ['\\', 'u', hexChar (n / 0x1000 % 16), hexChar (n / 0x100 % 16), hexChar (n / 0x10 % 16),
    hexChar (n % 16)]

def highSurrogate (n : ℕ) : ℕ := 0xD800 + (n - 0x10000) / 0x400

def lowSurrogate (n : ℕ) : ℕ := 0xDC00 + (n - 0x10000) % 0x400

/-- One character of `py_encode_basestring_ascii`. -/
def escape (c : Char) : List Char :=
  if c = '"' then ['\\', '"']
  else if c = '\\' then ['\\', '\\']
  else if c = '\n' then ['\\', 'n']
  else if c = '\r' then ['\\', 'r']
  else if c = '\t' then ['\\', 't']
  else if c.toNat = 0x0C then ['\\', 'f']
  else if c.toNat = 0x08 then ['\\', 'b']
  else if 0x20 ≤ c.toNat ∧ c.toNat ≤ 0x7E then [c]
  else if c.toNat < 0x10000 then unicodeEscape c.toNat
  else unicodeEscape (highSurrogate c.toNat) ++ unicodeEscape (lowSurrogate c.toNat)

def quoted (s : String) : List Char := '"' :: s.toList.flatMap escape ++ ['"']

mutual

def dumps : PyValue → List Char
  | .none => ['n', 'u', 'l', 'l']
  | .int n => (toString n).toList
  | .str s => quoted s
  | .dict items => '{' :: dumpsItems items ++ ['}']

def dumpsItems : List (String × PyValue) → List Char
  | [] => []
  | [(key, value)] => quoted key ++ [':', ' '] ++ dumps value
  | (key, value) :: rest => quoted key ++ [':', ' '] ++ dumps value ++ [',', ' '] ++ dumpsItems rest

end

mutual

/-- What a reader makes of the value. -/
def PyValue.value : PyValue → Value
  | .none => .null
  | .int n => .number (toString n).toList
  | .str s => .string (.ofString s)
  | .dict items => .object (members items)

def members : List (String × PyValue) → List (PyStr × Value)
  | [] => []
  | (key, value) :: rest => (.ofString key, value.value) :: members rest

end

example : String.ofList (dumps (.dict [("a", .int (-5)), ("é\n", .dict []), ("😀", .none)])) =
    "\x7b\"a\": -5, \"\\u00e9\\n\": \x7b\x7d, \"\\ud83d\\ude00\": null\x7d" := by
  decide +kernel

section Strings

theorem hexQuad_hexChar {n : ℕ} (h : n < 0x10000) :
    hexQuad (hexChar (n / 0x1000 % 16)) (hexChar (n / 0x100 % 16)) (hexChar (n / 0x10 % 16))
      (hexChar (n % 16)) = some n := by
  have hmod : ∀ k, hexDigit (hexChar (k % 16)) = some (k % 16) :=
    fun k => hexDigit_hexChar _ (Nat.mod_lt _ (by decide))
  have hsum : ((n / 0x1000 % 16 * 16 + n / 0x100 % 16) * 16 + n / 0x10 % 16) * 16 + n % 16 = n := by
    omega
  simp [hexQuad, hmod, hsum]

theorem scanCodes_unicodeEscape {n : ℕ} (h : n < 0x10000) (t : List Char) :
    scanCodes (unicodeEscape n ++ t) = prepend (.ofNat 0x110000 n) (scanCodes t) := by
  simp [unicodeEscape, scanCodes, hexQuad_hexChar h]

/-- The code points that are escaped for a character. -/
def codes (c : Char) : PyStr :=
  if c.toNat < 0x10000 then [.ofChar c]
  else [.ofNat 0x110000 (highSurrogate c.toNat), .ofNat 0x110000 (lowSurrogate c.toNat)]

theorem surrogates_lt {c : Char} :
    highSurrogate c.toNat < 0x10000 ∧ lowSurrogate c.toNat < 0x10000 := by
  have hlt := toNat_lt_codePoints c
  unfold highSurrogate lowSurrogate
  omega

theorem prepend_eq (c : CodePoint) (scanned : Option (PyStr × List Char)) :
    prepend c scanned = scanned.map fun p => ([c] ++ p.1, p.2) := rfl

theorem ofNat_toNat (c : Char) : Fin.ofNat 0x110000 c.toNat = CodePoint.ofChar c :=
  Fin.ext (Nat.mod_eq_of_lt (toNat_lt_codePoints c))

/-- A character that needs no escape stands for itself. -/
theorem scanCodes_plain {c : Char} (hquote : c ≠ '"') (hslash : c ≠ '\\')
    (hplain : 0x20 ≤ c.toNat) (t : List Char) :
    scanCodes (c :: t) = prepend (.ofChar c) (scanCodes t) := by
  rw [scanCodes]
  · rw [if_neg (Nat.not_lt.mpr hplain)]
  · exact hquote
  · intro a b d e rest hc _
    exact hslash hc
  · intro a rest hc _
    exact hslash hc

theorem scanCodes_escape (c : Char) (t : List Char) :
    scanCodes (escape c ++ t) = (scanCodes t).map fun p => (codes c ++ p.1, p.2) := by
  by_cases hquote : c = '"'
  · subst c
    rfl
  by_cases hslash : c = '\\'
  · subst c
    rfl
  by_cases hline : c = '\n'
  · subst c
    rfl
  by_cases hreturn : c = '\r'
  · subst c
    rfl
  by_cases htab : c = '\t'
  · subst c
    rfl
  by_cases hfeed : c.toNat = 0x0C
  · obtain rfl : c = Char.ofNat 0x0C := Char.toNat_inj.mp hfeed
    rfl
  by_cases hback : c.toNat = 0x08
  · obtain rfl : c = Char.ofNat 0x08 := Char.toNat_inj.mp hback
    rfl
  rw [escape, if_neg hquote, if_neg hslash, if_neg hline, if_neg hreturn, if_neg htab,
    if_neg hfeed, if_neg hback]
  by_cases hplain : 0x20 ≤ c.toNat ∧ c.toNat ≤ 0x7E
  · have hsmall : c.toNat < 0x10000 := Nat.lt_of_le_of_lt hplain.2 (by decide)
    rw [if_pos hplain, List.singleton_append, scanCodes_plain hquote hslash hplain.1, prepend_eq,
      codes, if_pos hsmall]
  rw [if_neg hplain]
  by_cases hsmall : c.toNat < 0x10000
  · rw [if_pos hsmall, scanCodes_unicodeEscape hsmall, ofNat_toNat, prepend_eq, codes,
      if_pos hsmall]
  · rw [if_neg hsmall, List.append_assoc, scanCodes_unicodeEscape surrogates_lt.1,
      scanCodes_unicodeEscape surrogates_lt.2, prepend_eq, prepend_eq, codes, if_neg hsmall,
      Option.map_map]
    rfl

theorem surrogates_bounds {c : Char} (h : ¬ c.toNat < 0x10000) :
    (0xD800 ≤ highSurrogate c.toNat ∧ highSurrogate c.toNat ≤ 0xDBFF) ∧
      0xDC00 ≤ lowSurrogate c.toNat ∧ lowSurrogate c.toNat ≤ 0xDFFF := by
  have hlt := toNat_lt_codePoints c
  unfold highSurrogate lowSurrogate
  omega

theorem joinSurrogates_eq {c : Char} (h : ¬ c.toNat < 0x10000) :
    joinSurrogates (highSurrogate c.toNat) (lowSurrogate c.toNat) = c.toNat := by
  unfold joinSurrogates highSurrogate lowSurrogate
  omega

theorem val_ofNat {n : ℕ} (h : n < 0x10000) : (Fin.ofNat 0x110000 n).val = n :=
  Nat.mod_eq_of_lt (Nat.lt_trans h (by decide))

/-- The surrogates that stand for a character are joined again. -/
theorem joinPair_codes (c : Char) (text : PyStr) :
    (codes c).foldr joinPair text = .ofChar c :: text := by
  unfold codes
  split
  · exact joinPair_eq (surrogate_toNat c).1 text
  · rename_i hlarge
    obtain ⟨hhigh, hlow⟩ := surrogates_bounds hlarge
    have hvalHigh := val_ofNat (surrogates_lt (c := c)).1
    have hvalLow := val_ofNat (surrogates_lt (c := c)).2
    have hsingle : isHighSurrogate (Fin.ofNat 0x110000 (lowSurrogate c.toNat)) = false := by
      rw [hvalLow]
      exact decide_eq_false fun hboth => absurd hboth.2 (by omega)
    have hpair : isHighSurrogate (Fin.ofNat 0x110000 (highSurrogate c.toNat)) = true ∧
        isLowSurrogate (Fin.ofNat 0x110000 (lowSurrogate c.toNat)) = true := by
      rw [hvalHigh, hvalLow]
      exact ⟨decide_eq_true hhigh, decide_eq_true hlow⟩
    rw [List.foldr_cons, List.foldr_cons, List.foldr_nil, joinPair_eq hsingle, joinPair,
      if_pos hpair, hvalHigh, hvalLow, joinSurrogates_eq hlarge, ofNat_toNat]

/-- A quoted text is read back. -/
theorem scanString_quoted (s : String) (rest : List Char) :
    scanString (s.toList.flatMap escape ++ '"' :: rest) = some (.ofString s, rest) := by
  have hcodes : ∀ l : List Char, scanCodes (l.flatMap escape ++ '"' :: rest) =
      some (l.flatMap codes, rest) := by
    intro l
    induction l with
    | nil => rfl
    | cons c l ih =>
      rw [List.flatMap_cons, List.append_assoc, scanCodes_escape, ih]
      rfl
  have hjoin : ∀ l : List Char, (l.flatMap codes).foldr joinPair [] = l.map CodePoint.ofChar := by
    intro l
    induction l with
    | nil => rfl
    | cons c l ih =>
      rw [List.flatMap_cons, List.foldr_append, ih, joinPair_codes]
      rfl
  rw [scanString, hcodes]
  exact congrArg (fun text => some (text, rest)) (hjoin s.toList)

end Strings

section Numbers

theorem digits_repr (n : ℕ) : Digits n.repr.toList := by
  refine ⟨?_, ?_⟩
  · rw [Nat.toList_repr]
    exact Nat.toDigits_ne_nil
  · intro c hc
    rw [Nat.toList_repr] at hc
    have hdigit := Nat.isDigit_of_mem_toDigits (by decide) (by decide) hc
    simpa [Char.isDigit, isDigit, Char.le_def] using hdigit

theorem head_toDigits {n : ℕ} (h : 0 < n) : (Nat.toDigits 10 n).head? ≠ some '0' := by
  induction n using Nat.strong_induction_on with
  | _ n ih =>
    by_cases hsmall : n < 10
    · rw [Nat.toDigits_of_lt_base hsmall]
      have hdigit : ∀ k < 10, 0 < k → [k.digitChar].head? ≠ some '0' := by decide
      exact hdigit n hsmall h
    · rw [Nat.toDigits_of_base_le (by decide) (Nat.not_lt.mp hsmall), List.head?_append]
      have hquotient := ih (n / 10) (by omega) (by omega)
      cases hhead : (Nat.toDigits 10 (n / 10)).head? with
      | none => exact absurd (List.head?_eq_none_iff.mp hhead) Nat.toDigits_ne_nil
      | some c =>
        rw [hhead] at hquotient
        exact hquotient

theorem repr_leading_zero {n : ℕ} (h : n.repr.toList.head? = some '0') :
    n.repr.toList = ['0'] := by
  rw [Nat.toList_repr] at h ⊢
  rcases Nat.eq_zero_or_pos n with rfl | hpos
  · exact Nat.toDigits_zero 10
  · exact absurd h (head_toDigits hpos)

/-- `str(n)`, with its sign. -/
theorem toList_toString (n : ℤ) : ∃ sign m, (sign = [] ∨ sign = ['-']) ∧
    (toString n).toList = sign ++ (Nat.repr m).toList := by
  cases n with
  | ofNat m => exact ⟨[], m, Or.inl rfl, rfl⟩
  | negSucc m =>
    have hsign : (toString (Int.negSucc m)).toList = ("-" ++ Nat.repr (m + 1)).toList := rfl
    exact ⟨['-'], m + 1, Or.inr rfl, hsign.trans String.toList_append⟩

theorem number_toString (n : ℤ) : Number (toString n).toList := by
  obtain ⟨sign, m, hsign, heq⟩ := toList_toString n
  have hnumber := Number.mk hsign (digits_repr m) repr_leading_zero (Or.inl rfl) (Or.inl rfl)
  rw [heq]
  simpa using hnumber

theorem isNumberChar_toString (n : ℤ) : ∀ c ∈ (toString n).toList, isNumberChar c = true := by
  obtain ⟨sign, m, hsign, heq⟩ := toList_toString n
  intro c hc
  rw [heq, List.mem_append] at hc
  rcases hc with hc | hc
  · rcases hsign with rfl | rfl
    · exact absurd hc List.not_mem_nil
    · rw [List.mem_singleton.mp hc]
      decide
  · exact decide_eq_true (Or.inl ((digits_repr m).2 c hc))

end Numbers

section Reading

/-- Behind a value, nothing that could continue a number. -/
def Stops (rest : List Char) : Prop := ∀ c ∈ rest.head?, isNumberChar c = false

theorem reads_int (n : ℤ) {rest : List Char} (h : Stops rest) :
    Reads ((toString n).toList ++ rest) (.number (toString n).toList) rest := by
  have hdigits := isNumberChar_toString n
  have hstop : rest.takeWhile isNumberChar = [] ∧ rest.dropWhile isNumberChar = rest := by
    cases rest with
    | nil => exact ⟨rfl, rfl⟩
    | cons c rest =>
      have hc := h c rfl
      simp [hc]
  have htake : ((toString n).toList ++ rest).takeWhile isNumberChar = (toString n).toList := by
    rw [List.takeWhile_append_of_pos hdigits, hstop.1, List.append_nil]
  have hdrop : ((toString n).toList ++ rest).dropWhile isNumberChar = rest := by
    rw [List.dropWhile_append_of_pos hdigits, hstop.2]
  have hreads := Reads.number (htake.symm ▸ number_toString n)
  rwa [htake, hdrop] at hreads

theorem reads_quoted (s : String) (rest : List Char) :
    Reads (quoted s ++ rest) (.string (.ofString s)) rest := by
  have hscan := scanString_quoted s rest
  simp only [quoted, List.cons_append, List.append_assoc, List.nil_append]
  exact Reads.string hscan

/-- What may follow a member: the end of the object, or further members. -/
inductive Follows : List Char → List (PyStr × Value) → List Char → Prop
  | close {rest : List Char} : Follows ('}' :: rest) [] rest
  | more {more rest : List Char} {ms : List (PyStr × Value)} :
      ReadsMembers (skipSpace more) ms rest → Follows (',' :: more) ms rest

theorem Follows.stops {tail rest : List Char} {ms : List (PyStr × Value)}
    (h : Follows tail ms rest) : Stops tail := by
  cases h <;> intro c hc <;> obtain rfl := Option.some.inj hc <;> decide

theorem Follows.member {key : String} {s tail rest : List Char} {value : Value}
    {ms : List (PyStr × Value)} (h : Follows tail ms rest) (hvalue : Reads (s ++ tail) value tail) :
    ReadsMembers (quoted key ++ [':', ' '] ++ s ++ tail) ((.ofString key, value) :: ms) rest := by
  have hscan := scanString_quoted key (':' :: ' ' :: s ++ tail)
  have hspace : skipSpace (' ' :: (s ++ tail)) = s ++ tail := hvalue.skipSpace_eq
  have hreads : Reads (skipSpace (' ' :: (s ++ tail))) value tail := hspace.symm ▸ hvalue
  simp only [quoted, List.cons_append, List.append_assoc, List.nil_append]
  cases h with
  | close => exact .last hscan rfl hreads rfl
  | more hmore => exact .cons hscan rfl hreads rfl hmore

/-- The members of an object may have a blank in front. -/
theorem skipSpace_members {s rest : List Char} {ms : List (PyStr × Value)}
    (h : ReadsMembers s ms rest) : skipSpace s = s ∧ skipSpace (' ' :: s) = s := by
  cases h <;> exact ⟨rfl, rfl⟩

mutual

/-- What is dumped says the value. -/
theorem reads_dumps (v : PyValue) {rest : List Char} (h : Stops rest) :
    Reads (dumps v ++ rest) v.value rest := by
  cases v with
  | none => exact .literalNull
  | int n => exact reads_int n h
  | str s => exact reads_quoted s rest
  | dict items =>
    cases items with
    | nil => exact .emptyObject rfl
    | cons item items =>
      have hclose : Follows ('}' :: rest) [] rest := .close
      have hmembers := reads_dumpsItems (item :: items) (List.cons_ne_nil item items) hclose
      rw [← (skipSpace_members hmembers).1] at hmembers
      simpa [dumps, PyValue.value] using Reads.object hmembers

/-- The members of a dictionary, in front of what may follow them. -/
theorem reads_dumpsItems (items : List (String × PyValue)) {tail rest : List Char}
    {ms : List (PyStr × Value)} (hne : items ≠ []) (h : Follows tail ms rest) :
    ReadsMembers (dumpsItems items ++ tail) (members items ++ ms) rest := by
  match items with
  | [(key, value)] =>
    simpa [dumpsItems, members] using h.member (reads_dumps value h.stops)
  | (key, value) :: item :: items =>
    have hmembers := reads_dumpsItems (item :: items) (List.cons_ne_nil item items) h
    have hmore : Follows (',' :: ' ' :: (dumpsItems (item :: items) ++ tail))
        (members (item :: items) ++ ms) rest :=
      .more ((skipSpace_members hmembers).2.symm ▸ hmembers)
    simpa [dumpsItems, members] using hmore.member (reads_dumps value hmore.stops)

end

end Reading

end Hooktrace.JsonDumps
