import Mathlib.Data.List.Basic

/-!
How a browser reads tags, attributes and text, character by character. Comments, declarations and
instructions are not read. What a named reference stands for is a parameter: it depends on its
letters, on what follows them, and on whether it stands in an attribute. A text that is escaped is
read as itself, as text and as the value of an attribute in quotes.
-/
namespace Hooktrace.HtmlText

inductive Event where
  | char (c : Char)
  | startTag (name : List Char)
  | endTag (name : List Char)
  | attribute (name value : List Char)
  /-- A tag is complete. -/
  | tagDone
  deriving DecidableEq

inductive Mode where
  | data
  | tagOpen
  | endTagOpen
  | tagName (closing : Bool) (name : List Char)
  | beforeAttributeName
  | attributeName (name : List Char)
  | afterAttributeName (name : List Char)
  | beforeAttributeValue (name : List Char)
  | attributeValue (quote : Char) (name value : List Char)
  | unquotedValue (name value : List Char)
  | afterAttributeValue
  | selfClosing
  /-- Behind an ampersand, with the letters and digits so far. -/
  | reference (back : Mode) (letters : List Char)
  /-- Behind `&#`. -/
  | decimal (back : Mode) (digits : List Char)
  /-- Behind `&#x`. -/
  | hexadecimal (back : Mode) (start digits : List Char)
  deriving DecidableEq

abbrev Reading := Mode × List Event

def isSpace (c : Char) : Bool := c = '\t' ∨ c = '\n' ∨ c = Char.ofNat 0x0C ∨ c = ' '

def replacement : Char := Char.ofNat 0xFFFD

/-- The numbers from 0x80 to 0x9F. -/
def windows1252 : List ℕ :=
  [0x20AC, 0x81, 0x201A, 0x0192, 0x201E, 0x2026, 0x2020, 0x2021, 0x02C6, 0x2030, 0x0160, 0x2039,
    0x0152, 0x8D, 0x017D, 0x8F, 0x90, 0x2018, 0x2019, 0x201C, 0x201D, 0x2022, 0x2013, 0x2014,
    0x02DC, 0x2122, 0x0161, 0x203A, 0x0153, 0x9D, 0x017E, 0x0178]

/-- The character of a numeric reference. -/
def numbered (n : ℕ) : Char :=
  if n = 0 ∨ 0x10FFFF < n ∨ 0xD800 ≤ n ∧ n ≤ 0xDFFF then replacement
  else Char.ofNat (if 0x80 ≤ n ∧ n ≤ 0x9F then windows1252.getD (n - 0x80) n else n)

def digitValue (c : Char) : ℕ :=
  if c.isDigit then c.toNat - 0x30
  else if c.isLower then c.toNat - 0x61 + 10
  else c.toNat - 0x41 + 10

def isHexDigit (c : Char) : Bool := c.isDigit || c.toLower ∈ ['a', 'b', 'c', 'd', 'e', 'f']

def number (base : ℕ) (digits : List Char) : ℕ :=
  digits.foldl (fun n c => base * n + digitValue c) 0

/-- NUL is not taken into names and values. -/
def kept (c : Char) : Char := if c = Char.ofNat 0 then replacement else c

def Mode.inAttribute : Mode → Bool
  | .data => false
  | _ => true

def give (text : List Char) : Mode → Reading
  | .attributeValue quote name value => (.attributeValue quote name (value ++ text), [])
  | .unquotedValue name value => (.unquotedValue name (value ++ text), [])
  | back => (back, text.map .char)

/-- What a named reference stands for, in an attribute or not, from its letters and what follows
them; a semicolon belongs to it. -/
abbrev Entities := Bool → List Char → Char → List Char

section Read

variable (entities : Entities)

/-- Where a name of an attribute may begin. -/
def beforeName (c : Char) : Option Reading :=
  if isSpace c then some (.beforeAttributeName, [])
  else if c = '/' then some (.selfClosing, [])
  else if c = '>' then some (.data, [.tagDone])
  else some (.attributeName [kept c.toLower], [])

def tagEvent (closing : Bool) (name : List Char) : Event :=
  if closing then .endTag name else .startTag name

def plain : Mode → Char → Option Reading
  | .data, c =>
    if c = '<' then some (.tagOpen, [])
    else if c = '&' then some (.reference .data [], [])
    else some (.data, [.char c])
  | .tagOpen, c =>
    if c = '/' then some (.endTagOpen, [])
    else if c.isAlpha then some (.tagName false [c.toLower], [])
    else if c = '!' ∨ c = '?' then none
    else if c = '<' then some (.tagOpen, [.char '<'])
    else if c = '&' then some (.reference .data [], [.char '<'])
    else some (.data, [.char '<', .char c])
  | .endTagOpen, c =>
    if c.isAlpha then some (.tagName true [c.toLower], [])
    else if c = '>' then some (.data, [])
    else none
  | .tagName closing name, c =>
    if isSpace c then some (.beforeAttributeName, [tagEvent closing name])
    else if c = '/' then some (.selfClosing, [tagEvent closing name])
    else if c = '>' then some (.data, [tagEvent closing name, .tagDone])
    else some (.tagName closing (name ++ [kept c.toLower]), [])
  | .beforeAttributeName, c => beforeName c
  | .attributeName name, c =>
    if isSpace c then some (.afterAttributeName name, [])
    else if c = '/' then some (.selfClosing, [.attribute name []])
    else if c = '>' then some (.data, [.attribute name [], .tagDone])
    else if c = '=' then some (.beforeAttributeValue name, [])
    else some (.attributeName (name ++ [kept c.toLower]), [])
  | .afterAttributeName name, c =>
    if isSpace c then some (.afterAttributeName name, [])
    else if c = '/' then some (.selfClosing, [.attribute name []])
    else if c = '=' then some (.beforeAttributeValue name, [])
    else if c = '>' then some (.data, [.attribute name [], .tagDone])
    else some (.attributeName [kept c.toLower], [.attribute name []])
  | .beforeAttributeValue name, c =>
    if isSpace c then some (.beforeAttributeValue name, [])
    else if c = '"' ∨ c = '\'' then some (.attributeValue c name [], [])
    else if c = '>' then some (.data, [.attribute name [], .tagDone])
    else if c = '&' then some (.reference (.unquotedValue name []) [], [])
    else some (.unquotedValue name [kept c], [])
  | .attributeValue quote name value, c =>
    if c = quote then some (.afterAttributeValue, [.attribute name value])
    else if c = '&' then some (.reference (.attributeValue quote name value) [], [])
    else some (.attributeValue quote name (value ++ [kept c]), [])
  | .unquotedValue name value, c =>
    if isSpace c then some (.beforeAttributeName, [.attribute name value])
    else if c = '&' then some (.reference (.unquotedValue name value) [], [])
    else if c = '>' then some (.data, [.attribute name value, .tagDone])
    else some (.unquotedValue name (value ++ [kept c]), [])
  | .afterAttributeValue, c => beforeName c
  | .selfClosing, c => if c = '>' then some (.data, [.tagDone]) else beforeName c
  | mode, _ => some (mode, [])

/-- What was read before goes first. -/
def after (events : List Event) (reading : Reading) : Reading :=
  (reading.1, events ++ reading.2)

/-- The reference was over before this character. -/
def resume (text : List Char) (back : Mode) (c : Char) : Option Reading :=
  (plain (give text back).1 c).map (after (give text back).2)

def step : Mode → Char → Option Reading
  | .reference back letters, c =>
    if letters = [] ∧ c = '#' then some (.decimal back [], [])
    else if c.isAlphanum then some (.reference back (letters ++ [c]), [])
    else if letters = [] then resume ['&'] back c
    else if c = ';' then some (give (entities back.inAttribute letters c) back)
    else resume (entities back.inAttribute letters c) back c
  | .decimal back digits, c =>
    if c.isDigit then some (.decimal back (digits ++ [c]), [])
    else if digits = [] ∧ (c = 'x' ∨ c = 'X') then some (.hexadecimal back ['&', '#', c] [], [])
    else if digits = [] then resume ['&', '#'] back c
    else if c = ';' then some (give [numbered (number 10 digits)] back)
    else resume [numbered (number 10 digits)] back c
  | .hexadecimal back start digits, c =>
    if isHexDigit c then some (.hexadecimal back start (digits ++ [c]), [])
    else if digits = [] then resume start back c
    else if c = ';' then some (give [numbered (number 16 digits)] back)
    else resume [numbered (number 16 digits)] back c
  | mode, c => plain mode c

def run : Mode → List Char → Option Reading
  | mode, [] => some (mode, [])
  | mode, c :: text => (step entities mode c).bind fun reading =>
      (run reading.1 text).map (after reading.2)

variable {entities}

theorem after_comp (events more : List Event) :
    after events ∘ after more = after (events ++ more) := by
  funext reading
  simp [after]

theorem run_append (mode : Mode) (s t : List Char) :
    run entities mode (s ++ t) = (run entities mode s).bind fun reading =>
      (run entities reading.1 t).map (after reading.2) := by
  induction s generalizing mode with
  | nil =>
    have hafter : after ([] : List Event) = id := rfl
    simp [run, hafter]
  | cons c s ih =>
    simp only [List.cons_append, run]
    cases hstep : step entities mode c with
    | none => rfl
    | some reading =>
      simp only [Option.bind_some, ih]
      cases run entities reading.1 s with
      | none => rfl
      | some next =>
        simp only [Option.bind_some, Option.map_some, Option.map_map, after_comp]
        rfl

theorem run_trans {mode middle final : Mode} {s t : List Char} {before behind : List Event}
    (hs : run entities mode s = some (middle, before))
    (ht : run entities middle t = some (final, behind)) :
    run entities mode (s ++ t) = some (final, before ++ behind) := by
  rw [run_append, hs, Option.bind_some, ht]
  rfl

end Read

section Escape

theorem forall_mem_of_all {p : Char → Prop} [DecidablePred p] {s : List Char}
    (h : s.all (fun c => decide (p c)) = true) : ∀ c ∈ s, p c := by
  simpa using h

/-- One character of `markupsafe.escape`. -/
def escapeChar (c : Char) : List Char :=
  if c = '&' then ['&', 'a', 'm', 'p', ';']
  else if c = '<' then ['&', 'l', 't', ';']
  else if c = '>' then ['&', 'g', 't', ';']
  else if c = '\'' then ['&', '#', '3', '9', ';']
  else if c = '"' then ['&', '#', '3', '4', ';']
  else [c]

def escape (s : List Char) : List Char := s.flatMap escapeChar

structure Resolves (entities : Entities) : Prop where
  amp : ∀ inside, entities inside ['a', 'm', 'p'] ';' = ['&']
  lt : ∀ inside, entities inside ['l', 't'] ';' = ['<']
  gt : ∀ inside, entities inside ['g', 't'] ';' = ['>']

/-- The five characters that are escaped, and the others. -/
theorem escapeChar_cases (c : Char) : (c ∈ ['&', '<', '>', '\'', '"']) ∨
    (escapeChar c = [c] ∧ c ≠ '&' ∧ c ≠ '<' ∧ c ≠ '"' ∧ c ≠ '\'') := by
  by_cases h : c ∈ ['&', '<', '>', '\'', '"']
  · exact Or.inl h
  · simp only [List.mem_cons, List.not_mem_nil, or_false, not_or] at h
    obtain ⟨hamp, hlt, hgt, hsingle, hdouble⟩ := h
    refine Or.inr ⟨?_, hamp, hlt, hdouble, hsingle⟩
    simp only [escapeChar, if_neg hamp, if_neg hlt, if_neg hgt, if_neg hsingle, if_neg hdouble]

variable {entities : Entities}

theorem run_singleton (mode : Mode) (c : Char) :
    run entities mode [c] = step entities mode c := by
  simp only [run]
  cases step entities mode c with
  | none => rfl
  | some reading => simp [after]

/-- A character that begins or continues something. -/
theorem run_cons {mode next final : Mode} {c : Char} {s : List Char} {events : List Event}
    (hstep : step entities mode c = some (next, []))
    (hrun : run entities next s = some (final, events)) :
    run entities mode (c :: s) = some (final, events) := by
  rw [run, hstep, Option.bind_some, hrun]
  rfl

theorem run_letters (back : Mode) {read letters : List Char} (hread : read ≠ [])
    (h : ∀ c ∈ letters, c.isAlphanum = true) :
    run entities (.reference back read) letters = some (.reference back (read ++ letters), []) := by
  induction letters generalizing read with
  | nil => simp [run]
  | cons c letters ih =>
    obtain ⟨hc, hletters⟩ := List.forall_mem_cons.mp h
    have hnumber : ¬ (read = [] ∧ c = '#') := fun hboth => hread hboth.1
    have hstep : step entities (.reference back read) c =
        some (.reference back (read ++ [c]), []) := by
      simp only [step, if_neg hnumber, hc, if_true]
    have hrest := run_cons hstep (ih (by simp) hletters)
    simpa using hrest

theorem run_digits (back : Mode) (read : List Char) {digits : List Char}
    (h : ∀ c ∈ digits, c.isDigit = true) :
    run entities (.decimal back read) digits = some (.decimal back (read ++ digits), []) := by
  induction digits generalizing read with
  | nil => simp [run]
  | cons c digits ih =>
    obtain ⟨hc, hdigits⟩ := List.forall_mem_cons.mp h
    have hstep : step entities (.decimal back read) c =
        some (.decimal back (read ++ [c]), []) := by
      simp only [step, hc, if_true]
    have hrest := run_cons hstep (ih (read ++ [c]) hdigits)
    simpa using hrest

/-- A reference by name stands where an ampersand begins one. -/
theorem run_named {mode : Mode} (hmode : step entities mode '&' = some (.reference mode [], []))
    {first : Char} {letters : List Char}
    (h : ∀ c ∈ first :: letters, c.isAlphanum = true) :
    run entities mode ('&' :: first :: letters ++ [';']) =
      some (give (entities mode.inAttribute (first :: letters) ';') mode) := by
  obtain ⟨hfirst, hletters⟩ := List.forall_mem_cons.mp h
  have hnumber : first ≠ '#' := by
    rintro rfl
    exact absurd hfirst (by decide)
  have hstart : step entities (.reference mode []) first =
      some (.reference mode [first], []) := by
    simp [step, hnumber, hfirst]
  have hend : step entities (.reference mode (first :: letters)) ';' =
      some (give (entities mode.inAttribute (first :: letters) ';') mode) := by
    have hsemicolon : (';').isAlphanum = false := by decide
    simp [step, hsemicolon]
  have hname : run entities (.reference mode [first]) letters =
      some (.reference mode (first :: letters), []) :=
    run_letters mode (List.cons_ne_nil first []) hletters
  have hrest := run_trans hname (run_singleton _ ';' ▸ hend)
  exact run_cons hmode (run_cons hstart hrest)

theorem run_decimal {mode : Mode} (hmode : step entities mode '&' = some (.reference mode [], []))
    {digits : List Char} (h : digits ≠ [] ∧ ∀ c ∈ digits, c.isDigit = true) :
    run entities mode ('&' :: '#' :: digits ++ [';']) =
      some (give [numbered (number 10 digits)] mode) := by
  have hstart : step entities (.reference mode []) '#' = some (.decimal mode [], []) := by
    simp [step]
  have hend : step entities (.decimal mode digits) ';' =
      some (give [numbered (number 10 digits)] mode) := by
    have hsemicolon : (';').isDigit = false := by decide
    simp [step, h.1, hsemicolon]
  have hdigits : run entities (.decimal mode []) digits = some (.decimal mode digits, []) :=
    run_digits mode [] h.2
  have hrest := run_trans hdigits (run_singleton _ ';' ▸ hend)
  exact run_cons hmode (run_cons hstart hrest)

/-- The characters that are escaped, where an ampersand begins a reference. -/
theorem run_escapeChar_special (h : Resolves entities) {mode : Mode}
    (hmode : step entities mode '&' = some (.reference mode [], [])) {c : Char}
    (hc : c ∈ ['&', '<', '>', '\'', '"']) :
    run entities mode (escapeChar c) = some (give [c] mode) := by
  have hamp := run_named hmode (show ∀ c ∈ ['a', 'm', 'p'], c.isAlphanum = true from
    forall_mem_of_all (by decide))
  have hlt := run_named hmode (show ∀ c ∈ ['l', 't'], c.isAlphanum = true from
    forall_mem_of_all (by decide))
  have hgt := run_named hmode (show ∀ c ∈ ['g', 't'], c.isAlphanum = true from
    forall_mem_of_all (by decide))
  rw [h.amp] at hamp
  rw [h.lt] at hlt
  rw [h.gt] at hgt
  simp only [List.mem_cons, List.not_mem_nil, or_false] at hc
  rcases hc with rfl | rfl | rfl | rfl | rfl
  · exact hamp
  · exact hlt
  · exact hgt
  · exact run_decimal hmode (show ['3', '9'] ≠ [] ∧ ∀ c ∈ ['3', '9'], c.isDigit = true from
      ⟨by simp, forall_mem_of_all (by decide)⟩)
  · exact run_decimal hmode (show ['3', '4'] ≠ [] ∧ ∀ c ∈ ['3', '4'], c.isDigit = true from
      ⟨by simp, forall_mem_of_all (by decide)⟩)

theorem run_escapeChar_data (h : Resolves entities) (c : Char) :
    run entities .data (escapeChar c) = some (.data, [.char c]) := by
  rcases escapeChar_cases c with hc | ⟨hescape, hamp, hlt, -, -⟩
  · exact run_escapeChar_special h rfl hc
  · rw [hescape, run_singleton]
    simp only [step, plain, if_neg hlt, if_neg hamp]

def IsQuote (quote : Char) : Prop := quote = '"' ∨ quote = '\''

theorem run_value_of_ne {quote c : Char} (hquote : c ≠ quote) (hamp : c ≠ '&')
    (name value : List Char) : run entities (.attributeValue quote name value) [c] =
      some (.attributeValue quote name (value ++ [kept c]), []) := by
  rw [run_singleton]
  simp only [step, plain, if_neg hquote, if_neg hamp]

theorem run_escapeChar_value (h : Resolves entities) {quote : Char} (hquote : IsQuote quote)
    (c : Char) (name value : List Char) :
    run entities (.attributeValue quote name value) (escapeChar c) =
      some (.attributeValue quote name (value ++ [kept c]), []) := by
  have hampersand : '&' ≠ quote := by
    rcases hquote with rfl | rfl <;> decide
  rcases escapeChar_cases c with hc | ⟨hescape, hamp, -, hdouble, hsingle⟩
  · have hmode : step entities (.attributeValue quote name value) '&' =
        some (.reference (.attributeValue quote name value) [], []) := by
      simp only [step, plain, if_neg hampersand, if_true]
    have hkept : kept c = c := by
      refine if_neg ?_
      rintro rfl
      exact absurd hc (by decide)
    rw [run_escapeChar_special h hmode hc, hkept]
    rfl
  · have hne : c ≠ quote := by
      rcases hquote with rfl | rfl
      · exact hdouble
      · exact hsingle
    rw [hescape]
    exact run_value_of_ne hne hamp name value

/-- An escaped text is read as text. -/
theorem run_escape_data (h : Resolves entities) (s : List Char) :
    run entities .data (escape s) = some (.data, s.map .char) := by
  induction s with
  | nil => rfl
  | cons c s ih =>
    have hchar := run_escapeChar_data h c
    exact run_trans hchar ih

/-- An escaped text is read as the value of an attribute. -/
theorem run_escape_value (h : Resolves entities) {quote : Char} (hquote : IsQuote quote)
    (s name value : List Char) : run entities (.attributeValue quote name value) (escape s) =
      some (.attributeValue quote name (value ++ s.map kept), []) := by
  induction s generalizing value with
  | nil => simp [escape, run]
  | cons c s ih =>
    have hchar := run_escapeChar_value h hquote c name value
    have hrest := ih (value ++ [kept c])
    have hboth := run_trans hchar hrest
    simpa [escape] using hboth

/-- So is a text in which the quote and references do not occur. -/
theorem run_raw_value {quote : Char} (s name value : List Char)
    (h : ∀ c ∈ s, c ≠ quote ∧ c ≠ '&') : run entities (.attributeValue quote name value) s =
      some (.attributeValue quote name (value ++ s.map kept), []) := by
  induction s generalizing value with
  | nil => simp [run]
  | cons c s ih =>
    obtain ⟨⟨hquote, hamp⟩, hs⟩ := List.forall_mem_cons.mp h
    have hchar : run entities (.attributeValue quote name value) [c] =
        some (.attributeValue quote name (value ++ [kept c]), []) :=
      run_value_of_ne hquote hamp name value
    have hboth := run_trans hchar (ih (value ++ [kept c]) hs)
    simpa using hboth

end Escape

section Lines

/-- Lines end in one way only; a carriage return and a line feed end one line. -/
def joinLines (isEnd : Char → Bool) : List Char → List Char
  | '\r' :: '\n' :: s => '\n' :: joinLines isEnd s
  | c :: s => (if isEnd c then '\n' else c) :: joinLines isEnd s
  | [] => []

def Printable (c : Char) : Prop := 0x20 ≤ c.toNat ∧ c.toNat ≤ 0x7E

instance decidablePrintable : DecidablePred Printable :=
  fun c => inferInstanceAs (Decidable (0x20 ≤ c.toNat ∧ c.toNat ≤ 0x7E))

def EndsLines (isEnd : Char → Bool) : Prop := ∀ c, Printable c → isEnd c = false

def Stays (c : Char) : Prop := c = '\n' ∨ Printable c

instance decidableStays : DecidablePred Stays :=
  fun c => inferInstanceAs (Decidable (c = '\n' ∨ Printable c))

variable {isEnd : Char → Bool}

theorem joinLines_cons {c : Char} {s : List Char} (h : c = '\r' → s.head? ≠ some '\n') :
    joinLines isEnd (c :: s) = (if isEnd c then '\n' else c) :: joinLines isEnd s := by
  rw [joinLines]
  intro t hc ht
  exact h hc (ht ▸ rfl)

theorem joinLines_stays {c : Char} (hend : EndsLines isEnd) (hc : Stays c) (s : List Char) :
    joinLines isEnd (c :: s) = c :: joinLines isEnd s := by
  rcases hc with rfl | hprintable
  · rw [joinLines_cons (fun h => absurd h (by decide))]
    split <;> rfl
  · have hne : c ≠ '\r' := by
      rintro rfl
      exact absurd hprintable (by decide)
    rw [joinLines_cons (fun h => absurd h hne), hend c hprintable]
    rfl

theorem joinLines_append_stays (hend : EndsLines isEnd) {a : List Char} (h : ∀ c ∈ a, Stays c)
    (b : List Char) : joinLines isEnd (a ++ b) = a ++ joinLines isEnd b := by
  induction a with
  | nil => rfl
  | cons c a ih =>
    obtain ⟨hc, ha⟩ := List.forall_mem_cons.mp h
    rw [List.cons_append, joinLines_stays hend hc, ih ha, List.cons_append]

/-- A text in front of what does not begin with a line feed. -/
theorem joinLines_append (a : List Char) {b : List Char} (h : b.head? ≠ some '\n') :
    joinLines isEnd (a ++ b) = joinLines isEnd a ++ joinLines isEnd b := by
  fun_induction joinLines isEnd a with
  | case1 s ih => rw [List.cons_append, List.cons_append, joinLines, ih, List.cons_append]
  | case2 c s hbreak ih =>
    have hhead : c = '\r' → (s ++ b).head? ≠ some '\n' := by
      intro hc
      cases s with
      | nil => exact h
      | cons d s =>
        intro hd
        obtain rfl : d = '\n' := Option.some.inj hd
        exact hbreak s hc rfl
    rw [List.cons_append, joinLines_cons hhead, ih, List.cons_append]
  | case3 => rfl

theorem stays_escapeChar {c : Char} (h : c ∈ ['&', '<', '>', '\'', '"']) :
    ∀ d ∈ escapeChar c, Stays d := by
  simp only [List.mem_cons, List.not_mem_nil, or_false] at h
  rcases h with rfl | rfl | rfl | rfl | rfl <;> exact forall_mem_of_all (by decide)

theorem head_escape (s : List Char) (h : s.head? ≠ some '\n') :
    (escape s).head? ≠ some '\n' := by
  cases s with
  | nil => exact h
  | cons c s =>
    rcases escapeChar_cases c with hc | ⟨hescape, -⟩
    · simp only [List.mem_cons, List.not_mem_nil, or_false] at hc
      rcases hc with rfl | rfl | rfl | rfl | rfl <;> simp [escape, escapeChar]
    · rw [escape, List.flatMap_cons, hescape]
      exact h

/-- It does not matter whether lines are joined before a text is escaped or after. -/
theorem joinLines_escape (hend : EndsLines isEnd) (s : List Char) :
    joinLines isEnd (escape s) = escape (joinLines isEnd s) := by
  fun_induction joinLines isEnd s with
  | case1 s ih =>
    have hescape : ∀ t, escape ('\n' :: t) = '\n' :: escape t := fun t => rfl
    have hboth : escape ('\r' :: '\n' :: s) = '\r' :: '\n' :: escape s := rfl
    rw [hboth, joinLines, ih, hescape]
  | case2 c s hbreak ih =>
    rcases escapeChar_cases c with hc | ⟨hescape, -⟩
    · have hstays := stays_escapeChar hc
      have hkeeps : isEnd c = false := by
        simp only [List.mem_cons, List.not_mem_nil, or_false] at hc
        rcases hc with rfl | rfl | rfl | rfl | rfl <;> exact hend _ (by decide)
      rw [escape, List.flatMap_cons, joinLines_append_stays hend hstays, hkeeps]
      exact congrArg (escapeChar c ++ ·) ih
    · have hhead : c = '\r' → (escape s).head? ≠ some '\n' := by
        intro hc
        apply head_escape
        intro hs
        cases s with
        | nil => exact absurd hs (by simp)
        | cons d s =>
          obtain rfl : d = '\n' := Option.some.inj hs
          exact hbreak s hc rfl
      have hcons : ∀ t, escape (c :: t) = c :: escape t := by
        intro t
        rw [escape, List.flatMap_cons, hescape]
        rfl
      rw [hcons, joinLines_cons hhead, ih]
      split
      · rfl
      · exact (hcons _).symm
  | case3 => rfl

end Lines

end Hooktrace.HtmlText
