import Hooktrace.PyStr
import Hooktrace.UrlEncoding

/-!
`json.loads` on a text. The scanner consumes characters with every value, which bounds it; the
nesting of arrays and objects is bounded by the interpreter's recursion limit, and what exceeds
it is not a ValueError.
-/
namespace Hooktrace.Json

open UrlEncoding (hexDigit)

inductive Value where
  | null
  | bool (value : Bool)
  | number (literal : List Char)
  | string (text : PyStr)
  | array (items : List Value)
  | object (members : List (PyStr × Value))

/-- A JSONDecodeError or another ValueError, or a RecursionError. -/
inductive Error where
  | valueError
  | recursionError
  deriving DecidableEq

def isSpace (c : Char) : Bool := c = ' ' ∨ c = '\t' ∨ c = '\n' ∨ c = '\r'

def skipSpace (s : List Char) : List Char := s.dropWhile isSpace

def unescape (c : Char) : Option CodePoint :=
  match c with
  | '"' => some 0x22
  | '\\' => some 0x5C
  | '/' => some 0x2F
  | 'b' => some 0x08
  | 'f' => some 0x0C
  | 'n' => some 0x0A
  | 'r' => some 0x0D
  | 't' => some 0x09
  | _ => none

def hexQuad (a b c d : Char) : Option ℕ := do
  let w ← hexDigit a
  let x ← hexDigit b
  let y ← hexDigit c
  let z ← hexDigit d
  pure (((w * 16 + x) * 16 + y) * 16 + z)

def prepend (c : CodePoint) (scanned : Option (PyStr × List Char)) :
    Option (PyStr × List Char) :=
  scanned.map fun (text, rest) => (c :: text, rest)

/-- The escapes of a surrogate pair stand for one character. -/
def joinPair (c : CodePoint) (text : PyStr) : PyStr :=
  match text with
  | [] => [c]
  | d :: rest =>
    if isHighSurrogate c ∧ isLowSurrogate d then .ofNat 0x110000 (joinSurrogates c d) :: rest
    else c :: text

theorem joinPair_eq {c : CodePoint} (h : isHighSurrogate c = false) (text : PyStr) :
    joinPair c text = c :: text := by
  cases text <;> simp [joinPair, h]

/-- From behind the opening quote, with surrogates unpaired. -/
def scanCodes : List Char → Option (PyStr × List Char)
  | [] => none
  | '"' :: rest => some ([], rest)
  | '\\' :: 'u' :: a :: b :: c :: d :: rest =>
    match hexQuad a b c d with
    | none => none
    | some n => prepend (.ofNat 0x110000 n) (scanCodes rest)
  | '\\' :: c :: rest =>
    match unescape c with
    | none => none
    | some code => prepend code (scanCodes rest)
  | c :: rest => if c.toNat < 0x20 then none else prepend (.ofChar c) (scanCodes rest)

/-- `scanstring`, in strict mode. Characters are no surrogates, so that the pairs are those of
escapes. -/
def scanString (s : List Char) : Option (PyStr × List Char) :=
  (scanCodes s).map fun (text, rest) => (text.foldr joinPair [], rest)

def isDigit (c : Char) : Bool := '0' ≤ c ∧ c ≤ '9'

def scanFraction (s : List Char) : List Char × List Char :=
  match s with
  | '.' :: d :: rest =>
    if isDigit d then ('.' :: d :: rest.takeWhile isDigit, rest.dropWhile isDigit) else ([], s)
  | _ => ([], s)

def scanExponent (s : List Char) : List Char × List Char :=
  match s with
  | e :: rest =>
    let sign := rest.takeWhile (fun c => c = '+' ∨ c = '-') |>.take 1
    let digits := (rest.drop sign.length).takeWhile isDigit
    if (e = 'e' ∨ e = 'E') ∧ digits ≠ [] then
      (e :: sign ++ digits, (rest.drop sign.length).dropWhile isDigit)
    else ([], s)
  | [] => ([], s)

/-- The limit on the digits of an `int` literal. -/
def maxStrDigits : ℕ := 4300

/-- A leading zero stands alone. -/
def integerDigits (s : List Char) : List Char :=
  match s with
  | '0' :: _ => ['0']
  | _ => s.takeWhile isDigit

/-- `_match_number`, behind the sign. -/
def scanUnsigned (sign s : List Char) : Except Error (Value × List Char) :=
  let digits := integerDigits s
  let (fraction, afterFraction) := scanFraction (s.drop digits.length)
  let (exponent, rest) := scanExponent afterFraction
  if digits = [] then .error .valueError
  else if fraction = [] ∧ exponent = [] ∧ digits.length > maxStrDigits then .error .valueError
  else .ok (.number (sign ++ digits ++ fraction ++ exponent), rest)

def scanNumber (s : List Char) : Except Error (Value × List Char) :=
  match s with
  | '-' :: rest => scanUnsigned ['-'] rest
  | _ => scanUnsigned [] s

/-- The constants, besides numbers, that begin with a letter or a sign. -/
def constants : List (List Char × Value) :=
  [("null".toList, .null), ("true".toList, .bool true), ("false".toList, .bool false),
    ("NaN".toList, .number "NaN".toList), ("Infinity".toList, .number "Infinity".toList),
    ("-Infinity".toList, .number "-Infinity".toList)]

def scanConstant (s : List Char) : Option (Value × List Char) :=
  (constants.find? fun entry => entry.1 <+: s).map fun entry => (entry.2, s.drop entry.1.length)

abbrev Shorter (s : List Char) := { rest : List Char // rest.length < s.length }

theorem length_skipSpace (s : List Char) : (skipSpace s).length ≤ s.length :=
  (List.dropWhile_sublist _).length_le

theorem length_of_prepend {c : CodePoint} {scanned : Option (PyStr × List Char)} {text : PyStr}
    {rest : List Char} (h : prepend c scanned = some (text, rest)) :
    ∃ text', scanned = some (text', rest) := by
  obtain ⟨⟨text', rest'⟩, hscanned, heq⟩ := Option.map_eq_some_iff.mp h
  obtain ⟨-, rfl⟩ := Prod.mk.inj heq
  exact ⟨text', hscanned⟩

theorem length_scanCodes {s : List Char} {text : PyStr} {rest : List Char}
    (h : scanCodes s = some (text, rest)) : rest.length < s.length := by
  induction s using scanCodes.induct generalizing text with
  | case1 => simp [scanCodes] at h
  | case2 rest' =>
    obtain ⟨-, rfl⟩ := Prod.mk.inj (Option.some.inj h)
    simp
  | case3 a b c d rest' hquad => simp [scanCodes, hquad] at h
  | case4 a b c d rest' n hquad ih =>
    simp only [scanCodes, hquad] at h
    obtain ⟨text', hscanned⟩ := length_of_prepend h
    have hlt := ih hscanned
    simp only [List.length_cons]
    omega
  | case5 c rest' hshape hcode => simp [scanCodes, hcode] at h
  | case6 c rest' hshape code hcode ih =>
    simp only [scanCodes, hcode] at h
    obtain ⟨text', hscanned⟩ := length_of_prepend h
    have hlt := ih hscanned
    simp only [List.length_cons]
    omega
  | case7 c rest' hquote hshape hslash hcontrol => simp [scanCodes, hcontrol] at h
  | case8 c rest' hquote hshape hslash hcontrol ih =>
    simp only [scanCodes, hcontrol] at h
    obtain ⟨text', hscanned⟩ := length_of_prepend h
    have hlt := ih hscanned
    simp only [List.length_cons]
    omega

theorem length_scanString {s : List Char} {text : PyStr} {rest : List Char}
    (h : scanString s = some (text, rest)) : rest.length < s.length := by
  obtain ⟨⟨text', rest'⟩, hscanned, heq⟩ := Option.map_eq_some_iff.mp h
  obtain ⟨-, rfl⟩ := Prod.mk.inj heq
  exact length_scanCodes hscanned

theorem length_scanConstant {s : List Char} {value : Value} {rest : List Char}
    (h : scanConstant s = some (value, rest)) : rest.length < s.length := by
  obtain ⟨entry, hfound, heq⟩ := Option.map_eq_some_iff.mp h
  obtain ⟨-, rfl⟩ := Prod.mk.inj heq
  have hprefix : entry.1 <+: s := by simpa using List.find?_some hfound
  have hnonempty : ∀ entry ∈ constants, 0 < entry.1.length := by
    intro entry hentry
    simp only [constants, List.mem_cons, List.not_mem_nil, or_false] at hentry
    rcases hentry with rfl | rfl | rfl | rfl | rfl | rfl <;> decide
  have hpositive := hnonempty entry (List.mem_of_find?_eq_some hfound)
  have hle := hprefix.length_le
  rw [List.length_drop]
  omega

theorem length_scanFraction (s : List Char) : (scanFraction s).2.length ≤ s.length := by
  unfold scanFraction
  split
  · rename_i d rest
    have hrest := (List.dropWhile_sublist isDigit (l := rest)).length_le
    split
    · simp only [List.length_cons]
      omega
    · exact Nat.le_refl _
  · exact Nat.le_refl _

theorem length_scanExponent (s : List Char) : (scanExponent s).2.length ≤ s.length := by
  unfold scanExponent
  split
  · rename_i e rest
    dsimp only
    split
    · refine Nat.le_trans (List.dropWhile_sublist _).length_le ?_
      simp only [List.length_drop, List.length_cons]
      omega
    · exact Nat.le_refl _
  · exact Nat.le_refl _

theorem length_scanUnsigned {sign s : List Char} {value : Value} {rest : List Char}
    (h : scanUnsigned sign s = .ok (value, rest)) : rest.length < s.length := by
  unfold scanUnsigned at h
  dsimp only at h
  split at h
  · simp at h
  · rename_i hdigits
    split at h
    · simp at h
    · obtain ⟨-, rfl⟩ := Prod.mk.inj (Except.ok.inj h)
      refine Nat.lt_of_le_of_lt
        (Nat.le_trans (length_scanExponent _) (length_scanFraction _)) ?_
      have hpositive := List.length_pos_iff.mpr hdigits
      have hs : s ≠ [] := by
        intro hnil
        simp [hnil, integerDigits] at hdigits
      have hlength := List.length_pos_iff.mpr hs
      rw [List.length_drop]
      omega

theorem length_scanNumber {s : List Char} {value : Value} {rest : List Char}
    (h : scanNumber s = .ok (value, rest)) : rest.length < s.length := by
  unfold scanNumber at h
  split at h
  · have hlt := length_scanUnsigned h
    simp only [List.length_cons]
    omega
  · exact length_scanUnsigned h

mutual

/-- `scan_once`, with so many containers left to enter. -/
def scanValue (limit : ℕ) (s : List Char) : Except Error (Value × Shorter s) :=
  match s with
  | '"' :: rest =>
    match h : scanString rest with
    | none => .error .valueError
    | some (text, after) =>
      .ok (.string text, ⟨after, Nat.lt_succ_of_lt (length_scanString h)⟩)
  | '[' :: rest =>
    match limit with
    | 0 => .error .recursionError
    | limit + 1 =>
      match h : skipSpace rest with
      | ']' :: after => .ok (.array [], ⟨after, by grind [length_skipSpace]⟩)
      | first =>
        have hfirst : first.length ≤ rest.length := h ▸ length_skipSpace rest
        match scanItems limit first with
        | .error error => .error error
        | .ok (items, after) => .ok (.array items, ⟨after, by grind [length_skipSpace]⟩)
  | '{' :: rest =>
    match limit with
    | 0 => .error .recursionError
    | limit + 1 =>
      match h : skipSpace rest with
      | '}' :: after => .ok (.object [], ⟨after, by grind [length_skipSpace]⟩)
      | first =>
        have hfirst : first.length ≤ rest.length := h ▸ length_skipSpace rest
        match scanMembers limit first with
        | .error error => .error error
        | .ok (members, after) => .ok (.object members, ⟨after, by grind [length_skipSpace]⟩)
  | s =>
    match h : scanConstant s with
    | some (value, rest) => .ok (value, ⟨rest, length_scanConstant h⟩)
    | none =>
      match h : scanNumber s with
      | .error error => .error error
      | .ok (value, rest) => .ok (value, ⟨rest, length_scanNumber h⟩)
termination_by (s.length, 0)

/-- The loop of `_parse_array`. -/
def scanItems (limit : ℕ) (s : List Char) : Except Error (List Value × Shorter s) :=
  match scanValue limit s with
  | .error error => .error error
  | .ok (item, ⟨rest, hrest⟩) =>
    match h : skipSpace rest with
    | ']' :: after => .ok ([item], ⟨after, by grind [length_skipSpace]⟩)
    | ',' :: more =>
      have hmore : (skipSpace more).length < s.length := by grind [length_skipSpace]
      match scanItems limit (skipSpace more) with
      | .error error => .error error
      | .ok (items, after) => .ok (item :: items, ⟨after, by grind [length_skipSpace]⟩)
    | _ => .error .valueError
termination_by (s.length, 1)

/-- The loop of `_parse_object`. -/
def scanMembers (limit : ℕ) (s : List Char) :
    Except Error (List (PyStr × Value) × Shorter s) :=
  match s with
  | '"' :: rest =>
    match hkey : scanString rest with
    | none => .error .valueError
    | some (key, afterKey) =>
      have hshorter := length_scanString hkey
      match hcolon : skipSpace afterKey with
      | ':' :: afterColon =>
        have hcolon : (skipSpace afterColon).length < rest.length := by grind [length_skipSpace]
        match scanValue limit (skipSpace afterColon) with
        | .error error => .error error
        | .ok (value, ⟨rest', hrest'⟩) =>
          match h : skipSpace rest' with
          | '}' :: after => .ok ([(key, value)], ⟨after, by grind [length_skipSpace]⟩)
          | ',' :: more =>
            have hmore : (skipSpace more).length < rest.length := by grind [length_skipSpace]
            match scanMembers limit (skipSpace more) with
            | .error error => .error error
            | .ok (members, after) =>
              .ok ((key, value) :: members, ⟨after, by grind [length_skipSpace]⟩)
          | _ => .error .valueError
      | _ => .error .valueError
  | _ => .error .valueError
termination_by (s.length, 1)

end

/-- `json.loads`; a text that begins with a byte order mark is refused. -/
def loads (limit : ℕ) (s : String) : Except Error Value :=
  if ['\uFEFF'] <+: s.toList then .error .valueError
  else match scanValue limit (skipSpace s.toList) with
    | .error error => .error error
    | .ok (value, rest) => if skipSpace rest = [] then .ok value else .error .valueError

/-- `d.get(key)`: of members with one key the last is kept. -/
def lookup (key : PyStr) (members : List (PyStr × Value)) : Option Value :=
  (members.reverse.find? fun member => member.1 = key).map Prod.snd

end Hooktrace.Json
