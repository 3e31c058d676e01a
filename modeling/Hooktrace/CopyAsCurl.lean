import Hooktrace.CaptureRoute
import Hooktrace.CustomResponse
import Hooktrace.Shell

/-!
The curl command that the viewer copies for a captured request: the text is quoted for a shell,
and its words are read by curl, which takes some operands for more than texts.
-/
namespace Hooktrace.CopyAsCurl

open CaptureRoute (captureMethods)
open CustomResponse (TokenText)
open Shell

/-- `li.dataset`, its two JSON texts parsed. -/
structure Dataset where
  method : String
  url : String
  headers : List (String × String)
  body : Option String
  bodySize : ℕ

/-- The headers that curl does not set by itself. -/
def kept (d : Dataset) : List (String × String) :=
  d.headers.filter fun h => h.1.toLower ∉ ["host", "content-length"]

def inlineBody (d : Dataset) : Option String := d.body.filter (· ≠ "")

def commandLine (d : Dataset) : List Char :=
  "curl -X ".toList ++ d.method.toList ++ " '".toList ++ escape d.url.toList ++ "'".toList

def headerLine (h : String × String) : List Char :=
  "  -H '".toList ++ h.1.toList ++ ": ".toList ++ escape h.2.toList ++ "'".toList

def bodyLines (d : Dataset) : List (List Char) :=
  match inlineBody d with
  | some body => ["  -d '".toList ++ escape body.toList ++ "'".toList]
  | none =>
    if 8192 < d.bodySize then
      ["  # body too large, not inline (size: ".toList ++ (Nat.repr d.bodySize).toList ++
        " bytes)".toList]
    else []

def joint : List Char := " \\\n".toList

def buildCurl (d : Dataset) : List Char :=
  joint.intercalate (commandLine d :: ((kept d).map headerLine ++ bodyLines d))

def headerText (h : String × String) : List Char := h.1.toList ++ ": ".toList ++ h.2.toList

def arguments (d : Dataset) : List (List Char) :=
  "curl".toList :: "-X".toList :: d.method.toList :: d.url.toList ::
    ((kept d).flatMap (fun h => ["-H".toList, headerText h]) ++
      ((inlineBody d).map fun body => ["-d".toList, body.toList]).getD [])

section Curl

/-- The space of the C locale. -/
def isBlank (c : Char) : Bool := (0x09 ≤ c.toNat ∧ c.toNat ≤ 0x0D) ∨ c = ' '

/-- The URL that an operand is, unless it is an option, or a pattern of URLs with lists in braces
or ranges in brackets. -/
def urlOperand (text : List Char) : Option (List Char) :=
  if text.head? = some '-' ∨ text.any (· ∈ ['{', '}', '[', ']']) then none else some text

/-- The header that the operand of `-H` makes curl send. With `@` it names a file, and without a
value it takes a header away. -/
def headerOperand (text : List Char) : Option (List Char) :=
  if text.head? = some '@' then none
  else match cut ':' text with
    | (_, none) => none
    | (_, some value) => if value.all isBlank then none else some text

/-- The data that the operand of `-d` is, unless it names a file. -/
def dataOperand (text : List Char) : Option (List Char) :=
  if text.head? = some '@' then none else some text

end Curl

/-- The shell reads the words, and curl takes every operand for itself. -/
structure Literal (d : Dataset) : Prop where
  words : words (buildCurl d) = some (arguments d)
  url : urlOperand d.url.toList = some d.url.toList
  headers : ∀ h ∈ kept d, headerOperand (headerText h) = some (headerText h)
  data : ∀ body, inlineBody d = some body → dataOperand body.toList = some body.toList

/-- Nothing in the request means more than itself. -/
structure Harmless (d : Dataset) : Prop where
  names : ∀ h ∈ kept d, '\'' ∉ h.1.toList
  values : ∀ h ∈ kept d, ∃ c ∈ h.2.toList, isBlank c = false
  url : d.url.toList.head? ≠ some '-' ∧ ∀ c ∈ ['{', '}', '[', ']'], c ∉ d.url.toList
  body : ∀ body, inlineBody d = some body → body.toList.head? ≠ some '@'

section Words

variable {d : Dataset} {w rest : List Char} {h : String × String}

theorem intercalate_cons (sep first : List Char) (lines : List (List Char)) :
    sep.intercalate (first :: lines) = first ++ lines.flatMap (sep ++ ·) := by
  induction lines generalizing first with
  | nil => simp
  | cons line lines ih =>
    rw [List.intercalate_cons_of_ne_nil (by simp), ih]
    simp

theorem buildCurl_eq (d : Dataset) : buildCurl d = commandLine d ++
    ((kept d).flatMap (fun h => joint ++ headerLine h) ++
      (bodyLines d).flatMap (joint ++ ·)) := by
  rw [buildCurl, intercalate_cons, List.flatMap_append, List.flatMap_map]

theorem token_char (hname : TokenText h.1) {c : Char} (hc : c ∈ h.1.toList) :
    c ≠ '"' ∧ c ≠ '\\' ∧ c ≠ ':' ∧ c ≠ '@' := by
  obtain ⟨-, htoken⟩ := (hname.2 c hc)
  refine ⟨?_, ?_, ?_, ?_⟩
  all_goals
    rintro rfl
    exact absurd htoken (by decide)

/-- A header line begins with a new word, and goes on in quotes. -/
theorem scan_headerLine : scan .word w (joint ++ headerLine h ++ rest) =
    (scan .single [] (h.1.toList ++ (':' :: ' ' :: (escape h.2.toList ++ '\'' :: rest)))).map
      fun ws => w :: "-H".toList :: ws := by
  have htext : joint ++ headerLine h ++ rest = ' ' :: '\\' :: '\n' :: ' ' :: ' ' :: '-' :: 'H' ::
      ' ' :: '\'' :: (h.1.toList ++ (':' :: ' ' :: (escape h.2.toList ++ '\'' :: rest))) := by
    unfold joint headerLine
    generalize h.1.toList = name, escape h.2.toList = value
    simp
  have hoption (s : List Char) : scan .blank [] ('-' :: 'H' :: s) = scan .word ['-', 'H'] s := rfl
  rw [htext, scan_word_space, scan_blank_continuation, scan_blank_space, scan_blank_space, hoption,
    scan_word_space, scan_blank_quote, Option.map_map]
  rfl

theorem scan_headerText (hname : '\'' ∉ h.1.toList) :
    scan .single [] (h.1.toList ++ (':' :: ' ' :: (escape h.2.toList ++ '\'' :: rest))) =
      scan .word (headerText h) rest := by
  rw [scan_single hname]
  have hcolon (w s : List Char) : scan .single w (':' :: ' ' :: s) =
      scan .single (w ++ [':', ' ']) s := by
    rw [scan, if_neg (by decide), scan, if_neg (by decide), List.append_assoc]
    rfl
  rw [hcolon, scan_escape]
  simp [headerText]

/-- Behind the quotes of a name, if there are any, stands another character. -/
theorem exists_replicate {b s : List Char} (hb : ∀ c ∈ b, c ≠ '"' ∧ c ≠ '\\') :
    ∃ n c s', b ++ ':' :: s = List.replicate n '\'' ++ c :: s' ∧
      c ≠ '\'' ∧ c ≠ '"' ∧ c ≠ '\\' := by
  induction b with
  | nil => exact ⟨0, ':', s, rfl, by decide⟩
  | cons c b ih =>
    obtain ⟨hc, hrest⟩ := List.forall_mem_cons.mp hb
    by_cases hquote : c = '\''
    · subst hquote
      obtain ⟨n, c, s', heq, hother⟩ := ih hrest
      exact ⟨n + 1, c, s', by rw [List.cons_append, heq, List.replicate_succ, List.cons_append],
        hother⟩
    · exact ⟨0, c, b ++ ':' :: s, rfl, hquote, hc.1, hc.2⟩

/-- A quote in the name is lost from the header. -/
theorem scan_quote_in_name (htoken : TokenText h.1) (hname : '\'' ∈ h.1.toList)
    (others : List (List Char)) :
    scan .single [] (h.1.toList ++ (':' :: ' ' :: (escape h.2.toList ++ '\'' :: rest))) ≠
      some (headerText h :: others) := by
  obtain ⟨a, b, hsplit, ha⟩ := List.eq_append_cons_of_mem hname
  have hb : ∀ c ∈ b, c ≠ '"' ∧ c ≠ '\\' := by
    intro c hc
    have hmem : c ∈ h.1.toList := by simp [hsplit, hc]
    exact ⟨(token_char htoken hmem).1, (token_char htoken hmem).2.1⟩
  obtain ⟨n, c, s', hrest, hquote, hdouble, hback⟩ :=
    exists_replicate (s := ' ' :: (escape h.2.toList ++ '\'' :: rest)) hb
  intro hscan
  rw [hsplit, List.append_assoc, scan_single ha, List.cons_append, scan_single_quote,
    hrest] at hscan
  refine not_prefix_of_scan (Or.inl rfl) hquote hdouble hback hscan ?_
  rw [headerText, hsplit]
  exact ⟨b ++ ": ".toList ++ h.2.toList, by simp⟩

def headerArguments (headers : List (String × String)) : List (List Char) :=
  headers.flatMap fun h => ["-H".toList, headerText h]

theorem scan_headers {headers : List (String × String)} {tail : List Char}
    {last : List (List Char)} (hnames : ∀ h ∈ headers, '\'' ∉ h.1.toList)
    (htail : ∀ w, scan .word w tail = some (w :: last)) :
    scan .word w (headers.flatMap (fun h => joint ++ headerLine h) ++ tail) =
      some (w :: (headerArguments headers ++ last)) := by
  induction headers generalizing w with
  | nil => exact htail w
  | cons h headers ih =>
    obtain ⟨hname, hnames⟩ := List.forall_mem_cons.mp hnames
    rw [List.flatMap_cons, List.append_assoc, scan_headerLine, scan_headerText hname, ih hnames]
    rfl

theorem names_of_scan_headers {headers : List (String × String)} {tail : List Char}
    {last : List (List Char)} (htokens : ∀ h ∈ headers, TokenText h.1)
    (hscan : scan .word w (headers.flatMap (fun h => joint ++ headerLine h) ++ tail) =
      some (w :: (headerArguments headers ++ last))) :
    ∀ h ∈ headers, '\'' ∉ h.1.toList := by
  induction headers generalizing w with
  | nil => simp
  | cons h headers ih =>
    obtain ⟨htoken, htokens⟩ := List.forall_mem_cons.mp htokens
    rw [List.flatMap_cons, List.append_assoc, scan_headerLine] at hscan
    obtain ⟨ws, hws, heq⟩ := Option.map_eq_some_iff.mp hscan
    obtain rfl : ws = headerText h :: (headerArguments headers ++ last) :=
      (List.cons.inj (List.cons.inj heq).2).2
    by_cases hname : '\'' ∈ h.1.toList
    · exact absurd hws (scan_quote_in_name htoken hname _)
    · rw [scan_headerText hname] at hws
      exact List.forall_mem_cons.mpr ⟨hname, ih htokens hws⟩

/-- The last line is the data, or a comment, or there is none. -/
theorem scan_bodyLines (w : List Char) :
    scan .word w ((bodyLines d).flatMap (joint ++ ·)) =
      some (w :: ((inlineBody d).map fun body => ["-d".toList, body.toList]).getD []) := by
  unfold bodyLines
  cases inlineBody d with
  | some body =>
    have hoption (s : List Char) : scan .blank [] ('-' :: 'd' :: s) = scan .word ['-', 'd'] s := rfl
    have htext : [("  -d '".toList ++ escape body.toList ++ "'".toList)].flatMap (joint ++ ·) =
        ' ' :: '\\' :: '\n' :: ' ' :: ' ' :: '-' :: 'd' :: ' ' :: '\'' ::
          (escape body.toList ++ '\'' :: []) := by
      unfold joint
      generalize escape body.toList = value
      simp
    rw [htext, scan_word_space, scan_blank_continuation, scan_blank_space, scan_blank_space,
      hoption, scan_word_space, scan_blank_quote, scan_escape, scan_word_nil]
    rfl
  | none =>
    dsimp only
    split
    · have hnewline : '\n' ∉ " body too large, not inline (size: ".toList ++
          (Nat.repr d.bodySize).toList ++ " bytes)".toList := by
        have hsize : '\n' ∉ Nat.toDigits 10 d.bodySize := fun hmem =>
          absurd (Nat.isDigit_of_mem_toDigits (by decide) (by decide) hmem) (by decide)
        simp [hsize]
      have htext : ["  # body too large, not inline (size: ".toList ++
          (Nat.repr d.bodySize).toList ++ " bytes)".toList].flatMap (joint ++ ·) =
          ' ' :: '\\' :: '\n' :: ' ' :: ' ' :: '#' :: (" body too large, not inline (size: ".toList ++
            (Nat.repr d.bodySize).toList ++ " bytes)".toList) := by
        unfold joint
        generalize (Nat.repr d.bodySize).toList = size
        simp
      rw [htext, scan_word_space, scan_blank_continuation, scan_blank_space, scan_blank_space,
        scan_comment hnewline]
      rfl
    · rfl

theorem scan_commandLine (hmethod : d.method ∈ captureMethods) :
    scan .blank [] (commandLine d ++ rest) = (scan .word d.url.toList rest).map
      fun ws => "curl".toList :: "-X".toList :: d.method.toList :: ws := by
  have hcurl (s : List Char) : scan .blank [] ('c' :: 'u' :: 'r' :: 'l' :: ' ' :: s) =
      (scan .blank [] s).map ("curl".toList :: ·) := rfl
  have hoption (s : List Char) : scan .blank [] ('-' :: 'X' :: ' ' :: s) =
      (scan .blank [] s).map ("-X".toList :: ·) := rfl
  have hword : ∀ method ∈ captureMethods, ∀ s, scan .blank [] (method.toList ++ ' ' :: s) =
      (scan .blank [] s).map (method.toList :: ·) := by
    simp only [captureMethods, List.forall_mem_cons]
    exact ⟨fun s => rfl, fun s => rfl, fun s => rfl, fun s => rfl, fun s => rfl, fun s => rfl,
      fun s => rfl, by simp⟩
  have htext : commandLine d ++ rest = 'c' :: 'u' :: 'r' :: 'l' :: ' ' :: '-' :: 'X' :: ' ' ::
      (d.method.toList ++ ' ' :: '\'' :: (escape d.url.toList ++ '\'' :: rest)) := by
    unfold commandLine
    generalize escape d.url.toList = url
    simp
  rw [htext, hcurl, hoption, hword _ hmethod, scan_blank_quote, scan_escape, Option.map_map,
    Option.map_map]
  rfl

theorem words_iff (hmethod : d.method ∈ captureMethods)
    (htokens : ∀ h ∈ d.headers, TokenText h.1) :
    words (buildCurl d) = some (arguments d) ↔ ∀ h ∈ kept d, '\'' ∉ h.1.toList := by
  have htokens : ∀ h ∈ kept d, TokenText h.1 := fun h hh => htokens h (List.mem_filter.mp hh).1
  rw [words, buildCurl_eq, scan_commandLine hmethod]
  constructor
  · intro hscan
    obtain ⟨ws, hws, heq⟩ := Option.map_eq_some_iff.mp hscan
    obtain rfl := (List.cons.inj (List.cons.inj (List.cons.inj heq).2).2).2
    exact names_of_scan_headers htokens hws
  · intro hnames
    rw [scan_headers hnames scan_bodyLines]
    rfl

end Words

section Operands

variable {d : Dataset} {h : String × String}

theorem urlOperand_iff {text : List Char} : urlOperand text = some text ↔
    text.head? ≠ some '-' ∧ ∀ c ∈ ['{', '}', '[', ']'], c ∉ text := by
  unfold urlOperand
  constructor
  · intro htext
    split at htext
    · cases htext
    · rename_i hliteral
      simp only [not_or, List.any_eq_true, decide_eq_true_eq, not_exists, not_and] at hliteral
      exact ⟨hliteral.1, fun c hc hmem => hliteral.2 c hmem hc⟩
  · rintro ⟨hhead, hfree⟩
    rw [if_neg]
    simp only [not_or, List.any_eq_true, decide_eq_true_eq, not_exists, not_and]
    exact ⟨hhead, fun c hmem hc => hfree c hc hmem⟩

theorem dataOperand_iff {text : List Char} :
    dataOperand text = some text ↔ text.head? ≠ some '@' := by
  unfold dataOperand
  split <;> simp [*]

/-- A header is sent if its value is not blank. -/
theorem headerOperand_iff (htoken : TokenText h.1) :
    headerOperand (headerText h) = some (headerText h) ↔
      ∃ c ∈ h.2.toList, isBlank c = false := by
  have hcolon : ':' ∉ h.1.toList := fun hmem => (token_char htoken hmem).2.2.1 rfl
  have htext : headerText h = h.1.toList ++ ':' :: (' ' :: h.2.toList) := by simp [headerText]
  have hat : (headerText h).head? ≠ some '@' := by
    obtain ⟨c, name, hname⟩ := List.exists_cons_of_ne_nil
      (fun hnil => htoken.1 (String.toList_eq_nil_iff.mp hnil) : h.1.toList ≠ [])
    have hc := (token_char htoken (hname ▸ List.mem_cons_self)).2.2.2
    rw [htext, hname]
    simpa using hc
  have hspace : isBlank ' ' = true := by decide
  rw [headerOperand, if_neg hat, htext, cut_append hcolon]
  simp only [List.all_cons, hspace, Bool.true_and]
  cases hblank : h.2.toList.all isBlank with
  | true =>
    have hall := List.all_eq_true.mp hblank
    refine iff_of_false (by simp) ?_
    rintro ⟨c, hc, hother⟩
    exact absurd ((hall c hc).symm.trans hother) (by decide)
  | false =>
    obtain ⟨c, hc, hother⟩ := List.all_eq_false.mp hblank
    exact iff_of_true (by simp) ⟨c, hc, by simpa using hother⟩

/-- The command is the request and nothing else if and only if the request is harmless. -/
theorem literal_iff_harmless (hmethod : d.method ∈ captureMethods)
    (htokens : ∀ h ∈ d.headers, TokenText h.1) : Literal d ↔ Harmless d := by
  have hkept : ∀ h ∈ kept d, TokenText h.1 := fun h hh => htokens h (List.mem_filter.mp hh).1
  constructor
  · intro hliteral
    exact ⟨(words_iff hmethod htokens).mp hliteral.words,
      fun h hh => (headerOperand_iff (hkept h hh)).mp (hliteral.headers h hh),
      urlOperand_iff.mp hliteral.url,
      fun body hbody => dataOperand_iff.mp (hliteral.data body hbody)⟩
  · intro hharmless
    exact ⟨(words_iff hmethod htokens).mpr hharmless.names, urlOperand_iff.mpr hharmless.url,
      fun h hh => (headerOperand_iff (hkept h hh)).mpr (hharmless.values h hh),
      fun body hbody => dataOperand_iff.mpr (hharmless.body body hbody)⟩

end Operands

section Samples

def sampleDataset (name value body : String) : Dataset where
  method := "POST"
  url := "https://hook.hooktrace.io/h/tok/h/tok/"
  headers := [("host", "hook.hooktrace.io"), (name, value)]
  body := some body
  bodySize := body.utf8ByteSize

theorem note_literal : Literal (sampleDataset "x-note" "it's" "ain't") := by
  have hkept : kept (sampleDataset "x-note" "it's" "ain't") = [("x-note", "it's")] := by
    decide +kernel
  refine (literal_iff_harmless (by decide) ?_).mpr ⟨?_, ?_, ?_, ?_⟩
  · decide +kernel
  · rw [hkept]
    decide +kernel
  · rw [hkept]
    exact List.forall_mem_singleton.mpr ⟨'i', by decide, by decide⟩
  · simp [sampleDataset]
  · intro body hbody
    obtain rfl : "ain't" = body := Option.some.inj hbody
    decide

/-- The name of a header is not escaped: with two quotes in it a part of the name is a command. -/
theorem name_runs : ¬ ∀ d : Dataset, d.method ∈ captureMethods →
    (∀ h ∈ d.headers, TokenText h.1) → Literal d := by
  intro hclaim
  have hliteral := hclaim (sampleDataset "x'|id|'" "1" "") (by decide) (by decide +kernel)
  have hnone : words (buildCurl (sampleDataset "x'|id|'" "1" "")) = none := by decide +kernel
  exact absurd (hnone.symm.trans hliteral.words) (by simp)

end Samples

end Hooktrace.CopyAsCurl
