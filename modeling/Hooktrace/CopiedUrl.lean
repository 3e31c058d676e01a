import Hooktrace.CaptureRoute
import Hooktrace.UrlEncoding

/-!
The URL of a captured request, from the target that the sender wrote to the attribute that the
viewer's curl command is built from. The capture keeps the decoded path with the token in front;
the viewer puts it behind a URL that ends with the token too.
-/
namespace Hooktrace.CopiedUrl

open CaptureRoute (HttpRequest input)
open UrlEncoding

/-- What a URL asks for: a host, the path as a server decodes it, and the query. -/
structure Resource where
  host : List Char
  path : List Char
  query : Option (List Char)
  deriving DecidableEq

def isPathChar (c : Char) : Bool := c ∉ ['?', '#']

def isHostChar (c : Char) : Bool := c ∉ ['/', '?', '#']

def resource (url : List Char) : Option Resource :=
  match cut ':' url with
  | (_, some ('/' :: '/' :: rest)) =>
    let target := (cut '#' (rest.dropWhile isHostChar)).1
    some ⟨rest.takeWhile isHostChar, unquote (target.takeWhile isPathChar), (cut '?' target).2⟩
  | _ => none

def isTokenChar (c : Char) : Bool :=
  ('a' ≤ c ∧ c ≤ 'z') ∨ ('A' ≤ c ∧ c ≤ 'Z') ∨ ('0' ≤ c ∧ c ≤ '9') ∨ c ∈ ['-', '_']

structure Target where
  scheme : List Char
  host : List Char
  token : String
  /-- Percent-encoded, as it stands in the request. -/
  rest : List Char
  query : Option String
  scheme_chars : ':' ∉ scheme
  host_chars : ∀ c ∈ host, isHostChar c = true
  token_chars : ∀ c ∈ token.toList, isTokenChar c = true
  rest_chars : ∀ c ∈ rest, isPathChar c = true
  /-- The route cuts the decoded path behind the token. -/
  rest_routed : unquote rest = [] ∨ (unquote rest).head? = some '/'
  query_chars : ∀ query', query = some query' → '#' ∉ query'.toList

namespace Target

variable (t : Target)

def base : List Char := t.scheme ++ "://".toList ++ t.host

def url : List Char :=
  t.base ++ "/h/".toList ++ t.token.toList ++ t.rest ++
    (t.query.map fun query => '?' :: query.toList).getD []

/-- The request as the server hands it on, with the decoded path and the query. -/
def received (request : HttpRequest) : HttpRequest := { request with
  rest := .ofList (unquote t.rest)
  query := t.query.getD "" }

/-- `f"{hook_base_url(request)}/h/{token}"`. -/
def hookUrl : List Char := t.base ++ "/h/".toList ++ t.token.toList

/-- `{{ hook_url }}{{ req.path }}`. -/
def dataUrl (request : HttpRequest) : List Char :=
  t.hookUrl ++ (input t.token (t.received request)).path.toList

end Target

section Resources

variable {t : Target}

theorem cut_fst (sep : Char) (text : List Char) : (cut sep text).1 = text.takeWhile (· ≠ sep) := by
  unfold cut
  split
  · rename_i hnone
    have hall := List.takeWhile_append_dropWhile (p := fun c => decide (c ≠ sep)) (l := text)
    rw [hnone, List.append_nil] at hall
    exact hall.symm
  · rfl

/-- The path ends where the query or the fragment begins. -/
theorem takeWhile_path (text : List Char) :
    (cut '#' text).1.takeWhile isPathChar = text.takeWhile isPathChar := by
  rw [cut_fst, List.takeWhile_takeWhile]
  refine congrArg (fun p => text.takeWhile p) (funext fun c => ?_)
  simp [isPathChar]

theorem resource_base (path : List Char) : resource (t.base ++ '/' :: path) =
    some ⟨t.host, unquote (('/' :: path).takeWhile isPathChar),
      (cut '?' (cut '#' ('/' :: path)).1).2⟩ := by
  have hcut : cut ':' (t.base ++ '/' :: path) =
      (t.scheme, some ('/' :: '/' :: (t.host ++ '/' :: path))) := by
    have htext : t.base ++ '/' :: path =
        t.scheme ++ ':' :: ('/' :: '/' :: (t.host ++ '/' :: path)) := by simp [Target.base]
    rw [htext, cut_append t.scheme_chars]
  have hslash : isHostChar '/' = false := by decide
  rw [resource, hcut]
  simp only [List.dropWhile_append_of_pos t.host_chars, List.takeWhile_append_of_pos t.host_chars,
    List.dropWhile_cons_of_neg, List.takeWhile_cons_of_neg, hslash, Bool.false_eq_true,
    not_false_eq_true, takeWhile_path, List.append_nil]

/-- `/h/{token}`. -/
def hookPath (t : Target) : List Char := "/h/".toList ++ t.token.toList

theorem hookPath_plain : ∀ c ∈ hookPath t, Plain c ∧ isPathChar c = true := by
  intro c hc
  rcases List.mem_append.mp hc with hc | hc
  · have hslashes : "/h/".toList.all (fun c => isAsciiChar c ∧ c ≠ '%' ∧ isPathChar c) = true := by
      decide
    have hchar := of_decide_eq_true (List.all_eq_true.mp hslashes c hc)
    exact ⟨⟨hchar.1, hchar.2.1⟩, hchar.2.2⟩
  · have htoken := t.token_chars c hc
    have hother : ∀ c' ∈ ['%', '?', '#'], c ≠ c' := by
      rintro c' hc' rfl
      have hnone : ['%', '?', '#'].all (fun c => isTokenChar c = false) = true := by decide
      exact absurd htoken (by simpa using List.all_eq_true.mp hnone c hc')
    have hascii : isAsciiChar c = true := by
      simp only [isTokenChar, decide_eq_true_eq, Char.le_def, UInt32.le_iff_toNat_le] at htoken
      refine decide_eq_true ?_
      rcases htoken with h | h | h | h
      · exact Nat.lt_of_le_of_lt h.2 (by decide)
      · exact Nat.lt_of_le_of_lt h.2 (by decide)
      · exact Nat.lt_of_le_of_lt h.2 (by decide)
      · simp only [List.mem_cons, List.not_mem_nil, or_false] at h
        rcases h with rfl | rfl <;> decide
    exact ⟨⟨hascii, hother _ (by simp)⟩, by simp [isPathChar, hother]⟩

/-- The path of a URL that begins with the one of the token. -/
theorem unquote_hookPath (path : List Char) :
    unquote ((hookPath t ++ path).takeWhile isPathChar) =
      hookPath t ++ unquote (path.takeWhile isPathChar) := by
  rw [List.takeWhile_append_of_pos fun c hc => (hookPath_plain c hc).2,
    unquote_append fun c hc => (hookPath_plain c hc).1]

end Resources

/-- The path that is stored is the decoded path of the request. -/
theorem path_received (t : Target) (request : HttpRequest) :
    (input t.token (t.received request)).path.toList = hookPath t ++ unquote t.rest := by
  simp [input, Target.received, toString, hookPath]

/-- A function that passes a beginning on never shortens a text by it. -/
theorem ne_append_of_passes {α : Type*} {start : List α} {f : List α → List α}
    (hstart : start ≠ []) (hf : ∀ s, f (start ++ s) = start ++ f s) (s : List α) :
    s ≠ start ++ f s := by
  induction hn : s.length using Nat.strong_induction_on generalizing s with
  | _ n ih =>
    intro heq
    -- what is left of the text is again such a text
    have hshorter : (f s).length < n := by
      have hlength := congrArg List.length heq
      have hpos := List.length_pos_iff.mpr hstart
      rw [List.length_append] at hlength
      omega
    exact ih _ hshorter (f s) rfl (by rw [← hf, ← heq])

/-- The URL of the command is never the one that the request was sent to. -/
theorem dataUrl_elsewhere (t : Target) (request : HttpRequest) :
    resource (t.dataUrl request) ≠ resource t.url := by
  have hdata : t.dataUrl request = t.base ++ '/' :: ('h' :: '/' :: t.token.toList ++
      (hookPath t ++ unquote t.rest)) := by
    rw [Target.dataUrl, path_received]
    simp [Target.hookUrl, hookPath]
  have hurl : t.url = t.base ++ '/' :: ('h' :: '/' :: t.token.toList ++ (t.rest ++
      (t.query.map fun query => '?' :: query.toList).getD [])) := by
    simp [Target.url]
  have hrest : (t.rest ++ (t.query.map fun query => '?' :: query.toList).getD []).takeWhile
      isPathChar = t.rest := by
    rw [List.takeWhile_append_of_pos t.rest_chars]
    cases t.query <;> simp [isPathChar]
  intro heq
  rw [hdata, hurl, resource_base, resource_base, Option.some.injEq, Resource.mk.injEq] at heq
  obtain ⟨-, hpath, -⟩ := heq
  have hslash (path : List Char) : '/' :: ('h' :: '/' :: t.token.toList ++ path) =
      hookPath t ++ path := by simp [hookPath]
  rw [hslash, hslash, unquote_hookPath, unquote_hookPath, unquote_hookPath, hrest] at hpath
  refine ne_append_of_passes (f := fun path => unquote (path.takeWhile isPathChar)) ?_
    (fun path => unquote_hookPath path) (unquote t.rest) (List.append_cancel_left hpath).symm
  simp [hookPath]

section Samples

def sampleTarget : Target where
  scheme := "https".toList
  host := "hook.hooktrace.io".toList
  token := "tok"
  rest := "/a".toList
  query := some "b=1"
  scheme_chars := by decide
  host_chars := List.all_eq_true.mp (by decide)
  token_chars := List.all_eq_true.mp (by decide)
  rest_chars := List.all_eq_true.mp (by decide)
  rest_routed := by decide
  query_chars := by decide

/-- The path of the copied URL has the token twice, and there is no query. -/
theorem path_doubled : ¬ ∀ t request,
    resource (Target.dataUrl t request) = resource (Target.url t) := by
  intro hclaim
  let request : HttpRequest := ⟨"GET", "", "", [], none, [], by decide⟩
  have hcopied : resource (sampleTarget.dataUrl request) =
      some ⟨"hook.hooktrace.io".toList, "/h/tok/h/tok/a".toList, none⟩ := by decide +kernel
  have hsent : resource sampleTarget.url =
      some ⟨"hook.hooktrace.io".toList, "/h/tok/a".toList, some "b=1".toList⟩ := by decide +kernel
  have heq := hclaim sampleTarget request
  rw [hcopied, hsent] at heq
  exact absurd heq (by decide)

end Samples

end Hooktrace.CopiedUrl
