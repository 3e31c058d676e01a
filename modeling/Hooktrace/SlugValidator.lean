import Hooktrace.CopiedUrl
import Hooktrace.Regex

/-!
Which texts are accepted as slugs. The grammar is 3 to 32 lower-case letters, digits and hyphens
with no hyphen at either end; the expression that stands for it ends with `$`, which leaves a line
feed behind the slug unseen.
-/
namespace Hooktrace.SlugValidator

open CopiedUrl
open Regex

inductive Failure where
  | invalidSlug (message : String)
  | reservedSlug (message : String)
  deriving DecidableEq

/-- `[a-z0-9]` -/
def isEdgeChar (c : Char) : Bool := ('a' ≤ c ∧ c ≤ 'z') ∨ ('0' ≤ c ∧ c ≤ '9')

/-- `[a-z0-9-]` -/
def isSlugChar (c : Char) : Bool := isEdgeChar c || c == '-'

/-- `^[a-z0-9][a-z0-9-]{1,30}[a-z0-9]$` -/
def slugRe : List Atom :=
  [.start, .chars isEdgeChar 1 (some 1), .chars isSlugChar 1 (some 30),
    .chars isEdgeChar 1 (some 1), .stop]

def reservedSlugs : List String :=
  ["api", "h", "health", "healthz", "stream", "static", "admin", "app", "hook", "www", "assets",
    "docs", "stripe", "github", "slack", "shopify", "twilio", "zapier", "discord"]

def invalidMessage : String :=
  "slug must be 3-32 chars, lowercase letters / digits / hyphens, " ++
    "no leading or trailing hyphen"

def validateSlug (slug : String) : Except Failure Unit :=
  if slug ∈ reservedSlugs then .error (.reservedSlug s!"slug '{slug}' is reserved")
  else if (pyMatch slugRe slug.toList).isSome then .ok ()
  else .error (.invalidSlug invalidMessage)

/-- The grammar that the message and the tests describe. -/
structure Grammar (slug : List Char) : Prop where
  least : 3 ≤ slug.length
  most : slug.length ≤ 32
  chars : ∀ c ∈ slug, isSlugChar c = true
  first : slug.head? ≠ some '-'
  last : slug.getLast? ≠ some '-'

/-- The slug can be put behind `/h/` in any URL: the URL asks for that path, on the same host and
without a query. -/
def KeepsUrl (slug : String) : Prop :=
  ∀ scheme host : List Char, ':' ∉ scheme → (∀ c ∈ host, isHostChar c = true) →
    resource (scheme ++ "://".toList ++ host ++ "/h/".toList ++ slug.toList) =
      some ⟨host, "/h/".toList ++ slug.toList, none⟩

/-- What the validator is to do with a text. -/
structure Validated (s : String) : Prop where
  accepts : validateSlug s = .ok () ↔ Grammar s.toList ∧ s ∉ reservedSlugs
  reserved : (∃ message, validateSlug s = .error (.reservedSlug message)) ↔ s ∈ reservedSlugs
  invalid : (∃ message, validateSlug s = .error (.invalidSlug message)) ↔
    ¬ Grammar s.toList ∧ s ∉ reservedSlugs
  no_line_break : validateSlug s = .ok () → ∀ c ∈ s.toList, c ≠ '\n' ∧ c ≠ '\r'
  keeps_url : validateSlug s = .ok () → KeepsUrl s

section Expression

variable {slug text : List Char}

theorem isEdgeChar_iff {c : Char} : isEdgeChar c = true ↔ isSlugChar c = true ∧ c ≠ '-' := by
  have hhyphen : isEdgeChar '-' = false := by decide
  simp only [isSlugChar, Bool.or_eq_true, beq_iff_eq]
  constructor
  · intro hedge
    refine ⟨Or.inl hedge, ?_⟩
    rintro rfl
    rw [hhyphen] at hedge
    cases hedge
  · rintro ⟨hedge | heq, hne⟩
    · exact hedge
    · exact absurd heq hne

theorem getLast?_ends (first last : Char) (middle : List Char) :
    (first :: (middle ++ [last])).getLast? = some last := by
  rw [← List.cons_append, List.getLast?_concat]

/-- The three classes of the expression. -/
theorem grammar_iff : Grammar slug ↔ ∃ first middle last, slug = first :: (middle ++ [last]) ∧
    isEdgeChar first = true ∧ Takes isSlugChar 1 (some 30) middle ∧ isEdgeChar last = true := by
  constructor
  · intro h
    obtain ⟨first, rest, rfl⟩ :=
      List.exists_cons_of_length_pos (Nat.lt_of_lt_of_le (by decide) h.least)
    obtain rfl | ⟨middle, last, rfl⟩ := List.eq_nil_or_concat' rest
    · exact absurd h.least (by simp)
    · have hleast := h.least
      have hmost := h.most
      simp only [List.length_cons, List.length_append, List.length_nil] at hleast hmost
      refine ⟨first, middle, last, rfl, isEdgeChar_iff.mpr ⟨h.chars _ (by simp), ?_⟩,
        ⟨fun c hc => h.chars c (by simp [hc]), by omega, ?_⟩,
        isEdgeChar_iff.mpr ⟨h.chars _ (by simp), ?_⟩⟩
      · simpa using h.first
      · rintro m ⟨⟩
        omega
      · simpa [getLast?_ends] using h.last
  · rintro ⟨first, middle, last, rfl, hfirst, hmiddle, hlast⟩
    have hleast := hmiddle.least
    have hmost := hmiddle.most 30 rfl
    rw [isEdgeChar_iff] at hfirst hlast
    refine ⟨by simp; omega, by simp; omega, fun c hc => ?_, by simpa using hfirst.2,
      by simpa [getLast?_ends] using hlast.2⟩
    simp only [List.mem_cons, List.mem_append, List.not_mem_nil, or_false] at hc
    rcases hc with rfl | hc | rfl
    · exact hfirst.1
    · exact hmiddle.all c hc
    · exact hlast.1

theorem takes_one {p : Char → Bool} {piece : List Char} :
    Takes p 1 (some 1) piece ↔ ∃ c, piece = [c] ∧ p c = true := by
  constructor
  · intro h
    obtain ⟨c, rfl⟩ := List.length_eq_one_iff.mp (le_antisymm (h.most 1 rfl) h.least)
    exact ⟨c, rfl, h.all c List.mem_cons_self⟩
  · rintro ⟨c, rfl, hc⟩
    exact ⟨by simpa using hc, le_refl 1, by simp⟩

/-- What the expression matches: a slug, and perhaps a line feed behind it. -/
theorem isSome_slugRe : (pyMatch slugRe text).isSome = true ↔
    ∃ slug, Grammar slug ∧ (text = slug ∨ text = slug ++ ['\n']) := by
  rw [isSome_match, slugRe]
  simp only [ways_start, if_true, mem_ways_chars, mem_ways_stop, takes_one]
  constructor
  · rintro ⟨-, -, -, rfl, ⟨first, rfl, hfirst⟩, middle, -, rfl, hmiddle, -, tail, rfl,
      ⟨last, rfl, hlast⟩, htail, -⟩
    refine ⟨_, grammar_iff.mpr ⟨first, middle, last, rfl, hfirst, hmiddle, hlast⟩, ?_⟩
    rcases htail with rfl | rfl
    · exact Or.inl (by simp)
    · exact Or.inr (by simp)
  · rintro ⟨slug, hslug, htext⟩
    obtain ⟨first, middle, last, rfl, hfirst, hmiddle, hlast⟩ := grammar_iff.mp hslug
    obtain ⟨tail, htail, rfl⟩ : ∃ tail : List Char, (tail = [] ∨ tail = ['\n']) ∧
        text = first :: (middle ++ [last]) ++ tail := by
      rcases htext with rfl | rfl
      · exact ⟨[], Or.inl rfl, by simp⟩
      · exact ⟨['\n'], Or.inr rfl, rfl⟩
    exact ⟨[], [first], middle ++ [last] ++ tail, by simp, ⟨first, rfl, hfirst⟩, middle,
      [last] ++ tail, by simp, hmiddle, [last], tail, rfl, ⟨last, rfl, hlast⟩, htail, rfl⟩

theorem newline_notReserved {s : String} (h : s.toList = slug ++ ['\n']) : s ∉ reservedSlugs := by
  intro hs
  have hnone : ∀ r ∈ reservedSlugs, '\n' ∉ r.toList := by simp [reservedSlugs]
  exact hnone s hs (h ▸ by simp)

end Expression

theorem validateSlug_ok {s : String} : validateSlug s = .ok () ↔
    s ∉ reservedSlugs ∧ ∃ slug, Grammar slug ∧ (s.toList = slug ∨ s.toList = slug ++ ['\n']) := by
  rw [validateSlug, ← isSome_slugRe]
  split
  · simp_all
  · rename_i hreserved
    by_cases hmatch : (pyMatch slugRe s.toList).isSome = true
    · simp [hreserved, hmatch]
    · simp [hreserved, Option.not_isSome_iff_eq_none.mp hmatch]

theorem validateSlug_reserved {s : String} :
    (∃ message, validateSlug s = .error (.reservedSlug message)) ↔ s ∈ reservedSlugs := by
  rw [validateSlug]
  split
  · simp_all
  · split <;> simp_all

theorem validateSlug_invalid {s : String} :
    (∃ message, validateSlug s = .error (.invalidSlug message)) ↔
      s ∉ reservedSlugs ∧ ¬ validateSlug s = .ok () := by
  by_cases hreserved : s ∈ reservedSlugs
  · simp [validateSlug, hreserved]
  · by_cases hmatch : (pyMatch slugRe s.toList).isSome = true
    · simp [validateSlug, hreserved, hmatch]
    · simp [validateSlug, hreserved, Option.not_isSome_iff_eq_none.mp hmatch]

section Url

variable {slug : String}

theorem isTokenChar_of_isSlugChar {c : Char} (h : isSlugChar c = true) : isTokenChar c = true := by
  simp only [isSlugChar, isEdgeChar, Bool.or_eq_true, decide_eq_true_eq, beq_iff_eq] at h
  simp only [isTokenChar, decide_eq_true_eq]
  rcases h with (h | h) | rfl
  · exact Or.inl h
  · exact Or.inr (Or.inr (Or.inl h))
  · exact Or.inr (Or.inr (Or.inr (by simp)))

theorem keepsUrl_of_grammar (h : Grammar slug.toList) : KeepsUrl slug := by
  intro scheme host hscheme hhost
  let t : Target := {
    scheme
    host
    token := slug
    rest := []
    query := none
    scheme_chars := hscheme
    host_chars := hhost
    token_chars := fun c hc => isTokenChar_of_isSlugChar (h.chars c hc)
    rest_chars := by simp
    rest_routed := Or.inl rfl
    query_chars := by simp }
  have hpath : '/' :: ('h' :: '/' :: slug.toList) = hookPath t := by simp [hookPath, t]
  have hurl : scheme ++ "://".toList ++ host ++ "/h/".toList ++ slug.toList =
      t.base ++ '/' :: ('h' :: '/' :: slug.toList) := by simp [Target.base, t]
  have hplain : ∀ c ∈ hookPath t, c ≠ '?' ∧ c ≠ '#' := by
    intro c hc
    simpa [isPathChar] using (hookPath_plain c hc).2
  have hunquote := unquote_hookPath (t := t) []
  rw [List.append_nil, List.takeWhile_nil] at hunquote
  rw [hurl, resource_base, hpath, hunquote, cut_of_notMem fun hmem => (hplain _ hmem).2 rfl,
    cut_of_notMem fun hmem => (hplain _ hmem).1 rfl]
  simp [hookPath, t, UrlEncoding.unquote]

end Url

/-- The validator does what it is to do exactly for the texts that are no slug with a line feed
behind it. -/
theorem validated_iff (s : String) :
    Validated s ↔ ¬ ∃ slug, Grammar slug ∧ s.toList = slug ++ ['\n'] := by
  constructor
  · rintro h ⟨slug, hslug, hs⟩
    have hok : validateSlug s = .ok () :=
      validateSlug_ok.mpr ⟨newline_notReserved hs, slug, hslug, Or.inr hs⟩
    have hmem : '\n' ∈ s.toList := by
      rw [hs]
      simp
    exact (h.no_line_break hok _ hmem).1 rfl
  · intro hnone
    have haccepts : validateSlug s = .ok () ↔ Grammar s.toList ∧ s ∉ reservedSlugs := by
      rw [validateSlug_ok, and_comm]
      refine and_congr_left fun _ => ⟨?_, fun h => ⟨_, h, Or.inl rfl⟩⟩
      rintro ⟨slug, hslug, rfl | hs⟩
      · exact hslug
      · exact absurd ⟨slug, hslug, hs⟩ hnone
    refine ⟨haccepts, validateSlug_reserved, ?_, fun hok c hc => ?_, fun hok => ?_⟩
    · rw [validateSlug_invalid, haccepts]
      tauto
    · have hchar := (haccepts.mp hok).1.chars c hc
      constructor
      · rintro rfl
        exact absurd hchar (by decide)
      · rintro rfl
        exact absurd hchar (by decide)
    · exact keepsUrl_of_grammar (haccepts.mp hok).1

/-- The documented slugs end before the line feed that is accepted. -/
theorem newline_accepted : ¬ ∀ s, Validated s := by
  intro hclaim
  have hok : validateSlug "abc\n" = .ok () := by decide +kernel
  exact ((hclaim "abc\n").no_line_break hok '\n' (by decide)).1 rfl

end Hooktrace.SlugValidator
