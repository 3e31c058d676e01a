import Hooktrace.CustomResponse
import Hooktrace.SlugValidator

/-!
Where the pages of a vanity slug are found. A request goes to the first route whose expression
matches its path, so that a page is lost to a route with a literal path that comes earlier. The
slugs that would be lost are to be reserved.
-/
namespace Hooktrace.VanitySlug

open CustomResponse (CreateError ResponseConfig create create_ok)
open Regex SlugValidator

def denylistedSubstrings : List String :=
  ["stripe", "paypal", "square", "klarna", "google", "amazon", "microsoft", "apple", "facebook",
    "meta", "twitter", "tiktok", "openai", "anthropic", "github", "discord", "slack", "shopify",
    "twilio", "mailgun", "zapier", "n8n", "admin", "root", "system", "support", "verify", "login",
    "signin", "secure", "account-update", "password-reset"]

section CreateEndpoint

variable (strLower : String → String)

def isDenylisted (slug : String) : Bool :=
  denylistedSubstrings.any fun needle => contains needle (strLower slug)

inductive Failure where
  | slug (e : SlugValidator.Failure)
  | slugDenylisted (message : String)
  | endpoint (e : CreateError)
  | slugAlreadyTaken (message : String)

/-- The slug that was asked for, or a token that was generated. -/
def chooseToken (generated : String) : Option String → Except Failure String
  | none => .ok generated
  | some slug =>
    match validateSlug slug with
    | .error e => .error (.slug e)
    | .ok () =>
      if isDenylisted strLower slug then .error (.slugDenylisted s!"slug rejected: {slug}")
      else .ok slug

structure Draws where
  generated : String
  id : UUID
  now : Datetime

def execute (draws : Draws) (ttlDays : ℤ) (slug : Option String) (config : ResponseConfig)
    (db : Database) : Except Failure (Database × Endpoint) := do
  let token ← chooseToken strLower draws.generated slug
  let endpoint ← (create draws.id draws.now token ttlDays config).mapError .endpoint
  match db.saveEndpoint endpoint with
  | none =>
    .error (.slugAlreadyTaken s!"endpoint with token '{endpoint.token}' already exists")
  | some db' => .ok (db', endpoint)

structure Accepted (slug : String) : Prop where
  valid : validateSlug slug = .ok ()
  allowed : isDenylisted strLower slug = false

end CreateEndpoint

inductive Part where
  | text (literal : String)
  /-- `{name}`, which is one segment of the path. -/
  | param
  deriving DecidableEq

inductive Handler where
  | openapi | swaggerUi | swaggerUiRedirect | redoc | healthz | createEndpoint | updateConfig
  | listIntegrations | listRequests | listRequestsFragment | replayRequest | listForwards
  | forwardStats | retryForward | redriveForwards | abandonForward | exportEndpoint | sseStream
  | landing | tosView | docsIntegrationsIndex | docsIntegrationPage | integrationsView
  | forwardsView | viewer
  deriving DecidableEq

structure Route where
  method : String
  path : List Part
  handler : Handler
  deriving DecidableEq

/-- The routes of the documentation, which FastAPI sets up when the app is made. -/
def documentationRoutes : List Route :=
  [⟨"GET", [.text "/openapi.json"], .openapi⟩,
    ⟨"GET", [.text "/docs"], .swaggerUi⟩,
    ⟨"GET", [.text "/docs/oauth2-redirect"], .swaggerUiRedirect⟩,
    ⟨"GET", [.text "/redoc"], .redoc⟩]

def routerRoutes : List Route :=
  [⟨"GET", [.text "/health"], .healthz⟩,
    ⟨"POST", [.text "/api/endpoints"], .createEndpoint⟩,
    ⟨"PATCH", [.text "/api/endpoints/", .param, .text "/config"], .updateConfig⟩,
    ⟨"GET", [.text "/api/endpoints/", .param, .text "/integrations"], .listIntegrations⟩,
    ⟨"GET", [.text "/api/endpoints/", .param, .text "/requests"], .listRequests⟩,
    ⟨"GET", [.text "/api/endpoints/", .param, .text "/requests.fragment"], .listRequestsFragment⟩,
    ⟨"POST", [.text "/api/endpoints/", .param, .text "/requests/", .param, .text "/replay"],
      .replayRequest⟩,
    ⟨"GET", [.text "/api/endpoints/", .param, .text "/forwards"], .listForwards⟩,
    ⟨"GET", [.text "/api/endpoints/", .param, .text "/forwards/stats"], .forwardStats⟩,
    ⟨"POST", [.text "/api/endpoints/", .param, .text "/forwards/", .param, .text "/retry"],
      .retryForward⟩,
    ⟨"POST", [.text "/api/endpoints/", .param, .text "/forwards/redrive"], .redriveForwards⟩,
    ⟨"DELETE", [.text "/api/endpoints/", .param, .text "/forwards/", .param], .abandonForward⟩,
    ⟨"GET", [.text "/api/endpoints/", .param, .text "/export.json"], .exportEndpoint⟩,
    ⟨"GET", [.text "/stream/", .param], .sseStream⟩,
    ⟨"GET", [.text "/"], .landing⟩,
    ⟨"GET", [.text "/tos"], .tosView⟩,
    ⟨"GET", [.text "/docs/integrations"], .docsIntegrationsIndex⟩,
    ⟨"GET", [.text "/docs/integrations/", .param], .docsIntegrationPage⟩,
    ⟨"GET", [.text "/", .param, .text "/integrations"], .integrationsView⟩,
    ⟨"GET", [.text "/", .param, .text "/forwards"], .forwardsView⟩,
    ⟨"GET", [.text "/", .param], .viewer⟩]

def routes : List Route := documentationRoutes ++ routerRoutes

def isSegmentChar (c : Char) : Bool := c ≠ '/'

def compilePart : Part → List Atom
  | .text text => literal text.toList
  | .param => [.group isSegmentChar 1 none]

def compilePath (path : List Part) : List Atom := .start :: path.flatMap compilePart ++ [.stop]

/-- The handler of the first route for the method whose expression matches, and the parameters. -/
def dispatch (method : String) (path : List Char) : Option (Handler × List (List Char)) :=
  routes.findSome? fun route =>
    if route.method = method then (pyMatch (compilePath route.path) path).map (route.handler, ·)
    else none

/-- The three pages are found under the slug. -/
structure Viewable (slug : String) : Prop where
  viewer : dispatch "GET" ('/' :: slug.toList) = some (.viewer, [slug.toList])
  integrations : dispatch "GET" ('/' :: slug.toList ++ "/integrations".toList) =
    some (.integrationsView, [slug.toList])
  forwards : dispatch "GET" ('/' :: slug.toList ++ "/forwards".toList) =
    some (.forwardsView, [slug.toList])

section Matching

variable {path : List Part} {text : List Char}

def slashes (path : List Part) : ℕ :=
  (path.map fun
    | .text literal => literal.toList.count '/'
    | .param => 0).sum

/-- A path has as many slashes as the route that it matches. -/
theorem count_of_mem_ways {atStart : Bool} {groups : List (List Char)}
    (h : groups ∈ ways atStart (path.flatMap compilePart ++ [Atom.stop]) text) :
    text.count '/' = slashes path := by
  induction path generalizing atStart text groups with
  | nil =>
    obtain ⟨rfl | rfl, -⟩ := mem_ways_stop.mp h
    · rfl
    · decide
  | cons part path ih =>
    rw [List.flatMap_cons, List.append_assoc] at h
    cases part with
    | text word =>
      obtain hempty | hne := eq_or_ne word.toList []
      · rw [compilePart, hempty] at h
        simpa [slashes, hempty] using ih h
      · obtain ⟨rest, rfl, hrest⟩ := (mem_ways_literal hne).mp h
        simp [slashes, ih hrest]
    | param =>
      obtain ⟨piece, rest, rfl, htakes, others, hothers, -⟩ := mem_ways_group.mp h
      have hpiece : piece.count '/' = 0 :=
        List.count_eq_zero.mpr fun hmem => absurd (htakes.all _ hmem) (by decide)
      simp [slashes, hpiece, ih hothers]

theorem match_eq_none_of_count (h : text.count '/' ≠ slashes path) :
    pyMatch (compilePath path) text = none := by
  by_contra hsome
  obtain ⟨groups, hgroups⟩ := isSome_match.mp (Option.isSome_iff_ne_none.mpr hsome)
  rw [compilePath, List.cons_append, ways_start, if_pos rfl] at hgroups
  exact h (count_of_mem_ways hgroups)

/-- Where no other element counts, a search goes through some elements only. -/
theorem findSome?_filter {α β : Type*} {f g : α → Option β} {p : α → Bool}
    (hsame : ∀ a, p a = true → g a = f a) (hnone : ∀ a, p a = false → f a = none) (l : List α) :
    (l.filter p).findSome? g = l.findSome? f := by
  induction l with
  | nil => rfl
  | cons a l ih =>
    cases ha : p a with
    | false => rw [List.filter_cons_of_neg (by simp [ha]), List.findSome?_cons, hnone a ha, ih]
    | true =>
      rw [List.filter_cons_of_pos ha, List.findSome?_cons, List.findSome?_cons, hsame a ha, ih]

def answer (path : List Char) (route : Route) : Option (Handler × List (List Char)) :=
  (pyMatch (compilePath route.path) path).map (route.handler, ·)

def candidates (method : String) (n : ℕ) : List Route :=
  routes.filter fun route => route.method = method ∧ slashes route.path = n

theorem dispatch_eq (method : String) (path : List Char) :
    dispatch method path = (candidates method (path.count '/')).findSome? (answer path) := by
  refine (findSome?_filter (fun route hroute => ?_) (fun route hroute => ?_) routes).symm
  · simp only [decide_eq_true_eq] at hroute
    rw [answer, if_pos hroute.1]
  · simp only [decide_eq_false_iff_not, not_and] at hroute
    split
    · rename_i hmethod
      rw [match_eq_none_of_count (Ne.symm (hroute hmethod)), Option.map_none]
    · rfl

/-- A route without parameters. -/
theorem answer_literal {word : String} (hword : word.toList ≠ []) (method : String)
    (handler : Handler) : answer text ⟨method, [.text word], handler⟩ = none ↔
      ¬ (text = word.toList ∨ text = word.toList ++ ['\n']) := by
  rw [answer, Option.map_eq_none_iff, ← Option.not_isSome_iff_eq_none, isSome_match]
  simp only [compilePath, List.flatMap_cons, List.flatMap_nil, List.append_nil, compilePart,
    List.cons_append, ways_start, if_true, mem_ways_literal hword, mem_ways_stop]
  refine not_congr ⟨?_, ?_⟩
  · rintro ⟨-, rest, rfl, rfl | rfl, -⟩
    · exact Or.inl (List.append_nil _)
    · exact Or.inr rfl
  · rintro (rfl | rfl)
    · exact ⟨[], [], by simp⟩
    · exact ⟨[], ['\n'], by simp⟩

/-- A route with a literal beginning matches only what begins so. -/
theorem answer_eq_none_of_prefix {word : String} {rest : List Part} (hword : word.toList ≠ [])
    (h : ¬ word.toList <+: text) (method : String) (handler : Handler) :
    answer text ⟨method, .text word :: rest, handler⟩ = none := by
  rw [answer, Option.map_eq_none_iff, ← Option.not_isSome_iff_eq_none, isSome_match]
  rintro ⟨groups, hgroups⟩
  rw [compilePath, List.cons_append, ways_start, if_pos rfl, List.flatMap_cons, List.append_assoc,
    compilePart, mem_ways_literal hword] at hgroups
  obtain ⟨tail, rfl, -⟩ := hgroups
  exact h (List.prefix_append _ _)

end Matching

section Pages

variable {s : List Char}

theorem isSegmentChar_of_notMem (hs : '/' ∉ s) : ∀ c ∈ s, isSegmentChar c = true :=
  fun _ hc => decide_eq_true fun heq => hs (heq ▸ hc)

/-- A page behind the parameter, or the parameter alone. -/
theorem answer_page (hs : '/' ∉ s) (hne : s ≠ []) (behind : List Part) (page : List Char)
    (hpage : ∀ c ∈ page.head?, isSegmentChar c = false)
    (hways : (ways false (behind.flatMap compilePart ++ [Atom.stop]) page).head? = some [])
    (method : String) (handler : Handler) :
    answer ('/' :: (s ++ page)) ⟨method, .text "/" :: .param :: behind, handler⟩ =
      some (handler, [s]) := by
  have hmatch : pyMatch (compilePath (.text "/" :: .param :: behind)) ('/' :: (s ++ page)) =
      some [s] := by
    have hpattern : compilePath (.text "/" :: .param :: behind) = .start :: (literal ['/'] ++
        (Atom.group isSegmentChar 1 none :: (behind.flatMap compilePart ++ [Atom.stop]))) := by
      simp [compilePath, compilePart]
    rw [pyMatch, hpattern, ways_start, if_pos rfl]
    have hslash : ways true (literal ['/'] ++ Atom.group isSegmentChar 1 none ::
        (behind.flatMap compilePart ++ [Atom.stop])) ('/' :: (s ++ page)) =
        ways false (Atom.group isSegmentChar 1 none :: (behind.flatMap compilePart ++ [Atom.stop]))
          (s ++ page) := ways_literal_append (by simp) (s ++ page)
    rw [hslash]
    exact head?_ways_group (isSegmentChar_of_notMem hs) (List.length_pos_iff.mpr hne) hpage hways
  rw [answer, hmatch, Option.map_some]

def literalPages : List (String × Handler) :=
  [("openapi.json", .openapi), ("docs", .swaggerUi), ("redoc", .redoc), ("health", .healthz),
    ("", .landing), ("tos", .tosView)]

theorem candidates_one : candidates "GET" 1 =
    (literalPages.map fun page => ⟨"GET", [.text ("/" ++ page.1)], page.2⟩) ++
      [⟨"GET", [.text "/", .param], .viewer⟩] := by
  decide +kernel

/-- The viewer is found where no literal path of one segment is matched. -/
theorem dispatch_viewer (hs : '/' ∉ s) (hne : s ≠ []) :
    dispatch "GET" ('/' :: s) = some (.viewer, [s]) ↔ ∀ page ∈ literalPages,
      ¬ (s = page.1.toList ∨ s = page.1.toList ++ ['\n']) := by
  have hcount : ('/' :: s).count '/' = 1 := by
    rw [List.count_cons_self, List.count_eq_zero.mpr hs]
  have hviewer : answer ('/' :: s) ⟨"GET", [.text "/", .param], .viewer⟩ =
      some (.viewer, [s]) := by
    have h := answer_page hs hne [] [] (by simp) (by decide) "GET" .viewer
    rwa [List.append_nil] at h
  have hhandlers : literalPages.all fun page => page.2 ≠ .viewer := by decide
  have hhandler : ∀ page ∈ literalPages, page.2 ≠ .viewer :=
    fun page hmem => of_decide_eq_true (List.all_eq_true.mp hhandlers page hmem)
  have hpage (page : String × Handler) :
      answer ('/' :: s) ⟨"GET", [.text ("/" ++ page.1)], page.2⟩ = none ↔
        ¬ (s = page.1.toList ∨ s = page.1.toList ++ ['\n']) := by
    have hword : ("/" ++ page.1).toList = '/' :: page.1.toList := by simp [String.toList_append]
    rw [answer_literal (by simp [hword]), hword, List.cons_append, List.cons.injEq,
      List.cons.injEq]
    simp
  rw [dispatch_eq, hcount, candidates_one, List.findSome?_append, List.findSome?_map,
    List.findSome?_singleton, hviewer]
  cases hfound : literalPages.findSome? (answer ('/' :: s) ∘ fun page =>
      ⟨"GET", [.text ("/" ++ page.1)], page.2⟩) with
  | none =>
    rw [List.findSome?_eq_none_iff] at hfound
    refine iff_of_true rfl fun page hmem => ?_
    exact (hpage page).mp (hfound page hmem)
  | some found =>
    obtain ⟨page, hmem, hanswer⟩ := List.exists_of_findSome?_eq_some hfound
    refine iff_of_false ?_ fun hall => ?_
    · -- what is found is the page of a literal path
      obtain ⟨groups, -, rfl⟩ := Option.map_eq_some_iff.mp hanswer
      intro heq
      exact hhandler page hmem (Prod.mk.inj (Option.some.inj heq)).1
    · rw [Function.comp_apply, (hpage page).mpr (hall page hmem)] at hanswer
      cases hanswer

theorem candidates_two : candidates "GET" 2 =
    [⟨"GET", [.text "/docs/oauth2-redirect"], .swaggerUiRedirect⟩,
      ⟨"GET", [.text "/stream/", .param], .sseStream⟩,
      ⟨"GET", [.text "/docs/integrations"], .docsIntegrationsIndex⟩,
      ⟨"GET", [.text "/", .param, .text "/integrations"], .integrationsView⟩,
      ⟨"GET", [.text "/", .param, .text "/forwards"], .forwardsView⟩] := by
  decide +kernel

/-- A segment before a slash is determined by the text. -/
theorem segment_eq {s' a b : List Char} (hs : '/' ∉ s) (hs' : '/' ∉ s')
    (h : s ++ '/' :: a = s' ++ '/' :: b) : s = s' ∧ a = b := by
  have hcut := congrArg (cut '/') h
  rw [cut_append hs, cut_append hs'] at hcut
  simpa using hcut

/-- Under a segment that is neither `docs` nor `stream` only the two pages of the token are
found. -/
theorem dispatch_page (hs : '/' ∉ s) (hdocs : s ≠ "docs".toList)
    (hstream : s ≠ "stream".toList) (page : List Char) (hpage : '/' ∉ page) :
    dispatch "GET" ('/' :: s ++ '/' :: page) =
      [(⟨"GET", [.text "/", .param, .text "/integrations"], .integrationsView⟩ : Route),
        ⟨"GET", [.text "/", .param, .text "/forwards"], .forwardsView⟩].findSome?
          (answer ('/' :: s ++ '/' :: page)) := by
  have hcount : ('/' :: s ++ '/' :: page).count '/' = 2 := by
    simp [List.count_eq_zero.mpr hs, List.count_eq_zero.mpr hpage]
  have hprefix {word : String} (first rest : List Char) (hfirst : '/' ∉ first)
      (hword : word.toList = '/' :: (first ++ '/' :: rest)) (hother : s ≠ first) :
      ¬ word.toList <+: '/' :: s ++ '/' :: page := by
    rintro ⟨tail, htail⟩
    rw [hword, List.cons_append, List.cons_append, List.cons.injEq, List.append_assoc,
      List.cons_append] at htail
    exact hother (segment_eq hfirst hs htail.2).1.symm
  rw [dispatch_eq, hcount, candidates_two]
  have hredirect : ¬ "/docs/oauth2-redirect".toList <+: '/' :: s ++ '/' :: page :=
    hprefix "docs".toList "oauth2-redirect".toList (by simp) (by simp) hdocs
  have hsse : ¬ "/stream/".toList <+: '/' :: s ++ '/' :: page :=
    hprefix "stream".toList [] (by simp) (by simp) hstream
  have hindex : ¬ "/docs/integrations".toList <+: '/' :: s ++ '/' :: page :=
    hprefix "docs".toList "integrations".toList (by simp) (by simp) hdocs
  rw [List.findSome?_cons, answer_eq_none_of_prefix (by simp) hredirect,
    List.findSome?_cons, answer_eq_none_of_prefix (by simp) hsse,
    List.findSome?_cons, answer_eq_none_of_prefix (by simp) hindex]

theorem dispatch_integrations (hs : '/' ∉ s) (hne : s ≠ []) (hdocs : s ≠ "docs".toList)
    (hstream : s ≠ "stream".toList) : dispatch "GET" ('/' :: s ++ "/integrations".toList) =
      some (.integrationsView, [s]) := by
  have htext : "/integrations".toList = '/' :: "integrations".toList := by decide
  have hanswer := answer_page hs hne [.text "/integrations"] ('/' :: "integrations".toList)
    (by simp [isSegmentChar]) (by decide +kernel) "GET" .integrationsView
  have hpage := dispatch_page hs hdocs hstream "integrations".toList (by decide)
  rw [htext, hpage, List.cons_append, List.findSome?_cons, hanswer]

theorem dispatch_forwards (hs : '/' ∉ s) (hne : s ≠ []) (hdocs : s ≠ "docs".toList)
    (hstream : s ≠ "stream".toList) : dispatch "GET" ('/' :: s ++ "/forwards".toList) =
      some (.forwardsView, [s]) := by
  have htext : "/forwards".toList = '/' :: "forwards".toList := by decide
  have hanswer := answer_page hs hne [.text "/forwards"] ('/' :: "forwards".toList)
    (by simp [isSegmentChar]) (by decide +kernel) "GET" .forwardsView
  have hother : answer ('/' :: (s ++ '/' :: "forwards".toList))
      ⟨"GET", [.text "/", .param, .text "/integrations"], .integrationsView⟩ = none := by
    rw [answer, Option.map_eq_none_iff, ← Option.not_isSome_iff_eq_none, isSome_match]
    rintro ⟨groups, hgroups⟩
    have hpattern : compilePath [.text "/", .param, .text "/integrations"] = .start ::
        (literal ['/'] ++ (Atom.group isSegmentChar 1 none ::
          (literal ('/' :: "integrations".toList) ++ [Atom.stop]))) := by
      simp [compilePath, compilePart]
    rw [hpattern, ways_start, if_pos rfl, mem_ways_literal (by simp)] at hgroups
    obtain ⟨rest, hrest, hgroups⟩ := hgroups
    obtain ⟨piece, rest', rfl, htakes, others, hothers, -⟩ := mem_ways_group.mp hgroups
    obtain ⟨tail, rfl, -⟩ := (mem_ways_literal (by simp)).mp hothers
    have hpiece : '/' ∉ piece := fun hmem => absurd (htakes.all _ hmem) (by decide)
    rw [List.singleton_append, List.cons.injEq] at hrest
    rw [List.cons_append] at hrest
    have htail := (segment_eq hs hpiece hrest.2).2
    exact absurd (congrArg List.head? htail) (by simp)
  have hpage := dispatch_page hs hdocs hstream "forwards".toList (by decide)
  rw [htext, hpage, List.cons_append, List.findSome?_cons, hother, List.findSome?_cons, hanswer]

end Pages

section Slugs

variable {strLower : String → String} {slug : String}

/-- The pages of one segment that the slug could be taken for, with or without a line feed. -/
def Shadowed (slug : String) : Prop :=
  ∃ name ∈ ["docs", "redoc", "health", "tos"], slug.toList = name.toList ∨
    slug.toList = name.toList ++ ['\n']

/-- What can be said of the characters of an accepted slug. -/
theorem Accepted.chars (h : Accepted strLower slug) :
    slug.toList ≠ [] ∧ slug.toList ≠ ['\n'] ∧ ∀ c ∈ slug.toList, c ≠ '/' ∧ c ≠ '.' := by
  obtain ⟨-, text, hgrammar, htext⟩ := validateSlug_ok.mp h.valid
  have hleast := hgrammar.least
  have hslug : ∀ c ∈ text, c ≠ '/' ∧ c ≠ '.' := by
    intro c hc
    have hchar := hgrammar.chars c hc
    constructor
    · rintro rfl
      exact absurd hchar (by decide)
    · rintro rfl
      exact absurd hchar (by decide)
  have hlength : 3 ≤ slug.toList.length := by
    rcases htext with heq | heq
    · rwa [heq]
    · rw [heq, List.length_append]
      omega
  refine ⟨?_, ?_, fun c hc => ?_⟩
  · intro heq
    simp [heq] at hlength
  · intro heq
    simp [heq] at hlength
  · rcases htext with heq | heq
    · exact hslug c (heq ▸ hc)
    · rw [heq, List.mem_append, List.mem_singleton] at hc
      rcases hc with hc | rfl
      · exact hslug c hc
      · decide

theorem Accepted.ne_reserved (h : Accepted strLower slug) {name : String}
    (hname : name ∈ reservedSlugs) : slug.toList ≠ name.toList := by
  obtain ⟨hreserved, -⟩ := validateSlug_ok.mp h.valid
  exact fun heq => hreserved (String.toList_inj.mp heq ▸ hname)

theorem chooseToken_some {generated token : String}
    (h : chooseToken strLower generated (some slug) = .ok token) :
    Accepted strLower slug ∧ token = slug := by
  unfold chooseToken at h
  cases hvalid : validateSlug slug with
  | error e => simp [hvalid] at h
  | ok u =>
    simp only [hvalid] at h
    split at h
    · cases h
    · rename_i hallowed
      exact ⟨⟨hvalid, by simpa using hallowed⟩, (Except.ok.inj h).symm⟩

/-- An endpoint that is made with a slug has it for its token, and the slug is accepted. -/
theorem accepted_of_execute {draws : Draws} {ttlDays : ℤ} {config : ResponseConfig}
    {db db' : Database} {endpoint : Endpoint}
    (h : execute strLower draws ttlDays (some slug) config db = .ok (db', endpoint)) :
    Accepted strLower slug ∧ endpoint.token = slug := by
  unfold execute at h
  cases hchoose : chooseToken strLower draws.generated (some slug) with
  | error e => simp [hchoose, bind, Except.bind] at h
  | ok token =>
    obtain ⟨haccepted, rfl⟩ := chooseToken_some hchoose
    refine ⟨haccepted, ?_⟩
    cases hcreate : create draws.id draws.now token ttlDays config with
    | error e => simp [hchoose, hcreate, bind, Except.bind, Except.mapError] at h
    | ok created =>
      simp only [hchoose, hcreate, bind, Except.bind, Except.mapError] at h
      split at h
      · cases h
      · obtain ⟨-, rfl⟩ := Prod.mk.inj (Except.ok.inj h)
        exact (create_ok hcreate).2.1

/-- The pages of an accepted slug are found exactly when it is not taken for another page. -/
theorem viewable_iff (h : Accepted strLower slug) : Viewable slug ↔ ¬ Shadowed slug := by
  obtain ⟨hne, hnewline, hchars⟩ := h.chars
  have hs : '/' ∉ slug.toList := fun hmem => (hchars _ hmem).1 rfl
  have hdocs : slug.toList ≠ "docs".toList := h.ne_reserved (by simp [reservedSlugs])
  have hstream : slug.toList ≠ "stream".toList := h.ne_reserved (by simp [reservedSlugs])
  have hviewer : dispatch "GET" ('/' :: slug.toList) = some (.viewer, [slug.toList]) ↔
      ¬ Shadowed slug := by
    rw [dispatch_viewer hs hne]
    constructor
    · rintro hall ⟨name, hname, htext⟩
      simp only [List.mem_cons, List.not_mem_nil, or_false] at hname
      rcases hname with rfl | rfl | rfl | rfl
      · exact hall ("docs", .swaggerUi) (by simp [literalPages]) htext
      · exact hall ("redoc", .redoc) (by simp [literalPages]) htext
      · exact hall ("health", .healthz) (by simp [literalPages]) htext
      · exact hall ("tos", .tosView) (by simp [literalPages]) htext
    · intro hshadowed page hpage htext
      simp only [literalPages, List.mem_cons, List.not_mem_nil, or_false] at hpage
      rcases hpage with rfl | rfl | rfl | rfl | rfl | rfl
      · -- no slug has a full stop
        have hstop : '.' ∈ slug.toList := by rcases htext with heq | heq <;> simp [heq]
        exact (hchars _ hstop).2 rfl
      · exact hshadowed ⟨"docs", by simp, htext⟩
      · exact hshadowed ⟨"redoc", by simp, htext⟩
      · exact hshadowed ⟨"health", by simp, htext⟩
      · rcases htext with heq | heq
        · exact hne heq
        · exact hnewline heq
      · exact hshadowed ⟨"tos", by simp, htext⟩
  rw [← hviewer]
  refine ⟨fun hview => hview.viewer, fun hviewer => ⟨hviewer, ?_, ?_⟩⟩
  · exact dispatch_integrations hs hne hdocs hstream
  · exact dispatch_forwards hs hne hdocs hstream

theorem abc_viewable : Viewable "abc" := by
  have haccepted : Accepted lower "abc" := ⟨by decide +kernel, by decide +kernel⟩
  refine (viewable_iff haccepted).mpr ?_
  rintro ⟨name, hname, htext⟩
  simp only [List.mem_cons, List.not_mem_nil, or_false] at hname
  rcases hname with rfl | rfl | rfl | rfl <;> simp at htext

/-- The terms of service are shown in place of the viewer of "tos". -/
theorem tos_shadowed : ¬ ∀ slug, Accepted lower slug → Viewable slug := by
  intro hclaim
  have hviewer := (hclaim "tos" ⟨by decide +kernel, by decide +kernel⟩).viewer
  have htos : dispatch "GET" ('/' :: "tos".toList) = some (.tosView, []) := by decide +kernel
  rw [htos] at hviewer
  cases hviewer

end Slugs

end Hooktrace.VanitySlug
