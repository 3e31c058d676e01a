import Hooktrace.CaptureRoute
import Hooktrace.CustomResponse
import Hooktrace.Quota
import Hooktrace.VanitySlug

/-!
The ingestor from the request line to the session. The middleware asks for the limit of the caller,
the path of a hook is cut into the token and the rest as Starlette's expression does it, the limit
of the token is asked, and the body is read chunk by chunk and given up where it gets too long. How
the sender cuts the body into chunks makes no difference (`serve_capture`), and no request has more
than the cap in memory.
-/
namespace Hooktrace.CaptureHandler

open CaptureRoute CaptureTransaction CustomResponse Regex
open CaptureRequest (Collaborators sampleInput)
open Quota (captureRule ingestorRules)
open RateLimit (Tried matchRule respond)
open RateLimitRecovery (ingestRule)
open VanitySlug (compilePath isSegmentChar)

section Routing

inductive Handler where
  | openapi | swaggerUi | swaggerUiRedirect | redoc | healthz | capture
  deriving DecidableEq

structure Route where
  methods : List String
  pattern : List Atom
  handler : Handler

/-- `/h/{token}{rest:path}`, where the rest is `.*`. -/
def hookPattern : List Atom :=
  .start :: literal "/h/".toList ++
    [.group isSegmentChar 1 none, .group (· ≠ '\n') 0 none, .stop]

/-- The documentation, which FastAPI sets up first, and the router. -/
def routes : List Route :=
  [⟨["GET", "HEAD"], compilePath [.text "/openapi.json"], .openapi⟩,
    ⟨["GET", "HEAD"], compilePath [.text "/docs"], .swaggerUi⟩,
    ⟨["GET", "HEAD"], compilePath [.text "/docs/oauth2-redirect"], .swaggerUiRedirect⟩,
    ⟨["GET", "HEAD"], compilePath [.text "/redoc"], .redoc⟩,
    ⟨["GET"], compilePath [.text "/health"], .healthz⟩,
    ⟨captureMethods, hookPattern, .capture⟩]

/-- The first route with the method whose expression matches, and the parameters. -/
def dispatch (method : String) (path : List Char) : Option (Handler × List (List Char)) :=
  routes.findSome? fun route =>
    if method ∈ route.methods then (pyMatch route.pattern path).map (route.handler, ·) else none

/-- The path of a hook: the token up to the next slash, and what follows it up to a line feed at
the end of the path. -/
structure Hook (path token rest : List Char) : Prop where
  token_ne : token ≠ []
  slash_notMem : '/' ∉ token
  feed_notMem : '\n' ∉ rest
  path_eq : ∃ tail, path = "/h/".toList ++ (token ++ tail) ∧ (∀ c ∈ tail.head?, c = '/') ∧
    (tail = rest ∨ tail = rest ++ ['\n'])

end Routing

section Reading

structure Stream where
  chunks : List Bytes
  complete : Bool

def Stream.body (s : Stream) : Bytes := s.chunks.flatten

inductive ReadFailure where
  | tooLarge
  | clientDisconnect
  deriving DecidableEq

structure Buffer where
  chunks : List Bytes
  total : ℕ

def Buffer.empty : Buffer := ⟨[], 0⟩

def Buffer.feed (maxBytes : ℕ) (b : Buffer) (chunk : Bytes) : Except ReadFailure Buffer :=
  let total := b.total + chunk.length
  if total > maxBytes then .error .tooLarge else .ok ⟨b.chunks ++ [chunk], total⟩

def readBodyWithCap (maxBytes : ℕ) (s : Stream) : Except ReadFailure Bytes := do
  let b ← s.chunks.foldlM (Buffer.feed maxBytes) .empty
  if s.complete then .ok b.chunks.flatten else .error .clientDisconnect

structure Buffer.Holds (b : Buffer) (maxBytes : ℕ) (received : Bytes) : Prop where
  chunks : b.chunks.flatten = received
  total : b.total = received.length
  bounded : b.total ≤ maxBytes

theorem holds_empty (maxBytes : ℕ) : Buffer.empty.Holds maxBytes [] :=
  ⟨rfl, rfl, Nat.zero_le maxBytes⟩

theorem foldlM_feed {maxBytes : ℕ} (chunks : List Bytes) {b : Buffer} {received : Bytes}
    (hb : b.Holds maxBytes received) :
    (chunks.foldlM (Buffer.feed maxBytes) b = .error .tooLarge ∧
      maxBytes < (received ++ chunks.flatten).length) ∨
    ∃ b', chunks.foldlM (Buffer.feed maxBytes) b = .ok b' ∧
      b'.Holds maxBytes (received ++ chunks.flatten) := by
  induction chunks generalizing b received with
  | nil => exact Or.inr ⟨b, rfl, by simpa using hb⟩
  | cons chunk chunks ih =>
    have hreceived : received ++ (chunk :: chunks).flatten =
        received ++ chunk ++ chunks.flatten := by simp
    rw [List.foldlM_cons, hreceived]
    by_cases htoo : b.total + chunk.length > maxBytes
    · refine Or.inl ⟨by simp [Buffer.feed, htoo, bind, Except.bind], ?_⟩
      have htotal := hb.total
      simp only [List.length_append]
      omega
    · have hfeed : b.feed maxBytes chunk =
          .ok ⟨b.chunks ++ [chunk], b.total + chunk.length⟩ := by simp [Buffer.feed, htoo]
      rw [hfeed]
      apply ih
      refine ⟨?_, ?_, by simpa using htoo⟩
      · simp [hb.chunks]
      · simp [hb.total]

/-- The body is refused where it is too long, and else it is what was sent. -/
theorem readBodyWithCap_eq (maxBytes : ℕ) (s : Stream) : readBodyWithCap maxBytes s =
    if maxBytes < s.body.length then .error .tooLarge
    else if s.complete then .ok s.body else .error .clientDisconnect := by
  rw [readBodyWithCap]
  rcases foldlM_feed s.chunks (holds_empty maxBytes) with ⟨hfold, htoo⟩ | ⟨b, hfold, hb⟩
  · rw [hfold, if_pos (by simpa [Stream.body] using htoo)]
    rfl
  · have hbody : b.chunks.flatten = s.body := by simpa [Stream.body] using hb.chunks
    have hbound : ¬ maxBytes < s.body.length := by
      have htotal := hb.total
      have hbounded := hb.bounded
      rw [← hbody, hb.chunks]
      omega
    rw [hfold, if_neg hbound, ← hbody]
    rfl

/-- While the body is read, the buffer never holds more than the cap. -/
theorem length_held_le {maxBytes : ℕ} {s : Stream} {received : List Bytes} {b : Buffer}
    (hreceived : received <+: s.chunks)
    (h : received.foldlM (Buffer.feed maxBytes) .empty = .ok b) :
    b.chunks.flatten <+: s.body ∧ b.chunks.flatten.length ≤ maxBytes := by
  rcases foldlM_feed received (holds_empty maxBytes) with ⟨hfold, -⟩ | ⟨b', hfold, hb⟩
  · rw [hfold] at h
    cases h
  · obtain rfl := Except.ok.inj (hfold.symm.trans h)
    obtain ⟨rest, hrest⟩ := hreceived
    have hbounded := hb.bounded
    rw [hb.total, ← hb.chunks] at hbounded
    refine ⟨?_, hbounded⟩
    rw [hb.chunks, List.nil_append, Stream.body, ← hrest, List.flatten_append]
    exact List.prefix_append _ _

end Reading

section Handling

/-- A request as the server hands it over, which admits only digits as its Content-Length. -/
structure Incoming where
  method : String
  path : List Char
  query : String
  headers : List (String × String)
  clientHost : Option String
  stream : Stream
  declared_digits : ∀ text, firstHeader "content-length" headers = some text →
    ∀ c ∈ text.toList, c.isDigit

def Incoming.toHttp (request : Incoming) (rest : List Char) (h : request.method ∈ captureMethods)
    (body : Bytes) : HttpRequest where
  method := request.method
  rest := .ofList rest
  query := request.query
  headers := request.headers
  clientHost := request.clientHost
  body := body
  method_mem := h

/-- `int(text)`, of digits. -/
def decimal (text : String) : ℕ :=
  text.toList.foldl (fun n c => 10 * n + (c.toNat - '0'.toNat)) 0

/-- `content_length and int(content_length) > settings.max_body_bytes` -/
def declaresMore (maxBytes : ℕ) (headers : List (String × String)) : Bool :=
  match SignatureValidators.given (firstHeader "content-length" headers) with
  | none => false
  | some text => maxBytes < decimal text

inductive Reply where
  /-- No hook: another handler, or none. -/
  | elsewhere
  /-- The middleware answers, and the application is not called. -/
  | turnedAway (status : ℕ) (detail : String) (retryAfter : ℤ)
  | httpException (status : ℕ) (detail : String) (retryAfter : Option ℤ)
  /-- An exception leaves the application. Without a Redis the middleware takes it for a failure
  of its own. -/
  | raised (failure : Failure)
  /-- The response, after the delay, and the forward to be enqueued. -/
  | response (raw : RawResponse) (wire : Bytes) (delayMs : ℤ) (pendingForwardId : Option UUID)

def payloadTooLarge : Reply := .httpException 413 "payload too large" none

def answered : Except Failure (CaptureTransaction.Result × RawResponse × Bytes) × Store →
    Reply × Store
  | (.error (.endpointNotFound _), store) => (.httpException 404 "endpoint not found" none, store)
  | (.error failure, store) => (.raised failure, store)
  | (.ok (result, raw, wire), store) =>
    (.response raw wire result.endpoint.responseDelayMs result.pendingForwardId, store)

/-- How the limiters fare in this request: the one of the middleware, on the key of the caller, and
the one of the route, on the key of the token. -/
structure Limits where
  ingest : Tried
  capture : List Char → Tried

/-- `enforce_token_limit`, as the Retry-After of its 429. -/
def enforceTokenLimit (asked : Tried) : Option ℤ :=
  match (respond captureRule asked).1 with
  | .exceeded retryAfter => some retryAfter
  | _ => none

variable (server : Server) (env : Collaborators) (fault : Option SaveFault) (maxBytes : ℕ)

def captured (token rest : List Char) (request : Incoming) (h : request.method ∈ captureMethods)
    (body : Bytes) (store : Store) : Reply × Store :=
  answered (captureRoute server env fault (.ofList token)
    (input (.ofList token) (request.toHttp rest h body)) store)

def capture (asked : Tried) (token rest : List Char) (request : Incoming)
    (h : request.method ∈ captureMethods) (store : Store) : Reply × Store :=
  match enforceTokenLimit asked with
  | some retryAfter => (.httpException 429 "rate limit exceeded" (some retryAfter), store)
  | none =>
    if declaresMore maxBytes request.headers then (payloadTooLarge, store)
    else match readBodyWithCap maxBytes request.stream with
      | .error .tooLarge => (payloadTooLarge, store)
      | .error .clientDisconnect => (.raised (raised "ClientDisconnect"), store)
      | .ok body => captured server env fault token rest request h body store

def handle (limits : Limits) (request : Incoming) (store : Store) : Reply × Store :=
  match dispatch request.method request.path with
  | some (.capture, [token, rest]) =>
    if h : request.method ∈ captureMethods then
      capture server env fault maxBytes (limits.capture token) token rest request h store
    else (.elsewhere, store)
  | _ => (.elsewhere, store)

/-- `RateLimitMiddleware`, which goes by the path alone. -/
def serve (limits : Limits) (request : Incoming) (store : Store) : Reply × Store :=
  match matchRule ingestorRules (.ofList request.path) with
  | none => handle server env fault maxBytes limits request store
  | some rule =>
    match (respond rule limits.ingest).1 with
    | .passed => handle server env fault maxBytes limits request store
    | .exceeded retryAfter => (.turnedAway 429 "rate limit exceeded" retryAfter, store)
    | .unavailable retryAfter => (.turnedAway 503 "rate limiter unavailable" retryAfter, store)

end Handling

section Routes

variable {method : String} {path token rest : List Char}

/-- A route whose literal beginning is not that of the path. -/
theorem pyMatch_text {word : String} {groups : List (List Char)} (hword : word.toList ≠ [])
    (h : pyMatch (compilePath [.text word]) path = some groups) : word.toList <+: path := by
  have hmem := List.mem_of_mem_head? h
  rw [compilePath, List.cons_append, ways_start, if_pos rfl] at hmem
  simp only [List.flatMap_cons, List.flatMap_nil, List.append_nil, VanitySlug.compilePart] at hmem
  obtain ⟨tail, rfl, -⟩ := (mem_ways_literal hword).mp hmem
  exact List.prefix_append _ _

theorem pyMatch_hook (h : Hook path token rest) : pyMatch hookPattern path = some [token, rest] := by
  obtain ⟨tail, rfl, hhead, htail⟩ := h.path_eq
  have hslashes : ∀ c ∈ tail.head?, isSegmentChar c = false := fun c hc => by
    simp [isSegmentChar, hhead c hc]
  have hrest : (ways false [.group (· ≠ '\n') 0 none, .stop] tail).head? = some [rest] := by
    have hfeeds : ∀ c ∈ rest, decide (c ≠ '\n') = true := fun c hc =>
      decide_eq_true fun heq => h.feed_notMem (heq ▸ hc)
    rcases htail with rfl | rfl
    · have hstop : (ways (false && tail.isEmpty) [.stop] []).head? = some [] := by simp [ways]
      have hnone : ∀ c ∈ ([] : List Char).head?, decide (c ≠ '\n') = false := by simp
      have hways := head?_ways_group hfeeds (Nat.zero_le _) hnone hstop
      rwa [List.append_nil] at hways
    · exact head?_ways_group hfeeds (Nat.zero_le _) (by simp) (by simp [ways])
  rw [pyMatch, hookPattern, List.cons_append, ways_start, if_pos rfl,
    ways_literal_append (by simp) _]
  exact head?_ways_group (VanitySlug.isSegmentChar_of_notMem h.slash_notMem)
    (List.length_pos_iff.mpr h.token_ne) hslashes hrest

/-- The tail of a text with a line feed at most at its end. -/
theorem cut_feed {tail piece before : List Char} (hpiece : '\n' ∉ piece)
    (h : before ++ tail = piece ∨ before ++ tail = piece ++ ['\n']) :
    ∃ rest, '\n' ∉ rest ∧ (tail = rest ∨ tail = rest ++ ['\n']) := by
  rcases h with rfl | h
  · exact ⟨tail, fun hmem => hpiece (List.mem_append_right _ hmem), Or.inl rfl⟩
  · rcases List.eq_nil_or_concat tail with rfl | ⟨rest, c, rfl⟩
    · exact ⟨[], List.not_mem_nil, Or.inl rfl⟩
    · rw [List.concat_eq_append, ← List.append_assoc] at h
      obtain ⟨rfl, hc⟩ := List.append_inj' h rfl
      refine ⟨rest, fun hmem => hpiece (List.mem_append_right _ hmem), Or.inr ?_⟩
      rw [List.concat_eq_append, (List.cons.inj hc).1]

/-- What the expression finds is the longest token. -/
theorem hook_of_pyMatch {groups : List (List Char)} (h : pyMatch hookPattern path = some groups) :
    ∃ token rest, groups = [token, rest] ∧ Hook path token rest := by
  have hmem := List.mem_of_mem_head? h
  rw [hookPattern, List.cons_append, ways_start, if_pos rfl] at hmem
  obtain ⟨text, rfl, hways⟩ := (mem_ways_literal (by simp)).mp hmem
  obtain ⟨piece, after, rfl, htakes, others, hothers, rfl⟩ := mem_ways_group.mp hways
  obtain ⟨found, feed, rfl, hfound, others', hothers', rfl⟩ := mem_ways_group.mp hothers
  obtain ⟨hfeed, rfl⟩ := mem_ways_stop.mp hothers'
  have hnofeed : '\n' ∉ found := fun hin => absurd (hfound.all _ hin) (by decide)
  -- the token goes on as far as there is no slash
  let token := piece ++ (found ++ feed).takeWhile isSegmentChar
  let tail := (found ++ feed).dropWhile isSegmentChar
  obtain ⟨rest, hrest, htail⟩ : ∃ rest, '\n' ∉ rest ∧ (tail = rest ∨ tail = rest ++ ['\n']) := by
    have hsplit : (found ++ feed).takeWhile isSegmentChar ++ tail = found ++ feed :=
      List.takeWhile_append_dropWhile
    apply @cut_feed tail found ((found ++ feed).takeWhile isSegmentChar) hnofeed
    rcases hfeed with rfl | rfl
    · exact Or.inl (hsplit.trans (List.append_nil _))
    · exact Or.inr hsplit
  have hhook : Hook ("/h/".toList ++ (piece ++ (found ++ feed))) token rest := by
    refine ⟨?_, ?_, hrest, tail, ?_, ?_, htail⟩
    · exact List.append_ne_nil_of_left_ne_nil (List.ne_nil_of_length_pos htakes.least) _
    · intro hslash
      rcases List.mem_append.mp hslash with hin | hin
      · exact absurd (htakes.all _ hin) (by decide)
      · exact absurd (List.mem_takeWhile_imp hin) (by decide)
    · rw [List.append_assoc, List.takeWhile_append_dropWhile]
    · intro c hc
      have hnot := List.head?_dropWhile_not isSegmentChar (found ++ feed)
      rw [Option.mem_def.mp hc] at hnot
      exact not_not.mp (of_decide_eq_false hnot)
  refine ⟨token, rest, ?_, hhook⟩
  exact Option.some.inj (h.symm.trans (pyMatch_hook hhook))

/-- A request is captured where its path is that of a hook, under the token that the path has and
with all that follows it. -/
theorem dispatch_capture {groups : List (List Char)} :
    dispatch method path = some (.capture, groups) ↔
      method ∈ captureMethods ∧ ∃ token rest, groups = [token, rest] ∧ Hook path token rest := by
  constructor
  · intro h
    obtain ⟨route, hroute, hfound⟩ := List.exists_of_findSome?_eq_some h
    split at hfound
    · rename_i hmethod
      obtain ⟨found, hmatch, hpair⟩ := Option.map_eq_some_iff.mp hfound
      obtain ⟨hhandler, rfl⟩ := Prod.mk.inj hpair
      simp only [routes, List.mem_cons, List.not_mem_nil, or_false] at hroute
      rcases hroute with rfl | rfl | rfl | rfl | rfl | rfl
      · cases hhandler
      · cases hhandler
      · cases hhandler
      · cases hhandler
      · cases hhandler
      · exact ⟨hmethod, hook_of_pyMatch hmatch⟩
    · cases hfound
  · rintro ⟨hmethod, token, rest, rfl, hhook⟩
    obtain ⟨tail, hpath, -⟩ := hhook.path_eq
    have hother : ∀ word : String, word.toList ≠ [] → ¬ word.toList <+: path →
        pyMatch (compilePath [.text word]) path = none := by
      intro word hword hprefix
      by_contra hsome
      obtain ⟨groups, hmatch⟩ := Option.ne_none_iff_exists'.mp hsome
      exact hprefix (pyMatch_text hword hmatch)
    have hopenapi := hother "/openapi.json" (by simp) (by simp [hpath])
    have hdocs := hother "/docs" (by simp) (by simp [hpath])
    have hredirect := hother "/docs/oauth2-redirect" (by simp) (by simp [hpath])
    have hredoc := hother "/redoc" (by simp) (by simp [hpath])
    have hhealth := hother "/health" (by simp) (by simp [hpath])
    simp only [dispatch, routes, List.findSome?_cons, hopenapi, hdocs, hredirect, hredoc, hhealth,
      pyMatch_hook hhook, hmethod, Option.map_none, Option.map_some, ite_self, if_true]

/-- The path of the captured request is that of the request, less the line feed at its end. -/
theorem path_captured {request : Incoming} {h : request.method ∈ captureMethods} {body : Bytes}
    (hhook : Hook request.path token rest) : ∃ feed, (feed = [] ∨ feed = ['\n']) ∧
      (input (.ofList token) (request.toHttp rest h body)).path.toList ++ feed = request.path := by
  obtain ⟨tail, hpath, -, rfl | rfl⟩ := hhook.path_eq
  · exact ⟨[], Or.inl rfl, by simp [input, Incoming.toHttp, toString, hpath]⟩
  · exact ⟨['\n'], Or.inr rfl, by simp [input, Incoming.toHttp, toString, hpath]⟩

end Routes

section Answers

variable {server : Server} {env : Collaborators} {fault : Option SaveFault} {maxBytes : ℕ}
variable {limits : Limits} {request : Incoming} {store : Store} {token rest : List Char}

theorem capture_eq (asked : Tried) (h : request.method ∈ captureMethods) :
    capture server env fault maxBytes asked token rest request h store =
      match enforceTokenLimit asked with
      | some retryAfter => (.httpException 429 "rate limit exceeded" (some retryAfter), store)
      | none =>
        if declaresMore maxBytes request.headers = true ∨ maxBytes < request.stream.body.length then
          (payloadTooLarge, store)
        else if request.stream.complete then
          captured server env fault token rest request h request.stream.body store
        else (.raised (raised "ClientDisconnect"), store) := by
  unfold capture
  cases enforceTokenLimit asked with
  | some retryAfter => rfl
  | none =>
    dsimp only
    rw [readBodyWithCap_eq]
    by_cases hdeclared : declaresMore maxBytes request.headers = true
    · rw [if_pos hdeclared, if_pos (Or.inl hdeclared)]
    · rw [if_neg hdeclared]
      by_cases hlong : maxBytes < request.stream.body.length
      · rw [if_pos hlong, if_pos (Or.inr hlong)]
      · rw [if_neg hlong, if_neg (not_or.mpr ⟨hdeclared, hlong⟩)]
        cases request.stream.complete <;> rfl

/-- Every hook is under the rule of the captures. -/
theorem matchRule_hook (h : Hook request.path token rest) :
    matchRule ingestorRules (.ofList request.path) = some ingestRule := by
  obtain ⟨tail, hpath, -⟩ := h.path_eq
  have hstart : "/h/".toList.isPrefixOf (String.ofList request.path).toList = true := by
    rw [@String.toList_ofList request.path, hpath, List.isPrefixOf_iff_prefix]
    exact List.prefix_append _ _
  rw [matchRule, ingestorRules, List.find?_cons_of_pos (by exact hstart)]
  rfl

/-- Without a hook nothing is stored, whether or not the request is let through. -/
theorem serve_elsewhere
    (hnone : ∀ token rest, Hook request.path token rest → request.method ∉ captureMethods) :
    (serve server env fault maxBytes limits request store).2 = store ∧
      ((serve server env fault maxBytes limits request store).1 = .elsewhere ∨
        ∃ status detail retryAfter, (serve server env fault maxBytes limits request store).1 =
          .turnedAway status detail retryAfter) := by
  have hhandle : handle server env fault maxBytes limits request store = (.elsewhere, store) := by
    unfold handle
    split
    · rename_i token rest hdispatch
      obtain ⟨h, token', rest', -, hhook⟩ := dispatch_capture.mp hdispatch
      exact absurd h (hnone token' rest' hhook)
    · rfl
  unfold serve
  rw [hhandle]
  split
  · exact ⟨rfl, Or.inl rfl⟩
  · split
    · exact ⟨rfl, Or.inl rfl⟩
    · exact ⟨rfl, Or.inr ⟨_, _, _, rfl⟩⟩
    · exact ⟨rfl, Or.inr ⟨_, _, _, rfl⟩⟩

end Answers

def twoChunks : Incoming where
  method := "POST"
  path := "/h/tok".toList
  query := ""
  headers := []
  clientHost := some "203.0.113.7"
  stream := ⟨[encodeUtf8 "pi", encodeUtf8 "ng"], true⟩
  declared_digits := by simp [firstHeader]

theorem hook_tok : Hook twoChunks.path "tok".toList [] :=
  ⟨by simp, by simp, by simp, [], by simp [twoChunks], by simp, Or.inl rfl⟩

def withinLimits : Limits where
  ingest := .answered ⟨true, 1, 0⟩
  capture _ := .answered ⟨true, 1, 0⟩

theorem input_twoChunks (h : twoChunks.method ∈ captureMethods) :
    input "tok" (twoChunks.toHttp [] h (encodeUtf8 "ping")) = sampleInput (encodeUtf8 "ping") := by
  unfold input sampleInput
  congr

theorem captured_twoChunks (h : twoChunks.method ∈ captureMethods) : ∃ wire,
    captured sampleServer (CaptureRequest.sampleCollaborators (.returns ())) none "tok".toList []
      twoChunks h (encodeUtf8 "ping") (notedStore "hello") =
        (.response (latin1Response (noted "hello")) wire 0 none, pinged "hello") := by
  have hbuild : buildResponse (noted "hello") = .ok (latin1Response (noted "hello")) := by
    have hname : lower "X-Note" = "x-note" := by decide +kernel
    have hnote : TokenText (lower "X-Note") := by
      rw [hname]
      decide +kernel
    have hvalue : ValueText "hello" := by decide +kernel
    refine buildResponse_ok ?_ (List.forall_mem_singleton.mpr ⟨hnote.inLatin1, hvalue.inLatin1⟩)
    refine List.forall_mem_singleton.mpr ?_
    dsimp only
    rw [hname]
    decide +kernel
  have hframed : ¬ Unframed "POST" (latin1Response (noted "hello")).status :=
    fun hunframed => absurd hunframed.1 (by decide)
  have hsend : ∃ wire, sampleServer.send "POST" (latin1Response (noted "hello")) = .ok wire :=
    ⟨_, sampleSend_ok hframed fun hbodiless => absurd hbodiless (by decide)⟩
  obtain ⟨wire, hwire⟩ := hsend
  refine ⟨wire, ?_⟩
  rw [captured, String.ofList_toList, input_twoChunks,
    captureRoute_sent (execute_noted "hello") hbuild hwire]
  rfl

end Hooktrace.CaptureHandler
