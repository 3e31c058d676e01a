import Hooktrace.SlidingWindow
import Mathlib.Logic.Function.Basic

/-!
The rate limiters in front of Redis, with any number of requests in flight. A limiter sets its
client before the script is loaded and the hash of the script after it, and never loads the
script again.
-/
namespace Hooktrace.RateLimit

open Transition SlidingWindow

inductive FailMode where
  | failOpen
  | failClosed
  deriving DecidableEq

/-- `_Rule`. Every rule that is configured admits something. -/
structure Rule where
  name : String
  limit : ℕ
  windowSeconds : ℕ
  failMode : FailMode
  limit_pos : 1 ≤ limit

structure Call (L : Type*) where
  limiter : L
  rule : Rule
  key : String

variable {L R : Type*}

/-- `_match_rule`: the first prefix of the path. -/
def matchRule (rules : List (String × Rule)) (path : String) : Option Rule :=
  (rules.find? fun entry => entry.1.toList.isPrefixOf path.toList).map Prod.snd

/-- What the middleware asks; without a rule the application is called at once. -/
def middlewareCall (limiter : L) (rules : List (String × Rule)) (path clientIp : String) :
    Option (Call L) :=
  (matchRule rules path).map fun rule => ⟨limiter, rule, s!"rl:{rule.name}:{clientIp}"⟩

/-- What `enforce_token_limit` asks; it always fails open. -/
def tokenCall (limiter : L) (token ruleName : String) (limit windowSeconds : ℕ)
    (limit_pos : 1 ≤ limit) : Call L where
  limiter
  rule := ⟨ruleName, limit, windowSeconds, .failOpen, limit_pos⟩
  key := s!"rl:{ruleName}:{token}"

/-- How the `try` block ends. -/
inductive Tried where
  /-- There is no URL. -/
  | disabled
  | answered (reply : Reply)
  | raised
  deriving DecidableEq

inductive Response where
  | passed
  /-- 429. -/
  | exceeded (retryAfter : ℤ)
  /-- 503. -/
  | unavailable (retryAfter : ℤ)
  deriving DecidableEq

inductive Metric where
  | redisError (rule : String)
  | block (rule reason : String)
  deriving DecidableEq

/-- An exception is left to the fail mode of the rule, and counted. -/
def respond (rule : Rule) : Tried → Response × List Metric
  | .disabled => (.passed, [])
  | .answered reply =>
    if reply.allowed then (.passed, [])
    else (.exceeded reply.retryAfter, [.block rule.name "quota"])
  | .raised => match rule.failMode with
    | .failClosed =>
      (.unavailable 60, [.redisError rule.name, .block rule.name "fail_closed"])
    | .failOpen => (.passed, [.redisError rule.name])

theorem respond_redisError {rule : Rule} {x : Tried} :
    .redisError rule.name ∈ (respond rule x).2 ↔ x = .raised := by
  cases x with
  | disabled => simp [respond]
  | answered reply => cases hallowed : reply.allowed <;> simp [respond, hallowed]
  | raised => cases hmode : rule.failMode <;> simp [respond, hmode]

/-- `_redis`, as to whether it is set, and `_script_sha`. -/
structure Client where
  redis : Bool
  scriptSha : Option String

def Client.fresh : Client := ⟨false, none⟩

/-- How `_ensure_redis` runs until it waits or returns. -/
inductive Ensured where
  | disabled
  | ready
  /-- SCRIPT LOAD is on its way. -/
  | loading

/-- The client is there from now on. -/
def Client.ensure (c : Client) : Client × Ensured :=
  if c.redis then (c, .ready) else ({ c with redis := true }, .loading)

structure Middleware where
  providerCalled : Bool
  redisUrlCache : Option String
  client : Client

def Middleware.ensureRedis (url : Option String) (m : Middleware) : Middleware × Ensured :=
  let m := if m.providerCalled then m
    else { m with providerCalled := true, redisUrlCache := url }
  match m.redisUrlCache with
  | none => (m, .disabled)
  | some _ => ({ m with client := m.client.ensure.1 }, m.client.ensure.2)

/-- `_ensure_redis` of the helper, which reads the environment each time. -/
def tokenEnsureRedis (url : Option String) (c : Client) : Client × Ensured :=
  match url with
  | none => (c, .disabled)
  | some _ => c.ensure

inductive Limiter where
  | middleware (m : Middleware)
  | token (c : Client)

namespace Limiter

def freshMiddleware : Limiter := .middleware ⟨false, none, .fresh⟩

def freshToken : Limiter := .token .fresh

def client : Limiter → Client
  | .middleware m => m.client
  | .token c => c

def ensureRedis (url : Option String) : Limiter → Limiter × Ensured
  | .middleware m => (.middleware (m.ensureRedis url).1, (m.ensureRedis url).2)
  | .token c => (.token (tokenEnsureRedis url c).1, (tokenEnsureRedis url c).2)

def setScriptSha (sha : String) : Limiter → Limiter
  | .middleware m => .middleware { m with client := { m.client with scriptSha := some sha } }
  | .token c => .token { c with scriptSha := some sha }

/-- The limiter has not read another URL. -/
def Configured (url : String) : Limiter → Prop
  | .middleware m => m.providerCalled = true → m.redisUrlCache = some url
  | .token _ => True

variable {url sha : String} {l : Limiter}

theorem configured_middleware : freshMiddleware.Configured url := by
  simp [Configured, freshMiddleware]

theorem configured_token : freshToken.Configured url := trivial

theorem Configured.setScriptSha (h : l.Configured url) : (l.setScriptSha sha).Configured url := by
  cases l with
  | middleware m => exact h
  | token c => trivial

@[simp] theorem client_setScriptSha :
    (l.setScriptSha sha).client = { l.client with scriptSha := some sha } := by
  cases l <;> rfl

/-- A limiter that has its URL goes by its client alone. -/
theorem Configured.ensureRedis (h : l.Configured url) :
    (l.ensureRedis (some url)).1.Configured url ∧
      (l.ensureRedis (some url)).1.client = l.client.ensure.1 ∧
        (l.ensureRedis (some url)).2 = l.client.ensure.2 := by
  cases l with
  | token c => exact ⟨trivial, rfl, rfl⟩
  | middleware m =>
    cases hcalled : m.providerCalled with
    | false => simp [Limiter.ensureRedis, Middleware.ensureRedis, hcalled, Configured, client]
    | true =>
      have hurl : m.redisUrlCache = some url := h hcalled
      simp [Limiter.ensureRedis, Middleware.ensureRedis, hcalled, hurl, Configured, client]

end Limiter

inductive Phase where
  | new
  | loading
  /-- The server has loaded the script, and its answer is on the way. -/
  | loaded (sha : String)
  | evaluating (sha : Option String) (now : ℤ) (member : String)
  | replied (x : Tried)
  | decided (x : Tried)

structure State (L R : Type*) where
  limiters : L → Limiter
  /-- The script cache of the server, and its keys. -/
  cache : List String
  keys : String → Key
  requests : R → Phase

inductive Action (R : Type*) where
  | arrive (r : R) (now : ℤ) (member : String)
  /-- The server executes the command of the request. -/
  | execute (r : R)
  /-- The request goes on with the answer. -/
  | resume (r : R) (now : ℤ) (member : String)
  /-- The command or its answer is lost. -/
  | fail (r : R)
  | restart (keys : String → Key)
  | flush
  | expire (key : String) (now : ℤ)

def Action.Healthy : Action R → Prop
  | .fail _ | .restart _ | .flush => False
  | _ => True

def arrived (limiter : Limiter × Ensured) (now : ℤ) (member : String) : Phase :=
  match limiter.2 with
  | .disabled => .decided .disabled
  | .loading => .loading
  | .ready => .evaluating limiter.1.client.scriptSha now member

/-- EVALSHA: the client cannot encode None, and a script that is not in the cache is NOSCRIPT. -/
def evaluate (rule : Rule) (cache : List String) (sha : Option String) (now : ℤ) (member : String)
    (key : Key) : Tried × Key :=
  match sha with
  | none => (.raised, key)
  | some sha =>
    if sha ∈ cache then
      match script (rule.windowSeconds * 1000) rule.limit now member key with
      | (some reply, key) => (.answered reply, key)
      | (none, key) => (.raised, key)
    else (.raised, key)

def State.result (call : R → Call L) (s : State L R) (r : R) (sha : Option String) (now : ℤ)
    (member : String) : Tried × Key :=
  evaluate (call r).rule s.cache sha now member (s.keys (call r).key)

/-- Nothing has been asked yet; the server may hold anything. -/
structure Fresh (s : State L R) : Prop where
  limiters : ∀ l, s.limiters l = .freshMiddleware ∨ s.limiters l = .freshToken
  requests : ∀ r, s.requests r = .new

structure Sane (url digest : String) (s : State L R) : Prop where
  configured : ∀ l, (s.limiters l).Configured url
  sha : ∀ l sha, (s.limiters l).client.scriptSha = some sha → sha = digest
  loaded : ∀ r sha, s.requests r = .loaded sha → sha = digest

theorem Fresh.sane {url digest : String} {s : State L R} (h : Fresh s) : Sane url digest s := by
  refine ⟨?_, ?_, ?_⟩
  · intro l
    rcases h.limiters l with hl | hl <;> rw [hl]
    · exact Limiter.configured_middleware
    · exact Limiter.configured_token
  · intro l sha hsha
    rcases h.limiters l with hl | hl <;> rw [hl] at hsha <;> cases hsha
  · intro r sha hphase
    rw [h.requests r] at hphase
    cases hphase

namespace State

variable [DecidableEq R]

def put (s : State L R) (r : R) (phase : Phase) : State L R :=
  { s with requests := Function.update s.requests r phase }

variable {s : State L R} {r : R} {phase : Phase}

@[simp] theorem put_requests_self : (s.put r phase).requests r = phase := by simp [put]

theorem put_requests_of_ne {r' : R} (h : r' ≠ r) :
    (s.put r phase).requests r' = s.requests r' := by
  simp [put, h]

variable [DecidableEq L] (call : R → Call L)

def setLimiter (s : State L R) (r : R) (l : Limiter) : State L R :=
  { s with limiters := Function.update s.limiters (call r).limiter l }

def arrive (url : String) (s : State L R) (r : R) (now : ℤ) (member : String) : State L R :=
  let limiter := (s.limiters (call r).limiter).ensureRedis (some url)
  (s.setLimiter call r limiter.1).put r (arrived limiter now member)

def load (digest : String) (s : State L R) (r : R) : State L R :=
  { s with cache := digest :: s.cache }.put r (.loaded digest)

def keep (s : State L R) (r : R) (sha : String) (now : ℤ) (member : String) : State L R :=
  let limiter := (s.limiters (call r).limiter).setScriptSha sha
  (s.setLimiter call r limiter).put r (.evaluating (some sha) now member)

def evaluated (s : State L R) (r : R) (sha : Option String) (now : ℤ) (member : String) :
    State L R :=
  let result := s.result call r sha now member
  { s with keys := Function.update s.keys (call r).key result.2 }.put r (.replied result.1)

end State

variable [DecidableEq L] [DecidableEq R]

def step (url digest : String) (call : R → Call L) (s : State L R) :
    Action R → Option (State L R)
  | .arrive r now member => match s.requests r with
    | .new => some (s.arrive call url r now member)
    | _ => none
  | .execute r => match s.requests r with
    | .loading => some (s.load digest r)
    | .evaluating sha now member => some (s.evaluated call r sha now member)
    | _ => none
  | .resume r now member => match s.requests r with
    | .loaded sha => some (s.keep call r sha now member)
    | .replied x => some (s.put r (.decided x))
    | _ => none
  | .fail r => match s.requests r with
    | .new | .decided _ => none
    | _ => some (s.put r (.decided .raised))
  | .restart keys => some { s with cache := [], keys }
  | .flush => some { s with cache := [] }
  | .expire key now =>
    (SlidingWindow.step 0 0 (s.keys key) (.expire now)).map fun expired =>
      { s with keys := Function.update s.keys key expired }

section Steps

variable {url digest : String} {call : R → Call L} {s u : State L R} {a : Action R} {r : R}

inductive Effect (url digest : String) (call : R → Call L) (s : State L R) :
    Action R → State L R → Prop
  | arrive {r : R} {now : ℤ} {member : String} (h : s.requests r = .new) :
      Effect url digest call s (.arrive r now member) (s.arrive call url r now member)
  | load {r : R} (h : s.requests r = .loading) :
      Effect url digest call s (.execute r) (s.load digest r)
  | evaluate {r : R} {sha : Option String} {now : ℤ} {member : String}
      (h : s.requests r = .evaluating sha now member) :
      Effect url digest call s (.execute r) (s.evaluated call r sha now member)
  | keep {r : R} {now : ℤ} {member sha : String} (h : s.requests r = .loaded sha) :
      Effect url digest call s (.resume r now member) (s.keep call r sha now member)
  | decide {r : R} {now : ℤ} {member : String} {x : Tried} (h : s.requests r = .replied x) :
      Effect url digest call s (.resume r now member) (s.put r (.decided x))
  | fail {r : R} : Effect url digest call s (.fail r) (s.put r (.decided .raised))
  | restart (keys : String → Key) :
      Effect url digest call s (.restart keys) { s with cache := [], keys }
  | flush : Effect url digest call s .flush { s with cache := [] }
  | expire {key : String} {now : ℤ} {expired : Key} :
      Effect url digest call s (.expire key now)
        { s with keys := Function.update s.keys key expired }

theorem step_effect (h : step url digest call s a = some u) : Effect url digest call s a u := by
  cases a with
  | arrive r now member =>
    simp only [step] at h
    split at h
    · rename_i hnew
      obtain rfl := Option.some.inj h
      exact .arrive hnew
    · simp at h
  | execute r =>
    simp only [step] at h
    split at h
    · rename_i hloading
      obtain rfl := Option.some.inj h
      exact .load hloading
    · rename_i hevaluating
      obtain rfl := Option.some.inj h
      exact .evaluate hevaluating
    · simp at h
  | resume r now member =>
    simp only [step] at h
    split at h
    · rename_i hloaded
      obtain rfl := Option.some.inj h
      exact .keep hloaded
    · rename_i hreplied
      obtain rfl := Option.some.inj h
      exact .decide hreplied
    · simp at h
  | fail r =>
    simp only [step] at h
    split at h
    · simp at h
    · simp at h
    · obtain rfl := Option.some.inj h
      exact .fail
  | restart keys =>
    obtain rfl := Option.some.inj h
    exact .restart keys
  | flush =>
    obtain rfl := Option.some.inj h
    exact .flush
  | expire key now =>
    obtain ⟨expired, -, rfl⟩ := Option.map_eq_some_iff.mp h
    exact .expire

theorem Sane.keeps (h : Sane url digest s) (hstep : step url digest call s a = some u) :
    Sane url digest u := by
  have hput {s : State L R} {r : R} {phase : Phase} (h : Sane url digest s)
      (hloaded : ∀ sha, phase = .loaded sha → sha = digest) : Sane url digest (s.put r phase) := by
    refine ⟨h.configured, h.sha, ?_⟩
    intro r' sha hphase
    by_cases hr : r' = r
    · subst hr
      exact hloaded sha (by simpa using hphase)
    · exact h.loaded r' sha (by rwa [State.put_requests_of_ne hr] at hphase)
  have hset {r : R} {l : Limiter} (hurl : l.Configured url)
      (hsha : ∀ sha, l.client.scriptSha = some sha → sha = digest) :
      Sane url digest (s.setLimiter call r l) := by
    refine ⟨?_, ?_, h.loaded⟩ <;> intro l'
    · by_cases hl : l' = (call r).limiter
      · simpa [State.setLimiter, hl] using hurl
      · simpa [State.setLimiter, hl] using h.configured l'
    · by_cases hl : l' = (call r).limiter
      · simpa [State.setLimiter, hl] using hsha
      · simpa [State.setLimiter, hl] using h.sha l'
  cases step_effect hstep with
  | @arrive r now member hnew =>
    obtain ⟨hurl, hclient, hensured⟩ := (h.configured (call r).limiter).ensureRedis
    refine hput (hset hurl ?_) ?_
    · intro sha hsha
      refine h.sha (call r).limiter sha ?_
      rw [hclient] at hsha
      unfold Client.ensure at hsha
      split at hsha <;> exact hsha
    · intro sha hphase
      unfold arrived at hphase
      split at hphase <;> simp at hphase
  | load hloading => exact hput ⟨h.configured, h.sha, h.loaded⟩ (by simp)
  | evaluate hevaluating => exact hput ⟨h.configured, h.sha, h.loaded⟩ (by simp)
  | @keep r now member sha hloaded =>
    refine hput (hset (h.configured _).setScriptSha ?_) (by simp)
    intro sha' hsha'
    obtain rfl : sha = sha' := by simpa using hsha'
    exact h.loaded r sha hloaded
  | decide hreplied => exact hput h (by simp)
  | fail => exact hput h (by simp)
  | restart keys => exact ⟨h.configured, h.sha, h.loaded⟩
  | flush => exact ⟨h.configured, h.sha, h.loaded⟩
  | expire => exact ⟨h.configured, h.sha, h.loaded⟩

end Steps

end Hooktrace.RateLimit
