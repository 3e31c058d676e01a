import Hooktrace.RateLimit

/-!
What the rate limiters do once Redis answers everything again, whatever happened before. Requests
that find the client without the hash, or the server without the script, are left to the fail
mode for good.
-/
namespace Hooktrace.RateLimitRecovery

open Transition RateLimit
open SlidingWindow (Key absent script script_allows script_rejects)

variable {L R : Type*}

def request : Action R → Option R
  | .arrive r _ _ | .execute r | .resume r _ _ | .fail r => some r
  | _ => none

def Arrives (r : R) (m : Move (State L R) (Action R)) : Prop :=
  ∃ now member, m.act = .arrive r now member

/-- The server executes the EVALSHA of the request. -/
def Evaluates (r : R) (m : Move (State L R) (Action R)) : Prop :=
  m.act = .execute r ∧ ∃ sha now member, m.pre.requests r = .evaluating sha now member

def ByWindow (call : R → Call L) (r : R) (ms : History (State L R) (Action R)) (x : Tried) :
    Prop :=
  ∃ e ∈ ms, ∃ sha now member reply, e.act = .execute r ∧
    e.pre.requests r = .evaluating sha now member ∧
    (script ((call r).rule.windowSeconds * 1000) (call r).rule.limit now member
      (e.pre.keys (call r).key)).1 = some reply ∧
    x = .answered reply

/-- The request comes before the limiter has a client. -/
def First (call : R → Call L) (r : R) (m : Move (State L R) (Action R)) : Prop :=
  (m.pre.limiters (call r).limiter).client.redis = false

def Hashed (call : R → Call L) (r : R) (m : Move (State L R) (Action R)) : Prop :=
  (m.pre.limiters (call r).limiter).client.scriptSha ≠ none

/-- The condition on a request that comes in the move `m`. -/
def Served (digest : String) (call : R → Call L) (r : R)
    (ms : History (State L R) (Action R)) (m : Move (State L R) (Action R)) : Prop :=
  First call r m ∨ Hashed call r m ∧ ∀ e ∈ ms, Evaluates r e → digest ∈ e.pre.cache

/-- Either the window has decided, or the request is left to the fail mode. -/
def Settled (digest : String) (call : R → Call L) (r : R)
    (ms : History (State L R) (Action R)) (m : Move (State L R) (Action R)) (x : Tried) : Prop :=
  Served digest call r ms m ∧ ByWindow call r ms x ∨
    ¬ Served digest call r ms m ∧ x = .raised

inductive Stage (digest : String) (call : R → Call L) (r : R)
    (ms : History (State L R) (Action R)) (m : Move (State L R) (Action R))
    (cache : List String) : Phase → Prop
  | loading (hfirst : First call r m) (hnone : ∀ e ∈ ms, ¬ Evaluates r e) :
      Stage digest call r ms m cache .loading
  | loaded {sha : String} (hfirst : First call r m) (hnone : ∀ e ∈ ms, ¬ Evaluates r e)
      (hcached : digest ∈ cache) : Stage digest call r ms m cache (.loaded sha)
  | hash {now : ℤ} {member : String} (hnone : ∀ e ∈ ms, ¬ Evaluates r e)
      (h : First call r m ∧ digest ∈ cache ∨ ¬ First call r m ∧ Hashed call r m) :
      Stage digest call r ms m cache (.evaluating (some digest) now member)
  | noHash {now : ℤ} {member : String} (hfirst : ¬ First call r m) (hhash : ¬ Hashed call r m) :
      Stage digest call r ms m cache (.evaluating none now member)
  | replied {x : Tried} (h : Settled digest call r ms m x) :
      Stage digest call r ms m cache (.replied x)
  | decided {x : Tried} (h : Settled digest call r ms m x) :
      Stage digest call r ms m cache (.decided x)

section Stages

variable {digest : String} {call : R → Call L} {r : R}
variable {ms : History (State L R) (Action R)} {m e : Move (State L R) (Action R)}

/-- A script in the cache answers, whatever its key holds. -/
theorem evaluate_cached (rule : Rule) {cache : List String} (h : digest ∈ cache) (now : ℤ)
    (member : String) (key : Key) :
    ∃ reply, (script (rule.windowSeconds * 1000) rule.limit now member key).1 = some reply ∧
      (evaluate rule cache (some digest) now member key).1 = .answered reply := by
  have hanswers : ∃ reply key', script (rule.windowSeconds * 1000) rule.limit now member key =
      (some reply, key') := by
    by_cases hroom : (key.set.removeUpTo (now - rule.windowSeconds * 1000)).card < rule.limit
    · exact ⟨_, _, script_allows member hroom⟩
    · obtain ⟨oldest, -, hscript⟩ := script_rejects member rule.limit_pos (not_lt.mp hroom)
      exact ⟨_, _, hscript⟩
  obtain ⟨reply, key', hscript⟩ := hanswers
  exact ⟨reply, by rw [hscript], by simp [evaluate, h, hscript]⟩

theorem evaluate_uncached {rule : Rule} {cache : List String} (h : digest ∉ cache) (now : ℤ)
    (member : String) (key : Key) :
    (evaluate rule cache (some digest) now member key).1 = .raised := by
  simp [evaluate, h]

theorem ByWindow.mono {x : Tried} (h : ByWindow call r ms x) : ByWindow call r (e :: ms) x := by
  obtain ⟨e', he', hmove⟩ := h
  exact ⟨e', List.mem_cons_of_mem _ he', hmove⟩

theorem ByWindow.ne_raised {x : Tried} (h : ByWindow call r ms x) : x ≠ .raised := by
  obtain ⟨e, -, sha, now, member, reply, -, -, -, rfl⟩ := h
  simp

theorem served_cons_of_not (h : ¬ Evaluates r e) :
    Served digest call r (e :: ms) m ↔ Served digest call r ms m := by
  simp [Served, h]

/-- Moves of other requests while the cache only grows. -/
theorem Stage.skip {cache cache' : List String} {phase : Phase}
    (h : Stage digest call r ms m cache phase) (hsub : cache ⊆ cache') (he : ¬ Evaluates r e) :
    Stage digest call r (e :: ms) m cache' phase := by
  have hnone (hms : ∀ e ∈ ms, ¬ Evaluates r e) : ∀ e' ∈ e :: ms, ¬ Evaluates r e' :=
    List.forall_mem_cons.mpr ⟨he, hms⟩
  have houtcome {x : Tried} (h : Settled digest call r ms m x) :
      Settled digest call r (e :: ms) m x := by
    rw [Settled, served_cons_of_not he]
    exact h.imp (And.imp_right ByWindow.mono) id
  cases h with
  | loading hfirst hms => exact .loading hfirst (hnone hms)
  | loaded hfirst hms hcached => exact .loaded hfirst (hnone hms) (hsub hcached)
  | hash hms h => exact .hash (hnone hms) (h.imp (And.imp_right fun hcached => hsub hcached) id)
  | noHash hfirst hhash => exact .noHash hfirst hhash
  | replied h => exact .replied (houtcome h)
  | decided h => exact .decided (houtcome h)

theorem stage_evaluated {now : ℤ} {member : String} (hnone : ∀ e ∈ ms, ¬ Evaluates r e)
    (h : First call r m ∧ digest ∈ e.pre.cache ∨ ¬ First call r m ∧ Hashed call r m)
    (hphase : e.pre.requests r = .evaluating (some digest) now member)
    (hact : e.act = .execute r) :
    Stage digest call r (e :: ms) m e.pre.cache
      (.replied (e.pre.result call r (some digest) now member).1) := by
  refine .replied ?_
  by_cases hcached : digest ∈ e.pre.cache
  · obtain ⟨reply, hscript, hresult⟩ := evaluate_cached (call r).rule hcached now member
      (e.pre.keys (call r).key)
    refine Or.inl ⟨?_, _, List.mem_cons_self, _, now, member, reply, hact, hphase, hscript, hresult⟩
    refine h.imp And.left fun hhash => ⟨hhash.2, ?_⟩
    exact List.forall_mem_cons.mpr ⟨fun _ => hcached, fun e he h => absurd h (hnone e he)⟩
  · refine Or.inr ⟨?_, evaluate_uncached hcached now member _⟩
    intro hserved
    obtain ⟨hfirst, -⟩ := h.resolve_left fun hfirst => hcached hfirst.2
    have hcache := (hserved.resolve_left hfirst).2
    exact hcached (hcache _ List.mem_cons_self ⟨hact, _, now, member, hphase⟩)

end Stages

variable [DecidableEq L] [DecidableEq R]

section Requests

variable {url digest : String} {call : R → Call L} {s u : State L R} {a : Action R} {r : R}
variable {ms : History (State L R) (Action R)} {m e : Move (State L R) (Action R)}

theorem requests_of_ne (h : Effect url digest call s a u) (hr : request a ≠ some r) :
    u.requests r = s.requests r := by
  cases h with
  | restart | flush | expire => rfl
  | arrive | load | evaluate | keep | decide | fail =>
    have hne : r ≠ _ := fun heq => hr (congrArg some heq.symm)
    exact State.put_requests_of_ne hne

theorem cache_subset (h : Effect url digest call s a u) (ha : a.Healthy) :
    s.cache ⊆ u.cache := by
  cases h with
  | arrive | evaluate | keep | decide | expire => exact List.Subset.refl _
  | load => exact List.subset_cons_self _ _
  | fail | restart | flush => exact ha.elim

theorem Stage.own (h : Stage digest call r ms m s.cache (s.requests r)) (hsane : Sane url digest s)
    (hstep : Effect url digest call s a u) (hr : request a = some r) (ha : a.Healthy) :
    Stage digest call r (⟨s, a, u⟩ :: ms) m u.cache (u.requests r) := by
  have hnot (hother : ∀ sha now member, s.requests r ≠ .evaluating sha now member) :
      ¬ Evaluates r ⟨s, a, u⟩ := by
    intro he
    obtain ⟨-, sha, now, member, hevaluating⟩ := he
    exact hother sha now member hevaluating
  cases hstep with
  | arrive hnew =>
    obtain rfl := Option.some.inj hr
    rw [hnew] at h
    cases h
  | load hloading =>
    obtain rfl := Option.some.inj hr
    rw [hloading] at h
    cases h with
    | loading hfirst hms =>
      rw [State.load, State.put_requests_self]
      have hnone : ∀ e ∈ _ :: ms, ¬ Evaluates _ e :=
        List.forall_mem_cons.mpr ⟨hnot (by simp [hloading]), hms⟩
      exact .loaded hfirst hnone List.mem_cons_self
  | evaluate hevaluating =>
    obtain rfl := Option.some.inj hr
    rw [hevaluating] at h
    rw [State.evaluated, State.put_requests_self]
    cases h with
    | hash hms h => exact stage_evaluated hms h hevaluating rfl
    | noHash hfirst hhash =>
      refine .replied (Or.inr ⟨?_, rfl⟩)
      intro hserved
      exact hhash (hserved.resolve_left hfirst).1
  | keep hloaded =>
    obtain rfl := Option.some.inj hr
    obtain rfl := hsane.loaded _ _ hloaded
    rw [hloaded] at h
    cases h with
    | loaded hfirst hms hcached =>
      rw [State.keep, State.put_requests_self]
      have hnone : ∀ e ∈ _ :: ms, ¬ Evaluates _ e :=
        List.forall_mem_cons.mpr ⟨hnot (by simp [hloaded]), hms⟩
      exact .hash hnone (Or.inl ⟨hfirst, hcached⟩)
  | decide hreplied =>
    obtain rfl := Option.some.inj hr
    have hother := hnot (by simp [hreplied])
    rw [hreplied] at h
    cases h.skip (List.Subset.refl _) hother with
    | replied h =>
      rw [State.put_requests_self]
      exact .decided h
  | fail => exact ha.elim
  | restart | flush | expire => simp [request] at hr

theorem Stage.move (h : Stage digest call r ms m s.cache (s.requests r))
    (hsane : Sane url digest s) (hstep : Effect url digest call s a u) (ha : a.Healthy) :
    Stage digest call r (⟨s, a, u⟩ :: ms) m u.cache (u.requests r) := by
  by_cases hr : request a = some r
  · exact h.own hsane hstep hr ha
  · rw [requests_of_ne hstep hr]
    refine h.skip (cache_subset hstep ha) ?_
    intro he
    obtain ⟨hact, -⟩ := he
    exact hr (congrArg request hact)

/-- What a limiter does with a request that comes in. -/
theorem stage_arrive (hsane : Sane url digest m.pre) {now : ℤ} {member : String}
    (hact : m.act = .arrive r now member) (hnone : ∀ e ∈ ms, ¬ Evaluates r e) :
    Stage digest call r (m :: ms) m m.pre.cache
      ((m.pre.arrive call url r now member).requests r) := by
  obtain ⟨-, hclient, hensured⟩ := (hsane.configured (call r).limiter).ensureRedis
  have hms : ∀ e ∈ m :: ms, ¬ Evaluates r e :=
    List.forall_mem_cons.mpr ⟨by simp [Evaluates, hact], hnone⟩
  rw [State.arrive, State.put_requests_self, arrived, hclient, hensured]
  cases hredis : (m.pre.limiters (call r).limiter).client.redis with
  | false =>
    simp only [Client.ensure, hredis]
    exact .loading hredis hms
  | true =>
    have hfirst : ¬ First call r m := by
      simp [First, hredis]
    simp only [Client.ensure, hredis, if_true]
    cases hsha : (m.pre.limiters (call r).limiter).client.scriptSha with
    | none => exact .noHash hfirst (by simp [Hashed, hsha])
    | some sha =>
      obtain rfl := hsane.sha _ _ hsha
      exact .hash hms (Or.inr ⟨hfirst, by simp [Hashed, hsha]⟩)

end Requests

structure Followed (url digest : String) (call : R → Call L) (r : R)
    (ms : History (State L R) (Action R)) (s : State L R) : Prop where
  sane : Sane url digest s
  waiting : s.requests r = .new → ∀ e ∈ ms, ¬ Evaluates r e
  stage : ∀ m ∈ ms, Arrives r m → Stage digest call r ms m s.cache (s.requests r)

section Runs

variable {url digest : String} {call : R → Call L} {s₀ s t u : State L R} {a : Action R} {r : R}
variable {ms : History (State L R) (Action R)}

theorem run_sane (h : Run (Steps (step url digest call)) s ms t) (hsane : Sane url digest s) :
    Sane url digest t :=
  h.invariant hsane fun _ _ _ hsane hstep => hsane.keeps hstep

/-- No step makes a request new again. -/
theorem not_new (h : Effect url digest call s a u) (hnew : u.requests r = .new) :
    s.requests r = .new ∧ request a ≠ some r := by
  have hother : request a ≠ some r := by
    intro hr
    cases h with
    | arrive => 
      obtain rfl := Option.some.inj hr
      rw [State.arrive, State.put_requests_self, arrived] at hnew
      split at hnew <;> cases hnew
    | load | evaluate | keep | decide | fail =>
      obtain rfl := Option.some.inj hr
      simp [State.load, State.evaluated, State.keep] at hnew
    | restart | flush | expire => cases hr
  rw [requests_of_ne h hother] at hnew
  exact ⟨hnew, hother⟩

theorem Followed.move (h : Followed url digest call r ms s) (ha : a.Healthy)
    (hstep : step url digest call s a = some u) :
    Followed url digest call r (⟨s, a, u⟩ :: ms) u := by
  have heffect := step_effect hstep
  refine ⟨h.sane.keeps hstep, ?_, ?_⟩
  · intro hnew
    obtain ⟨hbefore, hother⟩ := not_new heffect hnew
    refine List.forall_mem_cons.mpr ⟨?_, h.waiting hbefore⟩
    intro he
    exact hother (congrArg request he.1)
  · intro m hm harrives
    rcases List.mem_cons.mp hm with hlast | hpast
    · subst hlast
      obtain ⟨now, member, hact⟩ := harrives
      obtain rfl : a = .arrive r now member := hact
      cases heffect with
      | arrive hnew => exact stage_arrive h.sane rfl (h.waiting hnew)
    · exact (h.stage m hpast harrives).move h.sane heffect ha

theorem run_followed (h : Run (Steps (step url digest call)) s ms t) (hsane : Sane url digest s)
    (hhealthy : ∀ m ∈ ms, m.act.Healthy) (r : R) : Followed url digest call r ms t :=
  (h.guarded (P := fun _ _ => True) ⟨hsane, by simp, by simp⟩
    (fun _ _ _ _ hfollowed ha hstep => ⟨trivial, hfollowed.move ha hstep⟩)
    (always_iff_forall_mem.mpr hhealthy)).2

theorem Stage.next {m : Move (State L R) (Action R)} {cache : List String}
    (h : Stage digest call r ms m cache (t.requests r)) :
    (∃ x, t.requests r = .decided x) ∨
      ∃ a, request a = some r ∧ a.Healthy ∧ (step url digest call t a).isSome := by
  cases hphase : t.requests r with
  | new =>
    rw [hphase] at h
    cases h
  | loading => exact Or.inr ⟨.execute r, rfl, trivial, by simp [step, hphase]⟩
  | loaded sha => exact Or.inr ⟨.resume r 0 "", rfl, trivial, by simp [step, hphase]⟩
  | evaluating sha now member =>
    exact Or.inr ⟨.execute r, rfl, trivial, by simp [step, hphase]⟩
  | replied x => exact Or.inr ⟨.resume r 0 "", rfl, trivial, by simp [step, hphase]⟩
  | decided x => exact Or.inl ⟨x, rfl⟩

/-- While Redis answers everything, the window decides exactly the requests that come before
there is a client, or that find the hash and a server with the script; the fail mode decides the
others. -/
theorem window_decides_iff {before after : History (State L R) (Action R)} (hfresh : Fresh s₀)
    (hbefore : Run (Steps (step url digest call)) s₀ before s)
    (hafter : Run (Steps (step url digest call)) s after t)
    (hhealthy : ∀ m ∈ after, m.act.Healthy) {m : Move (State L R) (Action R)} (hm : m ∈ after)
    (harrives : Arrives r m) :
    (∀ x, t.requests r = .decided x →
      (ByWindow call r after x ↔ Served digest call r after m) ∧
      (.redisError (call r).rule.name ∈ (respond (call r).rule x).2 ↔
        ¬ Served digest call r after m)) ∧
    ((∃ x, t.requests r = .decided x) ∨
      ∃ a, request a = some r ∧ a.Healthy ∧ (step url digest call t a).isSome) := by
  have hsane := run_sane hbefore hfresh.sane
  have hstage := (run_followed hafter hsane hhealthy r).stage m hm harrives
  refine ⟨?_, hstage.next⟩
  intro x hdecided
  rw [hdecided] at hstage
  rw [respond_redisError]
  cases hstage with
  | decided h =>
    rcases h with ⟨hserved, hwindow⟩ | ⟨hnot, hraised⟩
    · exact ⟨iff_of_true hwindow hserved, iff_of_false hwindow.ne_raised (not_not_intro hserved)⟩
    · exact ⟨iff_of_false (fun h => h.ne_raised hraised) hnot, iff_of_true hraised hnot⟩

end Runs

/-- The capture surface: `"/h/"`, 100 a minute, fail closed. -/
def ingestRule : Rule := ⟨"ingest", 100, 60, .failClosed, by decide⟩

def ingestCall : Call Unit := ⟨(), ingestRule, "rl:ingest:203.0.113.7"⟩

def started : State Unit ℕ where
  limiters _ := .freshMiddleware
  cache := []
  keys _ := absent
  requests _ := .new

theorem fresh_started : Fresh started := ⟨fun _ => Or.inl rfl, fun _ => rfl⟩

example : middlewareCall () [("/h/", ingestRule)] "/h/tok" "203.0.113.7" = some ingestCall := rfl

def firstRequest : List (Action ℕ) :=
  [.arrive 0 1000 "a", .execute 0, .resume 0 1001 "b", .execute 0, .resume 0 1002 "c"]

theorem first_served : ∃ after t,
    Run (Steps (step "redis://cache" "sha" fun _ => ingestCall)) started after t ∧
      t.requests 0 = .decided (.answered ⟨true, 1, 0⟩) ∧
      ByWindow (fun _ => ingestCall) 0 after (.answered ⟨true, 1, 0⟩) := by
  have hafter := Run.of_play
    (Eq.refl (play (step "redis://cache" "sha" fun _ => ingestCall) [] started firstRequest))
  have hdecides := (window_decides_iff fresh_started .nil hafter
    (by simp [Action.Healthy])
    (List.getLast_mem (by simp)) (r := 0) ⟨1000, "a", rfl⟩).1 _ rfl
  exact ⟨_, _, hafter, rfl, hdecides.1.mpr (Or.inl rfl)⟩

def lost : State Unit ℕ :=
  (started.arrive (fun _ => ingestCall) "redis://cache" 0 1000 "a").put 0 (.decided .raised)

/-- Redis answers everything from then on, and is not asked. -/
theorem lost_load : ¬ ∀ (url digest : String) (call : ℕ → Call Unit)
    (before after : History (State Unit ℕ) (Action ℕ)) (s₀ s t : State Unit ℕ)
    (m : Move (State Unit ℕ) (Action ℕ)) (r : ℕ) (x : Tried), Fresh s₀ →
    Run (Steps (step url digest call)) s₀ before s →
    Run (Steps (step url digest call)) s after t → (∀ m ∈ after, m.act.Healthy) →
    m ∈ after → Arrives r m → t.requests r = .decided x → ByWindow call r after x := by
  intro hclaim
  have hbefore := Run.of_play (Eq.refl (play (step "redis://cache" "sha" fun _ => ingestCall) []
    started [.arrive 0 1000 "a", .fail 0]))
  have hafter := Run.of_play (Eq.refl (play (step "redis://cache" "sha" fun _ => ingestCall) []
    lost [.arrive 1 9000 "b", .execute 1, .resume 1 9001 "c"]))
  have hwindow := hclaim _ _ _ _ _ _ _ _ _ 1 .raised fresh_started hbefore hafter
    (by simp [Action.Healthy])
    (List.getLast_mem (by simp)) ⟨9000, "b", rfl⟩ rfl
  exact hwindow.ne_raised rfl

end Hooktrace.RateLimitRecovery
