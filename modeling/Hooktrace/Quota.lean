import Hooktrace.PyText
import Hooktrace.RateLimitRecovery
import Hooktrace.SkewedClocks

/-!
The limits of the deployment, over all processes and requests in flight at once. Every caller is
counted on a key of its own, so that a run of the limiters is on each key a run of the script
(`run_key`); the clocks of the processes may disagree.
-/
namespace Hooktrace.Quota

open Transition RateLimit SkewedClocks
open RateLimitRecovery (ingestRule request evaluate_cached)
open SlidingWindow (Key absent script admission admissions)

/-- The owner's side: `"/api/endpoints/"`, 300 a minute, fail open. -/
def apiRule : Rule := ⟨"api", 300, 60, .failOpen, by decide⟩

def ingestorRules : List (String × Rule) := [("/h/", ingestRule)]

def appRules : List (String × Rule) := [("/api/endpoints/", apiRule)]

def captureLimitPerHour : ℕ := 1000

def replayLimitPerHour : ℕ := 10

def rateLimitWindowSeconds1h : ℕ := 3600

theorem captureLimit_pos : 1 ≤ captureLimitPerHour := by decide

theorem replayLimit_pos : 1 ≤ replayLimitPerHour := by decide

variable {L R : Type*}

/-- What the middleware and the routes ask. -/
inductive Deployed : Call L → Prop
  | ingest {call : Call L} (l : L) (path clientIp : String)
      (h : middlewareCall l ingestorRules path clientIp = some call) : Deployed call
  | api {call : Call L} (l : L) (path clientIp : String)
      (h : middlewareCall l appRules path clientIp = some call) : Deployed call
  | capture (l : L) (token : String) :
      Deployed (tokenCall l token "capture" captureLimitPerHour rateLimitWindowSeconds1h
        captureLimit_pos)
  | replay (l : L) (token : String) :
      Deployed (tokenCall l token "replay" replayLimitPerHour rateLimitWindowSeconds1h
        replayLimit_pos)

section Keys

def captureRule : Rule :=
  ⟨"capture", captureLimitPerHour, rateLimitWindowSeconds1h, .failOpen, captureLimit_pos⟩

def replayRule : Rule :=
  ⟨"replay", replayLimitPerHour, rateLimitWindowSeconds1h, .failOpen, replayLimit_pos⟩

def rules : List Rule := [ingestRule, apiRule, captureRule, replayRule]

theorem ruleName_notMem {rule : Rule} (h : rule ∈ rules) : ':' ∉ rule.name.toList := by
  simp only [rules, List.mem_cons, List.not_mem_nil, or_false] at h
  rcases h with rfl | rfl | rfl | rfl <;>
    simp [ingestRule, apiRule, captureRule, replayRule]

theorem rule_eq_of_name {rule rule' : Rule} (h : rule ∈ rules) (h' : rule' ∈ rules)
    (hname : rule.name = rule'.name) : rule = rule' := by
  simp only [rules, List.mem_cons, List.not_mem_nil, or_false] at h h'
  rcases h with rfl | rfl | rfl | rfl <;> rcases h' with rfl | rfl | rfl | rfl <;>
    first
    | rfl
    | simp [ingestRule, apiRule, captureRule, replayRule] at hname

theorem middlewareCall_single {l : L} {start path clientIp : String} {rule : Rule} {call : Call L}
    (h : middlewareCall l [(start, rule)] path clientIp = some call) :
    call = ⟨l, rule, s!"rl:{rule.name}:{clientIp}"⟩ := by
  obtain ⟨found, hfound, rfl⟩ := Option.map_eq_some_iff.mp h
  obtain ⟨entry, hentry, rfl⟩ := Option.map_eq_some_iff.mp hfound
  rw [List.mem_singleton.mp (List.mem_of_find?_eq_some hentry)]

/-- A key is made of the rule's name and of whom it limits. -/
theorem Deployed.key_eq {call : Call L} (h : Deployed call) :
    call.rule ∈ rules ∧ ∃ subject : String, call.key = s!"rl:{call.rule.name}:{subject}" := by
  cases h with
  | ingest l path clientIp h =>
    obtain rfl := middlewareCall_single h
    exact ⟨by simp [rules], clientIp, rfl⟩
  | api l path clientIp h =>
    obtain rfl := middlewareCall_single h
    exact ⟨by simp [rules], clientIp, rfl⟩
  | capture l token => exact ⟨by simp [rules, tokenCall, captureRule], token, rfl⟩
  | replay l token => exact ⟨by simp [rules, tokenCall, replayRule], token, rfl⟩

theorem toList_key (name subject : String) :
    (s!"rl:{name}:{subject}").toList = "rl:".toList ++ (name.toList ++ ':' :: subject.toList) := by
  simp [toString, String.toList_append]

/-- Two calls on one key go by one rule. -/
theorem Deployed.rule_eq {call call' : Call L} (h : Deployed call) (h' : Deployed call')
    (hkey : call.key = call'.key) : call.rule = call'.rule := by
  obtain ⟨hrule, subject, hsubject⟩ := h.key_eq
  obtain ⟨hrule', subject', hsubject'⟩ := h'.key_eq
  rw [hsubject, hsubject'] at hkey
  have hlist := congrArg String.toList hkey
  rw [toList_key, toList_key] at hlist
  have hrest := List.append_cancel_left hlist
  have hcut := congrArg (fun text => (cut ':' text).1) hrest
  simp only [cut_append (ruleName_notMem hrule), cut_append (ruleName_notMem hrule')] at hcut
  exact rule_eq_of_name hrule hrule' (String.toList_inj.mp hcut)

end Keys

section Projection

/-- What a move does on one key: the EVALSHA of a request that has the hash of a script in the
cache, or an expiry. -/
def keyMove (call : R → Call L) (key : String) (m : Move (State L R) (Action R)) :
    Option (Move Key SlidingWindow.Action) :=
  match m.act with
  | .execute r => match m.pre.requests r with
    | .evaluating (some sha) now member =>
      if (call r).key = key ∧ sha ∈ m.pre.cache then
        some ⟨m.pre.keys key, .call now member, m.post.keys key⟩
      else none
    | _ => none
  | .expire key' now =>
    if key' = key then some ⟨m.pre.keys key, .expire now, m.post.keys key⟩ else none
  | _ => none

def keyHistory (call : R → Call L) (key : String) (ms : History (State L R) (Action R)) :
    History Key SlidingWindow.Action := ms.filterMap (keyMove call key)

/-- The server keeps its keys. -/
def KeepsKeys (m : Move (State L R) (Action R)) : Prop := ∀ keys, m.act ≠ .restart keys

/-- The request is let in by the script, at the reading of its clock. -/
def LetIn (call : R → Call L) (ms : History (State L R) (Action R)) (r : R) (now : ℤ) : Prop :=
  ∃ e ∈ ms, ∃ sha member reply, e.act = .execute r ∧
    e.pre.requests r = .evaluating (some sha) now member ∧ sha ∈ e.pre.cache ∧
    (script ((call r).rule.windowSeconds * 1000) (call r).rule.limit now member
      (e.pre.keys (call r).key)).1 = some reply ∧ reply.allowed = true

variable {url digest : String} {call : R → Call L} {key : String} {s t u : State L R}
variable {a : Action R} {r : R} {ms : History (State L R) (Action R)} [DecidableEq R]

omit [DecidableEq R] in
theorem evaluate_key (rule : Rule) {cache : List String} {sha : String} (h : sha ∈ cache) (now : ℤ)
    (member : String) (k : Key) : (evaluate rule cache (some sha) now member k).2 =
      (script (rule.windowSeconds * 1000) rule.limit now member k).2 := by
  obtain ⟨reply, hscript, -⟩ := evaluate_cached rule h now member k
  generalize hresult : script (rule.windowSeconds * 1000) rule.limit now member k = result
  obtain ⟨answer, k'⟩ := result
  rw [hresult] at hscript
  obtain rfl : answer = some reply := hscript
  simp [evaluate, h, hresult]

/-- The other keys stay; on this one the script runs, if it does. -/
theorem evaluated_key {sha : Option String} {now : ℤ} {member : String} {rule : Rule}
    (hrule : ∀ r, (call r).key = key → (call r).rule = rule)
    (hphase : s.requests r = .evaluating sha now member) :
    (keyMove call key ⟨s, .execute r, s.evaluated call r sha now member⟩ = none ∧
      (s.evaluated call r sha now member).keys key = s.keys key) ∨
    ∃ act, keyMove call key ⟨s, .execute r, s.evaluated call r sha now member⟩ =
        some ⟨s.keys key, act, (s.evaluated call r sha now member).keys key⟩ ∧
      SlidingWindow.step (rule.windowSeconds * 1000) rule.limit (s.keys key) act =
        some ((s.evaluated call r sha now member).keys key) := by
  have hkeys : (s.evaluated call r sha now member).keys =
      Function.update s.keys (call r).key (s.result call r sha now member).2 := rfl
  by_cases hkey : (call r).key = key
  · obtain rfl := hrule r hkey
    subst hkey
    cases sha with
    | none => exact Or.inl ⟨by simp [keyMove, hphase], by simp [hkeys, State.result, evaluate]⟩
    | some sha =>
      by_cases hcached : sha ∈ s.cache
      · refine Or.inr ⟨.call now member, by simp [keyMove, hphase, hcached], ?_⟩
        rw [hkeys, Function.update_self]
        exact congrArg some (evaluate_key _ hcached now member _).symm
      · refine Or.inl ⟨by simp [keyMove, hphase, hcached], ?_⟩
        simp [hkeys, State.result, evaluate, hcached]
  · refine Or.inl ⟨?_, ?_⟩
    · cases sha <;> simp [keyMove, hphase, hkey]
    · rw [hkeys, Function.update_of_ne (Ne.symm hkey)]

variable [DecidableEq L]

theorem key_step {rule : Rule} (hrule : ∀ r, (call r).key = key → (call r).rule = rule)
    (hstep : step url digest call s a = some u) (hkeeps : KeepsKeys ⟨s, a, u⟩) :
    (keyMove call key ⟨s, a, u⟩ = none ∧ u.keys key = s.keys key) ∨
    ∃ act, keyMove call key ⟨s, a, u⟩ = some ⟨s.keys key, act, u.keys key⟩ ∧
      SlidingWindow.step (rule.windowSeconds * 1000) rule.limit (s.keys key) act =
        some (u.keys key) := by
  by_cases hexpire : ∃ key' now, a = .expire key' now
  · obtain ⟨key', now, rfl⟩ := hexpire
    obtain ⟨expired, hexpired, rfl⟩ := Option.map_eq_some_iff.mp hstep
    by_cases hkey : key' = key
    · subst hkey
      refine Or.inr ⟨.expire now, by simp [keyMove], ?_⟩
      show _ = some (Function.update s.keys key' expired key')
      rw [Function.update_self, ← hexpired]
      rfl
    · refine Or.inl ⟨by simp [keyMove, hkey], ?_⟩
      exact Function.update_of_ne (Ne.symm hkey) _ _
  · cases step_effect hstep with
    | evaluate hphase => exact evaluated_key hrule hphase
    | load hloading => exact Or.inl ⟨by simp [keyMove, hloading], rfl⟩
    | restart keys => exact absurd rfl (hkeeps keys)
    | @expire key' now _ => exact absurd ⟨key', now, rfl⟩ hexpire
    | _ => exact Or.inl ⟨rfl, rfl⟩

/-- On one key, a run of the limiters is a run of the script. -/
theorem run_key {rule : Rule} (hrule : ∀ r, (call r).key = key → (call r).rule = rule)
    (h : Run (Steps (step url digest call)) s ms t) (hkeeps : ∀ m ∈ ms, KeepsKeys m) :
    Run (Steps (SlidingWindow.step (rule.windowSeconds * 1000) rule.limit)) (s.keys key)
      (keyHistory call key ms) (t.keys key) := by
  induction h with
  | nil => exact .nil
  | @move ms t u a _ hstep ih =>
    obtain ⟨hm, hms⟩ := List.forall_mem_cons.mp hkeeps
    have hbefore := ih hms
    rcases key_step hrule hstep hm with ⟨hnone, hsame⟩ | ⟨act, hsome, hact⟩
    · rw [keyHistory, List.filterMap_cons_none hnone, hsame]
      exact hbefore
    · rw [keyHistory, List.filterMap_cons_some hsome]
      exact hbefore.move hact

end Projection

section Requests

/-- The request that the script lets in on the key, with the reading of its clock. -/
def entrance (call : R → Call L) (key : String) (rule : Rule)
    (m : Move (State L R) (Action R)) : Option (R × ℤ) :=
  (keyMove call key m).bind fun k =>
    (admission (rule.windowSeconds * 1000) rule.limit k).bind fun now =>
      (request m.act).map fun r => (r, now)

variable {call : R → Call L} {key : String} {rule : Rule} {r : R} {now : ℤ}
variable {m : Move (State L R) (Action R)} {ms : History (State L R) (Action R)}

/-- Only requests are admitted. -/
theorem entrance_snd : (entrance call key rule m).map Prod.snd =
    (keyMove call key m).bind (admission (rule.windowSeconds * 1000) rule.limit) := by
  rw [entrance]
  cases hmove : keyMove call key m with
  | none => rfl
  | some k =>
    cases hadmission : admission (rule.windowSeconds * 1000) rule.limit k with
    | none => simp [hadmission]
    | some now =>
      obtain ⟨pre, act, post⟩ := m
      cases act with
      | execute r => simp [hadmission, request]
      | expire key' now' =>
        simp only [keyMove, Option.ite_none_right_eq_some, Option.some.injEq] at hmove
        obtain ⟨-, rfl⟩ := hmove
        simp [admission, SlidingWindow.reply] at hadmission
      | _ => simp [keyMove] at hmove

theorem entrances_snd : (ms.filterMap (entrance call key rule)).map Prod.snd =
    admissions (rule.windowSeconds * 1000) rule.limit (keyHistory call key ms) := by
  rw [admissions, keyHistory, List.filterMap_filterMap, List.map_filterMap]
  exact congrArg (fun f => ms.filterMap f) (funext fun _ => entrance_snd)

theorem LetIn.mem_entrances (h : LetIn call ms r now) :
    (r, now) ∈ ms.filterMap (entrance call (call r).key (call r).rule) := by
  obtain ⟨e, he, sha, member, reply, hact, hphase, hcached, hreply, hallowed⟩ := h
  apply List.mem_filterMap.mpr
  refine ⟨e, he, ?_⟩
  have hmove : keyMove call (call r).key e =
      some ⟨e.pre.keys (call r).key, .call now member, e.post.keys (call r).key⟩ := by
    simp [keyMove, hact, hphase, hcached]
  simp [entrance, hmove, admission, SlidingWindow.reply, hreply, hallowed, hact, request,
    SlidingWindow.Action.time]

theorem LetIn.mono (h : LetIn call ms r now) : LetIn call (m :: ms) r now := by
  obtain ⟨e, he, hmove⟩ := h
  exact ⟨e, List.mem_cons_of_mem _ he, hmove⟩

def Answered (s : State L R) (r : R) (reply : SlidingWindow.Reply) : Prop :=
  s.requests r = .replied (.answered reply) ∨ s.requests r = .decided (.answered reply)

theorem letIn_evaluated {s : State L R} {sha : Option String} {member : String}
    {reply : SlidingWindow.Reply} (hphase : s.requests r = .evaluating sha now member)
    (hanswer : (s.result call r sha now member).1 = .answered reply)
    (hallowed : reply.allowed = true) {u : State L R} :
    LetIn call (⟨s, .execute r, u⟩ :: ms) r now := by
  cases sha with
  | none => simp [State.result, evaluate] at hanswer
  | some sha =>
    by_cases hcached : sha ∈ s.cache
    · obtain ⟨reply', hscript, hresult⟩ := evaluate_cached (call r).rule hcached now member
        (s.keys (call r).key)
      obtain rfl : reply' = reply := by
        rw [State.result, hresult] at hanswer
        exact Tried.answered.inj hanswer
      exact ⟨_, List.mem_cons_self, sha, member, reply', rfl, hphase, hcached, hscript, hallowed⟩
    · simp [State.result, evaluate, hcached] at hanswer

variable [DecidableEq L] [DecidableEq R] {url digest : String} {s t u : State L R}

/-- A request that goes on with an answer had it before, or has just been evaluated. -/
theorem answered_step {a : Action R} {reply : SlidingWindow.Reply}
    (hstep : step url digest call s a = some u) (h : Answered u r reply)
    (hallowed : reply.allowed = true) :
    Answered s r reply ∨ ∃ now, LetIn call (⟨s, a, u⟩ :: ms) r now := by
  have hother (s' : State L R) {r' : R} {phase : Phase} (hs' : s'.requests = s.requests)
      (hput : Answered (s'.put r' phase) r reply)
      (hphase : r = r' → phase ≠ .replied (.answered reply) ∧ phase ≠ .decided (.answered reply)) :
      Answered s r reply := by
    by_cases hr : r = r'
    · subst hr
      obtain ⟨hreplied, hdecided⟩ := hphase rfl
      simp [Answered, hreplied, hdecided] at hput
    · simpa [Answered, State.put_requests_of_ne hr, hs'] using hput
  cases step_effect hstep with
  | @arrive r' now member hnew =>
    refine Or.inl (hother (s.setLimiter call r' _) rfl h fun _ => ?_)
    unfold arrived
    split <;> simp
  | load hloading => exact Or.inl (hother { s with cache := _ } rfl h (by simp))
  | @evaluate r' sha now member hphase =>
    by_cases hr : r = r'
    · subst hr
      have hanswer : (s.result call r sha now member).1 = .answered reply := by
        simpa [Answered, State.evaluated] using h
      exact Or.inr ⟨now, letIn_evaluated hphase hanswer hallowed⟩
    · exact Or.inl (hother { s with keys := _ } rfl h fun heq => absurd heq hr)
  | @keep r' now member sha hloaded =>
    exact Or.inl (hother (s.setLimiter call r' _) rfl h (by simp))
  | @decide r' now member x hreplied =>
    by_cases hr : r = r'
    · subst hr
      have hx : x = .answered reply := by simpa [Answered] using h
      exact Or.inl (Or.inl (hx ▸ hreplied))
    · exact Or.inl (hother s rfl h fun heq => absurd heq hr)
  | @fail r' => exact Or.inl (hother s rfl h (by simp))
  | restart keys => exact Or.inl h
  | flush => exact Or.inl h
  | expire => exact Or.inl h

theorem run_letIn {reply : SlidingWindow.Reply} (h : Run (Steps (step url digest call)) s ms t)
    (hnew : ∀ r, s.requests r = .new) (hallowed : reply.allowed = true)
    (hanswered : Answered t r reply) : ∃ now, LetIn call ms r now := by
  induction h with
  | nil => simp [Answered, hnew r] at hanswered
  | move _ hstep ih =>
    rcases answered_step hstep hanswered hallowed with hbefore | hnow
    · obtain ⟨now, hlet⟩ := ih hbefore
      exact ⟨now, hlet.mono⟩
    · exact hnow

/-- A request that passes by an answer was let in by the script; and in any window, shorter than
the rule's by twice the skew of the clocks, no more requests of one caller are let in than its
rule allows, whatever all the others do. -/
theorem quota_kept {skew : ℤ} (hskew : 0 ≤ skew) (hdeployed : ∀ r, Deployed (call r))
    (hrun : Run (Steps (step url digest call)) s ms t) (hnew : ∀ r, s.requests r = .new)
    (caller : R) (hempty : s.keys (call caller).key = absent) (hkeeps : ∀ m ∈ ms, KeepsKeys m)
    (htimely : Always (Timely skew) (keyHistory call (call caller).key ms)) :
    (∀ r reply, t.requests r = .decided (.answered reply) → reply.allowed = true →
      ∃ now, LetIn call ms r now) ∧
    ∀ (start : ℤ) (entered : List (R × ℤ)), entered.Nodup →
      (∀ p ∈ entered, (call p.1).key = (call caller).key ∧ LetIn call ms p.1 p.2 ∧
        start < p.2 ∧ p.2 ≤ start + ((call caller).rule.windowSeconds * 1000 - 2 * skew)) →
      entered.length ≤ (call caller).rule.limit := by
  refine ⟨fun r reply hdecided hallowed => run_letIn hrun hnew hallowed (Or.inr hdecided), ?_⟩
  intro start entered hnodup hentered
  have hrule : ∀ r, (call r).key = (call caller).key → (call r).rule = (call caller).rule :=
    fun r hkey => (hdeployed r).rule_eq (hdeployed caller) hkey
  have hscript := run_key hrule hrun hkeeps
  rw [hempty] at hscript
  have hcap := (run_covers hskew (call caller).rule.limit_pos hscript htimely).admitted.le_limit
    start
  have hsub : entered ⊆ (ms.filterMap (entrance call (call caller).key (call caller).rule)).filter
      fun p => start < p.2 ∧ p.2 ≤ start + ((call caller).rule.windowSeconds * 1000 - 2 * skew) := by
    intro p hp
    obtain ⟨hkey, hlet, hwindow⟩ := hentered p hp
    apply List.mem_filter.mpr
    refine ⟨?_, by simpa using hwindow⟩
    have hmem := hlet.mem_entrances
    rwa [hkey, hrule p.1 hkey] at hmem
  rw [← entrances_snd, List.countP_map] at hcap
  calc entered.length
      ≤ _ := (List.subperm_of_subset hnodup hsub).length_le
    _ = _ := List.countP_eq_length_filter.symm
    _ ≤ _ := hcap

end Requests

def twoCaptures : List (Action ℕ) :=
  [.arrive 0 1000 "a", .execute 0, .resume 0 1001 "b", .execute 0, .arrive 1 950 "c", .execute 1,
    .resume 1 1002 "d"]

theorem timely_captures (k₀ k₁ k₂ k₃ : Key) :
    Always (Timely 100) [⟨k₂, .call 950 "c", k₃⟩, ⟨k₀, .call 1001 "b", k₁⟩] := by
  simp [Timely, SlidingWindow.calledWith, SlidingWindow.Action.time]

theorem captures_kept : ∃ ms t,
    Run (Steps (step "redis://cache" "sha" fun _ => RateLimitRecovery.ingestCall))
      RateLimitRecovery.started ms t ∧
    (∃ now, LetIn (fun _ => RateLimitRecovery.ingestCall) ms 1 now) ∧
    ∀ (start : ℤ) (entered : List (ℕ × ℤ)), entered.Nodup →
      (∀ p ∈ entered, LetIn (fun _ => RateLimitRecovery.ingestCall) ms p.1 p.2 ∧
        start < p.2 ∧ p.2 ≤ start + 59800) → entered.length ≤ 100 := by
  have hrun := Run.of_play (Eq.refl (play
    (step "redis://cache" "sha" fun _ => RateLimitRecovery.ingestCall) []
    RateLimitRecovery.started twoCaptures))
  have hkept := quota_kept (show (0 : ℤ) ≤ 100 by decide)
    (fun _ => .ingest () "/h/tok" "203.0.113.7" rfl) hrun (fun _ => rfl) 0 rfl
    (by simp [KeepsKeys]) (timely_captures _ _ _ _)
  refine ⟨_, _, hrun, hkept.1 1 ⟨true, 2, 0⟩ rfl rfl, ?_⟩
  intro start entered hnodup hentered
  refine hkept.2 start entered hnodup fun p hp => ⟨rfl, ?_⟩
  obtain ⟨hlet, hafter, hbefore⟩ := hentered p hp
  refine ⟨hlet, hafter, ?_⟩
  simpa [RateLimitRecovery.ingestCall, ingestRule] using hbefore

end Hooktrace.Quota
