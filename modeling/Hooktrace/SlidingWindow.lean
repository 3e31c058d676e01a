import Hooktrace.SortedSet
import Hooktrace.Transition
import Hooktrace.WindowLimiter
import Mathlib.Data.String.Basic

/-!
The Lua script of the rate limiters on one key. What it leaves of the sorted set are the
admissions of the window that ends now, so that its decision is the one that the full history of
admissions gives.
-/
namespace Hooktrace.SlidingWindow

open Transition WindowLimiter

/-- The key in the store: its sorted set, and when it expires. Integers up to 2^53 are exact in
Lua; a key that is absent has an empty set. -/
structure Key where
  set : SortedSet ℤ String
  deadline : Option ℤ

def absent : Key := ⟨.empty, none⟩

/-- What the script returns: allowed, the count, and the seconds to wait. -/
structure Reply where
  allowed : Bool
  count : ℕ
  retryAfter : ℤ
  deriving DecidableEq

/-- `math.ceil(ms / 1000)`. -/
def ceilSeconds (ms : ℤ) : ℤ := -(-ms / 1000)

/-- `_LUA_SLIDING_WINDOW`; a reply that is absent is an arithmetic error on nil. -/
def script (window : ℤ) (limit : ℕ) (now : ℤ) (member : String) (key : Key) :
    Option Reply × Key :=
  let cutoff := now - window
  let kept := { key with set := key.set.removeUpTo cutoff }
  let count := kept.set.card
  if limit ≤ count then
    match kept.set.first with
    | some oldest =>
      let retryMs := ((ofLex oldest).1 + window) - now
      (some ⟨false, count, ceilSeconds retryMs⟩, kept)
    | none => (none, kept)
  else (some ⟨true, count + 1, 0⟩, ⟨kept.set.add now member, some (now + window)⟩)

inductive Action where
  | call (now : ℤ) (member : String)
  /-- The server drops the key. -/
  | expire (now : ℤ)

def Action.time : Action → ℤ
  | .call now _ => now
  | .expire now => now

def step (window : ℤ) (limit : ℕ) (key : Key) : Action → Option Key
  | .call now member => some (script window limit now member key).2
  | .expire now => match key.deadline with
    | none => none
    | some deadline => if deadline ≤ now then some absent else none

def reply (window : ℤ) (limit : ℕ) (m : Move Key Action) : Option Reply :=
  match m.act with
  | .call now member => (script window limit now member m.pre).1
  | .expire _ => none

def admission (window : ℤ) (limit : ℕ) (m : Move Key Action) : Option ℤ :=
  match reply window limit m with
  | some r => if r.allowed then some m.act.time else none
  | none => none

def admissions (window : ℤ) (limit : ℕ) (ms : History Key Action) : List ℤ :=
  ms.filterMap (admission window limit)

def calledWith (m : Move Key Action) : Option String :=
  match m.act with
  | .call _ member => some member
  | .expire _ => none

/-- Time does not run backwards, and every call has a member of its own. -/
def Orderly (past : History Key Action) (m : Move Key Action) : Prop :=
  (∀ p ∈ past, p.act.time ≤ m.act.time) ∧
    ∀ p ∈ past, calledWith m = none ∨ calledWith p ≠ calledWith m

instance (past : History Key Action) (m : Move Key Action) : Decidable (Orderly past m) :=
  inferInstanceAs (Decidable (_ ∧ _))

theorem ceilSeconds_le_iff {ms s : ℤ} : ceilSeconds ms ≤ s ↔ ms ≤ 1000 * s := by
  unfold ceilSeconds
  omega

section Script

variable {window : ℤ} {limit : ℕ} {now : ℤ} {key : Key}

theorem script_allows (member : String)
    (h : (key.set.removeUpTo (now - window)).card < limit) :
    script window limit now member key =
      (some ⟨true, (key.set.removeUpTo (now - window)).card + 1, 0⟩,
        ⟨(key.set.removeUpTo (now - window)).add now member, some (now + window)⟩) := by
  simp [script, Nat.not_le.mpr h]

/-- A script that does not admit has an oldest entry to count from. -/
theorem script_rejects (member : String) (hlimit : 1 ≤ limit)
    (h : limit ≤ (key.set.removeUpTo (now - window)).card) :
    ∃ oldest, (key.set.removeUpTo (now - window)).first = some oldest ∧
      script window limit now member key =
        (some ⟨false, (key.set.removeUpTo (now - window)).card,
          ceilSeconds ((ofLex oldest).1 + window - now)⟩,
          { key with set := key.set.removeUpTo (now - window) }) := by
  cases hfirst : (key.set.removeUpTo (now - window)).first with
  | none =>
    rw [SortedSet.first_eq_none] at hfirst
    omega
  | some oldest => exact ⟨oldest, rfl, by simp [script, h, hfirst]⟩

end Script

def Allows (window : ℤ) (limit : ℕ) (now : ℤ) (member : String) (key : Key) : Prop :=
  ∃ r, (script window limit now member key).1 = some r ∧ r.allowed = true

structure Tracks (window : ℤ) (limit : ℕ) (past : History Key Action) (key : Key) : Prop where
  agree : ∀ t, (∀ p ∈ past, p.act.time ≤ t) →
    (key.set.scores.filter fun a => t - window < a).Perm
      ((admissions window limit past).filter fun a => t - window < a)
  members : ∀ member ∈ key.set.members, ∃ p ∈ past, calledWith p = some member
  admitted : Admitted window limit (admissions window limit past)
  deadline : ∀ d, key.deadline = some d → ∀ a ∈ admissions window limit past, a + window ≤ d

section Tracks

variable {window : ℤ} {limit : ℕ} {past : History Key Action} {key : Key} {now : ℤ}
variable {member : String}

theorem mem_admissions {a : ℤ} (h : a ∈ admissions window limit past) :
    ∃ p ∈ past, p.act.time = a := by
  obtain ⟨p, hp, hadmission⟩ := List.mem_filterMap.mp h
  refine ⟨p, hp, ?_⟩
  unfold admission at hadmission
  split at hadmission
  · split at hadmission
    · exact Option.some.inj hadmission
    · simp at hadmission
  · simp at hadmission

theorem admissions_le (hnow : ∀ p ∈ past, p.act.time ≤ now) {a : ℤ}
    (ha : a ∈ admissions window limit past) : a ≤ now := by
  obtain ⟨p, hp, rfl⟩ := mem_admissions ha
  exact hnow p hp

/-- What is kept at a call are the admissions of its window. -/
theorem Tracks.scores_kept (h : Tracks window limit past key)
    (hnow : ∀ p ∈ past, p.act.time ≤ now) :
    (key.set.removeUpTo (now - window)).scores.Perm
      ((admissions window limit past).filter fun a => now - window < a) := by
  rw [SortedSet.scores_removeUpTo]
  exact h.agree now hnow

theorem Tracks.card_kept (h : Tracks window limit past key)
    (hnow : ∀ p ∈ past, p.act.time ≤ now) :
    (key.set.removeUpTo (now - window)).card =
      recent window (admissions window limit past) now := by
  have hbound : ∀ a ∈ admissions window limit past,
      (decide (now - window < a) = true ↔ decide (now - window < a ∧ a ≤ now) = true) := by
    intro a ha
    have hle := admissions_le hnow ha
    simp [hle]
  rw [← SortedSet.length_scores, (h.scores_kept hnow).length_eq, ← List.countP_eq_length_filter,
    recent]
  exact List.countP_congr hbound

theorem Tracks.oldest (h : Tracks window limit past key) (hnow : ∀ p ∈ past, p.act.time ≤ now)
    {item : ℤ ×ₗ String} (hfirst : (key.set.removeUpTo (now - window)).first = some item) :
    Oldest window (admissions window limit past) now (ofLex item).1 := by
  have hperm := h.scores_kept hnow
  obtain ⟨hmem, hleast⟩ := SortedSet.first_least hfirst
  obtain ⟨hadmission, hafter⟩ := List.mem_filter.mp (hperm.mem_iff.mp hmem)
  refine ⟨hadmission, by simpa using hafter, admissions_le hnow hadmission, ?_⟩
  intro b hb hrecent
  exact hleast b (hperm.mem_iff.mpr (List.mem_filter.mpr ⟨hb, by simpa using hrecent⟩))

/-- The script answers, and its answer is the one of the full history. -/
theorem Tracks.script_reply (h : Tracks window limit past key) (hlimit : 1 ≤ limit)
    (hnow : ∀ p ∈ past, p.act.time ≤ now) (member : String) :
    ∃ r, (script window limit now member key).1 = some r ∧
      (r.allowed = true ↔ recent window (admissions window limit past) now < limit) ∧
      (r.allowed = false → ∃ oldest, Oldest window (admissions window limit past) now oldest ∧
        r.retryAfter = ceilSeconds (oldest + window - now)) := by
  have hcard := h.card_kept hnow
  by_cases hroom : (key.set.removeUpTo (now - window)).card < limit
  · refine ⟨_, by rw [script_allows member hroom], ?_, by simp⟩
    simpa [hcard] using hroom
  · obtain ⟨item, hfirst, hscript⟩ := script_rejects member hlimit (not_lt.mp hroom)
    refine ⟨_, by rw [hscript], ?_, fun _ => ⟨(ofLex item).1, h.oldest hnow hfirst, rfl⟩⟩
    simpa [hcard] using hroom

theorem tracks_absent : Tracks window limit [] absent where
  agree _ _ := List.Perm.refl _
  members member hmember := by simp [absent, SortedSet.empty, SortedSet.members] at hmember
  admitted := .nil
  deadline d hd := by simp [absent] at hd

/-- Entries that were dropped at a call lie in no later window. -/
theorem Tracks.agree_kept (h : Tracks window limit past key)
    (hnow : ∀ p ∈ past, p.act.time ≤ now) {t : ℤ} (ht : now ≤ t) :
    ((key.set.removeUpTo (now - window)).scores.filter fun a => t - window < a).Perm
      ((admissions window limit past).filter fun a => t - window < a) := by
  have hdropped : ∀ a : ℤ, (t - window < a ∧ now - window < a) ↔ t - window < a := by
    intro a
    constructor
    · exact And.left
    · intro hafter
      exact ⟨hafter, by omega⟩
  rw [SortedSet.scores_removeUpTo, List.filter_filter]
  simp only [← Bool.decide_and, hdropped]
  exact h.agree t fun p hp => (hnow p hp).trans ht

theorem Tracks.reject (h : Tracks window limit past key) (hnow : ∀ p ∈ past, p.act.time ≤ now)
    {m : Move Key Action} (htime : m.act.time = now) (hnone : admission window limit m = none) :
    Tracks window limit (m :: past) { key with set := key.set.removeUpTo (now - window) } := by
  have hsame : admissions window limit (m :: past) = admissions window limit past := by
    simp [admissions, hnone]
  refine ⟨?_, ?_, ?_, ?_⟩
  · intro t ht
    rw [hsame]
    exact h.agree_kept hnow (htime ▸ ht m List.mem_cons_self)
  · intro member hmember
    obtain ⟨p, hp, hcalled⟩ := h.members member (SortedSet.mem_members_removeUpTo hmember)
    exact ⟨p, List.mem_cons_of_mem _ hp, hcalled⟩
  · rw [hsame]
    exact h.admitted
  · rw [hsame]
    exact h.deadline

theorem Tracks.admit (h : Tracks window limit past key) (hnow : ∀ p ∈ past, p.act.time ≤ now)
    (hroom : recent window (admissions window limit past) now < limit)
    (hfresh : ∀ p ∈ past, calledWith p ≠ some member) {m : Move Key Action}
    (hact : m.act = .call now member) (hsome : admission window limit m = some now) :
    Tracks window limit (m :: past)
      ⟨(key.set.removeUpTo (now - window)).add now member, some (now + window)⟩ := by
  have hadded : admissions window limit (m :: past) = now :: admissions window limit past := by
    simp [admissions, hsome]
  have hle : ∀ a ∈ admissions window limit past, a ≤ now := fun _ => admissions_le hnow
  have hunused : member ∉ (key.set.removeUpTo (now - window)).members := by
    intro hmember
    obtain ⟨p, hp, hcalled⟩ := h.members member (SortedSet.mem_members_removeUpTo hmember)
    exact hfresh p hp hcalled
  refine ⟨?_, ?_, ?_, ?_⟩
  · intro t ht
    have htime : now ≤ t := by simpa [hact, Action.time] using ht m List.mem_cons_self
    rw [hadded]
    refine ((SortedSet.scores_add hunused).filter _).trans ?_
    have hkept := h.agree_kept hnow htime
    by_cases hin : t - window < now
    · simpa [hin] using hkept.cons now
    · simpa [hin] using hkept
  · intro member' hmember'
    rcases SortedSet.mem_members_add hmember' with rfl | hold
    · exact ⟨m, List.mem_cons_self, by simp [calledWith, hact]⟩
    · obtain ⟨p, hp, hcalled⟩ := h.members member' (SortedSet.mem_members_removeUpTo hold)
      exact ⟨p, List.mem_cons_of_mem _ hp, hcalled⟩
  · rw [hadded]
    exact .cons h.admitted hle hroom
  · intro d hd a ha
    obtain rfl : now + window = d := Option.some.inj hd
    rw [hadded, List.mem_cons] at ha
    rcases ha with rfl | hold
    · exact le_rfl
    · have hbefore := hle a hold
      omega

/-- No entry of a key that has expired is in a window from then on. -/
theorem Tracks.expire (h : Tracks window limit past key) {d : ℤ} (hd : key.deadline = some d)
    {m : Move Key Action} (htime : d ≤ m.act.time) (hnone : admission window limit m = none) :
    Tracks window limit (m :: past) absent := by
  have hsame : admissions window limit (m :: past) = admissions window limit past := by
    simp [admissions, hnone]
  refine ⟨?_, ?_, ?_, ?_⟩
  · intro t ht
    have hlater := ht m List.mem_cons_self
    have hgone : ((admissions window limit past).filter fun a => t - window < a) = [] := by
      rw [List.filter_eq_nil_iff]
      intro a ha hin
      have hexpired := h.deadline d hd a ha
      have hin : t - window < a := by simpa using hin
      omega
    rw [hsame, hgone]
    exact List.Perm.refl _
  · intro member hmember
    simp [absent, SortedSet.empty, SortedSet.members] at hmember
  · rw [hsame]
    exact h.admitted
  · intro d' hd'
    simp [absent] at hd'

/-- One move of an orderly run. -/
theorem Tracks.move (h : Tracks window limit past key) (hlimit : 1 ≤ limit) {a : Action}
    {key' : Key} (horderly : Orderly past ⟨key, a, key'⟩)
    (hstep : step window limit key a = some key') :
    Tracks window limit (⟨key, a, key'⟩ :: past) key' := by
  obtain ⟨hnow, hfresh⟩ := horderly
  cases a with
  | call now member =>
    have hcard : (key.set.removeUpTo (now - window)).card =
        recent window (admissions window limit past) now := h.card_kept hnow
    obtain rfl := Option.some.inj hstep
    by_cases hroom : (key.set.removeUpTo (now - window)).card < limit
    · have hscript := script_allows member hroom
      rw [hscript]
      have hfresh : ∀ p ∈ past, calledWith p ≠ some member := fun p hp =>
        (hfresh p hp).resolve_left (by simp [calledWith])
      exact h.admit hnow (hcard ▸ hroom) hfresh rfl
        (by simp [admission, reply, hscript, Action.time])
    · obtain ⟨item, -, hscript⟩ := script_rejects member hlimit (not_lt.mp hroom)
      rw [hscript]
      exact h.reject hnow rfl (by simp [admission, reply, hscript])
  | expire now =>
    simp only [step] at hstep
    split at hstep
    · simp at hstep
    · rename_i d hd
      split at hstep
      · rename_i hpassed
        obtain rfl := Option.some.inj hstep
        exact h.expire hd hpassed rfl
      · simp at hstep

end Tracks

/-- The script answers every call, and admits as the full history says. -/
def Exact (window : ℤ) (limit : ℕ) (past : History Key Action) (m : Move Key Action) : Prop :=
  ∀ now member, m.act = .call now member → ∃ r, reply window limit m = some r ∧
    (r.allowed = true ↔ recent window (admissions window limit past) now < limit)

section Runs

variable {window : ℤ} {limit : ℕ} {ms : History Key Action} {key : Key}

theorem run_tracks (hlimit : 1 ≤ limit) (h : Run (Steps (step window limit)) absent ms key)
    (horderly : Always Orderly ms) :
    Always (Exact window limit) ms ∧ Tracks window limit ms key := by
  refine h.guarded tracks_absent (fun past k a k' htracks hguard hstep => ⟨?_, ?_⟩) horderly
  · intro now member hact
    obtain rfl : a = .call now member := hact
    obtain ⟨r, hscript, hallowed, -⟩ := htracks.script_reply hlimit hguard.1 member
    exact ⟨r, hscript, hallowed⟩
  · exact htracks.move hlimit hguard hstep

/-- A call that is not admitted is told the least number of seconds after which one would be. -/
theorem retryAfter_least (hlimit : 1 ≤ limit) {newer past : History Key Action}
    {m : Move Key Action} {r : Reply}
    (h : Run (Steps (step window limit)) absent (newer ++ m :: past) key)
    (horderly : Always Orderly (newer ++ m :: past)) (hreply : reply window limit m = some r)
    (hrejected : r.allowed = false) (hnone : admissions window limit newer = []) :
    1 ≤ r.retryAfter ∧ ∀ (s : ℕ) (member : String),
      (∀ p ∈ newer, p.act.time ≤ m.act.time + 1000 * s) →
        (Allows window limit (m.act.time + 1000 * s) member key ↔ r.retryAfter ≤ s) := by
  obtain ⟨u, hpast, -⟩ := h.of_append
  obtain ⟨hbefore, -, -⟩ := hpast.step_of_cons
  obtain ⟨⟨hnow, -⟩, hpastOrderly⟩ := horderly.of_append
  have htracks := (run_tracks hlimit hbefore hpastOrderly).2
  have hlater := (run_tracks hlimit h horderly).2
  obtain ⟨pre, act, post⟩ := m
  cases act with
  | expire now => simp [reply] at hreply
  | call now member =>
    have hnow : ∀ p ∈ past, p.act.time ≤ now := hnow
    have hadmission : admission window limit ⟨pre, .call now member, post⟩ = none := by
      simp [admission, hreply, hrejected]
    have hsame : admissions window limit (newer ++ ⟨pre, .call now member, post⟩ :: past) =
        admissions window limit past := by
      simp only [admissions] at hnone
      simp [admissions, hnone, hadmission]
    obtain ⟨r', hscript, hallowed, hretry⟩ := htracks.script_reply hlimit hnow member
    obtain rfl : r' = r := Option.some.inj (hscript.symm.trans hreply)
    obtain ⟨oldest, holdest, hseconds⟩ := hretry hrejected
    have hfull : limit ≤ recent window (admissions window limit past) now := by
      simpa [hrejected] using hallowed
    refine ⟨?_, ?_⟩
    · by_contra hsoon
      have hnever : ceilSeconds (oldest + window - now) ≤ 0 := by omega
      have hin := holdest.after
      rw [ceilSeconds_le_iff] at hnever
      omega
    · intro s member' hnewer
      have htimes : ∀ p ∈ newer ++ ⟨pre, .call now member, post⟩ :: past,
          p.act.time ≤ now + 1000 * s := by
        intro p hp
        rw [List.mem_append, List.mem_cons] at hp
        rcases hp with hp | rfl | hp
        · exact hnewer p hp
        · show now ≤ now + 1000 * (s : ℤ)
          omega
        · have hearlier : p.act.time ≤ now := hnow p hp
          omega
      obtain ⟨r₂, hscript₂, hallowed₂, -⟩ := hlater.script_reply hlimit htimes member'
      have hallows : Allows window limit (now + 1000 * s) member' key ↔ r₂.allowed = true := by
        simp [Allows, hscript₂]
      rw [hsame] at hallowed₂
      have hfreed := admits_later_iff htracks.admitted (fun _ => admissions_le hnow) hfull holdest
        (t := now + 1000 * s) (by omega)
      show Allows window limit (now + 1000 * s) member' key ↔ r'.retryAfter ≤ s
      rw [hallows, hallowed₂, hfreed, hseconds, ceilSeconds_le_iff]
      omega

/-- The script is an exact sliding-window limiter: it admits a call if and only if fewer than
`limit` were admitted in the window that ends with it, so that no window has more; and it tells
those whom it rejects the least number of seconds to wait. -/
theorem slidingWindow_exact (window : ℤ) (limit : ℕ) (hlimit : 1 ≤ limit)
    (ms : History Key Action) (key : Key) (h : Run (Steps (step window limit)) absent ms key)
    (horderly : Always Orderly ms) :
    Always (Exact window limit) ms ∧
      (∀ t, (admissions window limit ms).countP (fun a => t < a ∧ a ≤ t + window) ≤ limit ∧
        (admissions window limit ms).countP (fun a => t ≤ a ∧ a < t + window) ≤ limit) ∧
      ∀ newer m past r, ms = newer ++ m :: past → reply window limit m = some r →
        r.allowed = false → admissions window limit newer = [] →
          1 ≤ r.retryAfter ∧ ∀ (s : ℕ) (member : String),
            (∀ p ∈ newer, p.act.time ≤ m.act.time + 1000 * s) →
              (Allows window limit (m.act.time + 1000 * s) member key ↔ r.retryAfter ≤ s) := by
  obtain ⟨hexact, htracks⟩ := run_tracks hlimit h horderly
  refine ⟨hexact, fun t => ⟨htracks.admitted.le_limit t, ?_⟩, ?_⟩
  · refine le_trans (List.countP_mono_left fun a _ hin => ?_) (htracks.admitted.le_limit (t - 1))
    have hin : t ≤ a ∧ a < t + window := by simpa using hin
    simp only [decide_eq_true_eq]
    omega
  · intro newer m past r hms hreply hrejected hnone
    subst hms
    exact retryAfter_least hlimit h horderly hreply hrejected hnone

end Runs

/-- Two calls in one millisecond and one after it, where two are allowed in a second. -/
def burst : List Action := [.call 5000 "a", .call 5000 "b", .call 5300 "c"]

theorem burst_exact : ∃ ms key, Run (Steps (step 1000 2)) absent ms key ∧
    admissions 1000 2 ms = [5000, 5000] ∧ Always (Exact 1000 2) ms := by
  have hrun := Run.of_play (Eq.refl (play (step 1000 2) [] absent burst))
  refine ⟨_, _, hrun, by decide +kernel, (slidingWindow_exact 1000 2 (by decide) _ _ hrun ?_).1⟩
  exact ⟨by decide +kernel, by decide +kernel, by decide +kernel, trivial⟩

end Hooktrace.SlidingWindow
