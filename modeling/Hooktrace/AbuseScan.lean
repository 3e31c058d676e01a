import Hooktrace.Aggregate
import Hooktrace.Database

/-!
The daily scan for phishing. One statement counts, in two groupings that are joined to the
endpoints, the recent form posts and the recent forwards that succeeded; the loop over its rows
asks the heuristic again and flags what it suspects. The rows come in no particular order.
-/
namespace Hooktrace.AbuseScan

open Table Aggregate EndpointRepository

def minSuspiciousPosts : ℕ := 20

def flagReasonPhishing : String := "phishing_no_forward"

structure PhishingSignal where
  endpointId : UUID
  postCount24h : ℕ
  forwardSucceededCount24h : ℕ
  deriving DecidableEq

def PhishingSignal.isSuspicious (s : PhishingSignal) : Bool :=
  minSuspiciousPosts ≤ s.postCount24h ∧ s.forwardSucceededCount24h = 0

/-- `datetime.now(UTC) - timedelta(hours=24)`. -/
def cutoff (now : Datetime) : Datetime := now - seconds 86400

/-- The WHERE clause of `post_counts`. -/
def recentPost (cutoff : Datetime) (r : CapturedRequest) : Bool :=
  cutoff < r.receivedAt ∧ r.method ∈ ["POST", "PUT", "PATCH"]

/-- The WHERE clause of `forward_ok_counts`; no time is behind NULL. -/
def recentForwardOk (cutoff : Datetime) (f : Forward) : Bool :=
  match f.forwardCompletedAt with
  | none => false
  | some completedAt => cutoff < completedAt ∧ f.status.text = "succeeded"

def postCounts (cutoff : Datetime) (db : Database) : List (UUID × ℕ) :=
  countBy CapturedRequest.endpointId (db.requests.filter (recentPost cutoff))

def forwardOkCounts (cutoff : Datetime) (db : Database) : List (UUID × ℕ) :=
  countBy Forward.endpointId (db.forwards.filter (recentForwardOk cutoff))

def signal (row : (Endpoint × Option (UUID × ℕ)) × Option (UUID × ℕ)) : PhishingSignal where
  endpointId := row.1.1.id
  postCount24h := coalesce row.1.2
  forwardSucceededCount24h := coalesce row.2

/-- The statement that counts, in some order of its rows. -/
def query (cutoff : Datetime) (minPosts : ℕ) (db : Database) : List PhishingSignal :=
  let joined := leftJoin (fun ep f => f.1 = ep.1.id)
    (leftJoin (fun e p => p.1 = e.id) db.endpoints (postCounts cutoff db))
    (forwardOkCounts cutoff db)
  (joined.filter fun row => row.1.1.flaggedAt = none ∧ minPosts ≤ coalesce row.1.2).map signal

structure Scan where
  endpoints : List Endpoint
  suspicious : List PhishingSignal
  flaggedCount : ℕ

/-- The body of the loop; `now` is the NOW() of the transaction. -/
def visit (now : Datetime) (scan : Scan) (s : PhishingSignal) : Scan :=
  if s.isSuspicious then
    { endpoints := (flag s.endpointId flagReasonPhishing now).apply scan.endpoints
      suspicious := scan.suspicious ++ [s]
      flaggedCount := scan.flaggedCount + 1 }
  else scan

def scan (now : Datetime) (rows : List PhishingSignal) (endpoints : List Endpoint) : Scan :=
  rows.foldl (visit now) ⟨endpoints, [], 0⟩

def line (s : PhishingSignal) : String :=
  s!"- endpoint {s.endpointId.str}: {s.postCount24h} POSTs, " ++
    s!"{s.forwardSucceededCount24h} successful forwards (phishing suspicion)"

def heading (flaggedCount : ℕ) : String :=
  s!"**Abuse scan — {flaggedCount} endpoint(s) flagged:**\n"

def message (scan : Scan) : String :=
  heading scan.flaggedCount ++ "\n".intercalate (scan.suspicious.map line)

/-- `post_discord_alert`: the content of its POST. -/
def postDiscordAlert (message : String) : String := .ofList (message.toList.take 2000)

/-- The database once the scan has committed, the content of the alert, where one is posted, and
the value returned. -/
structure Outcome where
  database : Database
  posted : Option String
  flaggedCount : ℕ

/-- `run_abuse_scan` from the rows of its statement on; an empty `abuse_webhook_url` is none. -/
def runAbuseScan (abuseWebhookUrl : Option String) (now : Datetime) (rows : List PhishingSignal)
    (db : Database) : Outcome :=
  let scanned := scan now rows db.endpoints
  { database := { db with endpoints := scanned.endpoints }
    posted := if scanned.suspicious ≠ [] ∧ (abuseWebhookUrl.getD "") ≠ "" then
      some (postDiscordAlert (message scanned)) else none
    flaggedCount := scanned.flaggedCount }

/-- The form posts of an endpoint behind the cutoff. -/
def formPosts (cutoff : Datetime) (db : Database) (endpointId : UUID) : ℕ :=
  db.requests.countP fun r => r.endpointId = endpointId ∧ cutoff < r.receivedAt ∧
    (r.method = "POST" ∨ r.method = "PUT" ∨ r.method = "PATCH")

/-- The forwards of an endpoint that succeeded behind the cutoff. -/
def successes (cutoff : Datetime) (db : Database) (endpointId : UUID) : ℕ :=
  db.forwards.countP fun f => f.endpointId = endpointId ∧ f.status = .succeeded ∧
    ∃ completedAt ∈ f.forwardCompletedAt, cutoff < completedAt

def Suspect (cutoff : Datetime) (db : Database) (e : Endpoint) : Prop :=
  e.flaggedAt = none ∧ 20 ≤ formPosts cutoff db e.id ∧
    ∀ f ∈ db.forwards, f.endpointId = e.id → f.status = .succeeded →
      ∀ completedAt, f.forwardCompletedAt = some completedAt → completedAt ≤ cutoff

section Counts

variable {cutoff : Datetime} {db : Database} {id : UUID}

theorem recentPost_eq_true {r : CapturedRequest} : recentPost cutoff r = true ↔
    cutoff < r.receivedAt ∧ (r.method = "POST" ∨ r.method = "PUT" ∨ r.method = "PATCH") := by
  simp [recentPost]

theorem recentForwardOk_eq_true {f : Forward} : recentForwardOk cutoff f = true ↔
    f.status = .succeeded ∧ ∃ completedAt ∈ f.forwardCompletedAt, cutoff < completedAt := by
  have htext : f.status.text = "succeeded" ↔ f.status = .succeeded := by
    cases f.status <;> decide
  cases hat : f.forwardCompletedAt <;> simp [recentForwardOk, hat, htext, and_comm]

theorem countP_recentPost : (db.requests.filter (recentPost cutoff)).countP
    (fun r => r.endpointId = id) = formPosts cutoff db id := by
  rw [List.countP_filter, formPosts]
  refine List.countP_congr fun r _ => ?_
  simp [recentPost_eq_true]

theorem countP_recentForwardOk : (db.forwards.filter (recentForwardOk cutoff)).countP
    (fun f => f.endpointId = id) = successes cutoff db id := by
  rw [List.countP_filter, successes]
  refine List.countP_congr fun f _ => ?_
  simp [recentForwardOk_eq_true]

theorem successes_eq_zero : successes cutoff db id = 0 ↔
    ∀ f ∈ db.forwards, f.endpointId = id → f.status = .succeeded →
      ∀ completedAt, f.forwardCompletedAt = some completedAt → completedAt ≤ cutoff := by
  rw [successes, List.countP_eq_zero]
  refine forall₂_congr fun f _ => ?_
  simp only [decide_eq_true_eq, not_and, Option.mem_def, not_exists, not_lt]

def counts (cutoff : Datetime) (db : Database) (e : Endpoint) : PhishingSignal :=
  ⟨e.id, formPosts cutoff db e.id, successes cutoff db e.id⟩

theorem suspect_iff {e : Endpoint} : Suspect cutoff db e ↔
    e.flaggedAt = none ∧ (counts cutoff db e).isSuspicious = true := by
  rw [Suspect, ← successes_eq_zero, PhishingSignal.isSuspicious, decide_eq_true_eq]
  rfl

instance (cutoff : Datetime) (db : Database) (e : Endpoint) : Decidable (Suspect cutoff db e) :=
  decidable_of_iff _ suspect_iff.symm

/-- The statement gives one row for each unflagged endpoint with posts enough, with its counts. -/
theorem query_eq (cutoff : Datetime) (minPosts : ℕ) (db : Database) : query cutoff minPosts db =
    (db.endpoints.filter fun e => e.flaggedAt = none ∧ minPosts ≤ formPosts cutoff db e.id).map
      (counts cutoff db) := by
  have hposts : leftJoin (fun e p => p.1 = e.id) db.endpoints (postCounts cutoff db) =
      db.endpoints.map fun e => (e, counted CapturedRequest.endpointId
        (db.requests.filter (recentPost cutoff)) e.id) :=
    leftJoin_countBy _ _ Endpoint.id _
  have hforwards : leftJoin (fun ep f => f.1 = ep.1.id)
      (leftJoin (fun e p => p.1 = e.id) db.endpoints (postCounts cutoff db))
      (forwardOkCounts cutoff db) =
      (leftJoin (fun e p => p.1 = e.id) db.endpoints (postCounts cutoff db)).map fun ep =>
        (ep, counted Forward.endpointId (db.forwards.filter (recentForwardOk cutoff)) ep.1.id) :=
    leftJoin_countBy _ _ (fun ep : Endpoint × Option (UUID × ℕ) => ep.1.id) _
  rw [query, hforwards, hposts, List.map_map, List.filter_map, List.map_map]
  refine congrArg₂ List.map (funext fun e => ?_) (List.filter_congr fun e _ => ?_)
  · simp [signal, counts, countP_recentPost, countP_recentForwardOk]
  · simp [countP_recentPost]

end Counts

section Loop

variable {now : Datetime}

def flagged (now : Datetime) (ids : List UUID) (e : Endpoint) : Endpoint :=
  if e.id ∈ ids then { e with flaggedAt := some now, flagReason := some flagReasonPhishing } else e

theorem flag_apply_flagged (id : UUID) (ids : List UUID) (endpoints : List Endpoint) :
    (flag id flagReasonPhishing now).apply (endpoints.map (flagged now ids)) =
      endpoints.map (flagged now (ids ++ [id])) := by
  rw [Update.apply, List.map_map]
  refine List.map_congr_left fun e _ => ?_
  by_cases hmem : e.id ∈ ids <;> by_cases hid : e.id = id <;>
    simp [Update.onRow, flag, flagged, hmem, hid]
  all_goals simp_all

/-- The loop flags the endpoints of the suspicious rows, and lists and counts these. -/
theorem scan_eq (now : Datetime) (rows : List PhishingSignal) (endpoints : List Endpoint) :
    scan now rows endpoints =
      ⟨endpoints.map (flagged now ((rows.filter PhishingSignal.isSuspicious).map
        PhishingSignal.endpointId)), rows.filter PhishingSignal.isSuspicious,
        (rows.filter PhishingSignal.isSuspicious).length⟩ := by
  induction rows using List.reverseRecOn with
  | nil =>
    have hnone : flagged now [] = id := by
      funext e
      simp [flagged]
    simp [scan, hnone]
  | append_singleton rows s ih =>
    have hscan : scan now (rows ++ [s]) endpoints = visit now (scan now rows endpoints) s := by
      simp [scan]
    rw [hscan, ih, visit]
    split
    · rename_i hs
      simp [List.filter_append, hs, flag_apply_flagged]
    · rename_i hs
      simp [List.filter_append, hs]

end Loop

section Scanned

variable {db : Database} {startedAt now : Datetime} {rows : List PhishingSignal}

/-- The suspicious rows are the counts of the suspects, in some order. -/
theorem suspicious_perm (hrows : rows.Perm (query (cutoff startedAt) minSuspiciousPosts db)) :
    (rows.filter PhishingSignal.isSuspicious).Perm
      ((db.endpoints.filter fun e => Suspect (cutoff startedAt) db e).map
        (counts (cutoff startedAt) db)) := by
  refine (hrows.filter _).trans (List.Perm.of_eq ?_)
  rw [query_eq, List.filter_map, List.filter_filter]
  congr 1
  refine List.filter_congr fun e _ => ?_
  rw [Bool.eq_iff_iff]
  simp only [Function.comp_apply, Bool.and_eq_true, decide_eq_true_eq, suspect_iff]
  constructor
  · rintro ⟨hs, hflagged, -⟩
    exact ⟨hflagged, hs⟩
  · rintro ⟨hflagged, hs⟩
    have hboth := of_decide_eq_true hs
    exact ⟨hs, hflagged, hboth.1⟩

/-- The scan flags the suspects, and nothing else happens; what it returns is their number. Each
row has the true counts of its endpoint, and where an endpoint is unflagged, the statement and the
heuristic select it for what the heuristic says of its true counts. -/
theorem flags_exactly (hkeys : UniqueKeys Endpoint.id db.endpoints)
    (hrows : rows.Perm (query (cutoff startedAt) minSuspiciousPosts db))
    (abuseWebhookUrl : Option String) (now : Datetime) :
    (runAbuseScan abuseWebhookUrl now rows db).database = { db with
      endpoints := db.endpoints.map fun e => if Suspect (cutoff startedAt) db e then
        { e with flaggedAt := some now, flagReason := some flagReasonPhishing } else e } ∧
    (runAbuseScan abuseWebhookUrl now rows db).flaggedCount =
      db.endpoints.countP (fun e => Suspect (cutoff startedAt) db e) ∧
    (∀ row ∈ rows, row = ⟨row.endpointId, formPosts (cutoff startedAt) db row.endpointId,
      successes (cutoff startedAt) db row.endpointId⟩) ∧
    ∀ e ∈ db.endpoints, e.flaggedAt = none →
      ((∃ row ∈ rows, row.endpointId = e.id ∧ row.isSuspicious = true) ↔
        PhishingSignal.isSuspicious ⟨e.id, formPosts (cutoff startedAt) db e.id,
          successes (cutoff startedAt) db e.id⟩ = true) := by
  have hperm := suspicious_perm hrows
  have hids : ∀ e ∈ db.endpoints, e.id ∈ (rows.filter PhishingSignal.isSuspicious).map
      PhishingSignal.endpointId ↔ Suspect (cutoff startedAt) db e := by
    intro e he
    rw [(hperm.map _).mem_iff, List.map_map, List.mem_map]
    constructor
    · rintro ⟨e', he', hid⟩
      obtain ⟨hmem, hs⟩ := List.mem_filter.mp he'
      exact hkeys.eq hmem he hid ▸ of_decide_eq_true hs
    · exact fun hs => ⟨e, List.mem_filter.mpr ⟨he, decide_eq_true hs⟩, rfl⟩
  refine ⟨?_, ?_, ?_, ?_⟩
  · rw [runAbuseScan, scan_eq]
    refine congrArg (fun endpoints => { db with endpoints := endpoints }) ?_
    refine List.map_congr_left fun e he => ?_
    simp only [flagged, hids e he]
  · rw [runAbuseScan, scan_eq, hperm.length_eq, List.length_map, List.countP_eq_length_filter]
  · intro row hrow
    rw [hrows.mem_iff, query_eq, List.mem_map] at hrow
    obtain ⟨e, -, rfl⟩ := hrow
    rfl
  · intro e he hflagged
    have hsuspect := hids e he
    rw [suspect_iff, and_iff_right hflagged] at hsuspect
    rw [← counts, ← hsuspect]
    simp only [List.mem_map, List.mem_filter]
    exact exists_congr fun row => by tauto

end Scanned

section Campaign

def hexDigit (n : Fin 16) : Char := "0123456789abcdef".toList.get (n.cast (by decide +kernel))

theorem hexDigit_mem (n : Fin 16) : hexDigit n ∈ "0123456789abcdef".toList := List.get_mem _ _

theorem hexDigit_injective : Function.Injective hexDigit := by decide +kernel

theorem canonical_sample (a b c d : Fin 16) : canonicalUuid (.ofList (hexDigit a :: hexDigit b ::
    hexDigit c :: hexDigit d :: "8b7c-6d5e-4f3a-9b1c-0d2e3f4a5b6c".toList)) = true := by
  have hdigit (n : Fin 16) : decide (hexDigit n ∈ "0123456789abcdef".toList) = true :=
    decide_eq_true (hexDigit_mem n)
  simp only [canonicalUuid, String.toList_ofList, List.length_cons, List.zipIdx_cons,
    List.all_cons, Bool.and_eq_true]
  exact ⟨by decide +kernel, hdigit a, hdigit b, hdigit c, hdigit d, by decide +kernel⟩

def sampleUuid (a b c d : Fin 16) : UUID where
  str := .ofList (hexDigit a :: hexDigit b :: hexDigit c :: hexDigit d ::
    "8b7c-6d5e-4f3a-9b1c-0d2e3f4a5b6c".toList)
  canonical := canonical_sample a b c d

def campaign (pairs : List (Fin 16 × Fin 16)) : Database where
  endpoints := pairs.map fun (a, b) => { sampleEndpoint with
    id := sampleUuid a b 0 0
    token := (sampleUuid a b 0 0).str }
  requests := pairs.flatMap fun (a, b) =>
    ((List.finRange 16).take 4 ×ˢ (List.finRange 16).take 5).map fun (c, d) => { sampleRequest with
      id := sampleUuid a b c d
      endpointId := sampleUuid a b 0 0 }
  forwards := []
  replays := []

variable {pairs : List (Fin 16 × Fin 16)} {startedAt : Datetime}

theorem sampleUuid_inj {a b c d a' b' c' d' : Fin 16}
    (h : sampleUuid a b c d = sampleUuid a' b' c' d') : a = a' ∧ b = b' := by
  have hlist := String.ofList_injective (congrArg UUID.str h)
  exact ⟨hexDigit_injective (List.cons.inj hlist).1,
    hexDigit_injective (List.cons.inj (List.cons.inj hlist).2).1⟩

theorem campaign_keys (hpairs : pairs.Nodup) :
    UniqueKeys Endpoint.id (campaign pairs).endpoints := by
  rw [UniqueKeys, campaign, List.map_map]
  refine hpairs.map fun p q hpq => ?_
  obtain ⟨ha, hb⟩ := sampleUuid_inj hpq
  exact Prod.ext ha hb

theorem campaign_posts (hpairs : pairs.Nodup)
    (hcutoff : cutoff startedAt < sampleRequest.receivedAt) {p : Fin 16 × Fin 16} (hp : p ∈ pairs) :
    formPosts (cutoff startedAt) (campaign pairs) (sampleUuid p.1 p.2 0 0) = 20 := by
  have hsum : ∀ qs : List (Fin 16 × Fin 16), formPosts (cutoff startedAt) (campaign qs)
      (sampleUuid p.1 p.2 0 0) = 20 * qs.count p := by
    intro qs
    induction qs with
    | nil => rfl
    | cons q qs ih =>
      have hmethod : sampleRequest.method = "POST" := rfl
      have hlength : ((List.finRange 16).take 4 ×ˢ (List.finRange 16).take 5).length = 20 := by
        decide
      have hq : sampleUuid q.1 q.2 0 0 = sampleUuid p.1 p.2 0 0 ↔ q = p :=
        ⟨fun h => Prod.ext (sampleUuid_inj h).1 (sampleUuid_inj h).2, fun h => h ▸ rfl⟩
      rw [List.count_cons, Nat.mul_add, ← ih, Nat.add_comm]
      simp only [formPosts, campaign, List.flatMap_cons, List.countP_append, List.countP_map]
      congr 1
      simp only [Function.comp_def, hq, hcutoff, hmethod, beq_iff_eq]
      by_cases hqp : q = p
      · simp [hqp, hlength]
      · simp [hqp]
  rw [hsum, hpairs.count, if_pos hp]

theorem campaign_suspect (hpairs : pairs.Nodup)
    (hcutoff : cutoff startedAt < sampleRequest.receivedAt) :
    ∀ e ∈ (campaign pairs).endpoints, Suspect (cutoff startedAt) (campaign pairs) e := by
  intro e he
  obtain ⟨p, hp, rfl⟩ := List.mem_map.mp he
  refine ⟨rfl, (campaign_posts hpairs hcutoff hp).ge, ?_⟩
  simp [campaign]

theorem one_flagged : (runAbuseScan none (seconds 2000)
    (query (cutoff (seconds 2000)) minSuspiciousPosts (campaign [(0, 0)])) (campaign [(0, 0)])
    ).flaggedCount = 1 := by
  have hcutoff : cutoff (seconds 2000) < sampleRequest.receivedAt := by decide
  have hpairs : [((0 : Fin 16), (0 : Fin 16))].Nodup := List.nodup_singleton _
  rw [(flags_exactly (campaign_keys hpairs) (List.Perm.refl _) none (seconds 2000)).2.1]
  exact List.countP_eq_length.mpr fun e he =>
    decide_eq_true (campaign_suspect hpairs hcutoff e he)

end Campaign

end Hooktrace.AbuseScan
