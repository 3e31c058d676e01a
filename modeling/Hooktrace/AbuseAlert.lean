import Hooktrace.AbuseScan
import Hooktrace.Transition
import Hooktrace.Words

/-!
What the alert of a scan says. Its lines are one for each flagged endpoint, as many as there
are, and `post_discord_alert` cuts the text at 2000 characters. A history is any sequence of scans,
with any changes to the database between them.
-/
namespace Hooktrace.AbuseAlert

open Table AbuseScan Words Transition

/-- The id is to be read in the content. -/
def Named (content : String) (endpointId : UUID) : Prop :=
  endpointId.str.toList <:+: content.toList

def lineHead (s : PhishingSignal) : String := "- endpoint " ++ s.endpointId.str

def upToLast (suspicious : List PhishingSignal) : String :=
  heading suspicious.length ++ "\n".intercalate
    (suspicious.dropLast.map line ++ (suspicious.getLast?.map lineHead).toList)

/-- The id of the last line stands before the cut. -/
def Fits (suspicious : List PhishingSignal) : Prop := (upToLast suspicious).length ≤ 2000

section Pieces

variable {id : UUID}

theorem space_notMem : ' ' ∉ id.str.toList := id.notMem_str (by simp)

theorem newline_notMem : '\n' ∉ id.str.toList := id.notMem_str (by simp)

theorem colon_notMem : ':' ∉ id.str.toList := id.notMem_str (by simp)

theorem id_ne_nil : id.str.toList ≠ [] := by
  intro hnil
  have hlength := id.str_length
  simp [hnil] at hlength

theorem not_infix_short {piece : List Char} (h : piece.length < 36) :
    ¬ id.str.toList <:+: piece := not_infix_of_length (id.str_length ▸ h)

/-- A number has no hyphen. -/
theorem not_infix_repr (n : ℕ) : ¬ id.str.toList <:+: n.repr.toList := by
  intro hinfix
  have hmem := hinfix.subset id.hyphen_mem_str
  rw [Nat.toList_repr] at hmem
  have hdigit := Nat.isDigit_of_mem_toDigits (by decide) (by decide) hmem
  exact absurd hdigit (by decide)

theorem eq_of_infix {id' : UUID} (h : id.str.toList <:+: id'.str.toList) : id = id' := by
  have heq := h.eq_of_length (id.str_length.trans id'.str_length.symm)
  exact UUID.str_injective (String.toList_inj.mp heq)

theorem toList_line (s : PhishingSignal) : (line s).toList = (lineHead s).toList ++
    (": ".toList ++ (s.postCount24h.repr.toList ++ (" POSTs, ".toList ++
      (s.forwardSucceededCount24h.repr.toList ++
        " successful forwards (phishing suspicion)".toList)))) := by
  delta line lineHead
  simp [toString, String.toList_append]

theorem lineHead_eq (s : PhishingSignal) :
    (lineHead s).toList = "- endpoint ".toList ++ s.endpointId.str.toList := String.toList_append

theorem line_eq (s : PhishingSignal) : (line s).toList = [' '].intercalate
    ["-".toList, "endpoint".toList, s.endpointId.str.toList ++ ":".toList,
      s.postCount24h.repr.toList, "POSTs,".toList, s.forwardSucceededCount24h.repr.toList,
      "successful".toList, "forwards".toList, "(phishing".toList, "suspicion)".toList] := by
  rw [toList_line, lineHead_eq]
  simp [List.intercalate_cons_cons]

/-- A line names its endpoint only. -/
theorem eq_of_infix_line {s : PhishingSignal} (h : id.str.toList <:+: (line s).toList) :
    id = s.endpointId := by
  rw [line_eq] at h
  obtain ⟨piece, hpiece, hin⟩ := exists_infix_of_intercalate space_notMem id_ne_nil h
  simp only [List.mem_cons, List.not_mem_nil, or_false] at hpiece
  rcases hpiece with rfl | rfl | rfl | rfl | rfl | rfl | rfl | rfl | rfl | rfl
  · exact absurd hin (not_infix_short (by simp))
  · exact absurd hin (not_infix_short (by simp))
  · obtain hid | hrest := infix_or_infix (b := []) colon_notMem hin
    · exact eq_of_infix hid
    · exact absurd hrest (not_infix_short (by simp))
  · exact absurd hin (not_infix_repr _)
  · exact absurd hin (not_infix_short (by simp))
  · exact absurd hin (not_infix_repr _)
  all_goals exact absurd hin (not_infix_short (by simp))

def headingLine (flaggedCount : ℕ) : List Char := [' '].intercalate
  ["**Abuse".toList, "scan".toList, "—".toList, flaggedCount.repr.toList, "endpoint(s)".toList,
    "flagged:**".toList]

theorem heading_eq (flaggedCount : ℕ) :
    (heading flaggedCount).toList = headingLine flaggedCount ++ ['\n'] := by
  have htext : heading flaggedCount =
      "**Abuse scan — " ++ flaggedCount.repr ++ " endpoint(s) flagged:**\n" := by
    unfold heading
    rfl
  rw [htext]
  simp only [String.toList_append, headingLine]
  simp [List.intercalate_cons_cons]

theorem not_infix_headingLine (flaggedCount : ℕ) :
    ¬ id.str.toList <:+: headingLine flaggedCount := by
  intro h
  obtain ⟨piece, hpiece, hin⟩ := exists_infix_of_intercalate space_notMem id_ne_nil h
  simp only [List.mem_cons, List.not_mem_nil, or_false] at hpiece
  rcases hpiece with rfl | rfl | rfl | rfl | rfl | rfl
  · exact absurd hin (not_infix_short (by simp))
  · exact absurd hin (not_infix_short (by simp))
  · exact absurd hin (not_infix_short (by simp))
  · exact absurd hin (not_infix_repr _)
  all_goals exact absurd hin (not_infix_short (by simp))

end Pieces

section Cut

variable {init : List PhishingSignal} {last : PhishingSignal}

/-- The lines of the message, the last of them cut somewhere. -/
def text (init : List PhishingSignal) (lastLine : List Char) : List Char :=
  ['\n'].intercalate (headingLine (init.length + 1) :: (init.map fun s => (line s).toList) ++
    [lastLine])

theorem text_eq (init : List PhishingSignal) (lastLine : String) :
    (heading (init.length + 1) ++ "\n".intercalate (init.map line ++ [lastLine])).toList =
      text init lastLine.toList := by
  rw [String.toList_append, heading_eq, String.toList_intercalate, text, List.cons_append,
    List.intercalate_cons_of_ne_nil (by simp)]
  simp [Function.comp_def]

theorem text_append (init : List PhishingSignal) (a b : List Char) :
    text init (a ++ b) = text init a ++ b := intercalate_concat_append _

theorem upToLast_eq : (upToLast (init ++ [last])).toList = text init (lineHead last).toList := by
  rw [← text_eq, upToLast, List.length_append, List.dropLast_concat, List.getLast?_concat]
  rfl

theorem lineHead_isPrefix_line (s : PhishingSignal) : (lineHead s).toList <+: (line s).toList :=
  ⟨_, (toList_line s).symm⟩

/-- The message goes on behind the last id. -/
theorem upToLast_prefix {scanned : Scan} (hsuspicious : scanned.suspicious = init ++ [last])
    (hcount : scanned.flaggedCount = scanned.suspicious.length) :
    (upToLast scanned.suspicious).toList <+: (message scanned).toList := by
  obtain ⟨rest, hrest⟩ := lineHead_isPrefix_line last
  have hmessage : (message scanned).toList = text init (line last).toList := by
    rw [message, hcount, hsuspicious, List.map_append, List.length_append]
    exact text_eq init (line last)
  rw [hmessage, hsuspicious, upToLast_eq, ← hrest, text_append]
  exact List.prefix_append _ _

/-- With its last character cut off, the last id is not to be read anywhere. -/
theorem not_infix_cut (hfresh : last.endpointId ∉ init.map PhishingSignal.endpointId) :
    ¬ last.endpointId.str.toList <:+:
      text init ("- endpoint ".toList ++ last.endpointId.str.toList.dropLast) := by
  intro h
  obtain ⟨piece, hpiece, hin⟩ := exists_infix_of_intercalate newline_notMem id_ne_nil h
  rw [List.mem_append, List.mem_cons, List.mem_map, List.mem_singleton] at hpiece
  rcases hpiece with (rfl | ⟨s, hs, rfl⟩) | rfl
  · exact not_infix_headingLine _ hin
  · exact hfresh (eq_of_infix_line hin ▸ List.mem_map_of_mem hs)
  · obtain hhead | hid := infix_or_infix (a := "- endpoint".toList) space_notMem hin
    · exact not_infix_short (by simp) hhead
    · refine not_infix_short ?_ hid
      show last.endpointId.str.toList.dropLast.length < 36
      rw [List.length_dropLast, UUID.str_length]
      decide

theorem named_of_mem {lastLine : List Char} {s : PhishingSignal} (hs : s ∈ init) :
    s.endpointId.str.toList <:+: text init lastLine := by
  have hline : (line s).toList <:+: text init lastLine := by
    refine infix_intercalate (List.mem_append_left _ (List.mem_cons_of_mem _ ?_))
    exact List.mem_map_of_mem hs
  have hid : s.endpointId.str.toList <:+: (lineHead s).toList := by
    rw [lineHead_eq]
    exact (List.suffix_append _ _).isInfix
  exact hid.trans ((lineHead_isPrefix_line s).isInfix.trans hline)

/-- The content names every endpoint of the lines exactly when the last id stands before the cut. -/
theorem named_iff_fits {scanned : Scan} (hne : scanned.suspicious ≠ [])
    (hcount : scanned.flaggedCount = scanned.suspicious.length)
    (hids : (scanned.suspicious.map PhishingSignal.endpointId).Nodup) :
    (∀ s ∈ scanned.suspicious, Named (postDiscordAlert (message scanned)) s.endpointId) ↔
      Fits scanned.suspicious := by
  obtain ⟨init, last, hsuspicious⟩ := (List.eq_nil_or_concat _).resolve_left hne
  rw [List.concat_eq_append] at hsuspicious
  have hbegins := upToLast_prefix hsuspicious hcount
  simp only [Named, postDiscordAlert, String.toList_ofList, Fits, ← String.length_toList]
  rw [hsuspicious, upToLast_eq] at hbegins ⊢
  rw [hsuspicious] at hids
  rw [lineHead_eq, text_append] at hbegins ⊢
  constructor
  · intro hnamed
    by_contra hlong
    -- the cut takes a character of the last id, at least
    have hcut : (message scanned).toList.take 2000 <+:
        text init ("- endpoint ".toList ++ last.endpointId.str.toList.dropLast) := by
      rw [text_append, ← List.dropLast_append_of_ne_nil id_ne_nil]
      refine List.prefix_of_prefix_length_le (List.take_prefix _ _)
        ((List.dropLast_prefix _).trans hbegins) ?_
      rw [List.length_take, List.length_dropLast]
      omega
    have hfresh : last.endpointId ∉ init.map PhishingSignal.endpointId := by
      rw [List.map_append, List.map_singleton, ← List.concat_eq_append, List.nodup_concat] at hids
      exact hids.1
    exact not_infix_cut hfresh ((hnamed last (by simp)).trans hcut.isInfix)
  · intro hfits s hs
    refine List.IsInfix.trans ?_ (List.prefix_take_iff.mpr ⟨hbegins, hfits⟩).isInfix
    rcases List.mem_append.mp hs with hinit | hlast
    · rw [← text_append]
      exact named_of_mem hinit
    · obtain rfl := List.mem_singleton.mp hlast
      exact (List.suffix_append _ _).isInfix

theorem length_line (s : PhishingSignal) : 100 ≤ (line s).toList.length := by
  have hposts : 0 < s.postCount24h.repr.toList.length := by
    rw [Nat.toList_repr]
    exact Nat.length_toDigits_pos
  have hoks : 0 < s.forwardSucceededCount24h.repr.toList.length := by
    rw [Nat.toList_repr]
    exact Nat.length_toDigits_pos
  have hid := s.endpointId.str_length
  rw [line_eq]
  simp [List.intercalate_cons_cons] at hposts hoks hid ⊢
  omega

theorem length_lineHead (s : PhishingSignal) : (lineHead s).toList.length = 47 := by
  rw [lineHead_eq, List.length_append, UUID.str_length]
  simp

/-- Twenty lines never fit. -/
theorem length_of_fits {suspicious : List PhishingSignal} (h : Fits suspicious) :
    suspicious.length < 20 := by
  by_contra hmany
  have hne : suspicious ≠ [] := by
    rintro rfl
    exact hmany (by decide)
  obtain ⟨init, last, rfl⟩ := (List.eq_nil_or_concat _).resolve_left hne
  rw [List.concat_eq_append] at h hmany
  have hheading : 38 ≤ (headingLine (init.length + 1)).length := by
    simp [headingLine, List.intercalate_cons_cons]
  have hlong : ∀ piece ∈ init.map fun s => (line s).toList, 100 ≤ piece.length := by
    simpa using fun s _ => length_line s
  have hlines := length_intercalate_concat (a := (lineHead last).toList) (c := '\n') hlong
  have hlast := length_lineHead last
  rw [Fits, ← String.length_toList, upToLast_eq, text, List.cons_append,
    List.intercalate_cons_of_ne_nil (by simp)] at h
  simp only [List.length_append, List.length_map, List.length_cons, List.length_nil]
    at h hlines hmany
  omega

end Cut

inductive Action where
  | scan (startedAt now : Datetime) (rows : List PhishingSignal)
  /-- Whatever else happens to the tables. -/
  | other

/-- The scans post to `url`. -/
inductive Step (url : String) : Database → Action → Database → Prop
  | scan {db : Database} {startedAt now : Datetime} {rows : List PhishingSignal} :
      rows.Perm (query (cutoff startedAt) minSuspiciousPosts db) →
      Step url db (.scan startedAt now rows) (runAbuseScan (some url) now rows db).database
  | other {db db' : Database} : UniqueKeys Endpoint.id db'.endpoints → Step url db .other db'

def Flags (m : Move Database Action) (endpointId : UUID) : Prop :=
  (∃ e ∈ m.pre.endpoints, e.id = endpointId ∧ e.flaggedAt = none) ∧
    ∃ e ∈ m.post.endpoints, e.id = endpointId ∧ e.flaggedAt ≠ none

/-- What a scan flags, it names in what it posts. -/
def Reported (url : String) (m : Move Database Action) : Prop :=
  match m.act with
  | .other => True
  | .scan _ now rows => ∀ id, Flags m id →
    ∃ content, (runAbuseScan (some url) now rows m.pre).posted = some content ∧ Named content id

/-- The message of a scan stands before the cut, up to its last id. -/
def Complete (m : Move Database Action) : Prop :=
  match m.act with
  | .other => True
  | .scan _ _ rows => Fits (rows.filter PhishingSignal.isSuspicious)

section History

variable {url : String} {db : Database} {startedAt now : Datetime} {rows : List PhishingSignal}

theorem scan_keys (hkeys : UniqueKeys Endpoint.id db.endpoints) :
    UniqueKeys Endpoint.id (runAbuseScan (some url) now rows db).database.endpoints := by
  rw [runAbuseScan, scan_eq]
  show UniqueKeys Endpoint.id (db.endpoints.map (flagged now _))
  rw [UniqueKeys, List.map_map]
  refine Eq.subst (motive := List.Nodup) (List.map_congr_left fun e _ => ?_) hkeys
  rw [Function.comp_apply, flagged]
  split <;> rfl

/-- A scan flags the endpoints of its suspicious rows. -/
theorem flags_iff (hkeys : UniqueKeys Endpoint.id db.endpoints)
    (hrows : rows.Perm (query (cutoff startedAt) minSuspiciousPosts db)) {id : UUID} :
    Flags ⟨db, .scan startedAt now rows, (runAbuseScan (some url) now rows db).database⟩ id ↔
      ∃ s ∈ rows.filter PhishingSignal.isSuspicious, s.endpointId = id := by
  have hpost : (runAbuseScan (some url) now rows db).database.endpoints = db.endpoints.map
      (flagged now ((rows.filter PhishingSignal.isSuspicious).map PhishingSignal.endpointId)) := by
    rw [runAbuseScan, scan_eq]
  constructor
  · rintro ⟨⟨e, he, hid, hnone⟩, e', he', hid', hsome⟩
    rw [hpost] at he'
    obtain ⟨e₀, he₀, rfl⟩ := List.mem_map.mp he'
    rw [flagged] at hid' hsome
    split at hid'
    · rename_i hmem
      obtain ⟨s, hs, hsid⟩ := List.mem_map.mp hmem
      exact ⟨s, hs, hsid.trans hid'⟩
    · rename_i hmem
      rw [if_neg hmem, hkeys.eq he₀ he (hid'.trans hid.symm)] at hsome
      exact absurd hnone hsome
  · rintro ⟨s, hs, rfl⟩
    obtain ⟨e, he, rfl⟩ := List.mem_map.mp ((suspicious_perm hrows).mem_iff.mp hs)
    obtain ⟨hmem, hsuspect⟩ := List.mem_filter.mp he
    refine ⟨⟨e, hmem, rfl, (of_decide_eq_true hsuspect).1⟩, ?_⟩
    have hid : e.id ∈ (rows.filter PhishingSignal.isSuspicious).map PhishingSignal.endpointId :=
      List.mem_map_of_mem hs
    rw [hpost]
    refine ⟨_, List.mem_map_of_mem hmem, ?_, ?_⟩ <;> rw [flagged, if_pos hid]
    · rfl
    · exact Option.some_ne_none _

theorem suspicious_ids (hkeys : UniqueKeys Endpoint.id db.endpoints)
    (hrows : rows.Perm (query (cutoff startedAt) minSuspiciousPosts db)) :
    ((rows.filter PhishingSignal.isSuspicious).map PhishingSignal.endpointId).Nodup := by
  rw [((suspicious_perm hrows).map _).nodup_iff, List.map_map]
  exact (List.filter_sublist.map _).nodup hkeys

theorem fits_nil : Fits [] := by
  have hlength : (upToLast []).length = 40 := by decide +kernel
  rw [Fits, hlength]
  decide

theorem reported_scan_iff (hurl : url ≠ "") (hkeys : UniqueKeys Endpoint.id db.endpoints)
    (hrows : rows.Perm (query (cutoff startedAt) minSuspiciousPosts db)) :
    Reported url ⟨db, .scan startedAt now rows, (runAbuseScan (some url) now rows db).database⟩ ↔
      Fits (rows.filter PhishingSignal.isSuspicious) := by
  by_cases hnone : rows.filter PhishingSignal.isSuspicious = []
  · simp [Reported, flags_iff hkeys hrows, hnone, fits_nil]
  · have hposted : (runAbuseScan (some url) now rows db).posted =
        some (postDiscordAlert (message (scan now rows db.endpoints))) := by
      simp [runAbuseScan, scan_eq, hnone, hurl]
    have hnamed := @named_iff_fits (scan now rows db.endpoints)
    rw [scan_eq] at hnamed hposted
    rw [← hnamed hnone rfl (suspicious_ids hkeys hrows)]
    simp only [Reported, flags_iff hkeys hrows, hposted, Option.some.injEq]
    constructor
    · intro h s hs
      obtain ⟨content, rfl, hin⟩ := h s.endpointId ⟨s, hs, rfl⟩
      exact hin
    · rintro h id ⟨s, hs, rfl⟩
      exact ⟨_, rfl, h s hs⟩

/-- In every history, the scans name all that they flag exactly when each message stands before
the cut up to its last id. -/
theorem reported_iff_complete (hurl : url ≠ "") {db₀ db : Database}
    (hkeys : UniqueKeys Endpoint.id db₀.endpoints) {ms : History Database Action}
    (hrun : Run (Step url) db₀ ms db) :
    (∀ m ∈ ms, Reported url m) ↔ ∀ m ∈ ms, Complete m := by
  suffices hmoves : ∀ m ∈ ms, Reported url m ↔ Complete m from forall₂_congr hmoves
  refine always_iff_forall_mem.mp (hrun.always
    (J := fun _ db => UniqueKeys Endpoint.id db.endpoints) hkeys ?_).1
  intro _ db a db' hpre hstep
  cases hstep with
  | scan hrows => exact ⟨reported_scan_iff hurl hpre hrows, scan_keys hpre⟩
  | other hpost => exact ⟨Iff.rfl, hpost⟩

end History

section Campaign

def found (pairs : List (Fin 16 × Fin 16)) : List PhishingSignal :=
  query (cutoff (seconds 2000)) minSuspiciousPosts (campaign pairs)

theorem found_length {pairs : List (Fin 16 × Fin 16)} (hpairs : pairs.Nodup) :
    ((found pairs).filter PhishingSignal.isSuspicious).length = pairs.length := by
  have hcutoff : cutoff (seconds 2000) < sampleRequest.receivedAt := by decide
  rw [(suspicious_perm (List.Perm.refl (found pairs))).length_eq, List.length_map,
    List.filter_eq_self.mpr fun e he => decide_eq_true (campaign_suspect hpairs hcutoff e he)]
  exact List.length_map _

def campaignScan (url : String) (pairs : List (Fin 16 × Fin 16)) : Move Database Action where
  pre := campaign pairs
  act := .scan (seconds 2000) (seconds 2000) (found pairs)
  post := (runAbuseScan (some url) (seconds 2000) (found pairs) (campaign pairs)).database

theorem run_campaign (url : String) (pairs : List (Fin 16 × Fin 16)) :
    Run (Step url) (campaign pairs) [campaignScan url pairs] (campaignScan url pairs).post :=
  .single (.scan (List.Perm.refl _))

theorem fits_singleton (s : PhishingSignal) : Fits [s] := by
  have hupTo : (upToLast [s]).toList = text [] (lineHead s).toList :=
    @upToLast_eq [] s
  have hheading : (headingLine 1).length = 39 := by decide +kernel
  have hlength := length_lineHead s
  rw [Fits, ← String.length_toList, hupTo]
  simp only [text, List.map_nil, List.nil_append, List.cons_append, List.intercalate_cons_cons,
    List.intercalate_singleton, List.length_append, List.length_nil, List.length_singleton,
    Nat.zero_add, hheading, hlength]
  decide

theorem one_reported :
    Reported "https://discord.example/hook"
      (campaignScan "https://discord.example/hook" [(0, 0)]) := by
  have hpairs : [((0 : Fin 16), (0 : Fin 16))].Nodup := List.nodup_singleton _
  have hlength : ((found [(0, 0)]).filter PhishingSignal.isSuspicious).length = 1 :=
    found_length hpairs
  obtain ⟨s, hs⟩ := List.length_eq_one_iff.mp hlength
  have hcomplete : Complete (campaignScan "https://discord.example/hook" [(0, 0)]) := by
    show Fits ((found [(0, 0)]).filter PhishingSignal.isSuspicious)
    rw [hs]
    exact fits_singleton s
  have hreported := (reported_iff_complete (by decide) (campaign_keys hpairs)
    (run_campaign "https://discord.example/hook" [(0, 0)])).mpr
    (List.forall_mem_singleton.mpr hcomplete)
  exact List.forall_mem_singleton.mp hreported

/-- Twenty endpoints are flagged at once; the message is cut before the id of the last. -/
theorem campaign_cut : ¬ ∀ (url : String) (db₀ db : Database) (ms : History Database Action),
    url ≠ "" → UniqueKeys Endpoint.id db₀.endpoints → Run (Step url) db₀ ms db →
    ∀ m ∈ ms, Reported url m := by
  intro hclaim
  have hpairs : ((List.finRange 16).take 4 ×ˢ (List.finRange 16).take 5).Nodup := by decide
  have hkeys := campaign_keys hpairs
  have hreported := List.forall_mem_singleton.mp (hclaim "https://discord.example/hook" _ _ _
    (by decide) hkeys (run_campaign _ _))
  have hfits := (reported_scan_iff (by decide) hkeys (List.Perm.refl (found _))).mp hreported
  have hfew := length_of_fits hfits
  rw [found_length hpairs] at hfew
  exact absurd hfew (by decide)

end Campaign

end Hooktrace.AbuseAlert
