import Hooktrace.Aggregate
import Hooktrace.CaptureRequest
import Hooktrace.Database

/-!
The counts of an endpoint's requests by integration. Three groupings of the same rows, each with
its own filter, are put together again by subqueries; a null key would end the statement. That
there is none is up to the use case that writes the rows.
-/
namespace Hooktrace.IntegrationAggregates

open Aggregate
open CaptureRequest (Collaborators Input prepare prepare_describes)
open SignatureValidators (ValidationResult)

structure IntegrationAggregate where
  integration : String
  total : ℕ
  eventTypes : PyDict PyStr ℕ
  signatureStatusCounts : PyDict String ℕ

inductive SqlError where
  /-- "field name must not be null" -/
  | nullFieldName

section Statement

variable {K : Type*} [DecidableEq K]

/-- The dictionary that is read from an object with these fields. -/
def ofFields (fields : List (K × ℕ)) : PyDict K ℕ :=
  fields.foldl (fun d field => d.set field.1 field.2) .empty

def field : Option K × ℕ → Except SqlError (K × ℕ)
  | (none, _) => .error .nullFieldName
  | (some key, count) => .ok (key, count)

/-- `json_object_agg`, read into a dictionary; over no rows it is null. -/
def jsonObjectAgg (rows : List (Option K × ℕ)) : Except SqlError (Option (PyDict K ℕ)) := do
  let fields ← rows.mapM field
  pure (if fields.isEmpty then none else some (ofFields fields))

/-- The rows of the endpoint whose integration is not null, each with it. -/
def detected (endpointId : UUID) (rows : List CapturedRequest) : List (String × CapturedRequest) :=
  (rows.filter fun r => r.endpointId = endpointId).filterMap fun r =>
    r.detectedIntegration.map fun integration => (integration, r)

def perIntegration (endpointId : UUID) (rows : List CapturedRequest) : List (String × ℕ) :=
  countBy Prod.fst (detected endpointId rows)

def detectedEvents (endpointId : UUID) (rows : List CapturedRequest) : List (String × PyStr) :=
  (detected endpointId rows).filterMap fun d =>
    d.2.detectedEventType.map fun eventType => (d.1, eventType)

def perEvent (endpointId : UUID) (rows : List CapturedRequest) : List ((String × PyStr) × ℕ) :=
  countBy id (detectedEvents endpointId rows)

def perStatus (endpointId : UUID) (rows : List CapturedRequest) :
    List ((String × Option String) × ℕ) :=
  countBy (fun d => (d.1, d.2.signatureStatus)) (detected endpointId rows)

def selectRow (endpointId : UUID) (rows : List CapturedRequest) (pi : String × ℕ) :
    Except SqlError IntegrationAggregate := do
  let eventTypes ← jsonObjectAgg (((perEvent endpointId rows).filter fun pe => pe.1.1 = pi.1).map
    fun pe => (some pe.1.2, pe.2))
  let statuses ← jsonObjectAgg (((perStatus endpointId rows).filter fun ps => ps.1.1 = pi.1).map
    fun ps => (ps.1.2, ps.2))
  pure {
    integration := pi.1
    total := pi.2
    eventTypes := eventTypes.getD .empty
    signatureStatusCounts := statuses.getD .empty }

/-- The statement, but for the order of its rows. -/
def select (endpointId : UUID) (rows : List CapturedRequest) :
    Except SqlError (List IntegrationAggregate) :=
  (perIntegration endpointId rows).mapM (selectRow endpointId rows)

/-- What `aggregate_by_integration` may return: the largest totals come first. -/
def Returns (endpointId : UUID) (rows : List CapturedRequest)
    (entries : List IntegrationAggregate) : Prop :=
  ∃ selected, select endpointId rows = .ok selected ∧ entries.Perm selected ∧
    entries.Pairwise fun a b => b.total ≤ a.total

end Statement

def Of (endpointId : UUID) (integration : String) (r : CapturedRequest) : Bool :=
  r.endpointId = endpointId ∧ r.detectedIntegration = some integration

structure Consistent (endpointId : UUID) (rows : List CapturedRequest)
    (entries : List IntegrationAggregate) : Prop where
  nodup : (entries.map IntegrationAggregate.integration).Nodup
  mem_iff : ∀ integration, integration ∈ entries.map IntegrationAggregate.integration ↔
    ∃ r ∈ rows, Of endpointId integration r = true
  total : ∀ e ∈ entries, e.total = rows.countP (Of endpointId e.integration)
  statuses : ∀ e ∈ entries, (e.signatureStatusCounts.items.map Prod.snd).sum = e.total
  status_keys : ∀ e ∈ entries, ∀ key ∈ e.signatureStatusCounts.items.map Prod.fst,
    ∃ status : ValidationResult, key = status.value
  events : ∀ e ∈ entries, (e.eventTypes.items.map Prod.snd).sum =
    rows.countP fun r => Of endpointId e.integration r && r.detectedEventType.isSome
  events_le : ∀ e ∈ entries, (e.eventTypes.items.map Prod.snd).sum ≤ e.total
  totals : (entries.map IntegrationAggregate.total).sum =
    rows.countP fun r => r.endpointId = endpointId ∧ r.detectedIntegration.isSome

/-- The row was written by the use case. -/
def Written (r : CapturedRequest) : Prop :=
  ∃ (env : Collaborators) (endpoint : Endpoint) (input : Input), prepare env endpoint input = .ok r

section Fields

variable {K : Type*} [DecidableEq K]

theorem mapM_of_ok {E α β : Type*} {f : α → Except E β} {g : α → β} {l : List α}
    (h : ∀ a ∈ l, f a = .ok (g a)) : l.mapM f = .ok (l.map g) := by
  induction l with
  | nil => rfl
  | cons a l ih =>
    obtain ⟨hhead, htail⟩ := List.forall_mem_cons.mp h
    rw [List.mapM_cons, hhead, ih htail]
    rfl

theorem ofFields_items {fields : List (K × ℕ)} (h : (fields.map Prod.fst).Nodup) :
    (ofFields fields).items = fields :=
  congrArg PyDict.items (PyDict.empty_update ⟨fields, h⟩)

/-- Without a null key all fields are in the dictionary. -/
theorem jsonObjectAgg_ok (fields : List (K × ℕ)) :
    ∃ d, jsonObjectAgg (fields.map fun f => (some f.1, f.2)) = .ok d ∧
      d.getD .empty = ofFields fields := by
  have hfields : (fields.map fun f => (some f.1, f.2)).mapM field = .ok fields := by
    rw [List.mapM_map]
    exact (mapM_of_ok (g := id) fun f _ => rfl).trans (by rw [List.map_id])
  refine ⟨_, by rw [jsonObjectAgg, hfields]; rfl, ?_⟩
  cases fields with
  | nil => rfl
  | cons f fields => rfl

end Fields

section Rows

variable {endpointId : UUID} {rows : List CapturedRequest}

/-- What is counted of the rows that are grouped, counted of all rows. -/
theorem countP_detected (p : String × CapturedRequest → Bool) :
    (detected endpointId rows).countP p = rows.countP fun r =>
      r.endpointId = endpointId ∧ (r.detectedIntegration.any fun name => p (name, r)) = true := by
  rw [detected, List.countP_filterMap, List.countP_filter]
  refine List.countP_congr fun r _ => ?_
  cases r.detectedIntegration <;> simp [and_comm]

theorem countP_of (integration : String) :
    ((detected endpointId rows).countP fun d => d.1 = integration) =
      rows.countP (Of endpointId integration) := by
  rw [countP_detected]
  refine List.countP_congr fun r _ => ?_
  cases hname : r.detectedIntegration <;> simp [Of, hname]

theorem mem_detected {d : String × CapturedRequest} : d ∈ detected endpointId rows ↔
    d.2 ∈ rows ∧ Of endpointId d.1 d.2 = true := by
  obtain ⟨name, r⟩ := d
  simp only [detected, List.mem_filterMap, List.mem_filter, decide_eq_true_eq, Of,
    Option.map_eq_some_iff, Prod.mk.injEq]
  constructor
  · rintro ⟨r', ⟨hr, hid⟩, name', hname, rfl, rfl⟩
    exact ⟨hr, hid, hname⟩
  · rintro ⟨hr, hid, hname⟩
    exact ⟨r, ⟨hr, hid⟩, name, hname, rfl, rfl⟩

theorem countP_events (integration : String) :
    ((detectedEvents endpointId rows).countP fun pe => pe.1 = integration) =
      rows.countP fun r => Of endpointId integration r && r.detectedEventType.isSome := by
  rw [detectedEvents, List.countP_filterMap, countP_detected]
  refine List.countP_congr fun r _ => ?_
  cases hname : r.detectedIntegration with
  | none => simp [Of, hname]
  | some name => cases hevent : r.detectedEventType <;> simp [Of, hname, hevent]

def eventFields (endpointId : UUID) (rows : List CapturedRequest) (integration : String) :
    List (PyStr × ℕ) :=
  ((perEvent endpointId rows).filter fun pe => pe.1.1 = integration).map fun pe => (pe.1.2, pe.2)

def statusFields (endpointId : UUID) (rows : List CapturedRequest) (integration : String) :
    List (String × ℕ) :=
  ((perStatus endpointId rows).filter fun ps => ps.1.1 = integration).map fun ps =>
    (ps.1.2.getD "", ps.2)

def entry (endpointId : UUID) (rows : List CapturedRequest) (pi : String × ℕ) :
    IntegrationAggregate where
  integration := pi.1
  total := pi.2
  eventTypes := ofFields (eventFields endpointId rows pi.1)
  signatureStatusCounts := ofFields (statusFields endpointId rows pi.1)

theorem mem_perStatus {ps : (String × Option String) × ℕ} (h : ps ∈ perStatus endpointId rows) :
    ∃ d ∈ detected endpointId rows, (d.1, d.2.signatureStatus) = ps.1 := by
  have hkey : ps.1 ∈ (perStatus endpointId rows).map Prod.fst := List.mem_map_of_mem h
  rw [perStatus, countBy_keys, List.mem_dedup, List.mem_map] at hkey
  exact hkey

/-- The statuses of rows that the use case wrote are never null. -/
theorem status_of_mem (hwritten : ∀ r ∈ rows, Written r) {ps : (String × Option String) × ℕ}
    (h : ps ∈ perStatus endpointId rows) :
    ∃ status : ValidationResult, ps.1.2 = some status.value := by
  obtain ⟨d, hd, heq⟩ := mem_perStatus h
  obtain ⟨env, endpoint, input, hprepare⟩ := hwritten d.2 (mem_detected.mp hd).1
  obtain ⟨status, hstatus⟩ := (prepare_describes hprepare).status_eq
  exact ⟨status, (congrArg Prod.snd heq).symm.trans hstatus⟩

theorem select_eq (hwritten : ∀ r ∈ rows, Written r) :
    select endpointId rows = .ok ((perIntegration endpointId rows).map (entry endpointId rows)) := by
  refine mapM_of_ok fun pi _ => ?_
  obtain ⟨events, hevents, heventTypes⟩ := jsonObjectAgg_ok (eventFields endpointId rows pi.1)
  obtain ⟨statuses, hstatuses, hcounts⟩ := jsonObjectAgg_ok (statusFields endpointId rows pi.1)
  have hevent : (eventFields endpointId rows pi.1).map (fun f => (some f.1, f.2)) =
      ((perEvent endpointId rows).filter fun pe => pe.1.1 = pi.1).map
        fun pe => (some pe.1.2, pe.2) := by
    rw [eventFields, List.map_map]
    rfl
  have hstatus : (statusFields endpointId rows pi.1).map (fun f => (some f.1, f.2)) =
      ((perStatus endpointId rows).filter fun ps => ps.1.1 = pi.1).map
        fun ps => (ps.1.2, ps.2) := by
    rw [statusFields, List.map_map]
    refine List.map_congr_left fun ps hps => ?_
    obtain ⟨status, hsome⟩ := status_of_mem hwritten (List.mem_of_mem_filter hps)
    simp [hsome]
  rw [hevent] at hevents
  rw [hstatus] at hstatuses
  rw [selectRow, hevents, hstatuses]
  show Except.ok _ = Except.ok (entry endpointId rows pi)
  rw [entry, heventTypes, hcounts]

theorem statusFields_sum (integration : String) :
    ((statusFields endpointId rows integration).map Prod.snd).sum =
      rows.countP (Of endpointId integration) := by
  rw [statusFields, List.map_map]
  exact (sum_countBy (fun d : String × CapturedRequest => (d.1, d.2.signatureStatus))
    (fun key => key.1 = integration) (detected endpointId rows)).trans (countP_of integration)

theorem eventFields_sum (integration : String) :
    ((eventFields endpointId rows integration).map Prod.snd).sum =
      rows.countP fun r => Of endpointId integration r && r.detectedEventType.isSome := by
  rw [eventFields, List.map_map]
  exact (sum_countBy id (fun key => key.1 = integration)
    (detectedEvents endpointId rows)).trans (countP_events integration)

/-- The groups of one integration differ in the other part of their key. -/
theorem nodup_filter {A B C : Type*} [DecidableEq A] {groups : List ((A × B) × ℕ)} (a : A)
    {f : B → C} (hgroups : (groups.map Prod.fst).Nodup)
    (hf : ∀ g ∈ groups, ∀ g' ∈ groups, f g.1.2 = f g'.1.2 → g.1.2 = g'.1.2) :
    ((groups.filter fun g => g.1.1 = a).map fun g => f g.1.2).Nodup := by
  refine List.Nodup.map_on (fun g hg g' hg' heq => ?_) (hgroups.of_map.filter _)
  obtain ⟨hg, ha⟩ := List.mem_filter.mp hg
  obtain ⟨hg', ha'⟩ := List.mem_filter.mp hg'
  have hkey : g.1 = g'.1 := Prod.ext ((of_decide_eq_true ha).trans (of_decide_eq_true ha').symm)
    (hf g hg g' hg' heq)
  exact List.inj_on_of_nodup_map hgroups hg hg' hkey

theorem eventFields_nodup (integration : String) :
    ((eventFields endpointId rows integration).map Prod.fst).Nodup := by
  rw [eventFields, List.map_map]
  exact nodup_filter integration (f := id) (countBy_nodup _ _) fun _ _ _ _ heq => heq

theorem statusFields_nodup (hwritten : ∀ r ∈ rows, Written r) (integration : String) :
    ((statusFields endpointId rows integration).map Prod.fst).Nodup := by
  rw [statusFields, List.map_map]
  refine nodup_filter integration (f := fun status : Option String => status.getD "")
    (countBy_nodup _ _) ?_
  intro ps hps ps' hps' heq
  obtain ⟨status, hstatus⟩ := status_of_mem hwritten hps
  obtain ⟨status', hstatus'⟩ := status_of_mem hwritten hps'
  rw [hstatus, hstatus'] at heq ⊢
  exact congrArg some heq

theorem perIntegration_keys : (perIntegration endpointId rows).map Prod.fst =
    ((detected endpointId rows).map Prod.fst).dedup := countBy_keys _ _

theorem perIntegration_total {pi : String × ℕ} (h : pi ∈ perIntegration endpointId rows) :
    pi.2 = rows.countP (Of endpointId pi.1) := by
  obtain ⟨name, -, rfl⟩ := List.mem_map.mp h
  exact countP_of name

/-- The entries of the groups agree with the rows. -/
theorem consistent_entries (hwritten : ∀ r ∈ rows, Written r) :
    Consistent endpointId rows ((perIntegration endpointId rows).map (entry endpointId rows)) := by
  have hnames : ((perIntegration endpointId rows).map (entry endpointId rows)).map
      IntegrationAggregate.integration = (perIntegration endpointId rows).map Prod.fst := by
    rw [List.map_map]
    rfl
  have hevents (pi : String × ℕ) : (entry endpointId rows pi).eventTypes.items =
      eventFields endpointId rows pi.1 := ofFields_items (eventFields_nodup pi.1)
  have hstatuses (pi : String × ℕ) : (entry endpointId rows pi).signatureStatusCounts.items =
      statusFields endpointId rows pi.1 := ofFields_items (statusFields_nodup hwritten pi.1)
  refine ⟨?_, fun integration => ?_, ?_, ?_, ?_, ?_, ?_, ?_⟩
  · rw [hnames, perIntegration_keys]
    exact List.nodup_dedup _
  · rw [hnames, perIntegration_keys, List.mem_dedup, List.mem_map]
    constructor
    · rintro ⟨d, hd, rfl⟩
      exact ⟨d.2, mem_detected.mp hd⟩
    · rintro ⟨r, hr, hof⟩
      exact ⟨(integration, r), mem_detected.mpr ⟨hr, hof⟩, rfl⟩
  · exact List.forall_mem_map.mpr fun pi hpi => perIntegration_total hpi
  · refine List.forall_mem_map.mpr fun pi hpi => ?_
    rw [hstatuses, statusFields_sum]
    exact (perIntegration_total hpi).symm
  · refine List.forall_mem_map.mpr fun pi _ => ?_
    rw [hstatuses, statusFields, List.map_map]
    refine List.forall_mem_map.mpr fun ps hps => ?_
    obtain ⟨status, hstatus⟩ := status_of_mem hwritten (List.mem_of_mem_filter hps)
    exact ⟨status, by simp [hstatus]⟩
  · refine List.forall_mem_map.mpr fun pi _ => ?_
    rw [hevents, eventFields_sum]
    rfl
  · refine List.forall_mem_map.mpr fun pi hpi => ?_
    rw [hevents, eventFields_sum]
    refine (List.countP_mono_left fun r _ hr => ?_).trans (perIntegration_total hpi).ge
    exact (Bool.and_eq_true_iff.mp hr).1
  · rw [List.map_map]
    have hsum := sum_countBy Prod.fst (fun _ => true) (detected endpointId rows)
    rw [List.filter_true] at hsum
    refine hsum.trans ?_
    rw [countP_detected]
    refine List.countP_congr fun r _ => ?_
    cases r.detectedIntegration <;> simp

/-- Only the order is left open. -/
theorem Consistent.of_perm {entries selected : List IntegrationAggregate}
    (h : Consistent endpointId rows selected) (hperm : entries.Perm selected) :
    Consistent endpointId rows entries where
  nodup := (hperm.map _).nodup_iff.mpr h.nodup
  mem_iff integration := (hperm.map _).mem_iff.trans (h.mem_iff integration)
  total e he := h.total e (hperm.mem_iff.mp he)
  statuses e he := h.statuses e (hperm.mem_iff.mp he)
  status_keys e he := h.status_keys e (hperm.mem_iff.mp he)
  events e he := h.events e (hperm.mem_iff.mp he)
  events_le e he := h.events_le e (hperm.mem_iff.mp he)
  totals := (hperm.map _).sum_eq.trans h.totals

/-- The requests of other endpoints do not count. -/
theorem select_filter : select endpointId (rows.filter fun r => r.endpointId = endpointId) =
    select endpointId rows := by
  have hdetected : detected endpointId (rows.filter fun r => r.endpointId = endpointId) =
      detected endpointId rows := by
    rw [detected, detected, List.filter_filter]
    simp
  have hrow : selectRow endpointId (rows.filter fun r => r.endpointId = endpointId) =
      selectRow endpointId rows := by
    funext pi
    rw [selectRow, selectRow, perEvent, perEvent, detectedEvents, detectedEvents, perStatus,
      perStatus, hdetected]
  rw [select, select, hrow, perIntegration, perIntegration, hdetected]

end Rows

/-- Among requests that the use case wrote, the counts of an endpoint are returned, agree with its
rows, and do not depend on those of other endpoints. -/
theorem aggregate_consistent (endpointId : UUID) (rows : List CapturedRequest)
    (hwritten : ∀ r ∈ rows, Written r) :
    (∃ entries, Returns endpointId rows entries) ∧
      (∀ entries, Returns endpointId rows entries → Consistent endpointId rows entries) ∧
        ∀ entries, Returns endpointId (rows.filter fun r => r.endpointId = endpointId) entries ↔
          Returns endpointId rows entries := by
  refine ⟨?_, ?_, fun entries => by rw [Returns, Returns, select_filter]⟩
  · refine ⟨((perIntegration endpointId rows).map (entry endpointId rows)).mergeSort
      fun a b => decide (b.total ≤ a.total), _, select_eq hwritten, List.mergeSort_perm _ _, ?_⟩
    refine (List.pairwise_mergeSort (fun a b c hab hbc => ?_) (fun a b => ?_) _).imp
      of_decide_eq_true
    · exact decide_eq_true ((of_decide_eq_true hbc).trans (of_decide_eq_true hab))
    · simp only [Bool.or_eq_true, decide_eq_true_eq]
      exact Nat.le_total b.total a.total
  · rintro entries ⟨selected, hselect, hperm, -⟩
    rw [select_eq hwritten] at hselect
    obtain rfl := Except.ok.inj hselect
    exact (consistent_entries hwritten).of_perm hperm

def pushHeaders : Headers :=
  (PyDict.empty.set "x-github-event" "push").set "x-github-delivery" "1"

def push : CapturedRequest :=
  { CaptureRequest.sampleCaptured (some "ping") none 4 with
    headers := pushHeaders
    detectedIntegration := some "github"
    detectedEventType := some (.ofString "push") }

theorem push_written : Written push := by
  refine ⟨CaptureRequest.sampleCollaborators (.returns ()), sampleEndpoint,
    { CaptureRequest.sampleInput (encodeUtf8 "ping") with headers := pushHeaders }, ?_⟩
  decide +kernel

theorem push_counted : ∃ entries, Returns push.endpointId [push, push] entries ∧
    Consistent push.endpointId [push, push] entries := by
  have hwritten : ∀ r ∈ [push, push], Written r := by simp [push_written]
  obtain ⟨⟨entries, hentries⟩, hconsistent, -⟩ :=
    aggregate_consistent push.endpointId [push, push] hwritten
  exact ⟨entries, hentries, hconsistent entries hentries⟩

end Hooktrace.IntegrationAggregates
