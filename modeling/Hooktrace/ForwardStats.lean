import Hooktrace.Aggregate
import Hooktrace.EndpointRepository
import Hooktrace.ForwardStore
import Hooktrace.Pagination

/-!
The counts of an endpoint's forwards by status. They agree with the listing: whoever follows its
pages to the end, with one status as the filter, sees as many rows as are counted. Together they
are the forwards that were captured, whatever has become of them (`stats_run`).
-/
namespace Hooktrace.ForwardStats

open Aggregate ForwardRepository ForwardStore Keyset PagedWalk Table Transition
open ExecuteForward (expiredOutcome)
open Pagination (ForwardChange pagination_complete forwards_growing)

def allStatuses : List ForwardStatus :=
  [.pending, .inFlight, .succeeded, .failed, .dead, .abandoned]

/-- `dict.fromkeys(get_args(ForwardStatus), 0)`. -/
def zeros : PyDict ForwardStatus ℕ where
  items := allStatuses.map fun status => (status, 0)
  nodup := by decide

def countByStatus (endpointId : UUID) (forwards : List Forward) : PyDict ForwardStatus ℕ :=
  (countBy Forward.status (forwards.filter fun f => f.endpointId = endpointId)).foldl
    (fun result row => result.set row.1 row.2) zeros

structure EndpointNotFoundError where
  token : String
  deriving DecidableEq

def getForwardStats (token : String) (endpoints : List Endpoint) (forwards : List Forward) :
    Except EndpointNotFoundError (PyDict ForwardStatus ℕ) :=
  match EndpointRepository.findByToken token endpoints with
  | none => .error ⟨token⟩
  | some endpoint => .ok (countByStatus endpoint.id forwards)

def total (counts : PyDict ForwardStatus ℕ) : ℕ :=
  (allStatuses.map fun status => (counts.get? status).getD 0).sum

section Counts

variable (endpointId : UUID) (forwards : List Forward)

theorem get?_zeros (status : ForwardStatus) : zeros.get? status = some 0 := by
  cases status <;> decide

/-- Every status has a number, that of the endpoint's rows in it. -/
theorem get?_countByStatus (status : ForwardStatus) :
    (countByStatus endpointId forwards).get? status = some
      (forwards.countP fun f => f.endpointId = endpointId ∧ f.status = status) := by
  let own := forwards.filter fun f => f.endpointId = endpointId
  have hupdate : countByStatus endpointId forwards =
      zeros.update ⟨countBy Forward.status own, countBy_nodup Forward.status own⟩ := rfl
  have hcount : own.countP (fun f => f.status = status) =
      forwards.countP fun f => f.endpointId = endpointId ∧ f.status = status := by
    rw [List.countP_filter]
    exact List.countP_congr fun f _ => by simp [and_comm]
  have hget : (PyDict.mk (countBy Forward.status own) (countBy_nodup Forward.status own)).get?
      status = (counted Forward.status own status).map Prod.snd := by
    rw [PyDict.get?, ← List.head?_filter, filter_countBy]
    cases counted Forward.status own status <;> rfl
  rw [hupdate, PyDict.get?_update, get?_zeros, hget, ← hcount, ← coalesce_counted]
  cases counted Forward.status own status <;> rfl

/-- The numbers sum to the endpoint's rows. -/
theorem total_countByStatus : total (countByStatus endpointId forwards) =
    forwards.countP fun f => f.endpointId = endpointId := by
  simp only [total, get?_countByStatus, Option.getD_some]
  induction forwards with
  | nil => rfl
  | cons f forwards ih =>
    have hone : (allStatuses.map fun status =>
        if f.endpointId = endpointId ∧ f.status = status then 1 else 0).sum =
          if f.endpointId = endpointId then 1 else 0 := by
      by_cases howner : f.endpointId = endpointId
      · cases hstatus : f.status <;> simp [howner, allStatuses]
      · simp [howner, allStatuses]
    simp only [List.countP_cons, decide_eq_true_eq]
    rw [List.sum_map_add, ih, hone]

end Counts

section Listing

variable {endpointId : UUID} {keep : Forward → Bool} {limit : ℕ} {t : List Forward}

def SameOwn (endpointId : UUID) (t t' : List Forward) : Prop :=
  ∀ r, r.endpointId = endpointId → (r ∈ t' ↔ r ∈ t)

def Elsewhere (endpointId : UUID) (t t' : List Forward) : Prop :=
  ForwardChange t t' ∧ SameOwn endpointId t t'

theorem elsewhere_growing : Growing listingColumns (Elsewhere endpointId) where
  grows t t' h := forwards_growing.grows t t' h.1
  unique t t' h := forwards_growing.unique t t' h.1

variable {ms : History (PagedWalk.State Forward UUID Datetime) (PagedWalk.Action Forward)}
variable {s : PagedWalk.State Forward UUID Datetime}

/-- What was listed is a row of the endpoint that passes the filter, and stays so. -/
theorem listed_own
    (h : Run (Step listingColumns (Elsewhere endpointId) endpointId keep limit)
      (PagedWalk.start t) ms s) :
    SameOwn endpointId t s.table ∧ ∀ r ∈ s.rows, r ∈ t ∧ r.endpointId = endpointId ∧ keep r := by
  refine h.invariant (I := fun s => SameOwn endpointId t s.table ∧
    ∀ r ∈ s.rows, r ∈ t ∧ r.endpointId = endpointId ∧ keep r) ?_ ?_
  · exact ⟨fun r _ => Iff.rfl, by simp [PagedWalk.start, PagedWalk.State.rows]⟩
  · intro x a u hinv hstep
    obtain ⟨hsame, hrows⟩ := hinv
    cases hstep with
    | change hchange => exact ⟨fun r hr => (hchange.2 r hr).trans (hsame r hr), hrows⟩
    | resolve hposition => exact ⟨hsame, hrows⟩
    | select hposition =>
      refine ⟨hsame, fun r hr => ?_⟩
      rw [rows_listed, List.mem_append] at hr
      rcases hr with hr | hr
      · exact hrows r hr
      · obtain ⟨hmem, hselected⟩ := mem_page hr
        obtain ⟨howner, hkeep, -⟩ := selected_eq_true.mp hselected
        exact ⟨(hsame r howner).mp hmem, howner, hkeep⟩

theorem pre_of_mem {m : Move (PagedWalk.State Forward UUID Datetime) (PagedWalk.Action Forward)}
    (h : Run (Step listingColumns (Elsewhere endpointId) endpointId keep limit)
      (PagedWalk.start t) ms s) (hm : m ∈ ms) : SameOwn endpointId t m.pre.table := by
  obtain ⟨newer, older, rfl⟩ := List.append_of_mem hm
  obtain ⟨u, holder, -⟩ := h.of_append
  obtain ⟨hbefore, -, -⟩ := holder.step_of_cons
  exact (listed_own hbefore).1

/-- The pages have as many rows as are counted, if they are followed to the end. -/
theorem length_rows (ht : UniqueKeys Forward.id t) (hlimit : 1 ≤ limit)
    (h : Run (Step listingColumns (Elsewhere endpointId) endpointId keep limit)
      (PagedWalk.start t) ms s) (hfinished : s.position = .finished) :
    s.rows.length = t.countP fun r => r.endpointId = endpointId ∧ keep r := by
  have hwalked := run_walked elsewhere_growing ht h
  have hown := (listed_own h).2
  have hlisted : ∀ r ∈ t, r.endpointId = endpointId → keep r = true → r ∈ s.rows := by
    intro r hr howner hkeep
    have hshown : ∀ m ∈ ms, m.act = .select →
        Shown listingColumns endpointId keep r.id m.pre.table :=
      fun m hm _ => ⟨r, (pre_of_mem h hm r howner).mpr hr, rfl, howner, hkeep⟩
    obtain ⟨r', hr', hkey⟩ := List.mem_map.mp
      (mem_of_finished hlimit elsewhere_growing ht h hshown hfinished)
    obtain rfl := ht.eq (hown r' hr').1 hr hkey
    exact hr'
  have hperm : s.rows.Perm (t.filter fun r => r.endpointId = endpointId ∧ keep r) := by
    refine (List.perm_ext_iff_of_nodup (List.Nodup.of_map _ hwalked.nodup)
      ((List.Nodup.of_map _ ht).filter _)).mpr fun r => ?_
    rw [List.mem_filter, decide_eq_true_eq]
    exact ⟨hown r, fun hr => hlisted r hr.1 hr.2.1 hr.2.2⟩
  rw [hperm.length_eq, List.countP_eq_length_filter]

end Listing

section Runs

def captures (endpointId : UUID) (m : Move Store Statement) : Bool :=
  match m.act with
  | .capture _ _ owner _ _ => owner = endpointId
  | _ => false

theorem countP_save {endpointId : UUID} {forward : Forward} {forwards forwards' : List Forward}
    (h : save forward forwards = some forwards') :
    forwards'.countP (fun f => f.endpointId = endpointId) =
      forwards.countP (fun f => f.endpointId = endpointId) +
        if forward.endpointId = endpointId then 1 else 0 := by
  unfold save Table.insert at h
  split at h
  · simp at h
  · obtain rfl := Option.some.inj h
    simp [List.countP_append, List.countP_singleton]

/-- No statement moves a row to another endpoint. -/
theorem countP_write {endpointId : UUID} {v : Update Forward} (hv : Writer v)
    (forwards : List Forward) : (v.apply forwards).countP (fun f => f.endpointId = endpointId) =
      forwards.countP fun f => f.endpointId = endpointId := by
  rw [Update.apply, List.countP_map]
  apply List.countP_congr
  intro f _
  simp [(hv.sameOrigin_onRow f).endpoint_eq]

theorem countP_effect {endpointId : UUID} {s u : Store} {a : Statement} (h : StoreEffect s a u)
    (ha : ∀ id requestId owner targetUrl now, a ≠ .capture id requestId owner targetUrl now) :
    u.forwards.countP (fun f => f.endpointId = endpointId) =
      s.forwards.countP (fun f => f.endpointId = endpointId) := by
  cases h with
  | unmatched => rfl
  | capture hsave => exact absurd rfl (ha _ _ _ _ _)
  | @claim w id now claimed _ _ => exact countP_write (.claim id now) _
  | @claimExpired id now expiredAt _ _ =>
    exact (countP_write (.record id expiredOutcome expiredAt) _).trans
      (countP_write (.claim id now) _)
  | @record w answer decidedAt recordedAt claimed call _ _ =>
    exact countP_write (.record claimed.id call.outcome recordedAt) _
  | crash _ => rfl
  | @abandon id owner now => exact countP_write (.abandon id owner now) _
  | @manualRetry id owner now => exact countP_write (.manualRetry id owner now) _
  | @reclaim owner now => exact countP_write (.reclaim owner _ now) _

/-- A capture adds one row, anything else none. -/
theorem countP_step {endpointId : UUID} {s u : Store} {a : Statement}
    (h : storeStep s a = some u) : u.forwards.countP (fun f => f.endpointId = endpointId) =
      s.forwards.countP (fun f => f.endpointId = endpointId) +
        if captures endpointId ⟨s, a, u⟩ then 1 else 0 := by
  cases a with
  | capture id requestId owner targetUrl now =>
    obtain ⟨forwards, hsave, rfl⟩ := Option.map_eq_some_iff.mp h
    rw [countP_save hsave]
    by_cases howner : owner = endpointId <;> simp [captures, Forward.create, howner]
  | _ => exact countP_effect (storeStep_effect h) (by simp)

/-- The rows of an endpoint are its captures. -/
theorem countP_run {endpointId : UUID} {ms : History Store Statement} {s : Store}
    (h : Run (Steps storeStep) emptyStore ms s) :
    s.forwards.countP (fun f => f.endpointId = endpointId) = ms.countP (captures endpointId) := by
  induction h with
  | nil => rfl
  | move _ hstep ih => rw [countP_step hstep, ih, List.countP_cons]

theorem inStatuses_singleton (status : ForwardStatus) : ∃ keep,
    inStatuses [status.text] = some keep ∧ ∀ f : Forward, keep f = true ↔ f.status = status := by
  have htext : ∀ status' : ForwardStatus, status'.text = status.text ↔ status' = status := by
    intro status'
    cases status <;> cases status' <;> decide
  have hnul : ([status.text].any fun name => '\x00' ∈ name.toList) = false := by
    cases status <;> decide
  refine ⟨fun f => f.status.text ∈ [status.text], ?_, fun f => ?_⟩
  · simp [inStatuses, hnul]
  · simp [htext]

/-- In every state that is reached the numbers of an endpoint sum to the forwards that were
captured for it, and each is the number of rows that the pages of the listing show for its status,
whatever happens to the forwards of others meanwhile. -/
theorem stats_run {ms : History Store Statement} {s : Store}
    (h : Run (Steps storeStep) emptyStore ms s) {token : String} {endpoints : List Endpoint}
    {endpoint : Endpoint} (hfound : EndpointRepository.findByToken token endpoints = some endpoint) :
    ∃ counts, getForwardStats token endpoints s.forwards = .ok counts ∧
      total counts = ms.countP (captures endpoint.id) ∧
      ∀ (status : ForwardStatus) (limit : ℕ), 1 ≤ limit ∧ limit ≤ 200 → ∃ keep,
        (∀ beforeId t, listByEndpoint endpoint.id (some [status.text]) limit beforeId t =
          some (page listingColumns endpoint.id keep limit (cursor listingColumns beforeId t) t)) ∧
        ∀ ms' (walk : PagedWalk.State Forward UUID Datetime),
          Run (Step listingColumns (Elsewhere endpoint.id) endpoint.id keep limit)
            (PagedWalk.start s.forwards) ms' walk → walk.position = .finished →
              counts.get? status = some walk.rows.length := by
  have hconsistent := h.invariant consistent_empty fun _ _ _ hs hstep =>
    hs.step (storeStep_effect hstep)
  have hunique := hconsistent.sound.unique
  refine ⟨countByStatus endpoint.id s.forwards, by simp [getForwardStats, hfound], ?_, ?_⟩
  · rw [total_countByStatus, countP_run h]
  · intro status limit hlimit
    obtain ⟨keep, hkeep, hstatus⟩ := inStatuses_singleton status
    refine ⟨keep, ?_, fun ms' walk hwalk hfinished => ?_⟩
    · intro beforeId t
      have hrows : limitRows (limit : ℤ) = some limit := limitRows_natCast (by
        unfold bigintBound
        omega)
      rw [listByEndpoint, Option.getD_some, hkeep]
      exact query_eq_page hrows _ _ _ _
    · rw [get?_countByStatus, length_rows hunique hlimit.1 hwalk hfinished]
      refine congrArg some (List.countP_congr fun f _ => ?_)
      simp [hstatus]

def delivered (second : UUID) : List Statement :=
  [.capture sampleForwardId sampleRequest.id sampleEndpoint.id "https://example.com/" 0,
    .capture second sampleRequest.id sampleEndpoint.id "https://example.com/" 1,
    .claim 0 sampleForwardId 2, .record 0 (.status 200) 3 4]

theorem delivered_stats : ∃ ms s counts, Run (Steps storeStep) emptyStore ms s ∧
    getForwardStats sampleEndpoint.token [sampleEndpoint] s.forwards = .ok counts ∧
      total counts = 2 ∧ ms.length = 4 := by
  have hrun := Run.of_play (Eq.refl (play storeStep [] emptyStore (delivered sampleRequest.id)))
  have hfound : EndpointRepository.findByToken sampleEndpoint.token [sampleEndpoint] =
      some sampleEndpoint := rfl
  obtain ⟨counts, hcounts, htotal, -⟩ := stats_run hrun hfound
  exact ⟨_, _, counts, hrun, hcounts, htotal, rfl⟩

end Runs

end Hooktrace.ForwardStats
