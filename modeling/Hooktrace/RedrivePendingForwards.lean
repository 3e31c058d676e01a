import Hooktrace.Entities
import Hooktrace.ForwardQueue
import Hooktrace.ForwardRepository

/-!
The redrive use case: reclaim the rows stuck in flight, select the failed rows that are
overdue and the pending rows that are stuck, and enqueue each of them. An enqueue that
raises is swallowed; the returned count is that of the selected rows.
-/
namespace Hooktrace.RedrivePendingForwards

open Table ForwardRepository ForwardQueue

def stuckPendingThresholdSeconds : ℕ := 5 * 60

def stuckInFlightThresholdSeconds : ℕ := 5 * 60

structure EndpointNotFoundError where
  token : String
  deriving DecidableEq

structure Redriven where
  forwards : List Forward
  overdueFailedIds : List UUID
  pendingIds : List UUID
  queue : ArqQueue
  count : ℕ

/-- `[*overdue_failed_ids, *pending_ids]`. -/
def Redriven.selected (r : Redriven) : List UUID := r.overdueFailedIds ++ r.pendingIds

/-- The loop of enqueues; `raises` tells for which ids Redis does not answer. -/
def enqueueAll (raises : UUID → Bool) (now : Datetime) (queue : ArqQueue) (ids : List UUID) :
    ArqQueue :=
  ids.foldl (fun q id => if raises id then q else enqueue q id 0 now) queue

def execute (findByToken : String → Option Endpoint) (raises : UUID → Bool) (token : String)
    (now : Datetime) (forwards : List Forward) (queue : ArqQueue) :
    Except EndpointNotFoundError Redriven :=
  match findByToken token with
  | none => .error ⟨token⟩
  | some endpoint =>
    let forwards :=
      (reclaimStuckInFlight endpoint.id stuckInFlightThresholdSeconds now).apply forwards
    let overdueFailedIds := listOverdueFailed endpoint.id now forwards
    let pendingIds :=
      redriveStuckPending endpoint.id stuckPendingThresholdSeconds now forwards
    .ok
      { forwards
        overdueFailedIds
        pendingIds
        queue := enqueueAll raises now queue (overdueFailedIds ++ pendingIds)
        count := overdueFailedIds.length + pendingIds.length }

/-- The endpoint of the token, and the two selections on the rows after the reclaim. -/
theorem execute_ok {findByToken : String → Option Endpoint} {raises : UUID → Bool}
    {token : String} {now : Datetime} {forwards : List Forward} {queue : ArqQueue}
    {r : Redriven} (h : execute findByToken raises token now forwards queue = .ok r) :
    ∃ endpoint, findByToken token = some endpoint ∧
      r.forwards =
        (reclaimStuckInFlight endpoint.id stuckInFlightThresholdSeconds now).apply forwards ∧
      r.overdueFailedIds = listOverdueFailed endpoint.id now r.forwards ∧
      r.pendingIds =
        redriveStuckPending endpoint.id stuckPendingThresholdSeconds now r.forwards ∧
      r.count = r.selected.length := by
  unfold execute at h
  cases hfind : findByToken token with
  | none => simp [hfind] at h
  | some endpoint =>
    simp only [hfind, Except.ok.injEq] at h
    subst h
    exact ⟨endpoint, rfl, rfl, rfl, rfl, by simp [Redriven.selected]⟩

end Hooktrace.RedrivePendingForwards
