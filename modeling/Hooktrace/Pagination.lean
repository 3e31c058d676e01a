import Hooktrace.ForwardRepository
import Hooktrace.PagedWalk
import Hooktrace.RequestRepository

/-!
The listings of requests and of forwards, followed by `next_before_id`. Rows come in while the
pages are fetched, and forwards change their status, but no row changes its place.
-/
namespace Hooktrace.Pagination

open Table Keyset PagedWalk Transition

inductive RequestChange : List CapturedRequest → List CapturedRequest → Prop
  | save {request : CapturedRequest} {t t' : List CapturedRequest}
      (h : RequestRepository.save request t = some t') : RequestChange t t'

inductive ForwardChange : List Forward → List Forward → Prop
  | save {forward : Forward} {t t' : List Forward}
      (h : ForwardRepository.save forward t = some t') : ForwardChange t t'
  | write {u : Update Forward} (hu : ForwardRepository.Writer u) (t : List Forward) :
      ForwardChange t (u.apply t)

theorem requests_growing : Growing RequestRepository.listingColumns RequestChange where
  grows := by
    intro t t' h
    cases h with
    | save h => exact grows_insert h
  unique := by
    intro t t' h ht
    cases h with
    | save h => exact insert_uniqueKeys _ h ht

/-- No writer of forwards assigns what the listing orders by. -/
theorem writer_place {u : Update Forward} (hu : ForwardRepository.Writer u) (r : Forward) :
    place ForwardRepository.listingColumns (u.onRow r) =
      place ForwardRepository.listingColumns r := by
  have horigin := hu.sameOrigin_onRow r
  simp [place, ForwardRepository.listingColumns, horigin.endpoint_eq, horigin.created_eq,
    horigin.id_eq]

theorem forwards_growing : Growing ForwardRepository.listingColumns ForwardChange where
  grows := by
    intro t t' h
    cases h with
    | save h => exact grows_insert h
    | write hu t => exact grows_apply (writer_place hu) t
  unique := by
    intro t t' h ht
    cases h with
    | save h => exact insert_uniqueKeys _ h ht
    | write hu t => exact hu.keepsKey.uniqueKeys ht

/-- Both listings are complete, with any filter that the server takes. -/
theorem pagination_complete (endpointId : UUID) (limit : ℕ)
    (hlimit : 1 ≤ limit ∧ limit ≤ 200) :
    (∀ search q keep, RequestRepository.searched search (Option.getD q "") = some keep →
      (∀ beforeId t, RequestRepository.listByEndpoint search endpointId limit beforeId q t =
        some (page RequestRepository.listingColumns endpointId keep limit
          (cursor RequestRepository.listingColumns beforeId t) t)) ∧
      Complete RequestRepository.listingColumns RequestChange endpointId keep limit) ∧
    (∀ statuses keep, ForwardRepository.inStatuses (Option.getD statuses []) = some keep →
      (∀ beforeId t, ForwardRepository.listByEndpoint endpointId statuses limit beforeId t =
        some (page ForwardRepository.listingColumns endpointId keep limit
          (cursor ForwardRepository.listingColumns beforeId t) t)) ∧
      Complete ForwardRepository.listingColumns ForwardChange endpointId keep limit) := by
  have hrows : limitRows (limit : ℤ) = some limit := limitRows_natCast (by
    unfold bigintBound
    omega)
  constructor
  · intro search q keep hkeep
    refine ⟨?_, complete _ requests_growing endpointId keep hlimit.1⟩
    intro beforeId t
    rw [RequestRepository.listByEndpoint, hkeep]
    exact query_eq_page hrows _ _ _ _
  · intro statuses keep hkeep
    refine ⟨?_, complete _ forwards_growing endpointId keep hlimit.1⟩
    intro beforeId t
    rw [ForwardRepository.listByEndpoint, hkeep]
    exact query_eq_page hrows _ _ _ _

def firstForward : Forward :=
  Forward.create sampleRequest.id sampleRequest.id sampleEndpoint.id "" 0

def secondForward : Forward :=
  Forward.create sampleForwardId sampleRequest.id sampleEndpoint.id "" 0

/-- Fetched one by one, the second claimed meanwhile, each is listed once. -/
theorem ties_listed : ∃ ms s,
    Run (Step ForwardRepository.listingColumns ForwardChange sampleEndpoint.id (fun _ => true) 1)
      (start [firstForward, secondForward]) ms s ∧ s.position = .finished ∧
      (s.rows.map Forward.id).count secondForward.id = 1 := by
  have hcomplete := ((pagination_complete sampleEndpoint.id 1 (by decide)).2 none (fun _ => true)
    rfl).2
  let walk := Step ForwardRepository.listingColumns ForwardChange sampleEndpoint.id
    (fun _ => true) 1
  let claimed := (ForwardRepository.claimForAttempt secondForward.id 1).onRow secondForward
  have hclaim : ForwardChange [firstForward, secondForward] [firstForward, claimed] :=
    .write (.claim secondForward.id 1) [firstForward, secondForward]
  have hfirst : Run walk (start [firstForward, secondForward]) _ _ :=
    run_fetch none [firstForward] rfl
      ((page_of_sorted (by decide +kernel)).trans (by decide +kernel))
  have hchanged := hfirst.trans (.single (.change hclaim))
  have hsecond := hchanged.trans (run_fetch (some firstForward.id) [claimed] rfl
    ((page_of_sorted (by decide +kernel)).trans (by decide +kernel)))
  have hlast := hsecond.trans (run_fetch (some secondForward.id) [] rfl
    ((page_of_sorted (by decide +kernel)).trans (by decide +kernel)))
  refine ⟨_, _, hlast, rfl, hcomplete.once _ _ _ _ (by decide +kernel) hlast rfl ?_⟩
  intro m hm _
  have htable : m.pre.table = [firstForward, secondForward] ∨
      m.pre.table = [firstForward, claimed] := by
    simp only [List.mem_append, List.mem_cons, List.not_mem_nil, or_false] at hm
    rcases hm with (hm | hm) | (hm | hm) | hm | hm | hm <;> subst hm
    all_goals first | exact Or.inl rfl | exact Or.inr rfl
  rcases htable with hbefore | hafter
  · exact ⟨secondForward, by simp [hbefore], rfl, rfl, rfl⟩
  · exact ⟨claimed, by simp [hafter], by decide +kernel, by decide +kernel, rfl⟩

end Hooktrace.Pagination
