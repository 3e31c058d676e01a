import Hooktrace.ForwardRepository
import Hooktrace.RequestRepository

/-!
What the listings of an endpoint show of others. Both repositories scope the page to the
endpoint and resolve the cursor by its id alone, so that a cursor taken from somebody
else's rows moves the page: what is listed tells when that row was created.
-/
namespace Hooktrace.Listing

open Table Keyset

structure Store where
  requests : List CapturedRequest
  forwards : List Forward
  uniqueRequests : UniqueKeys CapturedRequest.id requests
  uniqueForwards : UniqueKeys Forward.id forwards

structure SameRowsOf (endpointId : UUID) (s s' : Store) : Prop where
  requests : ∀ r, r.endpointId = endpointId → (r ∈ s.requests ↔ r ∈ s'.requests)
  forwards : ∀ r, r.endpointId = endpointId → (r ∈ s.forwards ↔ r ∈ s'.forwards)

/-- An endpoint is never alone: there is another id. -/
theorem exists_ne (id : UUID) : ∃ other : UUID, other ≠ id := by
  by_cases h : sampleForwardId = id
  · refine ⟨sampleRequest.id, ?_⟩
    rw [← h]
    decide
  · exact ⟨_, h⟩

/-- Somebody else's request with any id, received at any time. -/
theorem exists_request (endpointId : UUID) (ts : Datetime) (id : UUID) :
    ∃ r : CapturedRequest, r.endpointId ≠ endpointId ∧ r.id = id ∧ r.receivedAt = ts := by
  obtain ⟨other, hother⟩ := exists_ne endpointId
  exact ⟨{ sampleRequest with id, endpointId := other, receivedAt := ts }, hother, rfl, rfl⟩

theorem exists_forward (endpointId : UUID) (ts : Datetime) (id : UUID) :
    ∃ r : Forward, r.endpointId ≠ endpointId ∧ r.id = id ∧ r.createdAt = ts := by
  obtain ⟨other, hother⟩ := exists_ne endpointId
  exact ⟨Forward.create id sampleRequest.id other "" ts, hother, rfl, rfl⟩

/-- The endpoint's own rows determine what is listed for it exactly where the cursor names
one of them, or where nothing could be listed anyway. -/
theorem listing_determined_iff (search : RequestRepository.FullTextSearch) (endpointId : UUID)
    (limit : ℤ) (beforeId : Option UUID) (q : Option String) (statuses : Option (List String))
    (s : Store) :
    ((∀ s', SameRowsOf endpointId s s' →
        RequestRepository.listByEndpoint search endpointId limit beforeId q s'.requests =
          RequestRepository.listByEndpoint search endpointId limit beforeId q s.requests) ↔
      CursorHarmless RequestRepository.listingColumns endpointId
        (RequestRepository.searched search (q.getD "")) limit beforeId s.requests) ∧
    ((∀ s', SameRowsOf endpointId s s' →
        ForwardRepository.listByEndpoint endpointId statuses limit beforeId s'.forwards =
          ForwardRepository.listByEndpoint endpointId statuses limit beforeId s.forwards) ↔
      CursorHarmless ForwardRepository.listingColumns endpointId
        (ForwardRepository.inStatuses (statuses.getD [])) limit beforeId s.forwards) := by
  constructor
  · rw [← query_determined_iff (exists_request endpointId) s.uniqueRequests]
    constructor
    · intro hall t' ht' hsame
      exact hall ⟨t', s.forwards, ht', s.uniqueForwards⟩ ⟨hsame, fun _ _ => Iff.rfl⟩
    · intro hall s' hsame
      exact hall s'.requests s'.uniqueRequests hsame.requests
  · rw [← query_determined_iff (exists_forward endpointId) s.uniqueForwards]
    constructor
    · intro hall t' ht' hsame
      exact hall ⟨s.requests, t', s.uniqueRequests, ht'⟩ ⟨fun _ _ => Iff.rfl, hsame⟩
    · intro hall s' hsame
      exact hall s'.forwards s'.uniqueForwards hsame.forwards

def foreignRequest : CapturedRequest :=
  { sampleRequest with id := sampleForwardId, endpointId := sampleForwardId, receivedAt := 0 }

def alone : Store where
  requests := [sampleRequest]
  forwards := []
  uniqueRequests := by simp [UniqueKeys]
  uniqueForwards := by simp [UniqueKeys]

def withForeign : Store where
  requests := [sampleRequest, foreignRequest]
  forwards := []
  uniqueRequests := by decide
  uniqueForwards := by simp [UniqueKeys]

/-- The id of somebody else's request as a cursor empties the page. -/
theorem foreign_cursor_shows : ¬ ∀ (search : RequestRepository.FullTextSearch)
    (endpointId : UUID) (limit : ℤ) (beforeId : Option UUID) (q : Option String)
    (statuses : Option (List String)) (s s' : Store), SameRowsOf endpointId s s' →
    RequestRepository.listByEndpoint search endpointId limit beforeId q s'.requests =
        RequestRepository.listByEndpoint search endpointId limit beforeId q s.requests ∧
      ForwardRepository.listByEndpoint endpointId statuses limit beforeId s'.forwards =
        ForwardRepository.listByEndpoint endpointId statuses limit beforeId s.forwards := by
  intro hclaim
  have hsame : SameRowsOf sampleEndpoint.id alone withForeign := by
    refine ⟨?_, fun _ _ => Iff.rfl⟩
    intro r howner
    have hne : r ≠ foreignRequest := by
      intro h
      subst h
      exact absurd howner (by decide)
    simp [alone, withForeign, hne]
  have hpage := (hclaim (fun _ => none) sampleEndpoint.id 50 (some foreignRequest.id) none none
    alone withForeign hsame).1
  exact absurd hpage (by decide +kernel)

end Hooktrace.Listing
