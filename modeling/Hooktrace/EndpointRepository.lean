import Hooktrace.Entities
import Hooktrace.Table

/-!
The statements of the endpoint repository, and the one the abuse scan issues itself.
-/
namespace Hooktrace.EndpointRepository

open Table

def findByToken (token : String) (endpoints : List Endpoint) : Option Endpoint :=
  endpoints.find? fun r => r.token = token

def findById (endpointId : UUID) (endpoints : List Endpoint) : Option Endpoint :=
  Table.find Endpoint.id endpointId endpoints

/-- Writes eleven columns from the entity, whichever of them were changed in it. -/
def update (endpoint : Endpoint) : Update Endpoint where
  holds r := r.id = endpoint.id
  assign r := { r with
    signatureProvider := endpoint.signatureProvider
    signatureSecretEncrypted := endpoint.signatureSecretEncrypted
    responseStatusCode := endpoint.responseStatusCode
    responseBody := endpoint.responseBody
    responseHeaders := endpoint.responseHeaders
    responseDelayMs := endpoint.responseDelayMs
    forwardUrl := endpoint.forwardUrl
    forwardHeaders := endpoint.forwardHeaders
    forwardSecretEncrypted := endpoint.forwardSecretEncrypted
    flaggedAt := endpoint.flaggedAt
    flagReason := endpoint.flagReason }

def incrementRequestCount (endpointId : UUID) : Update Endpoint where
  holds r := r.id = endpointId
  assign r := { r with requestCount := r.requestCount + 1 }

/-- The UPDATE of `run_abuse_scan`. -/
def flag (endpointId : UUID) (reason : String) (now : Datetime) : Update Endpoint where
  holds r := r.id = endpointId
  assign r := { r with
    flaggedAt := some now
    flagReason := some reason }

/-- The WHERE clause of `delete_expired`. -/
def expired (now : Datetime) (r : Endpoint) : Bool := r.expiresAt < now

inductive Writer : Update Endpoint → Prop
  | config (endpoint : Endpoint) : Writer (update endpoint)
  | count (endpointId : UUID) : Writer (incrementRequestCount endpointId)
  | flag (endpointId : UUID) (reason : String) (now : Datetime) :
      Writer (flag endpointId reason now)

/-- No statement moves an endpoint to another id, token or lifetime. -/
structure SameIdentity (r r' : Endpoint) : Prop where
  id_eq : r'.id = r.id
  token_eq : r'.token = r.token
  created_eq : r'.createdAt = r.createdAt
  expires_eq : r'.expiresAt = r.expiresAt

theorem Writer.sameIdentity {u : Update Endpoint} (h : Writer u) (r : Endpoint) :
    SameIdentity r (u.assign r) := by
  cases h <;> exact ⟨rfl, rfl, rfl, rfl⟩

theorem Writer.keepsKey {u : Update Endpoint} (h : Writer u) : KeepsKey Endpoint.id u :=
  fun r => (h.sameIdentity r).id_eq

end Hooktrace.EndpointRepository
