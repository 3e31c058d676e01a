import Hooktrace.Entities
import Hooktrace.Keyset

/-!
The statements of the request repository on the table of captured requests.
-/
namespace Hooktrace.RequestRepository

/-- `save`: an INSERT, rejected when the id is taken. -/
def save (request : CapturedRequest) (requests : List CapturedRequest) :
    Option (List CapturedRequest) :=
  Table.insert CapturedRequest.id request requests

def findById (requestId : UUID) (requests : List CapturedRequest) : Option CapturedRequest :=
  Table.find CapturedRequest.id requestId requests

def listingColumns : Keyset.Columns CapturedRequest UUID UUID Datetime where
  owner := CapturedRequest.endpointId
  key := CapturedRequest.id
  time := CapturedRequest.receivedAt

/-- `search_vector @@ plainto_tsquery('simple', q)`, where `search_vector` is generated from
the row; `none` for a text that the server rejects. -/
abbrev FullTextSearch := String → Option (CapturedRequest → Bool)

/-- `if q:`. -/
def searched (search : FullTextSearch) (q : String) : Option (CapturedRequest → Bool) :=
  if q = "" then some fun _ => true else search q

def listByEndpoint (search : FullTextSearch) (endpointId : UUID) (limit : ℤ)
    (beforeId : Option UUID) (q : Option String) (requests : List CapturedRequest) :
    Option (List CapturedRequest) :=
  Keyset.query listingColumns endpointId (searched search (q.getD "")) limit beforeId requests

def countByEndpoint (endpointId : UUID) (requests : List CapturedRequest) : ℕ :=
  requests.countP fun r => r.endpointId = endpointId

/-- The rows of the export; `none` is a LIMIT that the server rejects. -/
def streamForExport (endpointId : UUID) (maxCount : ℤ) (requests : List CapturedRequest) :
    Option (List CapturedRequest) :=
  Keyset.query listingColumns endpointId (some fun _ => true) maxCount none requests

end Hooktrace.RequestRepository
