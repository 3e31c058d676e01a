import Hooktrace.Forward
import Hooktrace.PyDict
import Hooktrace.PyStr

/-!
The endpoint, the captured request and the replay, as the repositories return them.
-/
namespace Hooktrace

abbrev Bytes := List UInt8

/-- `s.encode("utf-8")`. -/
def encodeUtf8 (s : String) : Bytes := s.toUTF8.toList

/-- `b.decode("utf-8")`; `none` is a UnicodeDecodeError. -/
def decodeUtf8 (b : Bytes) : Option String := String.fromUTF8? ⟨b.toArray⟩

abbrev Headers := PyDict String String

structure Endpoint where
  id : UUID
  token : String
  createdAt : Datetime
  expiresAt : Datetime
  requestCount : ℕ
  responseStatusCode : ℤ
  responseBody : String
  responseHeaders : Headers
  responseDelayMs : ℤ
  signatureProvider : Option String
  signatureSecretEncrypted : Option Bytes
  forwardUrl : Option String
  forwardHeaders : Option Headers
  forwardSecretEncrypted : Option Bytes
  flaggedAt : Option Datetime
  flagReason : Option String
  deriving DecidableEq

structure CapturedRequest where
  id : UUID
  endpointId : UUID
  method : String
  path : String
  queryString : Option String
  headers : Headers
  bodyPreview : Option String
  bodySize : ℕ
  blobKey : Option String
  sourceIp : String
  receivedAt : Datetime
  signatureStatus : Option String
  detectedIntegration : Option String
  detectedEventType : Option PyStr
  deriving DecidableEq

/-- The outcome of one replay attempt, immutable once written. -/
structure Replay where
  id : UUID
  requestId : UUID
  targetUrl : String
  statusCode : Option ℕ
  responseBodyPreview : Option String
  responseHeaders : Option Headers
  error : Option String
  durationMs : ℕ
  attemptedAt : Datetime
  deriving DecidableEq

def sampleEndpoint : Endpoint where
  id := ⟨"0a9b8c7d-6e5f-4a3b-8c1d-2e3f4a5b6c7d", by decide +kernel⟩
  token := "tok"
  createdAt := seconds 0
  expiresAt := seconds 604800
  requestCount := 2
  responseStatusCode := 200
  responseBody := "ok"
  responseHeaders := .empty
  responseDelayMs := 0
  signatureProvider := none
  signatureSecretEncrypted := none
  forwardUrl := some "https://api.example.com/webhook"
  forwardHeaders := none
  forwardSecretEncrypted := none
  flaggedAt := none
  flagReason := none

def sampleRequest : CapturedRequest where
  id := ⟨"b7e1d0c4-52aa-4f3e-8e6b-0c9a4d7f1235", by decide +kernel⟩
  endpointId := sampleEndpoint.id
  method := "POST"
  path := "/h/tok"
  queryString := none
  headers := .empty
  bodyPreview := some "ping"
  bodySize := 4
  blobKey := none
  sourceIp := "203.0.113.7"
  receivedAt := seconds 1000
  signatureStatus := none
  detectedIntegration := none
  detectedEventType := none

def sampleForwardId : UUID := ⟨"3f0c2a5e-8d41-4b7a-9c10-6d2f5b1e7a90", by decide +kernel⟩

end Hooktrace
