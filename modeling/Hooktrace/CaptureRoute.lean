import Hooktrace.CaptureRequest

/-!
What the ingestor's route makes of a request that the server hands to it: the path with the
token in front, the header map, and the client's address from the headers of the proxy.
-/
namespace Hooktrace.CaptureRoute

open SignatureValidators (given)

def captureMethods : List String := ["GET", "POST", "PUT", "PATCH", "DELETE", "OPTIONS", "HEAD"]

/-- A request to `/h/{token}{rest}`. Its texts are decoded, and so are free of surrogates; the
names of its headers are lower-cased by the server. -/
structure HttpRequest where
  method : String
  rest : String
  query : String
  headers : List (String × String)
  clientHost : Option String
  body : Bytes
  method_mem : method ∈ captureMethods

/-- `request.headers.get(name)`, the first of its name. -/
def firstHeader (name : String) (headers : List (String × String)) : Option String :=
  (headers.find? fun field => field.1 = name).map Prod.snd

def extractClientIp (headers : List (String × String)) (clientHost : Option String) : String :=
  match given (firstHeader "fly-client-ip" headers) with
  | some fly => strip fly
  | none =>
    match given (firstHeader "x-forwarded-for" headers) with
    | some fwd => strip (.ofList (cut ',' fwd.toList).1)
    | none => (given clientHost).getD "0.0.0.0"

def input (token : String) (request : HttpRequest) : CaptureRequest.Input where
  method := request.method
  path := s!"/h/{token}{request.rest}"
  queryString := given (some request.query)
  headers := lowerKeys request.headers
  body := request.body
  sourceIp := extractClientIp request.headers request.clientHost

/-- The three places that the address may come from, and what they hold. -/
structure GivesIp (p : String → Prop) (request : HttpRequest) : Prop where
  fly : ∀ fly, firstHeader "fly-client-ip" request.headers = some fly → fly ≠ "" → p (strip fly)
  forwarded : given (firstHeader "fly-client-ip" request.headers) = none →
    ∀ fwd, firstHeader "x-forwarded-for" request.headers = some fwd → fwd ≠ "" →
      p (strip (.ofList (cut ',' fwd.toList).1))
  peer : given (firstHeader "fly-client-ip" request.headers) = none →
    given (firstHeader "x-forwarded-for" request.headers) = none →
      p ((given request.clientHost).getD "0.0.0.0")

theorem given_eq_some {text : Option String} {s : String} :
    given text = some s ↔ text = some s ∧ s ≠ "" := by
  simp [given, Option.filter_eq_some_iff]

theorem givesIp_iff {p : String → Prop} {request : HttpRequest} :
    GivesIp p request ↔ p (extractClientIp request.headers request.clientHost) := by
  unfold extractClientIp
  constructor
  · intro h
    cases hfly : given (firstHeader "fly-client-ip" request.headers) with
    | some fly =>
      obtain ⟨hfirst, hne⟩ := given_eq_some.mp hfly
      exact h.fly fly hfirst hne
    | none =>
      cases hfwd : given (firstHeader "x-forwarded-for" request.headers) with
      | some fwd =>
        obtain ⟨hfirst, hne⟩ := given_eq_some.mp hfwd
        exact h.forwarded hfly fwd hfirst hne
      | none => exact h.peer hfly hfwd
  · intro h
    refine ⟨?_, ?_, ?_⟩
    · intro fly hfirst hne
      simpa [given_eq_some.mpr ⟨hfirst, hne⟩] using h
    · intro hfly fwd hfirst hne
      simpa [hfly, given_eq_some.mpr ⟨hfirst, hne⟩] using h
    · intro hfly hfwd
      simpa [hfly, hfwd] using h

end Hooktrace.CaptureRoute
