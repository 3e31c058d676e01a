import Hooktrace.ExecuteForward
import Hooktrace.Json
import Hooktrace.UrlEncoding

/-!
Where a webhook comes from, told from its headers, its user agent and its form; and the
bounded parsers of the body that the detection reads.
-/
namespace Hooktrace.IntegrationDetection

open ExecuteForward (PyError)

def parseCapBytes : ℕ := 8 * 1024

/-- `parse_form_params`: the first value of each field. -/
def parseFormParams (body : Bytes) (contentType : String) : PyDict String String :=
  if ¬ contains "application/x-www-form-urlencoded" contentType.toLower then .empty
  else if body.length > parseCapBytes then .empty
  else match decodeUtf8 body with
    | none => .empty
    | some decoded => (UrlEncoding.parseQs true decoded).filterMapValues List.head?

/-- `extract_stripe_event_type`: a RecursionError is no ValueError, and leaves it. -/
def extractStripeEventType (recursionLimit : ℕ) (body : Bytes) :
    Except PyError (Option PyStr) :=
  if body.length > parseCapBytes then .ok none
  else match decodeUtf8 body with
    | none => .ok none
    | some decoded =>
      match Json.loads recursionLimit decoded with
      | .error .valueError => .ok none
      | .error .recursionError => .error (.other "RecursionError")
      | .ok (.object members) =>
        match Json.lookup (.ofString "type") members with
        | some (.string eventType) => .ok (some eventType)
        | _ => .ok none
      | .ok _ => .ok none

/-- The names that the CHECK constraint admits. -/
def integrationNames : List String :=
  ["stripe", "github", "shopify", "twilio", "mailgun", "discord", "slack", "zapier", "n8n"]

abbrev Detector :=
  Headers → String → PyDict String String → Option (String × Option PyStr)

def detectStripe : Detector := fun h _ _ =>
  if h.has "stripe-signature" then some ("stripe", none) else none

def detectGithub : Detector := fun h _ _ =>
  if h.has "x-github-event" ∧ h.has "x-github-delivery" then
    some ("github", (h.get? "x-github-event").map .ofString)
  else none

def detectShopify : Detector := fun h _ _ =>
  if h.has "x-shopify-topic" ∧ h.has "x-shopify-shop-domain" then
    some ("shopify", (h.get? "x-shopify-topic").map .ofString)
  else none

def detectTwilio : Detector := fun h _ _ =>
  if h.has "x-twilio-signature" then some ("twilio", none) else none

/-- By the header, or by the three fields of the form. -/
def detectMailgun : Detector := fun h _ p =>
  if h.has "x-mailgun-signature-v2" then some ("mailgun", none)
  else if p.has "signature" ∧ p.has "timestamp" ∧ p.has "token" then some ("mailgun", none)
  else none

def detectDiscord : Detector := fun h _ _ =>
  if h.has "x-signature-ed25519" ∧ h.has "x-signature-timestamp" then some ("discord", none)
  else none

def detectSlack : Detector := fun h _ _ =>
  if h.has "x-slack-signature" ∧ h.has "x-slack-request-timestamp" then some ("slack", none)
  else none

def detectZapier : Detector := fun _ ua _ =>
  if contains "zapier" ua.toLower then some ("zapier", none) else none

def detectN8n : Detector := fun h _ _ =>
  if h.has "x-n8n-signature" then some ("n8n", none) else none

/-- `_DETECTORS`, the fallback by the user agent last. -/
def detectors : List Detector :=
  [detectStripe, detectGithub, detectShopify, detectTwilio, detectMailgun, detectDiscord,
    detectSlack, detectN8n, detectZapier]

def lowered (headers : Headers) : Headers := lowerKeys headers.items

def detectIntegration (headers : Headers) (userAgent : String)
    (formParams : PyDict String String) : Option (String × Option PyStr) :=
  detectors.findSome? fun det => det (lowered headers) userAgent formParams

/-- What a detector may find: one of the nine names, Stripe by its header only, with no event
type or with the value of a header for it. -/
structure Finds (h : Headers) (found : String × Option PyStr) : Prop where
  name_mem : found.1 ∈ integrationNames
  stripe : found.1 = "stripe" → h.has "stripe-signature" = true
  event : ∀ eventType, found.2 = some eventType →
    ∃ k v, h.get? k = some v ∧ eventType = .ofString v

theorem finds_no_event {h : Headers} {name : String} (hname : name ∈ integrationNames.tail) :
    Finds h (name, none) := by
  refine ⟨List.mem_of_mem_tail hname, ?_, by simp⟩
  intro hstripe
  obtain rfl : name = "stripe" := hstripe
  exact absurd hname (by simp [integrationNames])

theorem finds_header {h : Headers} {name : String} (hname : name ∈ integrationNames.tail)
    (k : String) : Finds h (name, (h.get? k).map .ofString) := by
  refine ⟨List.mem_of_mem_tail hname, (finds_no_event hname).stripe, ?_⟩
  intro eventType heventType
  obtain ⟨v, hv, rfl⟩ := Option.map_eq_some_iff.mp heventType
  exact ⟨k, v, hv, rfl⟩

theorem detector_finds {h : Headers} {ua : String} {p : PyDict String String} {det : Detector}
    (hdet : det ∈ detectors) {found : String × Option PyStr} (hfound : det h ua p = some found) :
    Finds h found := by
  have hif : ∀ {c : Prop} [Decidable c] {r : String × Option PyStr},
      (if c then some r else none) = some found → Finds h r → Finds h found := by
    intro c _ r hr hfinds
    split at hr
    · exact Option.some.inj hr ▸ hfinds
    · simp at hr
  simp only [detectors, List.mem_cons, List.not_mem_nil, or_false] at hdet
  rcases hdet with rfl | rfl | rfl | rfl | rfl | rfl | rfl | rfl | rfl
  · unfold detectStripe at hfound
    split at hfound
    · rename_i hstripe
      exact Option.some.inj hfound ▸ ⟨by simp [integrationNames], fun _ => hstripe, by simp⟩
    · simp at hfound
  · exact hif hfound (finds_header (by simp [integrationNames]) _)
  · exact hif hfound (finds_header (by simp [integrationNames]) _)
  · exact hif hfound (finds_no_event (by simp [integrationNames]))
  · -- the form is looked at only where the header is missing
    unfold detectMailgun at hfound
    split at hfound
    · exact Option.some.inj hfound ▸ finds_no_event (by simp [integrationNames])
    · exact hif hfound (finds_no_event (by simp [integrationNames]))
  · exact hif hfound (finds_no_event (by simp [integrationNames]))
  · exact hif hfound (finds_no_event (by simp [integrationNames]))
  · exact hif hfound (finds_no_event (by simp [integrationNames]))
  · exact hif hfound (finds_no_event (by simp [integrationNames]))

theorem detectIntegration_finds {headers : Headers} {ua : String} {p : PyDict String String}
    {found : String × Option PyStr} (h : detectIntegration headers ua p = some found) :
    Finds (lowered headers) found := by
  obtain ⟨det, hdet, hfound⟩ := List.exists_of_findSome?_eq_some h
  exact detector_finds hdet hfound

/-- Stripe is looked for first. -/
theorem detectIntegration_stripe {headers : Headers} {ua : String} {p : PyDict String String}
    (h : (lowered headers).has "stripe-signature" = true) :
    detectIntegration headers ua p = some ("stripe", none) := by
  simp [detectIntegration, detectors, detectStripe, h]

/-- The body is a JSON object whose type is this text. -/
def HasStripeType (recursionLimit : ℕ) (body : Bytes) (eventType : PyStr) : Prop :=
  body.length ≤ parseCapBytes ∧ ∃ decoded members, decodeUtf8 body = some decoded ∧
    Json.loads recursionLimit decoded = .ok (.object members) ∧
    Json.lookup (.ofString "type") members = some (.string eventType)

theorem extractStripeEventType_iff {recursionLimit : ℕ} {body : Bytes} {eventType : PyStr} :
    extractStripeEventType recursionLimit body = .ok (some eventType) ↔
      HasStripeType recursionLimit body eventType := by
  unfold extractStripeEventType HasStripeType
  by_cases hlength : body.length > parseCapBytes
  · simp [hlength]
  · rw [if_neg hlength]
    cases hdecoded : decodeUtf8 body with
    | none => simp
    | some decoded =>
      rcases hloads : Json.loads recursionLimit decoded with (_ | _) | value
      · simp [hloads]
      · simp [hloads]
      · cases value with
        | object members =>
          simp only [hloads, not_lt.mp hlength, true_and]
          rcases hlookup : Json.lookup (.ofString "type") members with _ | value
          · simp [hloads, hlookup]
          · cases value <;> simp [hloads, hlookup]
        | _ => simp [hloads]

end Hooktrace.IntegrationDetection
