import Hooktrace.SignatureScheme
import Hooktrace.SignatureValidators

/-!
The validators against the schemes of their providers: which texts a scheme reads, what it
signs, and where the message carries the signature. Each validator is the check of its scheme,
and so exact unless it compares a signature text that is not ASCII: `compare_digest` raises
there, and no validator catches that.
-/
namespace Hooktrace.SignatureValidation

open SignatureScheme SignatureValidators
open ExecuteForward (PyError)

def typeError : PyError := .other "TypeError"

def toResult : Verdict → ValidationResult
  | .valid => .valid
  | .invalid => .invalid
  | .missing => .missing

/-- A signature that is the digest of the payload under the secret. -/
def macSigned (digest : Bytes → Bytes → String)
    (hascii : ∀ key message, isAscii (digest key message) = true) (secret : String)
    (present : Bool) (payload : Option Bytes) (carried : List String)
    (hpayload : ∀ p, payload = some p → present = true) : Signed Bytes String where
  present := present
  payload := payload
  carried := carried
  verifies message text := digest (encodeUtf8 secret) message == text
  comparable := isAscii
  present_of_payload := hpayload
  comparable_of_verifies message text hverifies := by
    rw [← beq_iff_eq.mp hverifies]
    exact hascii _ _

/-- The raw body is signed, and one header carries the signature. -/
def bodySigned (digest : Bytes → Bytes → String)
    (hascii : ∀ key message, isAscii (digest key message) = true)
    (signature : String → Option String) (header : Option String) (body : Bytes)
    (secret : String) : Signed Bytes String :=
  macSigned digest hascii secret (given header).isSome ((given header).map fun _ => body)
    ((given header).bind signature).toList (by
      intro payload hpayload
      obtain ⟨text, htext, -⟩ := Option.map_eq_some_iff.mp hpayload
      simp [htext])

/-- A body that is signed as a text, after another one. -/
def textPayload (before : String) (body : Bytes) : Option Bytes :=
  (decodeUtf8 body).map fun _ => encodeUtf8 before ++ body

/-- `v0:<timestamp>:<body>`. -/
def slackSigned (p : Primitives) (sigHeader timestamp : Option String) (body : Bytes)
    (secret : String) : Signed Bytes String :=
  macSigned p.hmacSha256Hex p.hmacSha256Hex_ascii secret
    ((given sigHeader).isSome && (given timestamp).isSome)
    (if (given sigHeader).isSome then
      (given timestamp).bind fun t => textPayload s!"v0:{t}:" body else none)
    ((given sigHeader).bind (afterPrefix "v0=")).toList (by
      intro payload hpayload
      split at hpayload
      · rename_i hsig
        obtain ⟨t, ht, -⟩ := Option.bind_eq_some_iff.mp hpayload
        simp [hsig, ht]
      · simp at hpayload)

/-- `<t>.<body>`, with any of the `v1` entries. -/
def stripeSigned (p : Primitives) (header : Option String) (body : Bytes) (secret : String) :
    Signed Bytes String :=
  macSigned p.hmacSha256Hex p.hmacSha256Hex_ascii secret (given header).isSome
    ((given header).bind fun text => (given (stripeEntries text).timestamp).bind fun t =>
      textPayload s!"{t}." body)
    ((given header).toList.flatMap fun text => (stripeEntries text).signatures) (by
      intro payload hpayload
      obtain ⟨text, htext, -⟩ := Option.bind_eq_some_iff.mp hpayload
      simp [htext])

/-- `<timestamp><token>`, all three in the form; a blank field counts as none. -/
def mailgunSigned (p : Primitives) (body : Bytes) (secret : String) : Signed Bytes String :=
  let field name :=
    ((UrlEncoding.parseQs false (decodeReplace body)).get? name).bind List.head?
  macSigned p.hmacSha256Hex p.hmacSha256Hex_ascii secret
    (body.length > mailgunMaxBodyBytes ||
      (field "timestamp").isSome && (field "token").isSome && (field "signature").isSome)
    (if body.length > mailgunMaxBodyBytes then none
      else (field "timestamp").bind fun timestamp => (field "token").bind fun token =>
        (field "signature").map fun _ => encodeUtf8 (timestamp ++ token))
    (field "signature").toList (by
      intro payload hpayload
      split at hpayload
      · simp at hpayload
      · obtain ⟨timestamp, htimestamp, hrest⟩ := Option.bind_eq_some_iff.mp hpayload
        obtain ⟨token, htoken, hrest⟩ := Option.bind_eq_some_iff.mp hrest
        obtain ⟨sig, hsig, -⟩ := Option.map_eq_some_iff.mp hrest
        simp [htimestamp, htoken, hsig])

/-- `<timestamp><body>`, under the public key. -/
def discordSigned (p : Primitives) (sigHex timestamp : Option String) (body : Bytes)
    (secret : String) : Signed Bytes String where
  present := (given sigHex).isSome && (given timestamp).isSome
  payload := if (given sigHex).isSome then
    (given timestamp).bind fun t => textPayload t body else none
  carried := (given sigHex).toList
  verifies message text := verifyEd25519 p secret text message
  comparable _ := true
  present_of_payload payload hpayload := by
    split at hpayload
    · rename_i hsig
      obtain ⟨t, ht, -⟩ := Option.bind_eq_some_iff.mp hpayload
      simp [hsig, ht]
    · simp at hpayload
  comparable_of_verifies _ _ _ := rfl

def signed (p : Primitives) (provider : Provider) (body : Bytes) (headers : Headers)
    (secret : String) : Signed Bytes String :=
  match provider with
  | .stripe => stripeSigned p (headers.get? "stripe-signature") body secret
  | .github => bodySigned p.hmacSha256Hex p.hmacSha256Hex_ascii (afterPrefix "sha256=")
      (headers.get? "x-hub-signature-256") body secret
  | .shopify => bodySigned p.hmacSha256Base64 p.hmacSha256Base64_ascii
      (fun text => some (strip text)) (headers.get? "x-shopify-hmac-sha256") body secret
  | .twilio => bodySigned p.hmacSha1Base64 p.hmacSha1Base64_ascii
      (fun text => some (strip text)) (headers.get? "x-twilio-signature") body secret
  | .mailgun => mailgunSigned p body secret
  | .discord => discordSigned p (headers.get? "x-signature-ed25519")
      (headers.get? "x-signature-timestamp") body secret
  | .slack => slackSigned p (headers.get? "x-slack-signature")
      (headers.get? "x-slack-request-timestamp") body secret
  | .zapier => bodySigned p.hmacSha256Hex p.hmacSha256Hex_ascii
      (fun text => some (strip text)) (headers.get? "x-hook-signature") body secret
  | .n8n => bodySigned p.hmacSha256Hex p.hmacSha256Hex_ascii
      (fun text => some (strip text)) (headers.get? "x-n8n-signature") body secret

/-- The names of the headers are in lower case, as the ingestor passes them on. -/
def LowerCased (headers : Headers) : Prop := ∀ field ∈ headers.items, field.1.toLower = field.1

instance (headers : Headers) : Decidable (LowerCased headers) :=
  inferInstanceAs (Decidable (∀ field ∈ headers.items, field.1.toLower = field.1))

theorem header_eq {headers : Headers} (h : LowerCased headers) {lower canonical : String}
    (hcanonical : canonical.toLower = lower) :
    header headers lower canonical = given (headers.get? lower) := by
  by_cases hcase : canonical = lower
  · simp [header, hcase]
  · have hnone : headers.get? canonical = none := by
      rw [PyDict.get?, Option.map_eq_none_iff, List.find?_eq_none]
      intro field hfield hname
      have hname : field.1 = canonical := by simpa using hname
      rw [← hname] at hcanonical hcase
      exact hcase ((h field hfield).symm.trans hcanonical)
    simp [header, hnone, given]

section Mac

variable {digest : Bytes → Bytes → String}
variable (hascii : ∀ key message, isAscii (digest key message) = true) {secret : String}
variable {present : Bool} {payload : Option Bytes} {carried : List String}
variable (hpayload : ∀ p, payload = some p → present = true)

/-- The loop over signatures is the check of the scheme. -/
theorem anyMatches_eq (carried : List String) (message : Bytes) (texts : List String) :
    anyMatches (digest (encodeUtf8 secret) message) texts =
      (macSigned digest hascii secret present payload carried hpayload).check typeError message
        texts := by
  induction texts with
  | nil => rfl
  | cons text rest ih =>
    have hdigest := hascii (encodeUtf8 secret) message
    cases htext : isAscii text with
    | false => simp [anyMatches, Signed.check, compareDigest, macSigned, htext, typeError]
    | true =>
      cases hmatch : digest (encodeUtf8 secret) message == text with
      | true => simp [anyMatches, Signed.check, compareDigest, macSigned, htext, hdigest, hmatch]
      | false =>
        simp only [anyMatches, Signed.check, compareDigest, htext, hdigest, hmatch, ih]
        simp [macSigned, htext, hmatch]

theorem map_judge {E : Type} (checked : Except E Bool) :
    checked.map judge =
      (checked.map fun matched => if matched then Verdict.valid else .invalid).map toResult := by
  cases checked with
  | error error => rfl
  | ok matched => cases matched <;> rfl

/-- A single signature is compared as the only one of its list. -/
theorem compareTo_eq (expected actual : String) :
    compareTo expected actual = (anyMatches expected [actual]).map judge := by
  unfold compareTo anyMatches anyMatches
  cases compareDigest expected actual with
  | error error => rfl
  | ok matched => cases matched <;> rfl

/-- The verdict on a message with all fields and a payload. -/
theorem verdict_of_payload (hpresent : present = true) {message : Bytes}
    (hmessage : payload = some message) :
    ((macSigned digest hascii secret present payload carried hpayload).verdict typeError).map
      toResult = (anyMatches (digest (encodeUtf8 secret) message) carried).map judge := by
  rw [map_judge, anyMatches_eq hascii hpayload carried]
  subst hmessage hpresent
  rfl

theorem verdict_of_no_payload (hpresent : present = true) (hnone : payload = none) :
    ((macSigned digest hascii secret present payload carried hpayload).verdict typeError).map
      toResult = .ok .invalid := by
  subst hnone hpresent
  rfl

theorem verdict_of_missing (hmissing : present = false) :
    ((macSigned digest hascii secret present payload carried hpayload).verdict typeError).map
      toResult = .ok .missing := by
  subst hmissing
  rfl

end Mac

theorem textPayload_eq_some {before : String} {body : Bytes} {text : String}
    (h : decodeUtf8 body = some text) :
    textPayload before body = some (encodeUtf8 (before ++ text)) := by
  simp [textPayload, h, encodeUtf8_append, decodeUtf8_eq_some.mp h]

theorem validateBody_eq (digest : Bytes → Bytes → String)
    (hascii : ∀ key message, isAscii (digest key message) = true)
    (signature : String → Option String) (field : Option String) (body : Bytes)
    (secret : String) :
    validateBody digest (given field) signature body secret =
      ((bodySigned digest hascii signature field body secret).verdict typeError).map toResult := by
  unfold bodySigned
  rcases Option.eq_none_or_eq_some (given field) with hfield | ⟨text, hfield⟩
  · rw [verdict_of_missing hascii _ (by simp [hfield]), hfield]
    rfl
  · rw [verdict_of_payload hascii _ (by simp [hfield]) (by simp [hfield]; rfl), hfield]
    cases hsignature : signature text with
    | none => simp [validateBody, hsignature, anyMatches, Except.map, judge]
    | some actual => simp [validateBody, hsignature, compareTo_eq]

theorem textPayload_eq_none {before : String} {body : Bytes} (h : decodeUtf8 body = none) :
    textPayload before body = none := by simp [textPayload, h]

/-- `s!"v0:{t}:{text}"` begins with what stands before the body. -/
theorem slackText (t text : String) : s!"v0:{t}:{text}" = s!"v0:{t}:" ++ text := by
  simp [toString, String.append_assoc]

theorem slack_eq (p : Primitives) (body : Bytes) {headers : Headers} (h : LowerCased headers)
    (secret : String) : validateSlack p body headers secret =
      ((slackSigned p (headers.get? "x-slack-signature")
        (headers.get? "x-slack-request-timestamp") body secret).verdict typeError).map
          toResult := by
  unfold validateSlack slackSigned
  rw [header_eq h (by exact toLower_ofList _), header_eq h (by exact toLower_ofList _)]
  rcases Option.eq_none_or_eq_some (given (headers.get? "x-slack-signature")) with
    hsig | ⟨sigHeader, hsig⟩
  · rw [verdict_of_missing _ _ (by simp [hsig]), hsig]
  rcases Option.eq_none_or_eq_some (given (headers.get? "x-slack-request-timestamp")) with
    htime | ⟨timestamp, htime⟩
  · rw [verdict_of_missing _ _ (by simp [htime]), hsig, htime]
  cases htext : decodeUtf8 body with
  | none =>
    rw [verdict_of_no_payload _ _ (by simp [hsig, htime])
      (by simp [hsig, htime, textPayload_eq_none htext]), hsig, htime]
    cases hactual : afterPrefix "v0=" sigHeader <;> simp [hactual]
  | some text =>
    rw [verdict_of_payload _ _ (by simp [hsig, htime])
      (by simp only [hsig, htime, Option.isSome_some, if_true, Option.bind_some,
            textPayload_eq_some htext]; rfl), hsig, htime]
    cases hactual : afterPrefix "v0=" sigHeader with
    | none => simp [hactual, anyMatches, Except.map, judge]
    | some actual => simp [hactual, compareTo_eq, slackText]

theorem stripe_eq (p : Primitives) (body : Bytes) {headers : Headers} (h : LowerCased headers)
    (secret : String) : validateStripe p body headers secret =
      ((stripeSigned p (headers.get? "stripe-signature") body secret).verdict typeError).map
        toResult := by
  unfold validateStripe stripeSigned
  rw [header_eq h (by exact toLower_ofList _)]
  rcases Option.eq_none_or_eq_some (given (headers.get? "stripe-signature")) with
    hheader | ⟨text, hheader⟩
  · rw [verdict_of_missing _ _ (by simp [hheader]), hheader]
  rcases Option.eq_none_or_eq_some (given (stripeEntries text).timestamp) with
    htime | ⟨timestamp, htime⟩
  · rw [verdict_of_no_payload _ _ (by simp [hheader]) (by simp [hheader, htime]), hheader]
    simp [htime]
  cases hbody : decodeUtf8 body with
  | none =>
    rw [verdict_of_no_payload _ _ (by simp [hheader])
      (by simp [hheader, textPayload_eq_none hbody]), hheader]
    cases hsignatures : (stripeEntries text).signatures <;> simp [htime, hsignatures]
  | some payload =>
    rw [verdict_of_payload _ _ (by simp [hheader])
      (by simp only [hheader, htime, Option.bind_some, textPayload_eq_some hbody]; rfl), hheader]
    cases hsignatures : (stripeEntries text).signatures with
    | nil => simp [htime, hsignatures, anyMatches, Except.map, judge]
    | cons actual rest => simp [htime, hsignatures, toString, String.append_assoc]

theorem discord_eq (p : Primitives) (body : Bytes) {headers : Headers} (h : LowerCased headers)
    (secret : String) : validateDiscord p body headers secret =
      ((discordSigned p (headers.get? "x-signature-ed25519")
        (headers.get? "x-signature-timestamp") body secret).verdict typeError).map toResult := by
  unfold validateDiscord
  rw [header_eq h (by exact toLower_ofList _), header_eq h (by exact toLower_ofList _)]
  rcases Option.eq_none_or_eq_some (given (headers.get? "x-signature-ed25519")) with
    hsig | ⟨sigHex, hsig⟩
  · simp [Signed.verdict, discordSigned, hsig, Except.map, toResult]
  rcases Option.eq_none_or_eq_some (given (headers.get? "x-signature-timestamp")) with
    htime | ⟨timestamp, htime⟩
  · simp [Signed.verdict, discordSigned, htime, Except.map, toResult]
  cases hbody : decodeUtf8 body with
  | none =>
    simp [Signed.verdict, discordSigned, hsig, htime, textPayload_eq_none hbody, Except.map,
      toResult]
  | some text =>
    cases hverify : verifyEd25519 p secret sigHex (encodeUtf8 (timestamp ++ text)) <;>
      simp [Signed.verdict, discordSigned, hsig, htime, textPayload_eq_some hbody, Signed.check,
        hverify, Except.map, toResult, judge]

/-- The first value of a field, where it has any. -/
theorem getD_of_head (values : Option (List String)) :
    (values.bind List.head? = none ∧ values.getD [] = []) ∨
      ∃ value rest, values.bind List.head? = some value ∧ values.getD [] = value :: rest := by
  cases values with
  | none => exact Or.inl ⟨rfl, rfl⟩
  | some list =>
    cases list with
    | nil => exact Or.inl ⟨rfl, rfl⟩
    | cons value rest => exact Or.inr ⟨value, rest, rfl, rfl⟩

theorem mailgun_eq (p : Primitives) (body : Bytes) (secret : String) :
    validateMailgun p body secret =
      ((mailgunSigned p body secret).verdict typeError).map toResult := by
  unfold validateMailgun mailgunSigned
  by_cases hsize : body.length > mailgunMaxBodyBytes
  · rw [verdict_of_no_payload _ _ (by simp [hsize]) (by simp [hsize]), if_pos hsize]
  rw [if_neg hsize]
  dsimp only
  have hfields := fun name =>
    getD_of_head ((UrlEncoding.parseQs false (decodeReplace body)).get? name)
  rcases hfields "timestamp" with ⟨htime, htimes⟩ | ⟨timestamp, _, htime, htimes⟩
  · rw [verdict_of_missing _ _ (by simp [hsize, htime]), htimes]
  rcases hfields "token" with ⟨htoken, htokens⟩ | ⟨token, _, htoken, htokens⟩
  · rw [verdict_of_missing _ _ (by simp [hsize, htoken]), htimes, htokens]
  rcases hfields "signature" with ⟨hsig, hsigs⟩ | ⟨actual, _, hsig, hsigs⟩
  · rw [verdict_of_missing _ _ (by simp [hsize, hsig]), htimes, htokens, hsigs]
  rw [verdict_of_payload _ _ (by simp [htime, htoken, hsig])
    (by simp only [hsize, htime, htoken, hsig, if_false, Option.bind_some, Option.map_some]; rfl),
    htimes, htokens, hsigs, hsig]
  simp [compareTo_eq, toString]

section Validate

variable (p : Primitives) (provider : Provider) (body : Bytes) (headers : Headers)
variable (secret : String)

/-- Every validator is the check of its provider's scheme. -/
theorem validate_eq (h : LowerCased headers) : validate p provider body headers secret =
    ((signed p provider body headers secret).verdict typeError).map toResult := by
  cases provider with
  | stripe => exact stripe_eq p body h secret
  | mailgun => exact mailgun_eq p body secret
  | discord => exact discord_eq p body h secret
  | slack => exact slack_eq p body h secret
  | github =>
    simp only [validate, validateGithub, signed, ← validateBody_eq]
    rw [header_eq h (by exact toLower_ofList _)]
  | shopify =>
    simp only [validate, validateShopify, signed, ← validateBody_eq]
    rw [header_eq h (by exact toLower_ofList _)]
  | twilio =>
    simp only [validate, validateTwilio, signed, ← validateBody_eq]
    rw [header_eq h (by exact toLower_ofList _)]
  | zapier =>
    simp only [validate, validateZapier, signed, ← validateBody_eq]
    rw [header_eq h (by exact toLower_ofList _)]
  | n8n =>
    simp only [validate, validateN8n, signed, ← validateBody_eq]
    rw [header_eq h (by exact toLower_ofList _)]

/-- Nothing is raised, and the result is VALID, MISSING or INVALID as the scheme has it. -/
def Exact : Prop :=
  ∃ result, validate p provider body headers secret = .ok result ∧
    (result = .valid ↔ (signed p provider body headers secret).Satisfied) ∧
    (result = .missing ↔ (signed p provider body headers secret).present = false) ∧
    (result = .invalid ↔ ¬ (signed p provider body headers secret).Satisfied ∧
      (signed p provider body headers secret).present = true)

/-- Outside Discord, every text that is compared with the digest is ASCII: the signature of
the request, or the `v1` entries of Stripe up to the first that matches. -/
def ComparesAscii : Prop :=
  ∀ payload, (signed p provider body headers secret).payload = some payload →
    ∀ text ∈ (signed p provider body headers secret).compared payload,
      provider = .discord ∨ isAscii text = true

theorem comparable_iff (text : String) :
    (signed p provider body headers secret).comparable text = true ↔
      provider = .discord ∨ isAscii text = true := by
  cases provider <;>
    simp [signed, bodySigned, stripeSigned, slackSigned, mailgunSigned, discordSigned, macSigned]

/-- A validator is exact if and only if it compares no signature that is not ASCII. -/
theorem validate_exact_iff (h : LowerCased headers) :
    Exact p provider body headers secret ↔ ComparesAscii p provider body headers secret := by
  have hscheme := Signed.exact_verdict_iff (m := signed p provider body headers secret) typeError
  simp only [comparable_iff] at hscheme
  rw [ComparesAscii, ← hscheme, Exact, validate_eq p provider body headers secret h]
  constructor
  · intro hexact
    obtain ⟨result, hresult, hvalid, hmissing, -⟩ := hexact
    cases hverdict : (signed p provider body headers secret).verdict typeError with
    | error error => simp [hverdict, Except.map] at hresult
    | ok verdict =>
      rw [hverdict] at hresult
      obtain rfl := Except.ok.inj hresult
      refine ⟨verdict, rfl, ?_, ?_⟩
      · cases verdict <;> simpa [toResult] using hvalid
      · cases verdict <;> simpa [toResult] using hmissing
  · intro hexact
    obtain ⟨verdict, hverdict, hvalid, hmissing⟩ := hexact
    refine ⟨toResult verdict, by rw [hverdict]; rfl, ?_, ?_, ?_⟩
    · cases verdict <;> simpa [toResult] using hvalid
    · cases verdict <;> simpa [toResult] using hmissing
    · rw [← hvalid, ← Bool.not_eq_false, ← hmissing]
      cases verdict <;> simp [toResult]

end Validate

def sampleSecret : String := "It's a Secret to Everybody"

def githubHeaders (sig : String) : Headers :=
  PyDict.empty.set "x-hub-signature-256" ("sha256=" ++ sig)

theorem github_exact :
    Exact samplePrimitives .github (encodeUtf8 "Hello, World!")
      (githubHeaders "757107ea0eb2509fc211221cce984b8a37570b6d7586c22c46f4379c8b043e17")
      sampleSecret := by
  refine (validate_exact_iff _ _ _ _ _ (by decide +kernel)).mpr ?_
  intro payload hpayload
  obtain rfl : encodeUtf8 "Hello, World!" = payload := Option.some.inj hpayload
  decide +kernel

/-- A signature with a letter outside ASCII is neither valid nor invalid: the validator raises. -/
theorem github_raises : ¬ ∀ p provider body headers secret, LowerCased headers → secret ≠ "" →
    Exact p provider body headers secret := by
  intro hclaim
  obtain ⟨result, hresult, -⟩ := hclaim samplePrimitives .github (encodeUtf8 "Hello, World!")
    (githubHeaders "é") sampleSecret (by decide +kernel) (by decide +kernel)
  have hraises : validate samplePrimitives .github (encodeUtf8 "Hello, World!")
      (githubHeaders "é") sampleSecret = .error typeError := by
    decide +kernel
  simp [hraises] at hresult

end Hooktrace.SignatureValidation
