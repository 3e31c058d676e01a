import Hooktrace.ExecuteForward
import Hooktrace.UrlEncoding

/-!
The nine validators. Digests and the Ed25519 verification are given; what the validators do
with headers, prefixes, encodings and bodies around them is theirs.
-/
namespace Hooktrace.SignatureValidators

open ExecuteForward (PyError)

/-- The digests of the standard library are ASCII texts. -/
structure Primitives where
  hmacSha256Hex : Bytes → Bytes → String
  hmacSha256Base64 : Bytes → Bytes → String
  hmacSha1Base64 : Bytes → Bytes → String
  /-- Public key, signature and message; false is an InvalidSignature. -/
  ed25519Verify : Bytes → Bytes → Bytes → Bool
  hmacSha256Hex_ascii : ∀ key message, isAscii (hmacSha256Hex key message) = true
  hmacSha256Base64_ascii : ∀ key message, isAscii (hmacSha256Base64 key message) = true
  hmacSha1Base64_ascii : ∀ key message, isAscii (hmacSha1Base64 key message) = true

inductive ValidationResult where
  | valid
  | invalid
  | missing
  | noProvider
  deriving DecidableEq

/-- The text of the column. -/
def ValidationResult.value : ValidationResult → String
  | .valid => "valid"
  | .invalid => "invalid"
  | .missing => "missing"
  | .noProvider => "no_provider"

inductive Provider where
  | stripe
  | github
  | shopify
  | twilio
  | mailgun
  | discord
  | slack
  | zapier
  | n8n
  deriving DecidableEq

/-- `_VALIDATORS`. -/
def validators : List (String × Provider) :=
  [("stripe", .stripe), ("github", .github), ("shopify", .shopify), ("twilio", .twilio),
    ("mailgun", .mailgun), ("discord", .discord), ("slack", .slack), ("zapier", .zapier),
    ("n8n", .n8n)]

def getValidator (provider : String) : Option Provider :=
  (validators.find? fun entry => entry.1 = provider.toLower).map Prod.snd

/-- A text that is there and not empty. -/
def given (text : Option String) : Option String := text.filter (· ≠ "")

/-- `headers.get(lower) or headers.get(canonical)`. -/
def header (headers : Headers) (lower canonical : String) : Option String :=
  (given (headers.get? lower)).or (given (headers.get? canonical))

/-- `hmac.compare_digest` on two texts. -/
def compareDigest (expected actual : String) : Except PyError Bool :=
  if isAscii expected ∧ isAscii actual then .ok (expected == actual)
  else .error (.other "TypeError")

def judge (matched : Bool) : ValidationResult := if matched then .valid else .invalid

def compareTo (expected actual : String) : Except PyError ValidationResult :=
  (compareDigest expected actual).map judge

/-- What follows the prefix, where the text starts with it. -/
def afterPrefix (start text : String) : Option String :=
  if start.toList <+: text.toList then some (.ofList (text.toList.drop start.toList.length))
  else none

/-- The validators of a signature over the raw body, in one header. -/
def validateBody (digest : Bytes → Bytes → String) (header : Option String)
    (signature : String → Option String) (body : Bytes) (secret : String) :
    Except PyError ValidationResult :=
  match header with
  | none => .ok .missing
  | some text =>
    match signature text with
    | none => .ok .invalid
    | some actual => compareTo (digest (encodeUtf8 secret) body) actual

def validateGithub (p : Primitives) (body : Bytes) (headers : Headers) (secret : String) :
    Except PyError ValidationResult :=
  validateBody p.hmacSha256Hex (header headers "x-hub-signature-256" "X-Hub-Signature-256")
    (afterPrefix "sha256=") body secret

def validateShopify (p : Primitives) (body : Bytes) (headers : Headers) (secret : String) :
    Except PyError ValidationResult :=
  validateBody p.hmacSha256Base64
    (header headers "x-shopify-hmac-sha256" "X-Shopify-Hmac-Sha256")
    (fun text => some (strip text)) body secret

def validateTwilio (p : Primitives) (body : Bytes) (headers : Headers) (secret : String) :
    Except PyError ValidationResult :=
  validateBody p.hmacSha1Base64 (header headers "x-twilio-signature" "X-Twilio-Signature")
    (fun text => some (strip text)) body secret

def validateZapier (p : Primitives) (body : Bytes) (headers : Headers) (secret : String) :
    Except PyError ValidationResult :=
  validateBody p.hmacSha256Hex (header headers "x-hook-signature" "X-Hook-Signature")
    (fun text => some (strip text)) body secret

def validateN8n (p : Primitives) (body : Bytes) (headers : Headers) (secret : String) :
    Except PyError ValidationResult :=
  validateBody p.hmacSha256Hex (header headers "x-n8n-signature" "X-N8N-Signature")
    (fun text => some (strip text)) body secret

def validateSlack (p : Primitives) (body : Bytes) (headers : Headers) (secret : String) :
    Except PyError ValidationResult :=
  match header headers "x-slack-signature" "X-Slack-Signature",
      header headers "x-slack-request-timestamp" "X-Slack-Request-Timestamp" with
  | some sigHeader, some timestamp =>
    match afterPrefix "v0=" sigHeader with
    | none => .ok .invalid
    | some actual =>
      match decodeUtf8 body with
      | none => .ok .invalid
      | some text =>
        compareTo (p.hmacSha256Hex (encodeUtf8 secret) (encodeUtf8 s!"v0:{timestamp}:{text}"))
          actual
  | _, _ => .ok .missing

/-- The entries of a Stripe header: the last `t`, and every `v1`. -/
structure StripeEntries where
  timestamp : Option String
  signatures : List String

def stripeEntry (entries : StripeEntries) (chunk : List Char) : StripeEntries :=
  match cut '=' chunk with
  | (_, none) => entries
  | (k, some v) =>
    let k := strip (.ofList k)
    let v := strip (.ofList v)
    if k = "t" then { entries with timestamp := some v }
    else if k = "v1" then { entries with signatures := entries.signatures ++ [v] }
    else entries

def stripeEntries (header : String) : StripeEntries :=
  (splitOn ',' header.toList).foldl stripeEntry ⟨none, []⟩

/-- The loop over the `v1` entries, which ends at the first match. -/
def anyMatches (expected : String) : List String → Except PyError Bool
  | [] => .ok false
  | actual :: rest =>
    match compareDigest expected actual with
    | .error error => .error error
    | .ok true => .ok true
    | .ok false => anyMatches expected rest

def validateStripe (p : Primitives) (body : Bytes) (headers : Headers) (secret : String) :
    Except PyError ValidationResult :=
  match header headers "stripe-signature" "Stripe-Signature" with
  | none => .ok .missing
  | some text =>
    match given (stripeEntries text).timestamp, (stripeEntries text).signatures with
    | none, _ => .ok .invalid
    | some _, [] => .ok .invalid
    | some timestamp, signatures =>
      match decodeUtf8 body with
      | none => .ok .invalid
      | some payload =>
        (anyMatches (p.hmacSha256Hex (encodeUtf8 secret) (encodeUtf8 s!"{timestamp}.{payload}"))
          signatures).map judge

def mailgunMaxBodyBytes : ℕ := 64 * 1024

/-- The signature is in the form; `parse_qs` raises nothing here. -/
def validateMailgun (p : Primitives) (body : Bytes) (secret : String) :
    Except PyError ValidationResult :=
  if body.length > mailgunMaxBodyBytes then .ok .invalid
  else
    let parsed := UrlEncoding.parseQs false (decodeReplace body)
    match (parsed.get? "timestamp").getD [], (parsed.get? "token").getD [],
        (parsed.get? "signature").getD [] with
    | timestamp :: _, token :: _, actual :: _ =>
      compareTo (p.hmacSha256Hex (encodeUtf8 secret) (encodeUtf8 s!"{timestamp}{token}")) actual
    | _, _, _ => .ok .missing

/-- The whitespace that `bytes.fromhex` skips. -/
def hexSpace (c : Char) : Bool := (0x09 ≤ c.toNat ∧ c.toNat ≤ 0x0D) ∨ c = ' '

/-- `bytes.fromhex`; `none` is a ValueError. -/
def fromhex : List Char → Option Bytes
  | [] => some []
  | a :: rest =>
    if hexSpace a then fromhex rest
    else match rest with
      | [] => none
      | b :: rest' => do
        let x ← UrlEncoding.hexDigit a
        let y ← UrlEncoding.hexDigit b
        let bytes ← fromhex rest'
        pure ((16 * x + y).toUInt8 :: bytes)

/-- The key, which must have 32 bytes, and the verification of the payload. -/
def verifyEd25519 (p : Primitives) (secret sigHex : String) (payload : Bytes) : Bool :=
  match fromhex secret.toList, fromhex sigHex.toList with
  | some key, some sig => key.length = 32 ∧ p.ed25519Verify key sig payload
  | _, _ => false

/-- The secret is a public key; whatever the verification raises is caught. -/
def validateDiscord (p : Primitives) (body : Bytes) (headers : Headers) (secret : String) :
    Except PyError ValidationResult :=
  match header headers "x-signature-ed25519" "X-Signature-Ed25519",
      header headers "x-signature-timestamp" "X-Signature-Timestamp" with
  | some sigHex, some timestamp =>
    match decodeUtf8 body with
    | none => .ok .invalid
    | some text => .ok (judge (verifyEd25519 p secret sigHex (encodeUtf8 (timestamp ++ text))))
  | _, _ => .ok .missing

def validate (p : Primitives) (provider : Provider) (body : Bytes) (headers : Headers)
    (secret : String) : Except PyError ValidationResult :=
  match provider with
  | .stripe => validateStripe p body headers secret
  | .github => validateGithub p body headers secret
  | .shopify => validateShopify p body headers secret
  | .twilio => validateTwilio p body headers secret
  | .mailgun => validateMailgun p body secret
  | .discord => validateDiscord p body headers secret
  | .slack => validateSlack p body headers secret
  | .zapier => validateZapier p body headers secret
  | .n8n => validateN8n p body headers secret

def samplePrimitives : Primitives where
  hmacSha256Hex _ _ := "757107ea0eb2509fc211221cce984b8a37570b6d7586c22c46f4379c8b043e17"
  hmacSha256Base64 _ _ := "dXEH6g6yUJ/CESIczphLijdXC211hsIsRvQ3nIsEPhc="
  hmacSha1Base64 _ _ := "AdwQ0Mg+cu0kYhnN2RZpZn/iylk="
  ed25519Verify _ _ _ := false
  hmacSha256Hex_ascii _ _ := all_ofList (by decide)
  hmacSha256Base64_ascii _ _ := all_ofList (by decide)
  hmacSha1Base64_ascii _ _ := all_ofList (by decide)

end Hooktrace.SignatureValidators
