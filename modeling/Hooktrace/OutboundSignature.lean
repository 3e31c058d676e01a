import Hooktrace.HeaderAuthority
import Hooktrace.JsonDumps

/-!
The signature of a forward is written as Stripe writes its own: the header that is sent, read by
the validator of the Stripe scheme, is valid for the body and the secret it was made of, and for
no other.
-/
namespace Hooktrace.OutboundSignature

open ExecuteForward (ClaimedState Clock Collaborators decryptSecret outboundHeaders)
open HeaderAuthority (signs)
open SignatureValidators

def signForward (p : Primitives) (secret : Bytes) (timestamp : ℤ) (body : Bytes) : String :=
  p.hmacSha256Hex secret (encodeUtf8 s!"{timestamp}." ++ body)

/-- The value of `X-Hooktrace-Signature`. -/
def signatureHeader (p : Primitives) (secret : String) (timestamp : ℤ) (body : Bytes) : String :=
  s!"t={timestamp},v1={signForward p (encodeUtf8 secret) timestamp body}"

def hexDigits : List Char :=
  ['0', '1', '2', '3', '4', '5', '6', '7', '8', '9', 'a', 'b', 'c', 'd', 'e', 'f']

/-- What `hexdigest` promises. -/
def HexDigest (p : Primitives) : Prop :=
  ∀ key message, ∀ c ∈ (p.hmacSha256Hex key message).toList, c ∈ hexDigits

section Texts

/-- Neither the separator of the entries nor blank. -/
def Plain (text : List Char) : Prop := ∀ c ∈ text, c ≠ ',' ∧ isSpace c = false

theorem strip_of_plain {text : String} (h : Plain text.toList) : strip text = text := by
  have hdrop (l : List Char) (hl : ∀ c ∈ l, isSpace c = false) : l.dropWhile isSpace = l := by
    cases l with
    | nil => rfl
    | cons c l => rw [List.dropWhile_cons_of_neg (by simp [hl c List.mem_cons_self])]
  rw [strip, hdrop text.toList fun c hc => (h c hc).2,
    hdrop text.toList.reverse fun c hc => (h c (List.mem_reverse.mp hc)).2, List.reverse_reverse,
    String.ofList_toList]

/-- The entries of the header are what they were made of. -/
theorem stripeEntries_header {timestamp sig : String} (htimestamp : Plain timestamp.toList)
    (hsig : Plain sig.toList) :
    stripeEntries s!"t={timestamp},v1={sig}" = ⟨some timestamp, [sig]⟩ := by
  have htext : s!"t={timestamp},v1={sig}".toList =
      ('t' :: '=' :: timestamp.toList) ++ ',' :: ('v' :: '1' :: '=' :: sig.toList) := by
    simp [toString]
  have hfirst : ',' ∉ 't' :: '=' :: timestamp.toList := by
    simpa using fun hmem => (htimestamp _ hmem).1 rfl
  have hsecond : ',' ∉ 'v' :: '1' :: '=' :: sig.toList := by
    simpa using fun hmem => (hsig _ hmem).1 rfl
  have ht : cut '=' ('t' :: '=' :: timestamp.toList) = (['t'], some timestamp.toList) :=
    @cut_append '=' ['t'] (by decide) _
  have hv1 : cut '=' ('v' :: '1' :: '=' :: sig.toList) = (['v', '1'], some sig.toList) :=
    @cut_append '=' ['v', '1'] (by decide) _
  have hstript : strip (.ofList ['t']) = "t" := strip_of_plain (by simp [Plain, isSpace])
  have hstripv1 : strip (.ofList ['v', '1']) = "v1" := strip_of_plain (by simp [Plain, isSpace])
  rw [stripeEntries, htext, splitOn_append hfirst, splitOn_of_notMem hsecond]
  simp only [List.foldl_cons, List.foldl_nil, stripeEntry, ht, hv1, hstript, hstripv1,
    String.ofList_toList, strip_of_plain htimestamp, strip_of_plain hsig]
  simp

/-- Behind the comma, and within ASCII. -/
theorem plain_of_bounds {text : List Char} (h : ∀ c ∈ text, 0x2D ≤ c.toNat ∧ c.toNat < 0x7F) :
    Plain text := by
  intro c hc
  have hbounds := h c hc
  refine ⟨?_, ?_⟩
  · rintro rfl
    exact absurd hbounds (by decide)
  · simp only [isSpace, decide_eq_false_iff_not]
    omega

theorem plain_toString (timestamp : ℤ) : Plain (toString timestamp).toList := by
  obtain ⟨sign, m, hsign, heq⟩ := JsonDumps.toList_toString timestamp
  rw [heq]
  refine plain_of_bounds fun c hc => ?_
  rcases List.mem_append.mp hc with hc | hc
  · rcases hsign with rfl | rfl
    · exact absurd hc List.not_mem_nil
    · rw [List.mem_singleton.mp hc]
      decide
  · have hdigit := JsonText.isDigit_bounds ((JsonDumps.digits_repr m).2 c hc)
    omega

theorem toString_ne_empty (timestamp : ℤ) : toString timestamp ≠ "" := by
  obtain ⟨sign, m, -, heq⟩ := JsonDumps.toList_toString timestamp
  intro hempty
  rw [hempty] at heq
  have hnil : sign = [] ∧ m.repr.toList = [] := by simpa using heq.symm
  exact (JsonDumps.digits_repr m).1 hnil.2

theorem plain_hexDigest {p : Primitives} (h : HexDigest p) (key message : Bytes) :
    Plain (p.hmacSha256Hex key message).toList := by
  have hdigits : hexDigits.all (fun c => 0x2D ≤ c.toNat ∧ c.toNat < 0x7F) = true := by decide
  exact plain_of_bounds fun c hc =>
    of_decide_eq_true (List.all_eq_true.mp hdigits c (h key message c hc))

end Texts

section Validate

variable {p : Primitives}

theorem signatureHeader_ne_empty (secret : String) (timestamp : ℤ) (body : Bytes) :
    signatureHeader p secret timestamp body ≠ "" := by
  intro heq
  have hlist := congrArg String.toList heq
  simp [signatureHeader, toString] at hlist

theorem header_signatureHeader (headers : Headers) (secret : String) (timestamp : ℤ)
    (body : Bytes) :
    header (headers.set "stripe-signature" (signatureHeader p secret timestamp body))
      "stripe-signature" "Stripe-Signature" = some (signatureHeader p secret timestamp body) := by
  simp [header, given, signatureHeader_ne_empty]

theorem entries_signatureHeader (hhex : HexDigest p) (secret : String) (timestamp : ℤ)
    (body : Bytes) : stripeEntries (signatureHeader p secret timestamp body) =
      ⟨some (toString timestamp), [signForward p (encodeUtf8 secret) timestamp body]⟩ :=
  stripeEntries_header (plain_toString timestamp) (plain_hexDigest hhex _ _)

theorem given_toString (timestamp : ℤ) :
    given (some (toString timestamp)) = some (toString timestamp) := by
  simpa [given] using toString_ne_empty timestamp

theorem isAscii_signForward (secret : Bytes) (timestamp : ℤ) (body : Bytes) :
    isAscii (signForward p secret timestamp body) = true := p.hmacSha256Hex_ascii _ _

theorem anyMatches_singleton {expected actual : String} (hexpected : isAscii expected = true)
    (hactual : isAscii actual = true) :
    anyMatches expected [actual] = .ok (expected == actual) := by
  simp only [anyMatches, compareDigest, hexpected, hactual, and_self, if_true]
  cases expected == actual <;> rfl

/-- What the validator computes from a header of the service: the digest of the body it is given,
under the secret it is given, against the one in the header. -/
theorem validateStripe_signatureHeader (hhex : HexDigest p) (headers : Headers)
    (secret secret' : String) (timestamp : ℤ) (body : Bytes) (text : String) :
    validate p .stripe (encodeUtf8 text)
        (headers.set "stripe-signature" (signatureHeader p secret timestamp body)) secret' =
      .ok (judge (signForward p (encodeUtf8 secret') timestamp (encodeUtf8 text) ==
        signForward p (encodeUtf8 secret) timestamp body)) := by
  have hdecode : decodeUtf8 (encodeUtf8 text) = some text := decodeUtf8_eq_some.mpr rfl
  have hpayload : encodeUtf8 s!"{toString timestamp}.{text}" =
      encodeUtf8 s!"{timestamp}." ++ encodeUtf8 text := by
    rw [← encodeUtf8_append]
    simp [toString]
  simp only [validate, validateStripe, header_signatureHeader, entries_signatureHeader hhex,
    given_toString, hdecode, hpayload]
  have hsigned : p.hmacSha256Hex (encodeUtf8 secret') (encodeUtf8 s!"{timestamp}." ++
      encodeUtf8 text) = signForward p (encodeUtf8 secret') timestamp (encodeUtf8 text) := rfl
  rw [hsigned, anyMatches_singleton (isAscii_signForward _ _ _) (isAscii_signForward _ _ _)]
  rfl

/-- A body that is no UTF-8 is invalid. -/
theorem validateStripe_of_not_utf8 (hhex : HexDigest p) (headers : Headers)
    (secret secret' : String) (timestamp : ℤ) (body body' : Bytes)
    (h : decodeUtf8 body' = none) :
    validate p .stripe body'
        (headers.set "stripe-signature" (signatureHeader p secret timestamp body)) secret' =
      .ok .invalid := by
  simp only [validate, validateStripe, header_signatureHeader, entries_signatureHeader hhex,
    given_toString, h]

end Validate

section Outbound

variable {p : Primitives}

theorem encodeUtf8_injective {s t : String} (h : encodeUtf8 s = encodeUtf8 t) : s = t :=
  Option.some.inj ((decodeUtf8_eq_some.mpr rfl).symm.trans (decodeUtf8_eq_some.mpr h.symm))

/-- Under an injective digest nothing else has the signature. -/
theorem signForward_inj (h : Function.Injective2 p.hmacSha256Hex) {secret secret' : String}
    {timestamp : ℤ} {body body' : Bytes}
    (heq : signForward p (encodeUtf8 secret') timestamp body' =
      signForward p (encodeUtf8 secret) timestamp body) : body' = body ∧ secret' = secret := by
  obtain ⟨hkey, hmessage⟩ := h heq
  exact ⟨List.append_cancel_left hmessage, encodeUtf8_injective hkey⟩

theorem validate_other (hhex : HexDigest p) (h : Function.Injective2 p.hmacSha256Hex)
    (headers : Headers) {secret secret' : String} (timestamp : ℤ) {body body' : Bytes}
    (hother : body' ≠ body ∨ secret' ≠ secret) :
    validate p .stripe body'
        (headers.set "stripe-signature" (signatureHeader p secret timestamp body)) secret' =
      .ok .invalid := by
  cases hbody : decodeUtf8 body' with
  | none => exact validateStripe_of_not_utf8 hhex headers secret secret' timestamp body body' hbody
  | some text =>
    obtain rfl := decodeUtf8_eq_some.mp hbody
    rw [validateStripe_signatureHeader hhex]
    have hne : signForward p (encodeUtf8 secret') timestamp (encodeUtf8 text) ≠
        signForward p (encodeUtf8 secret) timestamp body := by
      intro heq
      obtain ⟨hsame, hsecret⟩ := signForward_inj h heq
      rcases hother with hbody | hsecret'
      · exact hbody hsame
      · exact hsecret' hsecret
    rw [beq_false_of_ne hne]
    rfl

theorem signatureHeader_sent {env : Collaborators} {clock : Clock} {state : ClaimedState}
    {headers : Headers} (hdigest : env.hmacSha256Hex = p.hmacSha256Hex)
    (hsigns : signs state = true) (h : outboundHeaders env clock state = .ok headers) :
    ∃ blob secret, state.endpoint.forwardSecretEncrypted = some blob ∧
      decryptSecret env env.secretsKey blob = .ok secret ∧
      headers.get? "X-Hooktrace-Signature" =
        some (signatureHeader p secret clock.unixNow state.body) := by
  rcases HeaderAuthority.outboundHeaders_eq h with ⟨hoff, -, -⟩ | ⟨value, -, hvalue, rfl⟩
  · exact absurd (hoff.symm.trans hsigns) Bool.false_ne_true
  · unfold HeaderAuthority.signatureValue at hvalue
    split at hvalue
    · cases hvalue
    · cases hvalue
    · rename_i blob _ hblob
      cases hsecret : decryptSecret env env.secretsKey blob with
      | error interrupt => simp [hsecret, bind, Except.bind] at hvalue
      | ok secret =>
        simp only [hsecret, bind, Except.bind, pure, Except.pure, Except.ok.injEq,
          Option.some.injEq] at hvalue
        refine ⟨blob, secret, hblob, hsecret, ?_⟩
        rw [PyDict.get?_set, if_pos rfl, ← hvalue, ExecuteForward.signForward, hdigest]
        rfl

/-- What a forward is signed with verifies under the scheme of Stripe, for its body and its secret
only. -/
theorem outbound_verifies (hhex : HexDigest p) :
    (∀ (headers : Headers) (secret : String) (timestamp : ℤ) (body : Bytes),
      (decodeUtf8 body).isSome = true →
      validate p .stripe body
          (headers.set "stripe-signature" (signatureHeader p secret timestamp body)) secret =
        .ok .valid) ∧
    (Function.Injective2 p.hmacSha256Hex →
      ∀ (headers : Headers) (secret secret' : String) (timestamp : ℤ) (body body' : Bytes),
        body' ≠ body ∨ secret' ≠ secret →
        validate p .stripe body'
            (headers.set "stripe-signature" (signatureHeader p secret timestamp body)) secret' =
          .ok .invalid) ∧
    ∀ (env : Collaborators) (clock : Clock) (state : ClaimedState) (headers : Headers),
      env.hmacSha256Hex = p.hmacSha256Hex → signs state = true →
      outboundHeaders env clock state = .ok headers →
      ∃ blob secret, state.endpoint.forwardSecretEncrypted = some blob ∧
        decryptSecret env env.secretsKey blob = .ok secret ∧
        headers.get? "X-Hooktrace-Signature" =
          some (signatureHeader p secret clock.unixNow state.body) := by
  refine ⟨fun headers secret timestamp body hbody => ?_,
    fun hinjective headers secret secret' timestamp body body' hother =>
      validate_other hhex hinjective headers timestamp hother,
    fun env clock state headers hdigest hsigns h => signatureHeader_sent hdigest hsigns h⟩
  obtain ⟨text, htext⟩ := Option.isSome_iff_exists.mp hbody
  obtain rfl := decodeUtf8_eq_some.mp htext
  rw [validateStripe_signatureHeader hhex, beq_self_eq_true]
  rfl

end Outbound

section Samples

/-- Bytes as texts of two letters. -/
def spellBytes (bytes : Bytes) : List Char :=
  bytes.flatMap fun b => List.replicate b.toNat 'a' ++ ['b']

theorem spellBytes_cons (b : UInt8) (bytes : Bytes) :
    spellBytes (b :: bytes) = List.replicate b.toNat 'a' ++ 'b' :: spellBytes bytes := by
  simp [spellBytes]

theorem mem_spellBytes {c : Char} {bytes : Bytes} (h : c ∈ spellBytes bytes) :
    c = 'a' ∨ c = 'b' := by
  obtain ⟨b, -, hc⟩ := List.mem_flatMap.mp h
  rcases List.mem_append.mp hc with hc | hc
  · exact Or.inl (List.eq_of_mem_replicate hc)
  · exact Or.inr (List.mem_singleton.mp hc)

/-- What stands before the first separator and behind it is determined. -/
theorem append_cons_inj {sep : Char} {s s' t t' : List Char} (hs : sep ∉ s) (hs' : sep ∉ s')
    (h : s ++ sep :: t = s' ++ sep :: t') : s = s' ∧ t = t' := by
  have hcut := congrArg (cut sep) h
  rw [cut_append hs, cut_append hs'] at hcut
  simpa using hcut

theorem spellBytes_injective : Function.Injective spellBytes := by
  intro bytes
  induction bytes with
  | nil =>
    intro bytes' h
    cases bytes' with
    | nil => rfl
    | cons b' rest' => simp [spellBytes] at h
  | cons b rest ih =>
    intro bytes' h
    cases bytes' with
    | nil => simp [spellBytes] at h
    | cons b' rest' =>
      rw [spellBytes_cons, spellBytes_cons] at h
      have hfree (n : ℕ) : 'b' ∉ List.replicate n 'a' := by simp [List.mem_replicate]
      obtain ⟨hcount, hrest⟩ := append_cons_inj (hfree _) (hfree _) h
      have hbyte : b = b' := UInt8.toNat_inj.mp (by simpa using congrArg List.length hcount)
      rw [hbyte, ih hrest]

def spell (key message : Bytes) : List Char := spellBytes key ++ 'c' :: spellBytes message

theorem mem_spell {c : Char} {key message : Bytes} (h : c ∈ spell key message) :
    c = 'a' ∨ c = 'b' ∨ c = 'c' := by
  simp only [spell, List.mem_append, List.mem_cons] at h
  rcases h with h | rfl | h
  · exact (mem_spellBytes h).imp_right Or.inl
  · exact Or.inr (Or.inr rfl)
  · exact (mem_spellBytes h).imp_right Or.inl

theorem spell_inj {key key' message message' : Bytes}
    (h : spell key message = spell key' message') : key = key' ∧ message = message' := by
  have hfree (bytes : Bytes) : 'c' ∉ spellBytes bytes := by
    intro hmem
    rcases mem_spellBytes hmem with hc | hc
    · exact absurd hc (by decide)
    · exact absurd hc (by decide)
  obtain ⟨hkey, hmessage⟩ := append_cons_inj (hfree _) (hfree _) h
  exact ⟨spellBytes_injective hkey, spellBytes_injective hmessage⟩

def sampleKey : Bytes := encodeUtf8 "whsec_5f"

def sampleMessage : Bytes := encodeUtf8 "1700000000.ping"

def sampleDigest : String := "2cff208211f8bf4fcc51db042eca71bb4490230ab35482840e1ad228b6722e35"

def sampleHex (key message : Bytes) : String :=
  if key = sampleKey ∧ message = sampleMessage then sampleDigest else .ofList (spell key message)

theorem mem_sampleHex {key message : Bytes} {c : Char} (h : c ∈ (sampleHex key message).toList) :
    c ∈ hexDigits := by
  unfold sampleHex at h
  split at h
  · have hdigits : sampleDigest.toList.all (fun c => hexDigits.contains c) = true :=
      all_ofList (by decide +kernel)
    simpa using List.all_eq_true.mp hdigits c h
  · rw [String.toList_ofList] at h
    rcases mem_spell h with rfl | rfl | rfl <;> decide

theorem sampleHex_injective : Function.Injective2 sampleHex := by
  -- the digest has a digit, and no other text has one
  have hdigest (key message : Bytes) : sampleDigest ≠ .ofList (spell key message) := by
    intro heq
    have hmem : '2' ∈ spell key message := by
      have hmem : '2' ∈ sampleDigest.toList := by simp [sampleDigest]
      rwa [heq, String.toList_ofList] at hmem
    rcases mem_spell hmem with hc | hc | hc
    all_goals exact absurd hc (by decide)
  intro key key' message message' h
  unfold sampleHex at h
  split at h
  · rename_i hsample
    split at h
    · rename_i hsample'
      exact ⟨hsample.1.trans hsample'.1.symm, hsample.2.trans hsample'.2.symm⟩
    · exact absurd h (hdigest _ _)
  · split at h
    · exact absurd h.symm (hdigest _ _)
    · exact spell_inj (String.ofList_inj.mp h)

def samplePrimitives : Primitives := { SignatureValidators.samplePrimitives with
  hmacSha256Hex := sampleHex
  hmacSha256Hex_ascii key message := by
    refine List.all_eq_true.mpr fun c hc => ?_
    have hdigits : hexDigits.all (fun c => c.toNat < 0x80) = true := by decide
    exact List.all_eq_true.mp hdigits c (mem_sampleHex hc) }

theorem ping_verifies :
    validate samplePrimitives .stripe (encodeUtf8 "ping") (PyDict.empty.set "stripe-signature"
        (signatureHeader samplePrimitives "whsec_5f" 1700000000 (encodeUtf8 "ping")))
      "whsec_5f" = .ok .valid ∧
    validate samplePrimitives .stripe (encodeUtf8 "pong") (PyDict.empty.set "stripe-signature"
        (signatureHeader samplePrimitives "whsec_5f" 1700000000 (encodeUtf8 "ping")))
      "whsec_5f" = .ok .invalid := by
  have hhex : HexDigest samplePrimitives := fun key message c hc => mem_sampleHex hc
  obtain ⟨hvalid, hinvalid, -⟩ := outbound_verifies hhex
  refine ⟨hvalid _ _ _ _ (by decide +kernel),
    hinvalid sampleHex_injective _ _ _ _ _ _ (Or.inl (by decide +kernel))⟩

end Samples

end Hooktrace.OutboundSignature
