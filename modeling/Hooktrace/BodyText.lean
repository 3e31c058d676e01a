import Hooktrace.BodyFidelity
import Hooktrace.ExportRequests
import Hooktrace.UrlEncoding

/-!
The text of a body. A body that is no UTF-8 is shown by its escapes, which are longer than the
body itself; a text that looks like them is as long as it looks. So the text and the size tell
the body, wherever it was kept.
-/
namespace Hooktrace.BodyText

open BodyFidelity (StoresBody)
open CaptureRequest (Input decodeBodySafe isInline prepare prepare_body prepare_describes)
open ExecuteForward (Answer)
open ExportRequests (requestToDict resolveBody)
open JsonDumps (PyValue)
open UrlEncoding (hexDigit hexDigit_hexChar)

/-- The byte that an escape or a character of its own stands for, and what follows. -/
def readByte : List Char → Option (UInt8 × List Char)
  | '\\' :: 'x' :: a :: b :: rest =>
    match hexDigit a, hexDigit b with
    | some high, some low => some (UInt8.ofNat (16 * high + low), rest)
    | _, _ => none
  | '\\' :: 't' :: rest => some (0x09, rest)
  | '\\' :: 'n' :: rest => some (0x0A, rest)
  | '\\' :: 'r' :: rest => some (0x0D, rest)
  | '\\' :: c :: rest => some (UInt8.ofNat c.toNat, rest)
  | c :: rest => some (UInt8.ofNat c.toNat, rest)
  | [] => none

section Escapes

variable {quote : Char} {b : UInt8}

theorem readByte_self {c : Char} (hc : c ≠ '\\') (rest : List Char) :
    readByte (c :: rest) = some (UInt8.ofNat c.toNat, rest) := by
  rw [readByte]
  all_goals simp_all

theorem ofNat_toNat_char (b : UInt8) : UInt8.ofNat (Char.ofNat b.toNat).toNat = b := by
  have hvalid : b.toNat.isValidChar := Or.inl (Nat.lt_trans b.toNat_lt (by decide))
  rw [Char.toNat_ofNat, if_pos hvalid, UInt8.ofNat_toNat]

/-- The escape is reversible, whichever quotes are taken. -/
theorem readByte_reprByte (hquote : quote = '\'' ∨ quote = '"') (b : UInt8) (rest : List Char) :
    readByte (reprByte quote b ++ rest) = some (b, rest) := by
  unfold reprByte
  split
  · rename_i hb
    subst hb
    rfl
  split
  · rename_i hb
    have hbyte : UInt8.ofNat quote.toNat = b := by rw [← hb, UInt8.ofNat_toNat]
    rcases hquote with rfl | rfl
    · rw [← hbyte]
      rfl
    · rw [← hbyte]
      rfl
  split
  · rename_i hb
    subst hb
    rfl
  split
  · rename_i hb
    subst hb
    rfl
  split
  · rename_i hb
    subst hb
    rfl
  split
  · have hhigh : b.toNat / 16 < 16 := Nat.div_lt_of_lt_mul b.toNat_lt
    have hlow : b.toNat % 16 < 16 := Nat.mod_lt _ (by decide)
    show (match hexDigit (hexChar (b.toNat / 16)), hexDigit (hexChar (b.toNat % 16)) with
      | some high, some low => some (UInt8.ofNat (16 * high + low), rest)
      | _, _ => none) = some (b, rest)
    rw [hexDigit_hexChar _ hhigh, hexDigit_hexChar _ hlow]
    dsimp only
    rw [Nat.div_add_mod, UInt8.ofNat_toNat]
  · rename_i hb _ _ _ _ _
    have hne : Char.ofNat b.toNat ≠ '\\' := by
      intro heq
      refine hb ?_
      rw [← ofNat_toNat_char b, heq]
      rfl
    rw [List.singleton_append, readByte_self hne, ofNat_toNat_char]

theorem reprByte_ne_nil (quote : Char) (b : UInt8) : reprByte quote b ≠ [] := by
  unfold reprByte
  split_ifs <;> simp

theorem flatMap_reprByte_injective {quote' : Char} (hquote : quote = '\'' ∨ quote = '"')
    (hquote' : quote' = '\'' ∨ quote' = '"') {a b : Bytes}
    (h : a.flatMap (reprByte quote) = b.flatMap (reprByte quote')) : a = b := by
  induction a generalizing b with
  | nil =>
    cases b with
    | nil => rfl
    | cons y b => simp [reprByte_ne_nil] at h
  | cons x a ih =>
    cases b with
    | nil => simp [reprByte_ne_nil] at h
    | cons y b =>
      have hread := congrArg readByte h
      rw [List.flatMap_cons, List.flatMap_cons, readByte_reprByte hquote,
        readByte_reprByte hquote', Option.some.injEq, Prod.mk.injEq] at hread
      rw [hread.1, ih hread.2]

theorem quote_cases (p : Prop) [Decidable p] : Char.ofNat (if p then 0x22 else 0x27) = '\'' ∨
    Char.ofNat (if p then 0x22 else 0x27) = '"' := by
  split
  · exact Or.inr rfl
  · exact Or.inl rfl

/-- No two bodies have the same escapes, though the quotes depend on the body. -/
theorem reprBytes_injective : Function.Injective reprBytes := by
  intro a b h
  have hchars := String.ofList_injective h
  exact flatMap_reprByte_injective (quote_cases _) (quote_cases _) hchars

theorem length_reprByte_of_not_ascii (quote : Char) (h : ¬ b < 0x80) :
    2 ≤ (reprByte quote b).length := by
  unfold reprByte
  split_ifs with _ _ _ _ _ hescaped
  · simp
  · simp
  · simp
  · simp
  · simp
  · simp
  · refine absurd (Or.inr ?_) hescaped
    rw [UInt8.lt_iff_toNat_lt] at h
    rw [UInt8.le_iff_toNat_le]
    exact (Nat.le_succ _).trans (Nat.le_of_not_lt h)

theorem length_le_flatMap (quote : Char) (body : Bytes) :
    body.length ≤ (body.flatMap (reprByte quote)).length := by
  induction body with
  | nil => exact Nat.le_refl 0
  | cons x body ih =>
    have hx := List.length_pos_iff.mpr (reprByte_ne_nil quote x)
    rw [List.flatMap_cons, List.length_append, List.length_cons]
    omega

/-- The escapes of a body that is no ASCII are longer than the body. -/
theorem length_lt_reprBytes {body : Bytes} (h : ∃ x ∈ body, ¬ x < 0x80) :
    body.length < (reprBytes body).toList.length := by
  have hflat (quote : Char) : body.length < (body.flatMap (reprByte quote)).length := by
    obtain ⟨x, hx, hascii⟩ := h
    obtain ⟨before, after, rfl⟩ := List.append_of_mem hx
    have htwo := length_reprByte_of_not_ascii quote hascii
    have hbefore := length_le_flatMap quote before
    have hafter := length_le_flatMap quote after
    simp only [List.flatMap_append, List.flatMap_cons, List.length_append, List.length_cons]
    omega
  rw [reprBytes, String.toList_ofList]
  exact hflat _

end Escapes

section Text

variable {a b : Bytes}

theorem not_ascii_of_decode (h : decodeUtf8 b = none) : ∃ x ∈ b, ¬ x < 0x80 := by
  by_contra hall
  push Not at hall
  rw [decodeUtf8_ascii hall] at h
  cases h

/-- A text is not as short as the body that it would be the escapes of. -/
theorem reprBytes_ne_text {text : String} (ha : decodeUtf8 a = some text)
    (hb : decodeUtf8 b = none) (hsize : a.length = b.length) : text ≠ reprBytes b := by
  rintro rfl
  have hlong := length_lt_reprBytes (not_ascii_of_decode hb)
  have hencoded := length_le_encodeUtf8 (reprBytes b)
  rw [decodeUtf8_eq_some.mp ha] at hencoded
  omega

/-- The text and the size tell the body. -/
theorem eq_of_decodeBodySafe (htext : decodeBodySafe a = decodeBodySafe b)
    (hsize : a.length = b.length) : a = b := by
  unfold decodeBodySafe at htext
  cases ha : decodeUtf8 a with
  | some text =>
    cases hb : decodeUtf8 b with
    | some text' =>
      rw [ha, hb, Option.getD_some, Option.getD_some] at htext
      rw [← decodeUtf8_eq_some.mp ha, ← decodeUtf8_eq_some.mp hb, htext]
    | none =>
      rw [ha, hb, Option.getD_some, Option.getD_none] at htext
      exact absurd htext (reprBytes_ne_text ha hb hsize)
  | none =>
    cases hb : decodeUtf8 b with
    | some text =>
      rw [ha, hb, Option.getD_none, Option.getD_some] at htext
      exact absurd htext.symm (reprBytes_ne_text hb ha hsize.symm)
    | none =>
      rw [ha, hb, Option.getD_none, Option.getD_none] at htext
      exact reprBytes_injective htext

end Text

def field (name : String) : PyValue → Option PyValue
  | .dict items => (items.find? fun item => item.1 = name).map Prod.snd
  | _ => none

/-- An entry of an export, for a request that was captured with the body. Where the body was
offloaded, the store kept it. -/
def Exported (body : Bytes) (entry : PyValue) : Prop :=
  ∃ (capture : CaptureRequest.Collaborators) (endpoint : Endpoint) (input : Input)
    (captured : CapturedRequest) (env : ExportRequests.Collaborators) (text : Option String),
    input.body = body ∧ prepare capture endpoint input = .ok captured ∧
      StoresBody capture endpoint body env.blobGet ∧ resolveBody env captured = .ok text ∧
        entry = requestToDict captured text

section Entries

variable {body body' : Bytes} {entry entry' : PyValue}

/-- Inline or offloaded, the body has the same text. -/
theorem exported_text {capture : CaptureRequest.Collaborators} {endpoint : Endpoint}
    {input : Input} {captured : CapturedRequest} {env : ExportRequests.Collaborators}
    {text : Option String} (hprepare : prepare capture endpoint input = .ok captured)
    (hstore : StoresBody capture endpoint input.body env.blobGet)
    (htext : resolveBody env captured = .ok text) : text = some (decodeBodySafe input.body) := by
  unfold resolveBody at htext
  cases prepare_body hprepare with
  | row hinline hkey hpreview =>
    rw [hkey] at htext
    exact (Except.ok.inj htext).symm.trans hpreview
  | blob hinline hkey hpreview hput =>
    simp only [hkey, (hstore hinline).2, Answer.await] at htext
    exact (Except.ok.inj htext).symm
  | lost hinline hkey hpreview error hput =>
    rw [(hstore hinline).1] at hput
    cases hput

theorem field_body (captured : CapturedRequest) (text : String) :
    field "body" (requestToDict captured (some text)) = some (.str text) := by
  simp [field, requestToDict, ExportRequests.ofText]

theorem field_size (captured : CapturedRequest) (text : Option String) :
    field "body_size" (requestToDict captured text) = some (.int captured.bodySize) := by
  simp [field, requestToDict]

theorem Exported.fields (h : Exported body entry) :
    field "body" entry = some (.str (decodeBodySafe body)) ∧
      field "body_size" entry = some (.int body.length) := by
  obtain ⟨capture, endpoint, input, captured, env, text, rfl, hprepare, hstore, htext, rfl⟩ := h
  obtain rfl := exported_text hprepare hstore htext
  refine ⟨field_body captured _, ?_⟩
  rw [field_size, (prepare_describes hprepare).size_eq]

/-- The text and the size in two entries are the same exactly when the bodies are, whatever the
thresholds were. -/
theorem entries_agree_iff (h : Exported body entry) (h' : Exported body' entry') :
    field "body" entry = field "body" entry' ∧ field "body_size" entry = field "body_size" entry' ↔
      body = body' := by
  obtain ⟨htext, hsize⟩ := h.fields
  obtain ⟨htext', hsize'⟩ := h'.fields
  rw [htext, htext', hsize, hsize', Option.some.injEq, Option.some.injEq, PyValue.str.injEq,
    PyValue.int.injEq, Int.natCast_inj]
  constructor
  · rintro ⟨hsame, hlength⟩
    exact eq_of_decodeBodySafe hsame hlength
  · rintro rfl
    exact ⟨rfl, rfl⟩

end Entries

def withThreshold (n : ℤ) : CaptureRequest.Collaborators :=
  { CaptureRequest.sampleCollaborators (.returns ()) with inlineThreshold := n }

def sampleExport (body : Bytes) : ExportRequests.Collaborators :=
  ⟨fun _ => .returns (some body), seconds 2000, 10⟩

def offloadedKey : String := CaptureRequest.blobKey (withThreshold 0) sampleEndpoint.id

theorem inline_exported : Exported [0xFF]
    (requestToDict (CaptureRequest.sampleCaptured (some "\\xff") none 1) (some "\\xff")) := by
  refine ⟨withThreshold 1, sampleEndpoint, CaptureRequest.sampleInput [0xFF], _,
    sampleExport [0xFF], _, rfl, ?_, ?_, rfl, rfl⟩
  · decide +kernel
  · exact fun hoffloaded => absurd hoffloaded (by decide +kernel)

theorem offloaded_exported : Exported [0xFF]
    (requestToDict (CaptureRequest.sampleCaptured none (some offloadedKey) 1)
      (some "\\xff")) := by
  refine ⟨withThreshold 0, sampleEndpoint, CaptureRequest.sampleInput [0xFF], _,
    sampleExport [0xFF], _, rfl, ?_, fun _ => ⟨rfl, rfl⟩, ?_, rfl⟩
  · decide +kernel
  · decide +kernel

theorem entries_agree :
    field "body" (requestToDict (CaptureRequest.sampleCaptured (some "\\xff") none 1)
        (some "\\xff")) =
      field "body" (requestToDict (CaptureRequest.sampleCaptured none (some offloadedKey) 1)
        (some "\\xff")) :=
  ((entries_agree_iff inline_exported offloaded_exported).mpr rfl).1

end Hooktrace.BodyText
