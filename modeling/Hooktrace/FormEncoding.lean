import Hooktrace.BodyText
import Hooktrace.IntegrationDetection
import Mathlib.Tactic.IntervalCases

/-!
Forms as they are sent: the names and values as UTF-8, a blank as a plus, and every byte that is
not kept as a percent escape. Which bytes a sender keeps is its own affair. What `parse_qs` makes
of such a text are the fields again.
-/
namespace Hooktrace.FormEncoding

open UrlEncoding

section Decoding

theorem toNat_byte {n : ℕ} (h : n < 256) : (UInt8.ofNat n).toNat = n := by
  rw [UInt8.toNat_ofNat']
  omega

/-- What is decoded while a sequence goes on, and when it ends. -/
theorem decodeFrom_next {p : Utf8.Pending} {n : ℕ} (hn : n < 256) (hlo : p.lo.toNat ≤ n)
    (hhi : n ≤ p.hi.toNat) (rest : Bytes) :
    Utf8.decodeFrom (some p) (UInt8.ofNat n :: rest) =
      if p.missing ≤ 1 then Char.ofNat (p.value * 64 + (n - 0x80)) :: Utf8.decodeFrom none rest
      else Utf8.decodeFrom
        (some ⟨p.missing - 1, 0x80, 0xBF, p.value * 64 + (n - 0x80)⟩) rest := by
  have hrange : p.lo ≤ UInt8.ofNat n ∧ UInt8.ofNat n ≤ p.hi := by
    rw [UInt8.le_iff_toNat_le, UInt8.le_iff_toNat_le, toNat_byte hn]
    exact ⟨hlo, hhi⟩
  rw [Utf8.decodeFrom, if_pos hrange, toNat_byte hn]

theorem decodeFrom_start {n : ℕ} {p : Utf8.Pending} (h : Utf8.start (UInt8.ofNat n) = ([], some p))
    (rest : Bytes) : Utf8.decodeFrom none (UInt8.ofNat n :: rest) =
      Utf8.decodeFrom (some p) rest := by
  rw [Utf8.decodeFrom, h]
  rfl

theorem start_two {n : ℕ} (hlow : 2 ≤ n) (hhigh : n < 32) :
    Utf8.start (UInt8.ofNat (n + 192)) = ([], some ⟨1, 0x80, 0xBF, n⟩) := by
  interval_cases n <;> rfl

theorem start_three {n : ℕ} (h : n < 16) : Utf8.start (UInt8.ofNat (n + 224)) =
    ([], some ⟨2, if n = 0 then 0xA0 else 0x80, if n = 13 then 0x9F else 0xBF, n⟩) := by
  interval_cases n <;> rfl

theorem start_four {n : ℕ} (h : n < 5) : Utf8.start (UInt8.ofNat (n + 240)) =
    ([], some ⟨3, if n = 0 then 0x90 else 0x80, if n = 4 then 0x8F else 0xBF, n⟩) := by
  interval_cases n <;> rfl

theorem decodeFrom_last {n value : ℕ} (h : n < 64) {lo hi : UInt8} (hlo : lo.toNat ≤ n + 128)
    (hhi : n + 128 ≤ hi.toNat) (rest : Bytes) :
    Utf8.decodeFrom (some ⟨1, lo, hi, value⟩) (UInt8.ofNat (n + 128) :: rest) =
      Char.ofNat (value * 64 + n) :: Utf8.decodeFrom none rest := by
  rw [decodeFrom_next (by omega) hlo hhi, if_pos (Nat.le_refl 1)]
  simp

theorem decodeFrom_more {n value missing : ℕ} (h : n < 64) {lo hi : UInt8}
    (hlo : lo.toNat ≤ n + 128) (hhi : n + 128 ≤ hi.toNat) (rest : Bytes) :
    Utf8.decodeFrom (some ⟨missing + 2, lo, hi, value⟩) (UInt8.ofNat (n + 128) :: rest) =
      Utf8.decodeFrom (some ⟨missing + 1, 0x80, 0xBF, value * 64 + n⟩) rest := by
  have hmissing : ¬ missing + 2 ≤ 1 := by omega
  rw [decodeFrom_next (by omega) hlo hhi, if_neg hmissing]
  simp

/-- A character is decoded from its bytes, whatever follows. -/
theorem decodeFrom_encodeChar (c : Char) (rest : Bytes) :
    Utf8.decodeFrom none (String.utf8EncodeChar c ++ rest) = c :: Utf8.decodeFrom none rest := by
  have hvalid : c.val.toNat < 0xD800 ∨ (0xDFFF < c.val.toNat ∧ c.val.toNat < 0x110000) := c.valid
  have hchar : ∀ n, n = c.val.toNat → Char.ofNat n = c := by
    intro n hn
    rw [hn]
    exact Char.ofNat_toNat c
  unfold String.utf8EncodeChar
  dsimp only
  generalize hv : c.val.toNat = v at hvalid hchar
  -- By the length of the sequence: its first byte says how many follow, each has six bits.
  split
  · rename_i hone
    have hascii : isAsciiChar c = true := by
      have hsmall : c.toNat < 0x80 := by
        show c.val.toNat < 0x80
        omega
      simp [isAsciiChar, hsmall]
    have hcons := decodeReplace_cons hascii rest
    simp only [decodeReplace, String.toList_ofList] at hcons
    rw [← hv]
    exact hcons
  · split
    · rename_i hone htwo
      rw [List.cons_append, List.singleton_append,
        decodeFrom_start (start_two (by omega) (by omega)),
        decodeFrom_last (by omega) (by simp) (by simp; omega), hchar _ (by omega)]
    · split
      · rename_i hone htwo hthree
        rw [List.cons_append, List.cons_append, List.singleton_append,
          decodeFrom_start (start_three (by omega)),
          decodeFrom_more (by omega) (by split_ifs <;> grind) (by split_ifs <;> grind),
          decodeFrom_last (by omega) (by simp) (by simp; omega), hchar _ (by omega)]
      · rename_i hone htwo hthree
        rw [List.cons_append, List.cons_append, List.cons_append, List.singleton_append,
          decodeFrom_start (start_four (by omega)),
          decodeFrom_more (by omega) (by split_ifs <;> grind) (by split_ifs <;> grind),
          decodeFrom_more (by omega) (by simp) (by simp; omega),
          decodeFrom_last (by omega) (by simp) (by simp; omega), hchar _ (by omega)]

/-- UTF-8 is decoded as it was encoded. -/
theorem decodeReplace_encodeUtf8 (s : String) : decodeReplace (encodeUtf8 s) = s := by
  rw [decodeReplace, encodeUtf8_eq_flatMap, ← String.toList_inj, String.toList_ofList]
  induction s.toList with
  | nil => rfl
  | cons c rest ih => rw [List.flatMap_cons, decodeFrom_encodeChar, ih]

end Decoding

section Unquoting

/-- A character that stands for itself wherever it is sent. -/
structure Unreserved (c : Char) : Prop where
  ascii : isAsciiChar c = true
  percent : c ≠ '%'
  ampersand : c ≠ '&'
  plus : c ≠ '+'
  equals : c ≠ '='

theorem unreserved_of_hexDigit {c : Char} {n : ℕ} (h : hexDigit c = some n) : Unreserved c := by
  refine ⟨?_, ?_, ?_, ?_, ?_⟩
  · have hbound : c ≤ '9' ∨ c ≤ 'f' ∨ c ≤ 'F' := by
      unfold hexDigit at h
      split_ifs at h with hdec hlow hup
      · exact Or.inl hdec.2
      · exact Or.inr (Or.inl hlow.2)
      · exact Or.inr (Or.inr hup.2)
    have hcode : c.toNat ≤ 102 := by
      rcases hbound with hle | hle | hle
      · exact le_trans (show c.toNat ≤ 57 from hle) (by omega)
      · exact hle
      · exact le_trans (show c.toNat ≤ 70 from hle) (by omega)
    apply decide_eq_true
    omega
  all_goals
    rintro rfl
    simp [hexDigit] at h

theorem unquoteToBytes_escape {x y : Char} {m n : ℕ} (hx : hexDigit x = some m)
    (hy : hexDigit y = some n) (t : List Char) :
    unquoteToBytes ('%' :: x :: y :: t) = (16 * m + n).toUInt8 :: unquoteToBytes t := by
  have hxp : x ≠ '%' := (unreserved_of_hexDigit hx).percent
  have hyp : y ≠ '%' := (unreserved_of_hexDigit hy).percent
  rw [unquoteToBytes, unquoteToBytes, splitOn, if_pos rfl, splitOn, if_neg hxp, splitOn, if_neg hyp]
  cases splitOn '%' t with
  | nil => simp [unquoteItem, hx, hy, asciiBytes]
  | cons bits items => simp [unquoteItem, hx, hy, asciiBytes]

theorem unquote_ascii {t : List Char} (ht : ∀ c ∈ t, isAsciiChar c = true) :
    unquote t = (decodeReplace (unquoteToBytes t)).toList := by
  by_cases hnil : t = []
  · subst hnil
    rfl
  · have hchain : t.IsChain fun a b => (isAsciiChar a == isAsciiChar b) = true := by
      refine (List.pairwise_iff_forall_sublist.mpr ?_).isChain
      intro a b hab
      have hmem := hab.subset
      rw [ht a (hmem (by simp)), ht b (hmem (by simp))]
      rfl
    have hall : t.all isAsciiChar = true := List.all_eq_true.mpr ht
    rw [unquote, List.splitBy_of_isChain hnil hchain, List.flatMap_singleton, if_pos hall]

end Unquoting

/-- What a browser keeps: letters, digits and four signs. -/
def browserKeeps (b : UInt8) : Bool :=
  (48 ≤ b.toNat ∧ b.toNat ≤ 57) ∨ (65 ≤ b.toNat ∧ b.toNat ≤ 90) ∨
    (97 ≤ b.toNat ∧ b.toNat ≤ 122) ∨ b.toNat = 42 ∨ b.toNat = 45 ∨ b.toNat = 46 ∨ b.toNat = 95

theorem browserKeeps_kept (b : UInt8) (h : browserKeeps b = true) :
    b < 0x80 ∧ b ∉ [0x25, 0x26, 0x2B, 0x3D] := by
  have hcode : b.toNat < 128 ∧ b.toNat ≠ 37 ∧ b.toNat ≠ 38 ∧ b.toNat ≠ 43 ∧ b.toNat ≠ 61 := by
    have hkeeps := of_decide_eq_true h
    omega
  obtain ⟨hlow, hcodes⟩ := hcode
  refine ⟨UInt8.lt_iff_toNat_lt.mpr hlow, ?_⟩
  rw [List.mem_cons, List.mem_cons, List.mem_cons, List.mem_singleton]
  rintro (rfl | rfl | rfl | rfl)
  all_goals
    apply absurd hcodes
    simp

def hexUpper (n : ℕ) : Char := "0123456789ABCDEF".toList.getD n '0'

theorem hexDigit_hexUpper : ∀ n < 16, hexDigit (hexUpper n) = some n := by decide

/-- What a sender keeps as it is, whether its blanks are pluses, and its digits. -/
structure Serializer where
  keeps : UInt8 → Bool
  blankAsPlus : Bool
  hex : ℕ → Char
  kept : ∀ b, keeps b = true → b < 0x80 ∧ b ∉ [0x25, 0x26, 0x2B, 0x3D]
  digits : ∀ n < 16, hexDigit (hex n) = some n

namespace Serializer

def browser : Serializer where
  keeps := browserKeeps
  blankAsPlus := true
  hex := hexUpper
  kept := browserKeeps_kept
  digits := hexDigit_hexUpper

variable (s : Serializer)

def percent (b : UInt8) : List Char :=
  if b = 0x20 ∧ s.blankAsPlus = true then ['+']
  else if s.keeps b then [Char.ofNat b.toNat]
  else ['%', s.hex (b.toNat / 16), s.hex (b.toNat % 16)]

def encodeText (text : String) : List Char := (encodeUtf8 text).flatMap s.percent

def encodeField (field : String × String) : List Char :=
  s.encodeText field.1 ++ '=' :: s.encodeText field.2

def encodeForm (fields : List (String × String)) : String :=
  .ofList (['&'].intercalate (fields.map s.encodeField))

example : browser.encodeForm [("a b", "é&"), ("c", "")] = "a+b=%C3%A9%26&c=" := by
  decide +kernel

/-- The character of a byte that is kept. -/
theorem unreserved_kept {b : UInt8} (h : s.keeps b = true) :
    Unreserved (Char.ofNat b.toNat) := by
  obtain ⟨hlow, hreserved⟩ := s.kept b h
  have hne : ∀ c : Char, UInt8.ofNat c.toNat ∈ [0x25, 0x26, 0x2B, 0x3D] →
      Char.ofNat b.toNat ≠ c := by
    rintro c hc rfl
    apply hreserved
    rwa [BodyText.ofNat_toNat_char] at hc
  refine ⟨?_, hne _ (by simp), hne _ (by simp), hne _ (by simp), hne _ (by simp)⟩
  have hnat : b.toNat < 128 := UInt8.lt_iff_toNat_lt.mp hlow
  have hvalid : b.toNat.isValidChar := Or.inl (by omega)
  apply decide_eq_true
  rw [Char.toNat_ofNat, if_pos hvalid]
  exact hnat

theorem unreserved_hex {n : ℕ} (h : n < 16) : Unreserved (s.hex n) :=
  unreserved_of_hexDigit (s.digits n h)

/-- No text that is encoded ends a name or a field. -/
theorem mem_percent {b : UInt8} {c : Char} (h : c ∈ s.percent b) :
    isAsciiChar c = true ∧ c ≠ '&' ∧ c ≠ '=' := by
  have hb := UInt8.toNat_lt b
  unfold percent at h
  split_ifs at h with hblank hkeep
  · obtain rfl : c = '+' := by simpa using h
    simp [isAsciiChar]
  · obtain rfl : c = Char.ofNat b.toNat := by simpa using h
    have hchar := s.unreserved_kept hkeep
    exact ⟨hchar.ascii, hchar.ampersand, hchar.equals⟩
  · obtain rfl | rfl | rfl : c = '%' ∨ c = s.hex (b.toNat / 16) ∨ c = s.hex (b.toNat % 16) := by
      simpa using h
    · simp [isAsciiChar]
    · have hchar : Unreserved (s.hex (b.toNat / 16)) := s.unreserved_hex (by omega)
      exact ⟨hchar.ascii, hchar.ampersand, hchar.equals⟩
    · have hchar : Unreserved (s.hex (b.toNat % 16)) := s.unreserved_hex (by omega)
      exact ⟨hchar.ascii, hchar.ampersand, hchar.equals⟩

theorem mem_encodeText {text : String} {c : Char} (h : c ∈ s.encodeText text) :
    isAsciiChar c = true ∧ c ≠ '&' ∧ c ≠ '=' := by
  obtain ⟨b, -, hc⟩ := List.mem_flatMap.mp h
  exact s.mem_percent hc

/-- A byte is decoded from what stands for it, whatever follows. -/
theorem unquoteToBytes_percent (b : UInt8) (rest : List Char) :
    unquoteToBytes ((s.percent b).map (fun c => if c = '+' then ' ' else c) ++ rest) =
      b :: unquoteToBytes rest := by
  -- Pluses are made blanks before an escape is read, so an escaped plus stays one.
  have hb := UInt8.toNat_lt b
  unfold percent
  split_ifs with hblank hkeep
  · obtain ⟨rfl, -⟩ := hblank
    exact unquoteToBytes_cons (by simp)
  · have hchar := s.unreserved_kept hkeep
    have hbyte : (Char.ofNat b.toNat).toNat.toUInt8 = b := BodyText.ofNat_toNat_char b
    rw [List.map_singleton, if_neg hchar.plus, List.singleton_append,
      unquoteToBytes_cons hchar.percent, hbyte]
  · have hhigh : b.toNat / 16 < 16 := by omega
    have hlow : b.toNat % 16 < 16 := by omega
    have hbyte : (16 * (b.toNat / 16) + b.toNat % 16).toUInt8 = b := by
      rw [Nat.div_add_mod]
      exact UInt8.ofNat_toNat
    rw [List.map_cons, List.map_cons, List.map_singleton, if_neg (by simp),
      if_neg (s.unreserved_hex hhigh).plus, if_neg (s.unreserved_hex hlow).plus, List.cons_append,
      List.cons_append, List.singleton_append,
      unquoteToBytes_escape (s.digits _ hhigh) (s.digits _ hlow), hbyte]

theorem unquoteToBytes_flatMap (bytes : Bytes) :
    unquoteToBytes ((bytes.flatMap s.percent).map fun c => if c = '+' then ' ' else c) = bytes := by
  induction bytes with
  | nil => rfl
  | cons b rest ih =>
    rw [List.flatMap_cons, List.map_append, s.unquoteToBytes_percent, ih]

/-- A text is read as it was written. -/
theorem unquotePlus_encodeText (text : String) : unquotePlus (s.encodeText text) = text := by
  have hascii : ∀ c ∈ (s.encodeText text).map (fun c => if c = '+' then ' ' else c),
      isAsciiChar c = true := by
    intro c hc
    obtain ⟨c, hmem, rfl⟩ := List.mem_map.mp hc
    split_ifs
    · rfl
    · exact (s.mem_encodeText hmem).1
  rw [unquotePlus, unquote_ascii hascii, encodeText, s.unquoteToBytes_flatMap,
    decodeReplace_encodeUtf8, String.ofList_toList]

theorem parseField_encodeField (field : String × String) :
    parseField true (s.encodeField field) = some field := by
  have hequals : '=' ∉ s.encodeText field.1 := fun hmem => (s.mem_encodeText hmem).2.2 rfl
  have hne : s.encodeField field ≠ [] := by simp [encodeField]
  rw [parseField, if_neg hne, encodeField, cut_append hequals]
  simp [s.unquotePlus_encodeText]

theorem ampersand_notMem (field : String × String) : '&' ∉ s.encodeField field := by
  intro hmem
  rw [encodeField, List.mem_append, List.mem_cons] at hmem
  rcases hmem with hname | heq | hvalue
  · exact (s.mem_encodeText hname).2.1 rfl
  · exact absurd heq (by simp)
  · exact (s.mem_encodeText hvalue).2.1 rfl

/-- Every field is read, in the order of the form. -/
theorem parseFields (fields : List (String × String)) :
    (splitOn '&' (['&'].intercalate (fields.map s.encodeField))).filterMap (parseField true) =
      fields := by
  induction fields with
  | nil => rfl
  | cons field rest ih =>
    by_cases hlast : rest = []
    · subst hlast
      have hone : ['&'].intercalate ([field].map s.encodeField) = s.encodeField field := by simp
      rw [hone, splitOn_of_notMem (s.ampersand_notMem field), List.filterMap_cons,
        s.parseField_encodeField]
      rfl
    · have hmap : rest.map s.encodeField ≠ [] := by simpa using hlast
      rw [List.map_cons, List.intercalate_cons_of_ne_nil hmap, List.append_assoc,
        List.singleton_append, splitOn_append (s.ampersand_notMem field), List.filterMap_cons,
        s.parseField_encodeField, ih]

end Serializer

section Dictionaries

variable {K V : Type*} [DecidableEq K]

theorem get?_filterMapValues {W : Type*} (f : V → Option W) (d : PyDict K V) (k : K) :
    (d.filterMapValues f).get? k = (d.get? k).bind f := by
  obtain ⟨items, hnodup⟩ := d
  show ((items.filterMap fun p => (f p.2).map fun w => (p.1, w)).find? _).map Prod.snd =
    ((items.find? _).map Prod.snd).bind f
  induction items with
  | nil => rfl
  | cons p rest ih =>
    obtain ⟨hnew, hrest⟩ := List.nodup_cons.mp hnodup
    by_cases hp : p.1 = k
    · cases hf : f p.2 with
      | some w => simp [hf, hp]
      | none =>
        have hothers : rest.find? (fun q => decide (q.1 = k)) = none := by
          rw [List.find?_eq_none]
          intro q hq hqk
          apply hnew
          rw [hp, ← of_decide_eq_true hqk]
          exact List.mem_map_of_mem hq
        have hrec := ih hrest
        rw [hothers] at hrec
        simpa [hf, hp] using hrec
    · cases hf : f p.2 with
      | some w => simpa [hf, hp] using ih hrest
      | none => simpa [hf, hp] using ih hrest

/-- Each name collects its own values. -/
theorem get?_collected (fields : List (K × V)) (d : PyDict K (List V)) (k : K) :
    ((fields.foldl (fun parsed field =>
      parsed.set field.1 ((parsed.get? field.1).getD [] ++ [field.2])) d).get? k).getD [] =
      (d.get? k).getD [] ++ (fields.filter fun field => field.1 = k).map Prod.snd := by
  induction fields generalizing d with
  | nil => simp
  | cons field rest ih =>
    rw [List.foldl_cons, ih, PyDict.get?_set]
    by_cases hk : k = field.1
    · subst hk
      simp
    · simp [hk, Ne.symm hk]

end Dictionaries

section Forms

open IntegrationDetection

variable (s : Serializer)

/-- A body that is read as a form: it is said to be one, and it is not too long. -/
def Readable (body : Bytes) (contentType : String) : Prop :=
  contains "application/x-www-form-urlencoded" contentType.toLower = true ∧
    body.length ≤ parseCapBytes

instance (body : Bytes) (contentType : String) : Decidable (Readable body contentType) :=
  inferInstanceAs (Decidable (_ ∧ _))

theorem parseFormParams_of_not {body : Bytes} {contentType : String}
    (h : ¬ Readable body contentType) : parseFormParams body contentType = .empty := by
  unfold parseFormParams
  by_cases hmime : contains "application/x-www-form-urlencoded" contentType.toLower = true
  · have hlong : body.length > parseCapBytes := by
      by_contra hshort
      exact h ⟨hmime, Nat.le_of_not_lt hshort⟩
    rw [if_neg (not_not_intro hmime), if_pos hlong]
  · rw [if_pos hmime]

theorem parseFormParams_of_readable {text contentType : String}
    (h : Readable (encodeUtf8 text) contentType) :
    parseFormParams (encodeUtf8 text) contentType =
      (parseQs true text).filterMapValues List.head? := by
  obtain ⟨hmime, hshort⟩ := h
  have hdecode : decodeUtf8 (encodeUtf8 text) = some text := decodeUtf8_eq_some.mpr rfl
  rw [parseFormParams, if_neg (not_not_intro hmime), if_neg (Nat.not_lt.mpr hshort), hdecode]

/-- The form parameters of a body that a sender wrote: the first value of each name. -/
theorem get?_parseFormParams (fields : List (String × String)) (contentType k : String) :
    (parseFormParams (encodeUtf8 (s.encodeForm fields)) contentType).get? k =
      if Readable (encodeUtf8 (s.encodeForm fields)) contentType
      then (fields.find? fun field => field.1 = k).map Prod.snd else none := by
  split_ifs with hreadable
  · have hvalues := get?_collected fields .empty k
    have hhead : ∀ values : Option (List String), values.bind List.head? =
        (values.getD []).head? := by
      intro values
      cases values <;> rfl
    rw [parseFormParams_of_readable hreadable, get?_filterMapValues, hhead, parseQs,
      Serializer.encodeForm, String.toList_ofList, s.parseFields, hvalues]
    simp [PyDict.get?, PyDict.empty]
  · rw [parseFormParams_of_not hreadable]
    rfl

theorem has_parseFormParams (fields : List (String × String)) (contentType k : String) :
    (parseFormParams (encodeUtf8 (s.encodeForm fields)) contentType).has k = true ↔
      Readable (encodeUtf8 (s.encodeForm fields)) contentType ∧ k ∈ fields.map Prod.fst := by
  rw [PyDict.has, get?_parseFormParams]
  split_ifs with hreadable
  · rw [Option.isSome_map, List.find?_isSome, List.mem_map]
    constructor
    · rintro ⟨field, hmem, hname⟩
      exact ⟨hreadable, field, hmem, of_decide_eq_true hname⟩
    · rintro ⟨-, field, hmem, hname⟩
      exact ⟨field, hmem, decide_eq_true hname⟩
  · simp [hreadable]

/-- Whatever the sender keeps of a text, the fields of its form are read again, the first of
each name, when the body is said to be a form and fits the parser; Mailgun is detected by its
header or by the three names of such a form, and by nothing else. -/
theorem form_recovered (fields : List (String × String)) (contentType : String) :
    (∀ k, (parseFormParams (encodeUtf8 (s.encodeForm fields)) contentType).get? k =
      if Readable (encodeUtf8 (s.encodeForm fields)) contentType
      then (fields.find? fun field => field.1 = k).map Prod.snd else none) ∧
      ∀ (h : Headers) (userAgent : String),
        detectMailgun h userAgent
            (parseFormParams (encodeUtf8 (s.encodeForm fields)) contentType) =
          if h.has "x-mailgun-signature-v2" ∨
            (Readable (encodeUtf8 (s.encodeForm fields)) contentType ∧
              ∀ name ∈ ["signature", "timestamp", "token"], name ∈ fields.map Prod.fst)
          then some ("mailgun", none) else none := by
  refine ⟨get?_parseFormParams s fields contentType, ?_⟩
  intro h userAgent
  have hnames : (∀ name ∈ ["signature", "timestamp", "token"], name ∈ fields.map Prod.fst) ↔
      "signature" ∈ fields.map Prod.fst ∧ "timestamp" ∈ fields.map Prod.fst ∧
        "token" ∈ fields.map Prod.fst := by
    rw [List.forall_mem_cons, List.forall_mem_cons, List.forall_mem_singleton]
  unfold detectMailgun
  by_cases hheader : h.has "x-mailgun-signature-v2" = true
  · rw [if_pos hheader, if_pos (Or.inl hheader)]
  · rw [if_neg hheader]
    apply if_congr
    · rw [has_parseFormParams, has_parseFormParams, has_parseFormParams, hnames]
      tauto
    · rfl
    · rfl

end Forms

end Hooktrace.FormEncoding
