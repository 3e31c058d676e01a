import Hooktrace.Entities

/-!
What the Python standard library does with texts and bytes: stripping whitespace, UTF-8 with
replacement of what is not UTF-8, and the `repr` of bytes.
-/
namespace Hooktrace

theorem toList_loop (bytes : ByteArray) (i : ℕ) (acc : Bytes) :
    ByteArray.toList.loop bytes i acc = acc.reverse ++ bytes.data.toList.drop i := by
  fun_induction ByteArray.toList.loop bytes i acc with
  | case1 i acc hi ih =>
    have hlt : i < bytes.data.toList.length := by simpa using hi
    have hget : bytes.get! i = bytes.data.toList[i] := by simp [ByteArray.get!, hi]
    rw [ih, List.reverse_cons, List.append_assoc, hget, List.singleton_append,
      List.getElem_cons_drop]
  | case2 i acc hi =>
    have hend : bytes.data.toList.length ≤ i := by simpa using hi
    simp [List.drop_eq_nil_of_le hend]

theorem toList_eq_data (bytes : ByteArray) : bytes.toList = bytes.data.toList := by
  rw [ByteArray.toList, toList_loop]
  simp

theorem encodeUtf8_append (s t : String) : encodeUtf8 (s ++ t) = encodeUtf8 s ++ encodeUtf8 t := by
  simp [encodeUtf8, toList_eq_data]

theorem encodeUtf8_eq_flatMap (s : String) :
    encodeUtf8 s = s.toList.flatMap String.utf8EncodeChar := by
  rw [encodeUtf8, toList_eq_data, String.toUTF8_eq_toByteArray, ← String.utf8Encode_toList,
    List.utf8Encode]
  simp

/-- Every character takes a byte, at least. -/
theorem length_le_encodeUtf8 (s : String) : s.toList.length ≤ (encodeUtf8 s).length := by
  rw [encodeUtf8_eq_flatMap]
  induction s.toList with
  | nil => exact Nat.le_refl 0
  | cons c rest ih =>
    have hc := c.utf8Size_pos
    rw [List.flatMap_cons, List.length_append, String.length_utf8EncodeChar, List.length_cons]
    omega

/-- Strict decoding is undone by encoding, and nothing else is decoded. -/
theorem decodeUtf8_eq_some {b : Bytes} {s : String} : decodeUtf8 b = some s ↔ encodeUtf8 s = b := by
  have hbytes : encodeUtf8 s = b ↔ s.toByteArray = ⟨b.toArray⟩ := by
    rw [encodeUtf8, toList_eq_data, String.toUTF8_eq_toByteArray]
    constructor
    · intro h
      subst h
      simp
    · intro h
      simp [h]
  rw [hbytes, decodeUtf8, String.fromUTF8?]
  constructor
  · intro h
    split at h
    · obtain rfl := Option.some.inj h
      rfl
    · simp at h
  · intro h
    have hvalid : ByteArray.IsValidUTF8 ⟨b.toArray⟩ := h ▸ s.isValidUTF8
    rw [dif_pos hvalid, Option.some.injEq]
    exact String.toByteArray_inj.mp h.symm

/-- The character of an ASCII byte is encoded as that byte. -/
theorem utf8EncodeChar_ascii {b : UInt8} (h : b < 0x80) :
    String.utf8EncodeChar (Char.ofNat b.toNat) = [b] := by
  have hlt : b.toNat < 0x80 := UInt8.lt_iff_toNat_lt.mp h
  have hvalid : b.toNat.isValidChar := Or.inl (Nat.lt_trans hlt (by decide))
  have hval : (Char.ofNat b.toNat).val.toNat = b.toNat := by
    show (Char.ofNat b.toNat).toNat = b.toNat
    rw [Char.toNat_ofNat, if_pos hvalid]
  have hsize : (Char.ofNat b.toNat).utf8Size = 1 := by
    rw [Char.utf8Size_eq_one_iff, UInt32.le_iff_toNat_le, hval]
    exact Nat.le_of_lt_succ hlt
  rw [String.utf8EncodeChar_eq_singleton hsize, List.cons.injEq, ← UInt8.toNat_inj]
  refine ⟨?_, rfl⟩
  show (Char.ofNat b.toNat).val.toUInt8.toNat = b.toNat
  rw [UInt32.toNat_toUInt8, hval]
  omega

/-- ASCII is UTF-8. -/
theorem decodeUtf8_ascii {b : Bytes} (h : ∀ x ∈ b, x < 0x80) :
    decodeUtf8 b = some (.ofList (b.map fun x => Char.ofNat x.toNat)) := by
  rw [decodeUtf8_eq_some, encodeUtf8_eq_flatMap, String.toList_ofList]
  induction b with
  | nil => rfl
  | cons x b ih =>
    obtain ⟨hx, hb⟩ := List.forall_mem_cons.mp h
    rw [List.map_cons, List.flatMap_cons, utf8EncodeChar_ascii hx, ih hb, List.singleton_append]

def nul : Char := Char.ofNat 0

theorem zero_mem_utf8EncodeChar {c : Char} : 0 ∈ String.utf8EncodeChar c ↔ c = nul := by
  have hc : c = nul ↔ c.val.toNat = 0 := by
    rw [← Char.toNat_inj]
    rfl
  have hbyte : ∀ n : ℕ, (0 : UInt8) = UInt8.ofNat n ↔ n % 256 = 0 := by
    intro n
    rw [← UInt8.toNat_inj]
    simp [eq_comm]
  rw [hc]
  unfold String.utf8EncodeChar
  dsimp only
  -- only the one-byte form can have a zero byte
  split
  · simp only [List.mem_singleton, hbyte]
    omega
  · split
    · simp only [List.mem_cons, List.not_mem_nil, or_false, hbyte]
      omega
    · split
      · simp only [List.mem_cons, List.not_mem_nil, or_false, hbyte]
        omega
      · simp only [List.mem_cons, List.not_mem_nil, or_false, hbyte]
        omega

/-- A zero byte encodes U+0000, and nothing else. -/
theorem zero_mem_encodeUtf8 {s : String} : 0 ∈ encodeUtf8 s ↔ nul ∈ s.toList := by
  simp [encodeUtf8_eq_flatMap, List.mem_flatMap, zero_mem_utf8EncodeChar]

/-- `c.isspace()`. -/
def isSpace (c : Char) : Bool :=
  (0x09 ≤ c.toNat ∧ c.toNat ≤ 0x0D) ∨ (0x1C ≤ c.toNat ∧ c.toNat ≤ 0x20) ∨ c.toNat = 0x85 ∨
    c.toNat = 0xA0 ∨ c.toNat = 0x1680 ∨ (0x2000 ≤ c.toNat ∧ c.toNat ≤ 0x200A) ∨
    c.toNat = 0x2028 ∨ c.toNat = 0x2029 ∨ c.toNat = 0x202F ∨ c.toNat = 0x205F ∨ c.toNat = 0x3000

/-- `s.strip()`. -/
def strip (s : String) : String :=
  .ofList ((s.toList.dropWhile isSpace).reverse.dropWhile isSpace).reverse

/-- `s.split(sep, 1)`: what stands before the first separator, and after it if there is one. -/
def cut (sep : Char) (s : List Char) : List Char × Option (List Char) :=
  match s.dropWhile (· ≠ sep) with
  | [] => (s, none)
  | _ :: rest => (s.takeWhile (· ≠ sep), some rest)

/-- `s.split(sep)`. -/
def splitOn (sep : Char) : List Char → List (List Char)
  | [] => [[]]
  | c :: rest =>
    if c = sep then [] :: splitOn sep rest
    else match splitOn sep rest with
      | [] => [[c]]
      | chunk :: chunks => (c :: chunk) :: chunks

theorem splitOn_of_notMem {sep : Char} {text : List Char} (h : sep ∉ text) :
    splitOn sep text = [text] := by
  induction text with
  | nil => rfl
  | cons c rest ih =>
    obtain ⟨hc, hrest⟩ := List.ne_and_not_mem_of_not_mem_cons h
    rw [splitOn, if_neg hc.symm, ih hrest]

theorem splitOn_append {sep : Char} {text : List Char} (h : sep ∉ text) (rest : List Char) :
    splitOn sep (text ++ sep :: rest) = text :: splitOn sep rest := by
  induction text with
  | nil => simp [splitOn]
  | cons c text ih =>
    obtain ⟨hc, htext⟩ := List.ne_and_not_mem_of_not_mem_cons h
    rw [List.cons_append, splitOn, if_neg hc.symm, ih htext]

theorem cut_of_notMem {sep : Char} {text : List Char} (h : sep ∉ text) :
    cut sep text = (text, none) := by
  have hdrop : text.dropWhile (· ≠ sep) = [] := by
    rw [List.dropWhile_eq_nil_iff]
    intro c hc
    exact decide_eq_true fun heq => h (heq ▸ hc)
  rw [cut, hdrop]

theorem cut_append {sep : Char} {name : List Char} (h : sep ∉ name) (value : List Char) :
    cut sep (name ++ sep :: value) = (name, some value) := by
  have hname : ∀ c ∈ name, decide (c ≠ sep) = true := fun c hc =>
    decide_eq_true fun heq => h (heq ▸ hc)
  rw [cut, List.dropWhile_append_of_pos hname, List.takeWhile_append_of_pos hname]
  simp

/-- `needle in s`. -/
def contains (needle s : String) : Bool := decide (needle.toList <:+: s.toList)

/-- `s.isascii()`. -/
def isAscii (s : String) : Bool := s.toList.all fun c => c.toNat < 0x80

theorem all_ofList {l : List Char} {p : Char → Bool} (h : l.all p = true) :
    (String.ofList l).toList.all p = true := by
  rwa [String.toList_ofList]

namespace Utf8

/-- A sequence that has begun: how many bytes are missing, the range of the next one, and the
value so far. -/
structure Pending where
  missing : ℕ
  lo : UInt8
  hi : UInt8
  value : ℕ

def replacement : Char := '�'

def start (b : UInt8) : List Char × Option Pending :=
  if b < 0x80 then ([Char.ofNat b.toNat], none)
  else if 0xC2 ≤ b ∧ b ≤ 0xDF then ([], some ⟨1, 0x80, 0xBF, b.toNat - 0xC0⟩)
  -- no overlong forms, no surrogates, nothing above U+10FFFF
  else if b = 0xE0 then ([], some ⟨2, 0xA0, 0xBF, 0⟩)
  else if b = 0xED then ([], some ⟨2, 0x80, 0x9F, 0xD⟩)
  else if 0xE1 ≤ b ∧ b ≤ 0xEF then ([], some ⟨2, 0x80, 0xBF, b.toNat - 0xE0⟩)
  else if b = 0xF0 then ([], some ⟨3, 0x90, 0xBF, 0⟩)
  else if b = 0xF4 then ([], some ⟨3, 0x80, 0x8F, 4⟩)
  else if 0xF1 ≤ b ∧ b ≤ 0xF3 then ([], some ⟨3, 0x80, 0xBF, b.toNat - 0xF0⟩)
  else ([replacement], none)

/-- A sequence that breaks off is replaced as a whole, and the byte that broke it off is read
anew. -/
def decodeFrom : Option Pending → Bytes → List Char
  | none, [] => []
  | some _, [] => [replacement]
  | none, b :: rest =>
    let (chars, pending) := start b
    chars ++ decodeFrom pending rest
  | some p, b :: rest =>
    if p.lo ≤ b ∧ b ≤ p.hi then
      let value := p.value * 64 + (b.toNat - 0x80)
      if p.missing ≤ 1 then Char.ofNat value :: decodeFrom none rest
      else decodeFrom (some ⟨p.missing - 1, 0x80, 0xBF, value⟩) rest
    else
      let (chars, pending) := start b
      replacement :: (chars ++ decodeFrom pending rest)

/-- The least value that the sequence can end with, and what lies beyond the greatest. -/
def Pending.least (p : Pending) : ℕ :=
  (p.value * 64 + (p.lo.toNat - 0x80)) * 64 ^ (p.missing - 1)

def Pending.bound (p : Pending) : ℕ :=
  (p.value * 64 + (p.hi.toNat - 0x80) + 1) * 64 ^ (p.missing - 1)

/-- Every value that the sequence can end with is a character other than U+0000. -/
structure Pending.Sound (p : Pending) : Prop where
  lo : 0x80 ≤ p.lo.toNat
  least : 0 < p.least
  bound : p.bound ≤ 0xD800 ∨ 0xE000 ≤ p.least ∧ p.bound ≤ 0x110000

theorem start_cases (b : UInt8) :
    ((start b).2 = none ∧ (nul ∈ (start b).1 ↔ b = 0)) ∨
      ∃ p, start b = ([], some p) ∧ p.Sound ∧ b ≠ 0 := by
  have hzero : b ≠ 0 ↔ b.toNat ≠ 0 := not_congr UInt8.toNat_inj.symm
  have hbound := b.toNat_lt
  have hsound {missing value : ℕ} {lo hi : UInt8} (hlo : 0x80 ≤ lo.toNat)
      (hleast : 0 < (Pending.mk missing lo hi value).least)
      (hends : (Pending.mk missing lo hi value).bound ≤ 0xD800 ∨
        0xE000 ≤ (Pending.mk missing lo hi value).least ∧
          (Pending.mk missing lo hi value).bound ≤ 0x110000) (hb : b.toNat ≠ 0) :
      ∃ p, (([], some ⟨missing, lo, hi, value⟩) : List Char × Option Pending) = ([], some p) ∧
        p.Sound ∧ b ≠ 0 := ⟨_, rfl, ⟨hlo, hleast, hends⟩, hzero.mpr hb⟩
  by_cases hlow : b < 0x80
  · have hsmall := UInt8.lt_iff_toNat_lt.mp hlow
    have hvalid : b.toNat.isValidChar := Or.inl (hsmall.trans (by decide))
    have hchar : nul = Char.ofNat b.toNat ↔ b = 0 := by
      rw [eq_comm, ← Char.toNat_inj, Char.toNat_ofNat, if_pos hvalid, ← UInt8.toNat_inj]
      rfl
    rw [start, if_pos hlow]
    exact Or.inl ⟨rfl, by simp [hchar]⟩
  by_cases htwo : 0xC2 ≤ b ∧ b ≤ 0xDF
  · rw [start, if_neg hlow, if_pos htwo]
    simp only [UInt8.le_iff_toNat_le] at htwo
    refine Or.inr (hsound (Nat.le_refl _) ?_ ?_ ?_) <;>
      simp [Pending.least, Pending.bound] at htwo ⊢ <;> omega
  by_cases hoverlong : b = 0xE0
  · rw [start, if_neg hlow, if_neg htwo, if_pos hoverlong]
    subst hoverlong
    exact Or.inr (hsound (by decide) (by decide) (by decide) (by decide))
  by_cases hsurrogates : b = 0xED
  · rw [start, if_neg hlow, if_neg htwo, if_neg hoverlong, if_pos hsurrogates]
    subst hsurrogates
    exact Or.inr (hsound (by decide) (by decide) (by decide) (by decide))
  by_cases hthree : 0xE1 ≤ b ∧ b ≤ 0xEF
  · rw [start, if_neg hlow, if_neg htwo, if_neg hoverlong, if_neg hsurrogates, if_pos hthree]
    have hsurrogates : b.toNat ≠ 0xED := fun heq => hsurrogates (UInt8.toNat_inj.mp heq)
    simp only [UInt8.le_iff_toNat_le] at hthree
    refine Or.inr (hsound (Nat.le_refl _) ?_ ?_ ?_) <;>
      simp [Pending.least, Pending.bound] at hthree ⊢ <;> omega
  rw [start, if_neg hlow, if_neg htwo, if_neg hoverlong, if_neg hsurrogates, if_neg hthree]
  by_cases hfirst : b = 0xF0
  · rw [if_pos hfirst]
    subst hfirst
    exact Or.inr (hsound (by decide) (by decide) (by decide) (by decide))
  by_cases hlast : b = 0xF4
  · rw [if_neg hfirst, if_pos hlast]
    subst hlast
    exact Or.inr (hsound (by decide) (by decide) (by decide) (by decide))
  by_cases hfour : 0xF1 ≤ b ∧ b ≤ 0xF3
  · rw [if_neg hfirst, if_neg hlast, if_pos hfour]
    simp only [UInt8.le_iff_toNat_le] at hfour
    refine Or.inr (hsound (Nat.le_refl _) ?_ ?_ ?_) <;>
      simp [Pending.least, Pending.bound] at hfour ⊢ <;> omega
  · rw [if_neg hfirst, if_neg hlast, if_neg hfour]
    refine Or.inl ⟨rfl, iff_of_false (by decide) ?_⟩
    intro hb
    subst hb
    exact hlow (by decide)

theorem Pending.Sound.next {p : Pending} (h : p.Sound) {b : UInt8} (hlo : p.lo ≤ b)
    (hhi : b ≤ p.hi) (hmissing : 1 < p.missing) :
    Pending.Sound ⟨p.missing - 1, 0x80, 0xBF, p.value * 64 + (b.toNat - 0x80)⟩ := by
  obtain ⟨m, hm⟩ : ∃ m, p.missing = m + 2 := ⟨p.missing - 2, by omega⟩
  have hlo := UInt8.le_iff_toNat_le.mp hlo
  have hhi := UInt8.le_iff_toNat_le.mp hhi
  have hleast : p.least ≤ (p.value * 64 + (b.toNat - 0x80)) * 64 ^ (m + 1) := by
    rw [Pending.least, hm]
    exact Nat.mul_le_mul_right _ (by omega)
  have hbound : (p.value * 64 + (b.toNat - 0x80) + 1) * 64 ^ (m + 1) ≤ p.bound := by
    rw [Pending.bound, hm]
    exact Nat.mul_le_mul_right _ (by omega)
  have hsame : Pending.least ⟨p.missing - 1, 0x80, 0xBF, p.value * 64 + (b.toNat - 0x80)⟩ =
      (p.value * 64 + (b.toNat - 0x80)) * 64 ^ (m + 1) := by
    simp [Pending.least, hm, pow_succ', Nat.mul_assoc]
  have hsame' : Pending.bound ⟨p.missing - 1, 0x80, 0xBF, p.value * 64 + (b.toNat - 0x80)⟩ =
      (p.value * 64 + (b.toNat - 0x80) + 1) * 64 ^ (m + 1) := by
    have h64 : (p.value * 64 + (b.toNat - 0x80)) * 64 + 63 + 1 =
        (p.value * 64 + (b.toNat - 0x80) + 1) * 64 := by omega
    simp [Pending.bound, hm, h64, pow_succ', Nat.mul_assoc]
  refine ⟨Nat.le_refl _, ?_, ?_⟩
  · rw [hsame]
    exact h.least.trans_le hleast
  · rw [hsame, hsame']
    exact h.bound.imp hbound.trans fun hends => ⟨hends.1.trans hleast, hbound.trans hends.2⟩

theorem Pending.Sound.char_ne {p : Pending} (h : p.Sound) {b : UInt8} (hlo : p.lo ≤ b)
    (hhi : b ≤ p.hi) (hmissing : p.missing ≤ 1) :
    Char.ofNat (p.value * 64 + (b.toNat - 0x80)) ≠ nul := by
  have hm : p.missing - 1 = 0 := by omega
  have hlo := UInt8.le_iff_toNat_le.mp hlo
  have hhi := UInt8.le_iff_toNat_le.mp hhi
  have hleast := h.least
  have hends := h.bound
  simp only [Pending.least, Pending.bound, hm, pow_zero, Nat.mul_one] at hleast hends
  have hvalid : (p.value * 64 + (b.toNat - 0x80)).isValidChar := by
    unfold Nat.isValidChar
    omega
  intro hnul
  have hnat := congrArg Char.toNat hnul
  rw [Char.toNat_ofNat, if_pos hvalid] at hnat
  have hzero : nul.toNat = 0 := rfl
  omega

theorem nul_mem_decodeFrom {b : Bytes} {pending : Option Pending}
    (h : ∀ p, pending = some p → p.Sound) : nul ∈ decodeFrom pending b ↔ 0 ∈ b := by
  have hreplacement : nul ≠ replacement := by decide
  induction b generalizing pending with
  | nil => cases pending <;> simp [decodeFrom, hreplacement]
  | cons b rest ih =>
    have hstart : nul ∈ (start b).1 ++ decodeFrom (start b).2 rest ↔ 0 ∈ b :: rest := by
      rcases start_cases b with ⟨hnone, hchars⟩ | ⟨p, hstart, hsound, hb⟩
      · have hrest : nul ∈ decodeFrom none rest ↔ 0 ∈ rest := ih (by simp)
        simp [hnone, hrest, hchars, eq_comm]
      · have hrest : nul ∈ decodeFrom (some p) rest ↔ 0 ∈ rest :=
          ih fun _ hp => Option.some.inj hp ▸ hsound
        simp [hstart, hrest, Ne.symm hb]
    cases pending with
    | none => simpa [decodeFrom] using hstart
    | some p =>
      have hsound := h p rfl
      simp only [decodeFrom]
      split
      · rename_i hrange
        have hb : 0 ≠ b := by
          intro hzero
          subst hzero
          have hlo := UInt8.le_iff_toNat_le.mp hrange.1
          have hlow := hsound.lo
          simp at hlo
          omega
        split
        · rename_i hmissing
          have hchar := hsound.char_ne hrange.1 hrange.2 hmissing
          have hrest : nul ∈ decodeFrom none rest ↔ 0 ∈ rest := ih (by simp)
          simp [Ne.symm hchar, hb, hrest]
        · rename_i hmissing
          have hnext := hsound.next hrange.1 hrange.2 (by omega)
          have hrest := ih (fun _ hp => Option.some.inj hp ▸ hnext)
          simp [hb, hrest]
      · simpa [hreplacement] using hstart

end Utf8

/-- `b.decode("utf-8", errors="replace")`. -/
def decodeReplace (b : Bytes) : String := .ofList (Utf8.decodeFrom none b)

/-- U+0000 comes from a zero byte, wherever it stands, and from nothing else. -/
theorem nul_mem_decodeReplace {b : Bytes} : nul ∈ (decodeReplace b).toList ↔ 0 ∈ b := by
  rw [decodeReplace, String.toList_ofList]
  exact Utf8.nul_mem_decodeFrom (by simp)

example : decodeReplace [0x61, 0xE2, 0x82, 0x62, 0xF0, 0x9F, 0x98, 0x80, 0xED, 0xA0] =
    "a�b😀��" := by
  decide +kernel

/-- Lower-case, for `n < 16`. -/
def hexChar (n : ℕ) : Char := "0123456789abcdef".toList.getD n '0'

/-- One byte in the `repr` of bytes. -/
def reprByte (quote : Char) (b : UInt8) : List Char :=
  if b = 0x5C then ['\\', '\\']
  else if b.toNat = quote.toNat then ['\\', quote]
  else if b = 0x09 then ['\\', 't']
  else if b = 0x0A then ['\\', 'n']
  else if b = 0x0D then ['\\', 'r']
  else if b < 0x20 ∨ 0x7F ≤ b then
    ['\\', 'x', hexChar (b.toNat / 16), hexChar (b.toNat % 16)]
  else [Char.ofNat b.toNat]

/-- `repr(b)[2:-1]`; double quotes are taken only around single ones. -/
def reprBytes (b : Bytes) : String :=
  let quote := Char.ofNat (if 0x27 ∈ b ∧ 0x22 ∉ b then 0x22 else 0x27)
  .ofList (b.flatMap (reprByte quote))

theorem hexChar_ne_nul (n : ℕ) : hexChar n ≠ nul := by
  unfold hexChar
  rw [List.getD_eq_getElem?_getD]
  cases hdigit : "0123456789abcdef".toList[n]? with
  | none => decide
  | some c =>
    have hmem := List.mem_of_getElem? hdigit
    intro hnul
    rw [show c = nul from hnul] at hmem
    simp [nul] at hmem

theorem nul_notMem_reprByte {quote : Char} (hquote : quote ≠ nul) (b : UInt8) :
    nul ∉ reprByte quote b := by
  unfold reprByte
  split
  · decide
  split
  · simp [Ne.symm hquote]
    decide
  split
  · decide
  split
  · decide
  split
  · decide
  split
  · simp [Ne.symm (hexChar_ne_nul _)]
    decide
  · rename_i hplain
    have hlow : ¬ b.toNat < 0x20 := fun hlt => hplain (Or.inl (UInt8.lt_iff_toNat_lt.mpr hlt))
    intro hmem
    have hchar := List.mem_singleton.mp hmem
    have hnat := congrArg Char.toNat hchar
    have hvalid : b.toNat.isValidChar := Or.inl (Nat.lt_trans b.toNat_lt (by decide))
    rw [Char.toNat_ofNat, if_pos hvalid] at hnat
    exact hlow (hnat ▸ by decide)

theorem nul_notMem_reprBytes (b : Bytes) : nul ∉ (reprBytes b).toList := by
  intro hmem
  simp only [reprBytes, String.toList_ofList, List.mem_flatMap] at hmem
  obtain ⟨byte, -, hbyte⟩ := hmem
  refine nul_notMem_reprByte ?_ byte hbyte
  split <;> decide

theorem char_toLower_toLower (c : Char) : c.toLower.toLower = c.toLower := by
  unfold Char.toLower
  split
  · rename_i hupper
    have hlow : ('A'.val).toNat = 65 := rfl
    have hhigh : ('Z'.val).toNat = 90 := rfl
    have hshift : ('a'.val - 'A'.val).toNat = 32 := rfl
    have hnot : ¬ (c.val + ('a'.val - 'A'.val) ≥ 'A'.val ∧
        c.val + ('a'.val - 'A'.val) ≤ 'Z'.val) := by
      simp only [ge_iff_le, UInt32.le_iff_toNat_le, UInt32.toNat_add] at hupper ⊢
      omega
    exact dif_neg hnot
  · rfl

theorem toLower_ofList (l : List Char) :
    (String.ofList l).toLower = String.ofList (l.map Char.toLower) := by
  rw [← String.toList_inj, String.toLower, String.toList_map, String.toList_ofList,
    String.toList_ofList]

theorem toLower_toLower (s : String) : s.toLower.toLower = s.toLower := by
  simp only [String.toLower, ← String.toList_inj, String.toList_map, List.map_map]
  exact List.map_congr_left fun c _ => char_toLower_toLower c

/-- `{k.lower(): v for k, v in items}`. Names of headers are ASCII. -/
def lowerKeys (items : List (String × String)) : Headers :=
  items.foldl (fun h field => h.set field.1.toLower field.2) .empty

theorem mem_foldl_set {items : List (String × String)} {h : Headers} {p : String × String}
    (hp : p ∈ (items.foldl (fun h field => h.set field.1.toLower field.2) h).items) :
    p ∈ h.items ∨ ∃ field ∈ items, p = (field.1.toLower, field.2) := by
  induction items generalizing h with
  | nil => exact Or.inl hp
  | cons field rest ih =>
    rcases ih hp with hmem | ⟨field', hfield', rfl⟩
    · rcases PyDict.mem_items_set hmem with rfl | hmem
      · exact Or.inr ⟨field, List.mem_cons_self, rfl⟩
      · exact Or.inl hmem
    · exact Or.inr ⟨field', List.mem_cons_of_mem _ hfield', rfl⟩

/-- Every item comes from a field, under its lower-cased name. -/
theorem mem_lowerKeys {items : List (String × String)} {p : String × String}
    (h : p ∈ (lowerKeys items).items) : ∃ field ∈ items, p = (field.1.toLower, field.2) := by
  rcases mem_foldl_set h with hempty | hfield
  · simp [PyDict.empty] at hempty
  · exact hfield

theorem has_foldl_set (items : List (String × String)) (h : Headers) (k : String) :
    (items.foldl (fun h field => h.set field.1.toLower field.2) h).has k = true ↔
      h.has k = true ∨ ∃ field ∈ items, field.1.toLower = k := by
  induction items generalizing h with
  | nil => simp
  | cons field rest ih =>
    rw [List.foldl_cons, ih, PyDict.has_set, List.exists_mem_cons_iff, eq_comm]
    tauto

theorem has_lowerKeys {items : List (String × String)} {k : String} :
    (lowerKeys items).has k = true ↔ ∃ field ∈ items, field.1.toLower = k := by
  have hempty : (PyDict.empty : Headers).has k = false := rfl
  rw [lowerKeys, has_foldl_set, hempty]
  simp

/-- Lowering twice finds what lowering once does. -/
theorem has_lowerKeys_lowerKeys {items : List (String × String)} {k : String} :
    (lowerKeys (lowerKeys items).items).has k = true ↔ (lowerKeys items).has k = true := by
  rw [has_lowerKeys, has_lowerKeys]
  constructor
  · intro h
    obtain ⟨p, hp, hk⟩ := h
    obtain ⟨field, hfield, rfl⟩ := mem_lowerKeys hp
    exact ⟨field, hfield, (toLower_toLower field.1).symm.trans hk⟩
  · intro h
    obtain ⟨v, hv⟩ := PyDict.has_iff.mp (has_lowerKeys.mpr h)
    obtain ⟨field, -, hp⟩ := mem_lowerKeys (PyDict.mem_items_of_get? hv)
    obtain ⟨rfl, -⟩ := Prod.mk.inj hp
    exact ⟨_, PyDict.mem_items_of_get? hv, toLower_toLower field.1⟩

end Hooktrace
