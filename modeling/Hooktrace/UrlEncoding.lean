import Hooktrace.PyText
import Mathlib.Data.List.SplitBy

/-!
`urllib.parse` on form-encoded texts: a field is what stands between ampersands, a plus is a
blank, and percent escapes are decoded as UTF-8 with replacement within each run of ASCII
characters.
-/
namespace Hooktrace.UrlEncoding

def hexDigit (c : Char) : Option ℕ :=
  if '0' ≤ c ∧ c ≤ '9' then some (c.toNat - '0'.toNat)
  else if 'a' ≤ c ∧ c ≤ 'f' then some (c.toNat - 'a'.toNat + 10)
  else if 'A' ≤ c ∧ c ≤ 'F' then some (c.toNat - 'A'.toNat + 10)
  else none

theorem hexDigit_hexChar : ∀ n < 16, hexDigit (hexChar n) = some n := by decide

def asciiBytes (s : List Char) : Bytes := s.map fun c => c.toNat.toUInt8

/-- What follows a percent sign; without two digits the sign stands for itself. -/
def unquoteItem (item : List Char) : Bytes :=
  match item with
  | a :: b :: rest =>
    match hexDigit a, hexDigit b with
    | some x, some y => (16 * x + y).toUInt8 :: asciiBytes rest
    | _, _ => asciiBytes ('%' :: item)
  | _ => asciiBytes ('%' :: item)

/-- `unquote_to_bytes`, on an ASCII text. -/
def unquoteToBytes (s : List Char) : Bytes :=
  match splitOn '%' s with
  | [] => []
  | bits :: items => asciiBytes bits ++ items.flatMap unquoteItem

def isAsciiChar (c : Char) : Bool := c.toNat < 0x80

def unquote (s : List Char) : List Char :=
  (s.splitBy fun a b => isAsciiChar a == isAsciiChar b).flatMap fun run =>
    if run.all isAsciiChar then (decodeReplace (unquoteToBytes run)).toList else run

def unquotePlus (s : List Char) : String :=
  .ofList (unquote (s.map fun c => if c = '+' then ' ' else c))

def parseField (keepBlankValues : Bool) (field : List Char) : Option (String × String) :=
  if field = [] then none
  else
    let (name, value) := cut '=' field
    let value := value.getD []
    if value = [] ∧ ¬ keepBlankValues then none
    else some (unquotePlus name, unquotePlus value)

/-- `parse_qs`: the values of each name, in their order. -/
def parseQs (keepBlankValues : Bool) (qs : String) : PyDict String (List String) :=
  ((splitOn '&' qs.toList).filterMap (parseField keepBlankValues)).foldl
    (fun parsed field => parsed.set field.1 ((parsed.get? field.1).getD [] ++ [field.2])) .empty

example : (parseQs false "a=1&b=%C3%A9+%2&a=&a=3&=x&c").items =
    [("a", ["1", "3"]), ("b", ["é %2"]), ("", ["x"])] := by
  decide +kernel

section Unquote

/-- A first element that belongs to the first run. -/
theorem splitBy_cons_of_head {α : Type*} {r : α → α → Bool} {a b : α} {l : List α}
    {run : List α} {runs : List (List α)} (h : (b :: l).splitBy r = (b :: run) :: runs)
    (hab : r a b = true) : (a :: b :: l).splitBy r = (a :: b :: run) :: runs := by
  obtain ⟨hflatten, hnil, hchain, hborders⟩ := List.splitBy_eq_iff.mp h
  refine List.splitBy_eq_iff.mpr ⟨?_, ?_, ?_, ?_⟩
  · rw [hflatten]
    simp
  · simpa using hnil
  · obtain ⟨hfirst, hothers⟩ := List.forall_mem_cons.mp hchain
    exact List.forall_mem_cons.mpr ⟨hfirst.cons_cons hab, hothers⟩
  · cases runs with
    | nil => simp
    | cons run' runs =>
      rw [List.isChain_cons_cons] at hborders ⊢
      obtain ⟨⟨hrun, hrun', hborder⟩, hrest⟩ := hborders
      refine ⟨⟨by simp, hrun', ?_⟩, hrest⟩
      simpa using hborder

def Plain (c : Char) : Prop := isAsciiChar c = true ∧ c ≠ '%'

theorem unquoteToBytes_cons {c : Char} {s : List Char} (hc : c ≠ '%') :
    unquoteToBytes (c :: s) = c.toNat.toUInt8 :: unquoteToBytes s := by
  rw [unquoteToBytes, unquoteToBytes, splitOn, if_neg hc]
  cases splitOn '%' s with
  | nil => rfl
  | cons bits items => rfl

theorem decodeReplace_cons {c : Char} (hc : isAsciiChar c = true) (b : Bytes) :
    (decodeReplace (c.toNat.toUInt8 :: b)).toList = c :: (decodeReplace b).toList := by
  have hsmall : c.toNat < 0x80 := of_decide_eq_true hc
  have hbyte : c.toNat.toUInt8.toNat = c.toNat := by
    rw [Nat.toUInt8, UInt8.toNat_ofNat']
    omega
  have hstart : Utf8.start c.toNat.toUInt8 = ([c], none) := by
    have hlt : c.toNat.toUInt8 < 0x80 := by
      rw [UInt8.lt_iff_toNat_lt, hbyte]
      exact hsmall
    simp only [Utf8.start, hlt, if_true, hbyte, Char.ofNat_toNat]
  simp only [decodeReplace, String.toList_ofList, Utf8.decodeFrom, hstart]
  rfl

def unquoteRun (run : List Char) : List Char :=
  if run.all isAsciiChar then (decodeReplace (unquoteToBytes run)).toList else run

theorem unquoteRun_cons {c : Char} (hc : Plain c) (run : List Char) :
    unquoteRun (c :: run) = c :: unquoteRun run := by
  obtain ⟨hascii, hpercent⟩ := hc
  simp only [unquoteRun, List.all_cons, hascii, Bool.true_and]
  split
  · rw [unquoteToBytes_cons hpercent, decodeReplace_cons hascii]
  · rfl

theorem unquote_cons {c : Char} (hc : Plain c) (s : List Char) :
    unquote (c :: s) = c :: unquote s := by
  have hsingle : unquoteRun [c] = [c] := unquoteRun_cons hc []
  have hone : [c].splitBy (fun a b => isAsciiChar a == isAsciiChar b) = [[c]] := rfl
  show ((c :: s).splitBy fun a b => isAsciiChar a == isAsciiChar b).flatMap unquoteRun =
    c :: (s.splitBy fun a b => isAsciiChar a == isAsciiChar b).flatMap unquoteRun
  cases s with
  | nil => simp [hone, hsingle]
  | cons d s =>
    cases hd : (isAsciiChar c == isAsciiChar d) with
    | true =>
      obtain ⟨run, runs, hruns⟩ := List.exists_cons_of_ne_nil
        (List.splitBy_ne_nil (r := fun a b => isAsciiChar a == isAsciiChar b).mpr
          (List.cons_ne_nil d s))
      obtain ⟨hflatten, hnil, -⟩ := List.splitBy_eq_iff.mp hruns
      obtain ⟨e, run, rfl⟩ : ∃ e run', run = e :: run' :=
        List.exists_cons_of_ne_nil fun hrun => hnil (hrun ▸ List.mem_cons_self)
      obtain ⟨rfl, -⟩ : d = e ∧ s = run ++ runs.flatten := by simpa using hflatten
      rw [splitBy_cons_of_head hruns hd, hruns, List.flatMap_cons, List.flatMap_cons,
        unquoteRun_cons hc, List.cons_append]
    | false =>
      have hsplit := List.splitBy_append_cons (r := fun a b => isAsciiChar a == isAsciiChar b)
        (l := [c]) (a := d) s (by simpa using hd)
      rw [List.singleton_append] at hsplit
      rw [hsplit, List.flatMap_append, hone]
      simp [hsingle]

theorem unquote_append {s : List Char} (hs : ∀ c ∈ s, Plain c) (t : List Char) :
    unquote (s ++ t) = s ++ unquote t := by
  induction s with
  | nil => rfl
  | cons c s ih =>
    obtain ⟨hc, hs⟩ := List.forall_mem_cons.mp hs
    rw [List.cons_append, unquote_cons hc, ih hs, List.cons_append]

end Unquote
end Hooktrace.UrlEncoding
