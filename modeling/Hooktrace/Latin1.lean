import Hooktrace.Entities

/-!
Texts in latin-1, where every byte is the code point of its character, and Python's `lower` as
far as latin-1 can tell.
-/
namespace Hooktrace

namespace Latin1

/-- `c.lower()` where that is in latin-1. All other characters are lowered to texts with a
character outside latin-1; here they stay. -/
def lowerChar (c : Char) : Char :=
  if c.toNat = 0x178 then 'ÿ'
  else if c.toNat = 0x1E9E then 'ß'
  else if c.toNat = 0x212A then 'k'
  else if c.toNat = 0x212B then 'å'
  else if 0xC0 ≤ c.toNat ∧ c.toNat ≤ 0xDE ∧ c.toNat ≠ 0xD7 then Char.ofNat (c.toNat + 0x20)
  else c.toLower

def byte (c : Char) : UInt8 := UInt8.ofNat c.toNat

theorem byte_toNat {c : Char} (h : c.toNat < 256) : (byte c).toNat = c.toNat := by
  simp only [byte, UInt8.toNat_ofNat']
  omega

theorem byte_injective {c c' : Char} (h : c.toNat < 256) (h' : c'.toNat < 256)
    (hsame : byte c = byte c') : c = c' := by
  have hnat := congrArg UInt8.toNat hsame
  rw [byte_toNat h, byte_toNat h'] at hnat
  exact Char.toNat_inj.mp hnat

end Latin1

open Latin1

/-- `s.lower()`. -/
def lower (s : String) : String := .ofList (s.toList.map lowerChar)

/-- `s.encode("latin-1")`; `none` is a UnicodeEncodeError. -/
def encodeLatin1 (s : String) : Option Bytes :=
  if s.toList.all fun c => c.toNat < 256 then some (s.toList.map byte) else none

theorem encodeLatin1_eq_some {s : String} {b : Bytes} :
    encodeLatin1 s = some b ↔ (∀ c ∈ s.toList, c.toNat < 256) ∧ s.toList.map byte = b := by
  simp only [encodeLatin1, List.all_eq_true, decide_eq_true_eq]
  split <;> simp_all

/-- Different texts have different bytes. -/
theorem encodeLatin1_injective {s s' : String} {b : Bytes} (h : encodeLatin1 s = some b)
    (h' : encodeLatin1 s' = some b) : s = s' := by
  obtain ⟨hs, rfl⟩ := encodeLatin1_eq_some.mp h
  obtain ⟨hs', hsame⟩ := encodeLatin1_eq_some.mp h'
  refine String.toList_inj.mp (List.ext_getElem? fun i => ?_)
  have hbytes := congrArg (fun b => b[i]?) hsame
  simp only [List.getElem?_map] at hbytes
  cases hc : s.toList[i]? with
  | none => simpa [hc] using hbytes
  | some c =>
    obtain ⟨c', hc', hbyte⟩ :=
      Option.map_eq_some_iff.mp (hbytes.trans (by rw [hc, Option.map_some]))
    rw [hc', byte_injective (hs' c' (List.mem_of_getElem? hc')) (hs c (List.mem_of_getElem? hc))
      hbyte]

example : encodeLatin1 (lower "X-Étag") = some [120, 45, 233, 116, 97, 103] := by decide +kernel

end Hooktrace
