import Mathlib.Algebra.GroupWithZero.Nat
import Mathlib.Data.List.Basic

/-!
Python's `str` is a sequence of code points, surrogates included. Decoding never makes a
surrogate, but a JSON escape can; where no such text arises, `String` models it.
-/
namespace Hooktrace

abbrev CodePoint := Fin 0x110000

instance codePoints_neZero : NeZero 0x110000 := ⟨by decide⟩

abbrev PyStr := List CodePoint

theorem toNat_lt_codePoints (c : Char) : c.toNat < 0x110000 := by
  have hvalid : c.val.toNat.isValidChar := c.valid
  have hnat : c.toNat = c.val.toNat := rfl
  unfold Nat.isValidChar at hvalid
  omega

def CodePoint.ofChar (c : Char) : CodePoint := ⟨c.toNat, toNat_lt_codePoints c⟩

def PyStr.ofString (s : String) : PyStr := s.toList.map CodePoint.ofChar

theorem PyStr.ofString_injective : Function.Injective PyStr.ofString := by
  intro s t h
  have hchar : Function.Injective CodePoint.ofChar := by
    intro c d hcode
    exact Char.toNat_inj.mp (Fin.mk.inj hcode)
  exact String.toList_inj.mp (hchar.list_map h)

def isHighSurrogate (c : ℕ) : Bool := 0xD800 ≤ c ∧ c ≤ 0xDBFF

def isLowSurrogate (c : ℕ) : Bool := 0xDC00 ≤ c ∧ c ≤ 0xDFFF

/-- Characters are no surrogates. -/
theorem surrogate_toNat (c : Char) :
    isHighSurrogate c.toNat = false ∧ isLowSurrogate c.toNat = false := by
  have hvalid : c.val.toNat.isValidChar := c.valid
  have hnat : c.toNat = c.val.toNat := rfl
  unfold Nat.isValidChar at hvalid
  simp only [isHighSurrogate, isLowSurrogate, decide_eq_false_iff_not]
  omega

/-- The code point of a surrogate pair. -/
def joinSurrogates (high low : ℕ) : ℕ := 0x10000 + (high - 0xD800) * 0x400 + (low - 0xDC00)

end Hooktrace
