import AshamaneCore.Library.Bytes
import Mathlib.Algebra.Order.Ring.Int
import Mathlib.Data.Int.ModEq
import Mathlib.Tactic.Ring

/-!
# Fields of bits in words

A field of some width at some offset is cut out of a word by a shift to the top
and a shift to the bottom. The sign of a field is extended by flipping its top
bit and subtracting it.
-/

namespace Library.BitFields

def field (value offset width : Nat) : Nat := value / 2 ^ offset % 2 ^ width

theorem field_lt (value offset width : Nat) : field value offset width < 2 ^ width :=
  Nat.mod_lt _ (Nat.two_pow_pos width)

theorem testBit_field (value offset width i : Nat) :
    (field value offset width).testBit i = (decide (i < width) && value.testBit (offset + i)) := by
  rw [field, Nat.testBit_mod_two_pow, Nat.testBit_div_two_pow, Nat.add_comm i]

theorem field_div (value k offset width : Nat) :
    field (value / 2 ^ k) offset width = field value (k + offset) width := by
  rw [field, field, Nat.div_div_eq_div_mul, ← Nat.pow_add]

variable {n width : Nat}

theorem field_mod (value : Nat) {offset : Nat} (h : offset + width ≤ n) :
    field (value % 2 ^ n) offset width = field value offset width := by
  refine Nat.eq_of_testBit_eq fun i => ?_
  rw [testBit_field, testBit_field]
  rcases Nat.lt_or_ge i width with hLt | hGe
  · have hBit : offset + i < n := by omega
    rw [Nat.testBit_mod_two_pow, decide_eq_true hBit, Bool.true_and]
  · rw [decide_eq_false (Nat.not_lt.mpr hGe), Bool.false_and, Bool.false_and]

theorem toNat_shift_pair (word : BitVec n) {offset : Nat} (h : offset + width ≤ n) :
    (word <<< (n - offset - width) >>> (n - width)).toNat = field word.toNat offset width := by
  refine Nat.eq_of_testBit_eq fun i => ?_
  rw [testBit_field, BitVec.testBit_toNat, BitVec.getLsbD_ushiftRight, BitVec.getLsbD_shiftLeft]
  rcases Nat.lt_or_ge i width with hLt | hGe
  · have hInside : n - width + i < n := by omega
    have hAbove : ¬ n - width + i < n - offset - width := by omega
    have hPlace : n - width + i - (n - offset - width) = offset + i := by omega
    rw [decide_eq_true hInside, decide_eq_false hAbove, decide_eq_true hLt, hPlace, BitVec.testBit_toNat]
    rfl
  · have hOutside : ¬ n - width + i < n := by omega
    rw [decide_eq_false hOutside, decide_eq_false (Nat.not_lt.mpr hGe), Bool.false_and, Bool.false_and,
      Bool.false_and]

/-! ## Signs -/

def signed (value width : Nat) : Int := if value < 2 ^ (width - 1) then value else (value : Int) - 2 ^ width

theorem xor_top {value k : Nat} (h : value < 2 ^ (k + 1)) :
    ((value ^^^ 2 ^ k : Nat) : Int) = signed value (k + 1) + 2 ^ k := by
  have hPow : 2 ^ (k + 1) = 2 * 2 ^ k := Nat.pow_succ'
  have hSplit := Nat.div_add_mod value (2 ^ k)
  have hFlip := Nat.div_add_mod (value ^^^ 2 ^ k) (2 ^ k)
  rw [Nat.xor_div_two_pow, Nat.xor_mod_two_pow, Nat.div_self (Nat.two_pow_pos k), Nat.mod_self, Nat.xor_zero] at hFlip
  rw [signed, Nat.add_sub_cancel, ← hFlip]
  split
  · rename_i hLow
    rw [Nat.div_eq_of_lt hLow, Nat.mod_eq_of_lt hLow, Nat.zero_xor, Nat.mul_one]
    push_cast
    ring
  · rename_i hHigh
    have hOne : value / 2 ^ k = 1 := Nat.div_eq_of_lt_le (by omega) (by omega)
    have hRest : value % 2 ^ k = value - 2 ^ k := by
      rw [hOne] at hSplit
      omega
    rw [hOne, Nat.xor_self, Nat.mul_zero, Nat.zero_add, hRest, Nat.cast_sub (Nat.le_of_not_lt hHigh)]
    push_cast
    ring

/-- Flipping the top bit of a field and subtracting it extends the sign through the word. -/
theorem toInt_extend (word : BitVec n) (hPos : 0 < width) (hWidth : width ≤ n)
    (h : word.toNat < 2 ^ width) :
    (((word ^^^ (1#n <<< (width - 1))) - (1#n <<< (width - 1))).toNat : Int) = signed word.toNat width % 2 ^ n := by
  obtain ⟨k, rfl⟩ : ∃ k, width = k + 1 := ⟨width - 1, by omega⟩
  have hLt : 2 ^ k < 2 ^ n := Nat.pow_lt_pow_right (by decide) (by omega)
  have hOne : 1 < 2 ^ n := Nat.one_lt_two_pow (by omega)
  have hMask : (1#n <<< (k + 1 - 1)).toNat = 2 ^ k := by
    rw [Nat.add_sub_cancel, BitVec.toNat_shiftLeft, BitVec.toNat_ofNat, Nat.mod_eq_of_lt hOne, Nat.one_shiftLeft,
      Nat.mod_eq_of_lt hLt]
  rw [BitVec.toNat_sub, BitVec.toNat_xor, hMask, Int.natCast_emod, Int.natCast_add, xor_top h,
    Nat.cast_sub hLt.le]
  push_cast
  rw [show (2 : Int) ^ n - 2 ^ k + (signed word.toNat (k + 1) + 2 ^ k) = signed word.toNat (k + 1) + 2 ^ n by ring,
    Int.add_emod_right]

end Library.BitFields
