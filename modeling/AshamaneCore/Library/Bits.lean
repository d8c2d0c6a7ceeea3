import Mathlib.Data.Nat.Bitwise

/-!
# Single bits of machine words

Setting one bit and testing one bit of a fixed-width word, in terms of the bits
of its value. Bits of a byte are also counted from the most significant one.
-/

namespace Library.Bits

variable {k : Nat}

theorem one_shiftLeft_toNat8 (h : k < 8) : (UInt8.ofNat (1 <<< k)).toNat = 2 ^ k := by
  rw [Nat.one_shiftLeft, UInt8.toNat_ofNat_of_lt' (Nat.pow_lt_pow_right (by decide) h)]

theorem one_shiftLeft_toNat32 (h : k < 32) : (UInt32.ofNat (1 <<< k)).toNat = 2 ^ k := by
  rw [Nat.one_shiftLeft, UInt32.toNat_ofNat_of_lt' (Nat.pow_lt_pow_right (by decide) h)]

theorem one_shiftLeft_toNat64 {k : UInt64} (h : k.toNat < 64) : (1 <<< k : UInt64).toNat = 2 ^ k.toNat := by
  rw [UInt64.toNat_shiftLeft, UInt64.toNat_one, Nat.mod_eq_of_lt h, Nat.one_shiftLeft,
    Nat.mod_eq_of_lt (Nat.pow_lt_pow_right (by decide) h)]

theorem and_one_shiftLeft_ne_zero (value : UInt64) {k : UInt64} (h : k.toNat < 64) :
    value &&& 1 <<< k ≠ 0 ↔ value.toNat.testBit k.toNat = true := by
  rw [ne_eq, ← UInt64.toNat_inj, UInt64.toNat_and, one_shiftLeft_toNat64 h, Nat.and_two_pow,
    UInt64.toNat_zero, Nat.mul_eq_zero]
  cases value.toNat.testBit k.toNat <;> simp

theorem testBit_setBit {value : Nat} (j : Nat) :
    (value ||| 2 ^ k).testBit j = (value.testBit j || decide (k = j)) := by
  rw [Nat.testBit_or, Nat.testBit_two_pow]

theorem and_one_ne_zero (value : Nat) : (value &&& 1 ≠ 0) ↔ value.testBit 0 = true := by
  rw [Nat.and_one_is_mod, Nat.testBit_zero, decide_eq_true_eq]
  omega

theorem test_byte (value : UInt8) (h : k < 8) :
    ((value >>> UInt8.ofNat k) &&& 1 != 0) = value.toNat.testBit k := by
  have hTest : ((value >>> UInt8.ofNat k) &&& 1).toNat = (value.toNat >>> k) &&& 1 := by
    rw [UInt8.toNat_and, UInt8.toNat_shiftRight,
      UInt8.toNat_ofNat_of_lt' (Nat.lt_trans h (by decide)), Nat.mod_eq_of_lt h, UInt8.toNat_one]
  rw [Bool.eq_iff_iff, bne_iff_ne, ne_eq, ← UInt8.toNat_inj, hTest, UInt8.toNat_zero, ← ne_eq,
    and_one_ne_zero, Nat.testBit_shiftRight, Nat.add_zero]

theorem test_word (value : UInt64) (h : k < 64) :
    ((value >>> UInt64.ofNat k) &&& 1 != 0) = value.toNat.testBit k := by
  have hTest : ((value >>> UInt64.ofNat k) &&& 1).toNat = (value.toNat >>> k) &&& 1 := by
    rw [UInt64.toNat_and, UInt64.toNat_shiftRight,
      UInt64.toNat_ofNat_of_lt' (Nat.lt_trans h (by decide)), Nat.mod_eq_of_lt h, UInt64.toNat_one]
  rw [Bool.eq_iff_iff, bne_iff_ne, ne_eq, ← UInt64.toNat_inj, hTest, UInt64.toNat_zero, ← ne_eq,
    and_one_ne_zero, Nat.testBit_shiftRight, Nat.add_zero]

/-! ## Flags of a byte -/

theorem and_or_distrib8 (flags set mask : UInt8) : (flags ||| set) &&& mask = (flags &&& mask) ||| (set &&& mask) := by
  apply UInt8.toBitVec_inj.mp
  rw [UInt8.toBitVec_and, UInt8.toBitVec_or, UInt8.toBitVec_or, UInt8.toBitVec_and, UInt8.toBitVec_and]
  exact BitVec.and_or_distrib_right

theorem set_flag_other {set mask : UInt8} (h : set &&& mask = 0) (flags : UInt8) :
    (flags ||| set) &&& mask = flags &&& mask := by
  rw [and_or_distrib8, h, UInt8.or_zero]

theorem set_flag_self {flag : UInt8} (h : flag ≠ 0) (flags : UInt8) : (flags ||| flag) &&& flag ≠ 0 := by
  rw [and_or_distrib8, UInt8.and_self, ne_eq, UInt8.or_eq_zero_iff]
  exact fun hZero => h hZero.2

theorem clear_flag_other {clear mask : UInt8} (h : clear &&& mask = 0) (flags : UInt8) :
    (flags &&& ~~~clear) &&& mask = flags &&& mask := by
  have hBits : (clear.toBitVec &&& mask.toBitVec) = 0 := by
    rw [← UInt8.toBitVec_and, h]
    rfl
  apply UInt8.toBitVec_inj.mp
  rw [UInt8.toBitVec_and, UInt8.toBitVec_and, UInt8.toBitVec_and, UInt8.toBitVec_not]
  refine BitVec.eq_of_getElem_eq fun i hi => ?_
  have hBit := congrArg (fun x : BitVec 8 => x[i]) hBits
  simp only [BitVec.getElem_and, BitVec.getElem_not, BitVec.ofNat_eq_ofNat, BitVec.getElem_zero] at hBit ⊢
  cases hClear : clear.toBitVec[i]
  · simp
  · rw [hClear, Bool.true_and] at hBit
    rw [hBit, Bool.and_false, Bool.and_false]

theorem clear_flag_self (flag flags : UInt8) : (flags &&& ~~~flag) &&& flag = 0 := by
  apply UInt8.toBitVec_inj.mp
  rw [UInt8.toBitVec_and, UInt8.toBitVec_and, UInt8.toBitVec_not, BitVec.and_assoc]
  refine BitVec.eq_of_getElem_eq fun i hi => ?_
  simp

def bitAt (byte : UInt8) (i : Nat) : Bool := byte.toNat.testBit (7 - i)

theorem bitAt_ext {x y : UInt8} (h : ∀ i < 8, bitAt x i = bitAt y i) : x = y := by
  apply UInt8.toNat_inj.mp
  refine Nat.eq_of_testBit_eq fun j => ?_
  by_cases hj : j < 8
  · have hSame := h (7 - j) (by omega)
    rwa [bitAt, bitAt, show 7 - (7 - j) = j by omega] at hSame
  · have hPow : 2 ^ 8 ≤ 2 ^ j := Nat.pow_le_pow_right (by decide) (by omega)
    rw [Nat.testBit_lt_two_pow (lt_of_lt_of_le x.toNat_lt hPow), Nat.testBit_lt_two_pow (lt_of_lt_of_le y.toNat_lt hPow)]

theorem bitAt_set (h : k < 8) (byte : UInt8) (i : Nat) :
    bitAt (byte ||| UInt8.ofNat (1 <<< k)) i = (bitAt byte i || decide (k = 7 - i)) := by
  rw [bitAt, UInt8.toNat_or, one_shiftLeft_toNat8 h, testBit_setBit]
  rfl

theorem bitAt_clear (h : k < 8) (byte : UInt8) {i : Nat} (hi : i < 8) :
    bitAt (byte &&& ~~~UInt8.ofNat (1 <<< k)) i = (bitAt byte i && !decide (k = 7 - i)) := by
  have hNot : (~~~UInt8.ofNat (1 <<< k)).toNat.testBit (7 - i) = !decide (k = 7 - i) := by
    rw [UInt8.toNat_not, one_shiftLeft_toNat8 h, Nat.sub_sub, Nat.add_comm 1,
      Nat.testBit_two_pow_sub_succ (Nat.pow_lt_pow_right (by decide) h), decide_eq_true (by omega : 7 - i < 8),
      Bool.true_and, Nat.testBit_two_pow]
  rw [bitAt, UInt8.toNat_and, Nat.testBit_and, hNot]
  rfl

def Packs (byte : UInt8) (bits : List Bool) : Prop := ∀ i < 8, bitAt byte i = bits.getD i false

theorem packs_nil : Packs 0 [] := fun i _ => Nat.zero_testBit (7 - i)

theorem Packs.snoc {byte : UInt8} {bits : List Bool} (h : Packs byte bits)
    (hLength : bits.length < 8) (bit : Bool) :
    Packs (if bit then byte ||| UInt8.ofNat (1 <<< (7 - bits.length)) else byte) (bits ++ [bit]) := by
  intro i hi
  have hBits : (bits ++ [bit]).getD i false = (bits.getD i false || (bit && decide (i = bits.length))) := by
    rcases Nat.lt_trichotomy i bits.length with hLess | hEq | hMore
    · have hNe : i ≠ bits.length := by omega
      simp [List.getD_eq_getElem?_getD, List.getElem?_append_left hLess, hNe]
    · subst hEq
      simp [List.getD_eq_getElem?_getD]
    · have hNe : i ≠ bits.length := by omega
      have hLater : ¬ i < bits.length := by omega
      simp [List.getD_eq_getElem?_getD, List.getElem?_append, hLater, hNe,
        List.getElem?_eq_none (by simp; omega : [bit].length ≤ i - bits.length)]
  rw [hBits, ← h i hi]
  cases bit with
  | false => simp
  | true =>
    simp only [if_true, bitAt, UInt8.toNat_or]
    rw [one_shiftLeft_toNat8 (by omega), testBit_setBit]
    congr 1
    simp only [Bool.true_and, decide_eq_decide]
    omega

end Library.Bits
