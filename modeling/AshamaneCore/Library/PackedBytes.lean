import AshamaneCore.Library.Bytes
import Mathlib.Data.Nat.Bitwise
import Mathlib.Tactic.Ring

/-!
# Bytes without their zeros

A list of bytes is kept as a mask, with a bit for each byte that is not zero,
and the bytes that are not zero.
-/

namespace Library.PackedBytes

open Library.Bytes

def mask : List UInt8 → Nat
  | [] => 0
  | b :: bytes => (if b = 0 then 0 else 1) + 2 * mask bytes

def nonzero (bytes : List UInt8) : List UInt8 := bytes.filter fun b => b ≠ 0

@[simp] theorem nonzero_nil : nonzero [] = [] := rfl

theorem nonzero_zero (bytes : List UInt8) : nonzero (0 :: bytes) = nonzero bytes := rfl

theorem nonzero_cons {b : UInt8} (h : b ≠ 0) (bytes : List UInt8) : nonzero (b :: bytes) = b :: nonzero bytes :=
  List.filter_cons_of_pos (decide_eq_true h)

theorem mask_cons_zero (bytes : List UInt8) : mask (0 :: bytes) = 2 * mask bytes := by
  rw [mask, if_pos rfl, Nat.zero_add]

theorem mask_cons {b : UInt8} (h : b ≠ 0) (bytes : List UInt8) : mask (b :: bytes) = 1 + 2 * mask bytes := by
  rw [mask, if_neg h]

theorem mask_lt (bytes : List UInt8) : mask bytes < 2 ^ bytes.length := by
  induction bytes with
  | nil => decide
  | cons b bytes ih =>
    rw [mask, List.length_cons, Nat.pow_succ]
    split <;> omega

theorem testBit_mask (bytes : List UInt8) (i : Nat) : (mask bytes).testBit i = decide (bytes.getD i 0 ≠ 0) := by
  induction bytes generalizing i with
  | nil => simp [mask]
  | cons b bytes ih =>
    cases i with
    | zero =>
      rw [mask, List.getD_cons_zero, Nat.testBit_zero, decide_eq_decide]
      split <;> simp_all
    | succ i =>
      have hHalf : ((if b = 0 then 0 else 1) + 2 * mask bytes) / 2 = mask bytes := by
        split <;> omega
      rw [mask, List.getD_cons_succ, Nat.testBit_succ, hHalf, ih]

theorem nonzero_eq_nil {bytes : List UInt8} : nonzero bytes = [] ↔ leNat bytes = 0 := by
  induction bytes with
  | nil => simp [leNat]
  | cons b bytes ih =>
    by_cases hZero : b = 0
    · subst hZero
      rw [nonzero_zero, ih, leNat]
      simp
    · have hPos : b.toNat ≠ 0 := fun h => hZero (UInt8.toNat_inj.mp h)
      rw [nonzero_cons hZero, leNat]
      simp only [List.cons_ne_nil, false_iff]
      omega

theorem mask_eq_zero {bytes : List UInt8} : mask bytes = 0 ↔ leNat bytes = 0 := by
  induction bytes with
  | nil => simp [mask, leNat]
  | cons b bytes ih =>
    by_cases hZero : b = 0
    · subst hZero
      rw [mask_cons_zero, leNat, UInt8.toNat_zero]
      omega
    · have hPos : b.toNat ≠ 0 := fun h => hZero (UInt8.toNat_inj.mp h)
      rw [mask_cons hZero, leNat]
      omega

theorem or_byte {low : Nat} (byte : Nat) {k : Nat} (h : low < 2 ^ k) : low ||| byte * 2 ^ k = low + byte * 2 ^ k := by
  rw [Nat.or_comm, Nat.mul_comm, ← Nat.two_pow_add_eq_or_of_lt h, Nat.add_comm]

theorem leNat_cons_shift (b : UInt8) (bytes : List UInt8) (i : Nat) :
    leNat (b :: bytes) * 2 ^ (8 * i) = b.toNat * 2 ^ (8 * i) ||| leNat bytes * 2 ^ (8 * (i + 1)) := by
  have hBelow : b.toNat * 2 ^ (8 * i) < 2 ^ (8 * (i + 1)) := by
    rw [Nat.mul_succ, Nat.add_comm, Nat.pow_add]
    exact Nat.mul_lt_mul_of_pos_right b.toNat_lt (Nat.two_pow_pos _)
  rw [or_byte _ hBelow, leNat, Nat.mul_succ, Nat.pow_add]
  ring

end Library.PackedBytes
