import Mathlib.Algebra.Ring.Nat

/-!
# Little-endian integers as byte lists

A fixed-width integer is its list of bytes, least significant first. Decoding
is total; encoding keeps the value modulo the width.
-/

namespace Library.Bytes

def leNat : List UInt8 → Nat
  | [] => 0
  | b :: bytes => b.toNat + 256 * leNat bytes

def leBytes : Nat → Nat → List UInt8
  | 0, _ => []
  | width + 1, value => UInt8.ofNat value :: leBytes width (value / 256)

@[simp] theorem leBytes_length (width value : Nat) : (leBytes width value).length = width := by
  induction width generalizing value with
  | zero => rfl
  | succ width ih => simp [leBytes, ih]

theorem leNat_lt (bytes : List UInt8) : leNat bytes < 256 ^ bytes.length := by
  induction bytes with
  | nil => decide
  | cons b bytes ih =>
    have hb := b.toNat_lt
    simp only [leNat, List.length_cons, Nat.pow_succ]
    omega

theorem leNat_leBytes (width value : Nat) : leNat (leBytes width value) = value % 256 ^ width := by
  induction width generalizing value with
  | zero => simp [leBytes, leNat, Nat.mod_one]
  | succ width ih =>
    have hByte : (UInt8.ofNat value).toNat = value % 256 := by simp
    rw [leBytes, leNat, ih, hByte, Nat.pow_succ, Nat.mul_comm (256 ^ width), Nat.mod_mul]

theorem leNat_append (first second : List UInt8) :
    leNat (first ++ second) = leNat first + 256 ^ first.length * leNat second := by
  induction first with
  | nil => simp [leNat]
  | cons b first ih =>
    rw [List.cons_append, leNat, leNat, ih, List.length_cons, Nat.pow_succ', Nat.mul_add, Nat.add_assoc,
      Nat.mul_assoc]

theorem leNat_take (bytes : List UInt8) {count : Nat} (h : count ≤ bytes.length) :
    leNat (bytes.take count) = leNat bytes % 256 ^ count := by
  have hLength : (bytes.take count).length = count := List.length_take_of_le h
  have hLt := leNat_lt (bytes.take count)
  have hSplit := congrArg leNat (List.take_append_drop count bytes)
  rw [leNat_append, hLength] at hSplit
  rw [hLength] at hLt
  rw [← hSplit, Nat.add_mul_mod_self_left, Nat.mod_eq_of_lt hLt]

theorem leNat_drop (bytes : List UInt8) {count : Nat} (h : count ≤ bytes.length) :
    leNat (bytes.drop count) = leNat bytes / 256 ^ count := by
  have hLength : (bytes.take count).length = count := List.length_take_of_le h
  have hLt := leNat_lt (bytes.take count)
  have hSplit := congrArg leNat (List.take_append_drop count bytes)
  rw [leNat_append, hLength] at hSplit
  rw [hLength] at hLt
  rw [← hSplit, Nat.add_mul_div_left _ _ (Nat.lt_of_le_of_lt (Nat.zero_le _) hLt),
    Nat.div_eq_of_lt hLt, Nat.zero_add]

end Library.Bytes
