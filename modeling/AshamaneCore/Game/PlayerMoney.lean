import Mathlib.Algebra.Order.Ring.Int
import Mathlib.Tactic.Common

/-!
# The money of a player

Coinage is an unsigned 64-bit field that is changed by signed amounts: a player
who is charged more than he has is left with nothing, and one who would be paid
beyond the limit is paid nothing.
-/

namespace AshamaneCore.Players

def maxMoneyAmount : Nat := 99999999999

/-- An unsigned 64-bit value read as a signed one. -/
def asInt64 (value : Nat) : Int := (value : Int).bmod (2 ^ 64)

theorem asInt64_of_lt {value : Nat} (h : value < 2 ^ 63) : asInt64 value = value := by
  exact Int.bmod_eq_of_le (by omega) (by omega)

def hasEnoughMoney (money amount : Nat) : Bool := amount ≤ money

/-- An amount that is added fits under the limit, in unsigned arithmetic. -/
def fitsLimit (money : Nat) (amount : Int) : Bool :=
  money ≤ (maxMoneyAmount + 2 ^ 64 - amount.toNat) % 2 ^ 64

def modifyMoney (money : Nat) (amount : Int) : Nat :=
  if amount = 0 then money
  else if amount < 0 then if (-amount).toNat < money then money - (-amount).toNat else 0
  else if fitsLimit money amount then (money + amount.toNat) % 2 ^ 64
  else money

theorem modifyMoney_charge {money amount : Nat} (h : amount ≤ money) :
    modifyMoney money (-(amount : Int)) = money - amount := by
  rw [modifyMoney]
  split
  · have hZero : amount = 0 := by omega
    rw [hZero, Nat.sub_zero]
  · rw [if_pos (by omega), Int.neg_neg, Int.toNat_natCast]
    split
    · rfl
    · omega

theorem modifyMoney_pay {money amount : Nat} (h : money + amount ≤ maxMoneyAmount) :
    modifyMoney money amount = money + amount := by
  rw [modifyMoney]
  split
  · have hZero : amount = 0 := by omega
    rw [hZero, Nat.add_zero]
  · rw [maxMoneyAmount] at h
    have hFits : fitsLimit money amount = true := by
      rw [fitsLimit, decide_eq_true_iff, Int.toNat_natCast, maxMoneyAmount]
      omega
    rw [if_neg (by omega), if_pos hFits, Int.toNat_natCast, Nat.mod_eq_of_lt (by omega)]

theorem modifyMoney_charge_le (money amount : Nat) :
    modifyMoney money (-(amount : Int)) ≤ money := by
  rw [modifyMoney]
  split
  · exact Nat.le_refl _
  · rw [if_pos (by omega), Int.neg_neg, Int.toNat_natCast]
    split <;> omega

end AshamaneCore.Players
