import Mathlib.Algebra.BigOperators.Group.List.Basic
import Mathlib.Algebra.Order.BigOperators.Group.List
import Mathlib.Algebra.Ring.Nat

/-!
# Withdrawal from piles

An amount is taken from piles in their order: whole piles while the amount is
not exceeded, and then a part of one. The sum of what was taken is kept in a
number of a limited width. The amount is exact as long as the sum does not wrap
before the amount is reached; when it does, more is taken.
-/

namespace Library.Withdrawal

variable (modulus amount : Nat)

/-- What is left of the piles, with the sum of what was taken before. -/
def remains : Nat → List Nat → List Nat
  | _, [] => []
  | taken, pile :: rest =>
    if (pile + taken) % modulus ≤ amount then
      if amount ≤ (pile + taken) % modulus then 0 :: rest else 0 :: remains ((pile + taken) % modulus) rest
    else ((pile + taken) % modulus - amount) :: rest

/-- Up to the pile with which the amount is reached, the sum fits. -/
def Bounded : Nat → List Nat → Prop
  | _, [] => True
  | taken, pile :: rest =>
    pile + taken < modulus ∧ (pile + taken < amount → Bounded (pile + taken) rest)

variable {modulus amount}

variable {piles : List Nat}

theorem sum_remains_le (taken : Nat) (hTaken : taken ≤ amount)
    (hPiles : ∀ pile ∈ piles, pile < modulus) : (remains modulus amount taken piles).sum ≤ piles.sum := by
  induction piles generalizing taken with
  | nil => exact Nat.le_refl 0
  | cons pile rest ih =>
    obtain ⟨-, hRest⟩ := List.forall_mem_cons.mp hPiles
    have hMod : (pile + taken) % modulus ≤ pile + taken := Nat.mod_le _ _
    rw [remains, List.sum_cons]
    split
    · rename_i hWhole
      split
      · rw [List.sum_cons]
        omega
      · have hBehind := ih ((pile + taken) % modulus) hWhole hRest
        rw [List.sum_cons]
        omega
    · rw [List.sum_cons]
      omega

theorem sum_remains (taken : Nat) (hTaken : taken < amount)
    (h : Bounded modulus amount taken piles) :
    (remains modulus amount taken piles).sum + min (amount - taken) piles.sum = piles.sum := by
  induction piles generalizing taken with
  | nil => simp [remains]
  | cons pile rest ih =>
    obtain ⟨hFits, hRest⟩ := h
    rw [remains, Nat.mod_eq_of_lt hFits, List.sum_cons]
    split
    · split
      · rw [List.sum_cons]
        omega
      · rename_i hMore
        have hBehind := ih (pile + taken) (Nat.lt_of_not_le hMore) (hRest (Nat.lt_of_not_le hMore))
        rw [List.sum_cons]
        omega
    · rw [List.sum_cons]
      omega

theorem sum_remains_lt (hAmount : amount < modulus) (taken : Nat) (hTaken : taken < amount)
    (hPiles : ∀ pile ∈ piles, pile < modulus) (h : ¬ Bounded modulus amount taken piles) :
    (remains modulus amount taken piles).sum + (amount - taken) < piles.sum := by
  induction piles generalizing taken with
  | nil => exact absurd trivial h
  | cons pile rest ih =>
    obtain ⟨hPile, hRest⟩ := List.forall_mem_cons.mp hPiles
    rw [Bounded, not_and_or, Classical.not_imp] at h
    rw [remains, List.sum_cons]
    rcases h with hWraps | ⟨hMore, hBehind⟩
    · have hWrapped : (pile + taken) % modulus = pile + taken - modulus := by
        rw [Nat.mod_eq_sub_mod (Nat.le_of_not_lt hWraps), Nat.mod_eq_of_lt (by omega)]
      have hBelow : pile + taken - modulus < amount := by omega
      have hLe := sum_remains_le (pile + taken - modulus) hBelow.le hRest
      rw [hWrapped, if_pos hBelow.le, if_neg (Nat.not_le.mpr hBelow), List.sum_cons]
      omega
    · have hFits : (pile + taken) % modulus = pile + taken := Nat.mod_eq_of_lt (by omega)
      have hLess := ih (pile + taken) hMore hRest hBehind
      rw [hFits, if_pos hMore.le, if_neg (Nat.not_le.mpr hMore), List.sum_cons]
      omega

/-- With piles that are passed by, the amount is exact when the sum fits and either it is reached
or nothing was passed by. -/
theorem exact_iff (hAmount : amount < modulus) (hSome : 0 < amount)
    (hPiles : ∀ pile ∈ piles, pile < modulus) (passed : Nat) :
    (remains modulus amount 0 piles).sum + passed + min amount (piles.sum + passed) = piles.sum + passed ↔
      Bounded modulus amount 0 piles ∧ (amount ≤ piles.sum ∨ passed = 0) := by
  rcases Classical.em (Bounded modulus amount 0 piles) with hBounded | hWraps
  · have hExact := sum_remains 0 hSome hBounded
    rw [Nat.sub_zero] at hExact
    rw [and_iff_right hBounded]
    omega
  · have hLess := sum_remains_lt hAmount 0 hSome hPiles hWraps
    refine iff_of_false ?_ fun h => hWraps h.1
    omega

end Library.Withdrawal
