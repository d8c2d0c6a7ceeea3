import Mathlib.Data.List.Basic
import Mathlib.Data.List.Range

/-!
# Loops with a narrow index

A loop gathers the indices it picks, in a type that has fewer numbers than the
loop may need. It leaves when the list is full. With a size that the index can
reach it ends, and beyond that a loop that picks nothing goes round for ever.
-/

namespace Library.NarrowLoops

variable (modulus size : Nat) (picks : Nat → Bool) (full : List Nat → Bool)

/-- `for (i = 0; i < size; ++i)`, with the rounds that are looked at. -/
def loop : Nat → Nat → List Nat → Option (List Nat)
  | 0, _, _ => none
  | rounds + 1, i, list =>
    if i < size then
      if picks i then
        if full (list ++ [i]) then some (list ++ [i]) else loop rounds ((i + 1) % modulus) (list ++ [i])
      else loop rounds ((i + 1) % modulus) list
    else some list

def Ends : Prop := ∃ rounds, (loop modulus size picks full rounds 0 []).isSome = true

def gather : List Nat → List Nat → List Nat
  | [], list => list
  | i :: rest, list =>
    if picks i then if full (list ++ [i]) then list ++ [i] else gather rest (list ++ [i])
    else gather rest list

variable {modulus size picks full}

theorem loop_eq (hSize : size < modulus) {i k : Nat} (hEnd : i + k = size) (list : List Nat) :
    loop modulus size picks full (k + 1) i list = some (gather picks full (List.range' i k) list) := by
  induction k generalizing i list with
  | zero =>
    rw [loop, if_neg (by omega)]
    rfl
  | succ k ih =>
    have hNext : (i + 1) % modulus = i + 1 := Nat.mod_eq_of_lt (by omega)
    rw [loop, if_pos (by omega), List.range'_succ, gather, hNext, ih (by omega), ih (by omega)]
    split
    · split <;> rfl
    · rfl

theorem ends_of_lt (hSize : size < modulus) : Ends modulus size picks full := by
  refine ⟨size + 1, ?_⟩
  rw [loop_eq hSize (Nat.zero_add size)]
  rfl

theorem ends_iff_of_none (hModulus : 0 < modulus) (hNone : ∀ i, picks i = false) :
    Ends modulus size picks full ↔ size < modulus := by
  refine ⟨?_, ends_of_lt⟩
  rintro ⟨rounds, hSome⟩
  by_contra hLarge
  have hRound : ∀ rounds i list, i < modulus → loop modulus size picks full rounds i list = none := by
    intro rounds
    induction rounds with
    | zero => exact fun i list _ => rfl
    | succ rounds ih =>
      intro i list hIndex
      rw [loop, if_pos (by omega), hNone i, if_neg Bool.false_ne_true]
      exact ih _ list (Nat.mod_lt _ hModulus)
  rw [hRound rounds 0 [] hModulus] at hSome
  exact Bool.false_ne_true hSome

end Library.NarrowLoops
