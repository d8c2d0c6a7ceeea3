import Mathlib.Data.List.Basic

/-!
# Lists in batches

A list is cut into batches of a fixed size, and the last one has what is left.
-/

namespace Library.Batches

universe u

variable {α : Type u} {size : Nat} {l : List α}

def batch (size : Nat) (l : List α) (i : Nat) : List α := (l.drop (i * size)).take size

theorem batch_rest (hSize : 0 < size) :
    (l.drop (l.length / size * size)).take (l.length % size) = batch size l (l.length / size) := by
  have hDivided := Nat.div_add_mod' l.length size
  have hLength : (l.drop (l.length / size * size)).length ≤ l.length % size := by
    rw [List.length_drop]
    omega
  have hRest := Nat.mod_lt l.length hSize
  rw [batch, List.take_of_length_le hLength, List.take_of_length_le (by omega)]

end Library.Batches
