import Mathlib.Data.List.Nodup
import Mathlib.Data.List.Rotate

/-!
# Turns in a circle

The members of a list take turns. The next turn goes to the first suitable
member behind a position, and with none behind it to the first one before it.
-/

namespace Library.RoundRobin

universe u

variable {α : Type u} (p : α → Bool)

def turn (l : List α) (position : Nat) : Option α :=
  ((l.drop position).find? p).or ((l.take position).find? p)

variable {p}

variable {l : List α} {position : Nat}

theorem turn_eq_head (h : position ≤ l.length) :
    turn p l position = ((l.rotate position).filter p).head? := by
  rw [List.rotate_eq_drop_append_take h, List.filter_append, List.head?_append, List.head?_filter, List.head?_filter]
  rfl

theorem filter_rotate (h : position ≤ l.length) :
    (l.rotate position).filter p = (l.filter p).rotate ((l.take position).filter p).length := by
  have hSplit : l.filter p = (l.take position).filter p ++ (l.drop position).filter p := by
    rw [← List.filter_append, List.take_append_drop]
  rw [List.rotate_eq_drop_append_take h, List.filter_append, hSplit, List.rotate_append_length_eq]

theorem turn_rotate (h : position ≤ l.length) :
    turn p l position = ((l.filter p).rotate ((l.take position).filter p).length).head? := by
  rw [turn_eq_head h, filter_rotate h]

theorem turn_isSome (h : position ≤ l.length) :
    (turn p l position).isSome = true ↔ ∃ a ∈ l, p a = true := by
  rw [turn_rotate h, List.isSome_head?, ne_eq, List.rotate_eq_nil_iff, List.filter_eq_nil_iff]
  push Not
  rfl

variable {a : α}

theorem turn_suitable (h : turn p l position = some a) : a ∈ l ∧ p a = true := by
  rcases Option.or_eq_some_iff.mp h with hBehind | ⟨-, hBefore⟩
  · exact ⟨List.mem_of_mem_drop (List.mem_of_find?_eq_some hBehind), List.find?_some hBehind⟩
  · exact ⟨List.mem_of_mem_take (List.mem_of_find?_eq_some hBefore), List.find?_some hBefore⟩

/-- Up to and with a suitable member there are as many suitable ones as its number says. -/
theorem length_filter_take [DecidableEq α] (hNodup : l.Nodup) {i : Nat}
    (h : (l.filter p)[i]? = some a) : ((l.take (l.idxOf a + 1)).filter p).length = i + 1 := by
  obtain ⟨hMem, hSuitable⟩ := List.mem_filter.mp (List.mem_of_getElem? h)
  have hLt : l.idxOf a < l.length := List.idxOf_lt_length_iff.mpr hMem
  have hTake : (l.take (l.idxOf a + 1)).filter p = (l.take (l.idxOf a)).filter p ++ [a] := by
    rw [List.take_succ_eq_append_getElem hLt, List.filter_append, List.getElem_idxOf hLt, List.filter_cons_of_pos hSuitable,
      List.filter_nil]
  obtain ⟨rest, hRest⟩ : (l.take (l.idxOf a)).filter p ++ [a] <+: l.filter p := by
    rw [← hTake]
    exact (List.take_prefix _ _).filter p
  have hNumber : (l.filter p)[((l.take (l.idxOf a)).filter p).length]? = some a := by
    rw [← hRest, List.append_assoc, List.getElem?_append_right le_rfl, Nat.sub_self]
    rfl
  have hSame : ((l.take (l.idxOf a)).filter p).length = i := by
    obtain ⟨hj, hAt⟩ := List.getElem?_eq_some_iff.mp hNumber
    obtain ⟨hi, hHere⟩ := List.getElem?_eq_some_iff.mp h
    exact (hNodup.filter p).getElem_inj_iff.mp (hAt.trans hHere.symm)
  rw [hTake, List.length_append, hSame]
  rfl

/-- Behind the suitable member number i the turn goes to number i + 1, and behind the last to the first. -/
theorem turn_after [DecidableEq α] (hNodup : l.Nodup) {i : Nat} (h : (l.filter p)[i]? = some a) :
    turn p l (l.idxOf a + 1) = (l.filter p)[(i + 1) % (l.filter p).length]? := by
  have hLt : l.idxOf a < l.length := List.idxOf_lt_length_iff.mpr (List.mem_of_mem_filter (List.mem_of_getElem? h))
  have hSome : i < (l.filter p).length := (List.getElem?_eq_some_iff.mp h).1
  rw [turn_rotate hLt, length_filter_take hNodup h, ← List.rotate_mod,
    List.head?_rotate (Nat.mod_lt _ (Nat.zero_lt_of_lt hSome))]

/-- Who has the turn after each of so many moves, where the first goes to number `first`. -/
theorem cycle_eq_rotate {who : Nat → α} {first : Nat} (h : ∀ k, l[(first + k) % l.length]? = some (who k))
    (n : Nat) : (List.range l.length).map (fun k => who (n + k)) = l.rotate (first + n) := by
  refine List.ext_getElem (by rw [List.length_map, List.length_range, List.length_rotate]) fun k hk hk' => ?_
  obtain ⟨hLt, hWho⟩ := List.getElem?_eq_some_iff.mp (h (n + k))
  rw [List.getElem_map, List.getElem_range, List.getElem_rotate, ← hWho]
  congr 2
  omega

end Library.RoundRobin
