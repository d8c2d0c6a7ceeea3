import Mathlib.Data.Finset.Erase
import Mathlib.Data.Finset.Insert
import Mathlib.Order.Bounds.Basic

/-!
# The lowest free identifier

Identifiers are positive numbers. The set of those in use grows and shrinks by
one element at a time, and the lowest free one moves with it.
-/

namespace Library.LowestFree

def free (used : Finset Nat) : Set Nat := fun i => 1 ≤ i ∧ i ∉ used

variable {used : Finset Nat} {n i m : Nat}

theorem isLeast_insert (h : IsLeast (free used) n) (hNe : i ≠ n) : IsLeast (free (insert i used)) n := by
  constructor
  · refine ⟨h.1.1, fun hMem => ?_⟩
    rcases Finset.mem_insert.mp hMem with hEq | hUsed
    · exact hNe hEq.symm
    · exact h.1.2 hUsed
  · intro k hk
    apply h.2
    exact ⟨hk.1, fun hUsed => hk.2 (Finset.mem_insert_of_mem hUsed)⟩

/-- The lowest free identifier is taken, and the next one above it that is free follows. -/
theorem isLeast_take (h : IsLeast (free used) n) (hAbove : n < m) (hFree : m ∉ used)
    (hBetween : ∀ k, n < k → k < m → k ∈ used) : IsLeast (free (insert n used)) m := by
  constructor
  · refine ⟨by omega, fun hMem => ?_⟩
    rcases Finset.mem_insert.mp hMem with hEq | hUsed
    · omega
    · exact hFree hUsed
  · intro k hk
    have hOld : k ∈ free used := ⟨hk.1, fun hUsed => hk.2 (Finset.mem_insert_of_mem hUsed)⟩
    have hLe := h.2 hOld
    have hNe : k ≠ n := fun hEq => hk.2 (hEq ▸ Finset.mem_insert_self n used)
    rcases Nat.lt_or_ge k m with hLt | hGe
    · exact absurd (hBetween k (by omega) hLt) hOld.2
    · exact hGe

theorem isLeast_erase (h : IsLeast (free used) n) (hPos : 1 ≤ i) :
    IsLeast (free (used.erase i)) (if i < n then i else n) := by
  have hGained : ∀ k, k ∈ free (used.erase i) → k = i ∨ k ∈ free used := by
    rintro k ⟨hOne, hNot⟩
    rcases eq_or_ne k i with hEq | hNe
    · exact Or.inl hEq
    · exact Or.inr ⟨hOne, fun hUsed => hNot (Finset.mem_erase.mpr ⟨hNe, hUsed⟩)⟩
  split
  · rename_i hLt
    refine ⟨⟨hPos, Finset.notMem_erase i used⟩, fun k hk => ?_⟩
    rcases hGained k hk with hEq | hOld
    · exact hEq.ge
    · exact hLt.le.trans (h.2 hOld)
  · rename_i hGe
    refine ⟨⟨h.1.1, fun hMem => h.1.2 (Finset.mem_of_mem_erase hMem)⟩, fun k hk => ?_⟩
    rcases hGained k hk with rfl | hOld
    · exact Nat.le_of_not_lt hGe
    · exact h.2 hOld

end Library.LowestFree
