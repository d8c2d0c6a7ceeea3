import Mathlib.Data.Set.Card

/-!
# Tickets

Tickets are offered and then taken one at a time. A counter of those that are
left may have counted some tickets more than once when they were offered; taking
a ticket that is left keeps what it has in excess.
-/

namespace Library

variable {τ : Type*}

/-- What was offered, what of it is left, what was taken in order, and a counter with its excess. -/
structure Tickets (offered left : Set τ) (taken : List τ) (excess counter : Nat) : Prop where
  offer : left ⊆ offered
  nodup : taken.Nodup
  gone : ∀ t ∈ taken, t ∈ offered ∧ t ∉ left
  finite : left.Finite
  counts : left.ncard + excess = counter

namespace Tickets

variable {offered left : Set τ} {taken : List τ} {excess counter : Nat}

theorem empty : Tickets (∅ : Set τ) ∅ [] 0 0 where
  offer := Set.Subset.rfl
  nodup := List.nodup_nil
  gone _ h := (List.not_mem_nil h).elim
  finite := Set.finite_empty
  counts := by rw [Set.ncard_empty]

theorem counter_pos (h : Tickets offered left taken excess counter) {t : τ} (ht : t ∈ left) : 0 < counter := by
  have hPos := (Set.ncard_pos h.finite).mpr ⟨t, ht⟩
  have hCounts := h.counts
  omega

theorem take (h : Tickets offered left taken excess counter) {t : τ} (ht : t ∈ left) :
    Tickets offered (left \ {t}) (taken ++ [t]) excess (counter - 1) where
  offer := Set.sdiff_subset.trans h.offer
  nodup := by
    refine List.nodup_append.mpr ⟨h.nodup, List.nodup_singleton t, ?_⟩
    rintro a ha b hb rfl
    exact (h.gone a ha).2 (List.mem_singleton.mp hb ▸ ht)
  gone a ha := by
    rcases List.mem_append.mp ha with hOld | hNew
    · exact ⟨(h.gone a hOld).1, fun hLeft => (h.gone a hOld).2 hLeft.1⟩
    · obtain rfl := List.mem_singleton.mp hNew
      exact ⟨h.offer ht, fun hLeft => hLeft.2 rfl⟩
  finite := h.finite.sdiff
  counts := by
    have hCounts := h.counts
    have hPos := (Set.ncard_pos h.finite).mpr ⟨t, ht⟩
    rw [Set.ncard_sdiff_singleton_of_mem ht]
    omega

theorem offerNew (h : Tickets offered left taken excess counter) {new : Finset τ} (hNew : ∀ t ∈ new, t ∉ offered)
    (more : Nat) :
    Tickets (offered ∪ new) (left ∪ new) taken (excess + more) (counter + (new.card + more)) where
  offer := Set.union_subset_union_left _ h.offer
  nodup := h.nodup
  gone t ht := by
    obtain ⟨hOffered, hGone⟩ := h.gone t ht
    refine ⟨Or.inl hOffered, ?_⟩
    rintro (hLeft | hIn)
    · exact hGone hLeft
    · exact hNew t hIn hOffered
  finite := h.finite.union new.finite_toSet
  counts := by
    have hDisjoint : Disjoint left (new : Set τ) :=
      Set.disjoint_left.mpr fun t hLeft hIn => hNew t hIn (h.offer hLeft)
    rw [Set.ncard_union_eq hDisjoint h.finite new.finite_toSet, Set.ncard_coe_finset, ← h.counts]
    omega

theorem left_empty_iff (h : Tickets offered left taken 0 counter) : left = ∅ ↔ counter = 0 := by
  rw [← Set.ncard_eq_zero h.finite, ← h.counts, Nat.add_zero]

end Tickets

end Library
