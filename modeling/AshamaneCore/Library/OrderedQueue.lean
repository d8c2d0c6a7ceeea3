import Mathlib.Data.List.Sort

/-!
# Queues ordered by a key, first in first out among equal keys

Insertion goes behind every element whose key is not greater, at the upper bound
of the equal range. The relation Before refines the key order by any relation that
new elements satisfy against old ones, such as insertion order among equal keys.
-/

namespace Library.OrderedQueue

universe u v

variable {κ : Type u} [LinearOrder κ] {α : Type v} (key : α → κ)

def insertUpper (x : α) (queue : List α) : List α :=
  queue.orderedInsert (fun a b => key a < key b) x

def insertAll (queue : List α) (xs : List α) : List α :=
  xs.foldl (fun q x => insertUpper key x q) queue

def Before (S : α → α → Prop) (a b : α) : Prop :=
  key a < key b ∨ key a = key b ∧ S a b

abbrev Ordered (queue : List α) : Prop := queue.Pairwise (fun a b => key a ≤ key b)

variable {key}

variable {a x : α} {queue : List α}

@[simp] theorem mem_insertUpper :
    a ∈ insertUpper key x queue ↔ a = x ∨ a ∈ queue := List.mem_orderedInsert _

theorem insertUpper_perm (x : α) (queue : List α) :
    (insertUpper key x queue).Perm (x :: queue) := List.perm_orderedInsert _ _ _

theorem insertUpper_filter_of_not {p : α → Bool} (h : p x = false) (queue : List α) :
    (insertUpper key x queue).filter p = queue.filter p := by
  induction queue with
  | nil => simp [insertUpper, h]
  | cons y queue ih =>
    rw [insertUpper, List.orderedInsert_cons]
    split
    · rw [List.filter_cons_of_neg (by simp [h])]
    · rw [List.filter_cons, List.filter_cons]
      rw [insertUpper] at ih
      rw [ih]

theorem insertUpper_filter_of_none {p : α → Bool} (h : p x = true)
    (hNone : queue.filter p = []) : (insertUpper key x queue).filter p = [x] := by
  have hPerm : ((insertUpper key x queue).filter p).Perm ((x :: queue).filter p) :=
    (insertUpper_perm x queue).filter p
  rw [List.filter_cons_of_pos h, hNone] at hPerm
  exact List.perm_singleton.mp hPerm

theorem insertAll_perm (queue xs : List α) : (insertAll key queue xs).Perm (queue ++ xs) := by
  induction xs generalizing queue with
  | nil => simp [insertAll]
  | cons x xs ih =>
    have hTail := (ih (insertUpper key x queue)).trans ((insertUpper_perm x queue).append_right xs)
    exact hTail.trans List.perm_middle.symm

variable {S : α → α → Prop}

@[simp] theorem mem_insertAll {xs : List α} :
    a ∈ insertAll key queue xs ↔ a ∈ queue ∨ a ∈ xs := by
  rw [(insertAll_perm queue xs).mem_iff, List.mem_append]

theorem Before.key_le {b : α} (h : Before key S a b) : key a ≤ key b := by
  rcases h with h | ⟨h, _⟩
  · exact h.le
  · exact h.le

theorem insertUpper_before (hQueue : queue.Pairwise (Before key S)) (hNew : ∀ a ∈ queue, key a = key x → S a x) :
    (insertUpper key x queue).Pairwise (Before key S) := by
  induction queue with
  | nil => simp [insertUpper]
  | cons y queue ih =>
    obtain ⟨hHead, hTail⟩ := List.pairwise_cons.mp hQueue
    rw [insertUpper, List.orderedInsert_cons]
    split
    · rename_i hLt
      refine List.pairwise_cons.mpr ⟨?_, hQueue⟩
      intro a ha
      rcases List.mem_cons.mp ha with rfl | ha
      · exact Or.inl hLt
      · exact Or.inl (hLt.trans_le (hHead a ha).key_le)
    · rename_i hNotLt
      refine List.pairwise_cons.mpr ⟨?_, ih hTail (fun a ha => hNew a (List.mem_cons_of_mem _ ha))⟩
      intro a ha
      rcases mem_insertUpper.mp ha with rfl | ha
      · rcases (not_lt.mp hNotLt).lt_or_eq with h | h
        · exact Or.inl h
        · exact Or.inr ⟨h, hNew y List.mem_cons_self h⟩
      · exact hHead a ha

theorem insertAll_before {xs : List α}
    (hQueue : queue.Pairwise (Before key S))
    (hXs : xs.Pairwise fun a b => key a = key b → S a b)
    (hNew : ∀ a ∈ queue, ∀ x ∈ xs, key a = key x → S a x) :
    (insertAll key queue xs).Pairwise (Before key S) := by
  induction xs generalizing queue with
  | nil => exact hQueue
  | cons x xs ih =>
    obtain ⟨hFirst, hRest⟩ := List.pairwise_cons.mp hXs
    apply ih (insertUpper_before hQueue fun a ha => hNew a ha x List.mem_cons_self) hRest
    intro a ha y hy
    rcases mem_insertUpper.mp ha with rfl | ha
    · exact hFirst y hy
    · exact hNew a ha y (List.mem_cons_of_mem _ hy)

theorem ordered_iff_before :
    Ordered key queue ↔ queue.Pairwise (Before key fun _ _ => True) := by
  have h : (Before key fun _ _ => True) = fun a b => key a ≤ key b := by
    funext a b
    simp [Before, le_iff_lt_or_eq]
  rw [h]

theorem insertUpper_ordered (h : Ordered key queue) :
    Ordered key (insertUpper key x queue) :=
  ordered_iff_before.mpr (insertUpper_before (ordered_iff_before.mp h) (fun _ _ _ => trivial))

theorem insertAll_ordered (h : Ordered key queue) (xs : List α) :
    Ordered key (insertAll key queue xs) := by
  induction xs generalizing queue with
  | nil => exact h
  | cons x xs ih => exact ih (insertUpper_ordered h)

/-- After an insertion the front is still the old one unless the new element is smaller. -/
theorem tail_insertUpper (x y : α) (queue : List α) :
    (insertUpper key x (y :: queue)).tail = if key x < key y then y :: queue else insertUpper key x queue := by
  rw [insertUpper, List.orderedInsert_cons]
  split <;> rfl

/-! ## Erasing the first element of a kind -/

section Erasure

variable {p q : α → Bool}

theorem filter_eraseP_of_disjoint (h : ∀ a, p a = true → q a = false) (queue : List α) :
    (queue.eraseP p).filter q = queue.filter q := by
  induction queue with
  | nil => rfl
  | cons a queue ih =>
    rw [List.eraseP_cons]
    cases hp : p a with
    | true => rw [cond_true, List.filter_cons_of_neg (by simp [h a hp])]
    | false => rw [cond_false, List.filter_cons, List.filter_cons, ih]

theorem filter_eraseP_of_imp (h : ∀ a, p a = true → q a = true) (queue : List α) :
    (queue.eraseP p).filter q = (queue.filter q).eraseP p := by
  induction queue with
  | nil => rfl
  | cons a queue ih =>
    rw [List.eraseP_cons]
    cases hp : p a with
    | true => rw [cond_true, List.filter_cons_of_pos (h a hp), List.eraseP_cons_of_pos hp]
    | false =>
      rw [cond_false, List.filter_cons, List.filter_cons, ih]
      split
      · rw [List.eraseP_cons_of_neg (by simp [hp])]
      · rfl

end Erasure

end Library.OrderedQueue
