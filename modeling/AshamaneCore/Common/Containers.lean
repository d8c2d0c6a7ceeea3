import Mathlib.Order.Lattice

/-!
# Containers

Intersection of sorted containers: the merge walks over both and asks the predicate
about each pair of elements of equal keys that it meets. Random elements: what the
random number comes out as is given.
-/

namespace AshamaneCore.Containers

universe u v

section Meets

variable {κ : Type u} {α : Type v} (key : α → κ)

/-- The containers share a key at which the predicate accepts their elements. -/
def Meets (first second : List α) (equalPred : α → α → Bool) : Prop :=
  ∃ a ∈ first, ∃ b ∈ second, key a = key b ∧ equalPred a b = true

variable {key} {a b : α} {first second : List α} {equalPred : α → α → Bool}

theorem meets_cons_left (h : ∀ b ∈ second, key a = key b → equalPred a b = false) :
    Meets key (a :: first) second equalPred ↔ Meets key first second equalPred := by
  constructor
  · rintro ⟨a', ha', b, hb, hEq, hPred⟩
    rcases List.mem_cons.mp ha' with rfl | ha'
    · rw [h b hb hEq] at hPred
      cases hPred
    · exact ⟨a', ha', b, hb, hEq, hPred⟩
  · rintro ⟨a', ha', h⟩
    exact ⟨a', List.mem_cons_of_mem _ ha', h⟩

theorem meets_cons_right (h : ∀ a ∈ first, key a = key b → equalPred a b = false) :
    Meets key first (b :: second) equalPred ↔ Meets key first second equalPred := by
  constructor
  · rintro ⟨a, ha, b', hb', hEq, hPred⟩
    rcases List.mem_cons.mp hb' with rfl | hb'
    · rw [h a ha hEq] at hPred
      cases hPred
    · exact ⟨a, ha, b', hb', hEq, hPred⟩
  · rintro ⟨a, ha, b', hb', h⟩
    exact ⟨a, ha, b', List.mem_cons_of_mem _ hb', h⟩

end Meets

variable {κ : Type u} [LinearOrder κ] {α : Type v} (key : α → κ)

def intersects (first second : List α) (equalPred : α → α → Bool) : Bool :=
  match first, second with
  | a :: first, b :: second =>
    if key a < key b then intersects first (b :: second) equalPred
    else if key b < key a then intersects (a :: first) second equalPred
    else if !equalPred a b then intersects first second equalPred
    else true
  | _, _ => false
termination_by first.length + second.length

variable {key}

theorem lt_of_sorted {a b : α} {second : List α} (h : key a < key b)
    (hSorted : (b :: second).Pairwise fun a b => key a < key b) :
    ∀ x ∈ b :: second, key a < key x := by
  intro x hx
  rcases List.mem_cons.mp hx with rfl | hx
  · exact h
  · exact lt_trans h (List.rel_of_pairwise_cons hSorted hx)

theorem intersects_iff {first second : List α} {equalPred : α → α → Bool}
    (hFirst : first.Pairwise fun a b => key a < key b)
    (hSecond : second.Pairwise fun a b => key a < key b) :
    intersects key first second equalPred = true ↔ Meets key first second equalPred := by
  fun_induction intersects key first second equalPred with
  | case1 a first b second hLess ih =>
    have hBefore := lt_of_sorted hLess hSecond
    rw [ih hFirst.of_cons hSecond, meets_cons_left]
    exact fun x hx hEq => absurd hEq (ne_of_lt (hBefore x hx))
  | case2 a first b second hNotLess hGreater ih =>
    have hBefore := lt_of_sorted hGreater hFirst
    rw [ih hFirst hSecond.of_cons, meets_cons_right]
    exact fun x hx hEq => absurd hEq.symm (ne_of_lt (hBefore x hx))
  | case3 a first b second hNotLess hNotGreater hPred ih =>
    have hKey : key a = key b := le_antisymm (not_lt.mp hNotGreater) (not_lt.mp hNotLess)
    rw [ih hFirst.of_cons hSecond.of_cons, meets_cons_left, meets_cons_right]
    · intro x hx hEq
      exact absurd (hKey.trans hEq.symm) (ne_of_lt (List.rel_of_pairwise_cons hFirst hx))
    · intro x hx hEq
      rcases List.mem_cons.mp hx with rfl | hx
      · simpa using hPred
      · exact absurd (hKey.symm.trans hEq) (ne_of_lt (List.rel_of_pairwise_cons hSecond hx))
  | case4 a first b second hNotLess hNotGreater hPred =>
    have hKey : key a = key b := le_antisymm (not_lt.mp hNotGreater) (not_lt.mp hNotLess)
    have hHolds : equalPred a b = true := by simpa using hPred
    exact iff_of_true rfl ⟨a, List.mem_cons_self, b, List.mem_cons_self, hKey, hHolds⟩
  | case5 first second hShort =>
    refine iff_of_false Bool.false_ne_true ?_
    rintro ⟨a, ha, b, hb, -⟩
    cases first with
    | nil => cases ha
    | cons =>
      cases second with
      | nil => cases hb
      | cons => exact hShort _ _ _ _ rfl rfl

section Random

variable {container : List α} {a : α}

def selectRandomContainerElement (container : List α) (index : Nat) : Option α :=
  container[index % container.length]?

theorem mem_of_selected {index : Nat} (h : selectRandomContainerElement container index = some a) :
    a ∈ container :=
  List.mem_of_getElem? h

theorem exists_selected (h : container ≠ []) (index : Nat) :
    ∃ a, selectRandomContainerElement container index = some a :=
  ⟨_, List.getElem?_eq_getElem (Nat.mod_lt _ (List.length_pos_iff.mpr h))⟩

theorem exists_index (h : a ∈ container) :
    ∃ index, selectRandomContainerElement container index = some a := by
  obtain ⟨index, hIndex, rfl⟩ := List.getElem_of_mem h
  refine ⟨index, ?_⟩
  rw [selectRandomContainerElement, Nat.mod_eq_of_lt hIndex, List.getElem?_eq_getElem hIndex]

end Random

end AshamaneCore.Containers
