import Mathlib.Data.List.Nodup
import Mathlib.Logic.Function.Basic

/-!
# Doubly linked chains

Elements point to a next and a previous one. A segment is a list of elements whose pointers
agree with their places, between two ends that lie outside of it.
-/

namespace Library.LinkedChains

universe u

variable {α : Type u}

structure Links (α : Type u) where
  next : α → Option α
  prev : α → Option α

namespace Links

def flip (links : Links α) : Links α := ⟨links.prev, links.next⟩

variable [DecidableEq α]

/-- The element is put between two others. -/
def join (links : Links α) (a x b : α) : Links α where
  next := Function.update (Function.update links.next x (some b)) a (some x)
  prev := Function.update (Function.update links.prev x (some a)) b (some x)

/-- The element is taken out from between two others. -/
def cut (links : Links α) (a x b : α) : Links α where
  next := Function.update (Function.update links.next a (some b)) x none
  prev := Function.update (Function.update links.prev b (some a)) x none

variable {links : Links α} {a x b n : α}

theorem join_next_of_ne (ha : n ≠ a) (hx : n ≠ x) : (links.join a x b).next n = links.next n :=
  (Function.update_of_ne ha _ _).trans (Function.update_of_ne hx _ _)

theorem join_prev_of_ne (hb : n ≠ b) (hx : n ≠ x) : (links.join a x b).prev n = links.prev n :=
  (Function.update_of_ne hb _ _).trans (Function.update_of_ne hx _ _)

theorem cut_next_of_ne (ha : n ≠ a) (hx : n ≠ x) : (links.cut a x b).next n = links.next n :=
  (Function.update_of_ne hx _ _).trans (Function.update_of_ne ha _ _)

theorem cut_prev_of_ne (hb : n ≠ b) (hx : n ≠ x) : (links.cut a x b).prev n = links.prev n :=
  (Function.update_of_ne hx _ _).trans (Function.update_of_ne hb _ _)

end Links

def Segment (links : Links α) : Option α → List α → Option α → Prop
  | _, [], _ => True
  | p, a :: l, q => links.prev a = p ∧ links.next a = l.head?.or q ∧ Segment links (some a) l q

namespace Segment

variable {links links' : Links α} {p p' q q' : Option α} {a x b z : α} {l m : List α}

theorem append_iff :
    Segment links p (l ++ m) q ↔ Segment links p l (m.head?.or q) ∧ Segment links (l.getLast?.or p) m q := by
  induction l generalizing p with
  | nil => exact (iff_of_eq (true_and _)).symm
  | cons a l ih =>
    rw [List.cons_append, Segment, Segment, ih, List.head?_append, Option.or_assoc, List.getLast?_cons, Option.some_or,
      Option.or_some, and_assoc, and_assoc]

theorem congr (hNext : ∀ n ∈ l, links'.next n = links.next n) (hPrev : ∀ n ∈ l, links'.prev n = links.prev n)
    (h : Segment links p l q) : Segment links' p l q := by
  induction l generalizing p with
  | nil => trivial
  | cons a l ih =>
    obtain ⟨hBefore, hAfter, hRest⟩ := h
    refine ⟨(hPrev a List.mem_cons_self).trans hBefore, (hNext a List.mem_cons_self).trans hAfter, ?_⟩
    exact ih (fun n hn => hNext n (List.mem_cons_of_mem a hn)) (fun n hn => hPrev n (List.mem_cons_of_mem a hn)) hRest

theorem neighbours (h : Segment links p (l ++ x :: m) q) :
    links.prev x = l.getLast?.or p ∧ links.next x = m.head?.or q :=
  ⟨(append_iff.mp h).2.1, (append_iff.mp h).2.2.1⟩

/-- Only the pointer out of the last element is set anew. -/
theorem setLast (hNext : ∀ n ∈ l, links'.next n = links.next n)
    (hPrev : ∀ n ∈ l ++ [a], links'.prev n = links.prev n) (ha : links'.next a = q')
    (h : Segment links p (l ++ [a]) q) : Segment links' p (l ++ [a]) q' := by
  obtain ⟨hFirst, hLast, -⟩ := append_iff.mp h
  refine append_iff.mpr ⟨hFirst.congr hNext fun n hn => hPrev n (List.mem_append_left _ hn), ?_, ha, trivial⟩
  exact (hPrev a (List.mem_append_right _ List.mem_cons_self)).trans hLast

/-- Only the pointer out of the first element is set anew. -/
theorem setHead (hNext : ∀ n ∈ b :: m, links'.next n = links.next n)
    (hPrev : ∀ n ∈ m, links'.prev n = links.prev n) (hb : links'.prev b = p')
    (h : Segment links p (b :: m) q) : Segment links' p' (b :: m) q :=
  ⟨hb, (hNext b List.mem_cons_self).trans h.2.1,
    h.2.2.congr (fun n hn => hNext n (List.mem_cons_of_mem b hn)) hPrev⟩

theorem reverse (h : Segment links p l q) : Segment links.flip q l.reverse p := by
  induction l generalizing p with
  | nil => trivial
  | cons a l ih =>
    obtain ⟨hBefore, hAfter, hRest⟩ := h
    rw [List.reverse_cons]
    refine append_iff.mpr ⟨ih hRest, ?_, hBefore, trivial⟩
    rw [List.getLast?_reverse]
    exact hAfter

variable [DecidableEq α]

/-- An element from outside that is put between two neighbours. -/
theorem join (hNodup : (l ++ a :: b :: m).Nodup) (hx : x ∉ l ++ a :: b :: m)
    (h : Segment links p (l ++ a :: b :: m) q) : Segment (links.join a x b) p (l ++ a :: x :: b :: m) q := by
  simp only [List.mem_append, List.mem_cons, not_or, List.nodup_append, List.nodup_cons] at hNodup hx
  obtain ⟨hxl, hxa, hxb, hxm⟩ := hx
  obtain ⟨-, ⟨⟨hab, ham⟩, hbm, -⟩, hDisjoint⟩ := hNodup
  rw [List.append_cons l a] at h ⊢
  obtain ⟨hFirst, hSecond⟩ := append_iff.mp h
  refine append_iff.mpr ⟨hFirst.setLast ?_ ?_ (Function.update_self ..), ?_, ?_, ?_⟩
  · intro n hn
    exact Links.join_next_of_ne (hDisjoint n hn a (.inl rfl)) (ne_of_mem_of_not_mem hn hxl)
  · intro n hn
    rcases List.mem_append.mp hn with hn | hn
    · exact Links.join_prev_of_ne (hDisjoint n hn b (.inr (.inl rfl))) (ne_of_mem_of_not_mem hn hxl)
    · rw [List.mem_singleton.mp hn]
      exact Links.join_prev_of_ne hab (Ne.symm hxa)
  · rw [List.getLast?_concat]
    exact (Function.update_of_ne hxb _ _).trans (Function.update_self ..)
  · exact (Function.update_of_ne hxa _ _).trans (Function.update_self ..)
  · refine hSecond.setHead (fun n hn => ?_) (fun n hn => ?_) (Function.update_self ..)
    · refine Links.join_next_of_ne ?_ ?_
      · rintro rfl
        exact (List.mem_cons.mp hn).elim hab ham
      · rintro rfl
        exact (List.mem_cons.mp hn).elim hxb hxm
    · exact Links.join_prev_of_ne (ne_of_mem_of_not_mem hn hbm) (ne_of_mem_of_not_mem hn hxm)

/-- An element that is taken out from between its neighbours. -/
theorem cut (hNodup : (l ++ a :: x :: b :: m).Nodup) (h : Segment links p (l ++ a :: x :: b :: m) q) :
    Segment (links.cut a x b) p (l ++ a :: b :: m) q := by
  simp only [List.mem_cons, not_or, List.nodup_append, List.nodup_cons] at hNodup
  obtain ⟨-, ⟨⟨hax, hab, ham⟩, ⟨hxb, hxm⟩, hbm, -⟩, hDisjoint⟩ := hNodup
  rw [List.append_cons l a] at h ⊢
  obtain ⟨hFirst, -, -, hSecond⟩ := append_iff.mp h
  refine append_iff.mpr ⟨hFirst.setLast ?_ ?_ ?_, hSecond.setHead (fun n hn => ?_) (fun n hn => ?_) ?_⟩
  · intro n hn
    exact Links.cut_next_of_ne (hDisjoint n hn a (.inl rfl)) (hDisjoint n hn x (.inr (.inl rfl)))
  · intro n hn
    rcases List.mem_append.mp hn with hn | hn
    · exact Links.cut_prev_of_ne (hDisjoint n hn b (.inr (.inr (.inl rfl)))) (hDisjoint n hn x (.inr (.inl rfl)))
    · rw [List.mem_singleton.mp hn]
      exact Links.cut_prev_of_ne hab hax
  · exact (Function.update_of_ne hax _ _).trans (Function.update_self ..)
  · refine Links.cut_next_of_ne ?_ ?_
    · rintro rfl
      exact (List.mem_cons.mp hn).elim hab ham
    · rintro rfl
      exact (List.mem_cons.mp hn).elim hxb hxm
  · exact Links.cut_prev_of_ne (ne_of_mem_of_not_mem hn hbm) (ne_of_mem_of_not_mem hn hxm)
  · rw [List.getLast?_concat]
    exact (Function.update_of_ne (Ne.symm hxb) _ _).trans (Function.update_self ..)

end Segment

/-! ## Walks -/

/-- The elements on the way along a pointer. None is a way that is too long. -/
def walk (step : α → Option α) : Nat → Option α → Option (List α)
  | _, none => some []
  | 0, some _ => none
  | fuel + 1, some a => (walk step fuel (step a)).map (a :: ·)

/-- A step that stops before the element that points nowhere. -/
theorem walk_segment {links : Links α} {step : α → Option α}
    (hStep : ∀ n, step n = if ((links.next n).bind links.next).isSome then links.next n else none)
    {l : List α} {z : α} {p : Option α} {fuel : Nat} (hFuel : l.length ≤ fuel)
    (h : Segment links p (l ++ [z]) none) : walk step fuel l.head? = some l := by
  induction l generalizing p fuel with
  | nil => rw [List.head?_nil, walk]
  | cons a l ih =>
    obtain ⟨-, hNext, hRest⟩ := h
    obtain ⟨fuel, rfl⟩ := Nat.exists_eq_add_of_le' hFuel
    rw [List.head?_cons, List.length_cons, ← Nat.add_assoc, walk]
    have hOn : step a = l.head? := by
      rw [hStep, hNext]
      cases l with
      | nil =>
        have hEnd : links.next z = none := hRest.2.1
        change (if (links.next z).isSome then some z else none) = none
        rw [hEnd]
        rfl
      | cons b l =>
        have hAfter : links.next b = (l ++ [z]).head?.or none := hRest.2.1
        change (if (links.next b).isSome then some b else none) = some b
        rw [hAfter]
        cases l <;> rfl
    rw [hOn, ih (by rw [List.length_cons] at hFuel; omega) hRest, Option.map_some]

end Library.LinkedChains
