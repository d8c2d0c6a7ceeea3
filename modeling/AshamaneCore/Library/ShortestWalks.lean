import Mathlib.Data.List.Nodup
import Mathlib.Data.List.Perm.Subperm
import Mathlib.Data.List.Range
import Mathlib.Logic.Function.Iterate
import Mathlib.Order.Basic

/-!
# Shortest walks and their predecessors

A walk over weighted edges has a list of vertices and a cost. A map of
predecessors on shortest walks leads back from every vertex that is reached,
over a shortest walk, and stays where it is at the others.
-/

namespace Library.ShortestWalks

universe u v

variable {V : Type u} {V' : Type v} {edge : V → V → Nat → Prop} {s x y : V} {route : List V} {c w : Nat}

/-- A walk from a vertex, with its vertices, its end and its cost. -/
inductive Walk (edge : V → V → Nat → Prop) (s : V) : List V → V → Nat → Prop
  | here : Walk edge s [s] s 0
  | step {route : List V} {x y : V} {c w : Nat} (h : Walk edge s route x c) (hEdge : edge x y w) :
    Walk edge s (route ++ [y]) y (c + w)

def Reaches (edge : V → V → Nat → Prop) (s x : V) : Prop := ∃ route c, Walk edge s route x c

structure Least (edge : V → V → Nat → Prop) (s x : V) (c : Nat) : Prop where
  attained : ∃ route, Walk edge s route x c
  le : ∀ route d, Walk edge s route x d → c ≤ d

namespace Walk

theorem head_eq (h : Walk edge s route x c) : route.head? = some s := by
  induction h with
  | here => rfl
  | step h _ ih => rw [List.head?_append, ih, Option.some_or]

theorem last_eq (h : Walk edge s route x c) : route.getLast? = some x := by
  cases h with
  | here => rfl
  | step _ _ => rw [List.getLast?_concat]

/-- A walk whose vertices are next to each other in a relation that the edges have. -/
theorem isChain {R : V → V → Prop} (hEdges : ∀ x y w, edge x y w → R x y) (h : Walk edge s route x c) :
    route.IsChain R := by
  induction h with
  | here => exact List.isChain_singleton _
  | step h hEdge ih =>
    refine List.isChain_append.mpr ⟨ih, List.isChain_singleton _, fun a ha b hb => ?_⟩
    rw [h.last_eq] at ha
    cases ha
    cases hb
    exact hEdges _ _ _ hEdge

theorem forall_mem {P : V → Prop} (hStart : P s) (hEdges : ∀ x y w, edge x y w → P y)
    (h : Walk edge s route x c) : ∀ y ∈ route, P y := by
  induction h with
  | here => exact List.forall_mem_singleton.mpr hStart
  | step h hEdge ih =>
    intro y hy
    rcases List.mem_append.mp hy with hy | hy
    · exact ih y hy
    · rw [List.mem_singleton.mp hy]
      exact hEdges _ _ _ hEdge

theorem eq_start (hNone : ∀ y w, ¬ edge s y w) (h : Walk edge s route x c) : route = [s] ∧ x = s := by
  induction h with
  | here => exact ⟨rfl, rfl⟩
  | step h hEdge ih =>
    rw [ih.2] at hEdge
    exact absurd hEdge (hNone _ _)

theorem exists_prefix (h : Walk edge s route x c) : ∀ y ∈ route, ∃ first d, first <+: route ∧ d ≤ c ∧
    Walk edge s first y d := by
  induction h with
  | here =>
    intro y hy
    rw [List.mem_singleton.mp hy]
    exact ⟨[s], 0, List.prefix_refl _, Nat.le_refl 0, here⟩
  | @step route x z c w h hEdge ih =>
    intro y hy
    rcases List.mem_append.mp hy with hy | hy
    · obtain ⟨first, d, hFirst, hd, hWalk⟩ := ih y hy
      exact ⟨first, d, hFirst.trans (List.prefix_append _ _), hd.trans (Nat.le_add_right c w), hWalk⟩
    · rw [List.mem_singleton.mp hy]
      exact ⟨_, _, List.prefix_refl _, Nat.le_refl _, step h hEdge⟩

theorem exists_nodup (h : Walk edge s route x c) : ∃ simple d, d ≤ c ∧ simple.Nodup ∧ Walk edge s simple x d := by
  induction h with
  | here => exact ⟨[s], 0, Nat.le_refl 0, List.nodup_singleton s, here⟩
  | @step route x y c w h hEdge ih =>
    obtain ⟨simple, d, hd, hNodup, hWalk⟩ := ih
    by_cases hy : y ∈ simple
    · obtain ⟨first, b, hFirst, hb, hShort⟩ := hWalk.exists_prefix y hy
      exact ⟨first, b, by omega, hNodup.sublist hFirst.sublist, hShort⟩
    · refine ⟨simple ++ [y], d + w, by omega, ?_, step hWalk hEdge⟩
      exact List.nodup_append.mpr ⟨hNodup, List.nodup_singleton y, fun a ha b hb => by
        rw [List.mem_singleton.mp hb]
        rintro rfl
        exact hy ha⟩

theorem cost_le {most : Nat} (hMost : ∀ x y w, edge x y w → w ≤ most) (h : Walk edge s route x c) :
    c + most ≤ route.length * most := by
  induction h with
  | here => simp
  | @step route x y c w h hEdge ih =>
    have hw := hMost x y w hEdge
    rw [List.length_append, List.length_singleton, Nat.add_mul, Nat.one_mul]
    omega

/-- A map of the vertices that carries edges to edges carries walks to walks. -/
theorem map {edge' : V' → V' → Nat → Prop} (f : V → V') (hEdges : ∀ x y w, edge x y w → edge' (f x) (f y) w)
    (h : Walk edge s route x c) : Walk edge' (f s) (route.map f) (f x) c := by
  induction h with
  | here => exact here
  | step h hEdge ih =>
    rw [List.map_append]
    exact step ih (hEdges _ _ _ hEdge)

/-- A walk is lifted along such a map where every edge can be lifted from where the walk stands. -/
theorem lift {edge' : V' → V' → Nat → Prop} (f : V → V') {P : V → Prop} (hStart : P s)
    (hLift : ∀ x y' w, P x → edge' (f x) y' w → ∃ y, P y ∧ f y = y' ∧ edge x y w)
    {route' : List V'} {x' : V'} (h : Walk edge' (f s) route' x' c) :
    ∃ route x, P x ∧ f x = x' ∧ route.map f = route' ∧ Walk edge s route x c := by
  induction h with
  | here => exact ⟨[s], s, hStart, rfl, rfl, here⟩
  | step h hEdge ih =>
    obtain ⟨route, x, hx, rfl, rfl, hWalk⟩ := ih
    obtain ⟨y, hy, rfl, hStep⟩ := hLift x _ _ hx hEdge
    exact ⟨route ++ [y], y, hy, rfl, by rw [List.map_append]; rfl, step hWalk hStep⟩

end Walk

theorem Reaches.exists_least (h : Reaches edge s x) : ∃ c, Least edge s x c := by
  obtain ⟨route, c, hWalk⟩ := h
  induction c using Nat.strong_induction_on generalizing route with
  | h c ih =>
    by_cases hSmaller : ∃ route d, d < c ∧ Walk edge s route x d
    · obtain ⟨other, d, hd, hOther⟩ := hSmaller
      exact ih d hd other hOther
    · refine ⟨c, ⟨route, hWalk⟩, fun other d hOther => ?_⟩
      by_contra hd
      exact hSmaller ⟨other, d, Nat.lt_of_not_le hd, hOther⟩

theorem Least.reaches (h : Least edge s x c) : Reaches edge s x := h.attained.imp fun _ hWalk => ⟨c, hWalk⟩

/-- Among finitely many vertices no shortest walk costs more than all vertices together. -/
theorem Least.le_of_bounded {edge : Nat → Nat → Nat → Prop} {s x n most : Nat} (h : Least edge s x c) (hs : s < n)
    (hEnds : ∀ x y w, edge x y w → y < n) (hMost : ∀ x y w, edge x y w → w ≤ most) : c + most ≤ n * most := by
  obtain ⟨route, hWalk⟩ := h.attained
  obtain ⟨simple, d, hd, hNodup, hSimple⟩ := hWalk.exists_nodup
  have hLength : simple.length ≤ n := by
    have hRange : simple ⊆ List.range n :=
      fun y hy => List.mem_range.mpr (hSimple.forall_mem (P := (· < n)) hs hEnds y hy)
    simpa using (List.subperm_of_subset hNodup hRange).length_le
  calc
    c + most ≤ d + most := Nat.add_le_add_right (h.le _ _ hSimple) most
    _ ≤ simple.length * most := hSimple.cost_le hMost
    _ ≤ n * most := Nat.mul_le_mul_right most hLength

/-- The predecessors on shortest walks, below a bound of the vertices. -/
structure IsTree (edge : Nat → Nat → Nat → Prop) (n s : Nat) (p : Nat → Nat) : Prop where
  start : p s = s
  parent : ∀ x c, Least edge s x c → x ≠ s → ∃ b w, Least edge s (p x) b ∧ edge (p x) x w ∧ c = b + w
  rooted : ∀ x, Reaches edge s x → ∃ k, p^[k] x = s
  unreached : ∀ x, x < n → ¬ Reaches edge s x → p x = x

/-- The vertices from one up to the start, as the predecessors lead. -/
inductive Back (p : Nat → Nat) : Nat → List Nat → Prop
  | root {x : Nat} (h : p x = x) : Back p x [x]
  | up {x : Nat} {rest : List Nat} (hNe : p x ≠ x) (h : Back p (p x) rest) : Back p x (x :: rest)

theorem IsTree.exists_back {edge : Nat → Nat → Nat → Prop} {n s x : Nat} {p : Nat → Nat} (hTree : IsTree edge n s p)
    (h : Least edge s x c) : ∃ way, Back p x way ∧ Walk edge s way.reverse x c := by
  obtain ⟨k, hk⟩ := hTree.rooted x h.reaches
  have hStart : ∀ d, Least edge s s d → ∃ way, Back p s way ∧ Walk edge s way.reverse s d := by
    intro d hLeast
    have hZero : d = 0 := Nat.le_zero.mp (hLeast.le _ _ Walk.here)
    rw [hZero]
    exact ⟨[s], .root hTree.start, Walk.here⟩
  induction k generalizing x c with
  | zero =>
    have hx : x = s := hk
    rw [hx] at h ⊢
    exact hStart c h
  | succ k ih =>
    by_cases hs : x = s
    · rw [hs] at h ⊢
      exact hStart c h
    · obtain ⟨b, w, hParent, hEdge, rfl⟩ := hTree.parent x c h hs
      obtain ⟨way, hBack, hWalk⟩ := ih hParent hk
      have hNe : p x ≠ x := by
        intro hSelf
        rw [Function.iterate_fixed hSelf] at hk
        exact hs hk
      refine ⟨x :: way, .up hNe hBack, ?_⟩
      rw [List.reverse_cons]
      exact hWalk.step hEdge

end Library.ShortestWalks
