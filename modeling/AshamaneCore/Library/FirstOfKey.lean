import Mathlib.Data.List.Nodup

/-!
# Removing members by their keys

A snapshot of some members of a list is walked, and each of them is removed by
its key: the first entry with that key goes, whichever it is. A member that is
gone when it is reached ends the walk.
-/

namespace Library.FirstOfKey

universe u v

variable {α : Type u} {κ : Type v} [DecidableEq α] [DecidableEq κ] (key : α → κ) (live : κ → Bool)

def remove (l : List α) (k : κ) : List α :=
  if live k = true then l.eraseP fun a => key a = k else l

def walk : List α → List α → Option (List α)
  | [], l => some l
  | a :: rest, l => if a ∈ l then walk rest (remove key live l (key a)) else none

variable {key live}

variable {a : α} {l t : List α}

theorem walk_cons {rest : List α} (h : walk key live (a :: rest) l = some t) :
    a ∈ l ∧ walk key live rest (remove key live l (key a)) = some t := by
  rw [walk] at h
  split at h
  · rename_i hMem
    exact ⟨hMem, h⟩
  · cases h

omit [DecidableEq α] in
theorem remove_sublist (l : List α) (k : κ) : (remove key live l k).Sublist l := by
  rw [remove]
  split
  · exact List.eraseP_sublist
  · exact List.Sublist.refl l

omit [DecidableEq α] in
theorem remove_suffix (l : List α) (k k' : κ) :
    (remove key live l k).filter (key · = k') <:+ l.filter (key · = k') := by
  rw [remove]
  split
  · rcases List.exists_or_eq_self_of_eraseP (fun a => decide (key a = k)) l with
      hSame | ⟨a, before, behind, hBefore, hKey, hSplit, hLeft⟩
    · exact ⟨[], by rw [List.nil_append, hSame]⟩
    · rw [hLeft, hSplit, List.filter_append, List.filter_append]
      rcases eq_or_ne k' k with rfl | hNe
      · have hNone : before.filter (key · = k') = [] := List.filter_eq_nil_iff.mpr hBefore
        rw [hNone, List.nil_append, List.nil_append]
        exact (List.suffix_cons a behind).filter _
      · have hOther : ¬ decide (key a = k') = true := by
          rw [of_decide_eq_true hKey, decide_eq_true_eq]
          exact hNe.symm
        have hBehind : (a :: behind).filter (key · = k') = behind.filter (key · = k') := List.filter_cons_of_neg hOther
        exact ⟨[], by rw [List.nil_append, hBehind]⟩
  · exact List.suffix_refl _

variable {snapshot : List α}

theorem walk_suffix (h : walk key live snapshot l = some t) (k : κ) :
    t.filter (key · = k) <:+ l.filter (key · = k) := by
  induction snapshot generalizing l with
  | nil =>
    obtain rfl := Option.some.inj h
    exact List.suffix_refl _
  | cons a rest ih => exact (ih (walk_cons h).2).trans (remove_suffix l (key a) k)

theorem walk_sublist (h : walk key live snapshot l = some t) : t.Sublist l := by
  induction snapshot generalizing l with
  | nil =>
    obtain rfl := Option.some.inj h
    exact List.Sublist.refl l
  | cons a rest ih => exact (ih (walk_cons h).2).trans (remove_sublist l (key a))

theorem mem_walk_of_dead (h : walk key live snapshot l = some t) (ha : a ∈ l)
    (hDead : live (key a) = false) : a ∈ t := by
  induction snapshot generalizing l with
  | nil =>
    obtain rfl := Option.some.inj h
    exact ha
  | cons b rest ih =>
    refine ih (walk_cons h).2 ?_
    rw [remove]
    split
    · rename_i hLive
      refine (List.mem_eraseP_of_neg ?_).mpr ha
      rw [decide_eq_true_eq]
      intro hKey
      rw [← hKey, hDead] at hLive
      exact Bool.false_ne_true hLive
    · exact ha

theorem mem_walk_of_behind (hNodup : l.Nodup) (h : walk key live snapshot l = some t) {b : α}
    (hOrder : [a, b].Sublist l) (hKey : key a = key b) (ha : a ∈ t) : b ∈ t := by
  obtain ⟨gone, hGone⟩ := walk_suffix h (key b)
  have hNodupClass := (hNodup.filter fun c => decide (key c = key b))
  have hOrderClass : [a, b].Sublist (l.filter (key · = key b)) := by
    have hFilter := hOrder.filter fun c => decide (key c = key b)
    rwa [List.filter_cons_of_pos (by simpa using hKey), List.filter_cons_of_pos (by simp), List.filter_nil] at hFilter
  rw [← hGone] at hNodupClass hOrderClass
  have haClass : a ∈ t.filter (key · = key b) := List.mem_filter.mpr ⟨ha, by simpa using hKey⟩
  obtain ⟨l₁, l₂, hSplit, h₁, h₂⟩ := List.sublist_append_iff.mp hOrderClass
  cases l₁ with
  | nil =>
    have hBehind : b ∈ l₂ := by
      rw [← List.nil_append l₂, ← hSplit]
      exact List.mem_cons_of_mem _ List.mem_cons_self
    exact List.mem_of_mem_filter (h₂.subset hBehind)
  | cons c l₁ =>
    have hFront : a ∈ gone := by
      obtain rfl := (List.cons.inj hSplit).1
      exact h₁.subset List.mem_cons_self
    exact absurd rfl ((List.nodup_append.mp hNodupClass).2.2 a hFront a haClass)

variable {mine : α → Bool}

/-- The members that come behind no stranger with their key are the ones that go. -/
theorem walk_eq {before rest : List α} (hNodup : (before ++ rest).Nodup)
    (hFirst : ∀ a b, [a, b].Sublist (before ++ rest) → key a = key b → live (key b) = true → mine b = true →
      mine a = true) :
    walk key live (rest.filter mine) (before.filter (fun a => !(mine a && live (key a))) ++ rest) =
      some ((before ++ rest).filter fun a => !(mine a && live (key a))) := by
  induction rest generalizing before with
  | nil => rw [List.filter_nil, walk, List.append_nil, List.append_nil]
  | cons b rest ih =>
    have hShift : before ++ b :: rest = before ++ [b] ++ rest := List.append_cons before b rest
    have hNext := ih (hShift ▸ hNodup) (hShift ▸ hFirst)
    rw [← hShift, List.filter_append] at hNext
    cases hMine : mine b with
    | false =>
      rw [List.filter_cons_of_neg (by simp [hMine])]
      rw [List.filter_cons_of_pos (by simp [hMine]), List.filter_nil, ← List.append_cons] at hNext
      exact hNext
    | true =>
      rw [List.filter_cons_of_pos hMine, walk, if_pos (List.mem_append_right _ List.mem_cons_self), remove]
      cases hLive : live (key b) with
      | false =>
        rw [if_neg Bool.false_ne_true]
        rw [List.filter_cons_of_pos (by simp [hLive]), List.filter_nil, ← List.append_cons] at hNext
        exact hNext
      | true =>
        rw [List.filter_cons_of_neg (by simp [hMine, hLive]), List.filter_nil, List.append_nil] at hNext
        rw [if_pos rfl, List.eraseP_append_right, List.eraseP_cons_of_pos (by simp)]
        · exact hNext
        · intro a ha
          obtain ⟨haMem, haStays⟩ := List.mem_filter.mp ha
          rw [decide_eq_true_eq]
          intro hKey
          have hOrder : [a, b].Sublist (before ++ b :: rest) :=
            (List.singleton_sublist.mpr haMem).append (List.singleton_sublist.mpr List.mem_cons_self)
          rw [hFirst a b hOrder hKey hLive hMine, hKey, hLive] at haStays
          exact Bool.false_ne_true haStays

/-- The wanted members of the snapshot go, and no stranger does, when none of them
has a dead key or comes behind a stranger with its key. -/
theorem walk_iff (key : α → κ) (live : κ → Bool) (mine wanted : α → Bool)
    (hNodup : l.Nodup) (hWanted : ∀ a ∈ l, live (key a) = true → wanted a = true) :
    (∃ t, walk key live (l.filter mine) l = some t ∧ (∀ a ∈ t, mine a = true → wanted a = false) ∧
      ∀ a ∈ l, mine a = false → a ∈ t) ↔
    (∀ a ∈ l, mine a = true → wanted a = true → live (key a) = true) ∧
      ∀ a b, [a, b].Sublist l → key a = key b → live (key b) = true → mine b = true → mine a = true := by
  constructor
  · rintro ⟨t, hWalk, hGone, hStay⟩
    constructor
    · intro a ha hMine hWants
      by_contra hDead
      have hLeft := mem_walk_of_dead hWalk ha (Bool.eq_false_iff.mpr hDead)
      rw [hGone a hLeft hMine] at hWants
      exact Bool.false_ne_true hWants
    · intro a b hOrder hKey hLive hMine
      by_contra hStranger
      have ha := hStay a (hOrder.subset List.mem_cons_self) (Bool.eq_false_iff.mpr hStranger)
      have hLeft := mem_walk_of_behind hNodup hWalk hOrder hKey ha
      have hWants := hWanted b (hOrder.subset (List.mem_cons_of_mem _ List.mem_cons_self)) hLive
      rw [hGone b hLeft hMine] at hWants
      exact Bool.false_ne_true hWants
  · rintro ⟨hAlive, hFirst⟩
    have hWalk := walk_eq (List.nil_append l ▸ hNodup) (List.nil_append l ▸ hFirst)
    refine ⟨_, hWalk, ?_, ?_⟩
    · intro a ha hMine
      obtain ⟨haMem, haStays⟩ := List.mem_filter.mp ha
      by_contra hWants
      rw [hMine, hAlive a haMem hMine (by simpa using hWants)] at haStays
      exact Bool.false_ne_true haStays
    · intro a ha hMine
      exact List.mem_filter.mpr ⟨ha, by simp [hMine]⟩

end Library.FirstOfKey
