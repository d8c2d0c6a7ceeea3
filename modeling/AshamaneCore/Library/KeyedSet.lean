import AshamaneCore.Library.OrderedQueue
import Mathlib.Algebra.BigOperators.Group.List.Basic
import Mathlib.Algebra.Ring.Int.Defs

/-!
# Sets ordered by a key

The elements stand in strictly ascending order of their keys, as in a flat set
or in a map, so a key names at most one element. The total of a weight over the
elements is what reference counters are compared with.
-/

namespace Library

universe u v

@[ext] structure KeyedSet {κ : Type u} [LinearOrder κ] {α : Type v} (key : α → κ) where
  entries : List α
  sorted : entries.Pairwise fun a b => key a < key b

namespace KeyedSet

open OrderedQueue

variable {κ : Type u} [LinearOrder κ] {α : Type v} {key : α → κ}

def empty : KeyedSet key := ⟨[], List.Pairwise.nil⟩

def find? (s : KeyedSet key) (k : κ) : Option α := s.entries.find? fun a => key a = k

def contains (s : KeyedSet key) (k : κ) : Bool := s.entries.any fun a => key a = k

def next (s : KeyedSet key) (k : κ) : Option α := s.entries.find? fun a => k < key a

variable {s : KeyedSet key} {k : κ}

theorem contains_iff :
    s.contains k = true ↔ ∃ a ∈ s.entries, key a = k := by
  simp [contains]

theorem nodup_keys (s : KeyedSet key) : (s.entries.map key).Nodup :=
  List.pairwise_map.mpr (s.sorted.imp ne_of_lt)

variable {a : α}

theorem key_injective (s : KeyedSet key) {b : α} (ha : a ∈ s.entries) (hb : b ∈ s.entries)
    (h : key a = key b) : a = b :=
  List.inj_on_of_nodup_map s.nodup_keys ha hb h

theorem eq_singleton (s : KeyedSet key) (h : a ∈ s.entries) (hOnly : ∀ b ∈ s.entries, b = a) :
    s.entries = [a] := by
  have hInto : s.entries.Subperm [a] :=
    List.subperm_of_subset (List.Nodup.of_map key s.nodup_keys) fun b hb => List.mem_singleton.mpr (hOnly b hb)
  exact List.perm_singleton.mp (hInto.antisymm (List.singleton_subperm_iff.mpr h))

theorem find?_eq_some_iff :
    s.find? k = some a ↔ a ∈ s.entries ∧ key a = k := by
  constructor
  · intro h
    exact ⟨List.mem_of_find?_eq_some h, by simpa using List.find?_some h⟩
  · rintro ⟨hMem, rfl⟩
    cases hFind : s.find? (key a) with
    | none =>
      have hNone := List.find?_eq_none.mp hFind a hMem
      simp at hNone
    | some b =>
      have hKey : key b = key a := by simpa using List.find?_some hFind
      rw [s.key_injective (List.mem_of_find?_eq_some hFind) hMem hKey]

theorem find?_eq_none_iff :
    s.find? k = none ↔ ∀ a ∈ s.entries, key a ≠ k := by
  simp [find?]

def emplace (s : KeyedSet key) (x : α) : KeyedSet key :=
  if h : s.contains (key x) = true then s
  else ⟨insertUpper key x s.entries, by
    have hBefore : s.entries.Pairwise (Before key fun _ _ => False) :=
      s.sorted.imp fun hLt => Or.inl hLt
    refine (insertUpper_before hBefore ?_).imp ?_
    · intro a ha hEq
      exact h (contains_iff.mpr ⟨a, ha, hEq⟩)
    · rintro a b (hLt | ⟨-, hFalse⟩)
      · exact hLt
      · exact hFalse.elim⟩

/-- The element of a key is changed in place; the change keeps the key. -/
def alter (s : KeyedSet key) (k : κ) (f : α → α) (hKey : ∀ a, key (f a) = key a) : KeyedSet key :=
  ⟨s.entries.map fun a => if key a = k then f a else a, by
    refine List.pairwise_map.mpr (s.sorted.imp ?_)
    intro a b h
    split <;> split <;> simpa only [hKey] using h⟩

def map {β : Type*} {key' : β → κ} (s : KeyedSet key) (f : α → β) (hKey : ∀ a, key' (f a) = key a) :
    KeyedSet key' :=
  ⟨s.entries.map f, List.pairwise_map.mpr (s.sorted.imp fun h => by simpa only [hKey] using h)⟩

def filter (s : KeyedSet key) (p : α → Bool) : KeyedSet key := ⟨s.entries.filter p, s.sorted.filter p⟩

def erase (s : KeyedSet key) (k : κ) : KeyedSet key := s.filter fun a => key a ≠ k

theorem alter_entries (s : KeyedSet key) (k : κ) (f : α → α) (hKey : ∀ a, key (f a) = key a) :
    (s.alter k f hKey).entries = s.entries.map fun a => if key a = k then f a else a := rfl

theorem erase_entries (s : KeyedSet key) (k : κ) :
    (s.erase k).entries = s.entries.filter fun a => key a ≠ k := rfl

variable {x : α}

theorem mem_emplace :
    a ∈ (s.emplace x).entries ↔ a ∈ s.entries ∨ a = x ∧ s.contains (key x) = false := by
  rw [emplace]
  split
  · rename_i h
    simp [h]
  · rename_i h
    simp [h, or_comm]

theorem mem_erase :
    a ∈ (s.erase k).entries ↔ a ∈ s.entries ∧ key a ≠ k := by
  simp [erase, filter]

theorem erase_of_absent (h : s.find? k = none) : s.erase k = s := by
  refine KeyedSet.ext (List.filter_eq_self.mpr fun a ha => ?_)
  simpa using find?_eq_none_iff.mp h a ha

def assign (s : KeyedSet key) (x : α) : KeyedSet key := (s.erase (key x)).emplace x

theorem mem_assign :
    a ∈ (s.assign x).entries ↔ a = x ∨ a ∈ s.entries ∧ key a ≠ key x := by
  have hFree : (s.erase (key x)).contains (key x) = false := by
    rw [Bool.eq_false_iff, Ne, contains_iff]
    rintro ⟨b, hb, hKey⟩
    exact (mem_erase.mp hb).2 hKey
  rw [assign, mem_emplace, mem_erase, or_comm]
  exact or_congr_left (and_iff_left hFree)

theorem mem_alter {f : α → α} (hKey : ∀ a, key (f a) = key a) {b : α} :
    b ∈ (s.alter k f hKey).entries ↔
      (∃ a ∈ s.entries, key a = k ∧ f a = b) ∨ b ∈ s.entries ∧ key b ≠ k := by
  rw [alter, List.mem_map]
  constructor
  · rintro ⟨a, ha, rfl⟩
    rcases eq_or_ne (key a) k with h | h
    · rw [if_pos h]
      exact Or.inl ⟨a, ha, h, rfl⟩
    · rw [if_neg h]
      exact Or.inr ⟨ha, h⟩
  · rintro (⟨a, ha, h, rfl⟩ | ⟨hb, h⟩)
    · exact ⟨a, ha, if_pos h⟩
    · exact ⟨b, hb, if_neg h⟩

theorem find?_alter (h : s.find? k = some a) (f : α → α)
    (hKey : ∀ a, key (f a) = key a) : (s.alter k f hKey).find? k = some (f a) := by
  obtain ⟨hMem, hFound⟩ := find?_eq_some_iff.mp h
  exact find?_eq_some_iff.mpr ⟨(mem_alter hKey).mpr (Or.inl ⟨a, hMem, hFound, rfl⟩), (hKey a).trans hFound⟩

/-- What an insertion finds under its key: the element that was there, or the new one. -/
theorem find?_emplace (s : KeyedSet key) (x : α) :
    (s.emplace ((s.find? (key x)).getD x)).find? (key x) = some ((s.find? (key x)).getD x) := by
  rw [find?_eq_some_iff, mem_emplace]
  cases h : s.find? (key x) with
  | some a =>
    obtain ⟨hMem, hKey⟩ := find?_eq_some_iff.mp h
    exact ⟨Or.inl hMem, hKey⟩
  | none =>
    have hNew : s.contains (key x) = false := by
      rw [Bool.eq_false_iff, Ne, contains_iff]
      rintro ⟨a, ha, hKey⟩
      exact find?_eq_none_iff.mp h a ha hKey
    exact ⟨Or.inr ⟨rfl, hNew⟩, rfl⟩

theorem find?_alter_eq (s : KeyedSet key) (k : κ) (f : α → α) (hKey : ∀ a, key (f a) = key a) (l : κ) :
    (s.alter k f hKey).find? l = if l = k then (s.find? l).map f else s.find? l := by
  ext b
  rw [find?_eq_some_iff, mem_alter hKey]
  split
  · rename_i h
    rw [h, Option.map_eq_some_iff]
    simp only [find?_eq_some_iff]
    constructor
    · rintro ⟨⟨a, ha, hFound, rfl⟩ | ⟨-, hNe⟩, hb⟩
      · exact ⟨a, ⟨ha, hFound⟩, rfl⟩
      · exact absurd hb hNe
    · rintro ⟨a, ⟨ha, hFound⟩, rfl⟩
      exact ⟨Or.inl ⟨a, ha, hFound, rfl⟩, (hKey a).trans hFound⟩
  · rename_i h
    rw [find?_eq_some_iff]
    constructor
    · rintro ⟨⟨a, -, hFound, rfl⟩ | ⟨hb, -⟩, hEq⟩
      · exact absurd (hEq.symm.trans ((hKey a).trans hFound)) h
      · exact ⟨hb, hEq⟩
    · rintro ⟨hb, rfl⟩
      exact ⟨Or.inr ⟨hb, h⟩, rfl⟩

theorem find?_map {β : Type*} {key' : β → κ} (s : KeyedSet key) (f : α → β)
    (hKey : ∀ a, key' (f a) = key a) (k : κ) : (s.map f hKey).find? k = (s.find? k).map f := by
  have hSame : ((fun b => decide (key' b = k)) ∘ f) = fun a => decide (key a = k) := by
    funext a
    rw [Function.comp_apply, hKey]
  rw [find?, map, List.find?_map, hSame]
  rfl

theorem find?_erase_eq (s : KeyedSet key) (k l : κ) :
    (s.erase k).find? l = if l = k then none else s.find? l := by
  ext b
  rw [find?_eq_some_iff, mem_erase]
  split
  · rename_i h
    constructor
    · rintro ⟨⟨-, hNe⟩, hEq⟩
      exact absurd (hEq.trans h) hNe
    · exact fun hNone => nomatch hNone
  · rename_i h
    rw [find?_eq_some_iff]
    constructor
    · rintro ⟨⟨hb, -⟩, hEq⟩
      exact ⟨hb, hEq⟩
    · rintro ⟨hb, rfl⟩
      exact ⟨⟨hb, h⟩, rfl⟩

theorem find?_emplace_eq (s : KeyedSet key) (x : α) (l : κ) :
    (s.emplace x).find? l = if l = key x then some ((s.find? l).getD x) else s.find? l := by
  split
  · rename_i h
    rw [h]
    cases hFind : s.find? (key x) with
    | some a =>
      obtain ⟨hMem, hKey⟩ := find?_eq_some_iff.mp hFind
      exact find?_eq_some_iff.mpr ⟨mem_emplace.mpr (Or.inl hMem), hKey⟩
    | none =>
      have hEmplaced := find?_emplace s x
      rw [hFind] at hEmplaced
      exact hEmplaced
  · rename_i h
    ext b
    rw [find?_eq_some_iff, find?_eq_some_iff, mem_emplace]
    constructor
    · rintro ⟨hb | ⟨rfl, -⟩, hEq⟩
      · exact ⟨hb, hEq⟩
      · exact absurd hEq.symm h
    · rintro ⟨hb, hEq⟩
      exact ⟨Or.inl hb, hEq⟩

theorem find?_assign_eq (s : KeyedSet key) (x : α) (l : κ) :
    (s.assign x).find? l = if l = key x then some x else s.find? l := by
  rw [assign, find?_emplace_eq, find?_erase_eq]
  split
  · rfl
  · rfl

theorem contains_emplace_iff :
    (s.emplace x).contains k = true ↔ s.contains k = true ∨ key x = k := by
  simp only [contains_iff, mem_emplace]
  constructor
  · rintro ⟨a, ha | ⟨rfl, -⟩, hKey⟩
    · exact Or.inl ⟨a, ha, hKey⟩
    · exact Or.inr hKey
  · rintro (⟨a, ha, hKey⟩ | rfl)
    · exact ⟨a, Or.inl ha, hKey⟩
    · cases hFind : s.contains (key x) with
      | true =>
        obtain ⟨a, ha, hKey⟩ := contains_iff.mp hFind
        exact ⟨a, Or.inl ha, hKey⟩
      | false => exact ⟨x, Or.inr ⟨rfl, rfl⟩, rfl⟩

theorem contains_erase_iff {l : κ} :
    (s.erase k).contains l = true ↔ s.contains l = true ∧ l ≠ k := by
  simp only [contains_iff, mem_erase]
  constructor
  · rintro ⟨a, ⟨ha, hNe⟩, rfl⟩
    exact ⟨⟨a, ha, rfl⟩, hNe⟩
  · rintro ⟨⟨a, ha, rfl⟩, hNe⟩
    exact ⟨a, ⟨ha, hNe⟩, rfl⟩

theorem dropWhile_eq_filter (s : KeyedSet key) (k : κ) :
    s.entries.dropWhile (fun a => key a ≤ k) = s.entries.filter fun a => k < key a := by
  have hAll : ∀ l : List α, (l.Pairwise fun a b => key a < key b) →
      l.dropWhile (fun a => key a ≤ k) = l.filter fun a => k < key a := by
    intro l
    induction l with
    | nil => exact fun _ => rfl
    | cons a l ih =>
      intro hSorted
      rcases le_or_gt (key a) k with hLe | hLt
      · rw [List.dropWhile_cons_of_pos (by simpa using hLe), List.filter_cons_of_neg (by simpa using hLe)]
        exact ih hSorted.of_cons
      · rw [List.dropWhile_cons_of_neg (by simpa using hLt), List.filter_eq_self.mpr]
        intro b hb
        rcases List.mem_cons.mp hb with rfl | hBehind
        · simpa using hLt
        · simpa using hLt.trans (List.rel_of_pairwise_cons hSorted hBehind)
  exact hAll s.entries s.sorted

/-! ## Moving an element -/

theorem exists_split (h : s.find? k = some a) :
    ∃ before after, s.entries = before ++ a :: after ∧ key a = k ∧
      (∀ b ∈ before, key b ≠ k) ∧ ∀ b ∈ after, key b ≠ k := by
  obtain ⟨hMem, rfl⟩ := find?_eq_some_iff.mp h
  obtain ⟨before, after, hEntries⟩ := List.append_of_mem hMem
  have hNodup := s.nodup_keys
  rw [hEntries, List.map_append, List.map_cons, List.nodup_middle, List.nodup_cons] at hNodup
  refine ⟨before, after, hEntries, rfl, ?_, ?_⟩
  · intro b hb hEq
    exact hNodup.1 (hEq ▸ List.mem_append_left _ (List.mem_map_of_mem hb))
  · intro b hb hEq
    exact hNodup.1 (hEq ▸ List.mem_append_right _ (List.mem_map_of_mem hb))

theorem emplace_perm (h : s.contains (key x) = false) :
    (s.emplace x).entries.Perm (x :: s.entries) := by
  rw [emplace, dif_neg (by simp [h])]
  exact insertUpper_perm x s.entries

theorem emplace_last (h : ∀ a ∈ s.entries, key a < key x) :
    (s.emplace x).entries = s.entries ++ [x] := by
  have hFree : ¬ s.contains (key x) = true := by
    rw [contains_iff]
    rintro ⟨a, ha, hEq⟩
    exact absurd hEq (h a ha).ne
  have hInsert : ∀ l : List α, (∀ a ∈ l, key a < key x) → insertUpper key x l = l ++ [x] := by
    intro l hl
    induction l with
    | nil => rfl
    | cons a l ih =>
      have hBehind := (hl a List.mem_cons_self).not_gt
      rw [insertUpper, List.orderedInsert_of_not_le (fun a b => key a < key b) l hBehind]
      exact congrArg (a :: ·) (ih fun b hb => hl b (List.mem_cons_of_mem _ hb))
  rw [emplace, dif_neg hFree]
  exact hInsert s.entries h

variable {l : List α}

theorem erase_last (h : s.entries = l ++ [x]) :
    (s.erase (key x)).entries = l := by
  have hSorted := s.sorted
  rw [h] at hSorted
  have hBefore : ∀ a ∈ l, decide (key a ≠ key x) = true := fun a ha =>
    decide_eq_true ((List.pairwise_append.mp hSorted).2.2 a ha x (List.mem_singleton_self x)).ne
  rw [erase_entries, h, List.filter_append, List.filter_eq_self.mpr hBefore,
    List.filter_cons_of_neg (by simp), List.filter_nil, List.append_nil]

theorem erase_perm (h : a ∈ s.entries) :
    s.entries.Perm (a :: (s.erase (key a)).entries) := by
  obtain ⟨before, after, hEntries, -, hBefore, hAfter⟩ :=
    exists_split (find?_eq_some_iff.mpr ⟨h, rfl⟩)
  have hKeep : ∀ l : List α, (∀ b ∈ l, key b ≠ key a) → l.filter (fun b => key b ≠ key a) = l :=
    fun l hl => List.filter_eq_self.mpr fun b hb => by simpa using hl b hb
  rw [erase_entries, hEntries, List.filter_append, List.filter_cons_of_neg (by simp),
    hKeep before hBefore, hKeep after hAfter]
  exact List.perm_middle

theorem assign_perm_erase (s : KeyedSet key) (x : α) :
    (s.assign x).entries.Perm (x :: (s.erase (key x)).entries) := by
  have hFree : (s.erase (key x)).contains (key x) = false := by
    rw [Bool.eq_false_iff, Ne, contains_erase_iff]
    exact fun hIn => hIn.2 rfl
  exact emplace_perm hFree

theorem assign_perm (h : s.contains (key x) = false) :
    (s.assign x).entries.Perm (x :: s.entries) := by
  have hAbsent : s.find? (key x) = none := by
    refine find?_eq_none_iff.mpr fun a ha hEq => ?_
    rw [contains_iff.mpr ⟨a, ha, hEq⟩] at h
    cases h
  have hPerm := assign_perm_erase s x
  rwa [erase_of_absent hAbsent] at hPerm

theorem length_assign (h : s.contains (key x) = true) :
    (s.assign x).entries.length = s.entries.length := by
  obtain ⟨a, ha, hEq⟩ := contains_iff.mp h
  have hErase := (erase_perm ha).length_eq
  rw [hEq, List.length_cons] at hErase
  rw [(assign_perm_erase s x).length_eq, List.length_cons, hErase]

/-! ## Sweeps -/

/-- Elements still to be visited by a sweep that erases as it goes. -/
structure Pending (l : List α) (s : KeyedSet key) : Prop where
  sorted : l.Pairwise fun a b => key a < key b
  stored : ∀ a ∈ l, a ∈ s.entries

theorem pending_all (s : KeyedSet key) : Pending s.entries s := ⟨s.sorted, fun _ h => h⟩

theorem Pending.tail (h : Pending (a :: l) s) : Pending l s :=
  ⟨h.sorted.of_cons, fun b hb => h.stored b (List.mem_cons_of_mem _ hb)⟩

theorem Pending.head (h : Pending (a :: l) s) :
    a ∈ s.entries :=
  h.stored a List.mem_cons_self

theorem Pending.erase (h : Pending (a :: l) s) :
    Pending l (s.erase (key a)) := by
  refine ⟨h.sorted.of_cons, ?_⟩
  intro b hb
  exact mem_erase.mpr ⟨h.tail.stored b hb, (List.rel_of_pairwise_cons h.sorted hb).ne'⟩

/-- A sweep whose steps act at the keys of the elements they visit, seen at one key. -/
theorem foldl_view {σ : Type*} {β : Type*} {f : σ → α → σ} {v : σ → β} {g : α → β → β}
    (hAt : ∀ c a, key a = k → v (f c a) = g a (v c))
    (hOther : ∀ c a, key a ≠ k → v (f c a) = v c) (s : KeyedSet key) (c : σ) :
    v (s.entries.foldl f c) = (s.find? k).elim (v c) fun a => g a (v c) := by
  have hAll : ∀ (l : List α) (c : σ), (l.Pairwise fun a b => key a < key b) →
      v (l.foldl f c) = (l.find? fun a => key a = k).elim (v c) fun a => g a (v c) := by
    intro l
    induction l with
    | nil => exact fun _ _ => rfl
    | cons a l ih =>
      intro c hSorted
      rw [List.foldl_cons, ih _ hSorted.of_cons]
      rcases eq_or_ne (key a) k with rfl | hNe
      · have hNone : l.find? (fun b => key b = key a) = none := by
          refine List.find?_eq_none.mpr fun b hb => ?_
          simpa using (List.rel_of_pairwise_cons hSorted hb).ne'
        rw [hNone, List.find?_cons_of_pos (by simp)]
        exact hAt c a rfl
      · rw [List.find?_cons_of_neg (by simpa using hNe), hOther c a hNe]
  exact hAll s.entries c s.sorted

/-! ## Many keys at once -/

def findAll? (s : KeyedSet key) : List κ → Option (List α)
  | [] => some []
  | k :: ks => (s.find? k).bind fun a => (s.findAll? ks).map (a :: ·)

variable {ks : List κ}

theorem findAll?_eq_some_iff :
    s.findAll? ks = some l ↔ l.map key = ks ∧ ∀ a ∈ l, a ∈ s.entries := by
  induction ks generalizing l with
  | nil =>
    rw [findAll?, Option.some_inj, List.map_eq_nil_iff]
    constructor
    · rintro rfl
      exact ⟨rfl, fun _ h => (List.not_mem_nil h).elim⟩
    · rintro ⟨rfl, -⟩
      rfl
  | cons k ks ih =>
    rw [findAll?, Option.bind_eq_some_iff]
    constructor
    · rintro ⟨a, hFind, hRest⟩
      obtain ⟨rest, hAll, rfl⟩ := Option.map_eq_some_iff.mp hRest
      obtain ⟨hMem, rfl⟩ := find?_eq_some_iff.mp hFind
      obtain ⟨rfl, hStored⟩ := ih.mp hAll
      exact ⟨rfl, List.forall_mem_cons.mpr ⟨hMem, hStored⟩⟩
    · rintro ⟨hKeys, hStored⟩
      obtain ⟨a, rest, rfl, rfl, hRest⟩ := List.map_eq_cons_iff.mp hKeys
      obtain ⟨hMem, hOthers⟩ := List.forall_mem_cons.mp hStored
      exact ⟨a, find?_eq_some_iff.mpr ⟨hMem, rfl⟩,
        Option.map_eq_some_iff.mpr ⟨rest, ih.mpr ⟨hRest, hOthers⟩, rfl⟩⟩

theorem exists_findAll? (h : ∀ k ∈ ks, (s.find? k).isSome) :
    ∃ l, s.findAll? ks = some l := by
  induction ks with
  | nil => exact ⟨[], rfl⟩
  | cons k ks ih =>
    obtain ⟨hHead, hRest⟩ := List.forall_mem_cons.mp h
    obtain ⟨a, hFind⟩ := Option.isSome_iff_exists.mp hHead
    obtain ⟨l, hAll⟩ := ih hRest
    exact ⟨a :: l, by rw [findAll?, hFind, Option.bind_some, hAll, Option.map_some]⟩

theorem findAll?_congr {t : KeyedSet key} (h : ∀ k ∈ ks, s.find? k = t.find? k) :
    s.findAll? ks = t.findAll? ks := by
  induction ks with
  | nil => rfl
  | cons k ks ih =>
    obtain ⟨hFirst, hRest⟩ := List.forall_mem_cons.mp h
    rw [findAll?, findAll?, hFirst, ih hRest]

theorem mem_foldl_assign (h : (l.map key).Nodup) :
    a ∈ (l.foldl assign s).entries ↔ a ∈ l ∨ a ∈ s.entries ∧ ∀ b ∈ l, key a ≠ key b := by
  induction l generalizing s with
  | nil => simp
  | cons b l ih =>
    obtain ⟨hNew, hNodup⟩ := List.nodup_cons.mp h
    rw [List.foldl_cons, ih hNodup, mem_assign, List.mem_cons, List.forall_mem_cons]
    constructor
    · rintro (hMem | ⟨rfl | ⟨hMem, hNe⟩, hOthers⟩)
      · exact Or.inl (Or.inr hMem)
      · exact Or.inl (Or.inl rfl)
      · exact Or.inr ⟨hMem, hNe, hOthers⟩
    · rintro ((rfl | hMem) | ⟨hMem, hNe, hOthers⟩)
      · refine Or.inr ⟨Or.inl rfl, fun c hc hEq => hNew ?_⟩
        rw [hEq]
        exact List.mem_map_of_mem hc
      · exact Or.inl hMem
      · exact Or.inr ⟨Or.inr ⟨hMem, hNe⟩, hOthers⟩

theorem find?_foldl_assign (h : ∀ a ∈ l, key a ≠ k) (s : KeyedSet key) :
    (l.foldl assign s).find? k = s.find? k := by
  induction l generalizing s with
  | nil => rfl
  | cons a l ih =>
    obtain ⟨hNe, hOthers⟩ := List.forall_mem_cons.mp h
    rw [List.foldl_cons, ih hOthers, find?_assign_eq, if_neg hNe.symm]

/-! ## Totals -/

def total (w : α → Int) (s : KeyedSet key) : Int := (s.entries.map w).sum

theorem total_emplace (w : α → Int) (s : KeyedSet key) (x : α) :
    (s.emplace x).total w = s.total w + if s.contains (key x) then 0 else w x := by
  rw [emplace]
  split
  · simp
  · rw [total, total, ((insertUpper_perm x s.entries).map w).sum_eq, List.map_cons,
      List.sum_cons, add_comm]

theorem total_erase (w : α → Int) (h : s.find? k = some a) :
    (s.erase k).total w = s.total w - w a := by
  obtain ⟨hMem, rfl⟩ := find?_eq_some_iff.mp h
  have hSum := ((erase_perm hMem).map w).sum_eq
  rw [List.map_cons, List.sum_cons] at hSum
  rw [total, total, hSum, add_sub_cancel_left]

theorem total_assign (w : α → Int) (h : s.find? (key x) = some a) :
    (s.assign x).total w = s.total w - w a + w x := by
  have hFree : (s.erase (key x)).contains (key x) = false := by
    rw [Bool.eq_false_iff, Ne, contains_iff]
    rintro ⟨b, hb, hKey⟩
    exact (mem_erase.mp hb).2 hKey
  rw [assign, total_emplace, total_erase w h, hFree]
  rfl

theorem total_alter (w : α → Int) {s : KeyedSet key} {k : κ} {a : α} {f : α → α}
    {hKey : ∀ a, key (f a) = key a} (h : s.find? k = some a) :
    (s.alter k f hKey).total w = s.total w - w a + w (f a) := by
  obtain ⟨before, after, hEntries, hFound, hBefore, hAfter⟩ := exists_split h
  have hAlter : (s.alter k f hKey).entries = before ++ f a :: after := by
    have hKeep : ∀ l : List α, (∀ b ∈ l, key b ≠ k) →
        l.map (fun b => if key b = k then f b else b) = l :=
      fun l hl => List.map_congr_left (fun b hb => if_neg (hl b hb)) |>.trans (List.map_id l)
    rw [alter_entries, hEntries, List.map_append, List.map_cons, if_pos hFound, hKeep before hBefore,
      hKeep after hAfter]
  simp only [total, hAlter, hEntries, List.map_append, List.map_cons, List.sum_append, List.sum_cons]
  omega

end KeyedSet

end Library
