import Mathlib.Data.List.Basic
import Mathlib.Data.List.Nodup
import Mathlib.Data.List.Range

/-!
# Recycled identifiers

A pool hands out identifiers from one up and keeps those that come back in a
queue; the largest one is not queued but forgotten. Numbers below a fixed size
wrap around. The pool carries its history: what is in use, and what was ever
handed out.
-/

namespace Library

structure IdPool where
  free : List Nat
  max : Nat
  used : List Nat
  handed : List Nat

namespace IdPool

variable (size : Nat)

def next (p : IdPool) : Nat := p.free.headD ((p.max + 1) % size)

def take (p : IdPool) : IdPool where
  free := p.free.tail
  max := if p.free = [] then (p.max + 1) % size else p.max
  used := p.next size :: p.used
  handed := p.next size :: p.handed

def takeMany (p : IdPool) : Nat → IdPool
  | 0 => p
  | k + 1 => takeMany (p.take size) k

def release (p : IdPool) (id : Nat) : IdPool where
  free := if id = p.max then p.free else p.free ++ [id]
  max := if id = p.max then (if p.max = 0 then size - 1 else p.max - 1) else p.max
  used := p.used.erase id
  handed := p.handed

/-- What is in use and what is queued are together the numbers up to the maximum, each once. -/
structure Sound (p : IdPool) : Prop where
  partition : (p.used ++ p.free).Perm (List.range' 1 p.max)
  positive : 0 ∉ p.handed

def Room (p : IdPool) (k : Nat) : Prop := k ≤ p.free.length + (size - 1 - p.max)

instance (p : IdPool) (k : Nat) : Decidable (p.Room size k) :=
  inferInstanceAs (Decidable (k ≤ p.free.length + (size - 1 - p.max)))

variable {size} {p : IdPool} {id k : Nat}

theorem Sound.disjoint (h : p.Sound) : p.used.Disjoint p.free :=
  (List.nodup_append'.mp (h.partition.nodup_iff.mpr List.nodup_range')).2.2

theorem Sound.nodup_used (h : p.Sound) : p.used.Nodup :=
  (List.nodup_append'.mp (h.partition.nodup_iff.mpr List.nodup_range')).1

theorem Sound.mem_range (h : p.Sound) : id ∈ p.used ∨ id ∈ p.free ↔ 1 ≤ id ∧ id ≤ p.max := by
  rw [← List.mem_append, h.partition.mem_iff, List.mem_range'_1]
  omega

theorem take_max_of_nil (hFree : p.free = []) (hSize : p.max + 1 < size) : (p.take size).max = p.max + 1 := by
  rw [take, if_pos hFree, Nat.mod_eq_of_lt hSize]

theorem take_max_of_cons {first : Nat} {rest : List Nat} (hFree : p.free = first :: rest) :
    (p.take size).max = p.max := by
  rw [take, if_neg (by rw [hFree]; exact List.cons_ne_nil first rest)]

theorem take_free (p : IdPool) : (p.take size).free = p.free.tail := rfl

theorem room_take_iff (hSize : p.max < size) (hOne : p.Room size 1) :
    (p.take size).Room size k ↔ p.Room size (k + 1) := by
  rw [Room] at hOne
  rw [Room, Room, take_free]
  cases hFree : p.free with
  | nil =>
    rw [hFree, List.length_nil] at hOne
    rw [take_max_of_nil hFree (by omega), List.tail_nil, List.length_nil]
    omega
  | cons first rest =>
    rw [take_max_of_cons hFree, List.tail_cons, List.length_cons]
    omega

theorem Sound.take (h : p.Sound) (hSize : p.max < size) (hRoom : p.Room size (k + 1)) :
    (p.take size).Sound ∧ (p.take size).max < size ∧ (p.take size).Room size k ∧ p.next size ∉ p.used := by
  have hPartition := h.partition
  have hOne : p.Room size 1 := (Nat.le_add_left 1 k).trans hRoom
  have hLater := (room_take_iff hSize hOne).mpr hRoom
  rw [Room] at hRoom
  cases hFree : p.free with
  | nil =>
    rw [hFree, List.length_nil] at hRoom
    rw [hFree, List.append_nil] at hPartition
    have hNext : p.next size = p.max + 1 := by
      rw [next, hFree, List.headD_nil, Nat.mod_eq_of_lt (by omega)]
    have hMax := @take_max_of_nil size p hFree (by omega)
    have hNew : p.next size ∉ p.used := by
      intro hUsed
      have hLe := (h.mem_range.mp (Or.inl hUsed)).2
      omega
    refine ⟨⟨?_, ?_⟩, by omega, hLater, hNew⟩
    · rw [hMax, IdPool.take, hFree, List.tail_nil, List.append_nil, hNext, List.range'_concat, Nat.one_mul,
        Nat.add_comm 1]
      exact (List.perm_append_singleton _ _).symm.trans (hPartition.append_right _)
    · intro hZero
      rcases List.mem_cons.mp hZero with hEq | hOld
      · omega
      · exact h.positive hOld
  | cons first rest =>
    have hNext : p.next size = first := by
      rw [next, hFree, List.headD_cons]
    have hMax := @take_max_of_cons size p _ _ hFree
    have hQueued : first ∈ p.free := hFree ▸ List.mem_cons_self
    refine ⟨⟨?_, ?_⟩, by omega, hLater, fun hUsed => h.disjoint hUsed (hNext ▸ hQueued)⟩
    · rw [hMax, IdPool.take, hFree, List.tail_cons, hNext]
      rw [hFree] at hPartition
      exact List.perm_middle.symm.trans hPartition
    · intro hZero
      rcases List.mem_cons.mp hZero with hEq | hOld
      · have hPos := (h.mem_range.mp (Or.inr hQueued)).1
        omega
      · exact h.positive hOld

theorem next_eq_zero (hSize : p.max < size) (hFull : ¬ p.Room size 1) : p.next size = 0 := by
  rw [Room] at hFull
  have hFree : p.free = [] := List.length_eq_zero_iff.mp (by omega)
  have hLast : p.max + 1 = size := by omega
  rw [next, hFree, List.headD_nil, hLast, Nat.mod_self]

theorem mem_handed_takeMany (h : id ∈ p.handed) : id ∈ (p.takeMany size k).handed := by
  induction k generalizing p with
  | zero => exact h
  | succ k ih => exact ih (List.mem_cons_of_mem _ h)

theorem zero_handed_of_full (h : p.Sound) (hSize : p.max < size) (hFull : ¬ p.Room size k) :
    0 ∈ (p.takeMany size k).handed := by
  induction k generalizing p with
  | zero => exact absurd (Nat.zero_le _) hFull
  | succ k ih =>
    rcases Classical.em (p.Room size 1) with hOne | hNone
    · obtain ⟨hSound, hLt, -, -⟩ := h.take (k := 0) hSize hOne
      exact ih hSound hLt fun hRest => hFull ((room_take_iff hSize hOne).mp hRest)
    · have hFirst : 0 ∈ (p.take size).handed := next_eq_zero hSize hNone ▸ List.mem_cons_self
      rw [takeMany]
      exact mem_handed_takeMany hFirst

theorem Sound.release (h : p.Sound) (hUsed : id ∈ p.used) : (p.release size id).Sound := by
  have hPos := (h.mem_range.mp (Or.inl hUsed)).1
  refine ⟨?_, h.positive⟩
  rw [IdPool.release]
  split
  · rename_i hMax
    rw [if_neg (by omega), ← List.erase_append_left _ hUsed]
    have hRange : List.range' 1 p.max = List.range' 1 (p.max - 1) ++ [id] := by
      obtain ⟨m, hm⟩ := Nat.exists_eq_add_of_le' (hMax ▸ hPos)
      rw [hm, List.range'_concat, Nat.one_mul, Nat.add_sub_cancel, hMax, hm, Nat.add_comm 1]
    have hErased := (h.partition.trans (hRange ▸ List.perm_append_singleton id _)).erase id
    rwa [List.erase_cons_head] at hErased
  · have hBack : (p.used.erase id ++ (p.free ++ [id])).Perm (p.used ++ p.free) := by
      rw [← List.append_assoc]
      refine (List.perm_append_singleton id _).trans ?_
      rw [← List.cons_append]
      exact (List.perm_cons_erase hUsed).symm.append_right p.free
    exact hBack.trans h.partition

theorem release_max_lt (hSize : p.max < size) : (p.release size id).max < size := by
  rw [IdPool.release]
  dsimp only
  split
  · split <;> omega
  · exact hSize

theorem Sound.release_zero (h : p.Sound) (hTwo : 2 ≤ size) :
    ¬ (p.release size 0).Sound := by
  intro hAfter
  have hNot : 0 ∉ p.used := fun hUsed => absurd (h.mem_range.mp (Or.inl hUsed)).1 (by decide)
  rcases Nat.eq_zero_or_pos p.max with hMax | hPos
  · have hLength := h.partition.length_eq
    have hGrown := hAfter.partition.length_eq
    rw [IdPool.release] at hGrown
    simp only [hMax, if_true, List.erase_of_not_mem hNot, List.length_range'] at hGrown hLength
    omega
  · have hQueued : 0 ∈ (p.release size 0).free := by
      rw [IdPool.release]
      simp only [hPos.ne, if_false]
      exact List.mem_append_right _ List.mem_cons_self
    exact absurd (hAfter.mem_range.mp (Or.inr hQueued)).1 (by decide)

end IdPool

end Library
