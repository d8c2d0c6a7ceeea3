import AshamaneCore.Game.PoolMgr
import AshamaneCore.Library.Transition

/-!
# Limits of pools

The counter of a pool is the number of its active objects of all kinds. Work on a
pool leaves everything alone that does not stand below it, so while a group spawns
its rolls, only its own activations move its counter. A triggering object makes
room for one more roll, because it is despawned for the first new object.
-/

namespace AshamaneCore.PoolLimits

open PoolGroup PoolMgr ActivePoolData Library.Transition

variable {F : PoolForest} {rolls : Nat → Roll}

def activeOf (F : PoolForest) (s : ActivePoolData) (kind : PoolKind) (p : UInt64) : Nat :=
  (F.group kind p).guids.countP (s.isActiveObject kind)

def activeObjects (F : PoolForest) (s : ActivePoolData) (p : UInt64) : Nat :=
  activeOf F s .creature p + activeOf F s .gameObject p + activeOf F s .pool p

def Rests (F : PoolForest) (s : ActivePoolData) (p : UInt64) : Prop :=
  ∀ kind, ∀ guid ∈ (F.group kind p).guids, s.isActiveObject kind guid = false

structure Consistent (F : PoolForest) (s : ActivePoolData) : Prop where
  counted : ∀ p, s.getActiveObjectCount p = activeObjects F s p
  resting : ∀ p, ∀ child ∈ (F.group .pool p).guids, s.isActiveObject .pool child = false →
    Rests F s child

structure Lawful (F : PoolForest) (s : ActivePoolData) : Prop extends Consistent F s where
  limited : ∀ p, s.getActiveObjectCount p ≤ (F.maxLimit p).toNat

def Open (F : PoolForest) (s : ActivePoolData) (p : UInt64) : Prop :=
  ∀ m, p ∈ (F.group .pool m).guids → s.isActiveObject .pool p = true

structure SameAt (F : PoolForest) (s s' : ActivePoolData) (p : UInt64) : Prop where
  count : s'.getActiveObjectCount p = s.getActiveObjectCount p
  active : ∀ kind, ∀ guid ∈ (F.group kind p).guids,
    s'.isActiveObject kind guid = s.isActiveObject kind guid

variable {s : ActivePoolData} {p : UInt64}

theorem SameAt.rfl : SameAt F s s p :=
  ⟨Eq.refl _, fun _ _ _ => Eq.refl _⟩

theorem SameAt.trans {t u : ActivePoolData} (h : SameAt F s t p)
    (hNext : SameAt F t u p) : SameAt F s u p :=
  ⟨hNext.count.trans h.count, fun kind guid hMem =>
    (hNext.active kind guid hMem).trans (h.active kind guid hMem)⟩

theorem Open.of_above {s' : ActivePoolData} (h : Open F s p)
    (hAbove : ∀ q, F.rank p < F.rank q → SameAt F s s' q) : Open F s' p := by
  intro m hMem
  rw [(hAbove m (F.rank_lt m p hMem)).active .pool p hMem]
  exact h m hMem

/-! ## One object -/

theorem countP_succ {l : List UInt64} {a b : UInt64 → Bool} {g : UInt64} (hNodup : l.Nodup)
    (hMem : g ∈ l) (hNew : a g = false) (h : ∀ x ∈ l, b x = true ↔ a x = true ∨ x = g) :
    l.countP b = l.countP a + 1 := by
  induction l with
  | nil => exact absurd hMem List.not_mem_nil
  | cons x l ih =>
    obtain ⟨hNot, hNodup⟩ := List.nodup_cons.mp hNodup
    have hHead := h x List.mem_cons_self
    have hTail : ∀ y ∈ l, b y = true ↔ a y = true ∨ y = g :=
      fun y hy => h y (List.mem_cons_of_mem _ hy)
    rcases List.mem_cons.mp hMem with rfl | hIn
    · have hSame : l.countP b = l.countP a := by
        refine List.countP_congr fun y hy => ?_
        have hNe : y ≠ g := fun hEq => hNot (hEq ▸ hy)
        rw [hTail y hy]
        exact or_iff_left hNe
      rw [List.countP_cons, List.countP_cons, hSame, hNew, hHead.mpr (Or.inr rfl)]
      rfl
    · have hNe : x ≠ g := fun hEq => hNot (hEq ▸ hIn)
      have hSame : b x = a x := Bool.eq_iff_iff.mpr (hHead.trans (or_iff_left hNe))
      rw [List.countP_cons, List.countP_cons, ih hNodup hIn hTail, hSame]
      omega

section Toggle

variable {s s' : ActivePoolData} {k : PoolKind} {g p : UInt64}

theorem activeObjects_succ (hMem : g ∈ (F.group k p).guids) (hNew : s.isActiveObject k g = false)
    (h : ∀ kind, ∀ guid ∈ (F.group kind p).guids, s'.isActiveObject kind guid = true ↔
      s.isActiveObject kind guid = true ∨ kind = k ∧ guid = g) :
    activeObjects F s' p = activeObjects F s p + 1 := by
  have hOther : ∀ kind, kind ≠ k → activeOf F s' kind p = activeOf F s kind p := by
    intro kind hNe
    refine List.countP_congr fun guid hGuid => ?_
    rw [h kind guid hGuid]
    exact or_iff_left fun hSame => hNe hSame.1
  have hSelf : activeOf F s' k p = activeOf F s k p + 1 := by
    refine countP_succ (F.nodup k p) hMem hNew fun guid hGuid => ?_
    rw [h k guid hGuid]
    exact or_congr_right (and_iff_right rfl)
  cases k with
  | creature =>
    rw [activeObjects, hSelf, hOther .gameObject (by decide), hOther .pool (by decide), activeObjects]
    omega
  | gameObject =>
    rw [activeObjects, hSelf, hOther .creature (by decide), hOther .pool (by decide), activeObjects]
    omega
  | pool =>
    rw [activeObjects, hSelf, hOther .creature (by decide), hOther .gameObject (by decide),
      activeObjects]
    omega
  | quest =>
    rw [F.noQuests] at hMem
    exact absurd hMem List.not_mem_nil

theorem activeObjects_congr (h : ∀ kind, ∀ guid ∈ (F.group kind p).guids,
    s'.isActiveObject kind guid = s.isActiveObject kind guid) :
    activeObjects F s' p = activeObjects F s p := by
  have hSame : ∀ kind, activeOf F s' kind p = activeOf F s kind p := fun kind =>
    List.countP_congr fun guid hGuid => by rw [h kind guid hGuid]
  rw [activeObjects, hSame, hSame, hSame, activeObjects]

theorem Consistent.count_of_rests (h : Consistent F s) (hRests : Rests F s p) :
    s.getActiveObjectCount p = 0 := by
  have hZero : ∀ kind, activeOf F s kind p = 0 := by
    intro kind
    refine List.countP_eq_zero.mpr fun guid hGuid => ?_
    rw [hRests kind guid hGuid]
    exact Bool.false_ne_true
  rw [h.counted, activeObjects, hZero, hZero, hZero]

end Toggle

section Activate

variable {s : ActivePoolData} {k : PoolKind} {g p : UInt64} (h : Consistent F s) (hOpen : Open F s p)
  (hMem : g ∈ (F.group k p).guids) (hInactive : s.isActiveObject k g = false)

include hOpen in
theorem isActiveObject_activate {kind : PoolKind} {q guid : UInt64}
    (hGuid : guid ∈ (F.group kind q).guids) :
    (s.activateObject k g p).isActiveObject kind guid = true ↔
      s.isActiveObject kind guid = true ∨ kind = k ∧ guid = g := by
  rw [activateObject, isActiveObject_increase, isActiveObject_insert]
  rintro rfl rfl
  exact (isActiveObject_insert s k .pool g guid).mpr (Or.inl (hOpen q hGuid))

include h hMem hInactive in
theorem count_activate (q : UInt64) :
    (s.activateObject k g p).getActiveObjectCount q =
      s.getActiveObjectCount q + if q = p then 1 else 0 := by
  rw [activateObject, getActiveObjectCount_increase, getActiveObjectCount_insert]
  rintro rfl
  exact h.count_of_rests (h.resting p g hMem hInactive)

include h hOpen hMem hInactive in
theorem sameAt_activate {q : UInt64} (hNe : q ≠ p) : SameAt F s (s.activateObject k g p) q := by
  constructor
  · rw [count_activate h hMem hInactive, if_neg hNe, add_zero]
  · intro kind guid hGuid
    rw [Bool.eq_iff_iff, isActiveObject_activate hOpen hGuid]
    refine or_iff_left ?_
    rintro ⟨rfl, rfl⟩
    exact hNe (F.disjoint kind q p guid hGuid hMem)

include h hOpen hMem hInactive in
theorem consistent_activate : Consistent F (s.activateObject k g p) := by
  constructor
  · intro q
    rw [count_activate h hMem hInactive, h.counted]
    rcases eq_or_ne q p with rfl | hNe
    · rw [if_pos rfl, activeObjects_succ hMem hInactive fun kind guid hGuid =>
        isActiveObject_activate hOpen hGuid]
    · rw [if_neg hNe, add_zero, activeObjects_congr (sameAt_activate h hOpen hMem hInactive hNe).active]
  · intro m child hChild hRest kind guid hGuid
    have hBefore : s.isActiveObject .pool child = false := by
      rw [Bool.eq_false_iff] at hRest ⊢
      exact fun hActive => hRest ((isActiveObject_activate hOpen hChild).mpr (Or.inl hActive))
    have hOld := h.resting m child hChild hBefore kind guid hGuid
    rw [Bool.eq_false_iff, Ne, isActiveObject_activate hOpen hGuid, hOld]
    rintro (hFalse | ⟨rfl, rfl⟩)
    · exact Bool.false_ne_true hFalse
    · obtain rfl := F.disjoint kind child p guid hGuid hMem
      rw [hOpen m hChild] at hBefore
      cases hBefore

end Activate

section Remove

variable {s : ActivePoolData} {k : PoolKind} {g p : UInt64} (h : Consistent F s) (hOpen : Open F s p)
  (hMem : g ∈ (F.group k p).guids) (hActive : s.isActiveObject k g = true)
  (hRests : k = .pool → Rests F s g)

include hOpen hMem in
theorem isActiveObject_remove {kind : PoolKind} {q guid : UInt64}
    (hGuid : guid ∈ (F.group kind q).guids) :
    (s.removeObject k g p).isActiveObject kind guid = true ↔
      s.isActiveObject kind guid = true ∧ ¬ (kind = k ∧ guid = g) := by
  rw [removeObject, isActiveObject_decrease, isActiveObject_erase]
  rintro rfl rfl
  refine (isActiveObject_erase s k .pool g guid).mpr ⟨hOpen q hGuid, ?_⟩
  rintro ⟨rfl, rfl⟩
  exact Nat.lt_irrefl _ (F.rank_lt guid guid hMem)

include h hRests in
theorem count_remove (q : UInt64) :
    (s.removeObject k g p).getActiveObjectCount q =
      s.getActiveObjectCount q - if q = p then 1 else 0 := by
  rw [removeObject, getActiveObjectCount_decrease, getActiveObjectCount_erase]
  exact fun hPool => h.count_of_rests (hRests hPool)

include h hOpen hMem hRests in
theorem sameAt_remove {q : UInt64} (hNe : q ≠ p) : SameAt F s (s.removeObject k g p) q := by
  constructor
  · rw [count_remove h hRests, if_neg hNe, Nat.sub_zero]
  · intro kind guid hGuid
    rw [Bool.eq_iff_iff, isActiveObject_remove hOpen hMem hGuid]
    refine and_iff_left ?_
    rintro ⟨rfl, rfl⟩
    exact hNe (F.disjoint kind q p guid hGuid hMem)

include hOpen hMem hActive in
theorem activeObjects_remove : activeObjects F s p = activeObjects F (s.removeObject k g p) p + 1 := by
  refine activeObjects_succ hMem ?_ ?_
  · rw [Bool.eq_false_iff, Ne, isActiveObject_remove hOpen hMem hMem]
    exact fun hBoth => hBoth.2 ⟨rfl, rfl⟩
  · intro kind guid hGuid
    rw [isActiveObject_remove hOpen hMem hGuid]
    constructor
    · intro hOld
      by_cases hSame : kind = k ∧ guid = g
      · exact Or.inr hSame
      · exact Or.inl ⟨hOld, hSame⟩
    · rintro (⟨hOld, -⟩ | ⟨rfl, rfl⟩)
      · exact hOld
      · exact hActive

include h hOpen hMem hActive hRests in
theorem consistent_remove : Consistent F (s.removeObject k g p) := by
  constructor
  · intro q
    rw [count_remove h hRests, h.counted]
    rcases eq_or_ne q p with rfl | hNe
    · rw [if_pos rfl, activeObjects_remove hOpen hMem hActive, Nat.add_sub_cancel]
    · rw [if_neg hNe, Nat.sub_zero, activeObjects_congr (sameAt_remove h hOpen hMem hRests hNe).active]
  · intro m child hChild hRest kind guid hGuid
    have hOld : Rests F s child := by
      cases hBefore : s.isActiveObject .pool child with
      | false => exact h.resting m child hChild hBefore
      | true =>
        by_cases hSame : PoolKind.pool = k ∧ child = g
        · obtain ⟨rfl, rfl⟩ := hSame
          exact hRests rfl
        · have hStill := (isActiveObject_remove hOpen hMem hChild).mpr ⟨hBefore, hSame⟩
          rw [hRest] at hStill
          cases hStill
    rw [Bool.eq_false_iff, Ne, isActiveObject_remove hOpen hMem hGuid, hOld kind guid hGuid]
    exact fun hBoth => Bool.false_ne_true hBoth.1

end Remove

end AshamaneCore.PoolLimits
