import AshamaneCore.Game.PoolLimits

/-!
# Rounds of a pool

Despawning lowers counters and spawning raises them to the limit at most. Both are
proved along the ranks: what they do to a pool is known once it is known for the
child pools. The loop that spawns carries how many rounds are left, and these never
exceed the free places, where a triggering object is one place more.
-/

namespace AshamaneCore.PoolLimits

open PoolGroup PoolMgr ActivePoolData Library.Transition

variable {F : PoolForest} {rolls : Nat → Roll}

/-- Pools below a rank may have changed, and no counter has grown. -/
structure Shrunk (F : PoolForest) (r : Nat) (s s' : ActivePoolData) : Prop where
  consistent : Consistent F s'
  above : ∀ q, r ≤ F.rank q → SameAt F s s' q
  bounded : ∀ q, s'.getActiveObjectCount q ≤ s.getActiveObjectCount q

/-- Pools below a rank may have changed, and no counter has grown over its limit. -/
structure Grown (F : PoolForest) (r : Nat) (s s' : ActivePoolData) : Prop where
  consistent : Consistent F s'
  above : ∀ q, r ≤ F.rank q → SameAt F s s' q
  bounded : ∀ q, s'.getActiveObjectCount q ≤ max (s.getActiveObjectCount q) (F.maxLimit q).toNat

section Changes

variable {r : Nat} {s t u : ActivePoolData}

theorem Shrunk.refl (h : Consistent F s) : Shrunk F r s s :=
  ⟨h, fun _ _ => .rfl, fun _ => le_rfl⟩

theorem Grown.refl (h : Consistent F s) : Grown F r s s :=
  ⟨h, fun _ _ => .rfl, fun _ => le_max_left _ _⟩

theorem Shrunk.trans (h : Shrunk F r s t) (hNext : Shrunk F r t u) : Shrunk F r s u :=
  ⟨hNext.consistent, fun q hq => (h.above q hq).trans (hNext.above q hq),
    fun q => (hNext.bounded q).trans (h.bounded q)⟩

theorem Grown.trans (h : Grown F r s t) (hNext : Grown F r t u) : Grown F r s u := by
  refine ⟨hNext.consistent, fun q hq => (h.above q hq).trans (hNext.above q hq), fun q => ?_⟩
  have hFirst := h.bounded q
  have hSecond := hNext.bounded q
  omega

theorem Shrunk.mono {r' : Nat} (h : Shrunk F r s t) (hLe : r ≤ r') : Shrunk F r' s t :=
  ⟨h.consistent, fun q hq => h.above q (hLe.trans hq), h.bounded⟩

theorem Grown.mono {r' : Nat} (h : Grown F r s t) (hLe : r ≤ r') : Grown F r' s t :=
  ⟨h.consistent, fun q hq => h.above q (hLe.trans hq), h.bounded⟩

theorem Grown.lawful (h : Grown F r s t) (hLawful : Lawful F s) : Lawful F t := by
  refine ⟨h.consistent, fun q => ?_⟩
  have hBounded := h.bounded q
  have hLimited := hLawful.limited q
  omega

theorem Shrunk.lawful (h : Shrunk F r s t) (hLawful : Lawful F s) : Lawful F t :=
  ⟨h.consistent, fun q => (h.bounded q).trans (hLawful.limited q)⟩

end Changes

def Despawns (F : PoolForest) (p : UInt64) (f : UInt64 → PoolRun → PoolRun) : Prop :=
  ∀ child ∈ (F.group .pool p).guids, ∀ s : PoolRun, Consistent F s.spawns →
    s.spawns.isActiveObject .pool child = true →
    Shrunk F (F.rank p) s.spawns (f child s).spawns ∧ Rests F (f child s).spawns child

/-- What the spawning of a child pool does, which has just become active. -/
def Spawns (F : PoolForest) (p : UInt64) (f : UInt64 → PoolRun → PoolRun) : Prop :=
  ∀ child ∈ (F.group .pool p).guids, ∀ s : PoolRun, Consistent F s.spawns →
    s.spawns.isActiveObject .pool child = true → s.spawns.getActiveObjectCount child = 0 →
    Grown F (F.rank p) s.spawns (f child s).spawns

section Despawn

variable {p : UInt64} {k : PoolKind} {f : UInt64 → PoolRun → PoolRun} (hCall : Despawns F p f)

include hCall in
theorem perPool_despawn {g : UInt64} (hMem : g ∈ (F.group k p).guids) {s : PoolRun}
    (h : Consistent F s.spawns) (hActive : s.spawns.isActiveObject k g = true) :
    Shrunk F (F.rank p) s.spawns (perPool f k g s).spawns ∧
      (k = .pool → Rests F (perPool f k g s).spawns g) := by
  cases k with
  | pool =>
    obtain ⟨hShrunk, hRests⟩ := hCall g hMem s h hActive
    exact ⟨hShrunk, fun _ => hRests⟩
  | creature => exact ⟨.refl h, nofun⟩
  | gameObject => exact ⟨.refl h, nofun⟩
  | quest => exact ⟨.refl h, nofun⟩

/-- After the despawning of the objects of a list that are meant by an identifier. -/
structure Despawned (F : PoolForest) (p : UInt64) (k : PoolKind) (guid : UInt64) (l : List UInt64)
    (s s' : ActivePoolData) : Prop where
  shrunk : Shrunk F (F.rank p + 1) s s'
  active : ∀ kind, ∀ g ∈ (F.group kind p).guids, s'.isActiveObject kind g = true ↔
    s.isActiveObject kind g = true ∧ ¬ (kind = k ∧ g ∈ l ∧ (guid = 0 ∨ g = guid))

include hCall in
theorem despawnOne_spec {g : UInt64} (hMem : g ∈ (F.group k p).guids) {s : PoolRun}
    (h : Consistent F s.spawns) (hOpen : Open F s.spawns p) (guid : UInt64) :
    Despawned F p k guid [g] s.spawns (despawnOne k p (perPool f k) guid s g).spawns := by
  rw [despawnOne]
  split
  · rename_i hBoth
    simp only [Bool.and_eq_true, Bool.or_eq_true, decide_eq_true_eq] at hBoth
    obtain ⟨hActive, hMeant⟩ := hBoth
    obtain ⟨hShrunk, hRests⟩ := perPool_despawn hCall hMem h hActive
    have hHere := hShrunk.above p le_rfl
    have hOpen' := hOpen.of_above fun q hq => hShrunk.above q hq.le
    have hActive' := hActive
    rw [← hHere.active k g hMem] at hActive'
    constructor
    · refine (hShrunk.mono (Nat.le_succ _)).trans ⟨?_, fun q hq => ?_, fun q => ?_⟩
      · exact consistent_remove hShrunk.consistent hOpen' hMem hActive' hRests
      · refine sameAt_remove hShrunk.consistent hOpen' hMem hRests ?_
        rintro rfl
        omega
      · rw [count_remove hShrunk.consistent hRests]
        exact Nat.sub_le _ _
    · intro kind g' hMem'
      rw [isActiveObject_remove hOpen' hMem hMem', hHere.active kind g' hMem', List.mem_singleton]
      refine and_congr_right fun _ => not_congr (and_congr_right fun _ => ?_)
      constructor
      · rintro rfl
        exact ⟨rfl, hMeant⟩
      · exact fun hSame => hSame.1
  · rename_i hNot
    refine ⟨.refl h, fun kind g' hMem' => (and_iff_left_of_imp ?_).symm⟩
    rintro hActive ⟨rfl, hSame, hMeant⟩
    obtain rfl := List.mem_singleton.mp hSame
    refine hNot ?_
    simp only [Bool.and_eq_true, Bool.or_eq_true, decide_eq_true_eq]
    exact ⟨hActive, hMeant⟩

include hCall in
theorem despawnList_spec (guid : UInt64) {l : List UInt64} (hMem : ∀ g ∈ l, g ∈ (F.group k p).guids)
    {s : PoolRun} (h : Consistent F s.spawns) (hOpen : Open F s.spawns p) :
    Despawned F p k guid l s.spawns (l.foldl (despawnOne k p (perPool f k) guid) s).spawns := by
  induction l generalizing s with
  | nil =>
    refine ⟨.refl h, fun kind g _ => (and_iff_left ?_).symm⟩
    exact fun hIn => List.not_mem_nil hIn.2.1
  | cons g l ih =>
    obtain ⟨hFirst, hActive⟩ := despawnOne_spec hCall (hMem g List.mem_cons_self) h hOpen guid
    have hOpen' := hOpen.of_above fun q hq => hFirst.above q hq
    obtain ⟨hRest, hActive'⟩ := ih (fun g' hg' => hMem g' (List.mem_cons_of_mem _ hg'))
      hFirst.consistent hOpen'
    refine ⟨hFirst.trans hRest, fun kind g' hMem' => ?_⟩
    rw [List.foldl_cons, hActive' kind g' hMem', hActive kind g' hMem', List.mem_singleton,
      List.mem_cons]
    tauto

include hCall in
theorem despawnObject_spec (guid : UInt64) {s : PoolRun} (h : Consistent F s.spawns)
    (hOpen : Open F s.spawns p) :
    Despawned F p k guid (F.group k p).guids s.spawns
      (despawnObject k p (perPool f k) (F.group k p) guid s).spawns :=
  despawnList_spec hCall guid (fun _ hMem => hMem) h hOpen

theorem guids_of_isEmpty {group : PoolGroup} (h : group.isEmpty = true) : group.guids = [] := by
  rw [PoolGroup.isEmpty, Bool.and_eq_true, List.isEmpty_iff, List.isEmpty_iff] at h
  rw [PoolGroup.guids, h.1, h.2]
  rfl

theorem despawnGroup_spec (hCall : Despawns F p f) (k : PoolKind) {s : PoolRun}
    (h : Consistent F s.spawns) (hOpen : Open F s.spawns p) :
    Shrunk F (F.rank p + 1) s.spawns (despawnGroup F f p k s).spawns ∧
      ∀ kind, ∀ g ∈ (F.group kind p).guids,
        (despawnGroup F f p k s).spawns.isActiveObject kind g = true →
          s.spawns.isActiveObject kind g = true ∧ kind ≠ k := by
  rw [despawnGroup]
  split
  · rename_i hEmpty
    refine ⟨.refl h, fun kind g hMem hActive => ⟨hActive, ?_⟩⟩
    rintro rfl
    rw [guids_of_isEmpty hEmpty] at hMem
    exact List.not_mem_nil hMem
  · obtain ⟨hShrunk, hActive⟩ := despawnObject_spec hCall 0 h hOpen (k := k)
    refine ⟨hShrunk, fun kind g hMem hStill => ?_⟩
    obtain ⟨hOld, hNot⟩ := (hActive kind g hMem).mp hStill
    refine ⟨hOld, ?_⟩
    rintro rfl
    exact hNot ⟨rfl, hMem, Or.inl rfl⟩

end Despawn

theorem despawnPool_spec {n : Nat} : ∀ {p : UInt64}, F.rank p < n → ∀ {s : PoolRun},
    Consistent F s.spawns → Open F s.spawns p →
    Shrunk F (F.rank p + 1) s.spawns (despawnPool F p s).spawns ∧
      Rests F (despawnPool F p s).spawns p := by
  induction n with
  | zero => exact fun hRank => absurd hRank (Nat.not_lt_zero _)
  | succ n ih =>
    intro p hRank s h hOpen
    have hCall : Despawns F p (despawnPool F) := by
      intro child hMem t ht hActive
      have hLt := F.rank_lt p child hMem
      obtain ⟨hShrunk, hRests⟩ := ih (by omega) ht fun _ _ => hActive
      exact ⟨hShrunk.mono hLt, hRests⟩
    obtain ⟨h1, hLeft1⟩ := despawnGroup_spec hCall .creature h hOpen
    have hOpen1 := hOpen.of_above fun q hq => h1.above q hq
    obtain ⟨h2, hLeft2⟩ := despawnGroup_spec hCall .gameObject h1.consistent hOpen1
    have hOpen2 := hOpen1.of_above fun q hq => h2.above q hq
    obtain ⟨h3, hLeft3⟩ := despawnGroup_spec hCall .pool h2.consistent hOpen2
    rw [despawnPool_eq]
    refine ⟨(h1.trans h2).trans h3, fun kind g hMem => ?_⟩
    rw [Bool.eq_false_iff]
    intro hActive
    obtain ⟨hActive2, hNotPool⟩ := hLeft3 kind g hMem hActive
    obtain ⟨hActive1, hNotObject⟩ := hLeft2 kind g hMem hActive2
    have hNotCreature := (hLeft1 kind g hMem hActive1).2
    cases kind with
    | creature => exact hNotCreature rfl
    | gameObject => exact hNotObject rfl
    | pool => exact hNotPool rfl
    | quest =>
      rw [F.noQuests] at hMem
      exact List.not_mem_nil hMem

section Spawn

variable {p : UInt64} {k : PoolKind} {f f' : UInt64 → PoolRun → PoolRun}

variable {g : UInt64}

theorem perPool_spawn (hCall : Spawns F p f) (hMem : g ∈ (F.group k p).guids)
    {s : PoolRun} (h : Consistent F s.spawns) (hActive : s.spawns.isActiveObject k g = true)
    (hZero : k = .pool → s.spawns.getActiveObjectCount g = 0) :
    Grown F (F.rank p) s.spawns (perPool f k g s).spawns := by
  cases k with
  | pool => exact hCall g hMem s h hActive (hZero rfl)
  | creature => exact .refl h
  | gameObject => exact .refl h
  | quest => exact .refl h

/-- An object is activated and spawned: its pool has one more, the pools below grow. -/
structure Activated (F : PoolForest) (p : UInt64) (k : PoolKind) (g : UInt64)
    (s s' : ActivePoolData) : Prop where
  consistent : Consistent F s'
  above : ∀ q, F.rank p + 1 ≤ F.rank q → SameAt F s s' q
  bounded : ∀ q, q ≠ p →
    s'.getActiveObjectCount q ≤ max (s.getActiveObjectCount q) (F.maxLimit q).toNat
  count : s'.getActiveObjectCount p = s.getActiveObjectCount p + 1
  active : ∀ kind, ∀ g' ∈ (F.group kind p).guids, s'.isActiveObject kind g' = true ↔
    s.isActiveObject kind g' = true ∨ kind = k ∧ g' = g

theorem activated_spec (hCall : Spawns F p f) (hMem : g ∈ (F.group k p).guids)
    {s : PoolRun} (h : Consistent F s.spawns) (hOpen : Open F s.spawns p)
    (hInactive : s.spawns.isActiveObject k g = false) :
    Activated F p k g s.spawns
      (perPool f k g { s with spawns := s.spawns.activateObject k g p }).spawns := by
  have hGrown : Grown F (F.rank p) (s.spawns.activateObject k g p)
      (perPool f k g { s with spawns := s.spawns.activateObject k g p }).spawns := by
    refine perPool_spawn (s := ⟨s.spawns.activateObject k g p, s.drawn⟩) hCall hMem
      (consistent_activate h hOpen hMem hInactive)
      ((isActiveObject_activate hOpen hMem).mpr (Or.inr ⟨rfl, rfl⟩)) ?_
    rintro rfl
    have hNe : g ≠ p := by
      rintro rfl
      exact Nat.lt_irrefl _ (F.rank_lt g g hMem)
    rw [count_activate h hMem hInactive, if_neg hNe, add_zero]
    exact h.count_of_rests (h.resting p g hMem hInactive)
  have hSame := hGrown.above p le_rfl
  have hCount := count_activate h hMem hInactive
  constructor
  · exact hGrown.consistent
  · intro q hq
    have hNe : q ≠ p := by
      rintro rfl
      omega
    exact (sameAt_activate h hOpen hMem hInactive hNe).trans (hGrown.above q (by omega))
  · intro q hNe
    have hBounded := hGrown.bounded q
    rwa [hCount, if_neg hNe, add_zero] at hBounded
  · rw [hSame.count, hCount, if_pos rfl]
  · intro kind g' hMem'
    rw [hSame.active kind g' hMem', isActiveObject_activate hOpen hMem']

/-- The loop while it spawns objects of a pool, with rounds left. -/
structure Looping (F : PoolForest) (p : UInt64) (k : PoolKind) (s : ActivePoolData) (left : Nat)
    (l : SpawnLoop) : Prop where
  consistent : Consistent F l.run.spawns
  above : ∀ q, F.rank p + 1 ≤ F.rank q → SameAt F s l.run.spawns q
  bounded : ∀ q, q ≠ p → l.run.spawns.getActiveObjectCount q ≤
    max (s.getActiveObjectCount q) (F.maxLimit q).toNat
  within : l.run.spawns.getActiveObjectCount p ≤ (F.maxLimit p).toNat
  places : l.run.spawns.getActiveObjectCount p + left ≤
    (F.maxLimit p).toNat + if l.triggerFrom ≠ 0 then 1 else 0
  trigger : l.triggerFrom ≠ 0 → l.triggerFrom ∈ (F.group k p).guids ∧
    l.run.spawns.isActiveObject k l.triggerFrom = true

variable {s : ActivePoolData} {left : Nat} {l : SpawnLoop}

theorem Looping.idle (h : Looping F p k s (left + 1) l) (drawn : Nat) :
    Looping F p k s left { l with run := { l.run with drawn } } :=
  ⟨h.consistent, h.above, h.bounded, h.within, (Nat.add_le_add_left (Nat.le_succ _) _).trans h.places,
    h.trigger⟩

theorem Looping.respawn (h : Looping F p k s (left + 1) l) (drawn : Nat) :
    Looping F p k s left { l with run := { l.run with drawn }, triggerFrom := 0 } := by
  refine ⟨h.consistent, h.above, h.bounded, h.within, ?_, fun hNe => absurd rfl hNe⟩
  have hPlaces := h.places
  simp only [ne_eq, not_true_eq_false, if_false]
  split at hPlaces <;> omega

theorem Looping.spawned {s' : ActivePoolData} {drawn : Nat}
    (h : Looping F p k s (left + 1) l) (hNew : Activated F p k g l.run.spawns s')
    (hTrigger : l.triggerFrom = 0) :
    Looping F p k s left { l with run := ⟨s', drawn⟩ } := by
  have hPlaces := h.places
  have hCount := hNew.count
  rw [hTrigger, if_neg (fun hNe => hNe rfl)] at hPlaces
  constructor
  · exact hNew.consistent
  · exact fun q hq => (h.above q hq).trans (hNew.above q hq)
  · intro q hNe
    have hOld := h.bounded q hNe
    have hNow := hNew.bounded q hNe
    dsimp only
    omega
  · dsimp only
    omega
  · dsimp only
    omega
  · exact fun hNe => absurd hTrigger hNe

theorem Looping.exchanged (hCall : Despawns F p f) {t : PoolRun} (h : Looping F p k s (left + 1) l)
    (hNew : Activated F p k g l.run.spawns t.spawns) (hOpen : Open F l.run.spawns p)
    (hTrigger : l.triggerFrom ≠ 0) (last : UInt32) :
    Looping F p k s left
      ⟨despawnObject k p (perPool f k) (F.group k p) l.triggerFrom t, 0, last⟩ := by
  obtain ⟨hMem, hActive⟩ := h.trigger hTrigger
  have hOpen' := hOpen.of_above fun q hq => hNew.above q hq
  obtain ⟨hShrunk, hLeft⟩ := despawnObject_spec hCall l.triggerFrom hNew.consistent hOpen' (k := k)
  have hCount : t.spawns.getActiveObjectCount p =
      (despawnObject k p (perPool f k) (F.group k p) l.triggerFrom t).spawns.getActiveObjectCount p
        + 1 := by
    rw [hNew.consistent.counted, hShrunk.consistent.counted]
    refine activeObjects_succ hMem ?_ fun kind g' hMem' => ?_
    · rw [Bool.eq_false_iff, Ne, hLeft k l.triggerFrom hMem]
      exact fun hStill => hStill.2 ⟨rfl, hMem, Or.inr rfl⟩
    · rw [hLeft kind g' hMem']
      constructor
      · intro hOld
        by_cases hSame : kind = k ∧ g' = l.triggerFrom
        · exact Or.inr hSame
        · refine Or.inl ⟨hOld, ?_⟩
          rintro ⟨hKind, -, hZero | hGuid⟩
          · exact hTrigger hZero
          · exact hSame ⟨hKind, hGuid⟩
      · rintro (⟨hOld, -⟩ | ⟨rfl, rfl⟩)
        · exact hOld
        · exact (hNew.active kind _ hMem).mpr (Or.inl hActive)
  have hPlaces := h.places
  have hOne := hNew.count
  rw [if_pos hTrigger] at hPlaces
  constructor
  · exact hShrunk.consistent
  · exact fun q hq => ((h.above q hq).trans (hNew.above q hq)).trans (hShrunk.above q hq)
  · intro q hNe
    have hOld := h.bounded q hNe
    have hNow := hNew.bounded q hNe
    have hLess := hShrunk.bounded q
    dsimp only
    omega
  · dsimp only
    omega
  · simp only [ne_eq, not_true_eq_false, if_false]
    omega
  · exact fun hNe => absurd rfl hNe

theorem Looping.round (hSpawn : Spawns F p f) (hDespawn : Despawns F p f') (h : Looping F p k s (left + 1) l)
    (hOpen : Open F s p) :
    Looping F p k s left
      (spawnRound k p (perPool f k) (perPool f' k) rolls (F.group k p) l) := by
  have hOpen' : Open F l.run.spawns p := hOpen.of_above fun q hq => h.above q hq
  rw [spawnRound]
  dsimp only
  split
  · exact h.idle _
  · rename_i obj hRoll
    obtain ⟨hMem, hFree⟩ := rollOne_spec hRoll
    split
    · exact h.idle _
    · split
      · exact h.respawn _
      · rename_i hOther
        have hInactive := hFree.resolve_left hOther
        have hNew := activated_spec hSpawn hMem
          (s := { l.run with drawn := l.run.drawn + 1 }) h.consistent hOpen' hInactive
        split
        · rename_i hTrigger
          exact h.exchanged hDespawn hNew hOpen' hTrigger _
        · rename_i hNone
          exact h.spawned hNew (not_not.mp hNone)

variable (rolls) in
theorem Looping.rounds (hSpawn : Spawns F p f) (hDespawn : Despawns F p f') (h : Looping F p k s left l)
    (hOpen : Open F s p) :
    Looping F p k s 0
      ((spawnRound k p (perPool f k) (perPool f' k) rolls (F.group k p))^[left] l) := by
  induction left generalizing l with
  | zero => exact h
  | succ left ih =>
    rw [Function.iterate_succ_apply]
    exact ih (h.round hSpawn hDespawn hOpen)

theorem freePlaces_le {limit : UInt32} {triggerFrom : UInt64}
    (h : s.getActiveObjectCount p ≤ limit.toNat) :
    s.getActiveObjectCount p + (freePlaces p limit s triggerFrom).toNat ≤
      limit.toNat + if triggerFrom ≠ 0 then 1 else 0 := by
  have hSize := limit.toNat_lt
  rw [freePlaces, Int.bmod_def]
  split <;> split <;> omega

variable (rolls) in
theorem spawnGroup_spec (hSpawn : Spawns F p f) (hDespawn : Despawns F p f') {s : PoolRun}
    (h : Consistent F s.spawns) (hOpen : Open F s.spawns p)
    (hLimit : s.spawns.getActiveObjectCount p ≤ (F.maxLimit p).toNat) (k : PoolKind)
    {triggerFrom : UInt64}
    (hTrigger : triggerFrom ≠ 0 → triggerFrom ∈ (F.group k p).guids ∧
      s.spawns.isActiveObject k triggerFrom = true) :
    Grown F (F.rank p + 1) s.spawns (spawnGroup F rolls f f' p k triggerFrom s).spawns := by
  rw [spawnGroup]
  split
  · exact .refl h
  · have hStart : Looping F p k s.spawns (freePlaces p (F.maxLimit p) s.spawns triggerFrom).toNat
        ⟨s, triggerFrom, 0⟩ :=
      ⟨h, fun _ _ => .rfl, fun _ _ => le_max_left _ _, hLimit, freePlaces_le hLimit, hTrigger⟩
    have hDone := hStart.rounds rolls hSpawn hDespawn hOpen
    refine ⟨hDone.consistent, hDone.above, fun q => ?_⟩
    rcases eq_or_ne q p with rfl | hNe
    · exact hDone.within.trans (le_max_right _ _)
    · exact hDone.bounded q hNe

end Spawn

theorem despawns_despawnPool (p : UInt64) : Despawns F p (despawnPool F) := by
  intro child hMem s h hActive
  obtain ⟨hShrunk, hRests⟩ := despawnPool_spec (Nat.lt_succ_self _) h fun _ _ => hActive
  exact ⟨hShrunk.mono (F.rank_lt p child hMem), hRests⟩

variable (rolls) in
theorem spawnPool_grown {n : Nat} : ∀ {p : UInt64}, F.rank p < n → ∀ {s : PoolRun},
    Consistent F s.spawns → Open F s.spawns p →
    s.spawns.getActiveObjectCount p ≤ (F.maxLimit p).toNat →
    Grown F (F.rank p + 1) s.spawns (spawnPool F rolls p s).spawns := by
  induction n with
  | zero => exact fun hRank => absurd hRank (Nat.not_lt_zero _)
  | succ n ih =>
    intro p hRank s h hOpen hLimit
    have hCall : Spawns F p (spawnPool F rolls) := by
      intro child hMem t ht hActive hZero
      have hLt := F.rank_lt p child hMem
      exact (ih (by omega) ht (fun _ _ => hActive) (by omega)).mono hLt
    have hNone : ∀ (k : PoolKind) (t : ActivePoolData), (0 : UInt64) ≠ 0 →
        0 ∈ (F.group k p).guids ∧ t.isActiveObject k 0 = true := fun _ _ hNe => absurd rfl hNe
    have h1 := spawnGroup_spec rolls hCall (despawns_despawnPool p) h hOpen hLimit .pool
      (hNone _ _)
    have hOpen1 := hOpen.of_above fun q hq => h1.above q hq
    have hLimit1 := (h1.bounded p).trans (max_le hLimit le_rfl)
    have h2 := spawnGroup_spec rolls hCall (despawns_despawnPool p) h1.consistent hOpen1
      hLimit1 .gameObject (hNone _ _)
    have hOpen2 := hOpen1.of_above fun q hq => h2.above q hq
    have hLimit2 := (h2.bounded p).trans (max_le hLimit1 le_rfl)
    have h3 := spawnGroup_spec rolls hCall (despawns_despawnPool p) h2.consistent hOpen2
      hLimit2 .creature (hNone _ _)
    rw [spawnPool_eq]
    exact (h1.trans h2).trans h3

theorem spawnPoolOf_grown {p : UInt64} {s : PoolRun} (h : Consistent F s.spawns)
    (hOpen : Open F s.spawns p) (hLimit : s.spawns.getActiveObjectCount p ≤ (F.maxLimit p).toNat)
    (k : PoolKind) {triggerFrom : UInt64}
    (hTrigger : triggerFrom ≠ 0 → triggerFrom ∈ (F.group k p).guids ∧
      s.spawns.isActiveObject k triggerFrom = true) :
    Grown F (F.rank p + 1) s.spawns (spawnPoolOf F rolls k p triggerFrom s).spawns := by
  refine spawnGroup_spec rolls ?_ (despawns_despawnPool p) h hOpen hLimit k hTrigger
  intro child hMem t ht hActive hZero
  have hGrown := spawnPool_grown rolls (Nat.lt_succ_self _) ht (fun _ _ => hActive)
    (by omega)
  exact hGrown.mono (F.rank_lt p child hMem)

end AshamaneCore.PoolLimits

/-!
## Runs of the pool manager

Pools without a mother are spawned and despawned as a whole. An update comes from
an active member of a pool that is ready to respawn, and it goes to the mother of
the pool when there is one. A command that names no such pool or member is not
given by anybody and does nothing here.
-/

namespace AshamaneCore.PoolLimits

open PoolGroup PoolMgr ActivePoolData Library.Transition

inductive Command
  | spawnPool (poolId : UInt64)
  | despawnPool (poolId : UInt64)
  | updatePool (kind : PoolKind) (poolId guid : UInt64)
  deriving DecidableEq

variable (F : PoolForest) (rolls : Nat → Roll)

def step (s : PoolRun) : Command → PoolRun
  | .spawnPool poolId => if F.searchMap poolId = none then spawnPool F rolls poolId s else s
  | .despawnPool poolId => if F.searchMap poolId = none then despawnPool F poolId s else s
  | .updatePool kind poolId guid =>
    if guid ∈ (F.group kind poolId).guids ∧ s.spawns.isActiveObject kind guid = true then
      updatePool F rolls kind poolId guid s
    else s

def start : PoolRun := ⟨.empty, 0⟩

variable {F} {rolls}

theorem lawful_empty : Lawful F .empty := by
  have hInactive : ∀ kind guid, ActivePoolData.empty.isActiveObject kind guid = false := by
    intro kind guid
    cases kind <;> rfl
  have hRests : ∀ p, Rests F .empty p := fun p kind guid _ => hInactive kind guid
  refine ⟨⟨fun p => ?_, fun _ child _ _ => hRests child⟩, fun p => Nat.zero_le _⟩
  have hZero : ∀ kind, activeOf F .empty kind p = 0 := by
    intro kind
    refine List.countP_eq_zero.mpr fun guid _ => ?_
    rw [hInactive]
    exact Bool.false_ne_true
  rw [activeObjects, hZero, hZero, hZero]
  rfl

variable {p : UInt64}

theorem open_of_root {s : ActivePoolData} (h : F.searchMap p = none) : Open F s p := by
  intro m hMem
  rw [(F.mother_iff m p).mpr hMem] at h
  cases h

variable {kind : PoolKind} {guid : UInt64}

theorem Consistent.open_of_active {s : ActivePoolData} (h : Consistent F s) (hMem : guid ∈ (F.group kind p).guids)
    (hActive : s.isActiveObject kind guid = true) : Open F s p := by
  intro m hChild
  by_contra hRest
  rw [h.resting m p hChild (Bool.eq_false_iff.mpr hRest) kind guid hMem] at hActive
  cases hActive

theorem updatePool_lawful {s : PoolRun} (h : Lawful F s.spawns)
    (hMem : guid ∈ (F.group kind p).guids) (hActive : s.spawns.isActiveObject kind guid = true) :
    Lawful F (updatePool F rolls kind p guid s).spawns := by
  have hOpen := h.toConsistent.open_of_active hMem hActive
  rw [updatePool]
  split
  · rename_i hMother
    -- the update goes to the mother, and the pool itself is the triggering member
    have hChild : p ∈ (F.group .pool (isPartOfAPool F p)).guids := by
      rw [isPartOfAPool] at hMother ⊢
      cases hSearch : F.searchMap p with
      | none =>
        rw [hSearch] at hMother
        exact absurd rfl hMother
      | some m => exact (F.mother_iff m p).mp hSearch
    have hOpen' := h.toConsistent.open_of_active hChild (hOpen _ hChild)
    exact (spawnPoolOf_grown h.toConsistent hOpen' (h.limited _) .pool
      fun _ => ⟨hChild, hOpen _ hChild⟩).lawful h
  · exact (spawnPoolOf_grown h.toConsistent hOpen (h.limited _) kind
      fun _ => ⟨hMem, hActive⟩).lawful h

theorem step_lawful (s : PoolRun) (c : Command) (h : Lawful F s.spawns) :
    Lawful F (step F rolls s c).spawns := by
  cases c with
  | spawnPool p =>
    rw [step]
    split
    · rename_i hRoot
      exact (spawnPool_grown rolls (Nat.lt_succ_self _) h.toConsistent (open_of_root hRoot)
        (h.limited p)).lawful h
    · exact h
  | despawnPool p =>
    rw [step]
    split
    · rename_i hRoot
      exact (despawnPool_spec (Nat.lt_succ_self _) h.toConsistent (open_of_root hRoot)).1.lawful h
    · exact h
  | updatePool kind p guid =>
    rw [step]
    split
    · rename_i hMember
      exact updatePool_lawful h hMember.1 hMember.2
    · exact h

/-- Pools respect their limits, whatever is rolled. -/
theorem pools_lawful (F : PoolForest) (rolls : Nat → Roll) (commands : List Command) :
    Lawful F (run (step F rolls) start commands).spawns :=
  invariant step_lawful lawful_empty commands

def familyGroup (kind : PoolKind) (p : UInt64) : PoolGroup :=
  if kind = .pool ∧ p = 1 then ⟨[], [⟨2⟩]⟩
  else if kind = .creature ∧ p = 2 then ⟨[], [⟨7⟩, ⟨8⟩]⟩
  else .empty

theorem mem_familyGroup :
    guid ∈ (familyGroup kind p).guids ↔
      kind = .pool ∧ p = 1 ∧ guid = 2 ∨ kind = .creature ∧ p = 2 ∧ (guid = 7 ∨ guid = 8) := by
  rw [familyGroup]
  split
  · rename_i h
    simp [h, guids]
  · split
    · rename_i h
      simp [h, guids]
    · simp [guids, PoolGroup.empty]
      tauto

def family : PoolForest where
  maxLimit _ := 1
  group := familyGroup
  searchMap child := if child = 2 then some 1 else none
  rank p := if p = 1 then 1 else 0
  nodup kind p := by
    rw [familyGroup]
    split
    · decide
    · split <;> decide
  disjoint kind p q guid hp hq := by
    rw [mem_familyGroup] at hp hq
    grind
  mother_iff p child := by
    rw [mem_familyGroup]
    grind
  rank_lt p child h := by
    rw [mem_familyGroup] at h
    grind
  noQuests p := rfl

example : ((run (step family fun _ => ⟨fun _ => true, 1⟩) start
    [.spawnPool 1, .updatePool .creature 2 8]).spawns.getActiveObjectCount 2) = 1 := by decide

end AshamaneCore.PoolLimits
