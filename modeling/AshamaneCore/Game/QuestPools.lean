import AshamaneCore.Common.Containers
import AshamaneCore.Game.PoolGroup
import AshamaneCore.Library.Transition
import Mathlib.Data.List.Perm.Subperm

/-!
# Pools of quests

Daily and weekly quests are pooled too. A change updates the pools of one period with
new quests as far as there are any; its random numbers are given. Pools of quests have
no mother pool here. Loading puts a quest into one pool, with no chance of its own.
-/

namespace AshamaneCore

open Library Containers

structure Quest where
  isDaily : Bool
  isWeekly : Bool
  deriving DecidableEq

structure QuestPools where
  pools : List UInt64
  maxLimit : UInt64 → UInt32
  group : UInt64 → PoolGroup
  getQuestTemplate : UInt64 → Option Quest
  nonempty : ∀ p ∈ pools, (group p).isEmpty = false
  equal : ∀ p, (group p).explicitlyChanced = []
  nodup : ∀ p, (group p).guids.Nodup
  disjoint : ∀ p q guid, guid ∈ (group p).guids → guid ∈ (group q).guids → p = q

/-- What an update leaves, and which quests it activated for the pool. -/
structure QuestChange where
  spawns : ActivePoolData
  activated : List UInt64

namespace QuestPools

structure Recycling where
  newQuests : ActivePoolObjects
  currentQuests : ActivePoolObjects
  drawn : Nat

structure Activation where
  change : QuestChange
  newQuests : ActivePoolObjects
  limit : UInt32
  drawn : Nat

section Loops

variable (poolId : UInt64) (picks : Nat → Nat)

def recycleOne (r : Recycling) : Recycling :=
  match selectRandomContainerElement r.currentQuests.entries (picks r.drawn) with
  | none => r
  | some questId =>
    ⟨r.newQuests.emplace questId, r.currentQuests.erase questId.toNat, r.drawn + 1⟩

/-- The loop takes a quest away in each round, so their number limits it. -/
def recycle (limit : UInt32) : Nat → Recycling → Recycling
  | 0, r => r
  | n + 1, r =>
    let r := recycleOne picks r
    if r.newQuests.entries.length < limit.toNat && !r.currentQuests.entries.isEmpty then
      recycle limit n r
    else r

def activateOne (a : Activation) : Activation :=
  match selectRandomContainerElement a.newQuests.entries (picks a.drawn) with
  | none => a
  | some questId =>
    { change :=
        ⟨a.change.spawns.activateObject .quest questId poolId, a.change.activated ++ [questId]⟩
      newQuests := a.newQuests.erase questId.toNat
      limit := a.limit - 1
      drawn := a.drawn + 1 }

def activate : Nat → Activation → Activation
  | 0, a => a
  | n + 1, a =>
    let a := activateOne poolId picks a
    if a.limit ≠ 0 && !a.newQuests.entries.isEmpty then activate n a else a

end Loops

def newQuests (group : PoolGroup) (spawns : ActivePoolData) : ActivePoolObjects :=
  group.equalChanced.foldl (fun quests obj =>
    if spawns.isActiveObject .quest obj.guid then quests else quests.emplace obj.guid) .empty

/-- Active quests are recycled if there are fewer different ones than the limit. -/
def selectQuests (group : PoolGroup) (limit : UInt32) (picks : Nat → Nat) (spawns : ActivePoolData) :
    Recycling :=
  let r : Recycling := ⟨newQuests group spawns, spawns.activeQuests, 0⟩
  if r.newQuests.entries.length < limit.toNat && !r.currentQuests.entries.isEmpty then
    recycle picks limit r.currentQuests.entries.length r
  else r

def spawnObject (group : PoolGroup) (poolId : UInt64) (limit : UInt32) (picks : Nat → Nat)
    (spawns : ActivePoolData) : QuestChange :=
  let r := selectQuests group limit picks spawns
  let cleared := (group.despawnObject .quest poolId (fun _ s => s) 0 ⟨spawns, 0⟩).spawns
  if r.newQuests.entries.isEmpty then ⟨cleared, []⟩
  else
    (activate poolId picks r.newQuests.entries.length
      ⟨⟨cleared, []⟩, r.newQuests, limit, r.drawn⟩).change

variable (Q : QuestPools)

def spawnPool (poolId : UInt64) (picks : Nat → Nat) (spawns : ActivePoolData) : QuestChange :=
  if (Q.group poolId).isEmpty then ⟨spawns, []⟩
  else spawnObject (Q.group poolId) poolId (Q.maxLimit poolId) picks spawns

inductive Change
  | changeDailyQuests
  | changeWeeklyQuests
  deriving DecidableEq

def getFirstEqualChancedObjectId (group : PoolGroup) : UInt64 :=
  (group.equalChanced.head?.map (·.guid)).getD 0

def updated (change : Change) : List UInt64 :=
  Q.pools.filter fun p =>
    match Q.getQuestTemplate (getFirstEqualChancedObjectId (Q.group p)) with
    | none => false
    | some quest =>
      match change with
      | .changeDailyQuests => !quest.isWeekly
      | .changeWeeklyQuests => !quest.isDaily

structure Update where
  poolId : UInt64
  picks : Nat → Nat

def step (spawns : ActivePoolData) (u : Update) : ActivePoolData :=
  (Q.spawnPool u.poolId u.picks spawns).spawns

end QuestPools

end AshamaneCore

/-!
## Recycled quests

Quests that are recycled come from the active quests of the whole server, not from
those of the pool, and the countdown of the limit starts below zero at zero. So an
update stays within its pool exactly if the pool does not have to recycle while a
quest of another pool is active, and if a pool without a limit has nothing to select.
-/

namespace AshamaneCore.QuestPools

open Library Library.Transition Containers ActivePoolData

/-! ## What loops do -/

theorem contains_toNat_iff {s : ActivePoolObjects} {guid : UInt64} :
    s.contains guid.toNat = true ↔ guid ∈ s.entries := by
  rw [KeyedSet.contains_iff]
  constructor
  · rintro ⟨g, hMem, hKey⟩
    exact UInt64.toNat_inj.mp hKey ▸ hMem
  · exact fun hMem => ⟨guid, hMem, rfl⟩

variable {quest : UInt64}

theorem isActive_iff {s : ActivePoolData} :
    s.isActiveObject .quest quest = true ↔ quest ∈ s.activeQuests.entries :=
  contains_toNat_iff

theorem nodup_entries (s : ActivePoolObjects) : s.entries.Nodup := s.nodup_keys.of_map _

section Selection

variable {picks : Nat → Nat}

theorem foldl_emplace_perm {p : UInt64 → Bool} (objects : List PoolObject) :
    ∀ {quests : ActivePoolObjects}, (quests.entries ++ objects.map (·.guid)).Nodup →
      (objects.foldl (fun quests obj => if p obj.guid then quests else quests.emplace obj.guid)
        quests).entries.Perm (quests.entries ++ (objects.map (·.guid)).filter fun g => !p g) := by
  induction objects with
  | nil =>
    intro quests _
    simp
  | cons obj objects ih =>
    intro quests hNodup
    rw [List.map_cons, List.nodup_middle, List.nodup_cons] at hNodup
    obtain ⟨hNew, hRest⟩ := hNodup
    rw [List.foldl_cons, List.map_cons]
    by_cases hp : p obj.guid = true
    · rw [if_pos hp, List.filter_cons_of_neg (by simp [hp])]
      exact ih hRest
    · have hFree : quests.contains obj.guid.toNat = false := by
        rw [Bool.eq_false_iff, Ne, contains_toNat_iff]
        exact fun hMem => hNew (List.mem_append_left _ hMem)
      have hPerm := KeyedSet.emplace_perm hFree
      rw [if_neg hp, List.filter_cons_of_pos (by simp [hp])]
      refine (ih ?_).trans ?_
      · rw [(hPerm.append_right _).nodup_iff]
        exact List.nodup_cons.mpr ⟨hNew, hRest⟩
      · exact (hPerm.append_right _).trans List.perm_middle.symm

variable (picks) in
theorem recycleOne_spec {r : Recycling} (h : r.currentQuests.entries ≠ [])
    (hNodup : (r.newQuests.entries ++ r.currentQuests.entries).Nodup) :
    ∃ quest, selectRandomContainerElement r.currentQuests.entries (picks r.drawn) = some quest ∧
      (recycleOne picks r).newQuests.entries.Perm (quest :: r.newQuests.entries) ∧
      ((recycleOne picks r).newQuests.entries ++ (recycleOne picks r).currentQuests.entries).Perm
        (r.newQuests.entries ++ r.currentQuests.entries) := by
  obtain ⟨quest, hPick⟩ := exists_selected h (picks r.drawn)
  have hMem := mem_of_selected hPick
  have hFree : r.newQuests.contains quest.toNat = false := by
    rw [Bool.eq_false_iff, Ne, contains_toNat_iff]
    exact fun hIn => List.disjoint_of_nodup_append hNodup hIn hMem
  have hNew := KeyedSet.emplace_perm hFree
  refine ⟨quest, hPick, ?_⟩
  rw [recycleOne, hPick]
  refine ⟨hNew, (hNew.append_right _).trans ?_⟩
  exact List.perm_middle.symm.trans ((KeyedSet.erase_perm hMem).symm.append_left _)

variable (picks) in
theorem recycle_spec {limit : UInt32} (n : Nat) : ∀ {r : Recycling},
    (r.newQuests.entries ++ r.currentQuests.entries).Nodup →
    r.newQuests.entries.length < limit.toNat → r.currentQuests.entries ≠ [] →
    ((recycle picks limit n r).newQuests.entries ++
      (recycle picks limit n r).currentQuests.entries).Perm
        (r.newQuests.entries ++ r.currentQuests.entries) ∧
    (recycle picks limit n r).newQuests.entries.length ≤ limit.toNat ∧
    r.newQuests.entries ⊆ (recycle picks limit n r).newQuests.entries := by
  induction n with
  | zero => exact fun _ hRoom _ => ⟨.refl _, hRoom.le, fun _ hMem => hMem⟩
  | succ n ih =>
    intro r hNodup hRoom hCurrent
    obtain ⟨quest, -, hNew, hPerm⟩ := recycleOne_spec picks hCurrent hNodup
    have hSub : r.newQuests.entries ⊆ (recycleOne picks r).newQuests.entries :=
      fun _ hMem => hNew.mem_iff.mpr (List.mem_cons_of_mem _ hMem)
    rw [recycle]
    split
    · rename_i hMore
      simp only [Bool.and_eq_true, decide_eq_true_eq, Bool.not_eq_true',
        List.isEmpty_eq_false_iff] at hMore
      obtain ⟨hAll, hLimit, hKeep⟩ := ih (hPerm.nodup_iff.mpr hNodup) hMore.1 hMore.2
      exact ⟨hAll.trans hPerm, hLimit, List.Subset.trans hSub hKeep⟩
    · refine ⟨hPerm, ?_, hSub⟩
      rw [hNew.length_eq, List.length_cons]
      exact hRoom

theorem mem_recycle {limit : UInt32} {n : Nat} {r : Recycling} {quest : UInt64}
    (hNodup : (r.newQuests.entries ++ r.currentQuests.entries).Nodup)
    (hPick : selectRandomContainerElement r.currentQuests.entries (picks r.drawn) = some quest) :
    quest ∈ (recycle picks limit (n + 1) r).newQuests.entries := by
  have hCurrent := List.ne_nil_of_mem (mem_of_selected hPick)
  obtain ⟨other, hOther, hNew, hPerm⟩ := recycleOne_spec picks hCurrent hNodup
  obtain rfl := Option.some.inj (hPick.symm.trans hOther)
  have hIn : quest ∈ (recycleOne picks r).newQuests.entries := hNew.mem_iff.mpr List.mem_cons_self
  rw [recycle]
  split
  · rename_i hMore
    simp only [Bool.and_eq_true, decide_eq_true_eq, Bool.not_eq_true',
      List.isEmpty_eq_false_iff] at hMore
    exact (recycle_spec picks n (hPerm.nodup_iff.mpr hNodup) hMore.1 hMore.2).2.2 hIn
  · exact hIn

end Selection

section Activating

variable {poolId : UInt64} {picks : Nat → Nat}

/-- The activated quests are those taken away from the new ones, and no others became active. -/
structure Activates (start : List UInt64) (s : ActivePoolData) (a : Activation) : Prop where
  perm : (a.change.activated ++ a.newQuests.entries).Perm start
  active : ∀ quest, a.change.spawns.isActiveObject .quest quest = true ↔
    s.isActiveObject .quest quest = true ∨ quest ∈ a.change.activated

theorem isActive_activate (s : ActivePoolData) (guid poolId quest : UInt64) :
    (s.activateObject .quest guid poolId).isActiveObject .quest quest = true ↔
      s.isActiveObject .quest quest = true ∨ quest = guid := by
  rw [activateObject, isActiveObject_increase (fun hKind => by cases hKind), isActiveObject_insert]
  exact or_congr_right (and_iff_right rfl)

variable (poolId picks) in
theorem activateOne_spec {start : List UInt64} {s : ActivePoolData} {a : Activation}
    (h : Activates start s a) (hNew : a.newQuests.entries ≠ []) :
    ∃ quest, Activates start s (activateOne poolId picks a) ∧
      (activateOne poolId picks a).change.activated = a.change.activated ++ [quest] ∧
      (activateOne poolId picks a).limit = a.limit - 1 ∧
      a.newQuests.entries.Perm (quest :: (activateOne poolId picks a).newQuests.entries) := by
  obtain ⟨quest, hPick⟩ := exists_selected hNew (picks a.drawn)
  have hPerm := KeyedSet.erase_perm (mem_of_selected hPick)
  refine ⟨quest, ?_⟩
  rw [activateOne, hPick]
  refine ⟨⟨?_, fun other => ?_⟩, rfl, rfl, hPerm⟩
  · rw [List.append_assoc, List.singleton_append]
    exact (hPerm.symm.append_left _).trans h.perm
  · rw [isActive_activate, h.active, List.mem_append, List.mem_singleton, or_assoc]

variable (poolId picks) in
theorem activate_spec {start : List UInt64} {s : ActivePoolData} {n : Nat} : ∀ {a : Activation},
    Activates start s a → a.newQuests.entries ≠ [] →
    Activates start s (activate poolId picks n a) ∧
      a.change.activated <+: (activate poolId picks n a).change.activated := by
  induction n with
  | zero => exact fun h _ => ⟨h, List.prefix_rfl⟩
  | succ n ih =>
    intro a h hNew
    obtain ⟨quest, hNext, hActivated, -, -⟩ :=
      activateOne_spec poolId picks h hNew
    have hPrefix : a.change.activated <+: (activateOne poolId picks a).change.activated :=
      ⟨[quest], hActivated.symm⟩
    rw [activate]
    split
    · rename_i hMore
      simp only [Bool.and_eq_true, Bool.not_eq_true', List.isEmpty_eq_false_iff] at hMore
      obtain ⟨hDone, hLonger⟩ := ih hNext hMore.2
      exact ⟨hDone, hPrefix.trans hLonger⟩
    · exact ⟨hNext, hPrefix⟩

variable (poolId picks) in
theorem activate_ne_nil {start : List UInt64} {s : ActivePoolData} {n : Nat} {a : Activation}
    (h : Activates start s a) (hNew : a.newQuests.entries ≠ []) :
    (activate poolId picks (n + 1) a).change.activated ≠ [] := by
  obtain ⟨quest, hNext, hActivated, -, -⟩ :=
    activateOne_spec poolId picks h hNew
  have hSome : (activateOne poolId picks a).change.activated ≠ [] := by
    rw [hActivated]
    exact List.concat_ne_nil _ _
  rw [activate]
  split
  · rename_i hMore
    simp only [Bool.and_eq_true, Bool.not_eq_true', List.isEmpty_eq_false_iff] at hMore
    intro hNil
    have hPrefix := (activate_spec poolId picks (n := n) hNext hMore.2).2
    rw [hNil] at hPrefix
    exact hSome (List.prefix_nil.mp hPrefix)
  · exact hSome

variable (poolId picks) in
theorem activate_limited {start : List UInt64} {s : ActivePoolData} {limit : Nat} {n : Nat} :
    ∀ {a : Activation}, Activates start s a → a.newQuests.entries.length ≤ n →
    a.newQuests.entries ≠ [] → a.limit ≠ 0 → a.change.activated.length + a.limit.toNat = limit →
    (activate poolId picks n a).change.activated.length ≤ limit ∧
      ((activate poolId picks n a).newQuests.entries = [] ∨
        (activate poolId picks n a).change.activated.length = limit) := by
  induction n with
  | zero =>
    intro a _ hLength hNew
    exact absurd (List.length_eq_zero_iff.mp (Nat.le_zero.mp hLength)) hNew
  | succ n ih =>
    intro a h hLength hNew hLimit hPlaces
    obtain ⟨quest, hNext, hActivated, hLess, hPerm⟩ :=
      activateOne_spec poolId picks h hNew
    have hOne : a.limit.toNat ≠ 0 := fun hZero => hLimit (UInt32.toNat_inj.mp hZero)
    have hCount : (activateOne poolId picks a).limit.toNat = a.limit.toNat - 1 := by
      have hLe : (1 : UInt32) ≤ a.limit :=
        UInt32.le_iff_toNat_le.mpr (show 1 ≤ a.limit.toNat from Nat.one_le_iff_ne_zero.mpr hOne)
      rw [hLess, UInt32.toNat_sub_of_le _ _ hLe]
      rfl
    have hTaken := hPerm.length_eq
    have hGrown := congrArg List.length hActivated
    rw [List.length_append, List.length_singleton] at hGrown
    rw [List.length_cons] at hTaken
    rw [activate]
    split
    · rename_i hMore
      simp only [Bool.and_eq_true, decide_eq_true_eq, Bool.not_eq_true',
        List.isEmpty_eq_false_iff] at hMore
      exact ih hNext (by omega) hMore.2 hMore.1 (by omega)
    · rename_i hEnd
      simp only [Bool.and_eq_true, decide_eq_true_eq, Bool.not_eq_true',
        List.isEmpty_eq_false_iff, not_and_or, not_not] at hEnd
      refine ⟨by omega, ?_⟩
      rcases hEnd with hZero | hEmpty
      · rw [hZero] at hCount
        have hNone : (0 : UInt32).toNat = 0 := rfl
        exact Or.inr (by omega)
      · exact Or.inl hEmpty

structure Activated (a : Activation) (c : QuestChange) : Prop where
  active : ∀ quest, c.spawns.isActiveObject .quest quest = true ↔
    a.change.spawns.isActiveObject .quest quest = true ∨ quest ∈ c.activated
  selected : c.activated ⊆ a.newQuests.entries
  started : c.activated ≠ []
  limited : a.limit ≠ 0 → c.activated.length ≤ a.limit.toNat
  exhausted : a.limit ≠ 0 → a.newQuests.entries.length ≤ a.limit.toNat →
    a.newQuests.entries ⊆ c.activated

theorem activated_of_empty {a : Activation} (hStart : a.change.activated = [])
    (hNew : a.newQuests.entries ≠ []) :
    Activated a (activate poolId picks a.newQuests.entries.length a).change := by
  have h : Activates a.newQuests.entries a.change.spawns a := by
    refine ⟨by rw [hStart, List.nil_append], fun quest => ?_⟩
    rw [hStart]
    exact (or_iff_left List.not_mem_nil).symm
  have hPlaces : a.change.activated.length + a.limit.toNat = a.limit.toNat := by
    rw [hStart]
    exact Nat.zero_add _
  have hDone := (activate_spec poolId picks (n := a.newQuests.entries.length) h hNew).1
  have hCount := fun hLimit => activate_limited poolId picks h le_rfl hNew hLimit hPlaces
  constructor
  · exact hDone.active
  · exact fun quest hMem => hDone.perm.mem_iff.mp (List.mem_append_left _ hMem)
  · obtain ⟨n, hLength⟩ := Nat.exists_eq_succ_of_ne_zero (mt List.length_eq_zero_iff.mp hNew)
    rw [hLength]
    exact activate_ne_nil poolId picks h hNew
  · exact fun hLimit => (hCount hLimit).1
  · intro hLimit hRoom quest hMem
    have hTotal := hDone.perm.length_eq
    rw [List.length_append] at hTotal
    rcases List.mem_append.mp (hDone.perm.mem_iff.mpr hMem) with hIn | hLeft
    · exact hIn
    · have hPositive := List.length_pos_of_mem hLeft
      rcases (hCount hLimit).2 with hNil | hFull
      · rw [hNil] at hLeft
        cases hLeft
      · omega

end Activating

/-!
## Updates of quest pools

After an update of a pool its activated quests should be members of it, within its
limit, and the quests of the other pools as before. Along every run this holds for all
random choices exactly if the updated pools suffice themselves: a pool without a limit
has all its quests active, and a pool with fewer inactive quests than its limit is the
only one with active quests.
-/

open Library Library.Transition Containers ActivePoolData PoolGroup

def activeQuests (spawns : ActivePoolData) (group : PoolGroup) : Nat :=
  group.guids.countP (spawns.isActiveObject .quest)

def inactiveQuests (spawns : ActivePoolData) (group : PoolGroup) : List UInt64 :=
  group.guids.filter fun quest => !spawns.isActiveObject .quest quest

structure Stays (Q : QuestPools) (p : UInt64) (spawns : ActivePoolData) (c : QuestChange) : Prop where
  members : ∀ quest ∈ c.activated, quest ∈ (Q.group p).guids
  limited : activeQuests c.spawns (Q.group p) ≤ (Q.maxLimit p).toNat
  others : ∀ q, q ≠ p → ∀ quest ∈ (Q.group q).guids,
    c.spawns.isActiveObject .quest quest = spawns.isActiveObject .quest quest

structure SelfSufficient (Q : QuestPools) (p : UInt64) (spawns : ActivePoolData) : Prop where
  unlimited : Q.maxLimit p = 0 → inactiveQuests spawns (Q.group p) = []
  recycled : (inactiveQuests spawns (Q.group p)).length < (Q.maxLimit p).toNat →
    ∀ quest ∈ spawns.activeQuests.entries, quest ∈ (Q.group p).guids

theorem mem_inactiveQuests {spawns : ActivePoolData} {group : PoolGroup} :
    quest ∈ inactiveQuests spawns group ↔
      quest ∈ group.guids ∧ spawns.isActiveObject .quest quest = false := by
  rw [inactiveQuests, List.mem_filter, Bool.not_eq_true']

theorem isActive_despawn (group : PoolGroup) (poolId : UInt64) (s : PoolRun) (quest : UInt64) :
    (group.despawnObject .quest poolId (fun _ s => s) 0 s).spawns.isActiveObject .quest quest = true ↔
      s.spawns.isActiveObject .quest quest = true ∧ quest ∉ group.guids := by
  rw [despawnObject]
  induction group.guids generalizing s with
  | nil => simp
  | cons object objects ih =>
    have hOne : (despawnOne .quest poolId (fun _ s => s) 0 s object).spawns.isActiveObject .quest
        quest = true ↔ s.spawns.isActiveObject .quest quest = true ∧ quest ≠ object := by
      rw [despawnOne]
      split
      · dsimp only
        rw [removeObject, isActiveObject_decrease (fun hKind => by cases hKind), isActiveObject_erase]
        exact and_congr_right fun _ => not_congr (and_iff_right rfl)
      · rename_i hNot
        refine (and_iff_left_of_imp ?_).symm
        rintro hActive rfl
        exact hNot (by simpa using hActive)
    rw [List.foldl_cons, ih, hOne, List.mem_cons, not_or, and_assoc]

/-- The quests that an update selects, before they are activated. -/
structure Selects (Q : QuestPools) (p : UInt64) (spawns : ActivePoolData) (r : Recycling) : Prop where
  nodup : r.newQuests.entries.Nodup
  source : ∀ quest ∈ r.newQuests.entries, quest ∈ inactiveQuests spawns (Q.group p) ∨
    quest ∈ spawns.activeQuests.entries ∧
      (inactiveQuests spawns (Q.group p)).length < (Q.maxLimit p).toNat
  inactive : inactiveQuests spawns (Q.group p) ⊆ r.newQuests.entries
  room : (inactiveQuests spawns (Q.group p)).length < (Q.maxLimit p).toNat →
    r.newQuests.entries.length ≤ (Q.maxLimit p).toNat

section Update

variable {Q : QuestPools} {p : UInt64} {spawns : ActivePoolData} {picks : Nat → Nat}

theorem guids_eq : (Q.group p).guids = (Q.group p).equalChanced.map (·.guid) := by
  rw [guids, Q.equal, List.map_nil, List.append_nil]

variable (Q p spawns) in
theorem newQuests_perm :
    (newQuests (Q.group p) spawns).entries.Perm (inactiveQuests spawns (Q.group p)) := by
  have hNodup := Q.nodup p
  rw [guids_eq] at hNodup
  rw [newQuests, inactiveQuests, guids_eq]
  exact foldl_emplace_perm _ hNodup

theorem nodup_start :
    ((newQuests (Q.group p) spawns).entries ++ spawns.activeQuests.entries).Nodup := by
  refine List.Nodup.append (nodup_entries _) (nodup_entries _) ?_
  intro quest hNew hActive
  have hInactive := (mem_inactiveQuests.mp ((newQuests_perm Q p spawns).mem_iff.mp hNew)).2
  rw [isActive_iff.mpr hActive] at hInactive
  cases hInactive

variable (Q p picks spawns) in
theorem selectQuests_spec :
    Selects Q p spawns (selectQuests (Q.group p) (Q.maxLimit p) picks spawns) := by
  have hNew := newQuests_perm Q p spawns
  rw [selectQuests]
  dsimp only
  split
  · rename_i hRecycle
    simp only [Bool.and_eq_true, decide_eq_true_eq, Bool.not_eq_true',
      List.isEmpty_eq_false_iff] at hRecycle
    obtain ⟨hFew, hSome⟩ := hRecycle
    obtain ⟨hPerm, hLimit, hKeep⟩ := recycle_spec picks spawns.activeQuests.entries.length
      (r := ⟨newQuests (Q.group p) spawns, _, 0⟩) nodup_start hFew hSome
    rw [hNew.length_eq] at hFew
    constructor
    · exact nodup_entries _
    · intro quest hMem
      have hStart := hPerm.mem_iff.mp (List.mem_append_left _ hMem)
      rcases List.mem_append.mp hStart with hInactive | hActive
      · exact Or.inl (hNew.mem_iff.mp hInactive)
      · exact Or.inr ⟨hActive, hFew⟩
    · exact fun quest hInactive => hKeep (hNew.mem_iff.mpr hInactive)
    · exact fun _ => hLimit
  · constructor
    · exact nodup_entries _
    · exact fun quest hMem => Or.inl (hNew.mem_iff.mp hMem)
    · exact fun quest hInactive => hNew.mem_iff.mpr hInactive
    · intro hFew
      rw [hNew.length_eq]
      exact hFew.le

theorem exists_recycled {quest : UInt64} (hActive : quest ∈ spawns.activeQuests.entries)
    (hFew : (inactiveQuests spawns (Q.group p)).length < (Q.maxLimit p).toNat) :
    ∃ picks, quest ∈
      (selectQuests (Q.group p) (Q.maxLimit p) picks spawns).newQuests.entries := by
  obtain ⟨index, hIndex⟩ := exists_index hActive
  refine ⟨fun _ => index, ?_⟩
  have hSome := List.ne_nil_of_mem hActive
  rw [selectQuests]
  dsimp only
  rw [if_pos (by simpa [(newQuests_perm Q p spawns).length_eq, hSome] using hFew)]
  obtain ⟨n, hLength⟩ := Nat.exists_eq_succ_of_ne_zero (mt List.length_eq_zero_iff.mp hSome)
  rw [hLength]
  exact mem_recycle nodup_start hIndex

structure Outcome (Q : QuestPools) (p : UInt64) (spawns : ActivePoolData) (chosen : List UInt64)
    (c : QuestChange) : Prop where
  active : ∀ quest, c.spawns.isActiveObject .quest quest = true ↔
    spawns.isActiveObject .quest quest = true ∧ quest ∉ (Q.group p).guids ∨ quest ∈ c.activated
  selected : c.activated ⊆ chosen
  started : chosen ≠ [] → c.activated ≠ []
  limited : Q.maxLimit p ≠ 0 → c.activated.length ≤ (Q.maxLimit p).toNat
  exhausted : Q.maxLimit p ≠ 0 → chosen.length ≤ (Q.maxLimit p).toNat → chosen ⊆ c.activated

theorem Outcome.of_activated {a : Activation} {c : QuestChange} (h : Activated a c)
    (hCleared : ∀ quest, a.change.spawns.isActiveObject .quest quest = true ↔
      spawns.isActiveObject .quest quest = true ∧ quest ∉ (Q.group p).guids)
    (hLimit : a.limit = Q.maxLimit p) : Outcome Q p spawns a.newQuests.entries c := by
  refine ⟨fun quest => ?_, h.selected, fun _ => h.started, hLimit ▸ h.limited, hLimit ▸ h.exhausted⟩
  rw [h.active, hCleared]

variable (picks spawns) in
theorem spawnPool_spec (hp : p ∈ Q.pools) : Outcome Q p spawns
    (selectQuests (Q.group p) (Q.maxLimit p) picks spawns).newQuests.entries
    (Q.spawnPool p picks spawns) := by
  rw [QuestPools.spawnPool, if_neg (by simp [Q.nonempty p hp]), QuestPools.spawnObject]
  split
  · rename_i hEmpty
    rw [List.isEmpty_iff.mp hEmpty]
    refine ⟨fun quest => ?_, fun _ => id, fun hNe => absurd rfl hNe, fun _ => Nat.zero_le _,
      fun _ _ _ => id⟩
    rw [isActive_despawn]
    exact (or_iff_left List.not_mem_nil).symm
  · rename_i hSome
    have hNew := mt List.isEmpty_iff.mpr hSome
    exact Outcome.of_activated (a := ⟨⟨_, []⟩, _, Q.maxLimit p, _⟩) (activated_of_empty rfl hNew)
      (isActive_despawn (Q.group p) p ⟨spawns, 0⟩) rfl

theorem Outcome.activeQuests_le {chosen : List UInt64} {c : QuestChange}
    (h : Outcome Q p spawns chosen c) : activeQuests c.spawns (Q.group p) ≤ c.activated.length := by
  rw [activeQuests, List.countP_eq_length_filter]
  refine (List.Nodup.subperm ((Q.nodup p).filter _) fun quest hMem => ?_).length_le
  obtain ⟨hGuid, hActive⟩ := List.mem_filter.mp hMem
  exact ((h.active quest).mp hActive).resolve_left fun hOld => hOld.2 hGuid

theorem stays_of_selfSufficient (hp : p ∈ Q.pools) (h : SelfSufficient Q p spawns) :
    Stays Q p spawns (Q.spawnPool p picks spawns) := by
  have hSelect := selectQuests_spec Q p spawns picks
  have hOutcome := spawnPool_spec spawns picks hp
  have hMembers : ∀ quest ∈ (Q.spawnPool p picks spawns).activated, quest ∈ (Q.group p).guids := by
    intro quest hMem
    rcases hSelect.source quest (hOutcome.selected hMem) with hInactive | ⟨hActive, hFew⟩
    · exact (mem_inactiveQuests.mp hInactive).1
    · exact h.recycled hFew quest hActive
  refine ⟨hMembers, ?_, ?_⟩
  · rcases eq_or_ne (Q.maxLimit p) 0 with hZero | hLimit
    · have hNone : (Q.spawnPool p picks spawns).activated = [] := by
        refine List.eq_nil_iff_forall_not_mem.mpr fun quest hMem => ?_
        have hInactive := h.unlimited hZero
        rcases hSelect.source quest (hOutcome.selected hMem) with hIn | ⟨-, hFew⟩
        · rw [hInactive] at hIn
          cases hIn
        · rw [hZero] at hFew
          exact Nat.not_lt_zero _ hFew
      refine hOutcome.activeQuests_le.trans ?_
      rw [hNone]
      exact Nat.zero_le _
    · exact hOutcome.activeQuests_le.trans (hOutcome.limited hLimit)
  · intro q hNe quest hGuid
    have hOut : quest ∉ (Q.group p).guids := fun hIn => hNe (Q.disjoint q p quest hGuid hIn)
    rw [Bool.eq_iff_iff, hOutcome.active]
    constructor
    · rintro (⟨hActive, -⟩ | hIn)
      · exact hActive
      · exact absurd (hMembers quest hIn) hOut
    · exact fun hActive => Or.inl ⟨hActive, hOut⟩

theorem selfSufficient_of_stays (hp : p ∈ Q.pools)
    (h : ∀ picks, Stays Q p spawns (Q.spawnPool p picks spawns)) : SelfSufficient Q p spawns := by
  constructor
  · intro hZero
    by_contra hSome
    have hSelect := selectQuests_spec Q p spawns id
    have hOutcome := spawnPool_spec spawns id hp
    have hNew : (selectQuests (Q.group p) (Q.maxLimit p) id spawns).newQuests.entries ≠ [] := by
      obtain ⟨quest, hMem⟩ := List.exists_mem_of_ne_nil _ hSome
      exact List.ne_nil_of_mem (hSelect.inactive hMem)
    obtain ⟨quest, hMem⟩ := List.exists_mem_of_ne_nil _ (hOutcome.started hNew)
    have hActive := (hOutcome.active quest).mpr (Or.inr hMem)
    have hLimited := (h id).limited
    rw [hZero, activeQuests] at hLimited
    have hNone := List.countP_eq_zero.mp (Nat.le_zero.mp hLimited)
    exact hNone quest ((h id).members quest hMem) hActive
  · intro hFew quest hActive
    obtain ⟨picks, hMem⟩ := exists_recycled hActive hFew
    have hSelect := selectQuests_spec Q p spawns picks
    have hLimit : Q.maxLimit p ≠ 0 := by
      intro hZero
      rw [hZero] at hFew
      exact Nat.not_lt_zero _ hFew
    have hOutcome := spawnPool_spec spawns picks hp
    exact (h picks).members quest (hOutcome.exhausted hLimit (hSelect.room hFew) hMem)

end Update

/-- Along every run of daily and weekly changes, all random choices keep the updates
within their pools exactly if for all choices the updated pools suffice themselves. -/
theorem updates_stay_iff (Q : QuestPools) (spawns : ActivePoolData) (changes : List Change) :
    (∀ updates : List Update, updates.map (·.poolId) = changes.flatMap Q.updated →
      Along Q.step (fun s u => Stays Q u.poolId s (Q.spawnPool u.poolId u.picks s)) spawns updates) ↔
    ∀ updates : List Update, updates.map (·.poolId) = changes.flatMap Q.updated →
      Along Q.step (fun s u => SelfSufficient Q u.poolId s) spawns updates := by
  have hPools : ∀ p ∈ changes.flatMap Q.updated, p ∈ Q.pools := by
    intro p hMem
    obtain ⟨change, -, hUpdated⟩ := List.mem_flatMap.mp hMem
    exact List.mem_of_mem_filter hUpdated
  constructor
  · refine along_choices (fun s p hp hAll u hu => ?_) hPools
    obtain rfl := hu
    exact selfSufficient_of_stays hp fun picks => hAll ⟨u.poolId, picks⟩ rfl
  · refine along_choices (fun s p hp hAll u hu => ?_) hPools
    obtain rfl := hu
    exact stays_of_selfSufficient hp (hAll u rfl)

def oneQuestGroup (p : UInt64) : PoolGroup :=
  if p = 1 then ⟨[], [⟨10⟩]⟩ else if p = 2 then ⟨[], [⟨20⟩]⟩ else .empty

theorem mem_oneQuestGroup {p : UInt64} :
    quest ∈ (oneQuestGroup p).guids ↔ p = 1 ∧ quest = 10 ∨ p = 2 ∧ quest = 20 := by
  rw [oneQuestGroup]
  split
  · rename_i h
    simp [h, guids]
  · split
    · rename_i h
      simp [h, guids]
    · simp_all [guids, PoolGroup.empty]

def twoPools : QuestPools where
  pools := [1, 2]
  maxLimit _ := 1
  group := oneQuestGroup
  getQuestTemplate quest := if quest = 10 ∨ quest = 20 then some ⟨true, false⟩ else none
  nonempty p h := by
    simp only [List.mem_cons, List.not_mem_nil, or_false] at h
    obtain rfl | rfl := h <;> rfl
  equal p := by
    rw [oneQuestGroup]
    split
    · rfl
    · split <;> rfl
  nodup p := by
    rw [oneQuestGroup]
    split
    · decide
    · split <;> decide
  disjoint p q quest hp hq := by
    rw [mem_oneQuestGroup] at hp hq
    grind

/-- The first pool has no other quest than its active one, and takes that of the second. -/
theorem recycles_other_pool : ¬ ∀ (Q : QuestPools) (spawns : ActivePoolData) (changes : List Change)
    (updates : List Update), updates.map (·.poolId) = changes.flatMap Q.updated →
      Along Q.step (fun s u => Stays Q u.poolId s (Q.spawnPool u.poolId u.picks s)) spawns updates := by
  intro h
  have hRun := h twoPools
    ((ActivePoolData.empty.activateObject .quest 10 1).activateObject .quest 20 2)
    [.changeDailyQuests] [⟨1, fun _ => 1⟩, ⟨2, fun _ => 0⟩] (by decide)
  have hMember := hRun.1.members 20 (by decide)
  exact absurd hMember (by decide)

end AshamaneCore.QuestPools
