import AshamaneCore.Library.KeyedSet
import Mathlib.Data.Nat.Init
import Mathlib.Logic.Function.Basic
import Mathlib.Order.Basic

/-!
# Active objects of pools

The sets of spawned objects are global, and every pool has one counter for all its
kinds. A pool is active when it has a counter. Pool identifiers are widened to the
width of spawn identifiers, and counters are exact.
-/

namespace AshamaneCore

open Library

inductive PoolKind
  | creature
  | gameObject
  | pool
  | quest
  deriving DecidableEq

abbrev ActivePoolObjects := KeyedSet UInt64.toNat

structure ActivePoolData where
  spawnedCreatures : ActivePoolObjects
  spawnedGameobjects : ActivePoolObjects
  activeQuests : ActivePoolObjects
  spawnedPools : UInt64 → Option Nat

namespace ActivePoolData

def empty : ActivePoolData := ⟨.empty, .empty, .empty, fun _ => none⟩

def getActiveObjectCount (s : ActivePoolData) (poolId : UInt64) : Nat :=
  (s.spawnedPools poolId).getD 0

def isActiveObject (s : ActivePoolData) : PoolKind → UInt64 → Bool
  | .creature, guid => s.spawnedCreatures.contains guid.toNat
  | .gameObject, guid => s.spawnedGameobjects.contains guid.toNat
  | .pool, guid => (s.spawnedPools guid).isSome
  | .quest, guid => s.activeQuests.contains guid.toNat

def increase (s : ActivePoolData) (poolId : UInt64) : ActivePoolData :=
  { s with
    spawnedPools :=
      Function.update s.spawnedPools poolId (some ((s.spawnedPools poolId).getD 0 + 1)) }

def decrease (s : ActivePoolData) (poolId : UInt64) : ActivePoolData :=
  { s with
    spawnedPools :=
      Function.update s.spawnedPools poolId (some ((s.spawnedPools poolId).getD 0 - 1)) }

def insert (s : ActivePoolData) : PoolKind → UInt64 → ActivePoolData
  | .creature, guid => { s with spawnedCreatures := s.spawnedCreatures.emplace guid }
  | .gameObject, guid => { s with spawnedGameobjects := s.spawnedGameobjects.emplace guid }
  | .pool, guid => { s with spawnedPools := Function.update s.spawnedPools guid (some 0) }
  | .quest, guid => { s with activeQuests := s.activeQuests.emplace guid }

def erase (s : ActivePoolData) : PoolKind → UInt64 → ActivePoolData
  | .creature, guid => { s with spawnedCreatures := s.spawnedCreatures.erase guid.toNat }
  | .gameObject, guid => { s with spawnedGameobjects := s.spawnedGameobjects.erase guid.toNat }
  | .pool, guid => { s with spawnedPools := Function.update s.spawnedPools guid none }
  | .quest, guid => { s with activeQuests := s.activeQuests.erase guid.toNat }

def activateObject (s : ActivePoolData) (kind : PoolKind) (guid poolId : UInt64) : ActivePoolData :=
  (s.insert kind guid).increase poolId

def removeObject (s : ActivePoolData) (kind : PoolKind) (guid poolId : UInt64) : ActivePoolData :=
  (s.erase kind guid).decrease poolId

/-! ## What is active -/

variable {s : ActivePoolData} {kind : PoolKind} {guid : UInt64}

theorem isActiveObject_increase {poolId : UInt64}
    (h : kind = .pool → guid = poolId → s.isActiveObject .pool poolId = true) :
    (s.increase poolId).isActiveObject kind guid = s.isActiveObject kind guid := by
  cases kind with
  | pool =>
    simp only [isActiveObject, increase, Function.update_apply]
    split
    · rename_i hEq
      rw [hEq]
      exact (h rfl hEq).symm
    · rfl
  | creature => rfl
  | gameObject => rfl
  | quest => rfl

theorem isActiveObject_decrease {poolId : UInt64}
    (h : kind = .pool → guid = poolId → s.isActiveObject .pool poolId = true) :
    (s.decrease poolId).isActiveObject kind guid = s.isActiveObject kind guid := by
  cases kind with
  | pool =>
    simp only [isActiveObject, decrease, Function.update_apply]
    split
    · rename_i hEq
      rw [hEq]
      exact (h rfl hEq).symm
    · rfl
  | creature => rfl
  | gameObject => rfl
  | quest => rfl

theorem isActiveObject_insert (s : ActivePoolData) (kind other : PoolKind) (guid g : UInt64) :
    (s.insert kind guid).isActiveObject other g = true ↔
      s.isActiveObject other g = true ∨ other = kind ∧ g = guid := by
  cases kind <;> cases other <;>
    simp only [insert, isActiveObject, KeyedSet.contains_emplace_iff, UInt64.toNat_inj,
      Function.update_apply, eq_comm (a := guid), reduceCtorEq, false_and, or_false, true_and]
  split <;> simp [*]

theorem isActiveObject_erase (s : ActivePoolData) (kind other : PoolKind) (guid g : UInt64) :
    (s.erase kind guid).isActiveObject other g = true ↔
      s.isActiveObject other g = true ∧ ¬ (other = kind ∧ g = guid) := by
  cases kind <;> cases other <;>
    simp only [erase, isActiveObject, KeyedSet.contains_erase_iff, UInt64.toNat_inj, Ne,
      Function.update_apply, reduceCtorEq, false_and, not_false_eq_true, and_true, true_and]
  split <;> simp [*]

/-! ## Counters -/

theorem getActiveObjectCount_increase (s : ActivePoolData) (poolId q : UInt64) :
    (s.increase poolId).getActiveObjectCount q =
      s.getActiveObjectCount q + if q = poolId then 1 else 0 := by
  simp only [getActiveObjectCount, increase, Function.update_apply]
  split
  · rename_i hEq
    rw [hEq]
    rfl
  · rw [add_zero]

theorem getActiveObjectCount_decrease (s : ActivePoolData) (poolId q : UInt64) :
    (s.decrease poolId).getActiveObjectCount q =
      s.getActiveObjectCount q - if q = poolId then 1 else 0 := by
  simp only [getActiveObjectCount, decrease, Function.update_apply]
  split
  · rename_i hEq
    rw [hEq]
    rfl
  · rw [Nat.sub_zero]

theorem getActiveObjectCount_insert {q : UInt64}
    (h : kind = .pool → s.getActiveObjectCount guid = 0) :
    (s.insert kind guid).getActiveObjectCount q = s.getActiveObjectCount q := by
  cases kind with
  | pool =>
    simp only [getActiveObjectCount, insert, Function.update_apply]
    split
    · rename_i hEq
      rw [hEq]
      exact (h rfl).symm
    · rfl
  | creature => rfl
  | gameObject => rfl
  | quest => rfl

theorem getActiveObjectCount_erase {q : UInt64}
    (h : kind = .pool → s.getActiveObjectCount guid = 0) :
    (s.erase kind guid).getActiveObjectCount q = s.getActiveObjectCount q := by
  cases kind with
  | pool =>
    simp only [getActiveObjectCount, erase, Function.update_apply]
    split
    · rename_i hEq
      rw [hEq]
      exact (h rfl).symm
    · rfl
  | creature => rfl
  | gameObject => rfl
  | quest => rfl

end ActivePoolData

/-!
## Groups of a pool

A pool has one group of objects for every kind. The random numbers are given: of
a roll, behind which explicitly chanced objects it is below zero, and an index for
the equally chanced ones, from a given sequence. Spawning and despawning an object
are given as well.
-/

structure PoolObject where
  guid : UInt64
  deriving DecidableEq

structure PoolGroup where
  explicitlyChanced : List PoolObject
  equalChanced : List PoolObject
  deriving DecidableEq

structure Roll where
  below : Nat → Bool
  index : Nat

/-- The data of the pools at work, and how many rolls were drawn. -/
structure PoolRun where
  spawns : ActivePoolData
  drawn : Nat

namespace PoolGroup

def empty : PoolGroup := ⟨[], []⟩

def isEmpty (group : PoolGroup) : Bool :=
  group.explicitlyChanced.isEmpty && group.equalChanced.isEmpty

def guids (group : PoolGroup) : List UInt64 :=
  group.equalChanced.map (·.guid) ++ group.explicitlyChanced.map (·.guid)

/-- The triggering object is marked as spawned and can be rolled too. -/
def canRoll (kind : PoolKind) (spawns : ActivePoolData) (triggerFrom : UInt64) (obj : PoolObject) :
    Bool :=
  obj.guid = triggerFrom || !spawns.isActiveObject kind obj.guid

def rollOne (group : PoolGroup) (kind : PoolKind) (spawns : ActivePoolData) (triggerFrom : UInt64)
    (roll : Roll) : Option PoolObject :=
  match group.explicitlyChanced.zipIdx.find? fun o =>
      roll.below o.2 && canRoll kind spawns triggerFrom o.1 with
  | some o => some o.1
  | none =>
    match group.equalChanced[roll.index % group.equalChanced.length]? with
    | some obj => if canRoll kind spawns triggerFrom obj then some obj else none
    | none => none

section Work

variable (kind : PoolKind) (poolId : UInt64)
  (spawn1Object despawn1Object : UInt64 → PoolRun → PoolRun)

/-- An object is despawned if it is active and meant. The identifier zero means all. -/
def despawnOne (guid : UInt64) (s : PoolRun) (object : UInt64) : PoolRun :=
  if s.spawns.isActiveObject kind object && (guid = 0 || object = guid) then
    let s := despawn1Object object s
    { s with spawns := s.spawns.removeObject kind object poolId }
  else s

def despawnObject (group : PoolGroup) (guid : UInt64) (s : PoolRun) : PoolRun :=
  group.guids.foldl (despawnOne kind poolId despawn1Object guid) s

structure SpawnLoop where
  run : PoolRun
  triggerFrom : UInt64
  lastDespawned : UInt32

variable (rolls : Nat → Roll)

def spawnRound (group : PoolGroup) (l : SpawnLoop) : SpawnLoop :=
  let s := { l.run with drawn := l.run.drawn + 1 }
  match group.rollOne kind s.spawns l.triggerFrom (rolls l.run.drawn) with
  | none => { l with run := s }
  | some obj =>
    if obj.guid = l.lastDespawned.toUInt64 then { l with run := s }
    else if obj.guid = l.triggerFrom then { l with run := s, triggerFrom := 0 }
    else
      let s := { s with spawns := s.spawns.activateObject kind obj.guid poolId }
      let s := spawn1Object obj.guid s
      if l.triggerFrom ≠ 0 then
        ⟨despawnObject kind poolId despawn1Object group l.triggerFrom s, 0, l.triggerFrom.toUInt32⟩
      else { l with run := s }

/-- The free places as the signed number the loop runs to, one more for a triggering object. -/
def freePlaces (limit : UInt32) (spawns : ActivePoolData) (triggerFrom : UInt64) : Int :=
  ((limit.toNat : Int) - spawns.getActiveObjectCount poolId).bmod (2 ^ 32) +
    if triggerFrom ≠ 0 then 1 else 0

def spawnObject (group : PoolGroup) (limit : UInt32) (triggerFrom : UInt64) (s : PoolRun) : PoolRun :=
  ((spawnRound kind poolId spawn1Object despawn1Object rolls group)^[
    (freePlaces poolId limit s.spawns triggerFrom).toNat] ⟨s, triggerFrom, 0⟩).run

end Work

/-! ## What a roll finds -/

theorem mem_guids_of_mem {group : PoolGroup} {obj : PoolObject}
    (h : obj ∈ group.explicitlyChanced ∨ obj ∈ group.equalChanced) : obj.guid ∈ group.guids := by
  rw [guids, List.mem_append]
  rcases h with hExplicit | hEqual
  · exact Or.inr (List.mem_map_of_mem hExplicit)
  · exact Or.inl (List.mem_map_of_mem hEqual)

theorem rollOne_spec {group : PoolGroup} {kind : PoolKind} {spawns : ActivePoolData}
    {triggerFrom : UInt64} {roll : Roll} {obj : PoolObject}
    (h : group.rollOne kind spawns triggerFrom roll = some obj) :
    obj.guid ∈ group.guids ∧
      (obj.guid = triggerFrom ∨ spawns.isActiveObject kind obj.guid = false) := by
  have hCan : ∀ o, canRoll kind spawns triggerFrom o = true →
      o.guid = triggerFrom ∨ spawns.isActiveObject kind o.guid = false := by
    intro o ho
    simpa [canRoll] using ho
  rw [rollOne] at h
  split at h
  · rename_i o hFind
    obtain rfl := Option.some.inj h
    have hRolled := List.find?_some hFind
    rw [Bool.and_eq_true] at hRolled
    have hMem : o.1 ∈ group.explicitlyChanced := by
      have hZip := List.mem_of_find?_eq_some hFind
      exact List.fst_mem_of_mem_zipIdx hZip
    exact ⟨mem_guids_of_mem (Or.inl hMem), hCan o.1 hRolled.2⟩
  · split at h
    · rename_i o hGet
      split at h
      · rename_i hRoll
        obtain rfl := Option.some.inj h
        exact ⟨mem_guids_of_mem (Or.inr (List.mem_of_getElem? hGet)), hCan _ hRoll⟩
      · cases h
    · cases h

end PoolGroup

end AshamaneCore
