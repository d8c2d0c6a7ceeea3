import AshamaneCore.Game.PoolGroup
import AshamaneCore.Library.BoundedRecursion

/-!
# Pools of pools

Loaded pools form a forest: the keys of the tables put every object into one pool,
and the circular references are removed while loading, so every pool has a rank
above its children. Spawning and despawning descend along the ranks. Pools of
quests are not among them.
-/

namespace AshamaneCore

open PoolGroup

structure PoolForest where
  maxLimit : UInt64 → UInt32
  group : PoolKind → UInt64 → PoolGroup
  searchMap : UInt64 → Option UInt64
  rank : UInt64 → Nat
  nodup : ∀ kind p, (group kind p).guids.Nodup
  disjoint : ∀ kind p q guid, guid ∈ (group kind p).guids → guid ∈ (group kind q).guids → p = q
  mother_iff : ∀ p child, searchMap child = some p ↔ child ∈ (group .pool p).guids
  rank_lt : ∀ p child, child ∈ (group .pool p).guids → rank child < rank p
  noQuests : ∀ p, group .quest p = .empty

namespace PoolMgr

variable (F : PoolForest) (rolls : Nat → Roll)

def isPartOfAPool (poolId : UInt64) : UInt64 := (F.searchMap poolId).getD 0

/-- What is done to one object: creatures and gameobjects are not pools. -/
def perPool (f : UInt64 → PoolRun → PoolRun) : PoolKind → UInt64 → PoolRun → PoolRun
  | .pool => f
  | _ => fun _ s => s

def despawnGroup (despawn : UInt64 → PoolRun → PoolRun) (poolId : UInt64) (kind : PoolKind)
    (s : PoolRun) : PoolRun :=
  if (F.group kind poolId).isEmpty then s
  else despawnObject kind poolId (perPool despawn kind) (F.group kind poolId) 0 s

def spawnGroup (spawn despawn : UInt64 → PoolRun → PoolRun) (poolId : UInt64) (kind : PoolKind)
    (triggerFrom : UInt64) (s : PoolRun) : PoolRun :=
  if (F.group kind poolId).isEmpty then s
  else spawnObject kind poolId (perPool spawn kind) (perPool despawn kind) rolls
    (F.group kind poolId) (F.maxLimit poolId) triggerFrom s

/-- The recursion is limited, and the limit is above the rank of the pool. -/
def despawnPoolIn : Nat → UInt64 → PoolRun → PoolRun
  | 0, _, s => s
  | n + 1, poolId, s =>
    let group := despawnGroup F (despawnPoolIn n) poolId
    group .pool (group .gameObject (group .creature s))

def spawnPoolIn : Nat → UInt64 → PoolRun → PoolRun
  | 0, _, s => s
  | n + 1, poolId, s =>
    let group kind := spawnGroup F rolls (spawnPoolIn n) (despawnPoolIn F n) poolId kind 0
    group .creature (group .gameObject (group .pool s))

def despawnPool (poolId : UInt64) : PoolRun → PoolRun := despawnPoolIn F (F.rank poolId + 1) poolId

def spawnPool (poolId : UInt64) : PoolRun → PoolRun := spawnPoolIn F rolls (F.rank poolId + 1) poolId

/-- One kind of a pool is spawned, maybe triggered from an object. -/
def spawnPoolOf (kind : PoolKind) (poolId triggerFrom : UInt64) : PoolRun → PoolRun :=
  spawnGroup F rolls (spawnPool F rolls) (despawnPool F) poolId kind triggerFrom

def updatePool (kind : PoolKind) (poolId guid : UInt64) : PoolRun → PoolRun :=
  let motherPoolId := isPartOfAPool F poolId
  if motherPoolId ≠ 0 then spawnPoolOf F rolls .pool motherPoolId poolId
  else spawnPoolOf F rolls kind poolId guid

/-! ## The limit of the recursion -/

theorem foldl_congr_mem {σ α : Type} {f g : σ → α → σ} {l : List α}
    (h : ∀ s, ∀ a ∈ l, f s a = g s a) (s : σ) : l.foldl f s = l.foldl g s :=
  List.foldl_ext f g s fun s a ha => h s a ha

variable {F} {rolls}

section Groups

variable {G : PoolKind → PoolGroup} {f g f' g' : UInt64 → PoolRun → PoolRun}

theorem perPool_congr (h : ∀ child ∈ (G .pool).guids, f child = g child) {kind : PoolKind}
    {object : UInt64} (hObject : object ∈ (G kind).guids) :
    perPool f kind object = perPool g kind object := by
  cases kind with
  | pool => exact h object hObject
  | creature => rfl
  | gameObject => rfl
  | quest => rfl

theorem despawnObject_congr (h : ∀ child ∈ (G .pool).guids, f child = g child) (poolId : UInt64)
    (kind : PoolKind) (guid : UInt64) (s : PoolRun) :
    despawnObject kind poolId (perPool f kind) (G kind) guid s =
      despawnObject kind poolId (perPool g kind) (G kind) guid s := by
  refine foldl_congr_mem (fun s object hObject => ?_) s
  rw [despawnOne, despawnOne, perPool_congr h hObject]

theorem spawnRound_congr (hSpawn : ∀ child ∈ (G .pool).guids, f child = f' child)
    (hDespawn : ∀ child ∈ (G .pool).guids, g child = g' child) (poolId : UInt64) (kind : PoolKind) :
    spawnRound kind poolId (perPool f kind) (perPool g kind) rolls (G kind) =
      spawnRound kind poolId (perPool f' kind) (perPool g' kind) rolls (G kind) := by
  funext l
  rw [spawnRound, spawnRound]
  dsimp only
  split
  · rfl
  · rename_i obj hRoll
    rw [perPool_congr hSpawn (rollOne_spec hRoll).1, despawnObject_congr hDespawn]

end Groups

theorem despawnGroup_congr {f g : UInt64 → PoolRun → PoolRun} {poolId : UInt64}
    (h : ∀ child ∈ (F.group .pool poolId).guids, f child = g child) :
    despawnGroup F f poolId = despawnGroup F g poolId := by
  funext kind s
  have hObject := despawnObject_congr (G := fun kind => F.group kind poolId) h poolId kind 0 s
  rw [despawnGroup, despawnGroup, hObject]

theorem spawnGroup_congr {f g f' g' : UInt64 → PoolRun → PoolRun} {poolId : UInt64}
    (hSpawn : ∀ child ∈ (F.group .pool poolId).guids, f child = f' child)
    (hDespawn : ∀ child ∈ (F.group .pool poolId).guids, g child = g' child) :
    spawnGroup F rolls f g poolId = spawnGroup F rolls f' g' poolId := by
  funext kind triggerFrom s
  have hRound := @spawnRound_congr rolls (fun kind => F.group kind poolId) f g f' g' hSpawn hDespawn
  rw [spawnGroup, spawnGroup, spawnObject, spawnObject, hRound]

theorem despawnPoolIn_congr {n m : Nat} {poolId : UInt64} :
    F.rank poolId < n → F.rank poolId < m → despawnPoolIn F n poolId = despawnPoolIn F m poolId := by
  refine Library.BoundedRecursion.eq_of_rank F.rank_lt fun n m poolId hChild => ?_
  funext s
  rw [despawnPoolIn, despawnPoolIn, despawnGroup_congr fun child hMem => (hChild child hMem).2.2]

theorem spawnPoolIn_congr {n m : Nat} {poolId : UInt64} :
    F.rank poolId < n → F.rank poolId < m → spawnPoolIn F rolls n poolId = spawnPoolIn F rolls m poolId := by
  refine Library.BoundedRecursion.eq_of_rank F.rank_lt fun n m poolId hChild => ?_
  have hSpawn := fun child hMem => (hChild child hMem).2.2
  have hDespawn := fun child hMem => despawnPoolIn_congr (hChild child hMem).1 (hChild child hMem).2.1
  funext s
  rw [spawnPoolIn, spawnPoolIn, spawnGroup_congr hSpawn hDespawn]

theorem despawnPool_eq (poolId : UInt64) (s : PoolRun) : despawnPool F poolId s =
    despawnGroup F (despawnPool F) poolId .pool
      (despawnGroup F (despawnPool F) poolId .gameObject
        (despawnGroup F (despawnPool F) poolId .creature s)) := by
  have hGroup : despawnGroup F (despawnPoolIn F (F.rank poolId)) poolId =
      despawnGroup F (despawnPool F) poolId :=
    despawnGroup_congr fun child hMem =>
      despawnPoolIn_congr (F.rank_lt poolId child hMem) (Nat.lt_succ_self _)
  rw [despawnPool, despawnPoolIn, hGroup]

theorem spawnPool_eq (poolId : UInt64) (s : PoolRun) : spawnPool F rolls poolId s =
    spawnPoolOf F rolls .creature poolId 0
      (spawnPoolOf F rolls .gameObject poolId 0 (spawnPoolOf F rolls .pool poolId 0 s)) := by
  have hGroup : spawnGroup F rolls (spawnPoolIn F rolls (F.rank poolId))
      (despawnPoolIn F (F.rank poolId)) poolId =
        spawnGroup F rolls (spawnPool F rolls) (despawnPool F) poolId := by
    apply spawnGroup_congr
    · exact fun child hMem => spawnPoolIn_congr (F.rank_lt poolId child hMem) (Nat.lt_succ_self _)
    · exact fun child hMem => despawnPoolIn_congr (F.rank_lt poolId child hMem) (Nat.lt_succ_self _)
  rw [spawnPool, spawnPoolIn, hGroup]
  rfl

end PoolMgr

end AshamaneCore
