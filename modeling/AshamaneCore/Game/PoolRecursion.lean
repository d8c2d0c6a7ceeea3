import AshamaneCore.Game.PoolLoading

/-!
# The recursion over loaded pools

Spawning a pool spawns its rolled child pools, and despawning a pool despawns its
active ones. The recursion is followed down to a depth, and what happens below is
given: a recursion that ends does not depend on it. What the quests of a pool do is
given, as they are no pools.
-/

namespace AshamaneCore

open Library LinkCycles PoolGroup

structure PoolTables where
  maxLimit : UInt64 → UInt32
  group : PoolKind → UInt64 → PoolGroup
  spawnQuests : UInt64 → PoolRun → PoolRun
  despawnQuests : UInt64 → PoolRun → PoolRun
  rolls : Nat → Roll

namespace PoolTables

variable (T : PoolTables)

def despawnGroup (despawn : UInt64 → PoolRun → PoolRun) (poolId : UInt64) (kind : PoolKind)
    (s : PoolRun) : PoolRun :=
  if (T.group kind poolId).isEmpty then s
  else despawnObject kind poolId (PoolMgr.perPool despawn kind) (T.group kind poolId) 0 s

def spawnGroup (spawn despawn : UInt64 → PoolRun → PoolRun) (poolId : UInt64) (kind : PoolKind)
    (s : PoolRun) : PoolRun :=
  if (T.group kind poolId).isEmpty then s
  else spawnObject kind poolId (PoolMgr.perPool spawn kind) (PoolMgr.perPool despawn kind) T.rolls
    (T.group kind poolId) (T.maxLimit poolId) 0 s

section Depth

variable (spawnBelow despawnBelow : UInt64 → PoolRun → PoolRun)

def despawnPool : Nat → UInt64 → PoolRun → PoolRun
  | 0, poolId, s => despawnBelow poolId s
  | depth + 1, poolId, s =>
    let group := T.despawnGroup (despawnPool depth) poolId
    T.despawnQuests poolId (group .pool (group .gameObject (group .creature s)))

def spawnPool : Nat → UInt64 → PoolRun → PoolRun
  | 0, poolId, s => spawnBelow poolId s
  | depth + 1, poolId, s =>
    let group := T.spawnGroup (spawnPool depth) (T.despawnPool despawnBelow depth) poolId
    T.spawnQuests poolId (group .creature (group .gameObject (group .pool s)))

end Depth

/-- From some depth on, the recursion from a pool is the same at any depth and with anything below. -/
def Ends (poolId : UInt64) : Prop :=
  ∃ depth, ∀ n m, depth ≤ n → depth ≤ m → ∀ f g f' g' : UInt64 → PoolRun → PoolRun,
    T.spawnPool f g n poolId = T.spawnPool f' g' m poolId ∧
      T.despawnPool g n poolId = T.despawnPool g' m poolId

variable {T}

theorem despawnGroup_congr {f g : UInt64 → PoolRun → PoolRun} {poolId : UInt64}
    (h : ∀ child ∈ (T.group .pool poolId).guids, f child = g child) :
    T.despawnGroup f poolId = T.despawnGroup g poolId := by
  funext kind s
  have hObject := PoolMgr.despawnObject_congr (G := fun kind => T.group kind poolId) h poolId kind 0 s
  rw [despawnGroup, despawnGroup, hObject]

theorem spawnGroup_congr {f g f' g' : UInt64 → PoolRun → PoolRun} {poolId : UInt64}
    (hSpawn : ∀ child ∈ (T.group .pool poolId).guids, f child = f' child)
    (hDespawn : ∀ child ∈ (T.group .pool poolId).guids, g child = g' child) :
    T.spawnGroup f g poolId = T.spawnGroup f' g' poolId := by
  funext kind s
  have hRound := @PoolMgr.spawnRound_congr T.rolls (fun kind => T.group kind poolId) f g f' g'
    hSpawn hDespawn
  rw [spawnGroup, spawnGroup, spawnObject, spawnObject, hRound]

section Rank

variable {rank : UInt64 → Nat}
  (hRank : ∀ p, ∀ child ∈ (T.group .pool p).guids, rank child < rank p)

include hRank

theorem despawnPool_congr (g g' : UInt64 → PoolRun → PoolRun) {n m : Nat} {poolId : UInt64} :
    rank poolId < n → rank poolId < m → T.despawnPool g n poolId = T.despawnPool g' m poolId := by
  refine Library.BoundedRecursion.eq_of_rank hRank fun n m poolId hChild => ?_
  funext s
  rw [despawnPool, despawnPool, despawnGroup_congr fun child hMem => (hChild child hMem).2.2]

theorem spawnPool_congr (f g f' g' : UInt64 → PoolRun → PoolRun) {n m : Nat} {poolId : UInt64} :
    rank poolId < n → rank poolId < m → T.spawnPool f g n poolId = T.spawnPool f' g' m poolId := by
  refine Library.BoundedRecursion.eq_of_rank hRank fun n m poolId hChild => ?_
  have hSpawn := fun child hMem => (hChild child hMem).2.2
  have hDespawn := fun child hMem => despawnPool_congr hRank g g' (hChild child hMem).1 (hChild child hMem).2.1
  funext s
  rw [spawnPool, spawnPool, spawnGroup_congr hSpawn hDespawn]

theorem ends_of_rank (poolId : UInt64) : T.Ends poolId := by
  refine ⟨rank poolId + 1, fun n m hn hm f g f' g' => ⟨?_, ?_⟩⟩
  · exact spawnPool_congr hRank f g f' g' hn hm
  · exact despawnPool_congr hRank g g' hn hm

end Rank

end PoolTables

/-! ## Forests -/

section Forest

variable {F : PoolForest} {rolls : Nat → Roll}

end Forest

/-! ## Loaded pools -/

namespace LoadedPools

theorem checked_loadPools (templates : List PoolTemplateData) {rows : List PoolPoolRow}
    (h : (rows.map (·.poolId)).Nodup) :
    ∃ checked, Checked (motherOf (loadRows templates rows).searchMap) checked
      (loadPools templates rows) ∧ ∀ template ∈ templates, template.entry.toUInt64 ∈ checked := by
  have hStart : Checked (motherOf (loadRows templates rows).searchMap) [] (loadRows templates rows) :=
    ⟨(loaded_loadRows templates h).listed, Broken.refl _, fun _ hp => absurd hp List.not_mem_nil⟩
  obtain ⟨checked, hChecked, -, hAll⟩ := hStart.removeCircles templates
  exact ⟨checked, hChecked, hAll⟩

theorem acyclic_loadPools (templates : List PoolTemplateData) {rows : List PoolPoolRow}
    (h : (rows.map (·.poolId)).Nodup) : Acyclic (motherOf (loadPools templates rows).searchMap) := by
  obtain ⟨checked, hChecked, hAll⟩ := checked_loadPools templates h
  intro a hCycle
  obtain ⟨mother, hLink⟩ := hCycle.exists_link
  obtain ⟨row, -, hRow, rfl, -⟩ :=
    ((loaded_loadRows templates h).mother_iff a mother).mp (hChecked.broken.within a mother hLink)
  obtain ⟨template, hFind⟩ := Option.ne_none_iff_exists'.mp hRow.2.1
  have hEntry : template.entry = row.poolId := by simpa using List.find?_some hFind
  have hClear := hChecked.clear _ (hAll template (List.mem_of_find?_eq_some hFind))
  rw [hEntry] at hClear
  exact hClear row.poolId.toUInt64 Relation.ReflTransGen.refl hCycle

theorem exists_rank {s : LoadedPools} (hListed : Listed s) (hAcyclic : Acyclic (motherOf s.searchMap)) :
    ∃ rank : UInt64 → Nat, ∀ p, ∀ child ∈ (s.group p).guids, rank child < rank p := by
  have : Finite UInt64 := Finite.of_injective UInt64.toFin fun _ _ h =>
    UInt64.toNat_inj.mp (congrArg Fin.val h)
  obtain ⟨rank, hRank⟩ := hAcyclic.exists_rank
  exact ⟨rank, fun p child hMem => hRank child p ((hListed.mem_iff p child).mp hMem)⟩

/-- Loading leaves a forest: one link of every circle of the table is gone, and nothing else. -/
theorem loadPools_forest (templates : List PoolTemplateData) (rows : List PoolPoolRow)
    (h : (rows.map (·.poolId)).Nodup) :
    let orig := motherOf (loadRows templates rows).searchMap
    let s := loadPools templates rows
    let final := motherOf s.searchMap
    (∀ child mother, orig child = some mother ↔
      ∃ row ∈ rows, Accepted templates row ∧ row.poolId.toUInt64 = child ∧
        row.motherPool.toUInt64 = mother) ∧
    Acyclic final ∧
    Within final orig ∧
    (∀ a, orig a ≠ none → final a = none → OnCycle orig a) ∧
    (∀ a, OnCycle orig a → ∃! b, Reaches orig a b ∧ final b = none) ∧
    (∀ p, (s.group p).guids.Nodup ∧ ∀ child, child ∈ (s.group p).guids ↔ final child = some p) ∧
    ∀ T : PoolTables, T.group .pool = s.group →
      (WellFounded fun child p => child ∈ (T.group .pool p).guids) ∧ ∀ p, T.Ends p := by
  obtain ⟨checked, hChecked, -⟩ := checked_loadPools templates h
  have hAcyclic := acyclic_loadPools templates h
  have hListed := hChecked.listed
  have hBroken := hChecked.broken
  refine ⟨(loaded_loadRows templates h).mother_iff, hAcyclic, hBroken.within, hBroken.onCycle,
    fun a hCycle => hBroken.existsUnique hAcyclic hCycle,
    fun p => ⟨hListed.nodup p, hListed.mem_iff p⟩, fun T hGroup => ?_⟩
  obtain ⟨rank, hRank⟩ := exists_rank hListed hAcyclic
  have hLower : ∀ p, ∀ child ∈ (T.group .pool p).guids, rank child < rank p := by
    rw [hGroup]
    exact hRank
  constructor
  · exact Subrelation.wf (fun hMem => hLower _ _ hMem) (measure rank).wf
  · exact fun p => PoolTables.ends_of_rank hLower p

/-- Two pools in a circle and one below them. -/
theorem loadPools_forest_circle :
    let s := loadPools [⟨1, 1⟩, ⟨2, 1⟩, ⟨3, 1⟩] [⟨1, 2, 0⟩, ⟨2, 1, 50⟩, ⟨3, 1, 0⟩]
    Acyclic (motherOf s.searchMap) ∧
      ∀ T : PoolTables, T.group .pool = s.group → ∀ p, T.Ends p := by
  have hForest := loadPools_forest [⟨1, 1⟩, ⟨2, 1⟩, ⟨3, 1⟩] [⟨1, 2, 0⟩, ⟨2, 1, 50⟩, ⟨3, 1, 0⟩] (by decide)
  exact ⟨hForest.2.1, fun T hGroup => (hForest.2.2.2.2.2.2 T hGroup).2⟩

end LoadedPools

end AshamaneCore
