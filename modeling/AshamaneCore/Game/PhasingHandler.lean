import AshamaneCore.Game.PhaseShift
import Mathlib.Logic.Function.Basic

/-!
# Terrain swaps

What the object manager loads about terrain swaps: every swap map has one record,
and the maps that swap by default point to the records. A pointer is the
identifier of the record it points to.
-/

namespace AshamaneCore

structure MapEntry where
  id : UInt32
  parentMapID : Int
  deriving DecidableEq

structure TerrainWorldMapRow where
  terrainSwapMap : UInt32
  worldMapArea : UInt32
  deriving DecidableEq

structure TerrainSwapDefaultRow where
  mapId : UInt32
  terrainSwapMap : UInt32
  deriving DecidableEq

/-- The data loaded from. The key of a world map row is the whole row. -/
structure TerrainTables where
  mapStore : List MapEntry
  worldMapAreaStore : List UInt32
  terrainWorldMap : List TerrainWorldMapRow
  terrainWorldMap_nodup : terrainWorldMap.Nodup
  terrainSwapDefaults : List TerrainSwapDefaultRow

def TerrainTables.hasMap (tables : TerrainTables) (mapId : UInt32) : Bool :=
  tables.mapStore.any fun map => map.id = mapId

structure TerrainSwaps where
  terrainSwapInfoById : UInt32 → Option TerrainSwapInfo
  terrainSwapInfoByMap : UInt32 → Option (List UInt32)

namespace TerrainSwaps

def empty : TerrainSwaps := ⟨fun _ => none, fun _ => none⟩

def record (s : TerrainSwaps) (id : UInt32) : TerrainSwapInfo :=
  { (s.terrainSwapInfoById id).getD ⟨0, []⟩ with id := id }

def put (s : TerrainSwaps) (info : TerrainSwapInfo) : TerrainSwaps :=
  { s with terrainSwapInfoById := Function.update s.terrainSwapInfoById info.id (some info) }

def emplaceMap (s : TerrainSwaps) (map : MapEntry) : TerrainSwaps :=
  if map.parentMapID ≠ -1 ∧ (s.terrainSwapInfoById map.id).isNone then s.put ⟨map.id, []⟩ else s

def loadTerrainWorldMap (tables : TerrainTables) (s : TerrainSwaps) (row : TerrainWorldMapRow) :
    TerrainSwaps :=
  if !tables.hasMap row.terrainSwapMap then s
  else if row.worldMapArea ∉ tables.worldMapAreaStore then s
  else
    let info := s.record row.terrainSwapMap
    s.put { info with uiWorldMapAreaIDSwaps := info.uiWorldMapAreaIDSwaps ++ [row.worldMapArea] }

def loadTerrainSwapDefault (tables : TerrainTables) (s : TerrainSwaps)
    (row : TerrainSwapDefaultRow) : TerrainSwaps :=
  if !tables.hasMap row.mapId then s
  else if !tables.hasMap row.terrainSwapMap then s
  else
    let s := s.put (s.record row.terrainSwapMap)
    let pointers := (s.terrainSwapInfoByMap row.mapId).getD []
    { s with
      terrainSwapInfoByMap :=
        Function.update s.terrainSwapInfoByMap row.mapId (some (pointers ++ [row.terrainSwapMap])) }

def loadPhases (tables : TerrainTables) : TerrainSwaps :=
  let s := tables.mapStore.foldl emplaceMap empty
  let s := tables.terrainWorldMap.foldl (loadTerrainWorldMap tables) s
  tables.terrainSwapDefaults.foldl (loadTerrainSwapDefault tables) s

def getTerrainSwapInfo (s : TerrainSwaps) (terrainSwapId : UInt32) : Option TerrainSwapInfo :=
  s.terrainSwapInfoById terrainSwapId

def getTerrainSwapsForMap (s : TerrainSwaps) (mapId : UInt32) : Option (List TerrainSwapInfo) :=
  (s.terrainSwapInfoByMap mapId).map fun pointers => pointers.filterMap s.terrainSwapInfoById

/-! ## The records -/

/-- Records stand under their identifiers and list a swap at most once, and none of
those a remaining row would append. -/
structure Expects (rows : List TerrainWorldMapRow) (s : TerrainSwaps) : Prop where
  stored : ∀ id info, s.terrainSwapInfoById id = some info → info.id = id
  nodup : ∀ id info, s.terrainSwapInfoById id = some info → info.uiWorldMapAreaIDSwaps.Nodup
  fresh : ∀ id info, s.terrainSwapInfoById id = some info →
    ∀ row ∈ rows, row.terrainSwapMap = id → row.worldMapArea ∉ info.uiWorldMapAreaIDSwaps

variable {rows : List TerrainWorldMapRow} {s : TerrainSwaps}

theorem Expects.record_nodup (h : Expects rows s)
    (id : UInt32) : (s.record id).uiWorldMapAreaIDSwaps.Nodup := by
  cases hFind : s.terrainSwapInfoById id with
  | none => simp [TerrainSwaps.record, hFind]
  | some info => simpa [TerrainSwaps.record, hFind] using h.nodup id info hFind

variable {id : UInt32} {row : TerrainWorldMapRow}

theorem Expects.record_fresh (h : Expects rows s) (hRow : row ∈ rows) (hId : row.terrainSwapMap = id) :
    row.worldMapArea ∉ (s.record id).uiWorldMapAreaIDSwaps := by
  cases hFind : s.terrainSwapInfoById id with
  | none => simp [TerrainSwaps.record, hFind]
  | some info => simpa [TerrainSwaps.record, hFind] using h.fresh id info hFind row hRow hId

variable {info : TerrainSwapInfo}

theorem Expects.put (h : Expects rows s) (hNodup : info.uiWorldMapAreaIDSwaps.Nodup)
    (hFresh : ∀ row ∈ rows, row.terrainSwapMap = info.id →
      row.worldMapArea ∉ info.uiWorldMapAreaIDSwaps) : Expects rows (s.put info) := by
  have hCases : ∀ id found, (s.put info).terrainSwapInfoById id = some found →
      id = info.id ∧ found = info ∨ s.terrainSwapInfoById id = some found := by
    intro id found hFound
    simp only [TerrainSwaps.put, Function.update_apply] at hFound
    split at hFound
    · rename_i hId
      exact Or.inl ⟨hId, (Option.some.inj hFound).symm⟩
    · exact Or.inr hFound
  constructor
  · intro id found hFound
    obtain ⟨rfl, rfl⟩ | hOld := hCases id found hFound
    · rfl
    · exact h.stored id found hOld
  · intro id found hFound
    obtain ⟨rfl, rfl⟩ | hOld := hCases id found hFound
    · exact hNodup
    · exact h.nodup id found hOld
  · intro id found hFound
    obtain ⟨rfl, rfl⟩ | hOld := hCases id found hFound
    · exact hFresh
    · exact h.fresh id found hOld

theorem Expects.tail (h : Expects (row :: rows) s) : Expects rows s :=
  ⟨h.stored, h.nodup, fun id info hFind other hOther =>
    h.fresh id info hFind other (List.mem_cons_of_mem _ hOther)⟩

theorem expects_empty (rows : List TerrainWorldMapRow) : Expects rows empty := by
  constructor <;> exact fun _ _ hFind => nomatch hFind

theorem emplaceMap_expects (h : Expects rows s)
    (map : MapEntry) : Expects rows (s.emplaceMap map) := by
  rw [emplaceMap]
  split
  · exact h.put List.nodup_nil fun _ _ _ => List.not_mem_nil
  · exact h

variable {tables : TerrainTables}

theorem loadTerrainWorldMap_expects (hNodup : (row :: rows).Nodup)
    (h : Expects (row :: rows) s) : Expects rows (loadTerrainWorldMap tables s row) := by
  rw [loadTerrainWorldMap]
  split
  · exact h.tail
  · split
    · exact h.tail
    · refine h.tail.put ?_ ?_
      · refine List.nodup_append.mpr ⟨h.record_nodup _, List.nodup_singleton _, ?_⟩
        rintro swap hSwap _ (hEq | ⟨_, ⟨⟩⟩) rfl
        exact h.record_fresh List.mem_cons_self rfl hSwap
      · intro other hOther hId hMem
        rcases List.mem_append.mp hMem with hOld | hNew
        · exact h.record_fresh (List.mem_cons_of_mem _ hOther) hId hOld
        · have hEq : other = row := by
            cases other
            cases row
            simp_all [TerrainSwaps.record]
          exact (List.nodup_cons.mp hNodup).1 (hEq ▸ hOther)

theorem foldl_loadTerrainWorldMap_expects (tables : TerrainTables) :
    ∀ {s : TerrainSwaps}, rows.Nodup → Expects rows s →
      Expects [] (rows.foldl (loadTerrainWorldMap tables) s) := by
  induction rows with
  | nil => exact fun _ h => h
  | cons row rows ih =>
    exact fun hNodup h => ih (List.nodup_cons.mp hNodup).2 (loadTerrainWorldMap_expects hNodup h)

theorem loadTerrainSwapDefault_expects (h : Expects [] s) (row : TerrainSwapDefaultRow) :
    Expects [] (loadTerrainSwapDefault tables s row) := by
  rw [loadTerrainSwapDefault]
  split
  · exact h
  · split
    · exact h
    · have hPut := h.put (h.record_nodup row.terrainSwapMap) fun _ hRow =>
        (List.not_mem_nil hRow).elim
      exact ⟨hPut.stored, hPut.nodup, hPut.fresh⟩

theorem loadPhases_expects (tables : TerrainTables) : Expects [] (loadPhases tables) := by
  have hMaps := List.foldlRecOn (motive := Expects tables.terrainWorldMap) tables.mapStore emplaceMap
    (expects_empty tables.terrainWorldMap) fun s hs map _ => emplaceMap_expects hs map
  have hRows := foldl_loadTerrainWorldMap_expects tables tables.terrainWorldMap_nodup hMaps
  exact List.foldlRecOn (motive := Expects []) tables.terrainSwapDefaults
    (loadTerrainSwapDefault tables) hRows fun s hs row _ => loadTerrainSwapDefault_expects hs row

theorem id_of_getTerrainSwapInfo (h : (loadPhases tables).getTerrainSwapInfo id = some info) : info.id = id :=
  (loadPhases_expects tables).stored id info h

theorem nodup_of_getTerrainSwapInfo (h : (loadPhases tables).getTerrainSwapInfo id = some info) :
    info.uiWorldMapAreaIDSwaps.Nodup :=
  (loadPhases_expects tables).nodup id info h

theorem mem_getTerrainSwapsForMap {mapId : UInt32}
    {infos : List TerrainSwapInfo} (h : (loadPhases tables).getTerrainSwapsForMap mapId = some infos)
    (hMem : info ∈ infos) :
    (loadPhases tables).getTerrainSwapInfo info.id = some info := by
  obtain ⟨pointers, -, rfl⟩ := Option.map_eq_some_iff.mp h
  obtain ⟨id, -, hFind⟩ := List.mem_filterMap.mp hMem
  rw [(loadPhases_expects tables).stored id info hFind]
  exact hFind

end TerrainSwaps

/-!
## Phasing of an object

An object has a phase shift and a suppressed one, and a change of conditions
moves phases and visible maps between them. What the stores, the conditions and
the auras of the object answer is given. Failed assertions and null pointers are
none, and what is sent or notified afterwards depends only on the last answer.
-/

open EnumClassFlag

structure ObjectPhases where
  phaseShift : PhaseShift
  suppressedPhaseShift : PhaseShift

structure PhaseStores where
  phaseFlags : UInt32 → Option (BitVec 16)
  phasesForGroup : UInt32 → Option (List UInt32)

structure PhaseAuras where
  phases : List UInt32
  phaseGroups : List UInt32

/-- What an object meets: conditions of areas, and conditions of the terrain swap of a map. -/
structure ConditionAnswers where
  meetsConditions : Nat → Bool
  meetsTerrainSwap : UInt32 → Bool

namespace PhasingHandler

def PHASE_FLAG_COSMETIC : BitVec 16 := 0x10
def PHASE_FLAG_PERSONAL : BitVec 16 := 0x20

def getPhaseFlags (stores : PhaseStores) (phaseId : UInt32) : EnumClassFlag 16 :=
  match stores.phaseFlags phaseId with
  | some flags =>
    if flags &&& PHASE_FLAG_COSMETIC ≠ 0 then PhaseFlags.cosmetic
    else if flags &&& PHASE_FLAG_PERSONAL ≠ 0 then PhaseFlags.personal
    else PhaseFlags.none
  | none => PhaseFlags.none

def setAlwaysVisible (s : PhaseShift) (apply : Bool) : PhaseShift :=
  { s with
    flags :=
      if apply then s.flags ||| PhaseShiftFlags.alwaysVisible
      else s.flags &&& ~~~PhaseShiftFlags.alwaysVisible }

def setInversed (s : PhaseShift) (apply : Bool) : PhaseShift :=
  PhaseShift.updateUnphasedFlag { s with
    flags :=
      if apply then s.flags ||| PhaseShiftFlags.inverse
      else s.flags &&& ~~~PhaseShiftFlags.inverse }

def resetPhaseShift (o : ObjectPhases) : ObjectPhases :=
  ⟨o.phaseShift.clear, o.suppressedPhaseShift.clear⟩

/-! ## Visible maps -/

def addSwapOf (r : PhaseShift × Bool) (uiWorldMapAreaIDSwap : UInt32) : PhaseShift × Bool :=
  let added := r.1.addUiWorldMapAreaIdSwap uiWorldMapAreaIDSwap 1
  (added.1, added.2 || r.2)

def removeSwapOf (r : PhaseShift × Bool) (uiWorldMapAreaIDSwap : UInt32) : PhaseShift × Bool :=
  let removed := r.1.removeUiWorldMapAreaIdSwap uiWorldMapAreaIDSwap
  (removed.1, removed.2.erased || r.2)

def addVisibleMapId (swaps : TerrainSwaps) (o : ObjectPhases) (visibleMapId : UInt32) :
    Option (ObjectPhases × Bool) := do
  let added := o.phaseShift.addVisibleMapId visibleMapId (swaps.getTerrainSwapInfo visibleMapId) 1
  let terrainSwapInfo ← swaps.getTerrainSwapInfo visibleMapId
  let r := terrainSwapInfo.uiWorldMapAreaIDSwaps.foldl addSwapOf added
  some ({ o with phaseShift := r.1 }, r.2)

def removeVisibleMapId (swaps : TerrainSwaps) (o : ObjectPhases) (visibleMapId : UInt32) :
    Option (ObjectPhases × Bool) := do
  let removed := o.phaseShift.removeVisibleMapId visibleMapId
  let terrainSwapInfo ← swaps.getTerrainSwapInfo visibleMapId
  let r := terrainSwapInfo.uiWorldMapAreaIDSwaps.foldl removeSwapOf (removed.1, removed.2.erased)
  some ({ o with phaseShift := r.1 }, r.2)

def placeVisibleMap (answers : ConditionAnswers) (o : ObjectPhases)
    (visibleMapInfo : TerrainSwapInfo) : ObjectPhases :=
  if answers.meetsTerrainSwap visibleMapInfo.id then
    { o with
      phaseShift := visibleMapInfo.uiWorldMapAreaIDSwaps.foldl
        (fun s uiWorldMapAreaIdSwap => (s.addUiWorldMapAreaIdSwap uiWorldMapAreaIdSwap 1).1)
        (o.phaseShift.addVisibleMapId visibleMapInfo.id (some visibleMapInfo) 1).1 }
  else
    { o with
      suppressedPhaseShift :=
        (o.suppressedPhaseShift.addVisibleMapId visibleMapInfo.id (some visibleMapInfo) 1).1 }

def onMapChange (swaps : TerrainSwaps) (answers : ConditionAnswers) (mapId : UInt32)
    (o : ObjectPhases) : ObjectPhases :=
  let o : ObjectPhases :=
    ⟨{ o.phaseShift with visibleMapIds := .empty, uiWorldMapAreaIdSwaps := .empty },
      { o.suppressedPhaseShift with visibleMapIds := .empty }⟩
  match swaps.getTerrainSwapsForMap mapId with
  | some visibleMapIds => visibleMapIds.foldl (placeVisibleMap answers) o
  | none => o

/-! ## Change of conditions -/

structure Change where
  phaseShift : PhaseShift
  suppressedPhaseShift : PhaseShift
  newSuppressions : PhaseShift
  changed : Bool

def takePhase (s : PhaseShift) (p : PhaseRef) : PhaseShift :=
  let s := s.modifyPhasesReferences p (-p.references)
  { s with phases := s.phases.erase p.key }

def suppressPhase (answers : ConditionAnswers) (c : Change) (p : PhaseRef) : Change :=
  match p.areaConditions with
  | some conditions =>
    if !answers.meetsConditions conditions then
      { c with
        newSuppressions :=
          (c.newSuppressions.addPhase p.id.toUInt32 p.flags p.areaConditions p.references).1
        phaseShift := takePhase c.phaseShift p }
    else c
  | none => c

def restorePhase (answers : ConditionAnswers) (c : Change) (p : PhaseRef) : Option Change := do
  let conditions ← p.areaConditions
  if answers.meetsConditions conditions then
    let (phaseShift, inserted) :=
      c.phaseShift.addPhase p.id.toUInt32 p.flags p.areaConditions p.references
    some { c with
      phaseShift := phaseShift
      changed := inserted || c.changed
      suppressedPhaseShift := takePhase c.suppressedPhaseShift p }
  else some c

def removeSwap (c : Change) (uiWorldMapAreaIdSwap : UInt32) : Change :=
  let (phaseShift, result) := c.phaseShift.removeUiWorldMapAreaIdSwap uiWorldMapAreaIdSwap
  { c with phaseShift := phaseShift, changed := result.erased || c.changed }

def addSwap (c : Change) (uiWorldMapAreaIdSwap : UInt32) : Change :=
  let (phaseShift, inserted) := c.phaseShift.addUiWorldMapAreaIdSwap uiWorldMapAreaIdSwap 1
  { c with phaseShift := phaseShift, changed := inserted || c.changed }

def eraseVisibleMap (s : PhaseShift) (m : VisibleMapIdRef) : PhaseShift :=
  { s with visibleMapIds := s.visibleMapIds.erase m.key }

def suppressVisibleMap (answers : ConditionAnswers) (c : Change) (m : VisibleMapIdRef) :
    Option Change := do
  if !answers.meetsTerrainSwap m.id then
    let c := { c with
      newSuppressions := (c.newSuppressions.addVisibleMapId m.id m.visibleMapInfo m.references).1 }
    let info ← m.visibleMapInfo
    let c := info.uiWorldMapAreaIDSwaps.foldl removeSwap c
    some { c with phaseShift := eraseVisibleMap c.phaseShift m }
  else some c

def restoreVisibleMap (answers : ConditionAnswers) (c : Change) (m : VisibleMapIdRef) :
    Option Change := do
  if answers.meetsTerrainSwap m.id then
    let (phaseShift, inserted) :=
      c.phaseShift.addVisibleMapId m.id m.visibleMapInfo m.references
    let c := { c with phaseShift := phaseShift, changed := inserted || c.changed }
    let info ← m.visibleMapInfo
    let c := info.uiWorldMapAreaIDSwaps.foldl addSwap c
    some { c with suppressedPhaseShift := eraseVisibleMap c.suppressedPhaseShift m }
  else some c

/-- An aura keeps one reference of a newly suppressed phase in the phase shift. -/
def keepAuraPhase (stores : PhaseStores) (c : Change) (phaseId : UInt32) : Change :=
  let (newSuppressions, eraseResult) := c.newSuppressions.removePhase phaseId
  let c := { c with newSuppressions := newSuppressions }
  if eraseResult.iterator.isSome || eraseResult.erased then
    { c with phaseShift := (c.phaseShift.addPhase phaseId (getPhaseFlags stores phaseId) none 1).1 }
  else c

def auraPhases (stores : PhaseStores) (auras : PhaseAuras) : List UInt32 :=
  auras.phases ++ auras.phaseGroups.flatMap fun group => (stores.phasesForGroup group).getD []

def suppressNew (c : Change) : Change :=
  let suppressed := c.newSuppressions.phases.entries.foldl
    (fun s p => (s.addPhase p.id.toUInt32 p.flags p.areaConditions p.references).1)
    c.suppressedPhaseShift
  { c with
    suppressedPhaseShift := c.newSuppressions.visibleMapIds.entries.foldl
      (fun s m => (s.addVisibleMapId m.id m.visibleMapInfo m.references).1) suppressed }

/-- The unit has auras; other objects have none. The answer tells whether to notify. -/
def onConditionChange (stores : PhaseStores) (answers : ConditionAnswers)
    (unit : Option PhaseAuras) (o : ObjectPhases) : Option (ObjectPhases × Bool) := do
  let c : Change := ⟨o.phaseShift, o.suppressedPhaseShift, .new, false⟩
  let c := c.phaseShift.phases.entries.foldl (suppressPhase answers) c
  let c ← c.suppressedPhaseShift.phases.entries.foldlM (restorePhase answers) c
  let c ← c.phaseShift.visibleMapIds.entries.foldlM (suppressVisibleMap answers) c
  let c ← c.suppressedPhaseShift.visibleMapIds.entries.foldlM (restoreVisibleMap answers) c
  let c := match unit with
    | some auras => (auraPhases stores auras).foldl (keepAuraPhase stores) c
    | none => c
  let changed := c.changed || !c.newSuppressions.phases.entries.isEmpty ||
    !c.newSuppressions.visibleMapIds.entries.isEmpty
  let c := suppressNew c
  some (⟨c.phaseShift, c.suppressedPhaseShift⟩, changed)

/-! ### Stages -/

def started (o : ObjectPhases) : Change := ⟨o.phaseShift, o.suppressedPhaseShift, .new, false⟩

def keepAuras (stores : PhaseStores) (unit : Option PhaseAuras) (c : Change) : Change :=
  match unit with
  | some auras => (auraPhases stores auras).foldl (keepAuraPhase stores) c
  | none => c

/-- The sweeps of a change of conditions, from the start to the auras. -/
structure Swept (answers : ConditionAnswers) (o : ObjectPhases) (c₁ c₂ c₃ c₄ : Change) : Prop where
  suppressed : c₁ = (started o).phaseShift.phases.entries.foldl (suppressPhase answers) (started o)
  restored : c₁.suppressedPhaseShift.phases.entries.foldlM (restorePhase answers) c₁ = some c₂
  mapsSuppressed : c₂.phaseShift.visibleMapIds.entries.foldlM (suppressVisibleMap answers) c₂ = some c₃
  mapsRestored : c₃.suppressedPhaseShift.visibleMapIds.entries.foldlM (restoreVisibleMap answers) c₃ =
    some c₄

variable {answers : ConditionAnswers}

theorem onConditionChange_eq_some_iff {stores : PhaseStores}
    {unit : Option PhaseAuras} {o : ObjectPhases} {r : ObjectPhases × Bool} :
    onConditionChange stores answers unit o = some r ↔
      ∃ c₁ c₂ c₃ c₄, Swept answers o c₁ c₂ c₃ c₄ ∧
        r = (⟨(suppressNew (keepAuras stores unit c₄)).phaseShift,
            (suppressNew (keepAuras stores unit c₄)).suppressedPhaseShift⟩,
          (keepAuras stores unit c₄).changed ||
            !(keepAuras stores unit c₄).newSuppressions.phases.entries.isEmpty ||
            !(keepAuras stores unit c₄).newSuppressions.visibleMapIds.entries.isEmpty) := by
  constructor
  · intro h
    obtain ⟨c₂, hRestored, h⟩ := Option.bind_eq_some_iff.mp h
    obtain ⟨c₃, hMapsSuppressed, h⟩ := Option.bind_eq_some_iff.mp h
    obtain ⟨c₄, hMapsRestored, h⟩ := Option.bind_eq_some_iff.mp h
    exact ⟨_, c₂, c₃, c₄, ⟨rfl, hRestored, hMapsSuppressed, hMapsRestored⟩, (Option.some.inj h).symm⟩
  · rintro ⟨c₁, c₂, c₃, c₄, ⟨rfl, hRestored, hMapsSuppressed, hMapsRestored⟩, rfl⟩
    refine Option.bind_eq_some_iff.mpr ⟨c₂, hRestored, ?_⟩
    refine Option.bind_eq_some_iff.mpr ⟨c₃, hMapsSuppressed, ?_⟩
    exact Option.bind_eq_some_iff.mpr ⟨c₄, hMapsRestored, rfl⟩

/-! ### Visible maps on the move -/

def dropSwaps (s : PhaseShift) (swaps : List UInt32) : PhaseShift :=
  swaps.foldl (fun s swap => (s.removeUiWorldMapAreaIdSwap swap).1) s

def addSwaps (s : PhaseShift) (swaps : List UInt32) : PhaseShift :=
  swaps.foldl (fun s swap => (s.addUiWorldMapAreaIdSwap swap 1).1) s

theorem foldl_removeSwap (c : Change) (swaps : List UInt32) :
    swaps.foldl removeSwap c =
      { c with
        phaseShift := dropSwaps c.phaseShift swaps
        changed := (swaps.foldl removeSwap c).changed } := by
  induction swaps generalizing c with
  | nil => rfl
  | cons swap swaps ih =>
    rw [List.foldl_cons, ih]
    rfl

theorem foldl_addSwap (c : Change) (swaps : List UInt32) :
    swaps.foldl addSwap c =
      { c with
        phaseShift := addSwaps c.phaseShift swaps
        changed := (swaps.foldl addSwap c).changed } := by
  induction swaps generalizing c with
  | nil => rfl
  | cons swap swaps ih =>
    rw [List.foldl_cons, ih]
    rfl

variable {m : VisibleMapIdRef}

theorem suppressVisibleMap_of_not {c : Change}
    {info : TerrainSwapInfo} (hInfo : m.visibleMapInfo = some info)
    (hOut : (!answers.meetsTerrainSwap m.id) = true) : ∃ changed,
    suppressVisibleMap answers c m = some
      ⟨eraseVisibleMap (dropSwaps c.phaseShift info.uiWorldMapAreaIDSwaps) m, c.suppressedPhaseShift,
        (c.newSuppressions.addVisibleMapId m.id m.visibleMapInfo m.references).1, changed⟩ := by
  refine ⟨(info.uiWorldMapAreaIDSwaps.foldl removeSwap { c with
    newSuppressions :=
      (c.newSuppressions.addVisibleMapId m.id m.visibleMapInfo m.references).1 }).changed, ?_⟩
  rw [suppressVisibleMap, if_pos hOut, hInfo]
  dsimp only [Option.bind_eq_bind, Option.bind_some]
  rw [foldl_removeSwap]

theorem restoreVisibleMap_of_meets {c : Change}
    {info : TerrainSwapInfo} (hInfo : m.visibleMapInfo = some info)
    (hIn : answers.meetsTerrainSwap m.id = true) : ∃ changed,
    restoreVisibleMap answers c m = some
      ⟨addSwaps (c.phaseShift.addVisibleMapId m.id m.visibleMapInfo m.references).1
          info.uiWorldMapAreaIDSwaps,
        eraseVisibleMap c.suppressedPhaseShift m, c.newSuppressions, changed⟩ := by
  let added := c.phaseShift.addVisibleMapId m.id m.visibleMapInfo m.references
  refine ⟨(info.uiWorldMapAreaIDSwaps.foldl addSwap { c with
    phaseShift := added.1
    changed := added.2 || c.changed }).changed, ?_⟩
  rw [restoreVisibleMap, if_pos hIn]
  simp only [added, hInfo, Option.bind_eq_bind, Option.bind_some]
  rw [foldl_addSwap]

theorem suppressVisibleMap_cases (h : m.visibleMapInfo.isSome)
    (answers : ConditionAnswers) (c : Change) :
    answers.meetsTerrainSwap m.id = true ∧ suppressVisibleMap answers c m = some c ∨
      answers.meetsTerrainSwap m.id = false ∧ ∃ swaps changed,
        suppressVisibleMap answers c m = some ⟨eraseVisibleMap (dropSwaps c.phaseShift swaps) m,
          c.suppressedPhaseShift,
          (c.newSuppressions.addVisibleMapId m.id m.visibleMapInfo m.references).1, changed⟩ := by
  obtain ⟨info, hInfo⟩ := Option.isSome_iff_exists.mp h
  cases hMeets : answers.meetsTerrainSwap m.id with
  | true => exact Or.inl ⟨rfl, by simp [suppressVisibleMap, hMeets]⟩
  | false =>
    obtain ⟨changed, hSuppress⟩ :=
      suppressVisibleMap_of_not (c := c) hInfo (by rw [hMeets]; rfl)
    exact Or.inr ⟨rfl, info.uiWorldMapAreaIDSwaps, changed, hSuppress⟩

theorem restoreVisibleMap_cases (h : m.visibleMapInfo.isSome)
    (answers : ConditionAnswers) (c : Change) :
    answers.meetsTerrainSwap m.id = false ∧ restoreVisibleMap answers c m = some c ∨
      answers.meetsTerrainSwap m.id = true ∧ ∃ swaps changed,
        restoreVisibleMap answers c m = some
          ⟨addSwaps (c.phaseShift.addVisibleMapId m.id m.visibleMapInfo m.references).1 swaps,
            eraseVisibleMap c.suppressedPhaseShift m, c.newSuppressions, changed⟩ := by
  obtain ⟨info, hInfo⟩ := Option.isSome_iff_exists.mp h
  cases hMeets : answers.meetsTerrainSwap m.id with
  | false => exact Or.inl ⟨rfl, by simp [restoreVisibleMap, hMeets]⟩
  | true =>
    obtain ⟨changed, hRestore⟩ := restoreVisibleMap_of_meets (c := c) hInfo hMeets
    exact Or.inr ⟨rfl, info.uiWorldMapAreaIDSwaps, changed, hRestore⟩

end PhasingHandler

end AshamaneCore
