import AshamaneCore.Game.PhaseConditions

/-!
# World map swaps of visible maps

The swap counters of a shift are derived from its visible maps: a swap counts the
references of the maps that list it. A change of conditions moves a map with all
its references, but its swaps by one, so the maps that leave a shift and those
that enter it must carry the same surplus of references.
-/

namespace AshamaneCore.SwapReferences

open Library Library.Transition PhasingHandler PhaseReferences PhaseFrames PhaseConditions

/-! ## Counters -/

def lists (m : VisibleMapIdRef) (swap : UInt32) : Bool :=
  m.visibleMapInfo.any fun info => info.uiWorldMapAreaIDSwaps.contains swap

def swapReferences (s : PhaseShift) (swap : UInt32) : Int :=
  ((s.uiWorldMapAreaIdSwaps.find? swap.toNat).map (·.references)).getD 0

def weight (swap : UInt32) (m : VisibleMapIdRef) : Int := if lists m swap then m.references else 0

def mapReferences (s : PhaseShift) (swap : UInt32) : Int := s.visibleMapIds.total (weight swap)

def SwapsFollow (s : PhaseShift) : Prop := ∀ swap, swapReferences s swap = mapReferences s swap

/-- What the maps that list a swap count beyond one reference each. -/
def surplus (maps : List VisibleMapIdRef) (swap : UInt32) : Int :=
  (maps.map fun m => if lists m swap then m.references - 1 else 0).sum

def drift (s : PhaseShift) (swap : UInt32) : Int := swapReferences s swap - mapReferences s swap

variable {s : PhaseShift}

theorem swapsFollow_iff_drift : SwapsFollow s ↔ ∀ swap, drift s swap = 0 :=
  forall_congr' fun _ => sub_eq_zero.symm

theorem toNat_eq_iff {a b : UInt32} : a.toNat = b.toNat ↔ a = b := UInt32.toNat_inj

theorem swapReferences_add (s : PhaseShift) (swap : UInt32) (references : Int) (other : UInt32) :
    swapReferences (s.addUiWorldMapAreaIdSwap swap references).1 other =
      swapReferences s other + if other = swap then references else 0 := by
  simp only [swapReferences, PhaseShift.addUiWorldMapAreaIdSwap, KeyedSet.find?_alter_eq,
    KeyedSet.find?_emplace_eq, UiWorldMapAreaIdSwapRef.key, toNat_eq_iff]
  split
  · cases s.uiWorldMapAreaIdSwaps.find? other.toNat with
    | none => simp [UiWorldMapAreaIdSwapRef.addReferences]
    | some r => simp [UiWorldMapAreaIdSwapRef.addReferences]
  · rw [add_zero]

theorem swapReferences_remove {swap : UInt32} (h : swapReferences s swap ≠ 0)
    (other : UInt32) :
    swapReferences (s.removeUiWorldMapAreaIdSwap swap).1 other =
      swapReferences s other - if other = swap then 1 else 0 := by
  cases hFind : s.uiWorldMapAreaIdSwaps.find? swap.toNat with
  | none => simp [swapReferences, hFind] at h
  | some r =>
    have hKey : r.key = swap.toNat := (KeyedSet.find?_eq_some_iff.mp hFind).2
    simp only [PhaseShift.removeUiWorldMapAreaIdSwap, hFind, hKey]
    split
    · rename_i hEmpty
      simp only [swapReferences, KeyedSet.find?_erase_eq, toNat_eq_iff]
      split
      · rename_i hOther
        rw [hOther, hFind]
        simp only [UiWorldMapAreaIdSwapRef.addReferences] at hEmpty
        simp only [Option.map_none, Option.getD_none, Option.map_some, Option.getD_some]
        omega
      · rename_i hOther
        rw [KeyedSet.find?_alter_eq, if_neg fun h => hOther (toNat_eq_iff.mp h), sub_zero]
    · simp only [swapReferences, KeyedSet.find?_alter_eq, toNat_eq_iff]
      split
      · rename_i hOther
        rw [hOther, hFind]
        rfl
      · rw [sub_zero]

/-! ## Visible maps -/

/-- The record of a stored map is the loaded one, and the map is referenced. -/
structure Known (swaps : TerrainSwaps) (m : VisibleMapIdRef) : Prop where
  positive : 0 < m.references
  loaded : ∃ info, m.visibleMapInfo = some info ∧ swaps.getTerrainSwapInfo m.id = some info

def AllKnown (swaps : TerrainSwaps) (s : PhaseShift) : Prop :=
  ∀ m ∈ s.visibleMapIds.entries, Known swaps m

variable {swaps : TerrainSwaps} {m : VisibleMapIdRef}

theorem Known.info_eq (h : Known swaps m) :
    m.visibleMapInfo = swaps.getTerrainSwapInfo m.id := by
  obtain ⟨info, hInfo, hLoaded⟩ := h.loaded
  exact hInfo.trans hLoaded.symm

theorem lists_iff {info : TerrainSwapInfo} (h : m.visibleMapInfo = some info)
    {swap : UInt32} : lists m swap = true ↔ swap ∈ info.uiWorldMapAreaIDSwaps := by
  simp [lists, h]

theorem weight_addReferences (swap : UInt32) (m : VisibleMapIdRef) (references : Int) :
    weight swap (m.addReferences references) =
      weight swap m + if lists m swap then references else 0 := by
  have hLists : lists (m.addReferences references) swap = lists m swap := rfl
  rw [weight, weight, hLists]
  split
  · rfl
  · rw [add_zero]

theorem Known.of_find? (h : AllKnown swaps s) {k : Nat} (hFind : s.visibleMapIds.find? k = some m) : Known swaps m :=
  h m (KeyedSet.find?_eq_some_iff.mp hFind).1

theorem id_eq_of_key {id : UInt32} (h : m.key = id.toNat) : m.id = id :=
  UInt32.toNat_inj.mp h

section Add

variable {swaps : TerrainSwaps} {s : PhaseShift} (h : AllKnown swaps s) {m : VisibleMapIdRef}
  (hm : Known swaps m)

include h hm

theorem exists_emplaced : ∃ found : VisibleMapIdRef,
    (s.visibleMapIds.emplace ⟨m.id, 0, m.visibleMapInfo⟩).find? m.key = some found ∧
      found.id = m.id ∧ found.visibleMapInfo = m.visibleMapInfo ∧ 0 ≤ found.references := by
  cases hFind : s.visibleMapIds.find? m.key with
  | none =>
    refine ⟨⟨m.id, 0, m.visibleMapInfo⟩, ?_, rfl, rfl, Int.le_refl 0⟩
    rw [KeyedSet.find?_emplace_eq, hFind]
    exact if_pos rfl
  | some found =>
    have hFound := Known.of_find? h hFind
    have hId : found.id = m.id := id_eq_of_key (KeyedSet.find?_eq_some_iff.mp hFind).2
    refine ⟨found, ?_, hId, ?_, hFound.positive.le⟩
    · rw [KeyedSet.find?_emplace_eq, hFind]
      exact if_pos rfl
    · rw [hFound.info_eq, hm.info_eq, hId]

theorem mapReferences_add (swap : UInt32) :
    mapReferences (s.addVisibleMapId m.id m.visibleMapInfo m.references).1 swap =
      mapReferences s swap + weight swap m := by
  obtain ⟨found, hFound, -, hInfo, -⟩ := exists_emplaced h hm
  have hLists : lists found swap = lists m swap := by
    rw [lists, lists, hInfo]
  have hNew : (s.visibleMapIds.emplace ⟨m.id, 0, m.visibleMapInfo⟩).total (weight swap) =
      s.visibleMapIds.total (weight swap) := by
    rw [KeyedSet.total_emplace]
    simp [weight]
  have hWeight : weight swap m = if lists m swap then m.references else 0 := rfl
  have hSum : ((s.visibleMapIds.emplace ⟨m.id, 0, m.visibleMapInfo⟩).alter m.key
      (.addReferences m.references) (VisibleMapIdRef.key_addReferences _)).total (weight swap) =
        mapReferences s swap + weight swap m := by
    rw [KeyedSet.total_alter _ hFound, hNew, weight_addReferences, hLists, ← hWeight, mapReferences]
    omega
  exact hSum

theorem allKnown_add : AllKnown swaps (s.addVisibleMapId m.id m.visibleMapInfo m.references).1 := by
  obtain ⟨found, hFound, hId, hInfo, hReferences⟩ := exists_emplaced h hm
  intro n hn
  rcases (KeyedSet.mem_alter (VisibleMapIdRef.key_addReferences _)).mp hn with ⟨a, ha, hKey, rfl⟩ | ⟨hn, hNe⟩
  · have hSame : a = found := KeyedSet.key_injective _ ha (KeyedSet.find?_eq_some_iff.mp hFound).1
      (hKey.trans (KeyedSet.find?_eq_some_iff.mp hFound).2.symm)
    subst hSame
    obtain ⟨info, hLoaded⟩ := hm.loaded
    refine ⟨Int.add_pos_of_nonneg_of_pos hReferences hm.positive, info, ?_⟩
    exact ⟨hInfo.trans hLoaded.1, by rw [← hLoaded.2, ← hId]; rfl⟩
  · rcases KeyedSet.mem_emplace.mp hn with hOld | ⟨rfl, -⟩
    · exact h n hOld
    · exact absurd rfl hNe

end Add

theorem mapReferences_erase (h : m ∈ s.visibleMapIds.entries)
    (swap : UInt32) : mapReferences (eraseVisibleMap s m) swap = mapReferences s swap - weight swap m :=
  KeyedSet.total_erase (weight swap) (KeyedSet.find?_eq_some_iff.mpr ⟨h, rfl⟩)

theorem allKnown_erase (h : AllKnown swaps s)
    (m : VisibleMapIdRef) : AllKnown swaps (eraseVisibleMap s m) :=
  fun n hn => h n (KeyedSet.mem_erase.mp hn).1

section Remove

variable {swaps : TerrainSwaps} {s : PhaseShift} {id : UInt32} {m : VisibleMapIdRef}
  (hFind : s.visibleMapIds.find? id.toNat = some m)

include hFind

theorem mapReferences_remove (swap : UInt32) :
    mapReferences (s.removeVisibleMapId id).1 swap =
      mapReferences s swap - if lists m swap then 1 else 0 := by
  have hKey : m.key = id.toNat := (KeyedSet.find?_eq_some_iff.mp hFind).2
  have hStored : s.visibleMapIds.find? m.key = some m := hKey ▸ hFind
  have hLess : (s.visibleMapIds.alter m.key (.addReferences (-1))
      (VisibleMapIdRef.key_addReferences _)).total (weight swap) =
        mapReferences s swap - if lists m swap then 1 else 0 := by
    rw [KeyedSet.total_alter _ hStored, weight_addReferences, mapReferences]
    split <;> omega
  simp only [PhaseShift.removeVisibleMapId, hFind]
  split
  · rename_i hEmpty
    have hWeight : weight swap (m.addReferences (-1)) = 0 := by
      rw [weight, hEmpty, ite_self]
    have hErase := KeyedSet.total_erase (weight swap)
      (KeyedSet.find?_alter hStored (VisibleMapIdRef.addReferences (-1))
        (VisibleMapIdRef.key_addReferences _))
    rw [hWeight, hLess, sub_zero] at hErase
    exact hErase
  · exact hLess

theorem allKnown_remove (h : AllKnown swaps s) : AllKnown swaps (s.removeVisibleMapId id).1 := by
  have hKey : m.key = id.toNat := (KeyedSet.find?_eq_some_iff.mp hFind).2
  have hKnown := Known.of_find? h hFind
  simp only [PhaseShift.removeVisibleMapId, hFind]
  split
  · intro n hn
    obtain ⟨hn, hNe⟩ := KeyedSet.mem_erase.mp hn
    rcases (KeyedSet.mem_alter (VisibleMapIdRef.key_addReferences _)).mp hn with ⟨a, -, hSame, rfl⟩ | ⟨hOld, -⟩
    · exact absurd hSame hNe
    · exact h n hOld
  · rename_i hSome
    intro n hn
    rcases (KeyedSet.mem_alter (VisibleMapIdRef.key_addReferences _)).mp hn with ⟨a, ha, hSame, rfl⟩ | ⟨hOld, -⟩
    · have hEq : a = m := s.visibleMapIds.key_injective ha (KeyedSet.find?_eq_some_iff.mp hFind).1 hSame
      subst hEq
      have hPositive := hKnown.positive
      simp only [VisibleMapIdRef.addReferences] at hSome
      exact ⟨by simp only [VisibleMapIdRef.addReferences]; omega, hKnown.loaded⟩
    · exact h n hOld

end Remove

/-! ## The swaps of a record -/

theorem swapReferences_dropSwaps {swaps : List UInt32} (hNodup : swaps.Nodup)
    (h : ∀ swap ∈ swaps, 0 < swapReferences s swap) (other : UInt32) :
    swapReferences (dropSwaps s swaps) other =
      swapReferences s other - if other ∈ swaps then 1 else 0 := by
  induction swaps generalizing s with
  | nil => simp [dropSwaps]
  | cons swap swaps ih =>
    obtain ⟨hNot, hNodup⟩ := List.nodup_cons.mp hNodup
    have hFirst := swapReferences_remove (h swap List.mem_cons_self).ne'
    have hRest : ∀ a ∈ swaps, 0 < swapReferences (s.removeUiWorldMapAreaIdSwap swap).1 a := by
      intro a ha
      have hNe : a ≠ swap := fun hEq => hNot (hEq ▸ ha)
      rw [hFirst, if_neg hNe, sub_zero]
      exact h a (List.mem_cons_of_mem _ ha)
    have hAll := ih hNodup hRest
    rw [hFirst] at hAll
    refine hAll.trans ?_
    rcases eq_or_ne other swap with rfl | hNe
    · simp [hNot]
    · simp [hNe]

theorem swapReferences_addSwaps {swaps : List UInt32} (hNodup : swaps.Nodup) (s : PhaseShift)
    (other : UInt32) :
    swapReferences (addSwaps s swaps) other =
      swapReferences s other + if other ∈ swaps then 1 else 0 := by
  induction swaps generalizing s with
  | nil => simp [addSwaps]
  | cons swap swaps ih =>
    obtain ⟨hNot, hNodup⟩ := List.nodup_cons.mp hNodup
    have hAll := ih hNodup (s.addUiWorldMapAreaIdSwap swap 1).1
    rw [swapReferences_add] at hAll
    refine hAll.trans ?_
    rcases eq_or_ne other swap with rfl | hNe
    · simp [hNot]
    · simp [hNe]

variable {tables : TerrainTables}

theorem Known.nodup (h : Known (TerrainSwaps.loadPhases tables) m) {info : TerrainSwapInfo}
    (hInfo : m.visibleMapInfo = some info) : info.uiWorldMapAreaIDSwaps.Nodup :=
  TerrainSwaps.nodup_of_getTerrainSwapInfo (h.info_eq.symm.trans hInfo)

section Drift

variable {tables : TerrainTables} {s : PhaseShift} {m : VisibleMapIdRef} {info : TerrainSwapInfo}
  (hKnown : AllKnown (TerrainSwaps.loadPhases tables) s)
  (hm : Known (TerrainSwaps.loadPhases tables) m) (hInfo : m.visibleMapInfo = some info)

include hm hInfo

theorem drift_leave (hMem : m ∈ s.visibleMapIds.entries)
    (hSwaps : ∀ swap, weight swap m ≤ swapReferences s swap) (swap : UInt32) :
    drift (eraseVisibleMap (dropSwaps s info.uiWorldMapAreaIDSwaps) m) swap =
      drift s swap + surplus [m] swap := by
  have hPositive : ∀ a ∈ info.uiWorldMapAreaIDSwaps, 0 < swapReferences s a := by
    intro a ha
    have hWeight := hSwaps a
    rw [weight, if_pos ((lists_iff hInfo).mpr ha)] at hWeight
    exact hm.positive.trans_le hWeight
  have hStored : m ∈ (dropSwaps s info.uiWorldMapAreaIDSwaps).visibleMapIds.entries := by
    rw [dropSwaps_maps]
    exact hMem
  have hMaps := mapReferences_erase hStored swap
  have hCounter : swapReferences (eraseVisibleMap (dropSwaps s info.uiWorldMapAreaIDSwaps) m) swap =
      swapReferences s swap - if swap ∈ info.uiWorldMapAreaIDSwaps then 1 else 0 :=
    swapReferences_dropSwaps (hm.nodup hInfo) hPositive swap
  rw [drift, hMaps, hCounter, mapReferences, dropSwaps_maps, drift, mapReferences, surplus, weight]
  simp only [← lists_iff hInfo, List.map_cons, List.map_nil, List.sum_cons, List.sum_nil]
  split <;> omega

include hKnown

theorem drift_enter (swap : UInt32) :
    drift (addSwaps (s.addVisibleMapId m.id m.visibleMapInfo m.references).1
      info.uiWorldMapAreaIDSwaps) swap = drift s swap - surplus [m] swap := by
  have hMaps := mapReferences_add hKnown hm swap
  rw [drift, swapReferences_addSwaps (hm.nodup hInfo), mapReferences, addSwaps_maps]
  rw [mapReferences] at hMaps
  rw [hMaps]
  have hCounter : swapReferences (s.addVisibleMapId m.id m.visibleMapInfo m.references).1 swap =
      swapReferences s swap := rfl
  rw [hCounter, drift, surplus, weight]
  simp only [← lists_iff hInfo, List.map_cons, List.map_nil, List.sum_cons, List.sum_nil]
  split <;> omega

end Drift

/-! ## Change of conditions -/

theorem surplus_filter_cons (p : VisibleMapIdRef → Bool) (m : VisibleMapIdRef)
    (maps : List VisibleMapIdRef) (swap : UInt32) :
    surplus ((m :: maps).filter p) swap =
      (if p m then surplus [m] swap else 0) + surplus (maps.filter p) swap := by
  rw [List.filter_cons]
  split
  · simp [surplus]
  · rw [zero_add]

structure KnownChange (tables : TerrainTables) (c : Change) : Prop where
  phaseShift : AllKnown (TerrainSwaps.loadPhases tables) c.phaseShift
  suppressedPhaseShift : AllKnown (TerrainSwaps.loadPhases tables) c.suppressedPhaseShift
  newSuppressions : AllKnown (TerrainSwaps.loadPhases tables) c.newSuppressions

theorem KnownChange.weight_nonneg (h : AllKnown (TerrainSwaps.loadPhases tables) s) {maps : List VisibleMapIdRef}
    (hMaps : ∀ m ∈ maps, m ∈ s.visibleMapIds.entries) (swap : UInt32) :
    0 ≤ (maps.map (weight swap)).sum := by
  induction maps with
  | nil => exact Int.le_refl 0
  | cons m maps ih =>
    rw [List.map_cons, List.sum_cons]
    refine Int.add_nonneg ?_ (ih fun n hn => hMaps n (List.mem_cons_of_mem _ hn))
    rw [weight]
    split
    · exact (h m (hMaps m List.mem_cons_self)).positive.le
    · exact Int.le_refl 0

section Sweeps

variable {tables : TerrainTables} {answers : ConditionAnswers}

/-- The swaps of a shift cover the visible maps a sweep has still to visit. -/
structure Covered (tables : TerrainTables) (maps : List VisibleMapIdRef) (s : PhaseShift) : Prop where
  known : AllKnown (TerrainSwaps.loadPhases tables) s
  pending : KeyedSet.Pending maps s.visibleMapIds
  swaps : ∀ swap, (maps.map (weight swap)).sum ≤ swapReferences s swap

variable {m : VisibleMapIdRef} {maps : List VisibleMapIdRef} {s : PhaseShift}

theorem Covered.head (h : Covered tables (m :: maps) s) (swap : UInt32) :
    weight swap m + (maps.map (weight swap)).sum ≤ swapReferences s swap :=
  h.swaps swap

theorem Covered.rest_nonneg (h : Covered tables (m :: maps) s) (swap : UInt32) : 0 ≤ (maps.map (weight swap)).sum :=
  KnownChange.weight_nonneg h.known h.pending.tail.stored swap

theorem Covered.weight_le (h : Covered tables (m :: maps) s) (swap : UInt32) :
    weight swap m ≤ swapReferences s swap := by
  have hHead := h.head swap
  have hRest := h.rest_nonneg swap
  omega

theorem Covered.tail (h : Covered tables (m :: maps) s) : Covered tables maps s := by
  refine ⟨h.known, h.pending.tail, ?_⟩
  intro swap
  have hHead := h.head swap
  have hPositive := (h.known m h.pending.head).positive
  rw [weight] at hHead
  split at hHead <;> omega

theorem Covered.leave (h : Covered tables (m :: maps) s) {info : TerrainSwapInfo}
    (hInfo : m.visibleMapInfo = some info) :
    Covered tables maps (eraseVisibleMap (dropSwaps s info.uiWorldMapAreaIDSwaps) m) := by
  have hKnown := h.known m h.pending.head
  have hPositive : ∀ a ∈ info.uiWorldMapAreaIDSwaps, 0 < swapReferences s a := by
    intro a ha
    have hWeight := h.weight_le a
    rw [weight, if_pos ((lists_iff hInfo).mpr ha)] at hWeight
    exact hKnown.positive.trans_le hWeight
  have hMaps : (dropSwaps s info.uiWorldMapAreaIDSwaps).visibleMapIds = s.visibleMapIds :=
    dropSwaps_maps s _
  refine ⟨?_, ?_, ?_⟩
  · apply allKnown_erase
    rw [AllKnown, hMaps]
    exact h.known
  · rw [eraseVisibleMap, hMaps]
    exact h.pending.erase
  · intro swap
    have hCounter : swapReferences
        (eraseVisibleMap (dropSwaps s info.uiWorldMapAreaIDSwaps) m) swap =
          swapReferences s swap - if swap ∈ info.uiWorldMapAreaIDSwaps then 1 else 0 :=
      swapReferences_dropSwaps (hKnown.nodup hInfo) hPositive swap
    have hHead := h.head swap
    have hOne := hKnown.positive
    rw [hCounter]
    simp only [weight, lists_iff hInfo] at hHead
    split at hHead
    · rw [if_pos ‹_›]
      omega
    · rw [if_neg ‹_›]
      omega

theorem foldlM_suppressVisibleMap :
    ∀ {c c' : Change}, Covered tables maps c.phaseShift →
      AllKnown (TerrainSwaps.loadPhases tables) c.newSuppressions →
      maps.foldlM (suppressVisibleMap answers) c = some c' →
      AllKnown (TerrainSwaps.loadPhases tables) c'.phaseShift ∧
        AllKnown (TerrainSwaps.loadPhases tables) c'.newSuppressions ∧
        c'.suppressedPhaseShift = c.suppressedPhaseShift ∧
        ∀ swap, drift c'.phaseShift swap = drift c.phaseShift swap +
          surplus (maps.filter fun m => !answers.meetsTerrainSwap m.id) swap := by
  induction maps with
  | nil =>
    intro c c' h hNew hFold
    obtain rfl := Option.some.inj hFold
    exact ⟨h.known, hNew, rfl, fun swap => by simp [surplus]⟩
  | cons m maps ih =>
    intro c c' h hNew hFold
    rw [List.foldlM_cons] at hFold
    obtain ⟨next, hNext, hFold⟩ := Option.bind_eq_some_iff.mp hFold
    have hKnown := h.known m h.pending.head
    by_cases hOut : (!answers.meetsTerrainSwap m.id) = true
    · obtain ⟨info, hInfo, -⟩ := hKnown.loaded
      obtain ⟨changed, hSuppress⟩ := suppressVisibleMap_of_not (c := c) hInfo hOut
      obtain rfl := Option.some.inj (hSuppress.symm.trans hNext)
      obtain ⟨hLast, hLastNew, hSame, hRest⟩ := ih (h.leave hInfo) (allKnown_add hNew hKnown) hFold
      refine ⟨hLast, hLastNew, hSame, ?_⟩
      intro swap
      have hLeave := drift_leave hKnown hInfo h.pending.head h.weight_le swap
      rw [hRest, surplus_filter_cons, if_pos hOut, hLeave, add_assoc]
    · rw [suppressVisibleMap, if_neg hOut] at hNext
      obtain rfl := Option.some.inj hNext
      obtain ⟨hLast, hLastNew, hSame, hRest⟩ := ih h.tail hNew hFold
      refine ⟨hLast, hLastNew, hSame, ?_⟩
      intro swap
      rw [hRest, surplus_filter_cons, if_neg hOut, zero_add]

theorem foldlM_restoreVisibleMap :
    ∀ {c c' : Change}, KnownChange tables c →
      KeyedSet.Pending maps c.suppressedPhaseShift.visibleMapIds →
      maps.foldlM (restoreVisibleMap answers) c = some c' →
      KnownChange tables c' ∧
        ∀ swap, drift c'.phaseShift swap = drift c.phaseShift swap -
          surplus (maps.filter fun m => answers.meetsTerrainSwap m.id) swap := by
  induction maps with
  | nil =>
    intro c c' h _ hFold
    obtain rfl := Option.some.inj hFold
    exact ⟨h, fun swap => by simp [surplus]⟩
  | cons m maps ih =>
    intro c c' h hPending hFold
    rw [List.foldlM_cons] at hFold
    obtain ⟨next, hNext, hFold⟩ := Option.bind_eq_some_iff.mp hFold
    have hKnown := h.suppressedPhaseShift m hPending.head
    by_cases hIn : answers.meetsTerrainSwap m.id = true
    · obtain ⟨info, hInfo, -⟩ := hKnown.loaded
      obtain ⟨changed, hRestore⟩ := restoreVisibleMap_of_meets (c := c) hInfo hIn
      obtain rfl := Option.some.inj (hRestore.symm.trans hNext)
      have hEntered : AllKnown (TerrainSwaps.loadPhases tables)
          (addSwaps (c.phaseShift.addVisibleMapId m.id m.visibleMapInfo m.references).1
            info.uiWorldMapAreaIDSwaps) := by
        rw [AllKnown, addSwaps_maps]
        exact allKnown_add h.phaseShift hKnown
      have hNextKnown : KnownChange tables
          ⟨addSwaps (c.phaseShift.addVisibleMapId m.id m.visibleMapInfo m.references).1
            info.uiWorldMapAreaIDSwaps, eraseVisibleMap c.suppressedPhaseShift m, c.newSuppressions,
            changed⟩ :=
        ⟨hEntered, allKnown_erase h.suppressedPhaseShift m, h.newSuppressions⟩
      obtain ⟨hLast, hRest⟩ := ih hNextKnown hPending.erase hFold
      refine ⟨hLast, ?_⟩
      intro swap
      have hEnter := drift_enter h.phaseShift hKnown hInfo swap
      rw [hRest, surplus_filter_cons, if_pos hIn, hEnter, sub_sub]
    · rw [restoreVisibleMap, if_neg hIn] at hNext
      obtain rfl := Option.some.inj hNext
      obtain ⟨hLast, hRest⟩ := ih h hPending.tail hFold
      refine ⟨hLast, ?_⟩
      intro swap
      rw [hRest, surplus_filter_cons, if_neg hIn, zero_add]

end Sweeps

theorem drift_of_sameMaps {s' : PhaseShift} (h : SameMaps s s') (swap : UInt32) :
    drift s' swap = drift s swap := by
  rw [drift, swapReferences, mapReferences, h.visibleMapIds, h.uiWorldMapAreaIdSwaps]
  rfl

theorem allKnown_of_sameMaps {s' : PhaseShift} (h : SameMaps s s')
    (hs : AllKnown swaps s) : AllKnown swaps s' := by
  rw [AllKnown, h.visibleMapIds]
  exact hs

theorem suppressNew_known {c : Change} (h : KnownChange tables c) :
    AllKnown (TerrainSwaps.loadPhases tables) (suppressNew c).suppressedPhaseShift := by
  have hPhases := foldl_addPhase_maps c.newSuppressions.phases.entries c.suppressedPhaseShift
  exact List.foldlRecOn (motive := AllKnown (TerrainSwaps.loadPhases tables))
    c.newSuppressions.visibleMapIds.entries
    (fun s m => (s.addVisibleMapId m.id m.visibleMapInfo m.references).1)
    (allKnown_of_sameMaps hPhases h.suppressedPhaseShift) fun s hs m hm => allKnown_add hs (h.newSuppressions m hm)

/-! ## Objects -/

/-- The maps of an object are the loaded ones, and its swaps follow them. -/
structure Following (tables : TerrainTables) (o : ObjectPhases) : Prop where
  phaseShift : AllKnown (TerrainSwaps.loadPhases tables) o.phaseShift
  suppressedPhaseShift : AllKnown (TerrainSwaps.loadPhases tables) o.suppressedPhaseShift
  follow : SwapsFollow o.phaseShift

variable {o : ObjectPhases}

theorem Following.covered (h : Following tables o) (hSame : SameMaps o.phaseShift s) :
    Covered tables s.visibleMapIds.entries s := by
  refine ⟨allKnown_of_sameMaps hSame h.phaseShift, KeyedSet.pending_all _, ?_⟩
  intro swap
  have hFollow : swapReferences s swap = mapReferences s swap :=
    sub_eq_zero.mp ((drift_of_sameMaps hSame swap).trans (swapsFollow_iff_drift.mp h.follow swap))
  rw [hFollow]
  exact Int.le_refl _

/-- The visible maps a change of conditions takes out of the phase shift. -/
def leaving (answers : ConditionAnswers) (o : ObjectPhases) : List VisibleMapIdRef :=
  o.phaseShift.visibleMapIds.entries.filter fun m => !answers.meetsTerrainSwap m.id

def entering (answers : ConditionAnswers) (o : ObjectPhases) : List VisibleMapIdRef :=
  o.suppressedPhaseShift.visibleMapIds.entries.filter fun m => answers.meetsTerrainSwap m.id

theorem onConditionChange_drift {stores : PhaseStores}
    {answers : ConditionAnswers} {unit : Option PhaseAuras} {o' : ObjectPhases} {changed : Bool}
    (h : Following tables o) (hStep : onConditionChange stores answers unit o = some (o', changed)) :
    AllKnown (TerrainSwaps.loadPhases tables) o'.phaseShift ∧
      AllKnown (TerrainSwaps.loadPhases tables) o'.suppressedPhaseShift ∧
      ∀ swap, drift o'.phaseShift swap =
        surplus (leaving answers o) swap - surplus (entering answers o) swap := by
  obtain ⟨c₁, c₂, c₃, c₄, hSwept, hEq⟩ := onConditionChange_eq_some_iff.mp hStep
  obtain ⟨rfl, -⟩ := Prod.mk.inj hEq
  have h₂ : SameChangeMaps (started o) c₂ := phasesSwept_maps hSwept.suppressed hSwept.restored
  have hEmpty : AllKnown (TerrainSwaps.loadPhases tables) c₂.newSuppressions :=
    allKnown_of_sameMaps h₂.newSuppressions fun _ hm => (List.not_mem_nil hm).elim
  obtain ⟨hActive, hNew, hSuppressed, hOut⟩ :=
    foldlM_suppressVisibleMap (h.covered h₂.phaseShift) hEmpty hSwept.mapsSuppressed
  have h₃ : KnownChange tables c₃ := by
    refine ⟨hActive, ?_, hNew⟩
    rw [hSuppressed]
    exact allKnown_of_sameMaps h₂.suppressedPhaseShift h.suppressedPhaseShift
  obtain ⟨h₄, hIn⟩ := foldlM_restoreVisibleMap h₃ (KeyedSet.pending_all _) hSwept.mapsRestored
  have hAuras := keepAuras_maps stores unit c₄
  have hKnown : KnownChange tables (keepAuras stores unit c₄) :=
    ⟨allKnown_of_sameMaps hAuras.phaseShift h₄.phaseShift,
      allKnown_of_sameMaps hAuras.suppressedPhaseShift h₄.suppressedPhaseShift,
      allKnown_of_sameMaps hAuras.newSuppressions h₄.newSuppressions⟩
  refine ⟨hKnown.phaseShift, suppressNew_known hKnown, ?_⟩
  intro swap
  have hStart : drift (started o).phaseShift swap = 0 := swapsFollow_iff_drift.mp h.follow swap
  have hLast : drift (keepAuras stores unit c₄).phaseShift swap =
      surplus (leaving answers o) swap - surplus (entering answers o) swap := by
    rw [drift_of_sameMaps hAuras.phaseShift, hIn, hOut, drift_of_sameMaps h₂.phaseShift, hStart, zero_add, hSuppressed,
      h₂.phaseShift.visibleMapIds, h₂.suppressedPhaseShift.visibleMapIds]
    rfl
  exact hLast

/-- The other operations keep the counters of an object and its suppressed phases. -/
structure Runs (tables : TerrainTables) (o : ObjectPhases) : Prop extends Following tables o where
  sound : SoundObject o
  conditioned : ∀ p ∈ o.suppressedPhaseShift.phases.entries, p.areaConditions.isSome

theorem AllKnown.loaded (h : AllKnown swaps s) :
    MapsLoaded s := by
  intro m hm
  obtain ⟨info, hInfo, -⟩ := (h m hm).loaded
  rw [hInfo]
  rfl

theorem Runs.valid (h : Runs tables o) : Valid o :=
  ⟨h.sound.phaseShift.positive,
    fun p hp => ⟨h.sound.suppressedPhaseShift.positive p hp, h.conditioned p hp⟩,
    AllKnown.loaded h.phaseShift, AllKnown.loaded h.suppressedPhaseShift⟩

theorem addSwaps_sound (h : Sound s) (swaps : List UInt32) :
    Sound (addSwaps s swaps) :=
  List.foldlRecOn (motive := Sound) swaps (fun s swap => (s.addUiWorldMapAreaIdSwap swap 1).1) h
    fun _ hs swap _ => addUiWorldMapAreaIdSwap_sound hs swap 1

theorem dropSwaps_sound (h : Sound s) (swaps : List UInt32) :
    Sound (dropSwaps s swaps) :=
  List.foldlRecOn (motive := Sound) swaps (fun s swap => (s.removeUiWorldMapAreaIdSwap swap).1) h
    fun _ hs swap _ => removeUiWorldMapAreaIdSwap_sound hs swap

theorem foldl_addSwapOf (r : PhaseShift × Bool) (swaps : List UInt32) :
    (swaps.foldl addSwapOf r).1 = addSwaps r.1 swaps := by
  induction swaps generalizing r with
  | nil => rfl
  | cons swap swaps ih => exact ih _

theorem foldl_removeSwapOf (r : PhaseShift × Bool) (swaps : List UInt32) :
    (swaps.foldl removeSwapOf r).1 = dropSwaps r.1 swaps := by
  induction swaps generalizing r with
  | nil => rfl
  | cons swap swaps ih => exact ih _

section Operations

variable {tables : TerrainTables} {o : ObjectPhases}

theorem surplus_single (m : VisibleMapIdRef) (h : m.references = 1) (swap : UInt32) :
    surplus [m] swap = 0 := by
  simp [surplus, h]

theorem Runs.enter (h : Runs tables o) {info : TerrainSwapInfo}
    (hInfo : (TerrainSwaps.loadPhases tables).getTerrainSwapInfo info.id = some info) :
    Runs tables { o with
      phaseShift := addSwaps (o.phaseShift.addVisibleMapId info.id (some info) 1).1
        info.uiWorldMapAreaIDSwaps } := by
  have hKnown : Known (TerrainSwaps.loadPhases tables) ⟨info.id, 1, some info⟩ :=
    ⟨Int.one_pos, info, rfl, hInfo⟩
  refine ⟨⟨?_, h.suppressedPhaseShift, ?_⟩, ?_, h.conditioned⟩
  · rw [AllKnown, addSwaps_maps]
    exact allKnown_add h.phaseShift hKnown
  · rw [swapsFollow_iff_drift]
    intro swap
    have hEnter := drift_enter h.phaseShift hKnown rfl swap
    rw [surplus_single _ rfl, sub_zero, swapsFollow_iff_drift.mp h.follow swap] at hEnter
    exact hEnter
  · exact ⟨addSwaps_sound (addVisibleMapId_sound h.sound.phaseShift _ _ _) _,
      h.sound.suppressedPhaseShift⟩

variable {r : ObjectPhases × Bool}

theorem addVisibleMapId_runs (h : Runs tables o) {visibleMapId : UInt32}
    (hStep : addVisibleMapId (TerrainSwaps.loadPhases tables) o visibleMapId = some r) :
    Runs tables r.1 := by
  rw [addVisibleMapId] at hStep
  obtain ⟨info, hInfo, hStep⟩ := Option.bind_eq_some_iff.mp hStep
  obtain rfl := Option.some.inj hStep
  dsimp only
  rw [foldl_addSwapOf, hInfo]
  have hId := TerrainSwaps.id_of_getTerrainSwapInfo hInfo
  subst hId
  exact h.enter hInfo

theorem removeVisibleMapId_runs (h : Runs tables o) {visibleMapId : UInt32}
    {m : VisibleMapIdRef} (hFind : o.phaseShift.visibleMapIds.find? visibleMapId.toNat = some m)
    (hStep : removeVisibleMapId (TerrainSwaps.loadPhases tables) o visibleMapId = some r) :
    Runs tables r.1 := by
  rw [removeVisibleMapId] at hStep
  obtain ⟨info, hInfo, hStep⟩ := Option.bind_eq_some_iff.mp hStep
  obtain rfl := Option.some.inj hStep
  dsimp only
  rw [foldl_removeSwapOf]
  have hMem := (KeyedSet.find?_eq_some_iff.mp hFind).1
  have hKnown := h.phaseShift m hMem
  have hRecord : m.visibleMapInfo = some info := by
    rw [hKnown.info_eq, id_eq_of_key (KeyedSet.find?_eq_some_iff.mp hFind).2]
    exact hInfo
  have hMaps := mapReferences_remove hFind
  have hSame : ∀ swap, swapReferences (o.phaseShift.removeVisibleMapId visibleMapId).1 swap =
      swapReferences o.phaseShift swap := by
    intro swap
    rw [PhaseShift.removeVisibleMapId, hFind]
    dsimp only
    split <;> rfl
  have hPositive : ∀ a ∈ info.uiWorldMapAreaIDSwaps,
      0 < swapReferences (o.phaseShift.removeVisibleMapId visibleMapId).1 a := by
    intro a ha
    have hErase := mapReferences_erase hMem a
    have hRest := KnownChange.weight_nonneg (allKnown_erase h.phaseShift m) (fun _ hn => hn) a
    have hTotal : mapReferences (eraseVisibleMap o.phaseShift m) a =
        ((eraseVisibleMap o.phaseShift m).visibleMapIds.entries.map (weight a)).sum := rfl
    have hWeight : weight a m = m.references := if_pos ((lists_iff hRecord).mpr ha)
    have hOne := hKnown.positive
    rw [hSame, h.follow]
    omega
  refine ⟨⟨?_, h.suppressedPhaseShift, ?_⟩, ?_, h.conditioned⟩
  · rw [AllKnown, dropSwaps_maps]
    exact allKnown_remove hFind h.phaseShift
  · intro swap
    rw [swapReferences_dropSwaps (hKnown.nodup hRecord) hPositive, mapReferences, dropSwaps_maps, hSame,
      h.follow]
    have hLess := hMaps swap
    rw [mapReferences] at hLess
    rw [hLess]
    simp only [lists_iff hRecord]
  · exact ⟨dropSwaps_sound (removeVisibleMapId_sound h.sound.phaseShift _) _,
      h.sound.suppressedPhaseShift⟩

theorem onMapChange_runs (h : Runs tables o) (answers : ConditionAnswers) (mapId : UInt32) :
    Runs tables (onMapChange (TerrainSwaps.loadPhases tables) answers mapId o) := by
  have hCleared : Runs tables
      ⟨{ o.phaseShift with visibleMapIds := .empty, uiWorldMapAreaIdSwaps := .empty },
        { o.suppressedPhaseShift with visibleMapIds := .empty }⟩ := by
    refine ⟨⟨fun _ hm => (List.not_mem_nil hm).elim, fun _ hm => (List.not_mem_nil hm).elim,
      fun _ => rfl⟩, ⟨?_, ?_⟩, h.conditioned⟩
    · exact h.sound.phaseShift.with_maps _ _
    · exact h.sound.suppressedPhaseShift.with_maps _ _
  rw [onMapChange]
  split
  · rename_i infos hInfos
    refine List.foldlRecOn (motive := Runs tables) infos (placeVisibleMap answers) hCleared ?_
    intro o ho info hMem
    have hInfo := TerrainSwaps.mem_getTerrainSwapsForMap hInfos hMem
    rw [placeVisibleMap]
    split
    · exact ho.enter hInfo
    · refine ⟨⟨ho.phaseShift, ?_, ho.follow⟩, ⟨ho.sound.phaseShift, ?_⟩, ho.conditioned⟩
      · exact allKnown_add (m := ⟨info.id, 1, some info⟩) ho.suppressedPhaseShift
          ⟨Int.one_pos, info, rfl, hInfo⟩
      · exact addVisibleMapId_sound ho.sound.suppressedPhaseShift _ _ _
  · exact hCleared

theorem resetPhaseShift_runs (h : Runs tables o) : Runs tables (resetPhaseShift o) := by
  refine ⟨⟨fun _ hm => (List.not_mem_nil hm).elim, fun _ hm => (List.not_mem_nil hm).elim,
    fun _ => rfl⟩, ⟨?_, ?_⟩, fun _ hp => (List.not_mem_nil hp).elim⟩
  · exact clear_sound h.sound.phaseShift.notDb
  · exact clear_sound h.sound.suppressedPhaseShift.notDb

theorem onConditionChange_runs (h : Runs tables o) {stores : PhaseStores}
    {answers : ConditionAnswers} {unit : Option PhaseAuras}
    (hStep : onConditionChange stores answers unit o = some r)
    (hFollow : SwapsFollow r.1.phaseShift) : Runs tables r.1 := by
  obtain ⟨hActive, hSuppressed, -⟩ := onConditionChange_drift h.toFollowing hStep
  refine ⟨⟨hActive, hSuppressed, hFollow⟩, onConditionChange_sound h.sound hStep, ?_⟩
  intro p hp
  obtain ⟨conditions, hConditions, -⟩ := (settled_of_onConditionChange h.valid hStep).suppressed p hp
  rw [hConditions]
  rfl

end Operations

/-! ## Runs -/

inductive Label
  | addVisibleMapId (visibleMapId : UInt32)
  | removeVisibleMapId (visibleMapId : UInt32)
  | onMapChange (answers : ConditionAnswers) (mapId : UInt32)
  | onConditionChange (stores : PhaseStores) (answers : ConditionAnswers) (unit : Option PhaseAuras)
  | resetPhaseShift

def step (tables : TerrainTables) (o : ObjectPhases) : Label → Option ObjectPhases
  | .addVisibleMapId visibleMapId =>
    (addVisibleMapId (TerrainSwaps.loadPhases tables) o visibleMapId).map (·.1)
  | .removeVisibleMapId visibleMapId =>
    if o.phaseShift.visibleMapIds.contains visibleMapId.toNat then
      (removeVisibleMapId (TerrainSwaps.loadPhases tables) o visibleMapId).map (·.1)
    else none
  | .onMapChange answers mapId =>
    some (onMapChange (TerrainSwaps.loadPhases tables) answers mapId o)
  | .onConditionChange stores answers unit => (onConditionChange stores answers unit o).map (·.1)
  | .resetPhaseShift => some (resetPhaseShift o)

/-- The step of a run. A run that fails or is refused has no state. -/
def attempt (tables : TerrainTables) (o : Option ObjectPhases) (label : Label) : Option ObjectPhases :=
  o.bind fun o => step tables o label

def fresh : ObjectPhases := ⟨.new, .new⟩

def EvenlyMoved (o : ObjectPhases) : Label → Prop
  | .onConditionChange _ answers _ =>
    ∀ swap, surplus (leaving answers o) swap = surplus (entering answers o) swap
  | _ => True

theorem step_runs {o' : ObjectPhases} (h : Runs tables o) {label : Label}
    (hEven : EvenlyMoved o label) (hStep : step tables o label = some o') : Runs tables o' := by
  cases label with
  | addVisibleMapId visibleMapId =>
    obtain ⟨r, hAdd, rfl⟩ := Option.map_eq_some_iff.mp hStep
    exact addVisibleMapId_runs h hAdd
  | removeVisibleMapId visibleMapId =>
    rw [step] at hStep
    split at hStep
    · rename_i hContains
      obtain ⟨r, hRemove, rfl⟩ := Option.map_eq_some_iff.mp hStep
      obtain ⟨m, hMem, hKey⟩ := KeyedSet.contains_iff.mp hContains
      exact removeVisibleMapId_runs h (KeyedSet.find?_eq_some_iff.mpr ⟨hMem, hKey⟩) hRemove
    · cases hStep
  | onMapChange answers mapId => exact Option.some.inj hStep ▸ onMapChange_runs h answers mapId
  | onConditionChange stores answers unit =>
    obtain ⟨r, hChange, rfl⟩ := Option.map_eq_some_iff.mp hStep
    obtain ⟨-, -, hDrift⟩ := onConditionChange_drift h.toFollowing hChange
    refine onConditionChange_runs h hChange (swapsFollow_iff_drift.mpr fun swap => ?_)
    rw [hDrift, hEven swap, sub_self]
  | resetPhaseShift => exact Option.some.inj hStep ▸ resetPhaseShift_runs h

/-- In a run of an object the swaps of its phase shift follow its visible maps exactly while
every change of conditions moves the same surplus out of the shift and into it. -/
theorem swaps_follow_iff_evenly_moved (tables : TerrainTables) (labels : List Label) :
    (∀ first, first <+: labels → ∀ o, run (attempt tables) (some fresh) first = some o →
      SwapsFollow o.phaseShift) ↔
    Along (attempt tables) (fun o label => ∀ s, o = some s → EvenlyMoved s label) (some fresh)
      labels := by
  refine reached_iff_along (I := fun o => ∀ s, o = some s → Runs tables s)
    (P := fun o => ∀ s, o = some s → SwapsFollow s.phaseShift) ?_ ?_ ?_ ?_ labels
  · intro o label hRuns hEven next hNext
    obtain ⟨s, rfl, hStep⟩ := Option.bind_eq_some_iff.mp hNext
    exact step_runs (hRuns s rfl) (hEven s rfl) hStep
  · exact fun o hRuns s hs => (hRuns s hs).follow
  · rintro o label hRuns hFollow s rfl
    have h := hRuns s rfl
    cases label with
    | onConditionChange stores answers unit =>
      obtain ⟨r, hChange⟩ := exists_onConditionChange h.valid stores answers unit
      have hStep : attempt tables (some s) (.onConditionChange stores answers unit) = some r.1 := by
        rw [attempt, Option.bind_some, step, hChange]
        rfl
      obtain ⟨-, -, hDrift⟩ := onConditionChange_drift h.toFollowing hChange
      intro swap
      have hZero := swapsFollow_iff_drift.mp (hFollow r.1 hStep) swap
      rw [hDrift] at hZero
      exact sub_eq_zero.mp hZero
    | addVisibleMapId => trivial
    | removeVisibleMapId => trivial
    | onMapChange => trivial
    | resetPhaseShift => trivial
  · intro s hs
    obtain rfl := Option.some.inj hs
    exact ⟨⟨fun _ hm => (List.not_mem_nil hm).elim, fun _ hm => (List.not_mem_nil hm).elim,
      fun _ => rfl⟩, ⟨new_sound, new_sound⟩, fun _ hp => (List.not_mem_nil hp).elim⟩

def oneSwap : TerrainTables :=
  ⟨[⟨545, 1⟩], [7], [⟨545, 7⟩], List.nodup_singleton _, []⟩

def addedTwice : List Label :=
  [.addVisibleMapId 545, .addVisibleMapId 545,
    .onConditionChange ⟨fun _ => none, fun _ => none⟩ ⟨fun _ => true, fun _ => false⟩ none]

theorem swap_stays_behind : ∃ o, run (attempt oneSwap) (some fresh) addedTwice = some o ∧
    swapReferences o.phaseShift 7 = 1 ∧ mapReferences o.phaseShift 7 = 0 ∧
    ¬ SwapsFollow o.phaseShift :=
  ⟨_, rfl, by decide, by decide, fun h => absurd (h 7) (by decide)⟩

end AshamaneCore.SwapReferences
