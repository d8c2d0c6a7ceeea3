import AshamaneCore.Game.PhasingHandler
import AshamaneCore.Library.Transition

/-!
# Phases and maps apart

The operations on the phases of a shift leave its visible maps and its swaps as
they are, and the operations on maps and swaps leave the phases.
-/

namespace AshamaneCore.PhaseFrames

open Library Library.Transition PhasingHandler

/-! ## Phases do not touch maps -/

structure SameMaps (s s' : PhaseShift) : Prop where
  visibleMapIds : s'.visibleMapIds = s.visibleMapIds
  uiWorldMapAreaIdSwaps : s'.uiWorldMapAreaIdSwaps = s.uiWorldMapAreaIdSwaps

theorem SameMaps.rfl {s : PhaseShift} : SameMaps s s := ⟨Eq.refl _, Eq.refl _⟩

theorem SameMaps.trans {s t u : PhaseShift} (h : SameMaps s t) (hNext : SameMaps t u) :
    SameMaps s u :=
  ⟨hNext.visibleMapIds.trans h.visibleMapIds,
    hNext.uiWorldMapAreaIdSwaps.trans h.uiWorldMapAreaIdSwaps⟩

theorem modifyPhasesReferences_maps (s : PhaseShift) (p : PhaseRef) (references : Int) :
    SameMaps s (s.modifyPhasesReferences p references) := by
  rw [PhaseShift.modifyPhasesReferences]
  dsimp only
  split
  · rw [PhaseShift.countReferences]
    split
    · exact ⟨Eq.refl _, Eq.refl _⟩
    · split <;> exact ⟨Eq.refl _, Eq.refl _⟩
  · exact ⟨Eq.refl _, Eq.refl _⟩

theorem addPhase_maps (s : PhaseShift) (phaseId : UInt32) (flags : EnumClassFlag 16)
    (areaConditions : Option Nat) (references : Int) :
    SameMaps s (s.addPhase phaseId flags areaConditions references).1 := by
  rw [PhaseShift.addPhase]
  generalize (s.phases.find? (PhaseRef.new phaseId flags none).key).getD
    (.new phaseId flags none) = p
  have hMaps := modifyPhasesReferences_maps { s with phases := s.phases.emplace p } p references
  split
  · exact ⟨hMaps.visibleMapIds, hMaps.uiWorldMapAreaIdSwaps⟩
  · exact ⟨hMaps.visibleMapIds, hMaps.uiWorldMapAreaIdSwaps⟩

theorem foldl_addPhase_maps (phases : List PhaseRef) (s : PhaseShift) :
    SameMaps s (phases.foldl
      (fun s p => (s.addPhase p.id.toUInt32 p.flags p.areaConditions p.references).1) s) :=
  List.foldlRecOn (motive := SameMaps s) phases
    (fun s p => (s.addPhase p.id.toUInt32 p.flags p.areaConditions p.references).1) SameMaps.rfl
    fun t ht _ _ => ht.trans (addPhase_maps t _ _ _ _)

theorem removePhase_maps (s : PhaseShift) (phaseId : UInt32) :
    SameMaps s (s.removePhase phaseId).1 := by
  rw [PhaseShift.removePhase]
  split
  · rename_i p _
    have hMaps := modifyPhasesReferences_maps s p (-1)
    dsimp only
    split
    · exact ⟨hMaps.visibleMapIds, hMaps.uiWorldMapAreaIdSwaps⟩
    · exact hMaps
  · exact SameMaps.rfl

theorem takePhase_maps (s : PhaseShift) (p : PhaseRef) : SameMaps s (takePhase s p) := by
  have hMaps := modifyPhasesReferences_maps s p (-p.references)
  exact ⟨hMaps.visibleMapIds, hMaps.uiWorldMapAreaIdSwaps⟩

structure SameChangeMaps (c c' : Change) : Prop where
  phaseShift : SameMaps c.phaseShift c'.phaseShift
  suppressedPhaseShift : SameMaps c.suppressedPhaseShift c'.suppressedPhaseShift
  newSuppressions : SameMaps c.newSuppressions c'.newSuppressions

variable {c : Change}

theorem SameChangeMaps.rfl : SameChangeMaps c c :=
  ⟨SameMaps.rfl, SameMaps.rfl, SameMaps.rfl⟩

theorem SameChangeMaps.trans {d e : Change} (h : SameChangeMaps c d) (hNext : SameChangeMaps d e) :
    SameChangeMaps c e :=
  ⟨h.phaseShift.trans hNext.phaseShift, h.suppressedPhaseShift.trans hNext.suppressedPhaseShift,
    h.newSuppressions.trans hNext.newSuppressions⟩

theorem suppressPhase_maps (answers : ConditionAnswers) (c : Change) (p : PhaseRef) :
    SameChangeMaps c (suppressPhase answers c p) := by
  rw [suppressPhase]
  split
  · split
    · exact ⟨takePhase_maps _ _, SameMaps.rfl, addPhase_maps _ _ _ _ _⟩
    · exact SameChangeMaps.rfl
  · exact SameChangeMaps.rfl

variable {answers : ConditionAnswers} {c' : Change}

theorem restorePhase_maps {p : PhaseRef}
    (h : restorePhase answers c p = some c') : SameChangeMaps c c' := by
  obtain ⟨conditions, -, hMeets⟩ := Option.bind_eq_some_iff.mp h
  split at hMeets
  · obtain rfl := Option.some.inj hMeets
    exact ⟨addPhase_maps _ _ _ _ _, takePhase_maps _ _, SameMaps.rfl⟩
  · exact Option.some.inj hMeets ▸ SameChangeMaps.rfl

theorem keepAuraPhase_maps (stores : PhaseStores) (c : Change) (phaseId : UInt32) :
    SameChangeMaps c (keepAuraPhase stores c phaseId) := by
  rw [keepAuraPhase]
  dsimp only
  split
  · exact ⟨addPhase_maps _ _ _ _ _, SameMaps.rfl, removePhase_maps _ _⟩
  · exact ⟨SameMaps.rfl, SameMaps.rfl, removePhase_maps _ _⟩

theorem phasesSwept_maps {o : ObjectPhases} {c₁ c₂ : Change}
    (hSuppressed : c₁ =
      (started o).phaseShift.phases.entries.foldl (suppressPhase answers) (started o))
    (hRestored : c₁.suppressedPhaseShift.phases.entries.foldlM (restorePhase answers) c₁ = some c₂) :
    SameChangeMaps (started o) c₂ := by
  have h₁ : SameChangeMaps (started o) c₁ := by
    rw [hSuppressed]
    exact List.foldlRecOn (motive := SameChangeMaps (started o)) _ (suppressPhase answers)
      SameChangeMaps.rfl fun c hc p _ => hc.trans (suppressPhase_maps answers c p)
  exact foldlM_invariant (fun _ _ _ hc hNext => hc.trans (restorePhase_maps hNext)) hRestored h₁

theorem keepAuras_maps (stores : PhaseStores) (unit : Option PhaseAuras) (c : Change) :
    SameChangeMaps c (keepAuras stores unit c) := by
  cases unit with
  | some auras =>
    exact List.foldlRecOn (motive := SameChangeMaps c) _ (keepAuraPhase stores) SameChangeMaps.rfl
      fun d hd phaseId _ => hd.trans (keepAuraPhase_maps stores d phaseId)
  | none => exact SameChangeMaps.rfl

/-! ## Swaps do not touch maps -/

theorem removeUiWorldMapAreaIdSwap_maps (s : PhaseShift) (swap : UInt32) :
    (s.removeUiWorldMapAreaIdSwap swap).1.visibleMapIds = s.visibleMapIds := by
  rw [PhaseShift.removeUiWorldMapAreaIdSwap]
  split
  · dsimp only
    split <;> rfl
  · rfl

theorem dropSwaps_maps (s : PhaseShift) (swaps : List UInt32) :
    (dropSwaps s swaps).visibleMapIds = s.visibleMapIds := by
  induction swaps generalizing s with
  | nil => rfl
  | cons swap swaps ih => exact (ih _).trans (removeUiWorldMapAreaIdSwap_maps s swap)

theorem addSwaps_maps (s : PhaseShift) (swaps : List UInt32) :
    (addSwaps s swaps).visibleMapIds = s.visibleMapIds := by
  induction swaps generalizing s with
  | nil => rfl
  | cons swap swaps ih => exact ih _

/-! ## Maps do not touch phases -/

theorem addSwaps_phases (s : PhaseShift) (swaps : List UInt32) :
    (addSwaps s swaps).phases = s.phases := by
  induction swaps generalizing s with
  | nil => rfl
  | cons swap swaps ih => exact ih _

theorem removeUiWorldMapAreaIdSwap_phases (s : PhaseShift) (swap : UInt32) :
    (s.removeUiWorldMapAreaIdSwap swap).1.phases = s.phases := by
  rw [PhaseShift.removeUiWorldMapAreaIdSwap]
  split
  · dsimp only
    split <;> rfl
  · rfl

theorem dropSwaps_phases (s : PhaseShift) (swaps : List UInt32) :
    (dropSwaps s swaps).phases = s.phases := by
  induction swaps generalizing s with
  | nil => rfl
  | cons swap swaps ih => exact (ih _).trans (removeUiWorldMapAreaIdSwap_phases s swap)

structure SameChangePhases (c c' : Change) : Prop where
  phaseShift : c'.phaseShift.phases = c.phaseShift.phases
  suppressedPhaseShift : c'.suppressedPhaseShift.phases = c.suppressedPhaseShift.phases
  newSuppressions : c'.newSuppressions.phases = c.newSuppressions.phases

theorem SameChangePhases.rfl : SameChangePhases c c :=
  ⟨Eq.refl _, Eq.refl _, Eq.refl _⟩

theorem SameChangePhases.trans {d e : Change} (h : SameChangePhases c d)
    (hNext : SameChangePhases d e) : SameChangePhases c e :=
  ⟨hNext.phaseShift.trans h.phaseShift, hNext.suppressedPhaseShift.trans h.suppressedPhaseShift,
    hNext.newSuppressions.trans h.newSuppressions⟩

theorem suppressVisibleMap_phases {m : VisibleMapIdRef} (h : suppressVisibleMap answers c m = some c') :
    SameChangePhases c c' := by
  by_cases hOut : (!answers.meetsTerrainSwap m.id) = true
  · cases hInfo : m.visibleMapInfo with
    | none => simp [suppressVisibleMap, hOut, hInfo] at h
    | some info =>
      obtain ⟨changed, hSuppress⟩ := suppressVisibleMap_of_not (c := c) hInfo hOut
      obtain rfl := Option.some.inj (hSuppress.symm.trans h)
      exact ⟨dropSwaps_phases _ _, Eq.refl _, Eq.refl _⟩
  · rw [suppressVisibleMap, if_neg hOut] at h
    exact Option.some.inj h ▸ SameChangePhases.rfl

theorem restoreVisibleMap_phases {m : VisibleMapIdRef}
    (h : restoreVisibleMap answers c m = some c') : SameChangePhases c c' := by
  by_cases hIn : answers.meetsTerrainSwap m.id = true
  · cases hInfo : m.visibleMapInfo with
    | none => simp [restoreVisibleMap, hIn, hInfo] at h
    | some info =>
      obtain ⟨changed, hRestore⟩ := restoreVisibleMap_of_meets (c := c) hInfo hIn
      obtain rfl := Option.some.inj (hRestore.symm.trans h)
      exact ⟨addSwaps_phases _ _, Eq.refl _, Eq.refl _⟩
  · rw [restoreVisibleMap, if_neg hIn] at h
    exact Option.some.inj h ▸ SameChangePhases.rfl

end AshamaneCore.PhaseFrames
