import AshamaneCore.Game.PhasingHandler
import AshamaneCore.Library.Transition

/-!
# The reference counters of phases

Every stored phase belongs to one class, and the counter of the class is the sum
of the references of its phases. The flags follow from the counters. A bulk move
empties a phase before it erases it, so only between the two statements a phase
without references is stored.
-/

namespace AshamaneCore.PhaseReferences

open Library Library.Transition EnumClassFlag PhaseShift PhasingHandler

inductive PhaseClass
  | cosmetic
  | default
  | nonCosmetic
  deriving DecidableEq

def classOf (p : PhaseRef) : PhaseClass :=
  if hasFlag p.flags PhaseFlags.cosmetic then .cosmetic
  else if p.id = DEFAULT_PHASE then .default
  else .nonCosmetic

def counter (s : PhaseShift) : PhaseClass → Int
  | .cosmetic => s.cosmeticReferences
  | .default => s.defaultReferences
  | .nonCosmetic => s.nonCosmeticReferences

def weight (c : PhaseClass) (p : PhaseRef) : Int := if classOf p = c then p.references else 0

def referencesOf (s : PhaseShift) (c : PhaseClass) : Int := s.phases.total (weight c)

def UnphasedByReferences (s : PhaseShift) : Prop :=
  s.nonCosmeticReferences = 0 ∨ s.defaultReferences ≠ 0

structure FlagsFollow (s : PhaseShift) : Prop where
  noCosmetic : hasFlag s.flags PhaseShiftFlags.noCosmetic = true ↔ s.cosmeticReferences ≠ 0
  unphased : hasFlag s.flags PhaseShiftFlags.unphased = true ↔
    hasFlag s.flags PhaseShiftFlags.inverse = false ∧ UnphasedByReferences s
  inverseUnphased : hasFlag s.flags PhaseShiftFlags.inverseUnphased = true ↔
    hasFlag s.flags PhaseShiftFlags.inverse = true ∧ UnphasedByReferences s

structure Counted (s : PhaseShift) : Prop where
  positive : ∀ p ∈ s.phases.entries, 0 < p.references
  counters : ∀ c, counter s c = referencesOf s c
  flags : FlagsFollow s

/-! ## Flags -/

variable {s : PhaseShift}

theorem unphasedByReferences_iff :
    UnphasedByReferences s ↔ ¬ (s.nonCosmeticReferences ≠ 0 ∧ s.defaultReferences = 0) := by
  simp [UnphasedByReferences, or_iff_not_imp_left]

theorem updateUnphasedFlag_flags (s : PhaseShift) :
    s.updateUnphasedFlag.flags =
      if hasFlag s.flags PhaseShiftFlags.inverse = false then
        assign (s.flags &&& ~~~PhaseShiftFlags.inverseUnphased) PhaseShiftFlags.unphased
          (¬ (s.nonCosmeticReferences ≠ 0 ∧ s.defaultReferences = 0))
      else assign (s.flags &&& ~~~PhaseShiftFlags.unphased) PhaseShiftFlags.inverseUnphased
          (¬ (s.nonCosmeticReferences ≠ 0 ∧ s.defaultReferences = 0)) := by
  rw [updateUnphasedFlag, assign, assign, ite_not, ite_not]
  cases hasFlag s.flags PhaseShiftFlags.inverse with
  | false => rfl
  | true => rfl

theorem updateUnphasedFlag_apart (s : PhaseShift) {flag : EnumClassFlag 32}
    (hUnphased : Apart PhaseShiftFlags.unphased flag)
    (hInverse : Apart PhaseShiftFlags.inverseUnphased flag) :
    hasFlag s.updateUnphasedFlag.flags flag = hasFlag s.flags flag := by
  rw [updateUnphasedFlag_flags]
  split
  · rw [hasFlag_assign_apart hUnphased, hasFlag_clear hInverse]
  · rw [hasFlag_assign_apart hInverse, hasFlag_clear hUnphased]

theorem updateUnphasedFlag_follow (h : hasFlag s.flags PhaseShiftFlags.noCosmetic = true ↔ s.cosmeticReferences ≠ 0) :
    FlagsFollow s.updateUnphasedFlag := by
  have hInverse : hasFlag s.updateUnphasedFlag.flags PhaseShiftFlags.inverse =
      hasFlag s.flags PhaseShiftFlags.inverse :=
    updateUnphasedFlag_apart s (by decide) (by decide)
  have hSame : UnphasedByReferences s.updateUnphasedFlag ↔ UnphasedByReferences s := Iff.rfl
  refine ⟨?_, ?_, ?_⟩
  · rw [updateUnphasedFlag_apart s (by decide) (by decide)]
    exact h
  · rw [hInverse, hSame, updateUnphasedFlag_flags, unphasedByReferences_iff]
    split
    · rename_i hNot
      rw [hasFlag_assign (by decide)]
      exact (and_iff_right hNot).symm
    · rename_i hSet
      rw [hasFlag_assign_apart (by decide), hasFlag_clear_self]
      exact iff_of_false Bool.false_ne_true fun hAll => hSet hAll.1
  · rw [hInverse, hSame, updateUnphasedFlag_flags, unphasedByReferences_iff]
    split
    · rename_i hNot
      rw [hasFlag_assign_apart (by decide), hasFlag_clear_self, hNot]
      exact iff_of_false Bool.false_ne_true fun hAll => Bool.false_ne_true hAll.1
    · rename_i hSet
      rw [hasFlag_assign (by decide)]
      exact (and_iff_right (eq_true_of_ne_false hSet)).symm

variable {s' : PhaseShift}

theorem FlagsFollow.of_flags (h : FlagsFollow s)
    (hNonCosmetic : s'.nonCosmeticReferences = s.nonCosmeticReferences)
    (hCosmetic : s'.cosmeticReferences = s.cosmeticReferences)
    (hDefault : s'.defaultReferences = s.defaultReferences)
    (hFlags : ∀ flag ∈ [PhaseShiftFlags.inverse, PhaseShiftFlags.inverseUnphased,
      PhaseShiftFlags.unphased, PhaseShiftFlags.noCosmetic],
      hasFlag s'.flags flag = hasFlag s.flags flag) : FlagsFollow s' := by
  simp only [List.forall_mem_cons, List.not_mem_nil, false_implies, implies_true, and_true] at hFlags
  obtain ⟨hInverse, hInverseUnphased, hUnphased, hNoCosmetic⟩ := hFlags
  refine ⟨?_, ?_, ?_⟩
  · rw [hNoCosmetic, hCosmetic]
    exact h.noCosmetic
  · rw [hUnphased, hInverse, UnphasedByReferences, hNonCosmetic, hDefault]
    exact h.unphased
  · rw [hInverseUnphased, hInverse, UnphasedByReferences, hNonCosmetic, hDefault]
    exact h.inverseUnphased

/-! ## The operations of a shift -/

/-- A shift that counts, stored phases without references allowed. -/
structure Counts (s : PhaseShift) : Prop where
  notDb : s.isDbPhaseShift = false
  counters : ∀ c, counter s c = referencesOf s c
  flags : FlagsFollow s

structure Sound (s : PhaseShift) : Prop extends Counts s where
  positive : ∀ p ∈ s.phases.entries, 0 < p.references

theorem Sound.counted (h : Sound s) : Counted s := ⟨h.positive, h.counters, h.flags⟩

theorem Sound.with_flags (h : Sound s) (hDb : s'.isDbPhaseShift = false)
    (hPhases : s'.phases = s.phases) (hCounter : counter s' = counter s) (hFlags : FlagsFollow s') :
    Sound s' := by
  refine ⟨⟨hDb, ?_, hFlags⟩, ?_⟩
  · intro c
    rw [hCounter, referencesOf, hPhases]
    exact h.counters c
  · rw [hPhases]
    exact h.positive

theorem new_sound : Sound new := by
  refine ⟨⟨rfl, ?_, ?_⟩, fun _ hp => (List.not_mem_nil hp).elim⟩
  · intro c
    cases c <;> rfl
  · refine ⟨?_, ?_, ?_⟩ <;> simp [new, UnphasedByReferences] <;> decide

theorem Counts.with_phases (h : Counts s) {phases : KeyedSet PhaseRef.key}
    (hTotal : ∀ c, phases.total (weight c) = s.phases.total (weight c)) :
    Counts { s with phases := phases } :=
  ⟨h.notDb, fun c => (h.counters c).trans (hTotal c).symm,
    h.flags.of_flags rfl rfl rfl fun _ _ => rfl⟩

theorem countReferences_phases (s : PhaseShift) (p : PhaseRef) (references : Int) :
    (s.countReferences p references).phases = s.phases := by
  rw [countReferences]
  split
  · rfl
  · split <;> rfl

theorem countReferences_isDb (s : PhaseShift) (p : PhaseRef) (references : Int) :
    (s.countReferences p references).isDbPhaseShift = s.isDbPhaseShift := by
  rw [countReferences]
  split
  · rfl
  · split <;> rfl

theorem countReferences_counter (s : PhaseShift) (p : PhaseRef) (references : Int) (c : PhaseClass) :
    counter (s.countReferences p references) c =
      counter s c + if classOf p = c then references else 0 := by
  rw [countReferences, classOf]
  split
  · cases c <;> simp [counter]
  · by_cases hDefault : p.id = DEFAULT_PHASE
    · rw [if_neg (not_not.mpr hDefault), if_pos hDefault]
      cases c <;> simp [counter]
    · rw [if_pos hDefault, if_neg hDefault]
      cases c <;> simp [counter]

theorem counter_of_flags (s : PhaseShift) (c : PhaseClass) :
    counter s.updateNoCosmeticFlag.updateUnphasedFlag c = counter s c := by
  cases c <;> rfl

theorem updateNoCosmeticFlag_flag (s : PhaseShift) :
    hasFlag s.updateNoCosmeticFlag.flags PhaseShiftFlags.noCosmetic = true ↔
      s.updateNoCosmeticFlag.cosmeticReferences ≠ 0 :=
  hasFlag_assign (by decide) s.flags (s.cosmeticReferences ≠ 0)

theorem modifyPhasesReferences_of_notDb (h : s.isDbPhaseShift = false)
    (p : PhaseRef) (references : Int) :
    s.modifyPhasesReferences p references =
      (PhaseShift.countReferences
        { s with
          phases := s.phases.alter p.key (.addReferences references) (PhaseRef.key_addReferences _) }
        p references).updateNoCosmeticFlag.updateUnphasedFlag := by
  rw [modifyPhasesReferences]
  dsimp only
  rw [h]
  rfl

theorem modifyPhasesReferences_phases (s : PhaseShift) (p : PhaseRef) (references : Int) :
    (s.modifyPhasesReferences p references).phases =
      s.phases.alter p.key (.addReferences references) (PhaseRef.key_addReferences _) := by
  rw [modifyPhasesReferences]
  dsimp only
  split
  · exact countReferences_phases _ p references
  · rfl

theorem weight_addReferences (c : PhaseClass) (p : PhaseRef) (references : Int) :
    weight c (p.addReferences references) = weight c p + if classOf p = c then references else 0 := by
  have hClass : classOf (p.addReferences references) = classOf p := rfl
  rw [weight, weight, hClass]
  split
  · rfl
  · rw [add_zero]

variable {p : PhaseRef}

theorem modifyPhasesReferences_counts (h : Counts s)
    (hStored : s.phases.find? p.key = some p) (references : Int) :
    Counts (s.modifyPhasesReferences p references) := by
  have hPhases := modifyPhasesReferences_phases s p references
  refine ⟨?_, ?_, ?_⟩
  · rw [modifyPhasesReferences_of_notDb h.notDb]
    exact (countReferences_isDb _ p references).trans h.notDb
  · intro c
    have hCounter : counter (s.modifyPhasesReferences p references) c =
        counter s c + if classOf p = c then references else 0 := by
      rw [modifyPhasesReferences_of_notDb h.notDb, counter_of_flags, countReferences_counter]
      cases c <;> rfl
    rw [hCounter, referencesOf, hPhases, KeyedSet.total_alter _ hStored, weight_addReferences,
      h.counters c, referencesOf]
    omega
  · rw [modifyPhasesReferences_of_notDb h.notDb]
    exact updateUnphasedFlag_follow (updateNoCosmeticFlag_flag _)

theorem weight_new (c : PhaseClass) (phaseId : UInt32) (flags : EnumClassFlag 16)
    (conditions : Option Nat) : weight c (.new phaseId flags conditions) = 0 := by
  rw [weight]
  split <;> rfl

theorem total_emplace_found (s : KeyedSet PhaseRef.key) (c : PhaseClass) (phaseId : UInt32)
    (flags : EnumClassFlag 16) :
    (s.emplace ((s.find? (PhaseRef.new phaseId flags none).key).getD (.new phaseId flags none))).total
      (weight c) = s.total (weight c) := by
  rw [KeyedSet.total_emplace]
  cases hFind : s.find? (PhaseRef.new phaseId flags none).key with
  | some p =>
    obtain ⟨hMem, hKey⟩ := KeyedSet.find?_eq_some_iff.mp hFind
    rw [Option.getD_some, if_pos (KeyedSet.contains_iff.mpr ⟨p, hMem, rfl⟩), add_zero]
  | none =>
    rw [Option.getD_none, weight_new, ite_self, add_zero]

section Modify

variable {s : PhaseShift} (h : Counts s) {p : PhaseRef} (hStored : s.phases.find? p.key = some p)
  (hOthers : ∀ q ∈ s.phases.entries, q.key ≠ p.key → 0 < q.references) (references : Int)

include hStored in
theorem modifyPhasesReferences_find :
    (s.modifyPhasesReferences p references).phases.find? p.key =
      some (p.addReferences references) := by
  rw [modifyPhasesReferences_phases]
  exact KeyedSet.find?_alter hStored _ _

include hOthers in
theorem modifyPhasesReferences_others {q : PhaseRef}
    (hq : q ∈ (s.modifyPhasesReferences p references).phases.entries) (hNe : q.key ≠ p.key) :
    0 < q.references := by
  rw [modifyPhasesReferences_phases] at hq
  rcases (KeyedSet.mem_alter _).mp hq with ⟨a, -, hSame, rfl⟩ | ⟨hOther, -⟩
  · exact absurd hSame hNe
  · exact hOthers q hOther hNe

include h hStored hOthers in
theorem modifyPhasesReferences_sound {references : Int} (hPositive : 0 < p.references + references) :
    Sound (s.modifyPhasesReferences p references) := by
  refine ⟨modifyPhasesReferences_counts h hStored references, ?_⟩
  intro q hq
  rcases eq_or_ne q.key p.key with hSame | hNe
  · have hFound := modifyPhasesReferences_find hStored references
    rw [KeyedSet.find?_eq_some_iff.mpr ⟨hq, hSame⟩] at hFound
    rw [Option.some.inj hFound]
    exact hPositive
  · exact modifyPhasesReferences_others hOthers references hq hNe

include h hStored hOthers in
theorem erase_sound {references : Int} (hEmpty : p.references + references = 0) :
    Sound { s.modifyPhasesReferences p references with
      phases := (s.modifyPhasesReferences p references).phases.erase p.key } := by
  refine ⟨(modifyPhasesReferences_counts h hStored references).with_phases fun c => ?_, ?_⟩
  · have hWeight : weight c (p.addReferences references) = 0 := by
      rw [weight]
      split
      · exact hEmpty
      · rfl
    rw [KeyedSet.total_erase _ (modifyPhasesReferences_find hStored references), hWeight, sub_zero]
  · intro q hq
    obtain ⟨hOther, hNe⟩ := KeyedSet.mem_erase.mp hq
    exact modifyPhasesReferences_others hOthers references hOther hNe

end Modify

theorem addPhase_sound (h : Sound s) (phaseId : UInt32) (flags : EnumClassFlag 16)
    (areaConditions : Option Nat) {references : Int} (hPositive : 0 < references) :
    Sound (s.addPhase phaseId flags areaConditions references).1 := by
  have hStored := KeyedSet.find?_emplace s.phases (.new phaseId flags none)
  have hTotal := fun c => total_emplace_found s.phases c phaseId flags
  have hOld : 0 ≤ ((s.phases.find? (PhaseRef.new phaseId flags none).key).getD
      (.new phaseId flags none)).references := by
    cases hFind : s.phases.find? (PhaseRef.new phaseId flags none).key with
    | some p => exact (h.positive p (KeyedSet.find?_eq_some_iff.mp hFind).1).le
    | none => exact Int.le_refl 0
  have hKey := (KeyedSet.find?_eq_some_iff.mp hStored).2
  rw [addPhase]
  generalize (s.phases.find? (PhaseRef.new phaseId flags none).key).getD
    (.new phaseId flags none) = p at hStored hTotal hOld hKey ⊢
  rw [← hKey] at hStored
  have hEmplaced : Counts { s with phases := s.phases.emplace p } := h.toCounts.with_phases hTotal
  have hOthers : ∀ q ∈ (s.phases.emplace p).entries, q.key ≠ p.key → 0 < q.references := by
    intro q hq hNe
    rcases KeyedSet.mem_emplace.mp hq with hMem | ⟨rfl, -⟩
    · exact h.positive q hMem
    · exact absurd rfl hNe
  have hSound := modifyPhasesReferences_sound hEmplaced hStored hOthers
    (Int.add_pos_of_nonneg_of_pos hOld hPositive)
  have hFound := modifyPhasesReferences_find (s := { s with phases := s.phases.emplace p }) hStored references
  split
  · refine ⟨hSound.toCounts.with_phases fun c => ?_, ?_⟩
    · rw [KeyedSet.total_alter _ hFound]
      exact sub_add_cancel _ _
    · intro q hq
      rcases (KeyedSet.mem_alter (PhaseRef.key_setConditions _)).mp hq with ⟨a, ha, -, rfl⟩ | ⟨hOther, -⟩
      · exact hSound.positive a ha
      · exact hSound.positive q hOther
  · exact hSound

theorem removePhase_sound (h : Sound s) (phaseId : UInt32) :
    Sound (s.removePhase phaseId).1 := by
  rw [removePhase]
  split
  · rename_i p hFind
    obtain ⟨hMem, hKey⟩ := KeyedSet.find?_eq_some_iff.mp hFind
    have hStored : s.phases.find? p.key = some p := hKey ▸ hFind
    have hOthers : ∀ q ∈ s.phases.entries, q.key ≠ p.key → 0 < q.references :=
      fun q hq _ => h.positive q hq
    dsimp only
    split
    · rename_i hEmpty
      exact erase_sound h.toCounts hStored hOthers hEmpty
    · rename_i hSome
      have hOld := h.positive p hMem
      simp only [PhaseRef.addReferences] at hSome
      exact modifyPhasesReferences_sound h.toCounts hStored hOthers (by omega)
  · exact h

theorem takePhase_sound (h : Sound s) (hMem : p ∈ s.phases.entries) :
    Sound (takePhase s p) :=
  erase_sound h.toCounts (KeyedSet.find?_eq_some_iff.mpr ⟨hMem, rfl⟩)
    (fun q hq _ => h.positive q hq) (Int.add_right_neg _)

theorem clearPhases_sound (h : s.isDbPhaseShift = false) : Sound s.clearPhases := by
  refine ⟨⟨h, ?_, ?_⟩, fun _ hp => (List.not_mem_nil hp).elim⟩
  · intro c
    cases c <;> rfl
  · apply updateUnphasedFlag_follow
    rw [hasFlag_drop (by decide)]
    simp

theorem clear_sound (h : s.isDbPhaseShift = false) : Sound s.clear := by
  have hPhases := clearPhases_sound h
  refine hPhases.with_flags h rfl ?_ (hPhases.flags.of_flags rfl rfl rfl fun _ _ => rfl)
  funext c
  cases c <;> rfl

theorem setInversed_sound (h : Sound s) (apply : Bool) :
    Sound (setInversed s apply) := by
  refine h.with_flags h.notDb rfl ?_ (updateUnphasedFlag_follow ?_)
  · funext c
    cases c <;> rfl
  · have hApart : Apart PhaseShiftFlags.inverse PhaseShiftFlags.noCosmetic := by decide
    have hSame := hasFlag_assign_apart hApart s.flags (apply = true)
    rw [assign] at hSame
    rw [hSame]
    exact h.flags.noCosmetic

theorem setAlwaysVisible_sound (h : Sound s) (apply : Bool) :
    Sound (setAlwaysVisible s apply) := by
  refine h.with_flags h.notDb rfl ?_ (h.flags.of_flags rfl rfl rfl ?_)
  · funext c
    cases c <;> rfl
  · intro flag hFlag
    have hApart : Apart PhaseShiftFlags.alwaysVisible flag := by
      simp only [List.mem_cons, List.not_mem_nil, or_false] at hFlag
      rcases hFlag with rfl | rfl | rfl | rfl <;> decide
    exact hasFlag_assign_apart hApart s.flags (apply = true)

/-! ## Visible maps and swaps -/

section Maps

variable {s : PhaseShift} (h : Sound s)

include h

theorem Sound.with_maps (visibleMapIds : KeyedSet VisibleMapIdRef.key)
    (swaps : KeyedSet UiWorldMapAreaIdSwapRef.key) :
    Sound { s with visibleMapIds := visibleMapIds, uiWorldMapAreaIdSwaps := swaps } := by
  refine h.with_flags h.notDb rfl ?_ (h.flags.of_flags rfl rfl rfl fun _ _ => rfl)
  funext c
  cases c <;> rfl

theorem addVisibleMapId_sound (visibleMapId : UInt32) (visibleMapInfo : Option TerrainSwapInfo)
    (references : Int) : Sound (s.addVisibleMapId visibleMapId visibleMapInfo references).1 :=
  h.with_maps _ _

theorem removeVisibleMapId_sound (visibleMapId : UInt32) :
    Sound (s.removeVisibleMapId visibleMapId).1 := by
  rw [PhaseShift.removeVisibleMapId]
  split
  · dsimp only
    split
    · exact h.with_maps _ _
    · exact h.with_maps _ _
  · exact h

theorem addUiWorldMapAreaIdSwap_sound (uiWorldMapAreaId : UInt32) (references : Int) :
    Sound (s.addUiWorldMapAreaIdSwap uiWorldMapAreaId references).1 :=
  h.with_maps _ _

theorem removeUiWorldMapAreaIdSwap_sound (uiWorldMapAreaId : UInt32) :
    Sound (s.removeUiWorldMapAreaIdSwap uiWorldMapAreaId).1 := by
  rw [removeUiWorldMapAreaIdSwap]
  split
  · dsimp only
    split
    · exact h.with_maps _ _
    · exact h.with_maps _ _
  · exact h

end Maps

/-! ## Change of conditions -/

structure SoundChange (c : Change) : Prop where
  phaseShift : Sound c.phaseShift
  suppressedPhaseShift : Sound c.suppressedPhaseShift
  newSuppressions : Sound c.newSuppressions

structure Pending (phases : List PhaseRef) (s : PhaseShift) : Prop where
  sorted : phases.Pairwise fun p q => p.key < q.key
  stored : ∀ p ∈ phases, p ∈ s.phases.entries

theorem pending_all (s : PhaseShift) : Pending s.phases.entries s := ⟨s.phases.sorted, fun _ h => h⟩

variable {phases : List PhaseRef}

theorem Pending.tail (h : Pending (p :: phases) s) : Pending phases s :=
  ⟨h.sorted.of_cons, fun q hq => h.stored q (List.mem_cons_of_mem _ hq)⟩

theorem Pending.take (h : Pending (p :: phases) s) : Pending phases (takePhase s p) := by
  refine ⟨h.sorted.of_cons, ?_⟩
  intro q hq
  have hNe : q.key ≠ p.key := (List.rel_of_pairwise_cons h.sorted hq).ne'
  apply KeyedSet.mem_erase.mpr
  rw [modifyPhasesReferences_phases]
  exact ⟨(KeyedSet.mem_alter _).mpr (Or.inr ⟨h.tail.stored q hq, hNe⟩), hNe⟩

theorem foldl_suppressPhase_sound (answers : ConditionAnswers) :
    ∀ {c : Change}, SoundChange c → Pending phases c.phaseShift →
      SoundChange (phases.foldl (suppressPhase answers) c) := by
  induction phases with
  | nil => exact fun h _ => h
  | cons p phases ih =>
    intro c h hPending
    have hMem : p ∈ c.phaseShift.phases.entries := hPending.stored p List.mem_cons_self
    rw [List.foldl_cons, suppressPhase]
    split
    · split
      · apply ih
        · exact ⟨takePhase_sound h.phaseShift hMem, h.suppressedPhaseShift,
            addPhase_sound h.newSuppressions _ _ _ (h.phaseShift.positive p hMem)⟩
        · exact hPending.take
      · exact ih h hPending.tail
    · exact ih h hPending.tail

theorem foldlM_restorePhase_sound (answers : ConditionAnswers) :
    ∀ {c c' : Change}, SoundChange c → Pending phases c.suppressedPhaseShift →
      phases.foldlM (restorePhase answers) c = some c' → SoundChange c' := by
  induction phases with
  | nil =>
    intro c c' h _ hFold
    exact Option.some.inj hFold ▸ h
  | cons p phases ih =>
    intro c c' h hPending hFold
    have hMem : p ∈ c.suppressedPhaseShift.phases.entries := hPending.stored p List.mem_cons_self
    rw [List.foldlM_cons] at hFold
    obtain ⟨next, hNext, hRest⟩ := Option.bind_eq_some_iff.mp hFold
    obtain ⟨conditions, hConditions, hMeets⟩ := Option.bind_eq_some_iff.mp hNext
    split at hMeets
    · obtain rfl := Option.some.inj hMeets
      refine ih ?_ hPending.take hRest
      exact ⟨addPhase_sound h.phaseShift _ _ _ (h.suppressedPhaseShift.positive p hMem),
        takePhase_sound h.suppressedPhaseShift hMem, h.newSuppressions⟩
    · obtain rfl := Option.some.inj hMeets
      exact ih h hPending.tail hRest

variable {c : Change}

theorem removeSwap_sound (h : SoundChange c) (swap : UInt32) :
    SoundChange (removeSwap c swap) :=
  ⟨removeUiWorldMapAreaIdSwap_sound h.phaseShift swap, h.suppressedPhaseShift, h.newSuppressions⟩

theorem addSwap_sound (h : SoundChange c) (swap : UInt32) :
    SoundChange (addSwap c swap) :=
  ⟨addUiWorldMapAreaIdSwap_sound h.phaseShift swap 1, h.suppressedPhaseShift, h.newSuppressions⟩

variable {answers : ConditionAnswers}

theorem suppressVisibleMap_sound {c' : Change} {m : VisibleMapIdRef}
    (h : SoundChange c) (hStep : suppressVisibleMap answers c m = some c') : SoundChange c' := by
  rw [suppressVisibleMap] at hStep
  split at hStep
  · obtain ⟨info, hInfo, hRest⟩ := Option.bind_eq_some_iff.mp hStep
    obtain rfl := Option.some.inj hRest
    have hSwaps := List.foldlRecOn (motive := SoundChange) info.uiWorldMapAreaIDSwaps removeSwap
      (b := { c with newSuppressions :=
        (c.newSuppressions.addVisibleMapId m.id m.visibleMapInfo m.references).1 })
      ⟨h.phaseShift, h.suppressedPhaseShift, addVisibleMapId_sound h.newSuppressions _ _ _⟩
      fun c hc swap _ => removeSwap_sound hc swap
    exact ⟨hSwaps.phaseShift.with_maps _ _, hSwaps.suppressedPhaseShift, hSwaps.newSuppressions⟩
  · exact Option.some.inj hStep ▸ h

theorem restoreVisibleMap_sound {c' : Change} {m : VisibleMapIdRef}
    (h : SoundChange c) (hStep : restoreVisibleMap answers c m = some c') : SoundChange c' := by
  rw [restoreVisibleMap] at hStep
  split at hStep
  · obtain ⟨info, hInfo, hRest⟩ := Option.bind_eq_some_iff.mp hStep
    obtain rfl := Option.some.inj hRest
    have hSwaps := List.foldlRecOn (motive := SoundChange) info.uiWorldMapAreaIDSwaps addSwap
      (b := { c with
        phaseShift := (c.phaseShift.addVisibleMapId m.id m.visibleMapInfo m.references).1
        changed := (c.phaseShift.addVisibleMapId m.id m.visibleMapInfo m.references).2 || c.changed })
      ⟨addVisibleMapId_sound h.phaseShift _ _ _, h.suppressedPhaseShift, h.newSuppressions⟩
      fun c hc swap _ => addSwap_sound hc swap
    exact ⟨hSwaps.phaseShift, hSwaps.suppressedPhaseShift.with_maps _ _, hSwaps.newSuppressions⟩
  · exact Option.some.inj hStep ▸ h

theorem keepAuraPhase_sound (stores : PhaseStores) (h : SoundChange c)
    (phaseId : UInt32) : SoundChange (keepAuraPhase stores c phaseId) := by
  have hRemoved := removePhase_sound h.newSuppressions phaseId
  rw [keepAuraPhase]
  dsimp only
  split
  · exact ⟨addPhase_sound h.phaseShift _ _ _ Int.one_pos, h.suppressedPhaseShift, hRemoved⟩
  · exact ⟨h.phaseShift, h.suppressedPhaseShift, hRemoved⟩

theorem suppressNew_sound (h : SoundChange c) : SoundChange (suppressNew c) := by
  have hPhases := List.foldlRecOn (motive := Sound) c.newSuppressions.phases.entries
    (fun s p => (s.addPhase p.id.toUInt32 p.flags p.areaConditions p.references).1)
    h.suppressedPhaseShift
    fun s hs p hp => addPhase_sound hs _ _ _ (h.newSuppressions.positive p hp)
  have hMaps := List.foldlRecOn (motive := Sound) c.newSuppressions.visibleMapIds.entries
    (fun s m => (s.addVisibleMapId m.id m.visibleMapInfo m.references).1) hPhases
    fun s hs m _ => addVisibleMapId_sound hs _ _ _
  exact ⟨h.phaseShift, hMaps, h.newSuppressions⟩

structure SoundObject (o : ObjectPhases) : Prop where
  phaseShift : Sound o.phaseShift
  suppressedPhaseShift : Sound o.suppressedPhaseShift

theorem onConditionChange_sound {stores : PhaseStores}
    {unit : Option PhaseAuras} {o o' : ObjectPhases} {changed : Bool} (h : SoundObject o)
    (hStep : onConditionChange stores answers unit o = some (o', changed)) : SoundObject o' := by
  have hStart : SoundChange ⟨o.phaseShift, o.suppressedPhaseShift, .new, false⟩ :=
    ⟨h.phaseShift, h.suppressedPhaseShift, new_sound⟩
  have hSuppressed := foldl_suppressPhase_sound answers hStart (pending_all _)
  rw [onConditionChange] at hStep
  obtain ⟨c₂, hRestore, hStep⟩ := Option.bind_eq_some_iff.mp hStep
  obtain ⟨c₃, hSuppressMaps, hStep⟩ := Option.bind_eq_some_iff.mp hStep
  obtain ⟨c₄, hRestoreMaps, hStep⟩ := Option.bind_eq_some_iff.mp hStep
  have h₂ := foldlM_restorePhase_sound answers hSuppressed (pending_all _) hRestore
  have h₃ := foldlM_invariant (fun _ _ _ hc => suppressVisibleMap_sound hc) hSuppressMaps h₂
  have h₄ := foldlM_invariant (fun _ _ _ hc => restoreVisibleMap_sound hc) hRestoreMaps h₃
  have hFinal : ∀ c : Change, SoundChange c →
      SoundObject ⟨(suppressNew c).phaseShift, (suppressNew c).suppressedPhaseShift⟩ := fun c hc =>
    ⟨(suppressNew_sound hc).phaseShift, (suppressNew_sound hc).suppressedPhaseShift⟩
  cases unit with
  | some auras =>
    obtain ⟨rfl, -⟩ := Prod.mk.inj (Option.some.inj hStep)
    apply hFinal
    exact List.foldlRecOn (motive := SoundChange) _ _ h₄ fun c hc phaseId _ =>
      keepAuraPhase_sound stores hc phaseId
  | none =>
    obtain ⟨rfl, -⟩ := Prod.mk.inj (Option.some.inj hStep)
    exact hFinal c₄ h₄

/-! ## Runs -/

inductive Operation
  | addPhase (phaseId : UInt32) (flags : EnumClassFlag 16) (areaConditions : Option Nat)
    (references : Int)
  | removePhase (phaseId : UInt32)
  | addVisibleMapId (visibleMapId : UInt32) (visibleMapInfo : Option TerrainSwapInfo)
    (references : Int)
  | removeVisibleMapId (visibleMapId : UInt32)
  | addUiWorldMapAreaIdSwap (uiWorldMapAreaId : UInt32) (references : Int)
  | removeUiWorldMapAreaIdSwap (uiWorldMapAreaId : UInt32)
  | clearPhases
  | clear
  | setInversed (apply : Bool)
  | setAlwaysVisible (apply : Bool)
  deriving DecidableEq

def perform (s : PhaseShift) : Operation → Option PhaseShift
  | .addPhase phaseId flags areaConditions references =>
    if 0 < references then some (s.addPhase phaseId flags areaConditions references).1 else none
  | .removePhase phaseId => some (s.removePhase phaseId).1
  | .addVisibleMapId visibleMapId visibleMapInfo references =>
    some (s.addVisibleMapId visibleMapId visibleMapInfo references).1
  | .removeVisibleMapId visibleMapId => some (s.removeVisibleMapId visibleMapId).1
  | .addUiWorldMapAreaIdSwap uiWorldMapAreaId references =>
    some (s.addUiWorldMapAreaIdSwap uiWorldMapAreaId references).1
  | .removeUiWorldMapAreaIdSwap uiWorldMapAreaId =>
    some (s.removeUiWorldMapAreaIdSwap uiWorldMapAreaId).1
  | .clearPhases => some s.clearPhases
  | .clear => some s.clear
  | .setInversed apply => some (setInversed s apply)
  | .setAlwaysVisible apply => some (setAlwaysVisible s apply)

inductive Label
  | onPhaseShift (operation : Operation)
  | onSuppressedPhaseShift (operation : Operation)
  | onConditionChange (stores : PhaseStores) (answers : ConditionAnswers) (unit : Option PhaseAuras)

def step (o : ObjectPhases) : Label → Option ObjectPhases
  | .onPhaseShift operation => do
    let s ← perform o.phaseShift operation
    some { o with phaseShift := s }
  | .onSuppressedPhaseShift operation => do
    let s ← perform o.suppressedPhaseShift operation
    some { o with suppressedPhaseShift := s }
  | .onConditionChange stores answers unit => do
    let (o, _) ← onConditionChange stores answers unit o
    some o

theorem perform_sound (h : Sound s) {operation : Operation}
    (hStep : perform s operation = some s') : Sound s' := by
  cases operation with
  | addPhase phaseId flags areaConditions references =>
    rw [perform] at hStep
    split at hStep
    · rename_i hPositive
      exact Option.some.inj hStep ▸ addPhase_sound h phaseId flags areaConditions hPositive
    · cases hStep
  | removePhase phaseId => exact Option.some.inj hStep ▸ removePhase_sound h phaseId
  | addVisibleMapId => exact Option.some.inj hStep ▸ addVisibleMapId_sound h _ _ _
  | removeVisibleMapId => exact Option.some.inj hStep ▸ removeVisibleMapId_sound h _
  | addUiWorldMapAreaIdSwap => exact Option.some.inj hStep ▸ addUiWorldMapAreaIdSwap_sound h _ _
  | removeUiWorldMapAreaIdSwap => exact Option.some.inj hStep ▸ removeUiWorldMapAreaIdSwap_sound h _
  | clearPhases => exact Option.some.inj hStep ▸ clearPhases_sound h.notDb
  | clear => exact Option.some.inj hStep ▸ clear_sound h.notDb
  | setInversed apply => exact Option.some.inj hStep ▸ setInversed_sound h apply
  | setAlwaysVisible apply => exact Option.some.inj hStep ▸ setAlwaysVisible_sound h apply

theorem step_sound (o : ObjectPhases) (label : Label) (o' : ObjectPhases) (h : SoundObject o)
    (hStep : step o label = some o') : SoundObject o' := by
  cases label with
  | onPhaseShift operation =>
    obtain ⟨s, hPerform, hRest⟩ := Option.bind_eq_some_iff.mp hStep
    obtain rfl := Option.some.inj hRest
    exact ⟨perform_sound h.phaseShift hPerform, h.suppressedPhaseShift⟩
  | onSuppressedPhaseShift operation =>
    obtain ⟨s, hPerform, hRest⟩ := Option.bind_eq_some_iff.mp hStep
    obtain rfl := Option.some.inj hRest
    exact ⟨h.phaseShift, perform_sound h.suppressedPhaseShift hPerform⟩
  | onConditionChange stores answers unit =>
    obtain ⟨⟨next, changed⟩, hChange, hRest⟩ := Option.bind_eq_some_iff.mp hStep
    obtain rfl := Option.some.inj hRest
    exact onConditionChange_sound h hChange

/-- In every run of an object both shifts count their references and show it in their flags. -/
theorem counted_of_leads {labels : List Label} {o : ObjectPhases}
    (h : Leads step ⟨new, new⟩ labels o) : Counted o.phaseShift ∧ Counted o.suppressedPhaseShift := by
  have hSound : SoundObject o := h.invariant step_sound ⟨new_sound, new_sound⟩
  exact ⟨hSound.phaseShift.counted, hSound.suppressedPhaseShift.counted⟩

/-- A cosmetic phase with conditions and the default phase, of which a change of conditions
suppresses the first, on an inversed shift. -/
def suppressing : List Label :=
  [.onPhaseShift (.addPhase 5 PhaseFlags.cosmetic (some 0) 2),
    .onPhaseShift (.addPhase 169 PhaseFlags.none none 1), .onPhaseShift (.setInversed true),
    .onConditionChange ⟨fun _ => none, fun _ => none⟩ ⟨fun _ => false, fun _ => true⟩ none]

theorem counted_of_leads_suppressing : ∃ o, Leads step ⟨new, new⟩ suppressing o ∧
    o.phaseShift.flags = PhaseShiftFlags.inverse ||| PhaseShiftFlags.inverseUnphased ∧
    o.suppressedPhaseShift.phases.entries = [⟨5, PhaseFlags.cosmetic, 2, some 0⟩] ∧
    Counted o.phaseShift ∧ Counted o.suppressedPhaseShift := by
  obtain ⟨o, hRun, hFlags, hEntries⟩ : ∃ o, Leads step ⟨new, new⟩ suppressing o ∧
      o.phaseShift.flags = PhaseShiftFlags.inverse ||| PhaseShiftFlags.inverseUnphased ∧
      o.suppressedPhaseShift.phases.entries = [⟨5, PhaseFlags.cosmetic, 2, some 0⟩] :=
    ⟨_, ⟨_, rfl, _, rfl, _, rfl, _, rfl, rfl⟩, by decide, by decide⟩
  exact ⟨o, hRun, hFlags, hEntries, counted_of_leads hRun⟩

end AshamaneCore.PhaseReferences
