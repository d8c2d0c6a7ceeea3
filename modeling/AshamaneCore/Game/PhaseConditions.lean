import AshamaneCore.Game.PhaseSlots

/-!
# Area conditions of phases

A change of conditions neither loses nor invents references of a phase. References
of areas go where their conditions say, references of auras stay in the phase shift,
and with the same conditions a second change has nothing left to do.
-/

namespace AshamaneCore.PhaseConditions

open Library Library.Transition PhaseShift PhasingHandler PhaseReferences PhaseFrames PhaseSlots

/-! ## Visible maps -/

/-- The visible maps of a shift have records, and their conditions have one answer. -/
def MapsAnswer (answers : ConditionAnswers) (answer : Bool) (s : PhaseShift) : Prop :=
  ∀ m ∈ s.visibleMapIds.entries, m.visibleMapInfo.isSome ∧ answers.meetsTerrainSwap m.id = answer

def MapsLoaded (s : PhaseShift) : Prop := ∀ m ∈ s.visibleMapIds.entries, m.visibleMapInfo.isSome

theorem mem_addVisibleMapId {s : PhaseShift} {id : UInt32} {info : Option TerrainSwapInfo}
    {references : Int} {m : VisibleMapIdRef}
    (h : m ∈ (s.addVisibleMapId id info references).1.visibleMapIds.entries) :
    (∃ n ∈ s.visibleMapIds.entries, n.id = m.id ∧ n.visibleMapInfo = m.visibleMapInfo) ∨
      m.id = id ∧ m.visibleMapInfo = info := by
  rcases (KeyedSet.mem_alter (VisibleMapIdRef.key_addReferences _)).mp h with
    ⟨a, ha, -, rfl⟩ | ⟨ha, -⟩
  · rcases KeyedSet.mem_emplace.mp ha with hOld | ⟨rfl, -⟩
    · exact Or.inl ⟨a, hOld, rfl, rfl⟩
    · exact Or.inr ⟨rfl, rfl⟩
  · rcases KeyedSet.mem_emplace.mp ha with hOld | ⟨rfl, -⟩
    · exact Or.inl ⟨m, hOld, rfl, rfl⟩
    · exact Or.inr ⟨rfl, rfl⟩

variable {answers : ConditionAnswers}

theorem MapsAnswer.add {answer : Bool} {s : PhaseShift}
    (h : MapsAnswer answers answer s) {id : UInt32} {info : Option TerrainSwapInfo}
    (hInfo : info.isSome) (hAnswer : answers.meetsTerrainSwap id = answer) (references : Int) :
    MapsAnswer answers answer (s.addVisibleMapId id info references).1 := by
  intro m hm
  rcases mem_addVisibleMapId hm with ⟨n, hn, hId, hSame⟩ | ⟨rfl, rfl⟩
  · rw [← hId, ← hSame]
    exact h n hn
  · exact ⟨hInfo, hAnswer⟩

/-- What waits behind the first map, if the first one is settled. -/
theorem mem_or_of_cons {m n : VisibleMapIdRef} {maps : List VisibleMapIdRef} {P : Prop} (h : n ∈ m :: maps ∨ P)
    (hFirst : n = m → P) : n ∈ maps ∨ P :=
  h.elim (fun hMem => (List.mem_cons.mp hMem).symm.imp_right hFirst) Or.inr

theorem foldlM_suppressVisibleMap_answers {maps : List VisibleMapIdRef}
    (hMaps : ∀ m ∈ maps, m.visibleMapInfo.isSome) :
    ∀ {c c' : Change}, maps.foldlM (suppressVisibleMap answers) c = some c' →
      (∀ n ∈ c.phaseShift.visibleMapIds.entries, n ∈ maps ∨
        n.visibleMapInfo.isSome ∧ answers.meetsTerrainSwap n.id = true) →
      MapsAnswer answers false c.newSuppressions →
      MapsAnswer answers true c'.phaseShift ∧ MapsAnswer answers false c'.newSuppressions ∧
        c'.suppressedPhaseShift = c.suppressedPhaseShift := by
  induction maps with
  | nil =>
    intro c c' hFold hActive hNew
    obtain rfl := Option.some.inj hFold
    exact ⟨fun n hn => (hActive n hn).resolve_left List.not_mem_nil, hNew, rfl⟩
  | cons m maps ih =>
    intro c c' hFold hActive hNew
    rw [List.foldlM_cons] at hFold
    obtain ⟨next, hNext, hFold⟩ := Option.bind_eq_some_iff.mp hFold
    have hInfo := hMaps m List.mem_cons_self
    have hTail : ∀ n ∈ maps, n.visibleMapInfo.isSome :=
      fun n hn => hMaps n (List.mem_cons_of_mem _ hn)
    rcases suppressVisibleMap_cases hInfo answers c with ⟨hMeets, hStep⟩ | ⟨hNot, swaps, changed, hStep⟩
    · obtain rfl := Option.some.inj (hStep.symm.trans hNext)
      refine ih hTail hFold (fun n hn => mem_or_of_cons (hActive n hn) ?_) hNew
      rintro rfl
      exact ⟨hInfo, hMeets⟩
    · obtain rfl := Option.some.inj (hStep.symm.trans hNext)
      have hLeft : ∀ n ∈ (eraseVisibleMap (dropSwaps c.phaseShift swaps) m).visibleMapIds.entries,
          n ∈ maps ∨ n.visibleMapInfo.isSome ∧ answers.meetsTerrainSwap n.id = true := by
        intro n hn
        obtain ⟨hn, hNe⟩ := KeyedSet.mem_erase.mp hn
        rw [dropSwaps_maps] at hn
        exact mem_or_of_cons (hActive n hn) fun hEq => absurd (hEq ▸ rfl) hNe
      obtain ⟨hLast, hLastNew, hSame⟩ := ih hTail hFold hLeft (hNew.add hInfo hNot _)
      exact ⟨hLast, hLastNew, hSame⟩

theorem foldlM_restoreVisibleMap_answers {maps : List VisibleMapIdRef}
    (hMaps : ∀ m ∈ maps, m.visibleMapInfo.isSome) :
    ∀ {c c' : Change}, maps.foldlM (restoreVisibleMap answers) c = some c' →
      (∀ n ∈ c.suppressedPhaseShift.visibleMapIds.entries, n ∈ maps ∨
        n.visibleMapInfo.isSome ∧ answers.meetsTerrainSwap n.id = false) →
      MapsAnswer answers true c.phaseShift →
      MapsAnswer answers true c'.phaseShift ∧ MapsAnswer answers false c'.suppressedPhaseShift ∧
        c'.newSuppressions = c.newSuppressions := by
  induction maps with
  | nil =>
    intro c c' hFold hSuppressed hActive
    obtain rfl := Option.some.inj hFold
    exact ⟨hActive, fun n hn => (hSuppressed n hn).resolve_left List.not_mem_nil, rfl⟩
  | cons m maps ih =>
    intro c c' hFold hSuppressed hActive
    rw [List.foldlM_cons] at hFold
    obtain ⟨next, hNext, hFold⟩ := Option.bind_eq_some_iff.mp hFold
    have hInfo := hMaps m List.mem_cons_self
    have hTail : ∀ n ∈ maps, n.visibleMapInfo.isSome :=
      fun n hn => hMaps n (List.mem_cons_of_mem _ hn)
    rcases restoreVisibleMap_cases hInfo answers c with ⟨hNot, hStep⟩ | ⟨hMeets, swaps, changed, hStep⟩
    · obtain rfl := Option.some.inj (hStep.symm.trans hNext)
      refine ih hTail hFold (fun n hn => mem_or_of_cons (hSuppressed n hn) ?_) hActive
      rintro rfl
      exact ⟨hInfo, hNot⟩
    · obtain rfl := Option.some.inj (hStep.symm.trans hNext)
      have hLeft : ∀ n ∈ (eraseVisibleMap c.suppressedPhaseShift m).visibleMapIds.entries,
          n ∈ maps ∨ n.visibleMapInfo.isSome ∧ answers.meetsTerrainSwap n.id = false := by
        intro n hn
        obtain ⟨hn, hNe⟩ := KeyedSet.mem_erase.mp hn
        exact mem_or_of_cons (hSuppressed n hn) fun hEq => absurd (hEq ▸ rfl) hNe
      have hEntered : MapsAnswer answers true
          (addSwaps (c.phaseShift.addVisibleMapId m.id m.visibleMapInfo m.references).1 swaps) := by
        rw [MapsAnswer, addSwaps_maps]
        exact hActive.add hInfo hMeets _
      obtain ⟨hLast, hLastSuppressed, hSame⟩ := ih hTail hFold hLeft hEntered
      exact ⟨hLast, hLastSuppressed, hSame⟩

/-! ## Objects -/

/-- Phases are referenced, suppressed ones carry conditions, and maps have records. -/
structure Valid (o : ObjectPhases) : Prop where
  active : ∀ p ∈ o.phaseShift.phases.entries, 0 < p.references
  suppressed : ∀ p ∈ o.suppressedPhaseShift.phases.entries, 0 < p.references ∧ p.areaConditions.isSome
  activeMaps : MapsLoaded o.phaseShift
  suppressedMaps : MapsLoaded o.suppressedPhaseShift

structure Settled (answers : ConditionAnswers) (o : ObjectPhases) : Prop where
  active : ∀ p ∈ o.phaseShift.phases.entries, ¬ Fails answers p
  suppressed : ∀ p ∈ o.suppressedPhaseShift.phases.entries, Fails answers p
  activeMaps : MapsAnswer answers true o.phaseShift
  suppressedMaps : MapsAnswer answers false o.suppressedPhaseShift

variable {o : ObjectPhases}

theorem onConditionChange_of_settled (h : Settled answers o) (stores : PhaseStores) (unit : Option PhaseAuras) :
    onConditionChange stores answers unit o = some (o, false) := by
  have hAuras : keepAuras stores unit (started o) = started o := by
    have hKeep : ∀ phaseId, keepAuraPhase stores (started o) phaseId = started o := fun _ => rfl
    cases unit with
    | some auras => exact run_fixed fun phaseId _ => hKeep phaseId
    | none => rfl
  refine onConditionChange_eq_some_iff.mpr
    ⟨started o, started o, started o, started o, ⟨?_, ?_, ?_, ?_⟩, ?_⟩
  · refine (run_fixed fun p hp => ?_).symm
    rw [suppressPhase_eq, if_neg (h.active p hp)]
  · refine foldlM_fixed fun p hp => ?_
    obtain ⟨conditions, hConditions, hNot⟩ := h.suppressed p hp
    simp [restorePhase, hConditions, hNot]
  · refine foldlM_fixed fun m hm => ?_
    simp [suppressVisibleMap, (h.activeMaps m hm).2]
  · refine foldlM_fixed fun m hm => ?_
    simp [restoreVisibleMap, (h.suppressedMaps m hm).2]
  · rw [hAuras]
    rfl

theorem Valid.mapsSuppressed (h : Valid o)
    {c₂ c₃ : Change} (hMaps : SameChangeMaps (started o) c₂)
    (hFold : c₂.phaseShift.visibleMapIds.entries.foldlM (suppressVisibleMap answers) c₂ = some c₃) :
    MapsAnswer answers true c₃.phaseShift ∧ MapsAnswer answers false c₃.newSuppressions ∧
      MapsLoaded c₃.suppressedPhaseShift := by
  have hLoaded : MapsLoaded c₂.phaseShift := by
    rw [MapsLoaded, hMaps.phaseShift.visibleMapIds]
    exact h.activeMaps
  have hNew : MapsAnswer answers false c₂.newSuppressions := by
    rw [MapsAnswer, hMaps.newSuppressions.visibleMapIds]
    exact fun m hm => (List.not_mem_nil hm).elim
  obtain ⟨hActive, hNew, hSame⟩ :=
    foldlM_suppressVisibleMap_answers hLoaded hFold (fun n hn => Or.inl hn) hNew
  refine ⟨hActive, hNew, ?_⟩
  rw [hSame, MapsLoaded, hMaps.suppressedPhaseShift.visibleMapIds]
  exact h.suppressedMaps

theorem exists_swept (h : Valid o) (answers : ConditionAnswers) :
    ∃ c₁ c₂ c₃ c₄, Swept answers o c₁ c₂ c₃ c₄ := by
  obtain ⟨c₁, hSuppressed⟩ : ∃ c₁, c₁ =
      (started o).phaseShift.phases.entries.foldl (suppressPhase answers) (started o) := ⟨_, rfl⟩
  have hSame : c₁.suppressedPhaseShift = o.suppressedPhaseShift := by
    rw [hSuppressed]
    exact foldl_suppressPhase_suppressed answers o
  have hRestore : (c₁.suppressedPhaseShift.phases.entries.foldlM (restorePhase answers) c₁).isSome := by
    refine foldlM_isSome (fun c p hp => ?_) c₁
    rw [restorePhase_eq (h.suppressed p (hSame ▸ hp)).2]
    rfl
  obtain ⟨c₂, hRestored⟩ := Option.isSome_iff_exists.mp hRestore
  have hMaps := phasesSwept_maps hSuppressed hRestored
  have hSuppress : (c₂.phaseShift.visibleMapIds.entries.foldlM
      (suppressVisibleMap answers) c₂).isSome := by
    refine foldlM_isSome (fun c m hm => ?_) c₂
    rw [hMaps.phaseShift.visibleMapIds] at hm
    rcases suppressVisibleMap_cases (h.activeMaps m hm) answers c with ⟨-, hStep⟩ | ⟨-, _, _, hStep⟩
    · rw [hStep]
      rfl
    · rw [hStep]
      rfl
  obtain ⟨c₃, hMapsSuppressed⟩ := Option.isSome_iff_exists.mp hSuppress
  obtain ⟨-, -, hLoaded⟩ := h.mapsSuppressed hMaps hMapsSuppressed
  have hRestoreMaps : (c₃.suppressedPhaseShift.visibleMapIds.entries.foldlM
      (restoreVisibleMap answers) c₃).isSome := by
    refine foldlM_isSome (fun c m hm => ?_) c₃
    rcases restoreVisibleMap_cases (hLoaded m hm) answers c with ⟨-, hStep⟩ | ⟨-, _, _, hStep⟩
    · rw [hStep]
      rfl
    · rw [hStep]
      rfl
  obtain ⟨c₄, hMapsRestored⟩ := Option.isSome_iff_exists.mp hRestoreMaps
  exact ⟨c₁, c₂, c₃, c₄, ⟨hSuppressed, hRestored, hMapsSuppressed, hMapsRestored⟩⟩

def auraReferences (stores : PhaseStores) (unit : Option PhaseAuras) (id : UInt16) : Int :=
  (aurasOf stores unit id).length

/-- The references of an active phase that auras contribute. The others are of areas. -/
def auraPart (stores : PhaseStores) (unit : Option PhaseAuras) (o : ObjectPhases) (id : UInt16) : Int :=
  min (auraReferences stores unit id) (references o.phaseShift id)

def areaPart (stores : PhaseStores) (unit : Option PhaseAuras) (o : ObjectPhases) (id : UInt16) : Int :=
  references o.phaseShift id - auraPart stores unit o id

/-- What a change of conditions makes of the phases of an object. -/
structure Conserves (stores : PhaseStores) (answers : ConditionAnswers) (unit : Option PhaseAuras)
    (o o' : ObjectPhases) : Prop where
  conserved : ∀ id, references o'.phaseShift id + references o'.suppressedPhaseShift id =
    references o.phaseShift id + references o.suppressedPhaseShift id
  active : ∀ id, references o'.phaseShift id = auraPart stores unit o id +
    (if failing answers (find o.phaseShift id) then 0 else areaPart stores unit o id) +
    (if holding answers (find o.suppressedPhaseShift id) then references o.suppressedPhaseShift id
      else 0)
  suppressed : ∀ id, references o'.suppressedPhaseShift id =
    (if failing answers (find o.phaseShift id) then areaPart stores unit o id else 0) +
    (if holding answers (find o.suppressedPhaseShift id) then 0
      else references o.suppressedPhaseShift id)
  placed : ∀ p conditions, p.areaConditions = some conditions →
    p ∈ o'.phaseShift.phases.entries ∨ p ∈ o'.suppressedPhaseShift.phases.entries →
    (p ∈ o'.phaseShift.phases.entries ↔ answers.meetsConditions conditions = true)
  auras : ∀ id, auraPart stores unit o id ≤ references o'.phaseShift id

section Result

variable (stores : PhaseStores) {answers : ConditionAnswers} (unit : Option PhaseAuras)
  {o : ObjectPhases} (h : Valid o) {c₁ c₂ c₃ c₄ : Change} (hSwept : Swept answers o c₁ c₂ c₃ c₄)

include h hSwept

theorem slot_final (id : UInt16) :
    Kept (auraReferences stores unit id)
      (settledSlot answers ⟨find o.phaseShift id, find o.suppressedPhaseShift id, none⟩)
      (slot id (keepAuras stores unit c₄)) := by
  have hConditions := fun p hp => (h.suppressed p hp).2
  rw [slot_keepAuras, slot_swept hSwept id hConditions]
  refine foldl_keepSlot_kept stores (aurasOf stores unit id) ?_
  intro n hn
  have hNew := settledSlot_new answers (find o.phaseShift id) (find o.suppressedPhaseShift id)
  have hFound : find o.phaseShift id = some n := by
    have hEq := hNew.symm.trans hn
    split at hEq
    · exact hEq
    · cases hEq
  exact h.active n (find_eq_some_iff.mp hFound).1

theorem references_active (id : UInt16) :
    references (suppressNew (keepAuras stores unit c₄)).phaseShift id = auraPart stores unit o id +
      (if failing answers (find o.phaseShift id) then 0 else areaPart stores unit o id) +
      (if holding answers (find o.suppressedPhaseShift id) then references o.suppressedPhaseShift id
        else 0) := by
  have hKept := slot_final stores unit h hSwept id
  have hActive := hKept.active
  have hAuras : 0 ≤ auraReferences stores unit id := Int.natCast_nonneg _
  rw [count_settledSlot_active, settledSlot_new] at hActive
  have hResult : references (suppressNew (keepAuras stores unit c₄)).phaseShift id = _ := hActive
  rw [hResult, areaPart, auraPart, references, references]
  cases failing answers (find o.phaseShift id) with
  | true =>
    simp only [if_true]
    omega
  | false =>
    have hNone : min (auraReferences stores unit id) (count none) = 0 := min_eq_right hAuras
    simp only [Bool.false_eq_true, if_false, hNone]
    omega

theorem references_suppressed (id : UInt16) :
    references (suppressNew (keepAuras stores unit c₄)).suppressedPhaseShift id =
      (if failing answers (find o.phaseShift id) then areaPart stores unit o id else 0) +
      (if holding answers (find o.suppressedPhaseShift id) then 0
        else references o.suppressedPhaseShift id) := by
  have hKept := slot_final stores unit h hSwept id
  have hAuras : 0 ≤ auraReferences stores unit id := Int.natCast_nonneg _
  have hSum : references (suppressNew (keepAuras stores unit c₄)).suppressedPhaseShift id =
      count (slot id (keepAuras stores unit c₄)).suppressed +
        count (slot id (keepAuras stores unit c₄)).new := by
    rw [references, find_suppressNew]
    cases (slot id (keepAuras stores unit c₄)).new with
    | none => exact (add_zero _).symm
    | some n => exact count_deposit _ n
  rw [hSum, hKept.suppressed, hKept.new, settledSlot_new, settledSlot_suppressed, areaPart, auraPart,
    references, references]
  have hCount : count (if holding answers (find o.suppressedPhaseShift id) then none
      else find o.suppressedPhaseShift id) =
      if holding answers (find o.suppressedPhaseShift id) then 0
        else count (find o.suppressedPhaseShift id) := by
    split <;> rfl
  rw [hCount]
  cases failing answers (find o.phaseShift id) with
  | true =>
    simp only [if_true]
    omega
  | false =>
    have hNone : min (auraReferences stores unit id) (count none) = 0 := min_eq_right hAuras
    simp only [Bool.false_eq_true, if_false, hNone]
    exact (add_comm _ _).trans (congrArg (· + _) (sub_zero 0))

theorem settled_result : Settled answers ⟨(suppressNew (keepAuras stores unit c₄)).phaseShift,
    (suppressNew (keepAuras stores unit c₄)).suppressedPhaseShift⟩ := by
  have hAuras := keepAuras_maps stores unit c₄
  obtain ⟨hActive₃, hNew₃, hLoaded₃⟩ := h.mapsSuppressed
    (phasesSwept_maps hSwept.suppressed hSwept.restored) hSwept.mapsSuppressed
  obtain ⟨hActive₄, hSuppressed₄, hNew₄⟩ := foldlM_restoreVisibleMap_answers hLoaded₃
    hSwept.mapsRestored (fun n hn => Or.inl hn) hActive₃
  constructor
  · intro p hp
    have hKept := slot_final stores unit h hSwept p.id
    have hFind : (slot p.id (keepAuras stores unit c₄)).active = some p :=
      find_eq_some_iff.mpr ⟨hp, rfl⟩
    rcases hKept.activeConditions p hFind with hNone | ⟨q, hq, hSame⟩
    · simp [Fails, hNone]
    · rw [fails_congr hSame]
      exact settledSlot_active_not_fails hq
  · intro p hp
    have hKept := slot_final stores unit h hSwept p.id
    have hFind := (find_suppressNew (keepAuras stores unit c₄) p.id).symm.trans
      (find_eq_some_iff.mpr ⟨hp, rfl⟩)
    have hConditions : ∀ q, find o.suppressedPhaseShift p.id = some q → q.areaConditions.isSome :=
      fun q hq => (h.suppressed q (find_eq_some_iff.mp hq).1).2
    cases hNew : (slot p.id (keepAuras stores unit c₄)).new with
    | none =>
      rw [hNew, hKept.suppressed] at hFind
      exact settledSlot_suppressed_fails hConditions hFind
    | some n =>
      rw [hNew] at hFind
      obtain ⟨m, hm, hSame⟩ := hKept.newConditions n hNew
      rw [← Option.some.inj hFind]
      exact fails_deposit ((fails_congr hSame).mpr (settledSlot_new_fails hm)) _
  · rw [MapsAnswer]
    change MapsAnswer answers true (keepAuras stores unit c₄).phaseShift
    rw [MapsAnswer, hAuras.phaseShift.visibleMapIds]
    exact hActive₄
  · have hNew : MapsAnswer answers false (keepAuras stores unit c₄).newSuppressions := by
      rw [MapsAnswer, hAuras.newSuppressions.visibleMapIds, hNew₄]
      exact hNew₃
    have hPhases := foldl_addPhase_maps (keepAuras stores unit c₄).newSuppressions.phases.entries
      (keepAuras stores unit c₄).suppressedPhaseShift
    refine List.foldlRecOn (motive := MapsAnswer answers false)
      (keepAuras stores unit c₄).newSuppressions.visibleMapIds.entries
      (fun s m => (s.addVisibleMapId m.id m.visibleMapInfo m.references).1) ?_ ?_
    · rw [MapsAnswer, hPhases.visibleMapIds, hAuras.suppressedPhaseShift.visibleMapIds]
      exact hSuppressed₄
    · exact fun s hs m hm => hs.add (hNew m hm).1 (hNew m hm).2 m.references

end Result

theorem settled_of_onConditionChange {stores : PhaseStores}
    {unit : Option PhaseAuras} (h : Valid o) {r : ObjectPhases × Bool}
    (hStep : onConditionChange stores answers unit o = some r) : Settled answers r.1 := by
  obtain ⟨c₁, c₂, c₃, c₄, hSwept, rfl⟩ := onConditionChange_eq_some_iff.mp hStep
  exact settled_result stores unit h hSwept

theorem exists_onConditionChange (h : Valid o) (stores : PhaseStores)
    (answers : ConditionAnswers) (unit : Option PhaseAuras) :
    ∃ r, onConditionChange stores answers unit o = some r := by
  obtain ⟨c₁, c₂, c₃, c₄, hSwept⟩ := exists_swept h answers
  exact ⟨_, onConditionChange_eq_some_iff.mpr ⟨c₁, c₂, c₃, c₄, hSwept, rfl⟩⟩

/-- A change of conditions conserves the references of every phase, puts the references of
areas where their conditions say and those of auras into the phase shift, and is idempotent. -/
theorem onConditionChange_conserves (stores : PhaseStores) (answers : ConditionAnswers)
    (unit : Option PhaseAuras) {o : ObjectPhases} (h : Valid o) :
    ∃ o' changed, onConditionChange stores answers unit o = some (o', changed) ∧
      Conserves stores answers unit o o' ∧
      onConditionChange stores answers unit o' = some (o', false) := by
  obtain ⟨c₁, c₂, c₃, c₄, hSwept⟩ := exists_swept h answers
  have hActive := references_active stores unit h hSwept
  have hSuppressed := references_suppressed stores unit h hSwept
  have hSettled := settled_result stores unit h hSwept
  refine ⟨_, _, onConditionChange_eq_some_iff.mpr ⟨c₁, c₂, c₃, c₄, hSwept, rfl⟩, ?_,
    onConditionChange_of_settled hSettled stores unit⟩
  constructor
  · intro id
    rw [hActive, hSuppressed, areaPart]
    split <;> split <;> omega
  · exact hActive
  · exact hSuppressed
  · intro p conditions hConditions hStored
    constructor
    · intro hMem
      by_contra hNot
      exact hSettled.active p hMem ⟨conditions, hConditions, eq_false_of_ne_true hNot⟩
    · intro hMeets
      refine hStored.resolve_right fun hMem => ?_
      obtain ⟨other, hOther, hNot⟩ := hSettled.suppressed p hMem
      rw [hConditions] at hOther
      rw [Option.some.inj hOther, hNot] at hMeets
      cases hMeets
  · intro id
    have hPositive : ∀ s : PhaseShift, (∀ p ∈ s.phases.entries, 0 < p.references) →
        0 ≤ references s id := by
      intro s hs
      rw [references]
      cases hFind : find s id with
      | none => exact Int.le_refl 0
      | some p => exact (hs p (find_eq_some_iff.mp hFind).1).le
    have hFirst := hPositive o.phaseShift h.active
    have hSecond := hPositive o.suppressedPhaseShift fun p hp => (h.suppressed p hp).1
    rw [hActive, areaPart, auraPart]
    split <;> split <;> omega

/-- Phase 5 is of an area whose conditions fail and of an aura, phase 7 of an area whose
conditions hold again. -/
def sharedPhase : ObjectPhases :=
  ⟨{ PhaseShift.new with
      phases := ⟨[⟨5, PhaseFlags.none, 2, some 0⟩, ⟨169, PhaseFlags.none, 1, none⟩], by decide⟩ },
    { PhaseShift.new with phases := ⟨[⟨7, PhaseFlags.none, 1, some 1⟩], by decide⟩ }⟩

theorem onConditionChange_conserves_sharedPhase :
    ∃ o' changed, onConditionChange ⟨fun _ => none, fun _ => none⟩
        ⟨fun conditions => conditions = 1, fun _ => true⟩ (some ⟨[5], []⟩) sharedPhase =
          some (o', changed) ∧
      Conserves ⟨fun _ => none, fun _ => none⟩ ⟨fun conditions => conditions = 1, fun _ => true⟩
        (some ⟨[5], []⟩) sharedPhase o' ∧
      onConditionChange ⟨fun _ => none, fun _ => none⟩
        ⟨fun conditions => conditions = 1, fun _ => true⟩ (some ⟨[5], []⟩) o' = some (o', false) :=
  onConditionChange_conserves _ _ _
    ⟨by decide, by decide, fun _ hm => (List.not_mem_nil hm).elim, fun _ hm => (List.not_mem_nil hm).elim⟩

end AshamaneCore.PhaseConditions
