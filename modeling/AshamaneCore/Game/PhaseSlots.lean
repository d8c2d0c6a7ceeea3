import AshamaneCore.Game.PhaseFrames
import AshamaneCore.Game.PhaseReferences

/-!
# One phase in a change of conditions

A change of conditions acts on each phase alone. Of the three shifts at work it
needs the entries of that phase: whole entries move by their conditions, equal
phases merge, and every aura of the phase takes one reference back.
-/

namespace AshamaneCore.PhaseSlots

open Library Library.Transition PhaseShift PhasingHandler PhaseReferences PhaseFrames

/-! ## One phase of a shift -/

def find (s : PhaseShift) (id : UInt16) : Option PhaseRef := s.phases.find? id.toNat

def count (p : Option PhaseRef) : Int := (p.map (·.references)).getD 0

def references (s : PhaseShift) (id : UInt16) : Int := count (find s id)

def deposit (found : Option PhaseRef) (p : PhaseRef) : PhaseRef :=
  let q := found.getD ⟨p.id, p.flags, 0, none⟩
  { q with
    references := q.references + p.references
    areaConditions := p.areaConditions.or q.areaConditions }

def withdraw (found : Option PhaseRef) : Option PhaseRef :=
  found.bind fun p => if p.references = 1 then none else some (p.addReferences (-1))

variable {p : PhaseRef} {id : UInt16}

theorem key_eq_iff : p.key = id.toNat ↔ p.id = id := UInt16.toNat_inj

theorem find_eq_some_iff {s : PhaseShift} :
    find s id = some p ↔ p ∈ s.phases.entries ∧ p.id = id := by
  rw [find, KeyedSet.find?_eq_some_iff, key_eq_iff]

theorem id_of_find {s : PhaseShift} (h : find s id = some p) :
    p.id = id :=
  (find_eq_some_iff.mp h).2

theorem id_toNat_eq_iff {phaseId : UInt32} {flags : EnumClassFlag 16} :
    id.toNat = (PhaseRef.new phaseId flags none).key ↔ id = phaseId.toUInt16 := UInt16.toNat_inj

theorem find_emplaced (s : PhaseShift) (phaseId : UInt32) (flags : EnumClassFlag 16)
    (references : Int) (id : UInt16) :
    ((s.phases.emplace ((s.phases.find? (PhaseRef.new phaseId flags none).key).getD
        (.new phaseId flags none))).alter (PhaseRef.new phaseId flags none).key
          (.addReferences references) (PhaseRef.key_addReferences _)).find? id.toNat =
      if id = phaseId.toUInt16 then
        some (((find s id).getD (.new phaseId flags none)).addReferences references)
      else find s id := by
  have hEmplaced := KeyedSet.find?_emplace s.phases (.new phaseId flags none)
  have hKey := (KeyedSet.find?_eq_some_iff.mp hEmplaced).2
  rw [KeyedSet.find?_alter_eq]
  by_cases hId : id = phaseId.toUInt16
  · subst hId
    rw [if_pos rfl, if_pos (id_toNat_eq_iff.mpr rfl)]
    exact congrArg (Option.map _) hEmplaced
  · have hNe : ¬ id.toNat = (PhaseRef.new phaseId flags none).key := fun hEq => hId (id_toNat_eq_iff.mp hEq)
    rw [if_neg hId, if_neg hNe, KeyedSet.find?_emplace_eq, hKey, if_neg hNe, find]

theorem find_addPhase (s : PhaseShift) (phaseId : UInt32) (flags : EnumClassFlag 16)
    (areaConditions : Option Nat) (references : Int) (id : UInt16) :
    find (s.addPhase phaseId flags areaConditions references).1 id =
      if id = phaseId.toUInt16 then
        some (deposit (find s id) ⟨phaseId.toUInt16, flags, references, areaConditions⟩)
      else find s id := by
  have hEmplaced := find_emplaced s phaseId flags references id
  have hKey := (KeyedSet.find?_eq_some_iff.mp
    (KeyedSet.find?_emplace s.phases (.new phaseId flags none))).2
  rw [find, addPhase]
  generalize (s.phases.find? (PhaseRef.new phaseId flags none).key).getD
    (.new phaseId flags none) = p at hEmplaced hKey ⊢
  cases areaConditions with
  | none =>
    simp only [Option.isSome_none, Bool.false_eq_true, if_false, modifyPhasesReferences_phases, hKey]
    exact hEmplaced
  | some conditions =>
    simp only [Option.isSome_some, if_true, modifyPhasesReferences_phases, hKey]
    rw [KeyedSet.find?_alter_eq, hEmplaced]
    simp only [id_toNat_eq_iff]
    split
    · rfl
    · rfl

theorem find_removePhase (s : PhaseShift) (phaseId : UInt32) (id : UInt16) :
    find (s.removePhase phaseId).1 id =
      if id = phaseId.toUInt16 then withdraw (find s id) else find s id := by
  rw [removePhase]
  split
  · rename_i p hFind
    have hStored : find s phaseId.toUInt16 = some p := hFind
    have hId := id_of_find hStored
    dsimp only
    split
    · rename_i hEmpty
      have hOne : p.references = 1 := by
        simp only [PhaseRef.addReferences] at hEmpty
        omega
      rw [find]
      dsimp only
      rw [KeyedSet.find?_erase_eq, modifyPhasesReferences_phases, KeyedSet.find?_alter_eq]
      by_cases hEq : id = phaseId.toUInt16
      · rw [if_pos hEq, if_pos (by rw [hEq, PhaseRef.key, hId]), hEq, hStored, withdraw]
        simp [hOne]
      · have hNe : ¬ id.toNat = p.key := by
          rw [PhaseRef.key, hId]
          exact fun h => hEq (UInt16.toNat_inj.mp h)
        rw [if_neg hEq, if_neg hNe, if_neg hNe, find]
    · rename_i hSome
      have hMore : p.references ≠ 1 := by
        simp only [PhaseRef.addReferences] at hSome
        omega
      rw [find, modifyPhasesReferences_phases, KeyedSet.find?_alter_eq]
      by_cases hEq : id = phaseId.toUInt16
      · rw [if_pos hEq, if_pos (by rw [hEq, PhaseRef.key, hId])]
        have hFound : s.phases.find? id.toNat = some p := hEq ▸ hStored
        rw [hFound, find, hFound, withdraw]
        simp [hMore]
      · have hNe : ¬ id.toNat = p.key := by
          rw [PhaseRef.key, hId]
          exact fun h => hEq (UInt16.toNat_inj.mp h)
        rw [if_neg hEq, if_neg hNe, find]
  · rename_i hNone
    have hStored : find s phaseId.toUInt16 = none := hNone
    split
    · rename_i hEq
      rw [hEq, hStored]
      rfl
    · rfl

theorem find_takePhase (s : PhaseShift) (p : PhaseRef) (id : UInt16) :
    find (takePhase s p) id = if id = p.id then none else find s id := by
  rw [find, takePhase]
  dsimp only
  rw [KeyedSet.find?_erase_eq, modifyPhasesReferences_phases, KeyedSet.find?_alter_eq]
  by_cases hEq : id = p.id
  · rw [if_pos hEq, if_pos (by rw [hEq]; rfl)]
  · have hNe : ¬ id.toNat = p.key := fun h => hEq (UInt16.toNat_inj.mp h)
    rw [if_neg hEq, if_neg hNe, if_neg hNe, find]

/-! ## One phase of the shifts at work -/

structure Slot where
  active : Option PhaseRef
  suppressed : Option PhaseRef
  new : Option PhaseRef

def slot (id : UInt16) (c : Change) : Slot :=
  ⟨find c.phaseShift id, find c.suppressedPhaseShift id, find c.newSuppressions id⟩

def Fails (answers : ConditionAnswers) (p : PhaseRef) : Prop :=
  ∃ conditions, p.areaConditions = some conditions ∧ answers.meetsConditions conditions = false

def Holds (answers : ConditionAnswers) (p : PhaseRef) : Prop :=
  ∃ conditions, p.areaConditions = some conditions ∧ answers.meetsConditions conditions = true

instance (answers : ConditionAnswers) (p : PhaseRef) : Decidable (Fails answers p) :=
  match h : p.areaConditions with
  | some conditions => decidable_of_iff (answers.meetsConditions conditions = false) (by simp [Fails, h])
  | none => isFalse (by simp [Fails, h])

instance (answers : ConditionAnswers) (p : PhaseRef) : Decidable (Holds answers p) :=
  match h : p.areaConditions with
  | some conditions => decidable_of_iff (answers.meetsConditions conditions = true) (by simp [Holds, h])
  | none => isFalse (by simp [Holds, h])

variable {answers : ConditionAnswers}

theorem holds_or_fails (h : p.areaConditions.isSome) :
    Holds answers p ∨ Fails answers p := by
  obtain ⟨conditions, hConditions⟩ := Option.isSome_iff_exists.mp h
  cases hMeets : answers.meetsConditions conditions with
  | true => exact Or.inl ⟨conditions, hConditions, hMeets⟩
  | false => exact Or.inr ⟨conditions, hConditions, hMeets⟩

def suppressSlot (answers : ConditionAnswers) (p : PhaseRef) (t : Slot) : Slot :=
  if Fails answers p then ⟨none, t.suppressed, some (deposit t.new p)⟩ else t

def restoreSlot (answers : ConditionAnswers) (p : PhaseRef) (t : Slot) : Slot :=
  if Holds answers p then ⟨some (deposit t.active p), none, t.new⟩ else t

def auraRef (stores : PhaseStores) (phaseId : UInt32) : PhaseRef :=
  ⟨phaseId.toUInt16, getPhaseFlags stores phaseId, 1, none⟩

def keepSlot (stores : PhaseStores) (t : Slot) (phaseId : UInt32) : Slot :=
  if t.new.isSome then
    ⟨some (deposit t.active (auraRef stores phaseId)), t.suppressed, withdraw t.new⟩
  else t

theorem suppressPhase_eq (answers : ConditionAnswers) (c : Change) (p : PhaseRef) :
    suppressPhase answers c p =
      if Fails answers p then
        { c with
          newSuppressions :=
            (c.newSuppressions.addPhase p.id.toUInt32 p.flags p.areaConditions p.references).1
          phaseShift := takePhase c.phaseShift p }
      else c := by
  rw [suppressPhase]
  cases hConditions : p.areaConditions with
  | none => simp [Fails, hConditions]
  | some conditions =>
    cases hMeets : answers.meetsConditions conditions <;> simp [Fails, hConditions, hMeets]

def restored (answers : ConditionAnswers) (c : Change) (p : PhaseRef) : Change :=
  if Holds answers p then
    let added := c.phaseShift.addPhase p.id.toUInt32 p.flags p.areaConditions p.references
    { c with
      phaseShift := added.1
      changed := added.2 || c.changed
      suppressedPhaseShift := takePhase c.suppressedPhaseShift p }
  else c

theorem restorePhase_eq (h : p.areaConditions.isSome)
    (c : Change) : restorePhase answers c p = some (restored answers c p) := by
  obtain ⟨conditions, hConditions⟩ := Option.isSome_iff_exists.mp h
  rw [restorePhase, restored, hConditions]
  cases hMeets : answers.meetsConditions conditions <;> simp [Holds, hConditions, hMeets]

theorem slot_suppressPhase (answers : ConditionAnswers) (c : Change) (p : PhaseRef) :
    slot id (suppressPhase answers c p) =
      if p.id = id then suppressSlot answers p (slot id c) else slot id c := by
  rw [suppressPhase_eq, suppressSlot]
  by_cases hFails : Fails answers p
  · simp only [if_pos hFails, slot, find_takePhase, find_addPhase, UInt16.toUInt16_toUInt32]
    by_cases hId : p.id = id
    · subst hId
      simp
    · simp [hId, Ne.symm hId]
  · simp only [if_neg hFails, ite_self]

theorem slot_restored (answers : ConditionAnswers) (c : Change) (p : PhaseRef) :
    slot id (restored answers c p) =
      if p.id = id then restoreSlot answers p (slot id c) else slot id c := by
  rw [restored, restoreSlot]
  by_cases hHolds : Holds answers p
  · simp only [if_pos hHolds, slot, find_takePhase, find_addPhase, UInt16.toUInt16_toUInt32]
    by_cases hId : p.id = id
    · subst hId
      simp
    · simp [hId, Ne.symm hId]
  · simp only [if_neg hHolds, ite_self]

theorem removePhase_found (s : PhaseShift) (phaseId : UInt32) :
    ((s.removePhase phaseId).2.iterator.isSome || (s.removePhase phaseId).2.erased) =
      (find s phaseId.toUInt16).isSome := by
  have hSame : s.phases.find? (PhaseRef.new phaseId PhaseFlags.none none).key =
      find s phaseId.toUInt16 := rfl
  rw [removePhase, hSame]
  cases find s phaseId.toUInt16 with
  | none => rfl
  | some p =>
    dsimp only
    split
    · simp
    · rfl

theorem slot_keepAuraPhase (stores : PhaseStores) (c : Change) (phaseId : UInt32) :
    slot id (keepAuraPhase stores c phaseId) =
      if phaseId.toUInt16 = id then keepSlot stores (slot id c) phaseId else slot id c := by
  rw [keepAuraPhase]
  dsimp only
  rw [removePhase_found]
  by_cases hId : phaseId.toUInt16 = id
  · subst hId
    rw [if_pos rfl, keepSlot]
    cases hFind : find c.newSuppressions phaseId.toUInt16 with
    | none => simp [slot, hFind, find_removePhase, withdraw]
    | some n => simp [slot, hFind, find_removePhase, find_addPhase, auraRef]
  · rw [if_neg hId]
    split <;> simp [slot, find_removePhase, find_addPhase, Ne.symm hId]

/-! ## The sweeps at one phase -/

def unitAuras (stores : PhaseStores) : Option PhaseAuras → List UInt32
  | some auras => auraPhases stores auras
  | none => []

def aurasOf (stores : PhaseStores) (unit : Option PhaseAuras) (id : UInt16) : List UInt32 :=
  (unitAuras stores unit).filter fun phaseId => phaseId.toUInt16 = id

def settledSlot (answers : ConditionAnswers) (t : Slot) : Slot :=
  let t := t.active.elim t fun p => suppressSlot answers p t
  t.suppressed.elim t fun p => restoreSlot answers p t

theorem foldl_suppressPhase_suppressed (answers : ConditionAnswers) (o : ObjectPhases) :
    ((started o).phaseShift.phases.entries.foldl (suppressPhase answers)
      (started o)).suppressedPhaseShift = o.suppressedPhaseShift := by
  refine List.foldlRecOn (motive := fun c => c.suppressedPhaseShift = o.suppressedPhaseShift) _
    (suppressPhase answers) (b := started o) rfl ?_
  intro c hc p _
  rw [suppressPhase_eq]
  split <;> exact hc

section Stages

variable {stores : PhaseStores} {answers : ConditionAnswers} {unit : Option PhaseAuras}
  {o : ObjectPhases} {c₁ c₂ c₃ c₄ : Change} (h : Swept answers o c₁ c₂ c₃ c₄) (id : UInt16)

include h

theorem slot_suppressed : slot id c₁ =
    (find o.phaseShift id).elim (slot id (started o)) fun p =>
      suppressSlot answers p (slot id (started o)) := by
  rw [h.suppressed]
  refine KeyedSet.foldl_view (v := slot id) (k := id.toNat) ?_ ?_ o.phaseShift.phases (started o)
  · intro c p hKey
    rw [slot_suppressPhase, if_pos (key_eq_iff.mp hKey)]
  · intro c p hKey
    rw [slot_suppressPhase, if_neg fun hId => hKey (key_eq_iff.mpr hId)]

theorem suppressedPhaseShift_suppressed : c₁.suppressedPhaseShift = o.suppressedPhaseShift := by
  rw [h.suppressed]
  exact foldl_suppressPhase_suppressed answers o

theorem restored_eq (hConditions : ∀ p ∈ o.suppressedPhaseShift.phases.entries,
    p.areaConditions.isSome) :
    c₂ = o.suppressedPhaseShift.phases.entries.foldl (restored answers) c₁ := by
  have hRestored := h.restored
  rw [suppressedPhaseShift_suppressed h, foldlM_eq_some_foldl fun c p hp =>
    restorePhase_eq (hConditions p hp) c] at hRestored
  exact (Option.some.inj hRestored).symm

theorem slot_restoredAll (hConditions : ∀ p ∈ o.suppressedPhaseShift.phases.entries,
    p.areaConditions.isSome) : slot id c₂ =
    (find o.suppressedPhaseShift id).elim (slot id c₁) fun p =>
      restoreSlot answers p (slot id c₁) := by
  rw [restored_eq h hConditions]
  refine KeyedSet.foldl_view (v := slot id) (k := id.toNat) ?_ ?_ o.suppressedPhaseShift.phases c₁
  · intro c p hKey
    rw [slot_restored, if_pos (key_eq_iff.mp hKey)]
  · intro c p hKey
    rw [slot_restored, if_neg fun hId => hKey (key_eq_iff.mpr hId)]

theorem slot_mapsMoved : slot id c₄ = slot id c₂ := by
  have h₃ : SameChangePhases c₂ c₃ := foldlM_invariant
    (fun _ _ _ hc hNext => hc.trans (suppressVisibleMap_phases hNext)) h.mapsSuppressed
    SameChangePhases.rfl
  have h₄ : SameChangePhases c₂ c₄ := foldlM_invariant
    (fun _ _ _ hc hNext => hc.trans (restoreVisibleMap_phases hNext)) h.mapsRestored h₃
  simp only [slot, find, h₄.phaseShift, h₄.suppressedPhaseShift, h₄.newSuppressions]

theorem slot_swept (hConditions : ∀ p ∈ o.suppressedPhaseShift.phases.entries,
    p.areaConditions.isSome) : slot id c₄ = settledSlot answers (slot id (started o)) := by
  rw [slot_mapsMoved h, slot_restoredAll h id hConditions]
  have hSuppressed : (slot id c₁).suppressed = find o.suppressedPhaseShift id := by
    rw [slot, suppressedPhaseShift_suppressed h]
  rw [← hSuppressed, slot_suppressed h id]
  rfl

end Stages

theorem slot_keepAuras (stores : PhaseStores) (unit : Option PhaseAuras) (id : UInt16) (c : Change) :
    slot id (keepAuras stores unit c) = (aurasOf stores unit id).foldl (keepSlot stores) (slot id c) := by
  have hFold : ∀ (phases : List UInt32) (c : Change),
      slot id (phases.foldl (keepAuraPhase stores) c) =
        (phases.filter fun phaseId => phaseId.toUInt16 = id).foldl (keepSlot stores) (slot id c) := by
    intro phases
    induction phases with
    | nil => exact fun _ => rfl
    | cons phaseId phases ih =>
      intro c
      rw [List.foldl_cons, ih, slot_keepAuraPhase]
      split
      · rename_i hId
        rw [List.filter_cons_of_pos (by simpa using hId), List.foldl_cons]
      · rename_i hId
        rw [List.filter_cons_of_neg (by simpa using hId)]
  cases unit with
  | some auras => exact hFold (auraPhases stores auras) c
  | none => rfl

theorem find_suppressNew (c : Change) (id : UInt16) :
    find (suppressNew c).suppressedPhaseShift id =
      (slot id c).new.elim (slot id c).suppressed fun n => some (deposit (slot id c).suppressed n) := by
  have hPhases := KeyedSet.foldl_view
    (f := fun s (p : PhaseRef) => (PhaseShift.addPhase s p.id.toUInt32 p.flags p.areaConditions p.references).1)
    (v := fun s => find s id) (g := fun p found => some (deposit found p)) (k := id.toNat)
    (fun s p hKey => by
      obtain rfl := key_eq_iff.mp hKey
      simp [find_addPhase])
    (fun s p hKey => by
      have hId : ¬ id = p.id := fun hEq => hKey (key_eq_iff.mpr hEq.symm)
      simp [find_addPhase, hId])
    c.newSuppressions.phases c.suppressedPhaseShift
  refine Eq.trans ?_ hPhases
  refine List.foldlRecOn (motive := fun s => find s id = find (List.foldl _ _ _) id) _ _ rfl ?_
  exact fun s hs m _ => hs

/-! ## References of one phase -/

theorem count_deposit (found : Option PhaseRef) (p : PhaseRef) :
    count (some (deposit found p)) = count found + p.references := by
  cases found with
  | none => rfl
  | some q => rfl

theorem deposit_none (p : PhaseRef) : deposit none p = p := by
  simp [deposit]

variable {n : PhaseRef}

theorem count_withdraw : count (withdraw (some n)) = n.references - 1 := by
  rw [withdraw, Option.bind_some]
  split
  · rename_i hOne
    rw [hOne]
    rfl
  · rfl

def failing (answers : ConditionAnswers) (found : Option PhaseRef) : Bool :=
  found.any fun p => Fails answers p

def holding (answers : ConditionAnswers) (found : Option PhaseRef) : Bool :=
  found.any fun p => Holds answers p

section Settled

variable (answers : ConditionAnswers) (active suppressed : Option PhaseRef)

theorem settledSlot_new : (settledSlot answers ⟨active, suppressed, none⟩).new =
    if failing answers active then active else none := by
  have hRestore : ∀ t : Slot, (t.suppressed.elim t fun p => restoreSlot answers p t).new = t.new := by
    intro t
    cases t.suppressed with
    | none => rfl
    | some p =>
      simp only [Option.elim_some, restoreSlot]
      split <;> rfl
  rw [settledSlot, hRestore]
  cases active with
  | none => rfl
  | some p =>
    simp only [Option.elim_some, suppressSlot, failing, Option.any_some, decide_eq_true_eq]
    split
    · rw [deposit_none]
    · rfl

theorem settledSlot_suppressed : (settledSlot answers ⟨active, suppressed, none⟩).suppressed =
    if holding answers suppressed then none else suppressed := by
  have hSuppress : (active.elim ⟨active, suppressed, none⟩ fun p =>
      suppressSlot answers p ⟨active, suppressed, none⟩).suppressed = suppressed := by
    cases active with
    | none => rfl
    | some p =>
      simp only [Option.elim_some, suppressSlot]
      split <;> rfl
  rw [settledSlot]
  dsimp only
  rw [hSuppress]
  cases suppressed with
  | none => exact hSuppress
  | some q =>
    simp only [Option.elim_some, restoreSlot, holding, Option.any_some, decide_eq_true_eq]
    split
    · rfl
    · exact hSuppress

theorem settledSlot_active : (settledSlot answers ⟨active, suppressed, none⟩).active =
    if holding answers suppressed then
      suppressed.map (deposit (if failing answers active then none else active))
    else if failing answers active then none else active := by
  have hSuppress : active.elim ⟨active, suppressed, none⟩ (fun p =>
      suppressSlot answers p ⟨active, suppressed, none⟩) =
      ⟨if failing answers active then none else active, suppressed,
        if failing answers active then active else none⟩ := by
    cases active with
    | none => rfl
    | some p =>
      simp only [Option.elim_some, suppressSlot, failing, Option.any_some, decide_eq_true_eq]
      split
      · rw [deposit_none]
      · rfl
  rw [settledSlot, hSuppress]
  cases suppressed with
  | none => rfl
  | some q =>
    simp only [Option.elim_some, restoreSlot, holding, Option.any_some, decide_eq_true_eq,
      Option.map_some]
    split <;> rfl

end Settled

structure Kept (auras : Int) (t t' : Slot) : Prop where
  active : count t'.active = count t.active + min auras (count t.new)
  new : count t'.new = count t.new - min auras (count t.new)
  suppressed : t'.suppressed = t.suppressed
  positive : ∀ n, t'.new = some n → 0 < n.references
  newConditions : ∀ n', t'.new = some n' → ∃ n, t.new = some n ∧ n'.areaConditions = n.areaConditions
  activeConditions : ∀ p', t'.active = some p' →
    p'.areaConditions = none ∨ ∃ p, t.active = some p ∧ p'.areaConditions = p.areaConditions

theorem withdraw_eq_some {n' : PhaseRef} (h : withdraw (some n) = some n') :
    n' = n.addReferences (-1) ∧ n.references ≠ 1 := by
  rw [withdraw, Option.bind_some] at h
  split at h
  · cases h
  · exact ⟨(Option.some.inj h).symm, ‹_›⟩

theorem keepSlot_kept (stores : PhaseStores) {t : Slot} (phaseId : UInt32)
    (h : ∀ n, t.new = some n → 0 < n.references) : Kept 1 t (keepSlot stores t phaseId) := by
  obtain ⟨active, suppressed, new⟩ := t
  cases new with
  | none =>
    exact ⟨by simp [keepSlot, count], by simp [keepSlot, count], rfl, h, fun n hn => (nomatch hn),
      fun p hp => Or.inr ⟨p, hp, rfl⟩⟩
  | some n =>
    have hPositive : 0 < n.references := h n rfl
    have hMin : min 1 (count (some n)) = 1 := min_eq_left hPositive
    have hKeep : keepSlot stores ⟨active, suppressed, some n⟩ phaseId =
      ⟨some (deposit active (auraRef stores phaseId)), suppressed, withdraw (some n)⟩ := rfl
    rw [hKeep]
    constructor
    · rw [hMin]
      exact count_deposit active _
    · rw [hMin]
      exact count_withdraw
    · rfl
    · intro n' hn'
      obtain ⟨rfl, hMore⟩ := withdraw_eq_some hn'
      simp only [PhaseRef.addReferences]
      omega
    · intro n' hn'
      obtain ⟨rfl, -⟩ := withdraw_eq_some hn'
      exact ⟨n, rfl, rfl⟩
    · intro p' hp'
      obtain rfl := Option.some.inj hp'
      cases active with
      | none => exact Or.inl rfl
      | some p => exact Or.inr ⟨p, rfl, rfl⟩

theorem foldl_keepSlot_kept (stores : PhaseStores) (phases : List UInt32) :
    ∀ {t : Slot}, (∀ n, t.new = some n → 0 < n.references) →
      Kept phases.length t (phases.foldl (keepSlot stores) t) := by
  induction phases with
  | nil =>
    intro t h
    have hCount : 0 ≤ count t.new := by
      cases hNew : t.new with
      | none => exact Int.le_refl 0
      | some n => exact (h n hNew).le
    have hMin : min ((([] : List UInt32).length : Nat) : Int) (count t.new) = 0 := min_eq_left hCount
    constructor
    · rw [hMin, add_zero]
      rfl
    · rw [hMin, sub_zero]
      rfl
    · rfl
    · exact h
    · exact fun n hn => ⟨n, hn, rfl⟩
    · exact fun p hp => Or.inr ⟨p, hp, rfl⟩
  | cons phaseId phases ih =>
    intro t h
    have hFirst := keepSlot_kept stores phaseId h
    have hRest := ih hFirst.positive
    have hLength : ((phaseId :: phases).length : Int) = phases.length + 1 := by simp
    have hNonneg : (0 : Int) ≤ phases.length := Int.natCast_nonneg _
    constructor
    · rw [List.foldl_cons, hRest.active, hFirst.active, hFirst.new, hLength]
      omega
    · rw [List.foldl_cons, hRest.new, hFirst.new, hLength]
      omega
    · exact hRest.suppressed.trans hFirst.suppressed
    · exact hRest.positive
    · intro n' hn'
      obtain ⟨m, hm, hSame⟩ := hRest.newConditions n' hn'
      obtain ⟨n, hn, hFound⟩ := hFirst.newConditions m hm
      exact ⟨n, hn, hSame.trans hFound⟩
    · intro p' hp'
      rcases hRest.activeConditions p' hp' with hNone | ⟨q, hq, hSame⟩
      · exact Or.inl hNone
      · rcases hFirst.activeConditions q hq with hNone | ⟨p, hp, hFound⟩
        · exact Or.inl (hSame.trans hNone)
        · exact Or.inr ⟨p, hp, hSame.trans hFound⟩

theorem count_settledSlot_active (answers : ConditionAnswers) (active suppressed : Option PhaseRef) :
    count (settledSlot answers ⟨active, suppressed, none⟩).active =
      (if failing answers active then 0 else count active) +
        (if holding answers suppressed then count suppressed else 0) := by
  rw [settledSlot_active]
  split
  · rename_i hHolding
    cases suppressed with
    | none => cases hHolding
    | some q =>
      rw [Option.map_some, count_deposit]
      split <;> rfl
  · rw [add_zero]
    split <;> rfl

variable {q : PhaseRef}

theorem not_fails_deposit (h : Holds answers q)
    (found : Option PhaseRef) : ¬ Fails answers (deposit found q) := by
  obtain ⟨conditions, hConditions, hMeets⟩ := h
  simp [Fails, deposit, hConditions, hMeets]

theorem fails_deposit (h : Fails answers n)
    (found : Option PhaseRef) : Fails answers (deposit found n) := by
  obtain ⟨conditions, hConditions, hNot⟩ := h
  exact ⟨conditions, by simp [deposit, hConditions], hNot⟩

theorem fails_congr (h : p.areaConditions = q.areaConditions) : Fails answers p ↔ Fails answers q := by
  rw [Fails, Fails, h]

variable {active suppressed : Option PhaseRef}

theorem settledSlot_active_not_fails (h : (settledSlot answers ⟨active, suppressed, none⟩).active = some p) :
    ¬ Fails answers p := by
  rw [settledSlot_active] at h
  split at h
  · rename_i hHolding
    cases suppressed with
    | none => cases hHolding
    | some q =>
      obtain rfl := Option.some.inj h
      exact not_fails_deposit (by simpa [holding] using hHolding) _
  · split at h
    · cases h
    · rename_i hFailing
      subst h
      simpa [failing] using hFailing

theorem settledSlot_new_fails (h : (settledSlot answers ⟨active, suppressed, none⟩).new = some n) :
    Fails answers n := by
  rw [settledSlot_new] at h
  split at h
  · rename_i hFailing
    subst h
    simpa [failing] using hFailing
  · cases h

theorem settledSlot_suppressed_fails (hConditions : ∀ q, suppressed = some q → q.areaConditions.isSome)
    (h : (settledSlot answers ⟨active, suppressed, none⟩).suppressed = some q) : Fails answers q := by
  rw [settledSlot_suppressed] at h
  split at h
  · cases h
  · rename_i hNot
    subst h
    refine (holds_or_fails (hConditions q rfl)).resolve_left ?_
    simpa [holding] using hNot

end AshamaneCore.PhaseSlots
