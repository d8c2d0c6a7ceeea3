import AshamaneCore.Game.InstanceSaves

/-!
# Binds and lists agree

Whoever is in the list of a save has a bind to it, every bind leads to a save that the
manager knows, and each operation on binds and saves keeps it so.
-/

namespace AshamaneCore.InstanceBinds

open Library Library.Transition

variable {Guid : Type}

/-! ## Small facts -/

namespace InstanceSave

variable (save : InstanceSave Guid) (side other : Side) (x : Guid)

variable [DecidableEq Guid] in

theorem insert_list : (save.insert side x).list other =
    if other = side then save.list side ++ [x] else save.list other := by
  simp only [insert, Function.update_apply]

variable [DecidableEq Guid] in
theorem remove_list : (save.remove side x).list other =
    if other = side then (save.list side).filter (fun y => y ≠ x) else save.list other := by
  simp only [remove, Function.update_apply]

theorem isEmpty_iff {save : InstanceSave Guid} : save.isEmpty = true ↔ ∀ side, save.list side = [] := by
  rw [isEmpty, Bool.and_eq_true, List.isEmpty_iff, List.isEmpty_iff]
  constructor
  · rintro ⟨hPlayer, hGroup⟩ side
    cases side with
    | player => exact hPlayer
    | group => exact hGroup
  · exact fun h => ⟨h .player, h .group⟩

end InstanceSave

namespace InstanceSaveManager

variable (m : InstanceSaveManager Guid) (h g : Handle) (side : Side) (x : Guid) (key : MapDifficulty)

theorem setSave_saves (save : Option (InstanceSave Guid)) :
    (m.setSave h save).saves g = if g = h then save else m.saves g := by
  simp only [setSave, Function.update_apply]

theorem setId_byId (instanceId other : Nat) (k : Option Handle) :
    (m.setId instanceId k).byId other = if other = instanceId then k else m.byId other := by
  simp only [setId, Function.update_apply]

variable [DecidableEq Guid] in
theorem setBind_binds (bind : Option InstanceBind) (side' : Side) (x' : Guid) (key' : MapDifficulty) :
    (m.setBind side x key bind).binds side' x' key' =
      if side' = side ∧ x' = x ∧ key' = key then bind else m.binds side' x' key' := rfl

variable [DecidableEq Guid] in
@[simp] theorem setBind_self (bind : Option InstanceBind) :
    (m.setBind side x key bind).binds side x key = bind := by
  rw [setBind_binds, if_pos ⟨rfl, rfl, rfl⟩]

variable [DecidableEq Guid] in
theorem setBind_setBind (first second : Option InstanceBind) :
    (m.setBind side x key first).setBind side x key second = m.setBind side x key second := by
  simp only [setBind, InstanceSaveManager.mk.injEq, true_and]
  funext side' x' key'
  split <;> rfl

end InstanceSaveManager

open InstanceSaveManager

/-! ## The invariant -/

/-- The bind of somebody for a map and difficulty leads to the save. -/
def PointsTo (m : InstanceSaveManager Guid) (side : Side) (x : Guid) (key : MapDifficulty) (h : Handle) :
    Prop :=
  ∃ bind, m.binds side x key = some bind ∧ bind.save = h

structure Registered (m : InstanceSaveManager Guid) (h : Handle) (save : InstanceSave Guid) : Prop where
  saves : m.saves h = some save
  byId : m.byId save.instanceId = some h

structure Agree (m : InstanceSaveManager Guid) : Prop where
  nodup : ∀ h save, m.saves h = some save → ∀ side, (save.list side).Nodup
  listed : ∀ h save, m.saves h = some save → ∀ side x, x ∈ save.list side ↔ PointsTo m side x save.key h
  alive : ∀ side x key bind, m.binds side x key = some bind →
    ∃ save, Registered m bind.save save ∧ save.key = key
  known : ∀ instanceId h, m.byId instanceId = some h →
    ∃ save, m.saves h = some save ∧ save.instanceId = instanceId ∧ save.toDelete = false
  fresh : ∀ h save, m.saves h = some save → h < m.next

theorem Agree.of_empty : Agree (empty : InstanceSaveManager Guid) where
  nodup h save hSave := by cases hSave
  listed h save hSave := by cases hSave
  alive side x key bind hBind := by cases hBind
  known instanceId h hId := by cases hId
  fresh h save hSave := by cases hSave

section

variable {m : InstanceSaveManager Guid} {h : Handle} {save : InstanceSave Guid} {side : Side} {x : Guid}
  {key : MapDifficulty} {bind : InstanceBind}

theorem Agree.registered_of_id (hm : Agree m) {instanceId : Nat} (hId : m.byId instanceId = some h) :
    ∃ save, Registered m h save ∧ save.instanceId = instanceId := by
  obtain ⟨save, hSave, rfl, -⟩ := hm.known instanceId h hId
  exact ⟨save, ⟨hSave, hId⟩, rfl⟩

theorem Agree.not_marked (hm : Agree m) (hReg : Registered m h save) : save.toDelete = false := by
  obtain ⟨save', hSave', -, hMark⟩ := hm.known save.instanceId h hReg.byId
  rw [hReg.saves] at hSave'
  rw [Option.some.inj hSave']
  exact hMark

theorem Agree.registered_of_bind (hm : Agree m) (hBind : m.binds side x key = some bind)
    (hSave : m.saves bind.save = some save) : Registered m bind.save save ∧ save.key = key := by
  obtain ⟨save', hReg, hKey⟩ := hm.alive side x key bind hBind
  have hSame : save' = save := Option.some.inj (hReg.saves.symm.trans hSave)
  subst hSame
  exact ⟨hReg, hKey⟩

theorem Agree.lock (hm : Agree m) (lock : Bool) : Agree (m.setLock lock) :=
  ⟨hm.nodup, hm.listed, fun side x key bind hBind => by
    obtain ⟨save, hReg, hKey⟩ := hm.alive side x key bind hBind
    exact ⟨save, ⟨hReg.saves, hReg.byId⟩, hKey⟩, hm.known, hm.fresh⟩

/-! ## Changes that keep it -/

variable [DecidableEq Guid] in
theorem Agree.relabel (hm : Agree m) {new : InstanceBind} (hBind : m.binds side x key = some bind)
    (hSave : new.save = bind.save) : Agree (m.setBind side x key (some new)) := by
  have hPoints : ∀ side' x' key' h',
      PointsTo (m.setBind side x key (some new)) side' x' key' h' ↔ PointsTo m side' x' key' h' := by
    intro side' x' key' h'
    simp only [PointsTo, setBind_binds]
    by_cases hHere : side' = side ∧ x' = x ∧ key' = key
    · obtain ⟨rfl, rfl, rfl⟩ := hHere
      simp [hBind, hSave]
    · rw [if_neg hHere]
  refine ⟨hm.nodup, fun h save hs side' x' => ?_, fun side' x' key' bind' hb => ?_, hm.known, hm.fresh⟩
  · rw [hPoints]
    exact hm.listed h save hs side' x'
  · obtain ⟨old, hOld, hLeads⟩ := (hPoints side' x' key' bind'.save).mp ⟨bind', hb, rfl⟩
    obtain ⟨save, hReg, hKey⟩ := hm.alive side' x' key' old hOld
    rw [hLeads] at hReg
    exact ⟨save, ⟨hReg.saves, hReg.byId⟩, hKey⟩

theorem Agree.create (hm : Agree m) {mapId instanceId difficulty : Nat} (hNew : m.byId instanceId = none) :
    Agree (m.createSave mapId instanceId difficulty) := by
  have hFresh : ∀ h save, m.saves h = some save → h ≠ m.next := fun h save hs => (hm.fresh h save hs).ne
  refine ⟨?_, ?_, ?_, ?_, ?_⟩
  · intro h save hs side
    rcases eq_or_ne h m.next with rfl | hNe
    · simp only [createSave, setId, setSave_saves, if_true, Option.some.injEq] at hs
      rw [← hs]
      exact List.nodup_nil
    · simp only [createSave, setId, setSave_saves, if_neg hNe] at hs
      exact hm.nodup h save hs side
  · intro h save hs side x
    rcases eq_or_ne h m.next with rfl | hNe
    · simp only [createSave, setId, setSave_saves, if_true, Option.some.injEq] at hs
      rw [← hs]
      refine iff_of_false List.not_mem_nil ?_
      rintro ⟨bind, hBind, hLeads⟩
      obtain ⟨old, hReg, -⟩ := hm.alive side x _ bind hBind
      exact hFresh bind.save old hReg.saves hLeads
    · simp only [createSave, setId, setSave_saves, if_neg hNe] at hs
      exact hm.listed h save hs side x
  · intro side x key bind hBind
    obtain ⟨save, hReg, hKey⟩ := hm.alive side x key bind hBind
    refine ⟨save, ⟨?_, ?_⟩, hKey⟩
    · simp only [createSave, setId, setSave_saves, if_neg (hFresh bind.save save hReg.saves)]
      exact hReg.saves
    · have hOther : save.instanceId ≠ instanceId := by
        rintro rfl
        rw [hReg.byId] at hNew
        cases hNew
      simp only [createSave, setId_byId, if_neg hOther]
      exact hReg.byId
  · intro other h hId
    simp only [createSave, setId_byId] at hId
    split at hId
    · rename_i hOther
      obtain rfl := Option.some.inj hId
      refine ⟨⟨mapId, instanceId, difficulty, fun _ => [], false⟩, ?_, hOther.symm, rfl⟩
      simp only [createSave, setId, setSave_saves, if_true]
    · obtain ⟨save, hs, hSame, hMark⟩ := hm.known other h hId
      refine ⟨save, ?_, hSame, hMark⟩
      simp only [createSave, setId, setSave_saves, if_neg (hFresh h save hs)]
      exact hs
  · intro h save hs
    rcases eq_or_ne h m.next with rfl | hNe
    · exact Nat.lt_succ_self m.next
    · simp only [createSave, setId, setSave_saves, if_neg hNe] at hs
      exact Nat.lt_succ_of_lt (hm.fresh h save hs)

theorem Agree.not_pointsTo_of_empty (hm : Agree m) (hSave : m.saves h = some save)
    (hEmpty : save.isEmpty = true) (side : Side) (x : Guid) (key : MapDifficulty) : ¬ PointsTo m side x key h := by
  rintro ⟨bind, hBind, rfl⟩
  obtain ⟨-, hKey⟩ := hm.registered_of_bind hBind hSave
  have hMem : x ∈ save.list side :=
    (hm.listed bind.save save hSave side x).mpr ⟨bind, by rw [hKey, hBind], rfl⟩
  rw [InstanceSave.isEmpty_iff.mp hEmpty side] at hMem
  exact List.not_mem_nil hMem

theorem Agree.discard (hm : Agree m) (hReg : Registered m h save) (hEmpty : save.isEmpty = true)
    (rest : Option (InstanceSave Guid))
    (hRest : ∀ save' ∈ rest, save'.key = save.key ∧ save'.isEmpty = true) :
    Agree ((m.setSave h rest).setId save.instanceId none) := by
  have hNobody := hm.not_pointsTo_of_empty hReg.saves hEmpty
  refine ⟨?_, ?_, ?_, ?_, ?_⟩
  · intro g save' hs side
    simp only [setId, setSave_saves] at hs
    split at hs
    · rw [InstanceSave.isEmpty_iff.mp (hRest save' hs).2 side]
      exact List.nodup_nil
    · exact hm.nodup g save' hs side
  · intro g save' hs side x
    simp only [setId, setSave_saves] at hs
    split at hs
    · rename_i hSame
      subst hSame
      rw [InstanceSave.isEmpty_iff.mp (hRest save' hs).2 side]
      exact iff_of_false List.not_mem_nil (hNobody side x save'.key)
    · exact hm.listed g save' hs side x
  · intro side x key bind hBind
    obtain ⟨save', hReg', hKey⟩ := hm.alive side x key bind hBind
    have hNe : bind.save ≠ h := fun hLeads => hNobody side x key ⟨bind, hBind, hLeads⟩
    refine ⟨save', ⟨?_, ?_⟩, hKey⟩
    · simp only [setId, setSave_saves, if_neg hNe]
      exact hReg'.saves
    · have hOther : save'.instanceId ≠ save.instanceId := by
        intro hSame
        have hIds := hReg'.byId
        rw [hSame, hReg.byId] at hIds
        exact hNe (Option.some.inj hIds).symm
      simp only [setId_byId, if_neg hOther]
      exact hReg'.byId
  · intro other g hId
    simp only [setId_byId] at hId
    split at hId
    · cases hId
    · rename_i hOther
      obtain ⟨save', hs, hSame, hMark⟩ := hm.known other g hId
      refine ⟨save', ?_, hSame, hMark⟩
      have hNe : g ≠ h := by
        rintro rfl
        rw [hReg.saves] at hs
        exact hOther (hSame.symm.trans (congrArg InstanceSave.instanceId (Option.some.inj hs)).symm)
      simp only [setId, setSave_saves, if_neg hNe]
      exact hs
  · intro g save' hs
    simp only [setId, setSave_saves] at hs
    split at hs
    · rename_i hSame
      rw [hSame]
      exact hm.fresh h save hReg.saves
    · exact hm.fresh g save' hs

/-! ## Links -/

variable [DecidableEq Guid] in
theorem Agree.link (hm : Agree m) (hReg : Registered m h save) {save' : InstanceSave Guid}
    {new : Option InstanceBind} (hSame : save'.key = save.key ∧ save'.instanceId = save.instanceId)
    (hMark : save'.toDelete = false) (hNodup : ∀ side, (save'.list side).Nodup)
    (hOwn : x ∈ save'.list side ↔ ∃ bind, new = some bind ∧ bind.save = h)
    (hLeads : ∀ bind ∈ new, bind.save = h)
    (hOld : ∀ bind, m.binds side x save.key = some bind → bind.save = h)
    (hOthers : ∀ side' x', ¬ (side' = side ∧ x' = x) → (x' ∈ save'.list side' ↔ x' ∈ save.list side')) :
    Agree ((m.setSave h (some save')).setBind side x save.key new) := by
  refine ⟨?_, ?_, ?_, ?_, ?_⟩
  · intro g s hs side'
    simp only [setBind, setSave_saves] at hs
    split at hs
    · rw [← Option.some.inj hs]
      exact hNodup side'
    · exact hm.nodup g s hs side'
  · intro g s hs side' x'
    simp only [setBind, setSave_saves] at hs
    split at hs
    · rename_i hHere
      obtain rfl := Option.some.inj hs
      subst hHere
      rw [PointsTo, setBind_binds, hSame.1]
      by_cases hOne : side' = side ∧ x' = x
      · obtain ⟨rfl, rfl⟩ := hOne
        rw [if_pos ⟨rfl, rfl, rfl⟩]
        exact hOwn
      · rw [if_neg fun hAll => hOne ⟨hAll.1, hAll.2.1⟩, hOthers side' x' hOne]
        exact hm.listed g save hReg.saves side' x'
    · rename_i hNe
      rw [hm.listed g s hs side' x', PointsTo, PointsTo, setBind_binds]
      by_cases hAll : side' = side ∧ x' = x ∧ s.key = save.key
      · obtain ⟨rfl, rfl, hKey⟩ := hAll
        rw [if_pos ⟨rfl, rfl, hKey⟩, hKey]
        refine iff_of_false ?_ ?_
        · rintro ⟨bind, hBind, hThere⟩
          exact hNe (hThere.symm.trans (hOld bind hBind))
        · rintro ⟨bind, hBind, hThere⟩
          exact hNe (hThere.symm.trans (hLeads bind hBind))
      · rw [if_neg hAll]
        exact Iff.rfl
  · intro side' x' key' bind hBind
    rw [setBind_binds] at hBind
    split at hBind
    · rename_i hAll
      refine ⟨save', ⟨?_, ?_⟩, hSame.1.trans hAll.2.2.symm⟩
      · simp only [setBind, setSave_saves, if_pos (hLeads bind hBind)]
      · rw [hSame.2, hLeads bind hBind]
        exact hReg.byId
    · obtain ⟨s, hReg', hKey⟩ := hm.alive side' x' key' bind hBind
      rcases eq_or_ne bind.save h with hHere | hNe
      · rw [hHere] at hReg' ⊢
        have hIs : save = s := Option.some.inj (hReg.saves.symm.trans hReg'.saves)
        subst hIs
        refine ⟨save', ⟨?_, ?_⟩, hSame.1.trans hKey⟩
        · simp only [setBind, setSave_saves, if_true]
        · rw [hSame.2]
          exact hReg.byId
      · refine ⟨s, ⟨?_, hReg'.byId⟩, hKey⟩
        simp only [setBind, setSave_saves, if_neg hNe]
        exact hReg'.saves
  · intro instanceId g hId
    obtain ⟨s, hs, hThere, hUnmarked⟩ := hm.known instanceId g hId
    rcases eq_or_ne g h with rfl | hNe
    · have hIs : save = s := Option.some.inj (hReg.saves.symm.trans hs)
      subst hIs
      refine ⟨save', ?_, hSame.2.trans hThere, hMark⟩
      simp only [setBind, setSave_saves, if_true]
    · refine ⟨s, ?_, hThere, hUnmarked⟩
      simp only [setBind, setSave_saves, if_neg hNe]
      exact hs
  · intro g s hs
    simp only [setBind, setSave_saves] at hs
    split at hs
    · rename_i hHere
      rw [hHere]
      exact hm.fresh h save hReg.saves
    · exact hm.fresh g s hs

variable [DecidableEq Guid]

theorem Agree.detach (hm : Agree m) (hReg : Registered m h save)
    (hOld : ∀ bind, m.binds side x save.key = some bind → bind.save = h) :
    Agree ((m.setSave h (some (save.remove side x))).setBind side x save.key none) := by
  have hSame : (save.remove side x).key = save.key ∧
      (save.remove side x).instanceId = save.instanceId := ⟨rfl, rfl⟩
  have hMark := hm.not_marked hReg
  apply hm.link hReg hSame hMark _ _ (by simp) hOld
  · intro side' x' hOther
    rw [InstanceSave.remove_list]
    split
    · rename_i hSide
      subst hSide
      simp only [List.mem_filter, decide_eq_true_eq]
      exact and_iff_left fun hx => hOther ⟨rfl, hx⟩
    · exact Iff.rfl
  · intro side'
    rw [InstanceSave.remove_list]
    split
    · exact (hm.nodup h save hReg.saves side).filter _
    · exact hm.nodup h save hReg.saves side'
  · rw [InstanceSave.remove_list, if_pos rfl]
    simp

theorem Agree.attach (hm : Agree m) (hReg : Registered m h save) (hFree : m.binds side x save.key = none)
    (hNew : bind.save = h) :
    Agree ((m.setSave h (some (save.insert side x))).setBind side x save.key (some bind)) := by
  have hAbsent : x ∉ save.list side := by
    rw [hm.listed h save hReg.saves]
    rintro ⟨old, hOld, -⟩
    rw [hFree] at hOld
    cases hOld
  have hSame : (save.insert side x).key = save.key ∧
      (save.insert side x).instanceId = save.instanceId := ⟨rfl, rfl⟩
  have hMark := hm.not_marked hReg
  apply hm.link hReg hSame hMark _ _ (by simp [hNew]) (by simp [hFree])
  · intro side' x' hOther
    rw [InstanceSave.insert_list]
    split
    · rename_i hSide
      subst hSide
      rw [List.mem_append, List.mem_singleton]
      exact or_iff_left fun hx => hOther ⟨rfl, hx⟩
    · exact Iff.rfl
  · intro side'
    rw [InstanceSave.insert_list]
    split
    · refine List.nodup_append.mpr ⟨hm.nodup h save hReg.saves side, List.pairwise_singleton _ x, ?_⟩
      intro y hy z hz hSameEntry
      rw [hSameEntry, List.mem_singleton.mp hz] at hy
      exact hAbsent hy
    · exact hm.nodup h save hReg.saves side'
  · rw [InstanceSave.insert_list, if_pos rfl]
    simp [hNew]

/-! ## Saves that unload themselves -/

variable {havePlayers : Presence}

theorem removeFrom_cases (hReg : Registered m h save) (hMark : save.toDelete = false) (havePlayers : Presence)
    (side : Side) (x : Guid) :
    m.removeFrom havePlayers h side x = m.setSave h (some (save.remove side x)) ∨
      (save.remove side x).isEmpty = true ∧ m.lockInstLists = false ∧
        m.removeFrom havePlayers h side x = (m.setSave h none).setId save.instanceId none := by
  have hHere : (m.setSave h (some (save.remove side x))).saves h = some (save.remove side x) := by
    rw [setSave_saves, if_pos rfl]
  have hKept : (m.setSave h (some (save.remove side x))).deleteIfMarked h =
      m.setSave h (some (save.remove side x)) := by
    rw [deleteIfMarked, hHere, Option.any_some, InstanceSave.remove, if_neg (by simp [hMark])]
  rw [removeFrom, hReg.saves, Option.map_some, unloadIfEmpty, hHere]
  simp only
  split
  · exact Or.inl hKept
  · rename_i hEmpty
    split
    · exact Or.inl hKept
    · split
      · exact Or.inl hKept
      · rename_i hLock
        refine Or.inr ⟨Bool.not_eq_false _ ▸ hEmpty, Bool.not_eq_true _ ▸ hLock, ?_⟩
        have hId : (m.setSave h (some (save.remove side x))).byId (save.remove side x).instanceId = some h :=
          hReg.byId
        rw [removeInstanceSave, hId]
        simp only [Option.map_some, deleteIfMarked, setId, setSave, Function.update_self,
          Option.any_some, InstanceSave.setToDelete, if_true, Function.update_idem]
        rfl

theorem Agree.unbindInstance (hm : Agree m) (havePlayers : Presence) (side : Side) (x : Guid)
    (key : MapDifficulty) :
    Agree (m.unbindInstance havePlayers side x key) := by
  rw [InstanceSaveManager.unbindInstance]
  cases hBind : m.binds side x key with
  | none => exact hm
  | some bind =>
    obtain ⟨save, hReg, rfl⟩ := hm.alive side x key bind hBind
    have hOld : ∀ bind', m.binds side x save.key = some bind' → bind'.save = bind.save := by
      intro bind' hBind'
      rw [hBind] at hBind'
      rw [Option.some.inj hBind']
    have hDetached := hm.detach hReg hOld
    rcases removeFrom_cases hReg (hm.not_marked hReg) havePlayers side x with hKept | ⟨hEmpty, -, hGone⟩
    · simp only [hKept]
      exact hDetached
    · have hReg' : Registered ((m.setSave bind.save (some (save.remove side x))).setBind side x save.key none)
          bind.save (save.remove side x) := ⟨by simp only [setBind, setSave_saves, if_true], hReg.byId⟩
      have hDropped := hDetached.discard hReg' hEmpty none (by simp)
      simp only [hGone]
      convert hDropped using 1
      simp only [setSave, setBind, setId, Function.update_idem]
      rfl

/-! ## Frames -/

section Frames

variable (m : InstanceSaveManager Guid)

omit [DecidableEq Guid] in
theorem removeInstanceSave_frame (instanceId : Nat) : (m.removeInstanceSave instanceId).binds = m.binds ∧
    (m.removeInstanceSave instanceId).lockInstLists = m.lockInstLists := by
  unfold removeInstanceSave
  split
  · exact ⟨rfl, rfl⟩
  · exact ⟨rfl, rfl⟩

omit [DecidableEq Guid] in
theorem unloadIfEmpty_frame (havePlayers : Presence) (h : Handle) :
    (m.unloadIfEmpty havePlayers h).binds = m.binds ∧
      (m.unloadIfEmpty havePlayers h).lockInstLists = m.lockInstLists := by
  unfold unloadIfEmpty
  split
  · exact ⟨rfl, rfl⟩
  · split
    · exact ⟨rfl, rfl⟩
    · split
      · exact ⟨rfl, rfl⟩
      · split
        · exact ⟨rfl, rfl⟩
        · exact removeInstanceSave_frame m _

theorem removeFrom_frame (havePlayers : Presence) (h : Handle) (side : Side) (x : Guid) :
    (m.removeFrom havePlayers h side x).binds = m.binds ∧
      (m.removeFrom havePlayers h side x).lockInstLists = m.lockInstLists := by
  have hUnload := unloadIfEmpty_frame (m.setSave h ((m.saves h).map fun save => save.remove side x))
    havePlayers h
  rw [removeFrom, deleteIfMarked]
  split
  · exact hUnload
  · exact hUnload

theorem unbindInstance_lock (havePlayers : Presence) (side : Side) (x : Guid) (key : MapDifficulty) :
    (m.unbindInstance havePlayers side x key).lockInstLists = m.lockInstLists := by
  rw [InstanceSaveManager.unbindInstance]
  cases m.binds side x key with
  | none => rfl
  | some bind => exact (removeFrom_frame m havePlayers bind.save side x).2

end Frames

/-! ## Operations -/

theorem removeFrom_other (hm : Agree m) (havePlayers : Presence) (hReg : Registered m h save)
    (hBind : m.binds side x key = some bind) (hOther : bind.save ≠ h) :
    Registered (m.removeFrom havePlayers bind.save side x) h save := by
  obtain ⟨old, hOld, -⟩ := hm.alive side x key bind hBind
  have hId : save.instanceId ≠ old.instanceId := by
    intro hSame
    have hHere := hReg.byId
    rw [hSame, hOld.byId] at hHere
    exact hOther (Option.some.inj hHere)
  rcases removeFrom_cases hOld (hm.not_marked hOld) havePlayers side x with hKept | ⟨-, -, hGone⟩
  · rw [hKept]
    refine ⟨?_, hReg.byId⟩
    rw [setSave_saves, if_neg hOther.symm]
    exact hReg.saves
  · rw [hGone]
    constructor
    · simp only [setId, setSave_saves, if_neg hOther.symm]
      exact hReg.saves
    · rw [setId_byId, if_neg hId]
      exact hReg.byId

theorem Agree.bindTo (hm : Agree m) (hReg : Registered m h save) (side : Side) (x : Guid) (permanent : Bool)
    (extendState : BindExtensionState) :
    Agree (m.bindTo havePlayers side x h save.key permanent extendState) := by
  rw [InstanceSaveManager.bindTo]
  cases hBind : m.binds side x save.key with
  | none =>
    rw [relink, addTo, hReg.saves]
    exact hm.attach hReg hBind rfl
  | some old =>
    rw [relink]
    split
    · rename_i hSame
      exact hm.relabel hBind hSame.symm
    · rename_i hOther
      have hMoved := removeFrom_other hm havePlayers hReg hBind hOther
      have hUndone : Agree ((m.removeFrom havePlayers old.save side x).setBind side x save.key none) := by
        have hUnbind := hm.unbindInstance havePlayers side x save.key
        simp only [InstanceSaveManager.unbindInstance, hBind] at hUnbind
        exact hUnbind
      have hReg' :
          Registered ((m.removeFrom havePlayers old.save side x).setBind side x save.key none) h save :=
        ⟨hMoved.saves, hMoved.byId⟩
      rw [addTo, hMoved.saves, ← setBind_setBind _ side x save.key none]
      exact hUndone.attach hReg' (setBind_self _ side x save.key none) rfl

theorem Agree.bindToInstance (hm : Agree m) (side : Side) (x : Guid) (instanceId : Nat) (permanent : Bool)
    (extendState : BindExtensionState) :
    Agree (m.bindToInstance havePlayers side x instanceId permanent extendState) := by
  rw [InstanceSaveManager.bindToInstance]
  cases hId : m.byId instanceId with
  | none => exact hm
  | some h =>
    obtain ⟨save, hReg, -⟩ := hm.registered_of_id hId
    simp only [hReg.saves]
    exact hm.bindTo hReg side x permanent extendState

omit [DecidableEq Guid] in
theorem Agree.addInstanceSave (hm : Agree m) (data : MapData) (mapId instanceId difficulty : Nat) :
    Agree (m.addInstanceSave data mapId instanceId difficulty) := by
  rw [InstanceSaveManager.addInstanceSave]
  split
  · exact hm
  · rename_i hNew
    split
    · exact hm
    · split
      · exact hm
      · split
        · exact hm
        · exact hm.create (Option.not_isSome_iff_eq_none.mp hNew)

omit [DecidableEq Guid] in
theorem Agree.unloadInstanceSave (hm : Agree m) (instanceId : Nat) :
    Agree (m.unloadInstanceSave havePlayers instanceId) := by
  rw [InstanceSaveManager.unloadInstanceSave]
  cases hId : m.byId instanceId with
  | none => exact hm
  | some h =>
    obtain ⟨save, hReg, rfl⟩ := hm.registered_of_id hId
    simp only [unloadIfEmpty, hReg.saves]
    split
    · exact hm
    · rename_i hEmpty
      split
      · exact hm
      · split
        · exact hm
        · rw [removeInstanceSave, hId]
          simp only [hReg.saves, Option.map_some]
          apply hm.discard hReg (Bool.not_eq_false _ ▸ hEmpty)
          intro marked hMarked
          obtain rfl := Option.some.inj hMarked
          exact ⟨rfl, Bool.not_eq_false _ ▸ hEmpty⟩

end

end AshamaneCore.InstanceBinds
