import AshamaneCore.Game.InstanceLinks
import Mathlib.Data.List.Nodup

/-!
# Resets of instance saves

A reset keeps a save exactly when one of its players has a permanent bind to it that is not
expired. It unbinds all the others, and the save with them when nobody is left.
-/

namespace AshamaneCore.InstanceBinds

open Library Library.Transition InstanceSaveManager

variable {Guid : Type} [DecidableEq Guid] {data : MapData} {havePlayers : Presence}
  {m t : InstanceSaveManager Guid} {h : Handle} {save : InstanceSave Guid} {x : Guid}

/-! ## The review of the players -/

/-- The bind that is found for the player leads to the save and lasts. -/
def HoldsOn (data : MapData) (m : InstanceSaveManager Guid) (h : Handle) (key : MapDifficulty) (x : Guid) :
    Prop :=
  ∃ place bind, m.getBoundInstance data x key = some (place, bind) ∧ bind.save = h ∧ bind.lasts = true

omit [DecidableEq Guid] in
theorem getBoundInstance_eq_some {key place : MapDifficulty} {bind : InstanceBind}
    (hFound : m.getBoundInstance data x key = some (place, bind)) :
    m.binds .player x place = some bind ∧
      ∃ difficulty, data.downscaled key = some difficulty ∧ place = (key.1, difficulty) := by
  rw [getBoundInstance] at hFound
  split at hFound
  · cases hFound
  · rename_i difficulty hScaled
    split at hFound
    · cases hFound
    · rename_i bind' hBind
      split at hFound
      · obtain ⟨rfl, rfl⟩ := Prod.mk.inj (Option.some.inj hFound)
        exact ⟨hBind, difficulty, hScaled, rfl⟩
      · cases hFound

omit [DecidableEq Guid] in
theorem getBoundInstance_congr (hBinds : t.binds .player x = m.binds .player x) (key : MapDifficulty) :
    t.getBoundInstance data x key = m.getBoundInstance data x key := by
  rw [getBoundInstance, getBoundInstance, hBinds]

structure Reviewed (data : MapData) (m : InstanceSaveManager Guid) (h : Handle) (key : MapDifficulty)
    (done : List Guid) (r : Review Guid) : Prop where
  agree : Agree r.manager
  saves : r.manager.saves = m.saves
  byId : r.manager.byId = m.byId
  lock : r.manager.lockInstLists = true
  later : ∀ x, x ∉ done → r.manager.binds .player x = m.binds .player x
  temp : r.temp.Sublist done
  all : r.shouldDelete = true → r.temp = done
  kept : r.shouldDelete = false ↔ ∃ x ∈ done, HoldsOn data m h key x

omit [DecidableEq Guid] in
theorem Reviewed.start (hm : Agree m) (key : MapDifficulty) :
    Reviewed data m h key [] ⟨m.setLock true, [], true⟩ where
  agree := hm.lock true
  saves := rfl
  byId := rfl
  lock := rfl
  later _ _ := rfl
  temp := List.Sublist.refl []
  all _ := rfl
  kept := by simp

theorem Reviewed.next {key : MapDifficulty} {done : List Guid} {r r' : Review Guid}
    (hr : Reviewed data m h key done r) (hx : x ∉ done) (hNext : r.next data h key x = some r') :
    Reviewed data m h key (done ++ [x]) r' := by
  have hSame : r.manager.getBoundInstance data x key = m.getBoundInstance data x key :=
    getBoundInstance_congr (hr.later x hx) key
  have hNot : (¬ HoldsOn data m h key x) → r' = ⟨r.manager, r.temp ++ [x], r.shouldDelete⟩ →
      Reviewed data m h key (done ++ [x]) r' := by
    rintro hNobody rfl
    refine ⟨hr.agree, hr.saves, hr.byId, hr.lock, fun y hy => ?_, ?_, fun hAll => ?_, ?_⟩
    · exact hr.later y fun hDone => hy (List.mem_append_left [x] hDone)
    · exact hr.temp.append (List.Sublist.refl [x])
    · rw [hr.all hAll]
    · rw [hr.kept]
      constructor
      · rintro ⟨y, hy, hHolds⟩
        exact ⟨y, List.mem_append_left [x] hy, hHolds⟩
      · rintro ⟨y, hy, hHolds⟩
        rcases List.mem_append.mp hy with hy | hy
        · exact ⟨y, hy, hHolds⟩
        · rw [List.mem_singleton.mp hy] at hHolds
          exact absurd hHolds hNobody
  rw [Review.next, hSame] at hNext
  cases hFound : m.getBoundInstance data x key with
  | none =>
    rw [hFound] at hNext
    apply hNot _ (Option.some.inj hNext).symm
    rintro ⟨place, bind, hSome, -⟩
    rw [hFound] at hSome
    cases hSome
  | some found =>
    obtain ⟨place, bind⟩ := found
    rw [hFound] at hNext
    simp only at hNext
    split at hNext
    · cases hNext
    · rename_i hLeads
      have hLeads : bind.save = h := not_not.mp hLeads
      split at hNext
      · rename_i hLasts
        obtain rfl := Option.some.inj hNext
        have hBind := (getBoundInstance_eq_some (hSame.trans hFound)).1
        refine ⟨hr.agree.relabel hBind rfl, hr.saves, hr.byId, hr.lock, fun y hy => ?_, ?_, ?_, ?_⟩
        · have hOther : y ≠ x := by
            rintro rfl
            exact hy (List.mem_append_right done List.mem_cons_self)
          rw [← hr.later y fun hDone => hy (List.mem_append_left [x] hDone)]
          funext key'
          rw [setBind_binds, if_neg fun hAll => hOther hAll.2.1]
        · exact hr.temp.trans (List.sublist_append_left done [x])
        · intro hAll
          cases hAll
        · refine iff_of_true rfl ⟨x, List.mem_append_right done List.mem_cons_self, ?_⟩
          exact ⟨place, bind, hFound, hLeads, hLasts⟩
      · rename_i hLasts
        apply hNot _ (Option.some.inj hNext).symm
        rintro ⟨place', bind', hSome, -, hLasts'⟩
        rw [hFound] at hSome
        obtain ⟨-, rfl⟩ := Prod.mk.inj (Option.some.inj hSome)
        exact hLasts hLasts'

theorem Reviewed.loop {key : MapDifficulty} {done rest : List Guid} {r r' : Review Guid}
    (hr : Reviewed data m h key done r) (hNodup : (done ++ rest).Nodup)
    (hLoop : rest.foldlM (Review.next data h key) r = some r') : Reviewed data m h key (done ++ rest) r' := by
  induction rest generalizing done r with
  | nil =>
    rw [List.append_nil, ← Option.some.inj hLoop]
    exact hr
  | cons x rest ih =>
    have hx : x ∉ done := fun hDone => (List.nodup_append.mp hNodup).2.2 x hDone x List.mem_cons_self rfl
    rw [List.foldlM_cons] at hLoop
    obtain ⟨next, hNext, hRest⟩ := Option.bind_eq_some_iff.mp hLoop
    rw [List.append_cons] at hNodup ⊢
    exact ih (hr.next hx hNext) hNodup hRest

theorem Reviewed.loop_isSome (hReg : Registered m h save)
    (hOwn : data.downscaled save.key = some save.difficulty) {done rest : List Guid} {r : Review Guid}
    (hr : Reviewed data m h save.key done r)
    (hNodup : (done ++ rest).Nodup) (hListed : ∀ x ∈ rest, x ∈ save.list .player) :
    ∃ r', rest.foldlM (Review.next data h save.key) r = some r' := by
  induction rest generalizing done r with
  | nil => exact ⟨r, rfl⟩
  | cons x rest ih =>
    have hx : x ∉ done := fun hDone => (List.nodup_append.mp hNodup).2.2 x hDone x List.mem_cons_self rfl
    have hSome : ∃ next, r.next data h save.key x = some next := by
      rw [Review.next]
      cases hFound : r.manager.getBoundInstance data x save.key with
      | none => exact ⟨_, rfl⟩
      | some found =>
        obtain ⟨place, bind⟩ := found
        obtain ⟨hBind, difficulty, hScaled, rfl⟩ := getBoundInstance_eq_some hFound
        rw [hOwn] at hScaled
        obtain rfl := Option.some.inj hScaled
        have hThere : r.manager.saves h = some save := by
          rw [hr.saves]
          exact hReg.saves
        obtain ⟨bind', hBind', hLeads⟩ :=
          (hr.agree.listed h save hThere .player x).mp (hListed x List.mem_cons_self)
        have hIs : bind' = bind := Option.some.inj (hBind'.symm.trans hBind)
        subst hIs
        simp only [hLeads, ne_eq, not_true_eq_false, if_false]
        split
        · exact ⟨_, rfl⟩
        · exact ⟨_, rfl⟩
    obtain ⟨next, hNext⟩ := hSome
    rw [List.append_cons] at hNodup
    obtain ⟨r', hRest⟩ := ih (hr.next hx hNext) hNodup fun y hy => hListed y (List.mem_cons_of_mem x hy)
    refine ⟨r', ?_⟩
    rw [List.foldlM_cons, hNext]
    exact hRest

/-! ## Unbinding under the lock -/

theorem unbindInstance_locked (havePlayers : Presence) (hm : Agree m) (hLock : m.lockInstLists = true)
    (hReg : Registered m h save) {side : Side} (hx : x ∈ save.list side) :
    m.unbindInstance havePlayers side x save.key =
      (m.setSave h (some (save.remove side x))).setBind side x save.key none := by
  obtain ⟨bind, hBind, rfl⟩ := (hm.listed h save hReg.saves side x).mp hx
  rw [unbindInstance, hBind]
  rcases removeFrom_cases hReg (hm.not_marked hReg) havePlayers side x with hKept | ⟨-, hUnlocked, -⟩
  · simp only [hKept]
  · rw [hLock] at hUnlocked
    cases hUnlocked

/-- What is left of a save, and of the state around it, while its entries are unbound. -/
structure Leaving (ids : Nat → Option Handle) (h : Handle) (save : InstanceSave Guid)
    (m : InstanceSaveManager Guid) : Prop where
  agree : Agree m
  lock : m.lockInstLists = true
  byId : m.byId = ids
  registered : Registered m h save

variable {ids : Nat → Option Handle}

theorem Leaving.unbind (hm : Leaving ids h save m) (havePlayers : Presence)
    {side : Side} (hx : x ∈ save.list side) :
    Leaving ids h (save.remove side x) (m.unbindInstance havePlayers side x save.key) := by
  have hStep := unbindInstance_locked havePlayers hm.agree hm.lock hm.registered hx
  refine ⟨hm.agree.unbindInstance havePlayers side x save.key, ?_, ?_, ?_, ?_⟩
  · rw [unbindInstance_lock]
    exact hm.lock
  · rw [hStep]
    exact hm.byId
  · rw [hStep]
    simp only [setBind, setSave_saves, if_true]
  · rw [hStep]
    exact hm.registered.byId

theorem Leaving.unbindPlayers {temp : List Guid} (hm : Leaving ids h save m)
    (havePlayers : Presence) (hNodup : temp.Nodup) (hTemp : ∀ x ∈ temp, x ∈ save.list .player) :
    ∃ left, Leaving ids h left (temp.foldl (fun m x => m.unbindInstance havePlayers .player x save.key) m) ∧
      left.key = save.key ∧ left.instanceId = save.instanceId ∧ left.list .group = save.list .group ∧
      ∀ x, x ∈ left.list .player ↔ x ∈ save.list .player ∧ x ∉ temp := by
  induction temp generalizing m save with
  | nil => exact ⟨save, hm, rfl, rfl, rfl, by simp⟩
  | cons x temp ih =>
    obtain ⟨hFresh, hRest⟩ := List.nodup_cons.mp hNodup
    have hStep := hm.unbind havePlayers (hTemp x List.mem_cons_self)
    have hStay : ∀ y ∈ temp, y ∈ (save.remove .player x).list .player := by
      intro y hy
      rw [InstanceSave.remove_list, if_pos rfl, List.mem_filter]
      refine ⟨hTemp y (List.mem_cons_of_mem x hy), decide_eq_true ?_⟩
      rintro rfl
      exact hFresh hy
    obtain ⟨left, hLeft, hKey, hId, hGroups, hPlayers⟩ := ih hStep hRest hStay
    refine ⟨left, hLeft, hKey, hId, hGroups.trans ?_, fun y => ?_⟩
    · rw [InstanceSave.remove_list, if_neg (by simp)]
    · rw [hPlayers, InstanceSave.remove_list, if_pos rfl, List.mem_filter, decide_eq_true_iff,
        List.mem_cons, not_or, and_assoc]

theorem Leaving.unbindGroups {fuel : Nat} (hm : Leaving ids h save m)
    (havePlayers : Presence) (hFuel : (save.list .group).length ≤ fuel) :
    ∃ left, Leaving ids h left (m.unbindGroups havePlayers h save.key fuel) ∧
      left.key = save.key ∧ left.instanceId = save.instanceId ∧ left.list .group = [] ∧
      left.list .player = save.list .player := by
  induction fuel generalizing m save with
  | zero => exact ⟨save, hm, rfl, rfl, List.eq_nil_of_length_eq_zero (Nat.le_zero.mp hFuel), rfl⟩
  | succ fuel ih =>
    rw [InstanceSaveManager.unbindGroups, hm.registered.saves, Option.bind_some]
    cases hGroups : save.list .group with
    | nil => exact ⟨save, hm, rfl, rfl, hGroups, rfl⟩
    | cons x groups =>
      have hx : x ∈ save.list .group := by
        rw [hGroups]
        exact List.mem_cons_self
      have hShorter : ((save.remove .group x).list .group).length ≤ fuel := by
        rw [InstanceSave.remove_list, if_pos rfl, hGroups, List.filter_cons_of_neg (by simp)]
        rw [hGroups, List.length_cons] at hFuel
        have hLe := List.length_filter_le (fun y => decide (y ≠ x)) groups
        omega
      obtain ⟨left, hLeft, hKey, hId, hNone, hPlayers⟩ := ih (hm.unbind havePlayers hx) hShorter
      refine ⟨left, hLeft, hKey, hId, hNone, hPlayers.trans ?_⟩
      rw [InstanceSave.remove_list, if_neg (by simp)]

theorem Leaving.unbindAll {r : Review Guid} (hm : Leaving ids h save r.manager)
    (havePlayers : Presence) (hNodup : r.temp.Nodup) (hTemp : ∀ x ∈ r.temp, x ∈ save.list .player) :
    ∃ left, Leaving ids h left (unbindAll havePlayers h save r) ∧ left.instanceId = save.instanceId ∧
      left.list .group = [] ∧ ∀ x, x ∈ left.list .player ↔ x ∈ save.list .player ∧ x ∉ r.temp := by
  obtain ⟨first, hFirst, hKey, hId, hGroups, hPlayers⟩ := hm.unbindPlayers havePlayers hNodup hTemp
  obtain ⟨left, hLeft, -, hId', hNone, hSame⟩ := hFirst.unbindGroups havePlayers (le_refl _)
  rw [hGroups, hKey] at hLeft
  refine ⟨left, hLeft, hId'.trans hId, hNone, fun x => ?_⟩
  rw [hSame]
  exact hPlayers x

/-! ## The reset of a save -/

theorem resetSave_spec (hm : Agree m) (hReg : Registered m h save)
    (hReset : m.resetSave data havePlayers save.instanceId = some t) :
    Agree t ∧ ((∃ x ∈ save.list .player, HoldsOn data m h save.key x) → t.byId save.instanceId = some h) ∧
      ((¬ ∃ x ∈ save.list .player, HoldsOn data m h save.key x) → t.byId save.instanceId = none) := by
  have hPlayersNodup := hm.nodup h save hReg.saves .player
  rw [resetSave, hReg.byId] at hReset
  simp only [hReg.saves] at hReset
  obtain ⟨r, hLoop, rfl⟩ := Option.map_eq_some_iff.mp hReset
  have hr := (Reviewed.start hm save.key).loop hPlayersNodup hLoop
  rw [List.nil_append] at hr
  have hStart : Leaving m.byId h save r.manager := by
    refine ⟨hr.agree, hr.lock, hr.byId, ?_, ?_⟩
    · rw [hr.saves]
      exact hReg.saves
    · rw [hr.byId]
      exact hReg.byId
  obtain ⟨left, hLeft, hId, hGroups, hPlayers⟩ :=
    hStart.unbindAll havePlayers (hr.temp.nodup hPlayersNodup) fun x hx => hr.temp.subset hx
  rw [← hr.kept]
  cases hDelete : r.shouldDelete with
  | false =>
    rw [finishReset, if_neg Bool.false_ne_true]
    refine ⟨hLeft.agree.lock false, fun _ => ?_, fun hNot => absurd rfl hNot⟩
    rw [← hId]
    exact hLeft.registered.byId
  | true =>
    have hEmpty : left.isEmpty = true := by
      rw [InstanceSave.isEmpty_iff]
      intro side
      cases side with
      | player =>
        rw [List.eq_nil_iff_forall_not_mem]
        intro x hx
        obtain ⟨hMem, hNot⟩ := (hPlayers x).mp hx
        rw [hr.all hDelete] at hNot
        exact hNot hMem
      | group => exact hGroups
    rw [finishReset, if_pos rfl, ← hId]
    have hGone := hLeft.agree.discard hLeft.registered hEmpty none (by simp)
    refine ⟨hGone.lock false, fun hKept => ?_, fun _ => ?_⟩
    · cases hKept
    · simp only [setLock, setId_byId, if_true]

theorem resetSave_isSome (havePlayers : Presence) (hm : Agree m) (hReg : Registered m h save)
    (hHolds : HoldsOn data m h save.key x) :
    (m.resetSave data havePlayers save.instanceId).isSome = true := by
  obtain ⟨place, bind, hFound, rfl, -⟩ := hHolds
  obtain ⟨hBind, difficulty, hScaled, rfl⟩ := getBoundInstance_eq_some hFound
  obtain ⟨-, hKey⟩ := hm.registered_of_bind hBind hReg.saves
  have hOwn : data.downscaled save.key = some save.difficulty := by
    rw [hScaled]
    exact congrArg (some ∘ Prod.snd) hKey.symm
  obtain ⟨r, hLoop⟩ := (Reviewed.start hm save.key).loop_isSome hReg hOwn (hm.nodup _ save hReg.saves .player)
    fun _ hx => hx
  rw [resetSave, hReg.byId]
  simp only [hReg.saves, hLoop, Option.map_some, Option.isSome_some]

theorem Agree.resetSave (hm : Agree m) {instanceId : Nat}
    (hReset : m.resetSave data havePlayers instanceId = some t) : Agree t := by
  cases hId : m.byId instanceId with
  | none =>
    rw [InstanceSaveManager.resetSave, hId] at hReset
    rw [← Option.some.inj hReset]
    exact hm
  | some h =>
    obtain ⟨save, hReg, rfl⟩ := hm.registered_of_id hId
    exact (resetSave_spec hm hReg hReset).1

theorem Agree.resetOrWarnAll (hm : Agree m) {key : MapDifficulty} {warn : Bool} {nextReset : Nat}
    {ids : List Nat} (hReset : m.resetOrWarnAll data havePlayers key warn nextReset ids = some t) : Agree t := by
  rw [InstanceSaveManager.resetOrWarnAll] at hReset
  split at hReset
  · exact Option.some.inj hReset ▸ hm
  · split at hReset
    · exact Option.some.inj hReset ▸ hm
    · split at hReset
      · exact Option.some.inj hReset ▸ hm
      · refine foldlM_invariant (fun s instanceId next hs hNext => ?_) hReset hm
        rw [resetIfOf] at hNext
        split at hNext
        · exact hs.resetSave hNext
        · exact Option.some.inj hNext ▸ hs

end AshamaneCore.InstanceBinds

/-!
## Runs of instance binds and resets

Lists and binds agree in every run. An instance id is given back while its save is loaded
exactly when the reset of the instance keeps the save for one of its players.
-/

namespace AshamaneCore.InstanceBinds

open Library Library.Transition InstanceSaveManager

variable {Guid : Type} [DecidableEq Guid] {data : MapData} {m : InstanceSaveManager Guid}

/-- Everybody is listed once in the save that his bind leads to, and in no other, and every
bind leads to a save that is there under its id. -/
structure BindsAgree (m : InstanceSaveManager Guid) : Prop where
  listed : ∀ h save, m.saves h = some save → ∀ side x,
    ((save.list side).count x = 1 ↔ PointsTo m side x save.key h) ∧ (save.list side).count x ≤ 1
  alive : ∀ side x key bind, m.binds side x key = some bind →
    ∃ save, Registered m bind.save save ∧ save.key = key

def Released (data : MapData) (m : InstanceSaveManager Guid) (r : Request Guid) : Prop :=
  ∀ instanceId, m.freedId data r = some instanceId → (m.step data r).byId instanceId = none

def Proper (data : MapData) (m : InstanceSaveManager Guid) (r : Request Guid) : Prop :=
  match r.command with
  | .resetInstance mapId instanceId =>
    data.instanceable mapId = true → ∀ h save, m.byId instanceId = some h → m.saves h = some save →
      ¬ ∃ x ∈ save.list .player, HoldsOn data m h save.key x
  | _ => True

theorem Agree.bindsAgree (hm : Agree m) : BindsAgree m where
  listed h save hSave side x := by
    have hNodup := hm.nodup h save hSave side
    refine ⟨?_, List.nodup_iff_count_le_one.mp hNodup x⟩
    rw [← hm.listed h save hSave side x]
    constructor
    · intro hOnce
      exact List.count_pos_iff.mp (by omega)
    · exact fun hMem => List.count_eq_one_of_mem hNodup hMem
  alive := hm.alive

variable {r : Request Guid}

theorem step_of_some {result : InstanceSaveManager Guid × Option Nat}
    (h : m.perform data r = some result) : m.step data r = result.1 := by
  rw [step, h]
  rfl

theorem Agree.perform (hm : Agree m) {result : InstanceSaveManager Guid × Option Nat}
    (h : m.perform data r = some result) : Agree result.1 := by
  obtain ⟨havePlayers, command⟩ := r
  cases command with
  | add mapId instanceId difficulty =>
    rw [← Option.some.inj h]
    exact hm.addInstanceSave data mapId instanceId difficulty
  | bindPlayer player instanceId permanent extendState =>
    rw [← Option.some.inj h]
    exact hm.bindToInstance .player player instanceId permanent extendState
  | bindGroup group instanceId permanent =>
    rw [← Option.some.inj h]
    exact hm.bindToInstance .group group instanceId permanent .normal
  | unbindPlayer player key =>
    rw [← Option.some.inj h]
    exact hm.unbindInstance havePlayers .player player key
  | unbindGroup group key =>
    rw [← Option.some.inj h]
    exact hm.unbindInstance havePlayers .group group key
  | unload instanceId =>
    rw [← Option.some.inj h]
    exact hm.unloadInstanceSave instanceId
  | resetOrWarnAll key warn nextReset ids =>
    obtain ⟨t, hReset, rfl⟩ := Option.map_eq_some_iff.mp h
    exact hm.resetOrWarnAll hReset
  | resetInstance mapId instanceId =>
    simp only [InstanceSaveManager.perform, InstanceSaveManager.resetInstance] at h
    split at h
    · rw [← Option.some.inj h]
      exact hm
    · obtain ⟨t, hReset, rfl⟩ := Option.map_eq_some_iff.mp h
      exact hm.resetSave hReset

theorem Agree.step (hm : Agree m) (r : Request Guid) : Agree (m.step data r) := by
  cases hPerform : m.perform data r with
  | none =>
    rw [InstanceSaveManager.step, hPerform]
    exact hm
  | some result =>
    rw [step_of_some hPerform]
    exact hm.perform hPerform

theorem freedId_eq_some {instanceId : Nat} (h : m.freedId data r = some instanceId) :
    ∃ mapId t, r.command = .resetInstance mapId instanceId ∧ data.instanceable mapId = true ∧
      m.resetSave data r.havePlayers instanceId = some t ∧ m.step data r = t := by
  obtain ⟨result, hPerform, hFreed⟩ := Option.bind_eq_some_iff.mp h
  have hStep := step_of_some hPerform
  obtain ⟨havePlayers, command⟩ := r
  cases command with
  | resetInstance mapId other =>
    simp only [perform, resetInstance] at hPerform
    split at hPerform
    · rw [← Option.some.inj hPerform] at hFreed
      cases hFreed
    · rename_i hMap
      obtain ⟨t, hReset, rfl⟩ := Option.map_eq_some_iff.mp hPerform
      obtain rfl := Option.some.inj hFreed
      exact ⟨mapId, t, rfl, Bool.not_eq_false _ ▸ hMap, hReset, hStep⟩
  | resetOrWarnAll key warn nextReset ids =>
    obtain ⟨t, -, rfl⟩ := Option.map_eq_some_iff.mp hPerform
    cases hFreed
  | _ =>
    rw [← Option.some.inj hPerform] at hFreed
    cases hFreed

theorem released_iff_proper (hm : Agree m) (r : Request Guid) : Released data m r ↔ Proper data m r := by
  constructor
  · intro hReleased
    obtain ⟨havePlayers, command⟩ := r
    cases command with
    | resetInstance mapId instanceId =>
      rintro hMap h save hId hSave ⟨x, hx, hHolds⟩
      obtain ⟨save', hReg, rfl⟩ := hm.registered_of_id hId
      obtain rfl := Option.some.inj (hSave.symm.trans hReg.saves)
      obtain ⟨t, hReset⟩ := Option.isSome_iff_exists.mp
        (resetSave_isSome havePlayers hm hReg hHolds)
      have hPerform : m.perform data ⟨havePlayers, .resetInstance mapId save.instanceId⟩ =
          some (t, some save.instanceId) := by
        simp only [perform, resetInstance, hMap, Bool.true_eq_false, if_false, hReset, Option.map_some]
      have hNone := hReleased save.instanceId (by rw [freedId, hPerform]; rfl)
      rw [step_of_some hPerform] at hNone
      have hKept := (resetSave_spec hm hReg hReset).2.1 ⟨x, hx, hHolds⟩
      rw [hNone] at hKept
      cases hKept
    | _ => trivial
  · intro hProper instanceId hFreed
    obtain ⟨mapId, t, hCommand, hMap, hReset, hStep⟩ := freedId_eq_some hFreed
    rw [hStep]
    cases hId : m.byId instanceId with
    | none =>
      rw [resetSave, hId] at hReset
      rw [← Option.some.inj hReset]
      exact hId
    | some h =>
      obtain ⟨save, hReg, rfl⟩ := hm.registered_of_id hId
      simp only [Proper, hCommand] at hProper
      exact (resetSave_spec hm hReg hReset).2.2 (hProper hMap h save hId hReg.saves)

/-- In every run binds and saves agree, and ids are given back only without their saves, if
and only if no single reset meets a save that a player holds on to. -/
theorem binds_and_saves_agree_iff (data : MapData) (requests : List (Request Guid)) :
    ((∀ first, first <+: requests → BindsAgree (run (step data) empty first)) ∧
        Along (step data) (Released data) empty requests) ↔
      Along (step data) (Proper data) empty requests := by
  have hCongr : Along (step data) (Released data) empty requests ↔
      Along (step data) (Proper data) empty requests :=
    along_congr (I := Agree) (fun _ r hm => released_iff_proper hm r) (fun _ r hm _ => hm.step r)
      Agree.of_empty requests
  rw [hCongr]
  refine and_iff_right fun first _ => ?_
  have hFinal : Agree (run (step data) (empty : InstanceSaveManager Guid) first) :=
    invariant (P := Agree) (fun _ r hm => hm.step r) Agree.of_empty first
  exact hFinal.bindsAgree

def raidData : MapData := ⟨fun _ => some mapRaid, fun _ => some mapRaid, fun key => some key.2⟩

/-- The save that a permanent bind keeps is still loaded when its id is given back. -/
theorem held_save_loses_id :
    ¬ ((∀ first, first <+: [⟨fun _ _ => false, .add 631 7 4⟩,
          ⟨fun _ _ => false, .bindPlayer 1 7 true .normal⟩, ⟨fun _ _ => false, .resetInstance 631 7⟩] →
        BindsAgree (run (step raidData) (empty : InstanceSaveManager Nat) first)) ∧
      Along (step raidData) (Released raidData) (empty : InstanceSaveManager Nat)
        [⟨fun _ _ => false, .add 631 7 4⟩, ⟨fun _ _ => false, .bindPlayer 1 7 true .normal⟩,
          ⟨fun _ _ => false, .resetInstance 631 7⟩]) := by
  rintro ⟨-, -, -, hReleased, -⟩
  have hNone := hReleased 7 (by decide)
  revert hNone
  decide

end AshamaneCore.InstanceBinds
