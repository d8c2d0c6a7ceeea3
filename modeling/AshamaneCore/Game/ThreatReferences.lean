import AshamaneCore.Game.ThreatManager
import AshamaneCore.Library.Transition

/-!
# One reference for every hated unit

Everything the manager does is a sequence of small changes, and every change keeps the
two containers apart: a unit has one reference, a reference is in the online container
exactly if it is online, and so is the current victim.
-/

namespace AshamaneCore.ThreatManager

open Library.Transition

/-! ## References and their fields -/

section Fields

variable (s : ThreatManager) (r : Nat) (f : HostileReference → HostileReference)

theorem refs_alterRef (x : Nat) :
    (s.alterRef r f).refs x = if x = r then f (s.refs x) else s.refs x := by
  unfold alterRef
  split
  · rename_i h
    rw [h]
    exact Function.update_self ..
  · rename_i h
    exact Function.update_of_ne h ..

variable {f}

theorem alterRef_field {β : Type*} (field : HostileReference → β)
    (h : ∀ ref, field (f ref) = field ref) (x : Nat) :
    field ((s.alterRef r f).refs x) = field (s.refs x) := by
  rw [refs_alterRef]
  split
  · exact h _
  · rfl

theorem refs_addReference (victim : ObjectGuid) {x : Nat} (h : x < s.next) :
    (s.addReference victim).refs x = s.refs x := Function.update_of_ne h.ne ..

theorem refs_addReference_next (victim : ObjectGuid) :
    (s.addReference victim).refs s.next = ⟨victim, 0, 0, true, true, true⟩ := Function.update_self ..

end Fields

/-! ## The invariant -/

structure Consistent (s : ThreatManager) : Prop where
  known : ∀ r ∈ s.listed, r < s.next
  distinct : (s.listed.map s.unitOf).Nodup
  online : ∀ r ∈ s.iThreatContainer, s.isOnline r = true
  offline : ∀ r ∈ s.iThreatOfflineContainer, s.isOnline r = false
  victim : ∀ r, s.iCurrentVictim = some r → r ∈ s.iThreatContainer

theorem consistent_empty : Consistent empty :=
  ⟨fun _ h => absurd h List.not_mem_nil, List.nodup_nil, fun _ h => absurd h List.not_mem_nil,
    fun _ h => absurd h List.not_mem_nil, fun _ h => absurd h (Option.some_ne_none _).symm⟩

variable {s : ThreatManager}

theorem Consistent.nodup (h : Consistent s) : s.listed.Nodup := List.Nodup.of_map _ h.distinct

theorem Consistent.nodup_online (h : Consistent s) : s.iThreatContainer.Nodup :=
  (List.nodup_append.mp h.nodup).1

variable {r : Nat}

theorem Consistent.mem_online_iff (h : Consistent s) (hr : r ∈ s.listed) :
    r ∈ s.iThreatContainer ↔ s.isOnline r = true := by
  constructor
  · exact h.online r
  · intro hOnline
    obtain hIn | hOut := List.mem_append.mp hr
    · exact hIn
    · rw [h.offline r hOut] at hOnline
      cases hOnline

variable {f : HostileReference → HostileReference}

theorem Consistent.alterRef (h : Consistent s) (r : Nat)
    (hUnit : ∀ ref, (f ref).iUnitGuid = ref.iUnitGuid) (hOnline : ∀ ref, (f ref).iOnline = ref.iOnline) :
    Consistent (s.alterRef r f) := by
  have hUnits : (s.alterRef r f).unitOf = s.unitOf :=
    funext fun x => alterRef_field s r HostileReference.iUnitGuid hUnit x
  have hFlags : ∀ x, (s.alterRef r f).isOnline x = s.isOnline x :=
    fun x => alterRef_field s r HostileReference.iOnline hOnline x
  refine ⟨h.known, ?_, fun x hx => ?_, fun x hx => ?_, h.victim⟩
  · rw [hUnits]
    exact h.distinct
  · rw [hFlags]
    exact h.online x hx
  · rw [hFlags]
    exact h.offline x hx

theorem Consistent.setDirty (h : Consistent s) (isDirty : Bool) : Consistent (s.setDirty isDirty) :=
  ⟨h.known, h.distinct, h.online, h.offline, h.victim⟩

theorem Consistent.setCurrentVictim (h : Consistent s) {victim : Option Nat}
    (hVictim : ∀ r, victim = some r → r ∈ s.iThreatContainer) : Consistent (s.setCurrentVictim victim) :=
  ⟨h.known, h.distinct, h.online, h.offline, hVictim⟩

/-! ## Moving a reference -/

theorem perm_cons_filter {l : List Nat} (hNodup : l.Nodup) (hr : r ∈ l) :
    l.Perm (r :: l.filter (· ≠ r)) := by
  have hErase : l.erase r = l.filter (· ≠ r) := by
    rw [hNodup.erase_eq_filter]
    exact List.filter_congr fun x _ => (decide_not (p := x = r)).symm
  exact hErase ▸ List.perm_cons_erase hr

theorem Consistent.dropVictim (h : Consistent s) (r : Nat) : Consistent (s.dropVictim r) := by
  unfold ThreatManager.dropVictim
  split
  · exact (h.setCurrentVictim fun _ hNone => absurd hNone (Option.some_ne_none _).symm).setDirty true
  · exact h

/-- What going online or offline does to everything that is asked for later. -/
structure Moved (r : Nat) (online : Bool) (s t : ThreatManager) : Prop where
  next : t.next = s.next
  unitOf : t.unitOf = s.unitOf
  getThreat : t.getThreat = s.getThreat
  flag : ∀ x, t.isOnline x = if x = r then online else s.isOnline x
  container : t.iThreatContainer =
    if online then s.iThreatContainer ++ [r] else s.iThreatContainer.filter (· ≠ r)
  offlineContainer : t.iThreatOfflineContainer =
    if online then s.iThreatOfflineContainer.filter (· ≠ r) else s.iThreatOfflineContainer ++ [r]
  victim : t.iCurrentVictim =
    if online = false ∧ s.iCurrentVictim = some r then none else s.iCurrentVictim
  dirty : t.iDirty = (s.iDirty || if online then s.outranks r else s.iCurrentVictim = some r)

theorem alterRef_getThreat (s : ThreatManager) (r : Nat)
    (hThreat : ∀ ref, (f ref).iThreat = ref.iThreat)
    (hTemp : ∀ ref, (f ref).iTempThreatModifier = ref.iTempThreatModifier) :
    (s.alterRef r f).getThreat = s.getThreat := by
  funext x
  unfold getThreat
  rw [alterRef_field s r HostileReference.iThreat hThreat,
    alterRef_field s r HostileReference.iTempThreatModifier hTemp]

theorem alterRef_unitOf (s : ThreatManager) (r : Nat)
    (hUnit : ∀ ref, (f ref).iUnitGuid = ref.iUnitGuid) : (s.alterRef r f).unitOf = s.unitOf :=
  funext fun x => alterRef_field s r HostileReference.iUnitGuid hUnit x

theorem alterRef_of_fixed (s : ThreatManager) (r : Nat)
    (h : f (s.refs r) = s.refs r) : s.alterRef r f = s := by
  unfold alterRef
  rw [h, Function.update_eq_self]

theorem setAccessibleState_eq (s : ThreatManager) (r : Nat) (isAccessible : Bool) :
    s.setAccessibleState r isAccessible =
      s.alterRef r fun ref => { ref with iAccessible := isAccessible } := by
  unfold setAccessibleState
  split
  · rfl
  · rename_i hSame
    refine (alterRef_of_fixed s r ?_).symm
    rw [← not_not.mp hSame]

variable {t : ThreatManager}

theorem outranks_congr (hVictim : t.iCurrentVictim = s.iCurrentVictim)
    (hThreat : t.getThreat = s.getThreat) (r : Nat) : t.outranks r = s.outranks r := by
  unfold outranks
  rw [hVictim, hThreat]

theorem goOffline_moved (hFlag : t.isOnline r = false)
    (hFlags : ∀ x, x ≠ r → t.isOnline x = s.isOnline x) (hUnit : t.unitOf = s.unitOf)
    (hThreat : t.getThreat = s.getThreat) (hNext : t.next = s.next)
    (hContainer : t.iThreatContainer = s.iThreatContainer)
    (hOffline : t.iThreatOfflineContainer = s.iThreatOfflineContainer)
    (hVictim : t.iCurrentVictim = s.iCurrentVictim) (hDirty : t.iDirty = s.iDirty) :
    Moved r false s (t.processThreatEvent r .onlineStatus) := by
  have hEvent : t.processThreatEvent r .onlineStatus =
      { t.dropVictim r with
        iThreatContainer := (t.dropVictim r).iThreatContainer.filter (· ≠ r)
        iThreatOfflineContainer := (t.dropVictim r).iThreatOfflineContainer ++ [r] } :=
    if_pos (by rw [hFlag]; rfl)
  obtain ⟨hOn, hOff, hSame⟩ : (t.dropVictim r).iThreatContainer = t.iThreatContainer ∧
      (t.dropVictim r).iThreatOfflineContainer = t.iThreatOfflineContainer ∧
      (t.dropVictim r).next = t.next := by
    unfold dropVictim
    split <;> exact ⟨rfl, rfl, rfl⟩
  have hRefs : (t.dropVictim r).refs = t.refs := by
    unfold dropVictim
    split <;> rfl
  rw [hEvent]
  refine ⟨hSame.trans hNext, ?_, ?_, fun x => ?_, ?_, ?_, ?_, ?_⟩
  · rw [← hUnit]
    unfold unitOf
    exact funext fun x => congrArg (fun refs => (refs x).iUnitGuid) hRefs
  · rw [← hThreat]
    unfold getThreat
    exact funext fun x => congrArg (fun refs => (refs x).iThreat + (refs x).iTempThreatModifier) hRefs
  · have hRef : (t.dropVictim r).isOnline x = t.isOnline x :=
      congrArg (fun refs => (refs x).iOnline) hRefs
    refine hRef.trans ?_
    split
    · rename_i hx
      rw [hx, hFlag]
    · rename_i hx
      exact hFlags x hx
  · dsimp only
    rw [hOn, hContainer]
    rfl
  · dsimp only
    rw [hOff, hOffline]
    rfl
  · dsimp only
    unfold dropVictim
    rw [hVictim]
    split <;> simp_all [setDirty, setCurrentVictim]
  · dsimp only
    unfold dropVictim
    rw [hVictim]
    split <;> simp_all [setDirty, setCurrentVictim]

theorem goOnline_moved (hFlag : t.isOnline r = true)
    (hFlags : ∀ x, x ≠ r → t.isOnline x = s.isOnline x) (hUnit : t.unitOf = s.unitOf)
    (hThreat : t.getThreat = s.getThreat) (hNext : t.next = s.next)
    (hContainer : t.iThreatContainer = s.iThreatContainer)
    (hOffline : t.iThreatOfflineContainer = s.iThreatOfflineContainer)
    (hVictim : t.iCurrentVictim = s.iCurrentVictim) (hDirty : t.iDirty = s.iDirty) :
    Moved r true s (t.processThreatEvent r .onlineStatus) := by
  have hOutranks := outranks_congr hVictim hThreat r
  have hEvent : t.processThreatEvent r .onlineStatus =
      { t with
        iThreatContainer := t.iThreatContainer ++ [r]
        iThreatOfflineContainer := t.iThreatOfflineContainer.filter (· ≠ r)
        iDirty := t.iDirty || t.outranks r } := by
    unfold processThreatEvent
    dsimp only
    rw [hFlag]
    cases hAbove : t.outranks r <;> simp [setDirty]
  rw [hEvent]
  refine ⟨hNext, hUnit, hThreat, fun x => ?_, ?_, ?_, ?_, ?_⟩
  · show t.isOnline x = _
    split
    · rename_i hx
      rw [hx, hFlag]
    · rename_i hx
      exact hFlags x hx
  · exact congrArg (· ++ [r]) hContainer
  · exact congrArg (List.filter (· ≠ r)) hOffline
  · exact hVictim.trans (if_neg fun hFalse => absurd hFalse.1 (by decide)).symm
  · show (t.iDirty || t.outranks r) = (s.iDirty || s.outranks r)
    rw [hDirty, hOutranks]

theorem setOnlineOfflineState_moved {online : Bool} (h : s.isOnline r ≠ online) :
    Moved r online s (s.setOnlineOfflineState r online) := by
  have hAltered : ∀ x, (s.alterRef r fun ref => { ref with iOnline := online }).isOnline x =
      if x = r then online else s.isOnline x := by
    intro x
    unfold isOnline
    rw [refs_alterRef]
    split <;> rfl
  have hUnit := alterRef_unitOf s r (f := fun ref => { ref with iOnline := online }) fun _ => rfl
  have hThreat := alterRef_getThreat s r (f := fun ref => { ref with iOnline := online })
    (fun _ => rfl) fun _ => rfl
  unfold setOnlineOfflineState
  rw [if_pos h]
  cases online with
  | true =>
    exact goOnline_moved ((hAltered r).trans (if_pos rfl)) (fun x hx => (hAltered x).trans (if_neg hx))
      hUnit hThreat rfl rfl rfl rfl rfl
  | false =>
    dsimp only
    rw [if_pos (by rfl), setAccessibleState_eq]
    generalize hAlter : (s.alterRef r fun ref => { ref with iOnline := false }) = t
      at hAltered hUnit hThreat
    have hKept : ∀ x, (t.alterRef r fun ref => { ref with iAccessible := false }).isOnline x =
        t.isOnline x := fun x => alterRef_field t r
          (f := fun ref => { ref with iAccessible := false }) HostileReference.iOnline (fun _ => rfl) x
    have hUnits := alterRef_unitOf t r (f := fun ref => { ref with iAccessible := false }) fun _ => rfl
    have hThreats := alterRef_getThreat t r (f := fun ref => { ref with iAccessible := false })
      (fun _ => rfl) fun _ => rfl
    refine goOffline_moved ?_ (fun x hx => ?_) ?_ ?_ ?_ ?_ ?_ ?_ ?_
    · exact (hKept r).trans ((hAltered r).trans (if_pos rfl))
    · exact (hKept x).trans ((hAltered x).trans (if_neg hx))
    · exact hUnits.trans hUnit
    · exact hThreats.trans hThreat
    all_goals exact hAlter ▸ rfl

theorem Consistent.listed_perm (h : Consistent s) (hr : r ∈ s.listed) {online : Bool}
    (hMove : s.isOnline r ≠ online) (hMoved : Moved r online s t) :
    t.listed.Perm s.listed := by
  obtain ⟨hOnline, hOffline, -⟩ := List.nodup_append.mp h.nodup
  have hIff := h.mem_online_iff hr
  unfold listed
  rw [hMoved.container, hMoved.offlineContainer]
  cases online with
  | true =>
    have hOut : r ∈ s.iThreatOfflineContainer := by
      obtain hIn | hOut := List.mem_append.mp hr
      · exact absurd (hIff.mp hIn) hMove
      · exact hOut
    rw [if_pos rfl, if_pos rfl, List.append_assoc, List.singleton_append]
    exact (perm_cons_filter hOffline hOut).symm.append_left _
  | false =>
    have hIn : r ∈ s.iThreatContainer := hIff.mpr (by simpa using hMove)
    rw [if_neg (by decide), if_neg (by decide)]
    refine (List.perm_append_comm.append_left _).trans ?_
    rw [← List.append_assoc]
    refine List.Perm.append_right _ ?_
    exact (List.perm_append_comm.trans (perm_cons_filter hOnline hIn).symm)

theorem Consistent.setOnlineOfflineState (h : Consistent s) (hr : r ∈ s.listed) (online : Bool) :
    Consistent (s.setOnlineOfflineState r online) := by
  obtain hSame | hMove := eq_or_ne (s.isOnline r) online
  · have hStay : s.setOnlineOfflineState r online = s := if_neg (not_not.mpr hSame)
    rw [hStay]
    exact h
  · have hMoved := setOnlineOfflineState_moved hMove
    generalize s.setOnlineOfflineState r online = t at hMoved
    have hPerm := h.listed_perm hr hMove hMoved
    constructor
    · intro x hx
      rw [hMoved.next]
      exact h.known x (hPerm.mem_iff.mp hx)
    · rw [hMoved.unitOf]
      exact (hPerm.map _).nodup_iff.mpr h.distinct
    · intro x hx
      rw [hMoved.flag]
      rw [hMoved.container] at hx
      cases online with
      | true =>
        rw [if_pos rfl] at hx
        split
        · rfl
        · rename_i hOther
          obtain hIn | hNew := List.mem_append.mp hx
          · exact h.online x hIn
          · exact absurd (List.mem_singleton.mp hNew) hOther
      | false =>
        obtain ⟨hIn, hOther⟩ := List.mem_filter.mp hx
        rw [if_neg (of_decide_eq_true hOther)]
        exact h.online x hIn
    · intro x hx
      rw [hMoved.flag]
      rw [hMoved.offlineContainer] at hx
      cases online with
      | true =>
        obtain ⟨hOut, hOther⟩ := List.mem_filter.mp hx
        rw [if_neg (of_decide_eq_true hOther)]
        exact h.offline x hOut
      | false =>
        rw [if_neg (by decide)] at hx
        split
        · rfl
        · rename_i hOther
          obtain hOut | hNew := List.mem_append.mp hx
          · exact h.offline x hOut
          · exact absurd (List.mem_singleton.mp hNew) hOther
    · intro x hx
      rw [hMoved.victim] at hx
      rw [hMoved.container]
      cases online with
      | true => exact List.mem_append_left _ (h.victim x (by simpa using hx))
      | false =>
        split at hx
        · cases hx
        · rename_i hNot
          refine List.mem_filter.mpr ⟨h.victim x hx, decide_eq_true fun hEq => ?_⟩
          exact hNot ⟨rfl, hEq ▸ hx⟩

/-! ## The small changes -/

inductive Change
  | addReference (victim : ObjectGuid)
  | addThreat (r : Nat) (modThreat : ℚ)
  | signal (r : Nat) (modThreat : ℚ)
  | addTempThreat (r : Nat) (threat : ℚ)
  | link (r : Nat) (valid : Bool)
  | setAccessibleState (r : Nat) (isAccessible : Bool)
  | setOnlineOfflineState (r : Nat) (isOnline : Bool)
  | dropReference (r : Nat)
  | setCurrentVictim (victim : Option Nat)
  | update
  | clearReferences

/-- Nothing happens to references that are not there, and the victim is one of the online ones. -/
def change (s : ThreatManager) : Change → ThreatManager
  | .addReference victim =>
    if s.listed.any fun r => s.unitOf r = victim then s else s.addReference victim
  | .addThreat r modThreat =>
    let s := s.alterRef r fun ref => { ref with iThreat := ref.iThreat + modThreat }
    if s.isOnline r then s.processThreatEvent r (.threatChange modThreat) else s
  | .signal r modThreat => s.processThreatEvent r (.threatChange modThreat)
  | .addTempThreat r threat => s.addTempThreat r threat
  | .link r valid => s.alterRef r fun ref => { ref with valid := valid }
  | .setAccessibleState r isAccessible => s.setAccessibleState r isAccessible
  | .setOnlineOfflineState r isOnline =>
    if r ∈ s.listed then s.setOnlineOfflineState r isOnline else s
  | .dropReference r => s.processThreatEvent r .removeFromList
  | .setCurrentVictim victim =>
    if victim.all (· ∈ s.iThreatContainer) then s.setCurrentVictim victim else s
  | .update => s.update
  | .clearReferences => s.clearReferences

theorem Consistent.threatChange (h : Consistent s) (r : Nat) (value : ℚ) :
    Consistent (s.processThreatEvent r (.threatChange value)) := by
  unfold processThreatEvent
  dsimp only
  split
  · exact h.setDirty true
  · exact h

theorem Consistent.addReference (h : Consistent s) {victim : ObjectGuid}
    (hNew : ∀ r ∈ s.listed, s.unitOf r ≠ victim) : Consistent (s.addReference victim) := by
  have hOld : ∀ r ∈ s.listed, (s.addReference victim).refs r = s.refs r :=
    fun r hr => refs_addReference s victim (h.known r hr)
  have hListed : (s.addReference victim).listed.Perm (s.next :: s.listed) := by
    refine List.Perm.trans ?_ List.perm_middle
    unfold listed ThreatManager.addReference
    rw [List.append_assoc, List.singleton_append]
  constructor
  · intro r hr
    obtain rfl | hIn := List.mem_cons.mp (hListed.mem_iff.mp hr)
    · exact Nat.lt_succ_self _
    · exact (h.known r hIn).trans (Nat.lt_succ_self _)
  · refine (hListed.map _).nodup_iff.mpr ?_
    have hUnits : s.listed.map (s.addReference victim).unitOf = s.listed.map s.unitOf :=
      List.map_congr_left fun r hr => congrArg HostileReference.iUnitGuid (hOld r hr)
    rw [List.map_cons, List.nodup_cons, hUnits]
    refine ⟨fun hIn => ?_, h.distinct⟩
    obtain ⟨r, hr, hUnit⟩ := List.mem_map.mp hIn
    refine hNew r hr (hUnit.trans ?_)
    exact congrArg HostileReference.iUnitGuid (refs_addReference_next s victim)
  · intro r hr
    obtain hIn | hLast := List.mem_append.mp hr
    · exact (congrArg HostileReference.iOnline (hOld r (List.mem_append_left _ hIn))).trans (h.online r hIn)
    · rw [List.mem_singleton.mp hLast]
      exact congrArg HostileReference.iOnline (refs_addReference_next s victim)
  · intro r hr
    exact (congrArg HostileReference.iOnline (hOld r (List.mem_append_right _ hr))).trans (h.offline r hr)
  · exact fun r hr => List.mem_append_left _ (h.victim r hr)

theorem Consistent.dropReference (h : Consistent s) (r : Nat) :
    Consistent (s.processThreatEvent r .removeFromList) := by
  have hDrop := h.dropVictim r
  have hVictim : ∀ x, (s.dropVictim r).iCurrentVictim = some x → x ≠ r := by
    rintro x hx rfl
    unfold ThreatManager.dropVictim at hx
    split at hx
    · cases hx
    · rename_i hNot
      exact hNot hx
  unfold processThreatEvent
  dsimp only
  generalize s.dropVictim r = t at hDrop hVictim
  split
  · have hSub : (List.filter (· ≠ r) t.iThreatContainer ++ t.iThreatOfflineContainer).Sublist t.listed :=
      List.filter_sublist.append_right _
    refine ⟨fun x hx => hDrop.known x (hSub.subset hx), hDrop.distinct.sublist (hSub.map _),
      fun x hx => hDrop.online x (List.mem_of_mem_filter hx), hDrop.offline, fun x hx => ?_⟩
    exact List.mem_filter.mpr ⟨hDrop.victim x hx, decide_eq_true (hVictim x hx)⟩
  · have hSub : (t.iThreatContainer ++ List.filter (· ≠ r) t.iThreatOfflineContainer).Sublist t.listed :=
      List.filter_sublist.append_left _
    exact ⟨fun x hx => hDrop.known x (hSub.subset hx), hDrop.distinct.sublist (hSub.map _), hDrop.online,
      fun x hx => hDrop.offline x (List.mem_of_mem_filter hx), hDrop.victim⟩

theorem update_perm (s : ThreatManager) : s.update.iThreatContainer.Perm s.iThreatContainer := by
  unfold ThreatManager.update
  dsimp only
  split
  · exact List.perm_insertionSort _ _
  · exact List.Perm.refl _

theorem Consistent.update (h : Consistent s) : Consistent s.update := by
  have hPerm := s.update_perm
  have hListed : s.update.listed.Perm s.listed := hPerm.append_right _
  exact ⟨fun r hr => h.known r (hListed.mem_iff.mp hr), (hListed.map _).nodup_iff.mpr h.distinct,
    fun r hr => h.online r (hPerm.mem_iff.mp hr), h.offline,
    fun r hr => hPerm.mem_iff.mpr (h.victim r hr)⟩

theorem change_consistent (h : Consistent s) (c : Change) : Consistent (s.change c) := by
  cases c with
  | addReference victim =>
    rw [change]
    split
    · exact h
    · rename_i hNone
      refine h.addReference fun r hr hUnit => hNone ?_
      exact List.any_eq_true.mpr ⟨r, hr, decide_eq_true hUnit⟩
  | addThreat r modThreat =>
    have hAltered := h.alterRef r (f := fun ref => { ref with iThreat := ref.iThreat + modThreat })
      (fun _ => rfl) fun _ => rfl
    rw [change]
    split
    · exact hAltered.threatChange r modThreat
    · exact hAltered
  | signal r modThreat => exact h.threatChange r modThreat
  | addTempThreat r threat =>
    rw [change, ThreatManager.addTempThreat]
    split
    · exact h
    · refine Consistent.threatChange ?_ r threat
      exact h.alterRef r (fun _ => rfl) fun _ => rfl
  | link r valid =>
    rw [change]
    exact h.alterRef r (fun _ => rfl) fun _ => rfl
  | setAccessibleState r isAccessible =>
    rw [change]
    rw [setAccessibleState_eq]
    exact h.alterRef r (fun _ => rfl) fun _ => rfl
  | setOnlineOfflineState r isOnline =>
    rw [change]
    split
    · rename_i hr
      exact h.setOnlineOfflineState hr isOnline
    · exact h
  | dropReference r => exact h.dropReference r
  | setCurrentVictim victim =>
    rw [change]
    split
    · rename_i hAll
      refine h.setCurrentVictim ?_
      rintro r rfl
      simpa using hAll
    · exact h
  | update => exact h.update
  | clearReferences =>
    exact ⟨fun _ hr => absurd hr List.not_mem_nil, List.nodup_nil, fun _ hr => absurd hr List.not_mem_nil,
      fun _ hr => absurd hr List.not_mem_nil, fun _ hr => absurd hr (Option.some_ne_none _).symm⟩

/-! ## What the manager does is made of small changes -/

def Composed (s t : ThreatManager) : Prop := ∃ changes, run change s changes = t

theorem Composed.refl (s : ThreatManager) : Composed s s := ⟨[], rfl⟩

theorem Composed.trans {s u : ThreatManager} (h : Composed s t) (h' : Composed t u) : Composed s u := by
  obtain ⟨first, rfl⟩ := h
  obtain ⟨second, rfl⟩ := h'
  exact ⟨first ++ second, List.foldl_append⟩

theorem Composed.one (c : Change) (h : s.change c = t) : Composed s t := ⟨[c], h⟩

theorem Composed.consistent (h : Composed s t) (hs : Consistent s) : Consistent t := by
  obtain ⟨changes, rfl⟩ := h
  exact invariant (P := Consistent) (fun _ c hConsistent => change_consistent hConsistent c) hs changes

section Listed

variable {r : Nat}

theorem setOnlineOfflineState_composed (hr : r ∈ s.listed) (isOnline : Bool) :
    Composed s (s.setOnlineOfflineState r isOnline) :=
  .one (.setOnlineOfflineState r isOnline) (if_pos hr)

theorem mem_listed_setOnlineOfflineState {x : Nat} (hx : x ∈ s.listed) (isOnline : Bool) :
    x ∈ (s.setOnlineOfflineState r isOnline).listed := by
  obtain hSame | hMove := eq_or_ne (s.isOnline r) isOnline
  · have hStay : s.setOnlineOfflineState r isOnline = s := if_neg (not_not.mpr hSame)
    rw [hStay]
    exact hx
  · have hMoved := setOnlineOfflineState_moved hMove
    unfold listed at hx ⊢
    rw [hMoved.container, hMoved.offlineContainer]
    obtain rfl | hOther := eq_or_ne x r
    · cases isOnline <;> simp
    · cases isOnline <;> simpa [hOther] using hx

variable (w : Surroundings)

theorem updateOnlineStatus_composed (hr : r ∈ s.listed) :
    Composed s (s.updateOnlineStatus w r) ∧ r ∈ (s.updateOnlineStatus w r).listed := by
  have hLink : ∀ c : Bool, Composed s (if c then s.alterRef r fun ref => { ref with valid := true } else s) ∧
      r ∈ (if c then s.alterRef r fun ref => { ref with valid := true } else s).listed := by
    intro c
    cases c with
    | true => exact ⟨.one (.link r true) rfl, hr⟩
    | false => exact ⟨.refl s, hr⟩
  unfold updateOnlineStatus
  dsimp only
  obtain ⟨hFirst, hListed⟩ := hLink (!(s.refs r).valid && w.found (s.unitOf r))
  generalize (if (!(s.refs r).valid && w.found (s.unitOf r)) then
    s.alterRef r fun ref => { ref with valid := true } else s) = t at hFirst hListed
  have hListed' : r ∈ (t.setAccessibleState r
      ((t.refs r).valid && w.reachable (t.unitOf r) && w.accessible (t.unitOf r))).listed := by
    rw [setAccessibleState_eq]
    exact hListed
  refine ⟨?_, mem_listed_setOnlineOfflineState hListed' _⟩
  have hSecond : Composed t (t.setAccessibleState r
      ((t.refs r).valid && w.reachable (t.unitOf r) && w.accessible (t.unitOf r))) :=
    .one (.setAccessibleState r _) rfl
  exact hFirst.trans (hSecond.trans (setOnlineOfflineState_composed hListed' _))

/-- The owner of a pet is hated without anyone leaving the online container. -/
structure Harmless (petOwner : ThreatManager → ObjectGuid → ThreatManager) : Prop where
  composed : ∀ s, Consistent s → ∀ owner, Composed s (petOwner s owner)
  online : ∀ s, Consistent s → ∀ owner, ∀ x ∈ s.iThreatContainer,
    x ∈ (petOwner s owner).iThreatContainer

variable {petOwner : ThreatManager → ObjectGuid → ThreatManager}

theorem processThreatChange_container (s : ThreatManager) (r : Nat) (value : ℚ) :
    (s.processThreatEvent r (.threatChange value)).iThreatContainer = s.iThreatContainer := by
  unfold processThreatEvent
  dsimp only
  split <;> rfl

theorem addThreatRef_composed (hPet : Harmless petOwner) (h : Consistent s) (hr : r ∈ s.listed)
    (modThreat : ℚ) : Composed s (addThreatRef w petOwner s r modThreat) ∧
      (r ∈ s.iThreatContainer → r ∈ (addThreatRef w petOwner s r modThreat).iThreatContainer) := by
  unfold addThreatRef
  split
  · exact ⟨.refl s, id⟩
  · dsimp only
    have hAltered : (s.alterRef r fun ref => { ref with iThreat := ref.iThreat + modThreat }).isOnline r =
        s.isOnline r := alterRef_field s r (f := fun ref => { ref with iThreat := ref.iThreat + modThreat })
          HostileReference.iOnline (fun _ => rfl) r
    have hRaised : ∃ t, (if (!(s.alterRef r fun ref =>
        { ref with iThreat := ref.iThreat + modThreat }).isOnline r) then
          (s.alterRef r fun ref => { ref with iThreat := ref.iThreat + modThreat }).updateOnlineStatus w r
        else s.alterRef r fun ref => { ref with iThreat := ref.iThreat + modThreat }) = t ∧
        Composed s (t.processThreatEvent r (.threatChange modThreat)) ∧
        (r ∈ s.iThreatContainer → r ∈ t.iThreatContainer) := by
      refine ⟨_, rfl, ?_⟩
      cases hOnline : s.isOnline r with
      | true =>
        rw [hAltered, hOnline]
        exact ⟨.one (.addThreat r modThreat) (if_pos (hAltered.trans hOnline)), id⟩
      | false =>
        rw [hAltered, hOnline]
        have hFirst : Composed s
            (s.alterRef r fun ref => { ref with iThreat := ref.iThreat + modThreat }) :=
          .one (.addThreat r modThreat) (if_neg (by rw [hAltered, hOnline]; exact Bool.false_ne_true))
        have hNext := updateOnlineStatus_composed w (s := s.alterRef r fun ref =>
          { ref with iThreat := ref.iThreat + modThreat }) (r := r) hr
        refine ⟨hFirst.trans (hNext.1.trans (.one (.signal r modThreat) rfl)), fun hIn => ?_⟩
        rw [h.online r hIn] at hOnline
        cases hOnline
    obtain ⟨t, hEq, hComposed, hKept⟩ := hRaised
    rw [hEq]
    have hContainer := processThreatChange_container t r modThreat
    generalize t.processThreatEvent r (.threatChange modThreat) = u at hComposed hContainer
    split
    · cases w.charmerOrOwner (u.unitOf r) with
      | none => exact ⟨hComposed, fun hIn => hContainer ▸ hKept hIn⟩
      | some owner =>
        have hConsistent := hComposed.consistent h
        refine ⟨hComposed.trans (hPet.composed u hConsistent owner), fun hIn => ?_⟩
        exact hPet.online u hConsistent owner r (hContainer ▸ hKept hIn)
    · exact ⟨hComposed, fun hIn => hContainer ▸ hKept hIn⟩

theorem getReferenceByTarget_cases (s : ThreatManager) (victim : ObjectGuid) :
    (∃ r ∈ s.listed, (s.getReferenceByTarget s.iThreatContainer victim).or
      (s.getReferenceByTarget s.iThreatOfflineContainer victim) = some r) ∨
    (∀ r ∈ s.listed, s.unitOf r ≠ victim) ∧ (s.getReferenceByTarget s.iThreatContainer victim).or
      (s.getReferenceByTarget s.iThreatOfflineContainer victim) = none := by
  have hFind : (s.getReferenceByTarget s.iThreatContainer victim).or
      (s.getReferenceByTarget s.iThreatOfflineContainer victim) =
        s.listed.find? fun r => s.unitOf r = victim := List.find?_append.symm
  rw [hFind]
  cases hFound : s.listed.find? fun r => s.unitOf r = victim with
  | some r => exact Or.inl ⟨r, List.mem_of_find?_eq_some hFound, rfl⟩
  | none =>
    refine Or.inr ⟨fun r hr hUnit => ?_, rfl⟩
    exact List.find?_eq_none.mp hFound r hr (decide_eq_true hUnit)

theorem addReference_composed {victim : ObjectGuid} (hNew : ∀ r ∈ s.listed, s.unitOf r ≠ victim) :
    Composed s (s.addReference victim) := by
  refine .one (.addReference victim) (if_neg fun hAny => ?_)
  obtain ⟨r, hr, hUnit⟩ := List.any_eq_true.mp hAny
  exact hNew r hr (of_decide_eq_true hUnit)

theorem setCurrentVictim_composed {victim : Option Nat}
    (hVictim : ∀ r, victim = some r → r ∈ s.iThreatContainer) :
    Composed s (s.setCurrentVictim victim) := by
  refine .one (.setCurrentVictim victim) (if_pos ?_)
  cases victim with
  | none => rfl
  | some r => exact decide_eq_true (hVictim r rfl)

theorem addThreatVictim_composed (hPet : Harmless petOwner) (h : Consistent s) (victim : ObjectGuid)
    (threat : ℚ) : Composed s (addThreatVictim w petOwner s victim threat) := by
  unfold addThreatVictim
  obtain ⟨r, hr, hFound⟩ | ⟨hNew, hNone⟩ := s.getReferenceByTarget_cases victim
  · rw [hFound]
    exact (addThreatRef_composed w hPet h hr threat).1
  · rw [hNone]
    dsimp only
    have hAdded := addReference_composed hNew
    have hIn : s.next ∈ (s.addReference victim).iThreatContainer :=
      List.mem_append_right _ (List.mem_singleton_self _)
    obtain ⟨hRaised, hKept⟩ := addThreatRef_composed w hPet (hAdded.consistent h)
      (List.mem_append_left _ hIn) threat
    split
    · exact hAdded.trans (hRaised.trans
        (setOnlineOfflineState_composed (List.mem_append_left _ (hKept hIn)) false))
    · split
      · refine hAdded.trans (hRaised.trans (setCurrentVictim_composed ?_))
        rintro r hr
        exact Option.some.inj hr ▸ hKept hIn
      · exact hAdded.trans hRaised

theorem doAddThreatWith_composed (hPet : Harmless petOwner) (h : Consistent s) (victim : ObjectGuid)
    (threat : ℚ) : Composed s (doAddThreatWith w petOwner s victim threat) := by
  unfold doAddThreatWith
  dsimp only
  split
  · rename_i target _
    have hFirst := addThreatVictim_composed w hPet h target
      (calculatePct threat (w.redirectThreatPercent victim))
    exact hFirst.trans (addThreatVictim_composed w hPet (hFirst.consistent h) victim _)
  · exact addThreatVictim_composed w hPet h victim threat

theorem addThreatWith_composed (hPet : Harmless petOwner) (h : Consistent s) (victim : ObjectGuid)
    (threat : ℚ) : Composed s (addThreatWith w petOwner s victim threat) := by
  unfold addThreatWith
  split
  · exact doAddThreatWith_composed w hPet h victim _
  · exact .refl s

/-! ## Owners of pets -/

theorem addThreatRef_zero (petOwner : ThreatManager → ObjectGuid → ThreatManager) (s : ThreatManager)
    (r : Nat) : addThreatRef w petOwner s r 0 = s := if_pos rfl

theorem doAddThreatWith_zero (petOwner : ThreatManager → ObjectGuid → ThreatManager) (s : ThreatManager)
    (victim : ObjectGuid) : doAddThreatWith w petOwner s victim 0 =
      addThreatVictim w (fun s _ => s) s victim 0 := by
  have hNoRedirect : (if (decide ((0 : ℚ) < 0) && decide (w.redirectThreatPercent victim ≠ 0)) = true then
      w.redirectThreatTarget victim else none) = none := by
    rw [if_neg]
    simp
  unfold doAddThreatWith
  dsimp only
  rw [hNoRedirect]
  unfold addThreatVictim
  simp only [addThreatRef_zero]

theorem calcThreat_zero (owner : ObjectGuid) : w.calcThreat owner 0 = 0 := by
  unfold Surroundings.calcThreat
  rw [if_neg (lt_irrefl _), zero_mul]

theorem harmless_nobody : Harmless fun s _ => s := ⟨fun s _ _ => .refl s, fun _ _ _ _ hx => hx⟩

theorem addThreatOwner_harmless : Harmless (addThreatOwner w) := by
  refine ⟨fun s h owner => addThreatWith_composed w harmless_nobody h owner 0, fun s h owner x hx => ?_⟩
  unfold addThreatOwner addThreatWith
  split
  · rw [calcThreat_zero, doAddThreatWith_zero]
    unfold addThreatVictim
    obtain ⟨r, hr, hFound⟩ | ⟨hNew, hNone⟩ := s.getReferenceByTarget_cases owner
    · rw [hFound]
      dsimp only
      rw [addThreatRef_zero]
      exact hx
    · rw [hNone]
      dsimp only
      rw [addThreatRef_zero]
      have hIn : x ∈ (s.addReference owner).iThreatContainer := List.mem_append_left _ hx
      split
      · obtain hSame | hMove := eq_or_ne ((s.addReference owner).isOnline s.next) false
        · have hStay : (s.addReference owner).setOnlineOfflineState s.next false = s.addReference owner :=
            if_neg (not_not.mpr hSame)
          rw [hStay]
          exact hIn
        · rw [(setOnlineOfflineState_moved hMove).container]
          refine List.mem_filter.mpr ⟨hIn, decide_eq_true ?_⟩
          exact (h.known x (List.mem_append_left _ hx)).ne
      · split
        · exact hIn
        · exact hIn
  · exact hx

/-! ## Operations -/

inductive ThreatOperation
  | addThreat (victim : ObjectGuid) (threat : ℚ)
  | doAddThreat (victim : ObjectGuid) (threat : ℚ)
  | modifyThreatPercent (victim : ObjectGuid) (percent : Int)
  | addThreatPercent (r : Nat) (percent : Int)
  | addTempThreat (r : Nat) (threat : ℚ)
  | tauntApply (taunter : ObjectGuid)
  | tauntFadeOut (taunter : ObjectGuid)
  | updateOnlineStatus (r : Nat)
  | setOnlineOfflineState (r : Nat) (isOnline : Bool)
  | removeReference (r : Nat)
  | setCurrentVictim (r : Nat)
  | getHostilTarget
  | clearReferences

/-- References are named only while they are there, and the victim is picked among those online. -/
def operate (s : ThreatManager) : Surroundings × ThreatOperation → ThreatManager
  | (w, .addThreat victim threat) => s.addThreat w victim threat
  | (w, .doAddThreat victim threat) => s.doAddThreat w victim threat
  | (w, .modifyThreatPercent victim percent) => s.modifyThreatPercent w victim percent
  | (w, .addThreatPercent r percent) => if r ∈ s.listed then s.addThreatPercent w r percent else s
  | (_, .addTempThreat r threat) => if r ∈ s.listed then s.addTempThreat r threat else s
  | (_, .tauntApply taunter) => s.tauntApply taunter
  | (_, .tauntFadeOut taunter) => s.tauntFadeOut taunter
  | (w, .updateOnlineStatus r) => if r ∈ s.listed then s.updateOnlineStatus w r else s
  | (_, .setOnlineOfflineState r isOnline) =>
    if r ∈ s.listed then s.setOnlineOfflineState r isOnline else s
  | (_, .removeReference r) => if r ∈ s.listed then s.removeReference r else s
  | (_, .setCurrentVictim r) => if r ∈ s.iThreatContainer then s.setCurrentVictim (some r) else s
  | (w, .getHostilTarget) => s.getHostilTarget w
  | (_, .clearReferences) => s.clearReferences

theorem removeReference_composed {r : Nat} (hr : r ∈ s.listed) : Composed s (s.removeReference r) := by
  have hFirst := setOnlineOfflineState_composed hr false
  have hSecond : Composed (s.setOnlineOfflineState r false)
      ((s.setOnlineOfflineState r false).alterRef r fun ref => { ref with valid := false }) :=
    .one (.link r false) rfl
  exact hFirst.trans (hSecond.trans (.one (.dropReference r) rfl))

theorem scan_choice (s : ThreatManager) (noPriorityTargetFound : Bool) (l : List Nat)
    (currentVictim : Option Nat) :
    (∀ r, s.scan w noPriorityTargetFound l currentVictim = .found r → r ∈ l ∨ currentVictim = some r) ∧
      ∀ victim, s.scan w noPriorityTargetFound l currentVictim = .onlySecondChoices victim →
        victim = none ∨ victim = currentVictim := by
  induction l generalizing currentVictim with
  | nil => exact ⟨fun r h => Scan.noConfusion h, fun victim h => Scan.noConfusion h⟩
  | cons x rest ih =>
    have hRest : ∀ v, v = none ∨ v = currentVictim →
        (∀ r, s.scan w noPriorityTargetFound rest v = .found r → r ∈ x :: rest ∨ currentVictim = some r) ∧
        ∀ victim, s.scan w noPriorityTargetFound rest v = .onlySecondChoices victim →
          victim = none ∨ victim = currentVictim := by
      intro v hv
      obtain ⟨hFound, hAgain⟩ := ih v
      refine ⟨fun r h => ?_, fun victim h => ?_⟩
      · obtain hIn | hOld := hFound r h
        · exact Or.inl (List.mem_cons_of_mem _ hIn)
        · obtain rfl | rfl := hv
          · cases hOld
          · exact Or.inr hOld
      · obtain hNone | hSame := hAgain victim h
        · exact Or.inl hNone
        · exact hSame ▸ hv
    unfold scan
    split
    · split
      · refine ⟨fun r h => Scan.noConfusion h, fun victim h => ?_⟩
        exact Or.inr (Scan.onlySecondChoices.inj h).symm
      · refine hRest _ ?_
        split
        · exact Or.inl rfl
        · exact Or.inr rfl
    · split
      · split
        · refine ⟨fun r h => ?_, fun victim h => Scan.noConfusion h⟩
          exact Or.inl (Scan.found.inj h ▸ List.mem_cons_self)
        · rename_i victim
          split
          · split
            · refine ⟨fun r h => ?_, fun victim h => Scan.noConfusion h⟩
              exact Or.inr (congrArg some (Scan.found.inj h))
            · refine ⟨fun r h => ?_, fun victim h => Scan.noConfusion h⟩
              exact Or.inl (Scan.found.inj h ▸ List.mem_cons_self)
          · split
            · refine ⟨fun r h => ?_, fun victim h => Scan.noConfusion h⟩
              exact Or.inl (Scan.found.inj h ▸ List.mem_cons_self)
            · exact hRest _ (Or.inr rfl)
      · exact hRest _ (Or.inr rfl)

theorem selectNextVictim_online (h : Consistent s) {r : Nat} (hr : s.selectNextVictim w = some r) :
    r ∈ s.iThreatContainer := by
  unfold selectNextVictim at hr
  obtain ⟨hFound, hAgain⟩ := s.scan_choice w false s.iThreatContainer s.iCurrentVictim
  split at hr
  · cases hr
  · rename_i x hScan
    obtain rfl := Option.some.inj hr
    obtain hIn | hVictim := hFound x hScan
    · exact hIn
    · exact h.victim x hVictim
  · rename_i victim hScan
    split at hr
    · rename_i x hSecond
      obtain rfl := Option.some.inj hr
      obtain hIn | hVictim := (s.scan_choice w true s.iThreatContainer victim).1 x hSecond
      · exact hIn
      · obtain rfl | rfl := hAgain victim hScan
        · cases hVictim
        · exact h.victim x hVictim
    · cases hr

theorem operate_composed (h : Consistent s) (op : Surroundings × ThreatOperation) :
    Composed s (s.operate op) := by
  obtain ⟨w, op⟩ := op
  have hPet := addThreatOwner_harmless w
  have hFind : ∀ {victim : ObjectGuid} {r : Nat},
      s.getReferenceByTarget s.iThreatContainer victim = some r → r ∈ s.listed :=
    fun hFound => List.mem_append_left _ (List.mem_of_find?_eq_some hFound)
  cases op with
  | addThreat victim threat => exact addThreatWith_composed w hPet h victim threat
  | doAddThreat victim threat => exact doAddThreatWith_composed w hPet h victim threat
  | modifyThreatPercent victim percent =>
    unfold operate modifyThreatPercent
    dsimp only
    cases hFound : s.getReferenceByTarget s.iThreatContainer victim with
    | none => exact .refl s
    | some r => exact (addThreatRef_composed w hPet h (hFind hFound) _).1
  | addThreatPercent r percent =>
    rw [operate]
    split
    · rename_i hr
      exact (addThreatRef_composed w hPet h hr _).1
    · exact .refl s
  | addTempThreat r threat =>
    rw [operate]
    split
    · exact .one (.addTempThreat r threat) rfl
    · exact .refl s
  | tauntApply taunter =>
    rw [operate]
    unfold tauntApply
    split
    · split
      · exact .one (.addTempThreat _ _) rfl
      · exact .refl s
    · exact .refl s
  | tauntFadeOut taunter =>
    rw [operate]
    unfold tauntFadeOut
    cases s.getReferenceByTarget s.iThreatContainer taunter with
    | none => exact .refl s
    | some r => exact .one (.addTempThreat r _) rfl
  | updateOnlineStatus r =>
    rw [operate]
    split
    · rename_i hr
      exact (updateOnlineStatus_composed w hr).1
    · exact .refl s
  | setOnlineOfflineState r isOnline => exact .one (.setOnlineOfflineState r isOnline) rfl
  | removeReference r =>
    rw [operate]
    split
    · rename_i hr
      exact removeReference_composed hr
    · exact .refl s
  | setCurrentVictim r =>
    rw [operate]
    split
    · rename_i hr
      exact setCurrentVictim_composed fun x hx => Option.some.inj hx ▸ hr
    · exact .refl s
  | getHostilTarget =>
    have hSorted : Composed s s.update := .one .update rfl
    refine hSorted.trans (setCurrentVictim_composed fun r hr => ?_)
    exact selectNextVictim_online w (hSorted.consistent h) hr
  | clearReferences => exact .one .clearReferences rfl

end Listed

theorem operations_composed (ops : List (Surroundings × ThreatOperation)) :
    Composed empty (run operate empty ops) := by
  have hRun : ∀ s, Consistent s → Composed s (run operate s ops) := by
    induction ops with
    | nil => exact fun s _ => .refl s
    | cons op ops ih =>
      intro s hs
      have hOne := operate_composed hs op
      exact hOne.trans (ih _ (hOne.consistent hs))
  exact hRun empty consistent_empty

/-- Whatever happens, a unit has one reference, the container of a reference is the one its
flag tells, and the victim is none or one of the online ones. -/
theorem references_consistent (ops : List (Surroundings × ThreatOperation)) :
    ((run operate empty ops).listed.map (run operate empty ops).unitOf).Nodup ∧
      (∀ r ∈ (run operate empty ops).listed,
        r ∈ (run operate empty ops).iThreatContainer ↔ (run operate empty ops).isOnline r = true) ∧
      ∀ r, (run operate empty ops).iCurrentVictim = some r →
        r ∈ (run operate empty ops).iThreatContainer := by
  have h := (operations_composed ops).consistent consistent_empty
  exact ⟨h.distinct, fun r hr => h.mem_online_iff hr, h.victim⟩

end AshamaneCore.ThreatManager
