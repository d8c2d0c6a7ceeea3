import AshamaneCore.Game.ReputationRuns
import AshamaneCore.Library.KeyedSet

/-!
# Saved reputations

A state remembers whether it has to be saved. A save replaces the rows of the states that
have to be, and a load starts from the defaults and replays each row through the setters,
which have guards of their own.
-/

namespace AshamaneCore.Reputations

open Library Library.Transition

def flagInactive : UInt8 := 0x20

def flagsConcealed : UInt8 := flagInvisibleForced ||| flagHidden

namespace FactionState

def setInactive (state : FactionState) (inactive : Bool) : FactionState :=
  if inactive && (state.has flagsConcealed || !state.has flagVisible) then state
  else if state.has flagInactive = inactive then state
  else if inactive then { state with flags := state.flags ||| flagInactive }
  else { state with flags := state.flags &&& ~~~flagInactive }

end FactionState

/-! ## The mark -/

structure Kept where
  state : FactionState
  needSave : Bool

namespace Kept

/-- A setter of flags that gets past its guards changes them, and marks the state. -/
def change (k : Kept) (set : FactionState → FactionState) : Kept :=
  ⟨set k.state, k.needSave || decide ((set k.state).flags ≠ k.state.flags)⟩

def setVisible (k : Kept) : Kept := k.change FactionState.setVisible

def setAtWar (k : Kept) (atWar : Bool) : Kept := k.change fun state => state.setAtWar atWar

def setInactive (k : Kept) (inactive : Bool) : Kept := k.change fun state => state.setInactive inactive

end Kept

/-! ## Rows -/

structure ReputationRow where
  faction : UInt16
  standing : Int
  flags : UInt16

namespace ReputationRow

def key (row : ReputationRow) : Nat := row.faction.toNat

def has (row : ReputationRow) (flag : UInt8) : Bool := row.flags &&& flag.toUInt16 ≠ 0

end ReputationRow

abbrev ReputationTable := KeyedSet ReputationRow.key

def FactionState.toRow (state : FactionState) : ReputationRow :=
  ⟨UInt16.ofNat state.id, state.standing, state.flags.toUInt16⟩

namespace Kept

def loadStanding (k : Kept) (row : ReputationRow) : Kept := ⟨{ k.state with standing := row.standing }, k.needSave⟩

def loadVisible (k : Kept) (row : ReputationRow) : Kept := if row.has flagVisible then k.setVisible else k

def loadInactive (k : Kept) (row : ReputationRow) : Kept := if row.has flagInactive then k.setInactive true else k

def loadAtWar (k : Kept) (row : ReputationRow) : Kept :=
  if row.has flagAtWar then k.setAtWar true
  else if k.state.has flagVisible then k.setAtWar false
  else k

def loadHostile (k : Kept) (rank : Nat) : Kept := if rank ≤ repHostile then k.setAtWar true else k

def settle (k : Kept) (row : ReputationRow) : Kept :=
  if k.state.flags.toUInt16 = row.flags then ⟨k.state, false⟩ else k

def load (k : Kept) (row : ReputationRow) (rank : Nat) : Kept :=
  ((((k.loadStanding row).loadVisible row).loadInactive row).loadAtWar row |>.loadHostile rank).settle row

end Kept

/-! ## Players -/

structure PlayerReputations where
  mgr : ReputationMgr
  needSave : Int → Bool

namespace PlayerReputations

def kept (p : PlayerReputations) (index : Int) : Kept :=
  ⟨(p.mgr.factions index).getD ⟨0, 0, 0, false⟩, p.needSave index⟩

def put (p : PlayerReputations) (index : Int) (k : Kept) : PlayerReputations :=
  ⟨Rules.putState p.mgr index k.state, Function.update p.needSave index k.needSave⟩

def countVisible (p : PlayerReputations) (shown : Bool) : PlayerReputations :=
  ⟨Rules.countVisible p.mgr shown, p.needSave⟩

end PlayerReputations

/-! ## Requests -/

inductive ReputationCall where
  | setReputation (call : Rules.Call)
  | setTemplateVisible (faction : Nat)
  | setVisible (faction : Nat)
  | setAtWar (repListId : Int) (atWar : Bool)
  | setInactive (repListId : Int) (inactive : Bool)

def ReputationMgr.unmarked (m : ReputationMgr) : ReputationMgr :=
  { m with factions := fun index => (m.factions index).map fun state => { state with changed := false } }

def ReputationMgr.written (m : ReputationMgr) (index : Int) : Bool :=
  match m.factions index with
  | some state => state.changed
  | none => false

namespace Rules

variable (r : Rules)

def setEntryVisible (p : PlayerReputations) (f : FactionEntry) : PlayerReputations :=
  if f.canHaveReputation then
    match p.mgr.factions f.reputationIndex with
    | none => p
    | some state =>
      (p.put f.reputationIndex (p.kept f.reputationIndex).setVisible).countVisible state.becomesVisible
  else p

/-- Factions of the opposing team are never shown by a template. -/
def ofOpposingTeam (f : FactionEntry) : Bool :=
  f.reputationRaceMask 1 &&& r.raceMask ≠ 0 && f.reputationBase 1 = reputationBottom

def setAtWar (p : PlayerReputations) (repListId : Int) (atWar : Bool) : PlayerReputations :=
  match p.mgr.factions repListId with
  | none => p
  | some state =>
    if state.has flagsConcealed then p else p.put repListId ((p.kept repListId).setAtWar atWar)

def setInactive (p : PlayerReputations) (repListId : Int) (inactive : Bool) : PlayerReputations :=
  match p.mgr.factions repListId with
  | none => p
  | some _ => p.put repListId ((p.kept repListId).setInactive inactive)

def callReputation (p : PlayerReputations) (call : Rules.Call) : PlayerReputations :=
  ⟨(r.step p.mgr call).unmarked, fun index => p.needSave index || (r.step p.mgr call).written index⟩

def request (p : PlayerReputations) : ReputationCall → PlayerReputations
  | .setReputation call => r.callReputation p call
  | .setTemplateVisible faction =>
    match r.lookupEntry faction with
    | some f => if faction = 0 ∨ r.ofOpposingTeam f then p else setEntryVisible p f
    | none => p
  | .setVisible faction =>
    match r.lookupEntry faction with
    | some f => setEntryVisible p f
    | none => p
  | .setAtWar repListId atWar => setAtWar p repListId atWar
  | .setInactive repListId inactive => setInactive p repListId inactive

/-! ## Saving and loading -/

def savedRows (p : PlayerReputations) : List ReputationRow :=
  ((r.store.entries.filter FactionEntry.canHaveReputation).filter fun f => p.needSave f.reputationIndex).filterMap
    fun f => (p.mgr.factions f.reputationIndex).map FactionState.toRow

def saveToDB (p : PlayerReputations) (table : ReputationTable) : PlayerReputations × ReputationTable :=
  (⟨p.mgr, fun _ => false⟩, (r.savedRows p).foldl KeyedSet.assign table)

def initializeReputations : PlayerReputations := ⟨r.initializeFactions, fun _ => true⟩

def loadRow (p : PlayerReputations) (row : ReputationRow) : PlayerReputations :=
  match r.lookupEntry row.key with
  | none => p
  | some f =>
    if f.canHaveReputation then
      let k := p.kept f.reputationIndex
      let rank := reputationToRank (r.baseReputation f + row.standing)
      let shown := row.has flagVisible && k.state.becomesVisible
      let loaded := (p.put f.reputationIndex (k.load row rank)).countVisible shown
      ⟨updateRankCounters loaded.mgr (reputationToRank (r.baseReputation f)) rank, loaded.needSave⟩
    else p

def loadFromDB (rows : List ReputationRow) : PlayerReputations := rows.foldl r.loadRow r.initializeReputations

end Rules

/-!
## Flags of reputations

Each setter touches one flag, and only as its guards allow. So the flags that no setter
touches stay those of the faction's defaults, and what the other three are after a load is
a formula in the defaults and the row.
-/

open Library

namespace FactionState

variable {state : FactionState} {flag mask : UInt8}

/-! ## One flag -/

theorem has_raised (h : flag ≠ 0) : { state with flags := state.flags ||| flag }.has flag = true :=
  decide_eq_true (Bits.set_flag_self h state.flags)

theorem has_raised_other (h : flag &&& mask = 0) :
    { state with flags := state.flags ||| flag }.has mask = state.has mask := by
  rw [has, has, Bits.set_flag_other h]

theorem has_lowered : { state with flags := state.flags &&& ~~~flag }.has flag = false :=
  decide_eq_false (not_not_intro (Bits.clear_flag_self flag state.flags))

theorem has_lowered_other (h : flag &&& mask = 0) :
    { state with flags := state.flags &&& ~~~flag }.has mask = state.has mask := by
  rw [has, has, Bits.clear_flag_other h]

theorem setVisible_other (h : flagVisible &&& mask = 0) : state.setVisible.has mask = state.has mask := by
  rw [setVisible]
  split
  · exact has_raised_other h
  · rfl

theorem setAtWar_other (h : flagAtWar &&& mask = 0) (atWar : Bool) :
    (state.setAtWar atWar).has mask = state.has mask := by
  rw [setAtWar]
  split
  · rfl
  · split
    · rfl
    · split
      · exact has_raised_other h
      · exact has_lowered_other h

theorem setInactive_other (h : flagInactive &&& mask = 0) (inactive : Bool) :
    (state.setInactive inactive).has mask = state.has mask := by
  rw [setInactive]
  split
  · rfl
  · split
    · rfl
    · split
      · exact has_raised_other h
      · exact has_lowered_other h

def showable (state : FactionState) : Bool := !(state.has flagsConcealed && !state.has flagSpecial)

theorem becomesVisible_eq : state.becomesVisible = (state.showable && !state.has flagVisible) := rfl

theorem setVisible_self : state.setVisible.has flagVisible = (state.has flagVisible || state.showable) := by
  rw [has_setVisible, becomesVisible_eq]
  cases state.has flagVisible
  · rw [Bool.not_false, Bool.and_true]
  · rw [Bool.true_or, Bool.true_or]

theorem setAtWar_self (atWar : Bool) :
    (state.setAtWar atWar).has flagAtWar = (atWar && (state.has flagAtWar || !state.has flagPeaceForced)) := by
  rw [setAtWar]
  cases atWar with
  | false =>
    rw [if_neg (by simp), Bool.false_and]
    split
    · assumption
    · exact has_lowered
  | true =>
    cases hPeace : state.has flagPeaceForced with
    | true => rw [if_pos (by rfl), Bool.not_true, Bool.or_false, Bool.true_and]
    | false =>
      rw [if_neg (by simp), Bool.not_false, Bool.or_true, Bool.true_and]
      split
      · assumption
      · exact has_raised (by decide)

theorem setInactive_self (inactive : Bool) :
    (state.setInactive inactive).has flagInactive =
      (inactive && (state.has flagInactive || (!state.has flagsConcealed && state.has flagVisible))) := by
  rw [setInactive]
  cases inactive with
  | false =>
    rw [if_neg (by simp), Bool.false_and]
    split
    · assumption
    · exact has_lowered
  | true =>
    cases hShown : state.has flagsConcealed || !state.has flagVisible with
    | true =>
      have hRefused : (!state.has flagsConcealed && state.has flagVisible) = false := by
        rw [← Bool.not_not (state.has flagVisible), ← Bool.not_or, hShown, Bool.not_true]
      rw [if_pos (by rfl), hRefused, Bool.or_false, Bool.true_and]
    | false =>
      have hAllowed : (!state.has flagsConcealed && state.has flagVisible) = true := by
        rw [← Bool.not_not (state.has flagVisible), ← Bool.not_or, hShown, Bool.not_false]
      rw [if_neg (by simp), hAllowed, Bool.or_true, Bool.true_and]
      split
      · assumption
      · exact has_raised (by decide)

theorem setInactive_frame (inactive : Bool) : (state.setInactive inactive).standing = state.standing ∧
    (state.setInactive inactive).id = state.id ∧ (state.setInactive inactive).changed = state.changed := by
  rw [setInactive]
  split
  · exact ⟨rfl, rfl, rfl⟩
  · split
    · exact ⟨rfl, rfl, rfl⟩
    · split <;> exact ⟨rfl, rfl, rfl⟩

theorem setAtWar_id (atWar : Bool) : (state.setAtWar atWar).id = state.id := by
  rw [setAtWar]
  split
  · rfl
  · split
    · rfl
    · split <;> rfl

theorem setVisible_id : state.setVisible.id = state.id := by
  rw [setVisible]
  split <;> rfl

end FactionState

/-! ## Flags that are kept -/

/-- The state has the flags of the faction's default that no setter touches, is visible if
the default is, and has the others only as the setters allow. -/
structure Regular (default state : FactionState) : Prop where
  id : state.id = default.id
  concealed : state.has flagsConcealed = default.has flagsConcealed
  special : state.has flagSpecial = default.has flagSpecial
  peace : state.has flagPeaceForced = default.has flagPeaceForced
  shown : default.has flagVisible = true → state.has flagVisible = true
  visible : state.has flagVisible = true → default.has flagVisible = true ∨ default.showable = true
  inactive : state.has flagInactive = true →
    default.has flagInactive = true ∨ default.has flagsConcealed = false ∧ state.has flagVisible = true
  atWar : state.has flagAtWar = true → default.has flagAtWar = true ∨ default.has flagPeaceForced = false

namespace Regular

variable {default state : FactionState}

theorem refl (default : FactionState) : Regular default default :=
  ⟨rfl, rfl, rfl, rfl, fun hShown => hShown, Or.inl, Or.inl, Or.inl⟩

theorem showable_eq (h : Regular default state) : state.showable = default.showable := by
  rw [FactionState.showable, FactionState.showable, h.concealed, h.special]

theorem of_flags (h : Regular default state) {other : FactionState} (hId : other.id = state.id)
    (hFlags : other.flags = state.flags) : Regular default other := by
  have hHas : ∀ flag, other.has flag = state.has flag := fun flag => by
    rw [FactionState.has, FactionState.has, hFlags]
  refine ⟨hId.trans h.id, ?_, ?_, ?_, ?_, ?_, ?_, ?_⟩ <;> rw [hHas]
  · exact h.concealed
  · exact h.special
  · exact h.peace
  · exact h.shown
  · exact h.visible
  · rw [hHas]
    exact h.inactive
  · exact h.atWar

theorem setVisible (h : Regular default state) : Regular default state.setVisible where
  id := FactionState.setVisible_id.trans h.id
  concealed := (FactionState.setVisible_other (by decide)).trans h.concealed
  special := (FactionState.setVisible_other (by decide)).trans h.special
  peace := (FactionState.setVisible_other (by decide)).trans h.peace
  shown hDefault := by rw [FactionState.setVisible_self, h.shown hDefault, Bool.true_or]
  visible hShown := by
    rw [FactionState.setVisible_self, Bool.or_eq_true, h.showable_eq] at hShown
    exact hShown.elim h.visible Or.inr
  inactive hInactive := by
    rw [FactionState.setVisible_other (by decide)] at hInactive
    refine (h.inactive hInactive).imp_right fun hShown => ⟨hShown.1, ?_⟩
    rw [FactionState.setVisible_self, hShown.2, Bool.true_or]
  atWar hAtWar := h.atWar ((FactionState.setVisible_other (by decide)).symm.trans hAtWar)

theorem setAtWar (h : Regular default state) (atWar : Bool) : Regular default (state.setAtWar atWar) where
  id := (FactionState.setAtWar_id atWar).trans h.id
  concealed := (FactionState.setAtWar_other (by decide) atWar).trans h.concealed
  special := (FactionState.setAtWar_other (by decide) atWar).trans h.special
  peace := (FactionState.setAtWar_other (by decide) atWar).trans h.peace
  shown hDefault := (FactionState.setAtWar_other (by decide) atWar).trans (h.shown hDefault)
  visible hShown := h.visible ((FactionState.setAtWar_other (by decide) atWar).symm.trans hShown)
  inactive hInactive := by
    rw [FactionState.setAtWar_other (by decide)] at hInactive ⊢
    exact h.inactive hInactive
  atWar hAtWar := by
    rw [FactionState.setAtWar_self, Bool.and_eq_true, Bool.or_eq_true, Bool.not_eq_true', h.peace] at hAtWar
    exact hAtWar.2.elim h.atWar Or.inr

theorem setInactive (h : Regular default state) (inactive : Bool) :
    Regular default (state.setInactive inactive) where
  id := (FactionState.setInactive_frame inactive).2.1.trans h.id
  concealed := (FactionState.setInactive_other (by decide) inactive).trans h.concealed
  special := (FactionState.setInactive_other (by decide) inactive).trans h.special
  peace := (FactionState.setInactive_other (by decide) inactive).trans h.peace
  shown hDefault := (FactionState.setInactive_other (by decide) inactive).trans (h.shown hDefault)
  visible hShown := h.visible ((FactionState.setInactive_other (by decide) inactive).symm.trans hShown)
  inactive hInactive := by
    rw [FactionState.setInactive_self, Bool.and_eq_true, Bool.or_eq_true, Bool.and_eq_true, Bool.not_eq_true',
      h.concealed] at hInactive
    rw [FactionState.setInactive_other (by decide)]
    exact hInactive.2.elim h.inactive Or.inr
  atWar hAtWar := h.atWar ((FactionState.setInactive_other (by decide) inactive).symm.trans hAtWar)

end Regular

structure IsSetter (set : FactionState → FactionState) : Prop where
  standing : ∀ state, (set state).standing = state.standing
  changed : ∀ state, (set state).changed = state.changed
  regular : ∀ {default state}, Regular default state → Regular default (set state)

theorem isSetter_setVisible : IsSetter FactionState.setVisible :=
  ⟨fun _ => setVisible_frame.1, fun _ => setVisible_frame.2, Regular.setVisible⟩

theorem isSetter_setAtWar (atWar : Bool) : IsSetter fun state => state.setAtWar atWar :=
  ⟨fun _ => (setAtWar_frame atWar).1, fun _ => (setAtWar_frame atWar).2, fun h => h.setAtWar atWar⟩

theorem isSetter_setInactive (inactive : Bool) : IsSetter fun state => state.setInactive inactive :=
  ⟨fun _ => (FactionState.setInactive_frame inactive).1, fun _ => (FactionState.setInactive_frame inactive).2.2,
    fun h => h.setInactive inactive⟩

/-! ## Loading one state -/

theorem has_toRow (state : FactionState) (flag : UInt8) : state.toRow.has flag = state.has flag := by
  rw [ReputationRow.has, FactionState.has, FactionState.toRow, ← UInt8.toUInt16_and]
  refine decide_eq_decide.mpr (not_congr ?_)
  rw [← UInt16.toNat_inj, ← UInt8.toNat_inj, UInt8.toNat_toUInt16]
  rfl

namespace Kept

variable (k : Kept) (row : ReputationRow) (rank : Nat)

def replay : Kept := (((k.loadStanding row).loadVisible row).loadInactive row).loadAtWar row |>.loadHostile rank

theorem load_eq : k.load row rank = (k.replay row rank).settle row := rfl

theorem load_state : (k.load row rank).state = (k.replay row rank).state := by
  rw [load_eq, settle]
  split <;> rfl

section Stages

variable {k row} {mask : UInt8}

theorem loadVisible_other (h : flagVisible &&& mask = 0) :
    (k.loadVisible row).state.has mask = k.state.has mask := by
  rw [loadVisible]
  split
  · exact FactionState.setVisible_other h
  · rfl

theorem loadInactive_other (h : flagInactive &&& mask = 0) :
    (k.loadInactive row).state.has mask = k.state.has mask := by
  rw [loadInactive]
  split
  · exact FactionState.setInactive_other h true
  · rfl

theorem loadAtWar_other (h : flagAtWar &&& mask = 0) : (k.loadAtWar row).state.has mask = k.state.has mask := by
  rw [loadAtWar]
  split
  · exact FactionState.setAtWar_other h true
  · split
    · exact FactionState.setAtWar_other h false
    · rfl

theorem loadHostile_other (h : flagAtWar &&& mask = 0) : (k.loadHostile rank).state.has mask = k.state.has mask := by
  rw [loadHostile]
  split
  · exact FactionState.setAtWar_other h true
  · rfl

theorem loadVisible_self : (k.loadVisible row).state.has flagVisible =
    (k.state.has flagVisible || (row.has flagVisible && k.state.showable)) := by
  rw [loadVisible]
  split
  · rename_i hRow
    rw [hRow, Bool.true_and]
    exact FactionState.setVisible_self
  · rename_i hRow
    rw [Bool.eq_false_iff.mpr hRow, Bool.false_and, Bool.or_false]

theorem loadInactive_self : (k.loadInactive row).state.has flagInactive =
    (k.state.has flagInactive ||
      (row.has flagInactive && (!k.state.has flagsConcealed && k.state.has flagVisible))) := by
  rw [loadInactive]
  split
  · rename_i hRow
    rw [hRow, Bool.true_and]
    exact (FactionState.setInactive_self true).trans (Bool.true_and _)
  · rename_i hRow
    rw [Bool.eq_false_iff.mpr hRow, Bool.false_and, Bool.or_false]

theorem loadAtWar_self : (k.loadAtWar row).state.has flagAtWar =
    if row.has flagAtWar then k.state.has flagAtWar || !k.state.has flagPeaceForced
    else k.state.has flagAtWar && !k.state.has flagVisible := by
  rw [loadAtWar]
  split
  · exact (FactionState.setAtWar_self true).trans (Bool.true_and _)
  · split
    · rename_i hShown
      rw [hShown, Bool.not_true, Bool.and_false]
      exact (FactionState.setAtWar_self false).trans (Bool.false_and _)
    · rename_i hHidden
      rw [Bool.eq_false_iff.mpr hHidden, Bool.not_false, Bool.and_true]

theorem loadHostile_self : (k.loadHostile rank).state.has flagAtWar =
    (k.state.has flagAtWar || (decide (rank ≤ repHostile) && !k.state.has flagPeaceForced)) := by
  rw [loadHostile]
  split
  · rename_i hHostile
    rw [decide_eq_true hHostile, Bool.true_and]
    exact (FactionState.setAtWar_self true).trans (Bool.true_and _)
  · rename_i hFriendly
    rw [decide_eq_false hFriendly, Bool.false_and, Bool.or_false]

end Stages

section Setters

variable {k row rank} {P : Kept → Prop}

theorem replay_of_setters (hSet : ∀ k set, IsSetter set → P k → P (k.change set)) (h : P (k.loadStanding row)) :
    P (k.replay row rank) := by
  have hVisible : P ((k.loadStanding row).loadVisible row) := by
    rw [loadVisible]
    split
    · exact hSet _ _ isSetter_setVisible h
    · exact h
  have hInactive : P (((k.loadStanding row).loadVisible row).loadInactive row) := by
    rw [loadInactive]
    split
    · exact hSet _ _ (isSetter_setInactive true) hVisible
    · exact hVisible
  have hAtWar : P ((((k.loadStanding row).loadVisible row).loadInactive row).loadAtWar row) := by
    rw [loadAtWar]
    split
    · exact hSet _ _ (isSetter_setAtWar true) hInactive
    · split
      · exact hSet _ _ (isSetter_setAtWar false) hInactive
      · exact hInactive
  rw [replay, loadHostile]
  split
  · exact hSet _ _ (isSetter_setAtWar true) hAtWar
  · exact hAtWar

end Setters

theorem replay_standing : (k.replay row rank).state.standing = row.standing :=
  replay_of_setters (P := fun k => k.state.standing = row.standing)
    (fun k _ hSet h => (hSet.standing k.state).trans h) rfl

theorem replay_changed : (k.replay row rank).state.changed = k.state.changed :=
  replay_of_setters (P := fun new => new.state.changed = k.state.changed)
    (fun k _ hSet h => (hSet.changed k.state).trans h) rfl

theorem replay_needSave (h : k.needSave = true) : (k.replay row rank).needSave = true :=
  replay_of_setters (P := fun k => k.needSave = true)
    (fun k set _ h => by rw [change, h, Bool.true_or]) h

theorem replay_visible : (k.replay row rank).state.has flagVisible =
    (k.state.has flagVisible || (row.has flagVisible && k.state.showable)) := by
  rw [replay, loadHostile_other rank (by decide), loadAtWar_other (by decide), loadInactive_other (by decide),
    loadVisible_self]
  rfl

theorem replay_inactive : (k.replay row rank).state.has flagInactive =
    (k.state.has flagInactive || (row.has flagInactive &&
      (!k.state.has flagsConcealed && (k.replay row rank).state.has flagVisible))) := by
  have hVisible : ((k.loadStanding row).loadVisible row).state.has flagVisible =
      (k.replay row rank).state.has flagVisible := by
    rw [replay, loadHostile_other rank (by decide), loadAtWar_other (by decide), loadInactive_other (by decide)]
  rw [← hVisible, replay, loadHostile_other rank (by decide), loadAtWar_other (by decide), loadInactive_self,
    loadVisible_other (by decide), loadVisible_other (by decide)]
  rfl

theorem replay_atWar : (k.replay row rank).state.has flagAtWar =
    ((if row.has flagAtWar then k.state.has flagAtWar || !k.state.has flagPeaceForced
      else k.state.has flagAtWar && !(k.replay row rank).state.has flagVisible) ||
    (decide (rank ≤ repHostile) && !k.state.has flagPeaceForced)) := by
  have hVisible : (((k.loadStanding row).loadVisible row).loadInactive row).state.has flagVisible =
      (k.replay row rank).state.has flagVisible := by
    rw [replay, loadHostile_other rank (by decide), loadAtWar_other (by decide)]
  rw [← hVisible, replay, loadHostile_self, loadAtWar_self, loadAtWar_other (by decide),
    loadInactive_other (by decide), loadInactive_other (by decide), loadVisible_other (by decide),
    loadVisible_other (by decide)]
  rfl

theorem replay_regular {default : FactionState} (h : Regular default k.state) :
    Regular default (k.replay row rank).state :=
  replay_of_setters (P := fun k => Regular default k.state) (fun _ _ hSet hk => hSet.regular hk)
    (h.of_flags rfl rfl)

end Kept

/-! ## Restored flags -/

/-- War is on after a load although it was off: a hostile faction, unless peace is forced,
and one that starts at war and is not visible. -/
def warImposed (default state : FactionState) (rank : Nat) : Bool :=
  decide (rank ≤ repHostile) && !state.has flagPeaceForced || default.has flagAtWar && !state.has flagVisible

structure Restored (default state loaded : FactionState) (rank : Nat) : Prop where
  standing : loaded.standing = state.standing
  visible : loaded.has flagVisible = state.has flagVisible
  inactive : default.has flagInactive = false → loaded.has flagInactive = state.has flagInactive
  atWar : loaded.has flagAtWar = (state.has flagAtWar || warImposed default state rank)

theorem Regular.restored {default state : FactionState} (h : Regular default state) (needSave : Bool) (rank : Nat) :
    Restored default state (Kept.load ⟨default, needSave⟩ state.toRow rank).state rank := by
  rw [Kept.load_state]
  have hVisible : (Kept.replay ⟨default, needSave⟩ state.toRow rank).state.has flagVisible =
      state.has flagVisible := by
    rw [Kept.replay_visible, has_toRow]
    cases hDefault : default.has flagVisible with
    | true => rw [h.shown hDefault, Bool.true_or]
    | false =>
      cases hState : state.has flagVisible with
      | false => rw [Bool.false_and, Bool.or_false]
      | true =>
        have hShowable := (h.visible hState).resolve_left fun hTrue => Bool.false_ne_true (hDefault.symm.trans hTrue)
        rw [hShowable, Bool.and_true, Bool.false_or]
  refine ⟨Kept.replay_standing _ _ _, hVisible, fun hActive => ?_, ?_⟩
  · rw [Kept.replay_inactive, hVisible, has_toRow, hActive, Bool.false_or]
    have hOnly := h.inactive
    rw [hActive] at hOnly
    cases hInactive : state.has flagInactive with
    | false => rw [Bool.false_and]
    | true =>
      obtain ⟨hPlain, hShown⟩ := (hOnly hInactive).resolve_left Bool.false_ne_true
      rw [hPlain, hShown]
      rfl
  · rw [Kept.replay_atWar, hVisible, has_toRow, warImposed, h.peace]
    cases hAtWar : state.has flagAtWar with
    | false =>
      rw [if_neg Bool.false_ne_true, Bool.false_or, Bool.or_comm]
    | true =>
      rcases h.atWar hAtWar with hDefault | hFree
      · rw [if_pos rfl, hDefault, Bool.true_or, Bool.true_or, Bool.true_or]
      · rw [if_pos rfl, hFree, Bool.not_false, Bool.or_true, Bool.true_or, Bool.true_or]

end AshamaneCore.Reputations
