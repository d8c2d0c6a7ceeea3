import AshamaneCore.Library.Bits
import AshamaneCore.Library.Tally
import AshamaneCore.Library.Transition
import Mathlib.Algebra.Order.Ring.Rat
import Mathlib.Data.Rat.Floor

/-!
# Reputations

A player has a standing with every faction that has a reputation index. One change of
reputation spills over to other factions, by a table of its own or to the factions of the
same parent, and each of these moves the counters of ranks from the old rank to the new.
The counters have eight bits.
-/

namespace AshamaneCore.Reputations

open Library Library.Transition

/-! ## Ranks -/

def repHostile : Nat := 1
def repHonored : Nat := 5
def repRevered : Nat := 6
def repExalted : Nat := 7

def pointsInRank : List Int := [36000, 3000, 3000, 3000, 6000, 12000, 21000, 1000]

def reputationCap : Int := 42999

def reputationBottom : Int := -42000

/-- Down from the highest rank, as long as the standing is below its limit. -/
def rankBelow (standing limit : Int) : List (Int × Nat) → Nat
  | [] => 0
  | (points, rank) :: lower =>
    if limit - points ≤ standing then rank else rankBelow standing (limit - points) lower

def reputationToRank (standing : Int) : Nat :=
  rankBelow standing (reputationCap + 1) pointsInRank.zipIdx.reverse

/-! ## Factions -/

def flagVisible : UInt8 := 0x01
def flagAtWar : UInt8 := 0x02
def flagHidden : UInt8 := 0x04
def flagInvisibleForced : UInt8 := 0x08
def flagPeaceForced : UInt8 := 0x10
def flagSpecial : UInt8 := 0x80

structure FactionEntry where
  id : Nat
  reputationRaceMask : Fin 4 → Nat
  reputationClassMask : Fin 4 → Nat
  reputationBase : Fin 4 → Int
  reputationFlags : Fin 4 → Nat
  parentFactionMod : Fin 2 → Rat
  parentFactionId : Nat
  parentFactionCap : Nat
  reputationIndex : Int

def FactionEntry.canHaveReputation (f : FactionEntry) : Bool := 0 ≤ f.reputationIndex

structure FactionStore where
  entries : List FactionEntry
  ids : (entries.map FactionEntry.id).Nodup
  indices : ((entries.filter FactionEntry.canHaveReputation).map FactionEntry.reputationIndex).Nodup

structure SpilloverFaction where
  faction : Nat
  rate : Rat
  rank : Nat

/-- What a change of reputation reads: the factions, the player's masks, the spillover
table and the rate of gains. -/
structure Rules where
  store : FactionStore
  raceMask : Nat
  classMask : Nat
  spillover : Nat → Option (List SpilloverFaction)
  gainRate : Rat

/-- The changed mark is not the source's: it is set where a standing is written. -/
structure FactionState where
  id : Nat
  standing : Int
  flags : UInt8
  changed : Bool

namespace FactionState

def has (state : FactionState) (flag : UInt8) : Bool := state.flags &&& flag ≠ 0

/-- What SetVisible of a state checks before it shows the faction. -/
def becomesVisible (state : FactionState) : Bool :=
  !(state.has (flagInvisibleForced ||| flagHidden) && !state.has flagSpecial) && !state.has flagVisible

def setVisible (state : FactionState) : FactionState :=
  if state.becomesVisible then { state with flags := state.flags ||| flagVisible } else state

def setAtWar (state : FactionState) (atWar : Bool) : FactionState :=
  if atWar && state.has flagPeaceForced then state
  else if state.has flagAtWar = atWar then state
  else if atWar then { state with flags := state.flags ||| flagAtWar }
  else { state with flags := state.flags &&& ~~~flagAtWar }

end FactionState

structure ReputationMgr where
  factions : Int → Option FactionState
  visibleFactionCount : UInt8
  honoredFactionCount : UInt8
  reveredFactionCount : UInt8
  exaltedFactionCount : UInt8

namespace Rules

variable (r : Rules)

def lookupEntry (id : Nat) : Option FactionEntry := r.store.entries.find? fun f => f.id = id

def maskIndex (f : FactionEntry) : Option (Fin 4) :=
  (List.finRange 4).find? fun i =>
    (f.reputationRaceMask i &&& r.raceMask ≠ 0 ||
      (f.reputationRaceMask i = 0 && f.reputationClassMask i ≠ 0)) &&
    (f.reputationClassMask i &&& r.classMask ≠ 0 || f.reputationClassMask i = 0)

def baseReputation (f : FactionEntry) : Int := ((r.maskIndex f).map f.reputationBase).getD 0

def defaultStateFlags (f : FactionEntry) : Nat := ((r.maskIndex f).map f.reputationFlags).getD 0

def baseRank (f : FactionEntry) : Nat := reputationToRank (r.baseReputation f)

/-- The factions that name this one as their parent, if there are any. -/
def factionTeamList (faction : Nat) : Option (List Nat) :=
  if faction = 0 ∨ (r.store.entries.filter fun f => f.parentFactionId = faction) = [] then none
  else some ((r.store.entries.filter fun f => f.parentFactionId = faction).map FactionEntry.id)

/-! ## Standings -/

def getState (m : ReputationMgr) (f : FactionEntry) : Option FactionState :=
  if f.canHaveReputation then m.factions f.reputationIndex else none

def getReputation (m : ReputationMgr) (f : FactionEntry) : Int :=
  match getState m f with
  | some state => r.baseReputation f + state.standing
  | none => 0

def getRank (m : ReputationMgr) (f : FactionEntry) : Nat := reputationToRank (r.getReputation m f)

def reputationRank (m : ReputationMgr) (faction : Nat) : Nat :=
  match r.lookupEntry faction with
  | some f => r.getRank m f
  | none => reputationToRank 0

/-- One counter of ranks: down for the old rank, up for the new one. -/
def countRank (threshold oldRank newRank : Nat) (count : UInt8) : UInt8 :=
  (count - if threshold ≤ oldRank then 1 else 0) + if threshold ≤ newRank then 1 else 0

def updateRankCounters (m : ReputationMgr) (oldRank newRank : Nat) : ReputationMgr :=
  { m with
    exaltedFactionCount := countRank repExalted oldRank newRank m.exaltedFactionCount
    reveredFactionCount := countRank repRevered oldRank newRank m.reveredFactionCount
    honoredFactionCount := countRank repHonored oldRank newRank m.honoredFactionCount }

def putState (m : ReputationMgr) (index : Int) (state : FactionState) : ReputationMgr :=
  { m with factions := Function.update m.factions index (some state) }

def countVisible (m : ReputationMgr) (shown : Bool) : ReputationMgr :=
  { m with visibleFactionCount := m.visibleFactionCount + if shown then 1 else 0 }

def newFaction (f : FactionEntry) : FactionState := ⟨f.id, 0, UInt8.ofNat (r.defaultStateFlags f), false⟩

def addFaction (m : ReputationMgr) (f : FactionEntry) : ReputationMgr :=
  if f.canHaveReputation then
    putState (updateRankCounters (countVisible m ((r.newFaction f).has flagVisible)) repHostile (r.baseRank f))
      f.reputationIndex (r.newFaction f)
  else m

def initializeFactions : ReputationMgr := r.store.entries.foldl r.addFaction ⟨fun _ => none, 0, 0, 0, 0⟩

/-! ## Changes -/

def truncate (q : Rat) : Int := if 0 ≤ q then q.floor else q.ceil

def clampStanding (standing : Int) : Int :=
  if reputationCap < standing then reputationCap
  else if standing < reputationBottom then reputationBottom
  else standing

def newReputation (f : FactionEntry) (state : FactionState) (standing : Int) (incremental : Bool) : Int :=
  clampStanding
    (if incremental then ((standing : Rat) * r.gainRate + 1 / 2).floor + (state.standing + r.baseReputation f)
    else standing)

def changeState (f : FactionEntry) (state : FactionState) (reputation : Int) : FactionState :=
  if reputationToRank reputation ≤ repHostile then
    ({ state with standing := reputation - r.baseReputation f, changed := true }.setVisible).setAtWar true
  else { state with standing := reputation - r.baseReputation f, changed := true }.setVisible

def applyChange (m : ReputationMgr) (f : FactionEntry) (state : FactionState) (reputation : Int) : ReputationMgr :=
  updateRankCounters
    (countVisible (putState m f.reputationIndex (r.changeState f state reputation)) state.becomesVisible)
    (reputationToRank (state.standing + r.baseReputation f)) (reputationToRank reputation)

def setOneFactionReputation (m : ReputationMgr) (f : FactionEntry) (standing : Int) (incremental : Bool) :
    ReputationMgr × Bool :=
  match m.factions f.reputationIndex with
  | none => (m, false)
  | some state => (r.applyChange m f state (r.newReputation f state standing incremental), true)

def spillByTable (standing : Int) (incremental : Bool) (m : ReputationMgr) (spill : SpilloverFaction) :
    ReputationMgr :=
  if spill.faction ≠ 0 ∧ r.reputationRank m spill.faction ≤ spill.rank then
    match r.lookupEntry spill.faction with
    | some f => (r.setOneFactionReputation m f (truncate (standing * spill.rate)) incremental).1
    | none => m
  else m

/-- Spillover to one faction of a list, unless it is the changed one or above its cap. -/
def spillToSister (changed : FactionEntry) (amount : Rat) (incremental : Bool) (result : ReputationMgr × Bool)
    (sister : Nat) : ReputationMgr × Bool :=
  match r.lookupEntry sister with
  | none => result
  | some f =>
    if f.id = changed.id ∨ f.parentFactionCap < r.getRank result.1 f then result
    else if truncate (amount * f.parentFactionMod 0) ≠ 0 ∨ incremental = false then
      r.setOneFactionReputation result.1 f (truncate (amount * f.parentFactionMod 0)) incremental
    else result

def spillToList (changed : FactionEntry) (amount : Rat) (incremental : Bool) (m : ReputationMgr)
    (list : Option (List Nat)) : ReputationMgr × Bool :=
  (list.getD []).foldl (r.spillToSister changed amount incremental) (m, false)

def isSpecial (m : ReputationMgr) (f : FactionEntry) : Bool :=
  match m.factions f.reputationIndex with
  | some state => state.has flagSpecial
  | none => false

/-- Spillover from the client's tables: to the factions below this one, or else through
its parent, to the parent alone if that has a standing of its own. -/
def spillByParent (m : ReputationMgr) (f : FactionEntry) (standing : Int) (incremental : Bool) :
    ReputationMgr × Bool :=
  if (r.factionTeamList f.id).isSome ∨ f.parentFactionId = 0 ∨ f.parentFactionMod 1 = 0 then
    r.spillToList f standing incremental m (r.factionTeamList f.id)
  else
    match r.lookupEntry f.parentFactionId with
    | none => (m, false)
    | some parent =>
      if isSpecial m parent then
        ((r.setOneFactionReputation m parent (truncate (standing * f.parentFactionMod 1)) incremental).1, false)
      else
        r.spillToList f (standing * f.parentFactionMod 1) incremental m (r.factionTeamList f.parentFactionId)

def spill (m : ReputationMgr) (f : FactionEntry) (standing : Int) (incremental noSpillover : Bool) :
    ReputationMgr × Bool :=
  if noSpillover then (m, false)
  else
    match r.spillover f.id with
    | some table => (table.foldl (r.spillByTable standing incremental) m, false)
    | none => r.spillByParent m f standing incremental

def setReputation (m : ReputationMgr) (f : FactionEntry) (standing : Int) (incremental noSpillover : Bool) :
    ReputationMgr × Bool :=
  match (r.spill m f standing incremental noSpillover).1.factions f.reputationIndex with
  | none => r.spill m f standing incremental noSpillover
  | some _ =>
    r.setOneFactionReputation (r.spill m f standing incremental noSpillover).1 f standing incremental

/-! ## Runs -/

structure Call where
  faction : Nat
  standing : Int
  incremental : Bool
  noSpillover : Bool

def step (m : ReputationMgr) (call : Call) : ReputationMgr :=
  match r.lookupEntry call.faction with
  | some f => (r.setReputation m f call.standing call.incremental call.noSpillover).1
  | none => m

end Rules

/-!
## Counters of ranks

Each counter is the number of factions of its class modulo 256, through initialisation and
through every change. What was changed lies within the bounds of reputation.
-/

open Library Library.Transition Library.Tally

variable (r : Rules)

/-! ## Classes of factions -/

def atLeast (threshold : Nat) (m : ReputationMgr) (f : FactionEntry) : Bool := threshold ≤ r.getRank m f

def isVisible (m : ReputationMgr) (f : FactionEntry) : Bool :=
  match Rules.getState m f with
  | some state => state.has flagVisible
  | none => false

/-- A changed faction is within bounds, and it is at war if it is hostile and peace is not forced. -/
def WithinBounds (f : FactionEntry) (state : FactionState) : Prop :=
  state.changed = true →
    (reputationBottom ≤ state.standing + r.baseReputation f ∧
      state.standing + r.baseReputation f ≤ reputationCap) ∧
    (reputationToRank (state.standing + r.baseReputation f) ≤ repHostile →
      state.has flagAtWar = true ∨ state.has flagPeaceForced = true)

/-- The factions of the list have states and no others do, and each counter is the number
of factions in its class as far as eight bits hold it. -/
structure Counted (l : List FactionEntry) (m : ReputationMgr) : Prop where
  stored : ∀ f ∈ l, f.canHaveReputation = true → ∃ state, m.factions f.reputationIndex = some state
  listed : ∀ index state, m.factions index = some state →
    ∃ f ∈ l, f.canHaveReputation = true ∧ f.reputationIndex = index
  honored : m.honoredFactionCount = UInt8.ofNat (l.countP (atLeast r repHonored m))
  revered : m.reveredFactionCount = UInt8.ofNat (l.countP (atLeast r repRevered m))
  exalted : m.exaltedFactionCount = UInt8.ofNat (l.countP (atLeast r repExalted m))
  visible : m.visibleFactionCount = UInt8.ofNat (l.countP (isVisible m))
  bounds : ∀ f ∈ l, ∀ state, Rules.getState m f = some state → WithinBounds r f state

structure Distinct (l : List FactionEntry) : Prop where
  nodup : l.Nodup
  indices : ((l.filter FactionEntry.canHaveReputation).map FactionEntry.reputationIndex).Nodup

theorem FactionStore.distinct (s : FactionStore) : Distinct s.entries := ⟨s.ids.of_map, s.indices⟩

section

variable {r} {l : List FactionEntry} {m : ReputationMgr} {f : FactionEntry}

theorem Distinct.index_ne (h : Distinct l) {g : FactionEntry} (hf : f ∈ l) (hg : g ∈ l)
    (hHas : f.canHaveReputation = true) (hgHas : g.canHaveReputation = true) (hNe : g ≠ f) :
    g.reputationIndex ≠ f.reputationIndex := by
  intro hIndex
  exact hNe (List.inj_on_of_nodup_map h.indices (List.mem_filter.mpr ⟨hg, hgHas⟩)
    (List.mem_filter.mpr ⟨hf, hHas⟩) hIndex)

theorem getState_of_has (hHas : f.canHaveReputation = true) :
    Rules.getState m f = m.factions f.reputationIndex := if_pos hHas

theorem getState_of_hasNot (hHas : f.canHaveReputation = false) : Rules.getState m f = none := by
  rw [Rules.getState, hHas, if_neg Bool.false_ne_true]

variable {state : FactionState}

theorem getRank_of_state (h : Rules.getState m f = some state) :
    r.getRank m f = reputationToRank (state.standing + r.baseReputation f) := by
  rw [Rules.getRank, Rules.getReputation, h, Int.add_comm]

theorem atLeast_of_state (h : Rules.getState m f = some state) (threshold : Nat) :
    atLeast r threshold m f = decide (threshold ≤ reputationToRank (state.standing + r.baseReputation f)) := by
  rw [atLeast, getRank_of_state h]

theorem isVisible_of_state (h : Rules.getState m f = some state) :
    isVisible m f = state.has flagVisible := by
  rw [isVisible, h]

theorem classes_congr {m' : ReputationMgr} (h : Rules.getState m' f = Rules.getState m f) (threshold : Nat) :
    atLeast r threshold m' f = atLeast r threshold m f ∧ isVisible m' f = isVisible m f := by
  constructor
  · rw [atLeast, atLeast, Rules.getRank, Rules.getRank, Rules.getReputation, Rules.getReputation, h]
  · rw [isVisible, isVisible, h]

theorem countRank_eq {threshold oldRank newRank c c' : Nat}
    (h : c' + (if threshold ≤ oldRank then 1 else 0) = c + if threshold ≤ newRank then 1 else 0) :
    Rules.countRank threshold oldRank newRank (UInt8.ofNat c) = UInt8.ofNat c' := by
  have hWeight : ∀ rank : Nat, (if threshold ≤ rank then 1 else 0 : UInt8) =
      UInt8.ofNat (if threshold ≤ rank then 1 else 0) := by
    intro rank
    split <;> rfl
  rw [Rules.countRank, hWeight, hWeight]
  exact wrapped_move h

end

/-! ## States -/

section States

variable {state : FactionState}

theorem has_setVisible : state.setVisible.has flagVisible = (state.has flagVisible || state.becomesVisible) := by
  rw [FactionState.setVisible]
  split
  · rename_i hBecomes
    rw [hBecomes, Bool.or_true, FactionState.has, decide_eq_true_iff]
    exact Bits.set_flag_self (by decide) state.flags
  · rename_i hStays
    rw [Bool.eq_false_iff.mpr hStays, Bool.or_false]

theorem setVisible_frame : state.setVisible.standing = state.standing ∧ state.setVisible.changed = state.changed := by
  rw [FactionState.setVisible]
  split <;> exact ⟨rfl, rfl⟩

theorem setAtWar_frame (atWar : Bool) :
    (state.setAtWar atWar).standing = state.standing ∧ (state.setAtWar atWar).changed = state.changed := by
  rw [FactionState.setAtWar]
  split
  · exact ⟨rfl, rfl⟩
  · split
    · exact ⟨rfl, rfl⟩
    · split <;> exact ⟨rfl, rfl⟩

theorem has_setAtWar_visible : (state.setAtWar true).has flagVisible = state.has flagVisible := by
  rw [FactionState.setAtWar]
  split
  · rfl
  · split
    · rfl
    · rw [if_pos rfl, FactionState.has, FactionState.has, Bits.set_flag_other rfl]

theorem setAtWar_spec : (state.setAtWar true).has flagAtWar = true ∨
    (state.setAtWar true).has flagPeaceForced = true := by
  rw [FactionState.setAtWar]
  split
  · rename_i hPeace
    rw [Bool.true_and] at hPeace
    exact Or.inr hPeace
  · split
    · rename_i hWar
      exact Or.inl hWar
    · rw [if_pos rfl]
      refine Or.inl (decide_eq_true ?_)
      exact Bits.set_flag_self (by decide) state.flags

variable (f : FactionEntry) (reputation : Int)

theorem changeState_spec :
    (r.changeState f state reputation).standing = reputation - r.baseReputation f ∧
    (r.changeState f state reputation).has flagVisible = (state.has flagVisible || state.becomesVisible) ∧
    (reputationToRank reputation ≤ repHostile → (r.changeState f state reputation).has flagAtWar = true ∨
      (r.changeState f state reputation).has flagPeaceForced = true) := by
  have hShown : { state with standing := reputation - r.baseReputation f, changed := true }.setVisible.has flagVisible =
      (state.has flagVisible || state.becomesVisible) := has_setVisible
  rw [Rules.changeState]
  split
  · refine ⟨(setAtWar_frame true).1.trans setVisible_frame.1, has_setAtWar_visible.trans hShown, ?_⟩
    exact fun _ => setAtWar_spec
  · rename_i hFriendly
    exact ⟨setVisible_frame.1, hShown, fun hHostile => absurd hHostile hFriendly⟩

theorem not_visible_of_becomes (h : state.becomesVisible = true) : state.has flagVisible = false := by
  rw [FactionState.becomesVisible, Bool.and_eq_true, Bool.not_eq_true'] at h
  simpa using h.2

end States

theorem clampStanding_bounds (standing : Int) :
    reputationBottom ≤ Rules.clampStanding standing ∧ Rules.clampStanding standing ≤ reputationCap := by
  rw [Rules.clampStanding, reputationBottom, reputationCap]
  split
  · omega
  · split <;> omega

/-! ## Changes -/

section Changes

variable {r} {l : List FactionEntry} {m : ReputationMgr} {f : FactionEntry} {state : FactionState}

/-- One faction gets another state, and the counters follow what the caller says of it. -/
def replaceState (m : ReputationMgr) (f : FactionEntry) (state : FactionState) (shown : Bool)
    (oldRank newRank : Nat) : ReputationMgr :=
  Rules.updateRankCounters (Rules.countVisible (Rules.putState m f.reputationIndex state) shown) oldRank newRank

section Replace

variable (m) (state) (shown : Bool) (oldRank newRank : Nat)

theorem getState_replaceState (hDistinct : Distinct l) (hf : f ∈ l) (hHas : f.canHaveReputation = true) :
    Rules.getState (replaceState m f state shown oldRank newRank) f = some state ∧
    ∀ g ∈ l, g ≠ f → Rules.getState (replaceState m f state shown oldRank newRank) g = Rules.getState m g := by
  constructor
  · rw [getState_of_has hHas]
    exact Function.update_self _ _ _
  · intro g hg hNe
    cases hgHas : g.canHaveReputation with
    | false => rw [getState_of_hasNot hgHas, getState_of_hasNot hgHas]
    | true =>
      rw [getState_of_has hgHas, getState_of_has hgHas]
      exact Function.update_of_ne (hDistinct.index_ne hf hg hHas hgHas hNe) _ _

end Replace

theorem getState_applyChange (m : ReputationMgr) (state : FactionState) (hDistinct : Distinct l) (hf : f ∈ l)
    (hHas : f.canHaveReputation = true) (reputation : Int) :
    Rules.getState (r.applyChange m f state reputation) f = some (r.changeState f state reputation) ∧
    ∀ g ∈ l, g ≠ f → Rules.getState (r.applyChange m f state reputation) g = Rules.getState m g :=
  getState_replaceState m _ _ _ _ hDistinct hf hHas

variable {new : FactionState} {shown : Bool}

theorem countP_replaceState (r : Rules) (new : FactionState) (hDistinct : Distinct l) (hf : f ∈ l)
    (hHas : f.canHaveReputation = true)
    (hState : m.factions f.reputationIndex = some state) (shown : Bool) (oldRank newRank threshold : Nat) :
    l.countP (atLeast r threshold (replaceState m f new shown oldRank newRank)) +
        (if threshold ≤ reputationToRank (state.standing + r.baseReputation f) then 1 else 0) =
      l.countP (atLeast r threshold m) +
        if threshold ≤ reputationToRank (new.standing + r.baseReputation f) then 1 else 0 := by
  obtain ⟨hNew, hOther⟩ := getState_replaceState m new shown oldRank newRank hDistinct hf hHas
  have hChange := countP_change (p := atLeast r threshold m) hDistinct.nodup hf
    fun g hg hNe => (classes_congr (r := r) (hOther g hg hNe) threshold).1
  rw [weight, weight, atLeast_of_state hNew, atLeast_of_state ((getState_of_has hHas).trans hState)] at hChange
  simpa only [decide_eq_true_eq] using hChange

theorem countVisible_replaceState (hDistinct : Distinct l) (hf : f ∈ l) (hHas : f.canHaveReputation = true)
    (hState : m.factions f.reputationIndex = some state)
    (hShown : new.has flagVisible = (state.has flagVisible || shown))
    (hHidden : shown = true → state.has flagVisible = false) (oldRank newRank : Nat) :
    l.countP (isVisible (replaceState m f new shown oldRank newRank)) =
      l.countP (isVisible m) + if shown then 1 else 0 := by
  obtain ⟨hNew, hOther⟩ := getState_replaceState m new shown oldRank newRank hDistinct hf hHas
  have hChange := countP_change (p := isVisible m) (q := isVisible (replaceState m f new shown oldRank newRank))
    hDistinct.nodup hf fun g hg hNe => by rw [isVisible, isVisible, hOther g hg hNe]
  rw [weight, weight, isVisible_of_state hNew, isVisible_of_state ((getState_of_has hHas).trans hState),
    hShown] at hChange
  cases shown with
  | false =>
    rw [Bool.or_false] at hChange
    simpa using hChange
  | true =>
    rw [hHidden rfl] at hChange
    simpa using hChange

theorem Counted.replaceState (h : Counted r l m) (hDistinct : Distinct l) (hf : f ∈ l)
    (hHas : f.canHaveReputation = true) (hState : m.factions f.reputationIndex = some state)
    (hShown : new.has flagVisible = (state.has flagVisible || shown))
    (hHidden : shown = true → state.has flagVisible = false) (hBounds : WithinBounds r f new) :
    Counted r l (replaceState m f new shown (reputationToRank (state.standing + r.baseReputation f))
      (reputationToRank (new.standing + r.baseReputation f))) := by
  have hCount := countP_replaceState r new hDistinct hf hHas hState shown
    (reputationToRank (state.standing + r.baseReputation f)) (reputationToRank (new.standing + r.baseReputation f))
  obtain ⟨hNew, hOther⟩ := getState_replaceState m new shown
    (reputationToRank (state.standing + r.baseReputation f))
    (reputationToRank (new.standing + r.baseReputation f)) hDistinct hf hHas
  constructor
  · intro g hg hgHas
    obtain rfl | hSelf := eq_or_ne g f
    · exact ⟨_, (getState_of_has hgHas).symm.trans hNew⟩
    · obtain ⟨old, hOld⟩ := h.stored g hg hgHas
      refine ⟨old, (getState_of_has hgHas).symm.trans ((hOther g hg hSelf).trans ?_)⟩
      exact (getState_of_has hgHas).trans hOld
  · intro index found hFound
    by_cases hSelf : index = f.reputationIndex
    · exact ⟨f, hf, hHas, hSelf.symm⟩
    · exact h.listed index found ((Function.update_of_ne hSelf _ _).symm.trans hFound)
  · exact (congrArg (Rules.countRank _ _ _) h.honored).trans (countRank_eq (hCount repHonored))
  · exact (congrArg (Rules.countRank _ _ _) h.revered).trans (countRank_eq (hCount repRevered))
  · exact (congrArg (Rules.countRank _ _ _) h.exalted).trans (countRank_eq (hCount repExalted))
  · rw [countVisible_replaceState hDistinct hf hHas hState hShown hHidden, UInt8.ofNat_add, ← h.visible]
    refine congrArg (m.visibleFactionCount + ·) ?_
    split <;> rfl
  · intro g hg found hFound
    obtain rfl | hSelf := eq_or_ne g f
    · obtain rfl := Option.some.inj (hNew.symm.trans hFound)
      exact hBounds
    · exact h.bounds g hg found ((hOther g hg hSelf).symm.trans hFound)

theorem Counted.applyChange (h : Counted r l m) (hDistinct : Distinct l) (hf : f ∈ l)
    (hHas : f.canHaveReputation = true) (hState : m.factions f.reputationIndex = some state) (standing : Int) :
    Counted r l (r.applyChange m f state (Rules.clampStanding standing)) := by
  obtain ⟨hStanding, hShown, hWar⟩ := @changeState_spec r state f (Rules.clampStanding standing)
  have hReputation : (r.changeState f state (Rules.clampStanding standing)).standing + r.baseReputation f =
      Rules.clampStanding standing := by
    rw [hStanding, Int.sub_add_cancel]
  have hReplaced := h.replaceState hDistinct hf hHas hState hShown not_visible_of_becomes (by
    intro _
    rw [hReputation]
    exact ⟨clampStanding_bounds standing, hWar⟩)
  rwa [hReputation] at hReplaced

end Changes

end AshamaneCore.Reputations
