import AshamaneCore.Game.ObjectGuid
import Mathlib.Algebra.Order.Ring.Rat
import Mathlib.Data.List.Sort

/-!
# Threat

A creature keeps a reference for every unit it hates: those it can reach in the online
container, the others in the offline one. A change of a reference tells the manager, which
moves it between the containers and notes when the online one has to be sorted. Threat
values are exact. What the units are and can do is given.
-/

namespace AshamaneCore

structure HostileReference where
  iUnitGuid : ObjectGuid
  iThreat : ℚ
  iTempThreatModifier : ℚ
  iOnline : Bool
  iAccessible : Bool
  valid : Bool

/-- References are told apart by number, and a number is never used again. -/
structure ThreatManager where
  refs : Nat → HostileReference
  next : Nat
  iThreatContainer : List Nat
  iThreatOfflineContainer : List Nat
  iCurrentVictim : Option Nat
  iDirty : Bool

/-- Redirection takes personal spawns into account, and only owners that are alive count. -/
structure Surroundings where
  isValidProcess : ObjectGuid → Bool
  threatModifier : ObjectGuid → ℚ
  redirectThreatPercent : ObjectGuid → Nat
  redirectThreatTarget : ObjectGuid → Option ObjectGuid
  isGameMaster : ObjectGuid → Bool
  charmerOrOwner : ObjectGuid → Option ObjectGuid
  found : ObjectGuid → Bool
  reachable : ObjectGuid → Bool
  accessible : ObjectGuid → Bool
  withinCombatRange : ObjectGuid → Bool
  secondChoice : ObjectGuid → Bool
  canCreatureAttack : ObjectGuid → Bool
  withinMeleeRange : ObjectGuid → Bool

def calculatePct (base : ℚ) (percent : Int) : ℚ := base * percent / 100

def Surroundings.calcThreat (w : Surroundings) (hatedUnit : ObjectGuid) (threat : ℚ) : ℚ :=
  if threat < 0 then threat else threat * w.threatModifier hatedUnit

namespace ThreatManager

def empty : ThreatManager := ⟨fun _ => ⟨.empty, 0, 0, false, false, false⟩, 0, [], [], none, false⟩

def getThreat (s : ThreatManager) (r : Nat) : ℚ := (s.refs r).iThreat + (s.refs r).iTempThreatModifier

def isOnline (s : ThreatManager) (r : Nat) : Bool := (s.refs r).iOnline

def unitOf (s : ThreatManager) (r : Nat) : ObjectGuid := (s.refs r).iUnitGuid

def listed (s : ThreatManager) : List Nat := s.iThreatContainer ++ s.iThreatOfflineContainer

def alterRef (s : ThreatManager) (r : Nat) (f : HostileReference → HostileReference) : ThreatManager :=
  { s with refs := Function.update s.refs r (f (s.refs r)) }

def setDirty (s : ThreatManager) (isDirty : Bool) : ThreatManager := { s with iDirty := isDirty }

def setCurrentVictim (s : ThreatManager) (r : Option Nat) : ThreatManager := { s with iCurrentVictim := r }

/-! ## Events -/

inductive ThreatRefStatusChangeEvent
  | threatChange (value : ℚ)
  | onlineStatus
  | removeFromList
  | accessibleStatus

/-- The victim may have lost threat, or another one may have gained some. -/
def disturbs (s : ThreatManager) (r : Nat) (value : ℚ) : Bool :=
  s.iCurrentVictim = some r && value < 0 || s.iCurrentVictim ≠ some r && 0 < value

/-- One that comes back may be above the victim by more than a tenth. -/
def outranks (s : ThreatManager) (r : Nat) : Bool :=
  s.iCurrentVictim.any fun victim => s.getThreat victim * (11 / 10) < s.getThreat r

def dropVictim (s : ThreatManager) (r : Nat) : ThreatManager :=
  if s.iCurrentVictim = some r then (s.setCurrentVictim none).setDirty true else s

def processThreatEvent (s : ThreatManager) (r : Nat) : ThreatRefStatusChangeEvent → ThreatManager
  | .threatChange value => if s.disturbs r value then s.setDirty true else s
  | .onlineStatus =>
    if !s.isOnline r then
      let s := s.dropVictim r
      { s with
        iThreatContainer := s.iThreatContainer.filter (· ≠ r)
        iThreatOfflineContainer := s.iThreatOfflineContainer ++ [r] }
    else
      let s := if s.outranks r then s.setDirty true else s
      { s with
        iThreatContainer := s.iThreatContainer ++ [r]
        iThreatOfflineContainer := s.iThreatOfflineContainer.filter (· ≠ r) }
  | .removeFromList =>
    let s := s.dropVictim r
    if s.isOnline r then { s with iThreatContainer := s.iThreatContainer.filter (· ≠ r) }
    else { s with iThreatOfflineContainer := s.iThreatOfflineContainer.filter (· ≠ r) }
  | .accessibleStatus => s

/-! ## References -/

def setAccessibleState (s : ThreatManager) (r : Nat) (isAccessible : Bool) : ThreatManager :=
  if (s.refs r).iAccessible ≠ isAccessible then
    (s.alterRef r fun ref => { ref with iAccessible := isAccessible }).processThreatEvent r .accessibleStatus
  else s

def setOnlineOfflineState (s : ThreatManager) (r : Nat) (isOnline : Bool) : ThreatManager :=
  if s.isOnline r ≠ isOnline then
    let s := s.alterRef r fun ref => { ref with iOnline := isOnline }
    let s := if !isOnline then s.setAccessibleState r false else s
    s.processThreatEvent r .onlineStatus
  else s

def removeReference (s : ThreatManager) (r : Nat) : ThreatManager :=
  let s := s.setOnlineOfflineState r false
  (s.alterRef r fun ref => { ref with valid := false }).processThreatEvent r .removeFromList

def addTempThreat (s : ThreatManager) (r : Nat) (threat : ℚ) : ThreatManager :=
  if threat = 0 then s
  else
    (s.alterRef r fun ref => { ref with iTempThreatModifier := ref.iTempThreatModifier + threat })
      |>.processThreatEvent r (.threatChange threat)

def setTempThreat (s : ThreatManager) (r : Nat) (threat : ℚ) : ThreatManager :=
  s.addTempThreat r (threat - (s.refs r).iTempThreatModifier)

def resetTempThreat (s : ThreatManager) (r : Nat) : ThreatManager :=
  s.addTempThreat r (-(s.refs r).iTempThreatModifier)

/-! ## Containers -/

def getReferenceByTarget (s : ThreatManager) (container : List Nat) (victim : ObjectGuid) : Option Nat :=
  container.find? fun r => s.unitOf r = victim

def addReference (s : ThreatManager) (victim : ObjectGuid) : ThreatManager :=
  { s with
    refs := Function.update s.refs s.next ⟨victim, 0, 0, true, true, true⟩
    next := s.next + 1
    iThreatContainer := s.iThreatContainer ++ [s.next] }

def update (s : ThreatManager) : ThreatManager :=
  { s with
    iThreatContainer :=
      if s.iDirty && 1 < s.iThreatContainer.length then
        s.iThreatContainer.insertionSort fun a b => s.getThreat b ≤ s.getThreat a
      else s.iThreatContainer
    iDirty := false }

def clearReferences (s : ThreatManager) : ThreatManager :=
  { s with
    iThreatContainer := []
    iThreatOfflineContainer := []
    iCurrentVictim := none }

section Surroundings

variable (w : Surroundings)

def updateOnlineStatus (s : ThreatManager) (r : Nat) : ThreatManager :=
  let s :=
    if !(s.refs r).valid && w.found (s.unitOf r) then s.alterRef r fun ref => { ref with valid := true }
    else s
  let target := s.unitOf r
  let online := (s.refs r).valid && w.reachable target && (w.accessible target || w.withinCombatRange target)
  let accessible := (s.refs r).valid && w.reachable target && w.accessible target
  (s.setAccessibleState r accessible).setOnlineOfflineState r online

/-! ## Adding threat -/

def addThreatRef (petOwner : ThreatManager → ObjectGuid → ThreatManager) (s : ThreatManager) (r : Nat)
    (modThreat : ℚ) : ThreatManager :=
  if modThreat = 0 then s
  else
    let s := s.alterRef r fun ref => { ref with iThreat := ref.iThreat + modThreat }
    let s := if !s.isOnline r then s.updateOnlineStatus w r else s
    let s := s.processThreatEvent r (.threatChange modThreat)
    if (s.refs r).valid && 0 < modThreat then (w.charmerOrOwner (s.unitOf r)).elim s (petOwner s) else s

/-- A unit with a reference in either container gets no second one. -/
def addThreatVictim (petOwner : ThreatManager → ObjectGuid → ThreatManager) (s : ThreatManager)
    (victim : ObjectGuid) (threat : ℚ) : ThreatManager :=
  match (s.getReferenceByTarget s.iThreatContainer victim).or
    (s.getReferenceByTarget s.iThreatOfflineContainer victim) with
  | some r => addThreatRef w petOwner s r threat
  | none =>
    let isFirst := s.iThreatContainer.isEmpty
    let r := s.next
    let s := addThreatRef w petOwner (s.addReference victim) r threat
    if w.isGameMaster victim then s.setOnlineOfflineState r false
    else if isFirst then s.setCurrentVictim (some r)
    else s

def doAddThreatWith (petOwner : ThreatManager → ObjectGuid → ThreatManager) (s : ThreatManager)
    (victim : ObjectGuid) (threat : ℚ) : ThreatManager :=
  let percent := w.redirectThreatPercent victim
  match if 0 < threat && percent ≠ 0 then w.redirectThreatTarget victim else none with
  | some target =>
    let redirectThreat := calculatePct threat percent
    let s := addThreatVictim w petOwner s target redirectThreat
    addThreatVictim w petOwner s victim (threat - redirectThreat)
  | none => addThreatVictim w petOwner s victim threat

def addThreatWith (petOwner : ThreatManager → ObjectGuid → ThreatManager) (s : ThreatManager)
    (victim : ObjectGuid) (threat : ℚ) : ThreatManager :=
  if w.isValidProcess victim then doAddThreatWith w petOwner s victim (w.calcThreat victim threat) else s

/-- An owner gets no threat from the pet, so the owner of the owner is not asked for. -/
def addThreatOwner (s : ThreatManager) (owner : ObjectGuid) : ThreatManager :=
  addThreatWith w (fun s _ => s) s owner 0

def doAddThreat (s : ThreatManager) (victim : ObjectGuid) (threat : ℚ) : ThreatManager :=
  doAddThreatWith w (addThreatOwner w) s victim threat

def addThreat (s : ThreatManager) (victim : ObjectGuid) (threat : ℚ) : ThreatManager :=
  addThreatWith w (addThreatOwner w) s victim threat

def addThreatPercent (s : ThreatManager) (r : Nat) (percent : Int) : ThreatManager :=
  addThreatRef w (addThreatOwner w) s r (calculatePct (s.refs r).iThreat percent)

def modifyThreatPercent (s : ThreatManager) (victim : ObjectGuid) (percent : Int) : ThreatManager :=
  (s.getReferenceByTarget s.iThreatContainer victim).elim s fun r => s.addThreatPercent w r percent

/-! ## Taunts -/

def tauntApply (s : ThreatManager) (taunter : ObjectGuid) : ThreatManager :=
  match s.iCurrentVictim, s.getReferenceByTarget s.iThreatContainer taunter with
  | some victim, some r =>
    if s.getThreat r < s.getThreat victim && (s.refs r).iTempThreatModifier = 0 then
      s.setTempThreat r (s.getThreat victim)
    else s
  | _, _ => s

def tauntFadeOut (s : ThreatManager) (taunter : ObjectGuid) : ThreatManager :=
  (s.getReferenceByTarget s.iThreatContainer taunter).elim s s.resetTempThreat

/-! ## Choosing the victim -/

inductive Scan
  | nothing
  | found (r : Nat)
  | onlySecondChoices (currentVictim : Option Nat)

/-- The victim is kept until one that is above it by enough stands before it. -/
def scan (s : ThreatManager) (noPriorityTargetFound : Bool) : List Nat → Option Nat → Scan
  | [], _ => .nothing
  | r :: rest, currentVictim =>
    if !noPriorityTargetFound && w.secondChoice (s.unitOf r) then
      if rest.isEmpty then .onlySecondChoices currentVictim
      else s.scan noPriorityTargetFound rest (if currentVictim = some r then none else currentVictim)
    else if w.canCreatureAttack (s.unitOf r) then
      match currentVictim with
      | none => .found r
      | some victim =>
        if victim = r || s.getThreat r ≤ s.getThreat victim * (11 / 10) then
          if victim ≠ r && w.canCreatureAttack (s.unitOf victim) then .found victim else .found r
        else if s.getThreat victim * (13 / 10) < s.getThreat r ||
            s.getThreat victim * (11 / 10) < s.getThreat r && w.withinMeleeRange (s.unitOf r) then
          .found r
        else s.scan noPriorityTargetFound rest currentVictim
    else s.scan noPriorityTargetFound rest currentVictim

def selectNextVictim (s : ThreatManager) : Option Nat :=
  match s.scan w false s.iThreatContainer s.iCurrentVictim with
  | .nothing => none
  | .found r => some r
  | .onlySecondChoices currentVictim =>
    match s.scan w true s.iThreatContainer currentVictim with
    | .found r => some r
    | _ => none

def getHostilTarget (s : ThreatManager) : ThreatManager :=
  let s := s.update
  s.setCurrentVictim (s.selectNextVictim w)

end Surroundings

end ThreatManager

end AshamaneCore
