import AshamaneCore.Common.Tokenizer
import Mathlib.Algebra.Ring.Nat
import Mathlib.Data.List.Chain

/-!
# What is stored of a player's flights

The known nodes are stored as decimal bytes, and the destinations of a flight as
the faction of the flight master and the nodes. A stored flight needs a path
between its nodes and a mount at its first one.
-/

namespace AshamaneCore

/-! ## Paths and mounts -/

def alliance : UInt32 := 469

def taxiMaskSize : Nat := 258

abbrev TaxiMask := Vector UInt8 taxiMaskSize

structure TaxiPathBySourceAndDestination where
  id : UInt32
  price : UInt32

structure TaxiNodesEntry where
  mountCreatureID : UInt32 × UInt32

structure CreatureTemplate where
  modelids : UInt32 × UInt32 × UInt32 × UInt32

structure TaxiStores where
  sTaxiPathSetBySource : UInt32 → Option (UInt32 → Option TaxiPathBySourceAndDestination)
  sTaxiNodesStore : UInt32 → Option TaxiNodesEntry
  sTaxiNodesMask : TaxiMask
  creatureTemplates : UInt32 → Option CreatureTemplate
  /-- The display of the other gender, where the display has a model. -/
  otherGender : UInt32 → Option UInt32

structure MountDraws where
  model : Nat
  gender : Bool

namespace TaxiStores

variable (stores : TaxiStores)

def getTaxiPath (source destination : UInt32) : UInt32 × UInt32 :=
  match stores.sTaxiPathSetBySource source with
  | none => (0, 0)
  | some pathSet =>
    match pathSet destination with
    | none => (0, 0)
    | some path => (path.id, path.price)

def getRandomValidModelId (template : CreatureTemplate) (draw : Nat) : UInt32 :=
  let (first, second, third, fourth) := template.modelids
  let modelIDs := [first, second, third, fourth].filter (· ≠ 0)
  modelIDs.getD (draw % modelIDs.length) 0

def getCreatureModelRandomGender (displayID : UInt32) (draw : Bool) : UInt32 :=
  match stores.otherGender displayID with
  | none => displayID
  | some other =>
    if other ≠ 0 ∧ draw = true then
      match stores.otherGender other with
      | none => displayID
      | some _ => other
    else displayID

def getTaxiMountDisplayId (draws : MountDraws) (id team : UInt32) (allowedAltTeam : Bool) : UInt32 :=
  let chosen : Option UInt32 :=
    match stores.sTaxiNodesStore id with
    | none => some 0
    | some node =>
      let (horde, allied) := node.mountCreatureID
      let own := if team = alliance then allied else horde
      let entry := if own = 0 ∧ allowedAltTeam = true then (if team = alliance then horde else allied) else own
      match stores.creatureTemplates entry with
      | none => some 0
      | some template =>
        let mount := getRandomValidModelId template draws.model
        if mount = 0 then none else some mount
  match chosen with
  | none => 0
  | some mount => stores.getCreatureModelRandomGender mount draws.gender

def Joined (source destination : UInt32) : Prop := (stores.getTaxiPath source destination).1 ≠ 0

instance (source destination : UInt32) : Decidable (stores.Joined source destination) :=
  inferInstanceAs (Decidable (_ ≠ _))

end TaxiStores

/-! ## The state of a player -/

structure PlayerTaxi where
  m_taximask : TaxiMask
  m_TaxiDestinations : List UInt32
  m_flightMasterFactionId : UInt32
  deriving DecidableEq

/-- The byte of a node in a mask. A node past 2048 shares the byte of an earlier one. -/
def taxiField (nodeidx : UInt32) : UInt8 := ((nodeidx - 1) / 8).toUInt8

def taxiSubmask (nodeidx : UInt32) : UInt32 := 1 <<< ((nodeidx - 1) % 8)

theorem taxiField_lt (nodeidx : UInt32) : (taxiField nodeidx).toNat < taxiMaskSize :=
  (taxiField nodeidx).toNat_lt.trans (by decide)

def isNodeInMask (mask : TaxiMask) (nodeidx : UInt32) : Prop :=
  (mask.get ⟨(taxiField nodeidx).toNat, taxiField_lt nodeidx⟩).toUInt32 &&& taxiSubmask nodeidx = taxiSubmask nodeidx

namespace PlayerTaxi

variable (stores : TaxiStores) (taxi : PlayerTaxi)

def isTaximaskNodeKnown (nodeidx : UInt32) : Prop := isNodeInMask taxi.m_taximask nodeidx

def getTaxiSource : UInt32 := taxi.m_TaxiDestinations.headD 0

def clearTaxiDestinations : PlayerTaxi := { taxi with m_TaxiDestinations := [] }

def addTaxiDestination (dest : UInt32) : PlayerTaxi :=
  { taxi with m_TaxiDestinations := taxi.m_TaxiDestinations ++ [dest] }

/-! ## The mask -/

def streamTaxiMask : List Char := (taxi.m_taximask.toList.map UInt8.toUInt32).flatMap spaced

def loadMaskFrom (nodes : TaxiMask) : Nat → List (List Char) → TaxiMask → TaxiMask
  | _, [], mask => mask
  | index, token :: rest, mask =>
    if h : index < taxiMaskSize then
      loadMaskFrom nodes (index + 1) rest (mask.set index (nodes[index].toUInt64 &&& atoul token).toUInt8)
    else mask

def loadTaxiMask (data : List Char) : PlayerTaxi :=
  { taxi with m_taximask := loadMaskFrom stores.sTaxiNodesMask 0 (Tokenizer data ' ') taxi.m_taximask }

/-! ## The destinations -/

def saveTaxiDestinationsToString : List Char :=
  if taxi.m_TaxiDestinations = [] then []
  else spaced taxi.m_flightMasterFactionId ++ taxi.m_TaxiDestinations.flatMap spaced

/-- The nodes from a position on. The loop ends where the position is the end of the tokens, and a token is read
at every other position; there is no result where none stands there. -/
def addTokens (tokens : List (List Char)) (iter : Nat) (taxi : PlayerTaxi) : Option PlayerTaxi :=
  if iter = tokens.length then some taxi
  else
    match h : tokens[iter]? with
    | none => none
    | some token => addTokens tokens (iter + 1) (taxi.addTaxiDestination (atoul token).toUInt32)
  termination_by tokens.length - iter
  decreasing_by
    have := (List.getElem?_eq_some_iff.mp h).1
    omega

def pathsExist : List UInt32 → Bool
  | source :: destination :: rest =>
    if (stores.getTaxiPath source destination).1 = 0 then false else pathsExist (destination :: rest)
  | _ => true

def checkDestinations (draws : MountDraws) (team : UInt32) : Bool :=
  if taxi.m_TaxiDestinations = [] then true
  else if taxi.m_TaxiDestinations.length < 2 then false
  else if pathsExist stores taxi.m_TaxiDestinations = false then false
  else if stores.getTaxiMountDisplayId draws taxi.getTaxiSource team true = 0 then false
  else true

def setFaction (taxi : PlayerTaxi) (faction : UInt32) : PlayerTaxi := { taxi with m_flightMasterFactionId := faction }

/-- The result and the player after the call, where no token past the end is read. The position is moved past the
faction whether there was one or not. -/
def loadTaxiDestinationsFromString (draws : MountDraws) (values : List Char) (team : UInt32) :
    Option (Bool × PlayerTaxi) :=
  let tokens := Tokenizer values ' '
  let cleared := taxi.clearTaxiDestinations
  let named := match tokens.head? with
    | none => cleared
    | some token => cleared.setFaction (atoul token).toUInt32
  (addTokens tokens 1 named).map (fun loaded => (loaded.checkDestinations stores draws team, loaded))

def onto (fresh : PlayerTaxi) : PlayerTaxi :=
  { fresh with
    m_TaxiDestinations := taxi.m_TaxiDestinations
    m_flightMasterFactionId := taxi.m_flightMasterFactionId }

/-! ## Loading what was saved -/

variable {stores taxi}

theorem addTokens_numbers (numbers : List UInt32) (before : List (List Char)) (loaded : PlayerTaxi) :
    addTokens (before ++ numbers.map (fun n => Nat.toDigits 10 n.toNat)) before.length loaded =
      some { loaded with m_TaxiDestinations := loaded.m_TaxiDestinations ++ numbers } := by
  induction numbers generalizing before loaded with
  | nil =>
    rw [addTokens]
    simp
  | cons n numbers ih =>
    have hNext := ih (before ++ [Nat.toDigits 10 n.toNat]) (loaded.addTaxiDestination n)
    rw [List.length_append, List.length_singleton, List.append_assoc, List.singleton_append] at hNext
    rw [addTokens, if_neg (by simp)]
    split
    · rename_i hNone
      simp at hNone
    · rename_i token hToken
      have hDigits : Nat.toDigits 10 n.toNat = token := by simpa using hToken
      subst hDigits
      rw [List.map_cons, atoul_toDigits, UInt32.toUInt32_toUInt64, hNext]
      simp [addTaxiDestination]

theorem addTokens_past (loaded : PlayerTaxi) : addTokens [] 1 loaded = none := by
  rw [addTokens]
  simp

theorem saveTaxiDestinationsToString_eq (hSome : taxi.m_TaxiDestinations ≠ []) :
    taxi.saveTaxiDestinationsToString = (taxi.m_flightMasterFactionId :: taxi.m_TaxiDestinations).flatMap spaced := by
  rw [saveTaxiDestinationsToString, if_neg hSome, List.flatMap_cons]

theorem loadTaxiDestinationsFromString_save (draws : MountDraws) (fresh : PlayerTaxi) (team : UInt32)
    (hSome : taxi.m_TaxiDestinations ≠ []) :
    fresh.loadTaxiDestinationsFromString stores draws taxi.saveTaxiDestinationsToString team =
      some (taxi.checkDestinations stores draws team, taxi.onto fresh) := by
  have hRead := addTokens_numbers taxi.m_TaxiDestinations [Nat.toDigits 10 taxi.m_flightMasterFactionId.toNat]
    (fresh.clearTaxiDestinations.setFaction taxi.m_flightMasterFactionId)
  rw [List.length_singleton, List.singleton_append] at hRead
  rw [loadTaxiDestinationsFromString, saveTaxiDestinationsToString_eq hSome, tokens_spaced]
  simp only [List.map_cons, List.head?_cons, atoul_toDigits, UInt32.toUInt32_toUInt64, hRead, Option.map_some]
  rfl

theorem load_save_empty (draws : MountDraws) (fresh : PlayerTaxi) (team : UInt32)
    (hNone : taxi.m_TaxiDestinations = []) :
    fresh.loadTaxiDestinationsFromString stores draws taxi.saveTaxiDestinationsToString team = none := by
  rw [saveTaxiDestinationsToString, if_pos hNone]
  simp [loadTaxiDestinationsFromString, Tokenizer, Tokenizer.scan, addTokens_past]

theorem pathsExist_of_isChain {nodes : List UInt32} (h : nodes.IsChain stores.Joined) :
    pathsExist stores nodes = true := by
  induction h with
  | nil => rfl
  | singleton => rfl
  | cons_cons hFirst _ ih => rw [pathsExist, if_neg hFirst, ih]

theorem checkDestinations_of_two {draws : MountDraws} {team : UInt32} (hTwo : 2 ≤ taxi.m_TaxiDestinations.length)
    (hPaths : taxi.m_TaxiDestinations.IsChain stores.Joined)
    (hMount : stores.getTaxiMountDisplayId draws taxi.getTaxiSource team true ≠ 0) :
    taxi.checkDestinations stores draws team = true := by
  have hSome : taxi.m_TaxiDestinations ≠ [] := by
    intro hNone
    rw [hNone] at hTwo
    cases hTwo
  rw [checkDestinations, if_neg hSome, if_neg (Nat.not_lt.mpr hTwo), pathsExist_of_isChain hPaths,
    if_neg (by decide), if_neg hMount]

theorem checkDestinations_of_one {draws : MountDraws} {team : UInt32} (hOne : taxi.m_TaxiDestinations.length = 1) :
    taxi.checkDestinations stores draws team = false := by
  have hSome : taxi.m_TaxiDestinations ≠ [] := by
    intro hNone
    rw [hNone] at hOne
    cases hOne
  rw [checkDestinations, if_neg hSome, if_pos (by omega)]

/-! ## Loading the mask -/

theorem loaded_byte (node byte : UInt8) :
    (node.toUInt64 &&& atoul (Nat.toDigits 10 byte.toUInt32.toNat)).toUInt8 = node &&& byte := by
  rw [atoul_toDigits]
  simp

theorem loadMaskFrom_get {nodes : TaxiMask} (bytes : List UInt8) (index : Nat) (mask : TaxiMask) (i : Nat)
    (hi : i < taxiMaskSize) :
    (loadMaskFrom nodes index ((bytes.map UInt8.toUInt32).map (fun n => Nat.toDigits 10 n.toNat)) mask)[i] =
      if index ≤ i ∧ i - index < bytes.length then nodes[i] &&& bytes.getD (i - index) 0 else mask[i] := by
  induction bytes generalizing index mask with
  | nil => simp [loadMaskFrom]
  | cons byte bytes ih =>
    simp only [List.map_cons, loadMaskFrom, loaded_byte]
    split
    · rename_i hIndex
      rw [ih (index + 1)]
      rcases Nat.lt_trichotomy i index with hBelow | rfl | hAbove
      · rw [if_neg (by omega), if_neg (by omega), Vector.getElem_set_ne _ _ (by omega)]
      · rw [if_neg (by omega), if_pos (by simp), Vector.getElem_set_self]
        simp
      · have hPlace : i - index = (i - (index + 1)) + 1 := by omega
        rw [hPlace, List.getD_cons_succ, List.length_cons, Vector.getElem_set_ne _ _ (by omega)]
        simp only [show index + 1 ≤ i ↔ index ≤ i by omega, Nat.add_lt_add_iff_right]
    · rw [if_neg (by omega)]

theorem loadTaxiMask_stream (fresh : PlayerTaxi) (i : Nat) (hi : i < taxiMaskSize) :
    (fresh.loadTaxiMask stores taxi.streamTaxiMask).m_taximask[i] = stores.sTaxiNodesMask[i] &&& taxi.m_taximask[i] := by
  have hLength : taxi.m_taximask.toList.length = taxiMaskSize := Vector.length_toList
  rw [loadTaxiMask, streamTaxiMask, tokens_spaced]
  simp only
  rw [loadMaskFrom_get, if_pos ⟨Nat.zero_le i, by omega⟩]
  simp [List.getD, hi]

theorem and_and_eq_iff (x y s : UInt32) : x &&& y &&& s = s ↔ x &&& s = s ∧ y &&& s = s := by
  constructor
  · intro h
    have hLeft : x &&& (x &&& y &&& s) = x &&& y &&& s := by
      rw [← UInt32.and_assoc, ← UInt32.and_assoc, UInt32.and_self]
    have hRight : y &&& (x &&& y &&& s) = x &&& y &&& s := by
      rw [UInt32.and_comm x y, ← UInt32.and_assoc, ← UInt32.and_assoc, UInt32.and_self]
    rw [h] at hLeft hRight
    exact ⟨hLeft, hRight⟩
  · rintro ⟨hx, hy⟩
    rw [UInt32.and_assoc, hy, hx]

theorem isNodeInMask_and {nodes known both : TaxiMask}
    (hBoth : ∀ i (hi : i < taxiMaskSize), both[i] = nodes[i] &&& known[i]) (nodeidx : UInt32) :
    isNodeInMask both nodeidx ↔ isNodeInMask nodes nodeidx ∧ isNodeInMask known nodeidx := by
  have hByte : both.get ⟨(taxiField nodeidx).toNat, taxiField_lt nodeidx⟩ =
      nodes.get ⟨(taxiField nodeidx).toNat, taxiField_lt nodeidx⟩ &&&
        known.get ⟨(taxiField nodeidx).toNat, taxiField_lt nodeidx⟩ := hBoth _ _
  simp only [isNodeInMask, hByte, UInt8.toUInt32_and]
  exact and_and_eq_iff _ _ _

/-- A flight of two nodes or more comes back and is accepted, and a single node comes back and is refused. What
stands in the loaded mask is what was known and exists. -/
theorem taxi_comes_back (stores : TaxiStores) (taxi fresh : PlayerTaxi) (draws : MountDraws) (team : UInt32) :
    (2 ≤ taxi.m_TaxiDestinations.length → taxi.m_TaxiDestinations.IsChain stores.Joined →
      stores.getTaxiMountDisplayId draws taxi.getTaxiSource team true ≠ 0 →
      fresh.loadTaxiDestinationsFromString stores draws taxi.saveTaxiDestinationsToString team =
        some (true, taxi.onto fresh)) ∧
    (taxi.m_TaxiDestinations.length = 1 →
      fresh.loadTaxiDestinationsFromString stores draws taxi.saveTaxiDestinationsToString team =
        some (false, taxi.onto fresh)) ∧
    (∀ i (hi : i < taxiMaskSize), (fresh.loadTaxiMask stores taxi.streamTaxiMask).m_taximask[i] =
      stores.sTaxiNodesMask[i] &&& taxi.m_taximask[i]) ∧
    ∀ nodeidx, taxi.isTaximaskNodeKnown nodeidx → isNodeInMask stores.sTaxiNodesMask nodeidx →
      (fresh.loadTaxiMask stores taxi.streamTaxiMask).isTaximaskNodeKnown nodeidx := by
  refine ⟨fun hTwo hPaths hMount => ?_, fun hOne => ?_, loadTaxiMask_stream fresh, fun nodeidx hKnown hNode => ?_⟩
  · have hSome : taxi.m_TaxiDestinations ≠ [] := List.ne_nil_of_length_pos (by omega)
    rw [loadTaxiDestinationsFromString_save draws fresh team hSome, checkDestinations_of_two hTwo hPaths hMount]
  · have hSome : taxi.m_TaxiDestinations ≠ [] := List.ne_nil_of_length_pos (by omega)
    rw [loadTaxiDestinationsFromString_save draws fresh team hSome, checkDestinations_of_one hOne]
  · exact (isNodeInMask_and (loadTaxiMask_stream fresh) nodeidx).mpr ⟨hNode, hKnown⟩

def onePath : TaxiStores where
  sTaxiPathSetBySource source :=
    if source = 2 then some (fun destination => if destination = 6 then some ⟨7, 110⟩ else none) else none
  sTaxiNodesStore id := if id = 2 then some ⟨(541, 541)⟩ else none
  sTaxiNodesMask := Vector.replicate taxiMaskSize 255
  creatureTemplates entry := if entry = 541 then some ⟨(1147, 0, 0, 0)⟩ else none
  otherGender _ := none

def flyingOver (nodes : List UInt32) : PlayerTaxi := ⟨Vector.replicate taxiMaskSize 1, nodes, 35⟩

theorem taxi_comes_back_two :
    (flyingOver []).loadTaxiDestinationsFromString onePath ⟨0, false⟩ (flyingOver [2, 6]).saveTaxiDestinationsToString
      alliance = some (true, flyingOver [2, 6]) :=
  (taxi_comes_back onePath (flyingOver [2, 6]) (flyingOver []) ⟨0, false⟩ alliance).1 (by decide) (by decide)
    (by decide)

/-- A list of one node is refused although its paths and its mount exist, and for an empty list a token past the
end is read. -/
theorem short_flights_not_loaded :
    ((flyingOver [2]).m_TaxiDestinations.IsChain onePath.Joined ∧
      onePath.getTaxiMountDisplayId ⟨0, false⟩ (flyingOver [2]).getTaxiSource alliance true ≠ 0 ∧
      (flyingOver []).loadTaxiDestinationsFromString onePath ⟨0, false⟩ (flyingOver [2]).saveTaxiDestinationsToString
        alliance = some (false, flyingOver [2])) ∧
    (flyingOver []).loadTaxiDestinationsFromString onePath ⟨0, false⟩ (flyingOver []).saveTaxiDestinationsToString
      alliance = none := by
  refine ⟨⟨by decide, by decide, ?_⟩, load_save_empty _ _ _ rfl⟩
  rw [loadTaxiDestinationsFromString_save _ _ _ (by decide), checkDestinations_of_one rfl]
  rfl

end PlayerTaxi

end AshamaneCore
