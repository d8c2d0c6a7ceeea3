import AshamaneCore.Game.Group
import AshamaneCore.Library.KeyedSet
import Mathlib.Data.List.GetD

/-!
# Rolls for the loot of a group

A roll keeps the votes of the players that may roll and counts them as they come. The
flag that blocks an item stands in the loot, the roll stands in the group.
-/

namespace AshamaneCore.Groups

open Library

inductive RollVote
  | pass
  | need
  | greed
  | disenchant
  | notEmitedYet
  | notValid
  deriving DecidableEq

/-- The vote a client asks for. Other numbers are no vote. -/
def RollVote.ofChoice (choice : UInt8) : Option RollVote :=
  if choice = 0 then some .pass
  else if choice = 1 then some .need
  else if choice = 2 then some .greed
  else if choice = 3 then some .disenchant
  else none

def RollVote.isGreed (vote : RollVote) : Bool := vote = .greed || vote = .disenchant

structure LootItem where
  itemid : UInt32
  isLooted : Bool
  isBlocked : Bool
  freeforall : Bool
  isUnderthreshold : Bool
  followLootRules : Bool
  deriving DecidableEq

structure Loot where
  items : List LootItem
  questItems : List LootItem
  small : items.length + questItems.length < 256

abbrev PlayerVote := KeyedSet fun entry : ObjectGuid × RollVote => entry.1.toNat

structure Roll where
  itemid : UInt32
  loot : Option ObjectGuid
  itemSlot : Nat
  playerVote : PlayerVote
  totalPlayersRolling : UInt8
  totalNeed : UInt8
  totalGreed : UInt8
  totalPass : UInt8

structure LinkedMembers where
  guids : List ObjectGuid
  nodup : guids.Nodup
  size : guids.length ≤ maxRaidSize

/-- Which items are rolled for, who may roll for an item and who passes on everything. -/
structure LootRules where
  overThreshold : UInt32 → Bool
  allowed : LootItem → ObjectGuid → Bool
  passOnGroupLoot : ObjectGuid → Bool

/-- What counting asks the world for, by the number of rolls the group still has. -/
structure Answers where
  connected : ObjectGuid → Bool
  urand : Nat → ObjectGuid → Fin 100
  canStore : Nat → ObjectGuid → Bool

structure RollTable where
  rollId : List Roll
  loots : ObjectGuid → Loot
  disbanded : Bool

structure Won where
  winner : ObjectGuid
  number : Nat
  vote : RollVote
  deriving DecidableEq

/-- A roll as it was when it was counted, and the winner that was announced. -/
structure Counted where
  roll : Roll
  won : Option Won

structure Turn where
  table : RollTable
  counted : List Counted

def Turn.followedBy (turn rest : Turn) : Turn := ⟨rest.table, turn.counted ++ rest.counted⟩

/-! ## Loot -/

namespace Loot

def slot (loot : Loot) (i : Nat) : Option LootItem :=
  if i ≥ loot.items.length then loot.questItems[i - loot.items.length]? else loot.items[i]?

def alterSlot (loot : Loot) (i : Nat) (f : LootItem → LootItem) : Loot :=
  if i ≥ loot.items.length then
    { loot with
      questItems := loot.questItems.modify (i - loot.items.length) f
      small := by simpa using loot.small }
  else
    { loot with
      items := loot.items.modify i f
      small := by simpa using loot.small }

end Loot

/-! ## One roll -/

namespace Roll

def new (item : LootItem) : Roll where
  itemid := item.itemid
  loot := none
  itemSlot := 0
  playerVote := .empty
  totalPlayersRolling := 0
  totalNeed := 0
  totalGreed := 0
  totalPass := 0

def addPlayer (roll : Roll) (guid : ObjectGuid) (passes : Bool) : Roll :=
  let roll := { roll with totalPlayersRolling := roll.totalPlayersRolling + 1 }
  if passes then
    { roll with playerVote := roll.playerVote.assign (guid, .pass), totalPass := roll.totalPass + 1 }
  else { roll with playerVote := roll.playerVote.assign (guid, .notEmitedYet) }

/-- The end test of a roll compares the sum of the totals with the number of players. -/
def complete (roll : Roll) : Bool :=
  roll.totalPass.toNat + roll.totalNeed.toNat + roll.totalGreed.toNat ≥ roll.totalPlayersRolling.toNat

def setVote (roll : Roll) (guid : ObjectGuid) (vote : RollVote) : Roll :=
  { roll with playerVote := roll.playerVote.alter guid.toNat (fun entry => (entry.1, vote)) fun _ => rfl }

def countVote (roll : Roll) (guid : ObjectGuid) : RollVote → Roll
  | .pass => { roll with totalPass := roll.totalPass + 1 }.setVote guid .pass
  | .need => { roll with totalNeed := roll.totalNeed + 1 }.setVote guid .need
  | .greed => { roll with totalGreed := roll.totalGreed + 1 }.setVote guid .greed
  | .disenchant => { roll with totalGreed := roll.totalGreed + 1 }.setVote guid .disenchant
  | .notEmitedYet | .notValid => roll

/-- The vote of a client, whatever it has voted before. -/
def voted (roll : Roll) (guid : ObjectGuid) (choice : UInt8) : Roll :=
  match RollVote.ofChoice choice with
  | some vote => roll.countVote guid vote
  | none => roll

def withdraw (roll : Roll) (guid : ObjectGuid) (vote : RollVote) : Roll :=
  let roll :=
    match vote with
    | .greed | .disenchant => { roll with totalGreed := roll.totalGreed - 1 }
    | .need => { roll with totalNeed := roll.totalNeed - 1 }
    | .pass => { roll with totalPass := roll.totalPass - 1 }
    | .notEmitedYet | .notValid => roll
  let roll :=
    if vote ≠ .notValid then { roll with totalPlayersRolling := roll.totalPlayersRolling - 1 } else roll
  { roll with playerVote := roll.playerVote.erase guid.toNat }

def highest (wanted : RollVote → Bool) (urand : ObjectGuid → Fin 100) (first : ObjectGuid)
    (votes : List (ObjectGuid × RollVote)) : Won :=
  votes.foldl (fun best entry =>
    if wanted entry.2 && best.number < (urand entry.1).val + 1 then
      ⟨entry.1, (urand entry.1).val + 1, entry.2⟩
    else best) ⟨first, 0, .notValid⟩

/-- What becomes of the item: it goes to the winner, or back to everyone if the winner
has no room. -/
def award (stores : Bool) (item : LootItem) : LootItem :=
  if stores then { item with isLooted := true } else { item with isBlocked := false }

def settle (answers : Answers) (left : Nat) (roll : Roll) : Option Won × (LootItem → LootItem) :=
  if roll.totalNeed > 0 then
    match roll.playerVote.entries with
    | [] => (none, id)
    | first :: _ =>
      let best := highest (· = .need) (answers.urand left) first.1 roll.playerVote.entries
      (some { best with vote := .need },
        if answers.connected best.winner then award (answers.canStore left best.winner) else id)
  else if roll.totalGreed > 0 then
    match roll.playerVote.entries with
    | [] => (none, id)
    | first :: _ =>
      let best := highest RollVote.isGreed (answers.urand left) first.1 roll.playerVote.entries
      (some best,
        if answers.connected best.winner then
          if best.vote = .greed then award (answers.canStore left best.winner)
          else if best.vote = .disenchant then award true
          else id
        else id)
  else (none, fun item => { item with isBlocked := false })

end Roll

/-! ## The rolls of a group -/

namespace RollTable

def countTheRoll (answers : Answers) (t : RollTable) (i : Fin t.rollId.length) : Turn :=
  let roll := t.rollId.get i
  match roll.loot with
  | none => ⟨{ t with rollId := t.rollId.eraseIdx i }, [⟨roll, none⟩]⟩
  | some guid =>
    let outcome := roll.settle answers t.rollId.length
    ⟨{ t with
        rollId := t.rollId.eraseIdx i
        loots := Function.update t.loots guid ((t.loots guid).alterSlot roll.itemSlot outcome.2) },
      [⟨roll, outcome.1⟩]⟩

@[simp] theorem countTheRoll_rollId (answers : Answers) (t : RollTable) (i : Fin t.rollId.length) :
    (t.countTheRoll answers i).table.rollId = t.rollId.eraseIdx i := by
  unfold countTheRoll
  dsimp only
  split <;> rfl

def getRoll (t : RollTable) (lootObjectGuid : ObjectGuid) (lootListId : UInt8) :
    Option (Fin t.rollId.length) :=
  t.rollId.findFinIdx? fun roll => roll.loot = some lootObjectGuid && roll.itemSlot = lootListId.toNat

def setRoll (t : RollTable) (i : Fin t.rollId.length) (roll : Roll) : RollTable :=
  { t with rollId := t.rollId.set i roll }

@[simp] theorem setRoll_rollId (t : RollTable) (i : Fin t.rollId.length) (roll : Roll) :
    (t.setRoll i roll).rollId = t.rollId.set i roll := rfl

def countChanged (answers : Answers) (t : RollTable) (i : Fin t.rollId.length) (roll : Roll) : Turn :=
  (t.setRoll i roll).countTheRoll answers ⟨i, i.isLt.trans_eq List.length_set.symm⟩

theorem countChanged_rollId (answers : Answers) (t : RollTable) (i : Fin t.rollId.length) (roll : Roll) :
    (t.countChanged answers i roll).table.rollId = t.rollId.eraseIdx i :=
  (countTheRoll_rollId ..).trans List.eraseIdx_set_eq

def countRollVote (answers : Answers) (t : RollTable) (playerGuid lootObjectGuid : ObjectGuid)
    (lootListId choice : UInt8) : Turn :=
  match t.getRoll lootObjectGuid lootListId with
  | none => ⟨t, []⟩
  | some i =>
    let roll := t.rollId.get i
    if !roll.playerVote.contains playerGuid.toNat then ⟨t, []⟩
    else if (t.loots lootObjectGuid).items = [] then ⟨t, []⟩
    else
      let voted := roll.voted playerGuid choice
      if voted.complete then t.countChanged answers i voted else ⟨t.setRoll i voted, []⟩

/-- One pass of the timer: the first roll for the loot is counted and the search starts
again, as often as there are rolls. -/
def endRollFrom (answers : Answers) (loot : ObjectGuid) : Nat → RollTable → Turn
  | 0, t => ⟨t, []⟩
  | fuel + 1, t =>
    match t.rollId.findFinIdx? fun roll => roll.loot = some loot with
    | none => ⟨t, []⟩
    | some i =>
      let turn := t.countTheRoll answers i
      turn.followedBy (endRollFrom answers loot fuel turn.table)

def endRoll (answers : Answers) (t : RollTable) (loot : ObjectGuid) : Turn :=
  endRollFrom answers loot t.rollId.length t

def countWithdrawn (answers : Answers) (t : RollTable) (i : Fin t.rollId.length) (guid : ObjectGuid)
    (vote : RollVote) : Turn :=
  t.countChanged answers i ((t.rollId.get i).withdraw guid vote)

/-- The votes of a removed member are withdrawn roll by roll. Counting a roll takes it out
and restarts at the front, which is then stepped over; where nothing is left, the step
leads past the end of the rolls and has no meaning. -/
def removeVotes (answers : Answers) (guid : ObjectGuid) (t : RollTable) (i : Nat) : Option Turn :=
  if h : i < t.rollId.length then
    match (t.rollId.get ⟨i, h⟩).playerVote.find? guid.toNat with
    | none => removeVotes answers guid t (i + 1)
    | some entry =>
      if ((t.rollId.get ⟨i, h⟩).withdraw guid entry.2).complete then
        if t.rollId.eraseIdx i = [] then none
        else (removeVotes answers guid (t.countWithdrawn answers ⟨i, h⟩ guid entry.2).table 1).map
          (t.countWithdrawn answers ⟨i, h⟩ guid entry.2).followedBy
      else removeVotes answers guid (t.setRoll ⟨i, h⟩ ((t.rollId.get ⟨i, h⟩).withdraw guid entry.2)) (i + 1)
  else some ⟨t, []⟩
termination_by (t.rollId.length, t.rollId.length - i)
decreasing_by
  · exact Prod.Lex.right _ (by omega)
  · apply Prod.Lex.left
    rw [countWithdrawn, countChanged_rollId, List.length_eraseIdx_of_lt h]
    omega
  · rw [setRoll_rollId, List.length_set]
    exact Prod.Lex.right _ (by omega)

/-! ## Making rolls -/

def rollFor (members : LinkedMembers) (rules : LootRules) (passes : ObjectGuid → Bool) (item : LootItem) :
    Roll :=
  members.guids.foldl (fun roll guid =>
    if rules.allowed item guid then roll.addPlayer guid (passes guid) else roll) (Roll.new item)

/-- The item is blocked for its roll, unless nobody may roll for it. -/
def startRoll (loot : ObjectGuid) (slot : Nat) (item : LootItem) (roll : Roll) : LootItem × Option Roll :=
  if roll.totalPlayersRolling > 0 then
    ({ item with isBlocked := true }, some { roll with loot := some loot, itemSlot := slot })
  else (item, none)

def rollForItem (members : LinkedMembers) (rules : LootRules) (loot : ObjectGuid) (slot : Nat)
    (item : LootItem) : LootItem × Option Roll :=
  if item.freeforall then (item, none)
  else if rules.overThreshold item.itemid then
    startRoll loot slot item (rollFor members rules rules.passOnGroupLoot item)
  else ({ item with isUnderthreshold := true }, none)

/-- Quest items have no threshold, and nobody passes on them beforehand. -/
def rollForQuestItem (members : LinkedMembers) (rules : LootRules) (loot : ObjectGuid) (slot : Nat)
    (item : LootItem) : LootItem × Option Roll :=
  if item.followLootRules then startRoll loot slot item (rollFor members rules (fun _ => false) item)
  else (item, none)

def groupLoot (members : LinkedMembers) (rules : LootRules) (t : RollTable) (guid : ObjectGuid) : RollTable :=
  let loot := t.loots guid
  let items := loot.items.mapIdx (rollForItem members rules guid)
  let questItems := loot.questItems.mapIdx fun i => rollForQuestItem members rules guid (loot.items.length + i)
  { t with
    rollId := t.rollId ++ (items ++ questItems).filterMap Prod.snd
    loots := Function.update t.loots guid
      { items := items.map Prod.fst
        questItems := questItems.map Prod.fst
        small := by simpa [items, questItems] using loot.small } }

def disband (t : RollTable) : RollTable := { t with rollId := [], disbanded := true }

/-- A loot is cleared, which its rolls are told, and is filled again. -/
def replaceLoot (t : RollTable) (guid : ObjectGuid) (loot : Loot) : RollTable :=
  { t with
    rollId := t.rollId.map fun roll => if roll.loot = some guid then { roll with loot := none } else roll
    loots := Function.update t.loots guid loot }

end RollTable

/-! ## Removing a member -/

inductive Removal
  | refused
  | dropped (disbands : Bool)
  | disbanded
  deriving DecidableEq

def Group.removal (g : Group) (around : Surroundings) (guid : ObjectGuid) (method : RemoveMethod) : Removal :=
  if g.isLFGGroup && method = .kick then .refused
  else if g.survivesRemoval then .dropped (g.dropMember around guid).isNone
  else .disbanded

namespace RollTable

def removeMember (answers : Answers) (t : RollTable) (removal : Removal) (guid : ObjectGuid) : Option Turn :=
  match removal with
  | .refused => some ⟨t, []⟩
  | .dropped disbands => (removeVotes answers guid t 0).map fun turn =>
      if disbands then ⟨turn.table.disband, turn.counted⟩ else turn
  | .disbanded => some ⟨t.disband, []⟩

end RollTable

inductive LootAction
  | groupLoot (members : LinkedMembers) (rules : LootRules) (loot : ObjectGuid)
  | countRollVote (answers : Answers) (player loot : ObjectGuid) (lootListId choice : UInt8)
  | endRoll (answers : Answers) (loot : ObjectGuid)
  | removeMember (answers : Answers) (removal : Removal) (guid : ObjectGuid)
  | disband
  | replaceLoot (guid : ObjectGuid) (loot : Loot)

/-- A group that is gone takes part in nothing; loots come and go without it. -/
def act (t : RollTable) : LootAction → Option Turn
  | .replaceLoot guid loot => some ⟨t.replaceLoot guid loot, []⟩
  | action =>
    if t.disbanded then some ⟨t, []⟩
    else match action with
      | .groupLoot members rules loot => some ⟨t.groupLoot members rules loot, []⟩
      | .countRollVote answers player loot lootListId choice =>
        some (t.countRollVote answers player loot lootListId choice)
      | .endRoll answers loot => some (t.endRoll answers loot)
      | .removeMember answers removal guid => t.removeMember answers removal guid
      | .disband => some ⟨t.disband, []⟩
      | .replaceLoot guid loot => some ⟨t.replaceLoot guid loot, []⟩

end AshamaneCore.Groups
