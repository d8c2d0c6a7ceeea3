import Mathlib.Algebra.Order.Ring.Int
import Mathlib.Data.List.Basic
import Mathlib.Logic.Function.Basic
import Mathlib.Tactic.Common

/-!
# Loot

A loot has its items in two lists, and for every player four lists of entries
that point into them. An item that one player takes for all is marked itself,
and one that everybody takes for himself is marked in the entry of the player.
What `AllowedForPlayer`, the inventory and the dice answer is given.
-/

namespace AshamaneCore.Looting

def maxNrLootItems : Nat := 16

def maxNrQuestItems : Nat := 32

inductive LootMethod
  | freeForAll
  | masterLoot
  | groupLoot
  | personalLoot
  deriving DecidableEq

inductive PermissionTypes
  | all
  | group
  | master
  | restricted
  | owner
  | none
  deriving DecidableEq

inductive LootSlotType
  | allowLoot
  | rollOngoing
  | locked
  | master
  | owner
  deriving DecidableEq

structure ItemTemplate where
  multiDrop : Bool
  followLootRules : Bool
  quality : Nat
  currencyToken : Bool
  maxStackSize : Nat
  positive : 0 < maxStackSize

structure LootStoreItem where
  itemid : Nat
  currency : Bool
  needsQuest : Bool
  conditions : List Nat

structure LootItem where
  itemid : Nat
  count : Nat
  conditions : List Nat
  currency : Bool
  freeforall : Bool
  needsQuest : Bool
  followLootRules : Bool
  allowedGuids : List Nat
  isLooted : Bool
  isBlocked : Bool
  isUnderthreshold : Bool
  isCounted : Bool
  deriving DecidableEq

structure NotNormalLootItem where
  index : Nat
  isLooted : Bool
  deriving DecidableEq

inductive EntryKind
  | currency
  | quest
  | ffa
  | conditional
  deriving DecidableEq

structure Handout where
  player : Nat
  quest : Bool
  index : Nat
  item : LootItem
  asCurrency : Bool
  counter : Nat
  deriving DecidableEq

/-- The counter of items left is unsigned; what is counted is far too little for it to overflow. -/
structure Loot where
  items : List LootItem
  questItems : List LootItem
  gold : Nat
  unlootedCount : Nat
  roundRobinPlayer : Nat
  entries : EntryKind → Nat → List NotNormalLootItem
  history : List Handout

structure World where
  itemTemplate : Nat → Option ItemTemplate

namespace Loot

variable (loot : Loot)

def isLooted : Bool := loot.gold = 0 && loot.unlootedCount = 0

def item? (quest : Bool) (index : Nat) : Option LootItem :=
  if quest then loot.questItems[index]? else loot.items[index]?

def size (quest : Bool) : Nat := if quest then loot.questItems.length else loot.items.length

def mapItems (quest : Bool) (f : Nat → LootItem → LootItem) : Loot :=
  if quest then { loot with questItems := loot.questItems.mapIdx f }
  else { loot with items := loot.items.mapIdx f }

def setEntries (kind : EntryKind) (player : Nat) (list : List NotNormalLootItem) : Loot :=
  { loot with
    entries := Function.update loot.entries kind (Function.update (loot.entries kind) player list) }

end Loot

/-! ## Generation -/

section

variable (w : World)

def LootItem.ofStore (li : LootStoreItem) (count : Nat) : LootItem :=
  { itemid := li.itemid, count := count, conditions := li.conditions, currency := li.currency,
    freeforall := !li.currency && (w.itemTemplate li.itemid).any ItemTemplate.multiDrop,
    needsQuest := !li.currency && li.needsQuest,
    followLootRules := !li.currency && (w.itemTemplate li.itemid).any ItemTemplate.followLootRules,
    allowedGuids := [], isLooted := false, isBlocked := false, isUnderthreshold := false,
    isCounted := false }

/-- An entry that was rolled, with its count and whether the specialization of the player can use it. -/
structure Drop where
  item : LootStoreItem
  count : Nat
  usable : Bool

def pushItem (loot : Loot) (quest : Bool) (item : LootItem) : Loot :=
  if quest then { loot with questItems := loot.questItems ++ [item] }
  else { loot with items := loot.items ++ [item] }

def limit (quest : Bool) : Nat := if quest then maxNrQuestItems else maxNrLootItems

def countOrdinary (li : LootStoreItem) (proto : ItemTemplate) (loot : Loot) : Loot :=
  if !li.needsQuest && li.conditions.isEmpty && !proto.multiDrop then
    { loot with unlootedCount := loot.unlootedCount + 1 }
  else loot

def addStacks (li : LootStoreItem) (proto : ItemTemplate) : (n count : Nat) → Loot → Loot
  | 0, _, loot => loot
  | n + 1, count, loot =>
    if loot.size li.needsQuest < limit li.needsQuest then
      addStacks li proto n (count - proto.maxStackSize)
        (countOrdinary li proto
          (pushItem loot li.needsQuest (LootItem.ofStore w li (min count proto.maxStackSize))))
    else loot

def stacksOf (count : Nat) (proto : ItemTemplate) : Nat :=
  count / proto.maxStackSize + if count % proto.maxStackSize ≠ 0 then 1 else 0

def addItem (loot : Loot) (drop : Drop) : Loot :=
  if drop.item.currency then
    pushItem loot drop.item.needsQuest (LootItem.ofStore w drop.item drop.count)
  else match w.itemTemplate drop.item.itemid with
    | none => loot
    | some proto =>
      if drop.usable then addStacks w drop.item proto (stacksOf drop.count proto) drop.count loot
      else loot

def Loot.empty (gold : Nat) : Loot :=
  { items := [], questItems := [], gold := gold, unlootedCount := 0, roundRobinPlayer := 0,
    entries := fun _ _ => [], history := [] }

def generate (gold : Nat) (content : List Drop) : Loot := content.foldl (addItem w) (Loot.empty gold)

end

/-! ## Requests -/

/-- An item in a slot, and the position of the entry of the player that was met. -/
structure Found where
  quest : Bool
  index : Nat
  item : LootItem
  entry : Option Nat
  deriving DecidableEq

def LootItem.kind (quest : Bool) (item : LootItem) : EntryKind :=
  if quest then .quest else if item.currency then .currency
  else if item.freeforall then .ffa else .conditional

/-- One less in unsigned 32-bit arithmetic. -/
def decrement (n : Nat) : Nat := if n = 0 then 2 ^ 32 - 1 else n - 1

namespace Loot

variable (loot : Loot)

def entryInSlot (player slot : Nat) (item : LootItem) : Option Nat :=
  if item.currency || item.freeforall || !item.conditions.isEmpty then
    (loot.entries (item.kind false) player).findIdx? fun entry => entry.index = slot
  else none

def isLootedFor (player : Nat) (item : LootItem) (entry : Option Nat) : Bool :=
  match entry.bind fun position => (loot.entries (item.kind false) player)[position]? with
  | some entry => entry.isLooted
  | none => item.isLooted

def lootItemInSlot (slot player : Nat) : Option Found :=
  if loot.items.length ≤ slot then
    (loot.entries .quest player)[slot - loot.items.length]?.bind fun entry =>
    loot.questItems[entry.index]?.bind fun item =>
      if entry.isLooted then none else some ⟨true, entry.index, item, some (slot - loot.items.length)⟩
  else
    loot.items[slot]?.bind fun item =>
      if loot.isLootedFor player item (loot.entryInSlot player slot item) then none
      else some ⟨false, slot, item, loot.entryInSlot player slot item⟩

def getMaxSlotInLootFor (player : Nat) : Nat := loot.items.length + (loot.entries .quest player).length

def markEntry (player : Nat) (found : Found) : Loot :=
  match found.entry with
  | some position =>
    loot.setEntries (found.item.kind found.quest) player
      ((loot.entries (found.item.kind found.quest) player).modify position fun entry =>
        { entry with isLooted := true })
  | none => loot

def markItem (quest : Bool) (index : Nat) : Loot :=
  loot.mapItems quest fun i item => if i = index then { item with isLooted := true } else item

def handOut (player : Nat) (found : Found) (asCurrency : Bool) : Loot :=
  { loot with
    unlootedCount := decrement loot.unlootedCount
    history := loot.history ++
      [⟨player, found.quest, found.index, found.item, asCurrency, loot.unlootedCount⟩] }

end Loot

structure StoreRequest where
  player : Nat
  slot : Fin 256
  allowed : Bool
  canStore : Bool

/-- A currency that was generated for the player does not need room in the inventory. -/
def Found.asCurrency (found : Found) : Bool :=
  !found.quest && found.item.currency && found.entry.isSome

def checkStore (loot : Loot) (request : StoreRequest) : Option Found :=
  (loot.lootItemInSlot request.slot request.player).filter fun found =>
    request.allowed && (found.quest || !found.item.isBlocked) && (found.asCurrency || request.canStore)

def grant (loot : Loot) (player : Nat) (found : Found) : Loot :=
  if found.asCurrency then (loot.markEntry player found).handOut player found true
  else if found.item.freeforall then (loot.markEntry player found).handOut player found false
  else ((loot.markEntry player found).markItem found.quest found.index).handOut player found false

def storeLootItem (loot : Loot) (request : StoreRequest) : Loot :=
  match checkStore loot request with
  | none => loot
  | some found => grant loot request.player found

/-! ## Entries of the players -/

structure Attempt where
  seen : Bool
  allowed : Bool
  canStore : Bool

structure Member where
  guid : Nat
  allowed : LootItem → Bool
  present : Bool
  autoStore : Nat → Attempt

structure LootGroup where
  lootMethod : LootMethod
  masterLooterGuid : Nat
  lootThreshold : Nat
  members : List Member
  distinct : (members.map Member.guid).Nodup

/-- A group shows a quest item that follows its rules to everybody, or to the master looter. -/
def followsRules (group : Option LootGroup) (guid : Nat) (item : LootItem) : Bool :=
  item.followLootRules && group.any fun g =>
    g.lootMethod ≠ .masterLoot || g.masterLooterGuid = guid

def blocksQuestItems (group : Option LootGroup) : Bool := group.all fun g => g.lootMethod ≠ .groupLoot

section

variable (loot : Loot) (m : Member)

/-- The indices of the items that a loop with an index of eight bits comes to. -/
def indices (quest : Bool) (p : LootItem → Bool) : List Nat :=
  (List.range (min (loot.size quest) 256)).filter fun i =>
    (loot.item? quest i).any p

def newEntries (slots : List Nat) : List NotNormalLootItem := slots.map fun i => ⟨i, false⟩

def currencySlots : List Nat :=
  indices loot false fun item => !item.isLooted && item.currency && m.allowed item

def fillCurrencyLoot : Loot :=
  { loot.setEntries .currency m.guid (newEntries (currencySlots loot m)) with
    unlootedCount := loot.unlootedCount + (currencySlots loot m).length }

def ffaSlots : List Nat :=
  indices loot false fun item => !item.isLooted && item.freeforall && m.allowed item

def fillFFALoot : Loot :=
  { loot.setEntries .ffa m.guid (newEntries (ffaSlots loot m)) with
    unlootedCount := loot.unlootedCount + (ffaSlots loot m).length }

def seenQuestSlots (group : Option LootGroup) : List Nat :=
  indices loot true fun item => !item.isLooted && (m.allowed item || followsRules group m.guid item)

/-- The list ends when the loot shows as many slots as the client can. -/
def questSlots (group : Option LootGroup) : List Nat :=
  if loot.items.length = maxNrLootItems then []
  else if loot.items.length < maxNrLootItems then
    (seenQuestSlots loot m group).take (maxNrLootItems - loot.items.length)
  else seenQuestSlots loot m group

/-- A quest item is counted for everybody, or while it is not blocked. -/
def countsQuestItem (i : Nat) : Bool :=
  (loot.item? true i).any fun item => item.freeforall || !item.isBlocked

def blockQuestItem (group : Option LootGroup) (slots : List Nat) (i : Nat) (item : LootItem) : LootItem :=
  if blocksQuestItems group && slots.contains i then { item with isBlocked := true } else item

def fillQuestLoot (group : Option LootGroup) : Loot :=
  { (loot.setEntries .quest m.guid (newEntries (questSlots loot m group))).mapItems true
      (blockQuestItem group (questSlots loot m group)) with
    unlootedCount := loot.unlootedCount + (questSlots loot m group).countP (countsQuestItem loot) }

def sharedSlots : List Nat :=
  indices loot false fun item => !item.isLooted && !item.freeforall && m.allowed item

def conditionalSlots : List Nat :=
  (sharedSlots loot m).filter fun i => (loot.item? false i).any fun item => !item.conditions.isEmpty

def countsConditional (i : Nat) : Bool := (loot.item? false i).any fun item => !item.isCounted

def allowLooter (i : Nat) (item : LootItem) : LootItem :=
  if m.present && (sharedSlots loot m).contains i then
    { item with allowedGuids := m.guid :: item.allowedGuids }
  else item

def countConditional (i : Nat) (item : LootItem) : LootItem :=
  if (conditionalSlots loot m).contains i then { item with isCounted := true } else item

def fillNonQuestNonFFAConditionalLoot : Loot :=
  { (loot.setEntries .conditional m.guid (newEntries (conditionalSlots loot m))).mapItems false
      fun i item => countConditional loot m i (allowLooter loot m i item) with
    unlootedCount := loot.unlootedCount + (conditionalSlots loot m).countP (countsConditional loot) }

def unlessFilled (kind : EntryKind) (fill : Loot → Loot) : Loot :=
  if loot.entries kind m.guid = [] then fill loot else loot

def fillEntries (group : Option LootGroup) : Loot :=
  let currencies := unlessFilled loot m .currency fun l => fillCurrencyLoot l m
  let quests := unlessFilled currencies m .quest fun l => fillQuestLoot l m group
  let ffa := unlessFilled quests m .ffa fun l => fillFFALoot l m
  unlessFilled ffa m .conditional fun l => fillNonQuestNonFFAConditionalLoot l m

/-- The item that the loop over the slots looks at is a currency token for everybody. -/
def storesToken (w : World) (slot : Nat) : Bool :=
  let item := if slot < loot.items.length then loot.items[slot]?
    else loot.questItems[slot - loot.items.length]?
  item.any fun item => !item.isLooted && item.freeforall && (m.autoStore slot).seen &&
    (w.itemTemplate item.itemid).any ItemTemplate.currencyToken

def autoRequest (slot : Nat) : StoreRequest :=
  { player := m.guid, slot := ⟨slot % 256, Nat.mod_lt _ (by decide)⟩,
    allowed := (m.autoStore slot).allowed, canStore := (m.autoStore slot).canStore }

def autoStore (w : World) (loot : Loot) (slot : Nat) : Loot :=
  if storesToken loot m w slot then storeLootItem loot (autoRequest m slot) else loot

end

section

variable (w : World) (group : Option LootGroup)

/-- The slots that are looked through after the entries of a player were filled. -/
def autoSlots (loot : Loot) (m : Member) : List Nat :=
  if m.present then List.range ((fillEntries loot m group).getMaxSlotInLootFor m.guid) else []

def fillNotNormalLootFor (loot : Loot) (m : Member) : Loot :=
  (autoSlots group loot m).foldl (autoStore m w) (fillEntries loot m group)

/-- An index of eight bits comes to the end of the items, and of the quest items unless the list is
full before. -/
def loopsEnd (loot : Loot) (m : Member) : Bool :=
  loot.items.length < 256 && (loot.questItems.length < 256 || loot.items.length = maxNrLootItems ||
    (loot.items.length < maxNrLootItems &&
      maxNrLootItems - loot.items.length ≤ (seenQuestSlots loot m group).length))

def markThreshold (loot : Loot) : Loot :=
  match group with
  | some g =>
    loot.mapItems false fun _ item =>
      if (w.itemTemplate item.itemid).any fun proto => proto.quality < g.lootThreshold then
        { item with isUnderthreshold := true }
      else item
  | none => loot

/-- The players for whom a loot is filled, and whose rules hold for all of it. -/
def looters (owner : Member) (personal : Bool) : List Member :=
  match group with
  | some g => if personal then [{ owner with present := true }] else g.members
  | none => [{ owner with present := true }]

def fillAll (loot : Loot) (members : List Member) : Option Loot :=
  members.foldlM
    (fun l m => if loopsEnd group l m then some (fillNotNormalLootFor w group l m) else none) loot

/-- The loot after its template was processed, before the players get their entries. -/
def processed (gold : Nat) (content : List Drop) (owner : Member) (personal : Bool) : Loot :=
  if personal || group.isNone then generate w gold content
  else { generate w gold content with roundRobinPlayer := owner.guid }

def fillLoot (gold : Nat) (content : List Drop) (owner : Member) (personal : Bool) : Option Loot :=
  (fillAll w group (processed w group gold content owner personal) (looters group owner personal)).map fun loot =>
    if personal then loot else markThreshold w group loot

end

/-! ## Display -/

structure Viewer where
  guid : Nat
  allowed : LootItem → Bool
  isMasterLooter : Bool

structure LootItemData where
  slot : Nat
  uiType : LootSlotType
  itemid : Nat
  quantity : Nat
  deriving DecidableEq

section

variable (loot : Loot) (viewer : Viewer) (permission : PermissionTypes)

def getUITypeByPermission (item : LootItem) (slotType : LootSlotType) : LootSlotType :=
  match permission with
  | .master => .master
  | .restricted => if item.isBlocked then .locked else .allowLoot
  | .group => if item.isBlocked then .rollOngoing else .allowLoot
  | _ => slotType

def blockedType : LootSlotType :=
  match permission with
  | .group => .rollOngoing
  | .master => if viewer.isMasterLooter then .master else .locked
  | _ => .locked

def ordinaryType (item : LootItem) : Option LootSlotType :=
  match permission with
  | .none => none
  | .owner => some .owner
  | .all => some .allowLoot
  | .group | .master | .restricted =>
    if item.isBlocked then some (blockedType viewer permission)
    else if loot.roundRobinPlayer = 0 ∨ viewer.guid = loot.roundRobinPlayer ∨ item.isUnderthreshold = false then
      some .allowLoot
    else none

def slotData (slot : Nat) (item : LootItem) (uiType : LootSlotType) : LootItemData :=
  { slot := slot, uiType := uiType, itemid := item.itemid, quantity := item.count }

def ordinaryData (i : Nat) : Option LootItemData :=
  (loot.items[i]?.filter fun item => !item.isLooted && !item.currency && !item.freeforall &&
    item.conditions.isEmpty && viewer.allowed item).bind fun item =>
      (ordinaryType loot viewer permission item).map (slotData i item)

def ownType : LootSlotType := if permission = .owner then .owner else .allowLoot

def entryData (quest : Bool) (slot : Nat) (entry : NotNormalLootItem) (uiType : LootItem → LootSlotType) :
    Option LootItemData :=
  ((loot.item? quest entry.index).filter fun item => !entry.isLooted && !item.isLooted).map fun item =>
    slotData slot item (uiType item)

def typeOf (item : LootItem) : LootSlotType := getUITypeByPermission permission item (ownType permission)

def buildLootResponse : List LootItemData :=
  if permission = .none then []
  else
    (List.range (min loot.items.length 256)).filterMap (ordinaryData loot viewer permission) ++
    (loot.entries .currency viewer.guid).filterMap (fun entry =>
      entryData loot false entry.index entry (typeOf permission)) ++
    (loot.entries .quest viewer.guid).zipIdx.filterMap (fun (entry, i) =>
      entryData loot true (loot.items.length + i) entry fun item =>
        if item.followLootRules then typeOf permission item else ownType permission) ++
    (loot.entries .ffa viewer.guid).filterMap (fun entry =>
      entryData loot false entry.index entry fun _ => ownType permission) ++
    (loot.entries .conditional viewer.guid).filterMap fun entry =>
      entryData loot false entry.index entry (typeOf permission)

end

/-! ## Operations on a filled loot -/

inductive Operation
  | store (request : StoreRequest)
  | block (quest : Bool) (index : Nat)

def next (loot : Loot) : Operation → Loot
  | .store request => storeLootItem loot request
  | .block quest index =>
    loot.mapItems quest fun i item => if i = index then { item with isBlocked := true } else item

end AshamaneCore.Looting
