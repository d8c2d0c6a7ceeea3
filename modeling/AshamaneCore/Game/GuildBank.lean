import AshamaneCore.Game.Guild
import Mathlib.Data.Fintype.Prod
import Mathlib.Logic.Function.Basic

/-!
# The guild bank

Moves of items between the slots of the bank, and between the bank and a character, and
the withdrawal of money. Space is reserved first, in the named slot, in stacks of the same
item and in free slots; then the items are removed and stored.
-/

namespace AshamaneCore.Guilds

inductive InventoryResult
  | dropBoundItem
  | wrongBagType
  | cantStack
  | bankFull
  | inventory (code : Nat)
  deriving DecidableEq

/-- The inventory of the character, of which the bank knows these operations. -/
structure Inventory (ι : Type) where
  getItemByPos : ι → UInt8 → UInt8 → Option Item
  isNotEmptyBag : ι → Item → Bool
  canBeTraded : ι → Item → Bool
  canStoreItem : ι → UInt8 → UInt8 → Item → Bool → Except InventoryResult (List (UInt16 × UInt32))
  setCount : ι → UInt8 → UInt8 → UInt32 → ι
  moveItemFromInventory : ι → UInt8 → UInt8 → ι
  moveItemToInventory : ι → List (UInt16 × UInt32) → Item → ι

/-- The guild with the inventory of the acting character and the generator of item guids. -/
structure BankWorld (ι : Type) where
  guild : Guild
  inventory : ι
  nextItemGuid : Nat

/-- One side of a move: a slot of the bank, which may be left open, or one of the character. -/
inductive MoveItemData
  | bank (container : BankTabId) (slotId : Option BankSlotId)
  | player (container slotId : UInt8)
  deriving DecidableEq

namespace MoveItemData

abbrev Reserved : MoveItemData → Type
  | bank _ _ => List (BankSlotId × UInt32)
  | player _ _ => List (UInt16 × UInt32)

def sameTab : MoveItemData → MoveItemData → Bool
  | bank container _, bank other _ => container = other
  | _, _ => false

end MoveItemData

theorem one_le_maxTabs : 1 ≤ guildBankMaxTabs := by decide

/-! ## Rights and limits -/

namespace Guild

def getRankBankTabRights (g : Guild) (rankId tabId : UInt8) : Int8 :=
  ((g.getRankInfo rankId).map fun info => info.getBankTabRights tabId).getD 0

def getRankBankTabSlotsPerDay (g : Guild) (rankId tabId : UInt8) : Int32 :=
  if tabId < g.getPurchasedTabsSize then
    ((g.getRankInfo rankId).map fun info => info.getBankTabSlotsPerDay tabId).getD 0
  else 0

def getRankBankMoneyPerDay (g : Guild) (rankId : UInt8) : UInt32 :=
  ((g.getRankInfo rankId).map RankInfo.getBankMoneyPerDay).getD 0

/-- The difference is one of unsigned numbers, read as a signed one. -/
def getMemberRemainingSlots (g : Guild) (member : Member) (tabId : BankTabId) : Int32 :=
  if member.rankId = grGuildmaster then guildWithdrawSlotUnlimited.toInt32
  else if g.getRankBankTabRights member.rankId (UInt8.ofNat tabId.val) &&& guildBankRightViewTab ≠ 0 then
    let slots := g.getRankBankTabSlotsPerDay member.rankId (UInt8.ofNat tabId.val)
    let remaining := (slots.toUInt32 - member.bankWithdraw tabId).toInt32
    if remaining > 0 then remaining else 0
  else 0

def gold : UInt64 := 10000

def maxMoneyAmount : UInt64 := 99999999999

def getMemberRemainingMoney (g : Guild) (member : Member) : Int64 :=
  if member.rankId = grGuildmaster then Int64.maxValue
  else if g.getRankRights member.rankId &&& (grRightWithdrawRepair ||| grRightWithdrawGold) ≠ 0 then
    let limit := (g.getRankBankMoneyPerDay member.rankId).toUInt64 * gold
    let remaining := (limit - member.bankWithdrawMoney).toInt64
    if remaining > 0 then remaining else 0
  else 0

def memberHasTabRights (g : Guild) (guid : ObjectGuid) (tabId : BankTabId) (rights : Int8) : Bool :=
  match g.getMember guid with
  | some member =>
    member.rankId = grGuildmaster || g.leaderGuid = guid ||
      g.getRankBankTabRights member.rankId (UInt8.ofNat tabId.val) &&& rights = rights
  | none => false

end Guild

def Member.resetValues (member : Member) : Member :=
  { member with bankWithdraw := fun _ => 0, bankWithdrawMoney := 0 }

def Member.updateBankTabWithdrawValue (tabId : BankTabId) (amount : UInt32) (member : Member) : Member :=
  { member with
    bankWithdraw := Function.update member.bankWithdraw tabId (member.bankWithdraw tabId + amount) }

def Member.updateBankMoneyWithdrawValue (amount : UInt64) (member : Member) : Member :=
  { member with bankWithdrawMoney := member.bankWithdrawMoney + amount }

theorem Member.key_resetValues (member : Member) : member.resetValues.key = member.key := rfl

theorem Member.key_updateTab (tabId : BankTabId) (amount : UInt32) (member : Member) :
    (member.updateBankTabWithdrawValue tabId amount).key = member.key := rfl

theorem Member.key_updateMoney (amount : UInt64) (member : Member) :
    (member.updateBankMoneyWithdrawValue amount).key = member.key := rfl

namespace Guild

def resetTimes (g : Guild) : Guild :=
  { g with members := g.members.map Member.resetValues Member.key_resetValues }

def updateMemberWithdrawSlots (g : Guild) (guid : ObjectGuid) (tabId : BankTabId) : Guild :=
  { g with
    members := g.members.alter guid.toNat (Member.updateBankTabWithdrawValue tabId 1)
      (Member.key_updateTab tabId 1) }

def updateMemberWithdrawMoney (g : Guild) (guid : ObjectGuid) (amount : UInt64) : Guild :=
  { g with
    members := g.members.alter guid.toNat (Member.updateBankMoneyWithdrawValue amount)
      (Member.key_updateMoney amount) }

def withdrawMoney (g : Guild) (amount : UInt64) : Guild := { g with bankMoney := g.bankMoney - amount }

def getItem (g : Guild) (tabId : BankTabId) (slotId : BankSlotId) : Option Item :=
  if tabId.val < g.bankTabs.purchased then g.bankTabs.items (tabId, slotId) else none

def setItem (g : Guild) (pos : BankPos) (item : Option Item) : Guild :=
  { g with bankTabs := { g.bankTabs with items := Function.update g.bankTabs.items pos item } }

end Guild

/-! ## Reservation -/

section Bank

variable (getMaxStackCount : UInt32 → UInt32)

/-- None where the item in the slot is another one or its stack is full. -/
def requiredSpace (item : Item) (dest : Option Item) : Option UInt32 :=
  match dest with
  | none => some (getMaxStackCount item.entry)
  | some dest =>
    if dest.entry ≠ item.entry || dest.count ≥ getMaxStackCount item.entry then none
    else some (getMaxStackCount item.entry - dest.count)

/-- The places reserved so far and the count that still needs one. -/
structure Reserving where
  vec : List (BankSlotId × UInt32)
  count : UInt32

/-- None where the item in the slot cannot be used; a slot is reserved only once. -/
def Reserving.reserveSpace (r : Reserving) (slotId : BankSlotId) (item : Item) (dest : Option Item) :
    Option Reserving :=
  (requiredSpace getMaxStackCount item dest).map fun space =>
    if r.vec.any fun pos => pos.1 = slotId then r
    else ⟨r.vec ++ [(slotId, min space r.count)], r.count - min space r.count⟩

/-- A slot as the moved item sees it, whose own slot is taken for free. -/
def seenBy (item : Item) (dest : Option Item) : Option Item :=
  dest.filter fun dest => dest.guid ≠ item.guid

/-- One slot of the search for space, which merges with stacks or looks for free slots. -/
def Reserving.searchSlot (g : Guild) (container : BankTabId) (item : Item)
    (skipSlotId : Option BankSlotId) (merge : Bool) (r : Reserving) (slotId : BankSlotId) : Reserving :=
  if r.count = 0 || skipSlotId = some slotId ||
      (seenBy item (g.getItem container slotId)).isSome ≠ merge then r
  else
    (r.reserveSpace getMaxStackCount slotId item (seenBy item (g.getItem container slotId))).getD r

def Reserving.canStoreItemInTab (g : Guild) (container : BankTabId) (item : Item)
    (skipSlotId : Option BankSlotId) (merge : Bool) (r : Reserving) : Reserving :=
  (List.finRange guildBankMaxSlots).foldl
    (searchSlot getMaxStackCount g container item skipSlotId merge) r

/-- The named slot is reserved first; a swapped item leaves it free. -/
def reserveNamed (g : Guild) (container : BankTabId) (slotId : Option BankSlotId) (item : Item)
    (swap : Bool) : Option Reserving :=
  match slotId with
  | none => some ⟨[], item.count⟩
  | some slot =>
    (Reserving.mk [] item.count).reserveSpace getMaxStackCount slot item
      (if swap then none else seenBy item (g.getItem container slot))

def searchTab (g : Guild) (container : BankTabId) (slotId : Option BankSlotId) (item : Item)
    (r : Reserving) : Reserving :=
  (if getMaxStackCount item.entry > 1 then
      r.canStoreItemInTab getMaxStackCount g container item slotId true
    else r).canStoreItemInTab getMaxStackCount g container item slotId false

def Reserving.places (r : Reserving) : Except InventoryResult (List (BankSlotId × UInt32)) :=
  if r.count = 0 then .ok r.vec else .error .bankFull

def canStoreInBank (g : Guild) (container : BankTabId) (slotId : Option BankSlotId) (item : Item)
    (swap : Bool) : Except InventoryResult (List (BankSlotId × UInt32)) :=
  if item.soulBound then .error .dropBoundItem
  else if g.bankTabs.purchased ≤ container.val then .error .wrongBagType
  else
    match reserveNamed getMaxStackCount g container slotId item swap with
    | none => .error .cantStack
    | some r => (searchTab getMaxStackCount g container slotId item r).places

end Bank

/-! ## Moves -/

section Moves

variable {ι : Type} (inv : Inventory ι) (getMaxStackCount : UInt32 → UInt32)

namespace BankWorld

variable (w : BankWorld ι)

def initItem : MoveItemData → Option Item
  | .bank container (some slot) => w.guild.getItem container slot
  | .bank _ none => none
  | .player container slotId =>
    (inv.getItemByPos w.inventory container slotId).filter fun item =>
      !inv.isNotEmptyBag w.inventory item && inv.canBeTraded w.inventory item

def hasStoreRights (player : ObjectGuid) (side other : MoveItemData) : Bool :=
  match side with
  | .bank container _ =>
    side.sameTab other || w.guild.memberHasTabRights player container guildBankRightDepositItem
  | .player _ _ => true

def hasWithdrawRights (player : ObjectGuid) (side other : MoveItemData) : Bool :=
  match side with
  | .bank container _ =>
    side.sameTab other ||
      match w.guild.getMember player with
      | some member => w.guild.getMemberRemainingSlots member container ≠ 0
      | none => false
  | .player _ _ => true

def canStore (item : Item) (swap : Bool) :
    (side : MoveItemData) → Except InventoryResult side.Reserved
  | .bank container slotId => canStoreInBank getMaxStackCount w.guild container slotId item swap
  | .player container slotId => inv.canStoreItem w.inventory container slotId item swap

def cloneItem (item : Item) (count : UInt32) : Item × BankWorld ι :=
  ({ item with guid := w.nextItemGuid, count }, { w with nextItemGuid := w.nextItemGuid + 1 })

/-- The item is taken from its slot, in whole or in part; the tab it leaves counts against
the member's withdrawals of the day. -/
def removeItem (player : ObjectGuid) (item : Item) (other : MoveItemData) (splitedAmount : UInt32) :
    MoveItemData → BankWorld ι
  | .bank container (some slot) =>
    let rest := if splitedAmount ≠ 0 then some { item with count := item.count - splitedAmount } else none
    let guild := w.guild.setItem (container, slot) rest
    { w with
      guild :=
        if (MoveItemData.bank container (some slot)).sameTab other then guild
        else guild.updateMemberWithdrawSlots player container }
  | .bank _ none => w
  | .player container slotId =>
    { w with
      inventory :=
        if splitedAmount ≠ 0 then inv.setCount w.inventory container slotId (item.count - splitedAmount)
        else inv.moveItemFromInventory w.inventory container slotId }

/-- A stack in the slot grows; a free slot takes the item itself, or a clone while places remain. -/
def storeAt (container : BankTabId) (item : Item) (pos : BankSlotId × UInt32) (clone : Bool) :
    BankWorld ι :=
  match w.guild.getItem container pos.1 with
  | some dest =>
    { w with
      guild := w.guild.setItem (container, pos.1) (some { dest with count := dest.count + pos.2 }) }
  | none =>
    if clone then
      let (cloned, w) := w.cloneItem item pos.2
      { w with guild := w.guild.setItem (container, pos.1) (some cloned) }
    else { w with guild := w.guild.setItem (container, pos.1) (some { item with count := pos.2 }) }

def storeInBank (container : BankTabId) (item : Item) : BankWorld ι → List (BankSlotId × UInt32) → BankWorld ι
  | w, [] => w
  | w, pos :: rest => storeInBank container item (w.storeAt container item pos !rest.isEmpty) rest

def storeItem (item : Item) : (side : MoveItemData) → side.Reserved → BankWorld ι
  | .bank container _, vec => storeInBank container item w vec
  | .player _ _, vec => { w with inventory := inv.moveItemToInventory w.inventory vec item }

/-- The stored item is the source item or the clone of the part of it that moves. -/
def doItemsMove (player : ObjectGuid) (src dest : MoveItemData) (srcItem stored : Item)
    (destItem : Option Item) (splitedAmount : UInt32) : Except InventoryResult (BankWorld ι) :=
  match w.canStore inv getMaxStackCount stored destItem.isSome dest with
  | .error code => .error code
  | .ok destVec =>
    match destItem with
    | none =>
      .ok ((w.removeItem inv player srcItem dest splitedAmount src).storeItem inv stored dest destVec)
    | some destItem =>
      match w.canStore inv getMaxStackCount destItem true src with
      | .error code => .error code
      | .ok srcVec =>
        let removed := (w.removeItem inv player srcItem dest splitedAmount src).removeItem inv player
          destItem src 0 dest
        .ok ((removed.storeItem inv stored dest destVec).storeItem inv destItem src srcVec)

end BankWorld

inductive MoveOutcome
  | refused
  | moved
  | swapped
  deriving DecidableEq

/-- None where the amount is more than the stack; the whole stack is no split. -/
def Item.checkItem (item : Item) (splitedAmount : UInt32) : Option UInt32 :=
  if splitedAmount > item.count then none
  else some (if splitedAmount = item.count then 0 else splitedAmount)

namespace BankWorld

variable (w : BankWorld ι)

def moveSplit (player : ObjectGuid) (src dest : MoveItemData) (srcItem : Item) (splitedAmount : UInt32) :
    MoveOutcome × BankWorld ι :=
  let (cloned, w) := w.cloneItem srcItem splitedAmount
  match w.doItemsMove inv getMaxStackCount player src dest srcItem cloned none splitedAmount with
  | .ok moved => (.moved, moved)
  | .error _ => (.refused, w)

def swapItemsOf (player : ObjectGuid) (src dest : MoveItemData) (srcItem : Item) :
    MoveOutcome × BankWorld ι :=
  match w.initItem inv dest with
  | none => (.refused, w)
  | some destItem =>
    if !w.hasStoreRights player src dest || !w.hasWithdrawRights player dest src then (.refused, w)
    else
      match w.doItemsMove inv getMaxStackCount player src dest srcItem srcItem (some destItem) 0 with
      | .ok swapped => (.swapped, swapped)
      | .error _ => (.refused, w)

def moveItems (player : ObjectGuid) (src dest : MoveItemData) (splitedAmount : UInt32) :
    MoveOutcome × BankWorld ι :=
  match w.initItem inv src with
  | none => (.refused, w)
  | some srcItem =>
    match srcItem.checkItem splitedAmount with
    | none => (.refused, w)
    | some splitedAmount =>
      if !w.hasStoreRights player dest src || !w.hasWithdrawRights player src dest then (.refused, w)
      else if splitedAmount ≠ 0 then w.moveSplit inv getMaxStackCount player src dest srcItem splitedAmount
      else
        match w.doItemsMove inv getMaxStackCount player src dest srcItem srcItem none 0 with
        | .ok moved => (.moved, moved)
        | .error _ => w.swapItemsOf inv getMaxStackCount player src dest srcItem

/-- A slot of a purchased tab; the last byte value names no slot. -/
def bankTab? (tabId : UInt8) : Option BankTabId :=
  if h : tabId < w.guild.getPurchasedTabsSize ∧ tabId.toNat < guildBankMaxTabs then some ⟨tabId.toNat, h.2⟩
  else none

end BankWorld

def bankSlot? (slotId : UInt8) : Option BankSlotId :=
  if h : slotId.toNat < guildBankMaxSlots then some ⟨slotId.toNat, h⟩ else none

def nullSlot : UInt8 := 0xFF

namespace BankWorld

variable (w : BankWorld ι)

def swapItems (player : ObjectGuid) (tabId slotId destTabId destSlotId : UInt8) (splitedAmount : UInt32) :
    MoveOutcome × BankWorld ι :=
  match w.bankTab? tabId, bankSlot? slotId, w.bankTab? destTabId, bankSlot? destSlotId with
  | some tab, some slot, some destTab, some destSlot =>
    if tab = destTab && slot = destSlot then (.refused, w)
    else
      w.moveItems inv getMaxStackCount player (.bank tab (some slot)) (.bank destTab (some destSlot))
        splitedAmount
  | _, _, _, _ => (.refused, w)

def swapItemsWithInventory (player : ObjectGuid) (toChar : Bool)
    (tabId slotId playerBag playerSlotId : UInt8) (splitedAmount : UInt32) : MoveOutcome × BankWorld ι :=
  match w.bankTab? tabId with
  | none => (.refused, w)
  | some tab =>
    if (bankSlot? slotId).isNone && slotId ≠ nullSlot then (.refused, w)
    else if toChar then
      w.moveItems inv getMaxStackCount player (.bank tab (bankSlot? slotId)) (.player playerBag playerSlotId)
        splitedAmount
    else
      w.moveItems inv getMaxStackCount player (.player playerBag playerSlotId) (.bank tab (bankSlot? slotId))
        splitedAmount

/-- The character takes the money, unless it cannot hold it; a repair has no use for it. -/
def handleMemberWithdrawMoney (player : ObjectGuid) (amount : UInt64) (repair canHold : Bool) :
    Bool × BankWorld ι :=
  let amount := min amount Guild.maxMoneyAmount
  if w.guild.bankMoney < amount then (false, w)
  else
    match w.guild.getMember player with
    | none => (false, w)
    | some member =>
      if !w.guild.hasRankRight player (if repair then grRightWithdrawRepair else grRightWithdrawGold) then
        (false, w)
      else if w.guild.getMemberRemainingMoney member < amount.toInt64 then (false, w)
      else if !repair && !canHold then (false, w)
      else
        (true, { w with guild := (w.guild.updateMemberWithdrawMoney player amount).withdrawMoney amount })

end BankWorld

end Moves

end AshamaneCore.Guilds
