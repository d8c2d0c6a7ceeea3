import AshamaneCore.Game.PlayerMoney
import AshamaneCore.Library.KeyedSet
import Mathlib.Algebra.Order.Ring.Int
import Mathlib.Data.Fintype.Fin
import Mathlib.Logic.Function.Basic

/-!
# The trade windows of two players

A trade window names the offered items by their guids and resolves them in the
inventory of its owner whenever it is read. A change of a window takes the
acceptance of both sides back and draws a new state index.
-/

namespace AshamaneCore.Trades

open Library

inductive Trader
  | initiator
  | target
deriving DecidableEq

def Trader.other : Trader → Trader
  | .initiator => .target
  | .target => .initiator

@[simp] theorem Trader.other_other (t : Trader) : t.other.other = t := by
  cases t <;> rfl

theorem Trader.eq_or_eq_other (t u : Trader) : u = t ∨ u = t.other := by
  cases t <;> cases u <;> decide

abbrev tradeSlotCount : Nat := 7

abbrev tradeSlotTradedCount : Nat := 6

def tradeSlotNontraded : Fin tradeSlotCount := 6

/-- The slots whose items change hands, among all slots of the window. -/
def tradedSlot (i : Fin tradeSlotTradedCount) : Fin tradeSlotCount := i.castSucc

/-- An item lies in a slot of the player himself or of a bag, which the guid names. -/
structure Item where
  guid : Nat
  container : Option Nat
  slot : Nat
  count : Nat
  maxStackSize : Nat
  isBag : Bool
deriving DecidableEq

structure TradeData where
  accepted : Bool
  money : Nat
  spell : Nat
  spellCastItem : Option Nat
  items : Fin tradeSlotCount → Option Nat
  clientStateIndex : Nat
  serverStateIndex : Nat

def newTradeData : TradeData where
  accepted := false
  money := 0
  spell := 0
  spellCastItem := none
  items _ := none
  clientStateIndex := 1
  serverStateIndex := 1

abbrev Inventory := KeyedSet Item.guid

/-- The two players, what they trade, and how many random numbers the trades have drawn. -/
structure State where
  inventory : Trader → Inventory
  money : Trader → Nat
  deal : Option (Trader → TradeData)
  draws : Nat

def State.alter (s : State) (t : Trader) (f : TradeData → TradeData) : State :=
  { s with deal := s.deal.map fun data => Function.update data t (f (data t)) }

namespace TradeData

def hasItem (data : TradeData) (guid : Nat) : Bool := decide (∃ slot, data.items slot = some guid)

def getTradeSlotForItem (data : TradeData) (guid : Nat) : Option (Fin tradeSlotCount) :=
  (List.finRange tradeSlotCount).find? fun slot => data.items slot = some guid

end TradeData

def getItem (s : State) (data : TradeData) (t : Trader) (slot : Fin tradeSlotCount) : Option Item :=
  (data.items slot).bind (s.inventory t).find?

def setAccepted (s : State) (t : Trader) (accepted : Bool) : State :=
  s.alter t fun data => { data with accepted }

def bothUnaccepted (s : State) (t : Trader) : State := setAccepted (setAccepted s t false) t.other false

def updateClientStateIndex (s : State) (t : Trader) : State :=
  s.alter t fun data => { data with clientStateIndex := (data.clientStateIndex + 1) % 2 ^ 32 }

section

variable (rand32 : Nat → Nat)

def updateServerStateIndex (s : State) (t : Trader) : State :=
  { s.alter t fun data => { data with serverStateIndex := rand32 s.draws } with draws := s.draws + 1 }

def changeSpell (s : State) (t : Trader) (spell : Nat) (castItem : Option Nat) : State :=
  updateServerStateIndex rand32
    (bothUnaccepted (s.alter t fun data => { data with spell, spellCastItem := castItem }) t) t

def setSpell (s : State) (t : Trader) (spell : Nat) (castItem : Option Nat) : State :=
  match s.deal with
  | none => s
  | some data =>
    if (data t).spell = spell ∧ (data t).spellCastItem = castItem then s
    else changeSpell rand32 s t spell castItem

/-- The window gets the item, and spells that were meant for what changed are taken back. -/
def changeItem (s : State) (t : Trader) (slot : Fin tradeSlotCount) (guid : Option Nat) : State :=
  let changed := updateServerStateIndex rand32
    (bothUnaccepted (s.alter t fun data => { data with items := Function.update data.items slot guid }) t) t
  let untouched := if slot = tradeSlotNontraded then setSpell rand32 changed t.other 0 none else changed
  setSpell rand32 untouched t 0 none

def setItem (s : State) (t : Trader) (slot : Fin tradeSlotCount) (guid : Option Nat) (update : Bool) :
    State :=
  match s.deal with
  | none => s
  | some data =>
    if (data t).items slot = guid ∧ update = false then s
    else changeItem rand32 s t slot guid

def changeMoney (s : State) (t : Trader) (money : Nat) : State :=
  updateServerStateIndex rand32 (bothUnaccepted (s.alter t fun data => { data with money }) t) t

def setMoney (s : State) (t : Trader) (money : Nat) : State :=
  match s.deal with
  | none => s
  | some data =>
    if (data t).money = money then s
    else if money ≤ s.money t then changeMoney rand32 s t money
    else s

/-- What a new count of a stack does to the window its owner offers it in. -/
def refreshTrade (s : State) (t : Trader) (guid : Nat) : State :=
  match s.deal with
  | none => s
  | some data =>
    match (data t).getTradeSlotForItem guid with
    | none => s
    | some slot => setItem rand32 s t slot (some guid) true

end

/-! ## Who has accepted -/

def State.Accepted (s : State) (t : Trader) : Prop := ∃ data, s.deal = some data ∧ (data t).accepted = true

/-- Nobody has accepted, and what lies outside the windows is as before. -/
structure Reset (s s' : State) : Prop where
  unaccepted : ∀ t, ¬ s'.Accepted t
  inventory : s'.inventory = s.inventory
  money : s'.money = s.money

variable {s s' : State}

theorem Reset.trans {s'' : State} (h : Reset s s') (h' : Reset s' s'') : Reset s s'' where
  unaccepted := h'.unaccepted
  inventory := h'.inventory.trans h.inventory
  money := h'.money.trans h.money

@[simp] theorem alter_money (s : State) (t : Trader) (f : TradeData → TradeData) :
    (s.alter t f).money = s.money := rfl

theorem alter_deal (s : State) (t : Trader) (f : TradeData → TradeData) :
    (s.alter t f).deal = s.deal.map fun data => Function.update data t (f (data t)) := rfl

theorem accepted_alter {t u : Trader} {f : TradeData → TradeData}
    (hf : ∀ data, (f data).accepted = true → data.accepted = true) (h : (s.alter t f).Accepted u) :
    s.Accepted u := by
  obtain ⟨data, hData, hAccepted⟩ := h
  obtain ⟨old, hOld, rfl⟩ := Option.map_eq_some_iff.mp hData
  refine ⟨old, hOld, ?_⟩
  rcases eq_or_ne u t with rfl | hNe
  · rw [Function.update_self] at hAccepted
    exact hf _ hAccepted
  · rwa [Function.update_of_ne hNe] at hAccepted

theorem not_accepted_setAccepted {t u : Trader} (h : u = t ∨ ¬ s.Accepted u) :
    ¬ (setAccepted s t false).Accepted u := by
  intro hAccepted
  rcases h with rfl | hOld
  · obtain ⟨data, hData, hTrue⟩ := hAccepted
    obtain ⟨old, -, rfl⟩ := Option.map_eq_some_iff.mp hData
    rw [Function.update_self] at hTrue
    cases hTrue
  · exact hOld (accepted_alter (fun _ hFalse => by cases hFalse) hAccepted)

theorem reset_bothUnaccepted (s : State) (t : Trader) : Reset s (bothUnaccepted s t) := by
  refine ⟨fun u => ?_, rfl, rfl⟩
  rcases t.eq_or_eq_other u with rfl | rfl
  · exact not_accepted_setAccepted (Or.inr (not_accepted_setAccepted (Or.inl rfl)))
  · exact not_accepted_setAccepted (Or.inl rfl)

variable {rand32 : Nat → Nat}

theorem Reset.updateServerStateIndex (h : Reset s s') (t : Trader) :
    Reset s (updateServerStateIndex rand32 s' t) where
  unaccepted u hAccepted := by
    apply h.unaccepted u
    apply accepted_alter (t := t) (f := fun data => { data with serverStateIndex := rand32 s'.draws })
    · exact fun _ hTrue => hTrue
    · exact hAccepted
  inventory := h.inventory
  money := h.money

theorem reset_change (s : State) (t : Trader) (f : TradeData → TradeData) :
    Reset s (updateServerStateIndex rand32 (bothUnaccepted (s.alter t f) t) t) := by
  apply Reset.updateServerStateIndex
  obtain ⟨hUnaccepted, hInventory, hMoney⟩ := reset_bothUnaccepted (s.alter t f) t
  exact ⟨hUnaccepted, hInventory, hMoney⟩

theorem setSpell_cases (s : State) (t : Trader) (spell : Nat) (castItem : Option Nat) :
    setSpell rand32 s t spell castItem = s ∨ Reset s (setSpell rand32 s t spell castItem) := by
  rw [setSpell]
  cases s.deal with
  | none => exact Or.inl rfl
  | some data =>
    simp only
    split
    · exact Or.inl rfl
    · exact Or.inr (reset_change s t _)

theorem Reset.setSpell (h : Reset s s') (t : Trader) (spell : Nat) (castItem : Option Nat) :
    Reset s (setSpell rand32 s' t spell castItem) := by
  rcases @setSpell_cases rand32 s' t spell castItem with hSame | hReset
  · rwa [hSame]
  · exact h.trans hReset

theorem reset_changeItem (s : State) (t : Trader) (slot : Fin tradeSlotCount) (guid : Option Nat) :
    Reset s (changeItem rand32 s t slot guid) := by
  simp only [changeItem]
  apply Reset.setSpell
  split
  · exact (reset_change s t _).setSpell ..
  · exact reset_change s t _

theorem setItem_cases (s : State) (t : Trader) (slot : Fin tradeSlotCount) (guid : Option Nat)
    (update : Bool) :
    setItem rand32 s t slot guid update = s ∨ Reset s (setItem rand32 s t slot guid update) := by
  rw [setItem]
  cases s.deal with
  | none => exact Or.inl rfl
  | some data =>
    simp only
    split
    · exact Or.inl rfl
    · exact Or.inr (reset_changeItem s t slot guid)

theorem setMoney_cases (s : State) (t : Trader) (money : Nat) :
    setMoney rand32 s t money = s ∨ Reset s (setMoney rand32 s t money) := by
  rw [setMoney]
  cases s.deal with
  | none => exact Or.inl rfl
  | some data =>
    simp only
    split
    · exact Or.inl rfl
    · split
      · exact Or.inr (reset_change s t _)
      · exact Or.inl rfl

def State.Offered (s : State) (t : Trader) (guid : Nat) : Prop :=
  ∃ data slot, s.deal = some data ∧ (data t).items slot = some guid

theorem refreshTrade_cases (s : State) (t : Trader) (guid : Nat) :
    refreshTrade rand32 s t guid = s ∧ ¬ s.Offered t guid ∨ Reset s (refreshTrade rand32 s t guid) := by
  rw [refreshTrade]
  cases hDeal : s.deal with
  | none =>
    refine Or.inl ⟨rfl, fun hOffered => ?_⟩
    obtain ⟨data, -, hData, -⟩ := hOffered
    rw [hDeal] at hData
    cases hData
  | some data =>
    simp only
    cases hSlot : (data t).getTradeSlotForItem guid with
    | none =>
      refine Or.inl ⟨rfl, fun hOffered => ?_⟩
      obtain ⟨data', slot, hData, hItem⟩ := hOffered
      obtain rfl := Option.some.inj (hDeal.symm.trans hData)
      have hNone := List.find?_eq_none.mp hSlot slot (List.mem_finRange slot)
      exact hNone (decide_eq_true hItem)
    | some slot =>
      refine Or.inr ?_
      have hSet : setItem rand32 s t slot (some guid) true = changeItem rand32 s t slot (some guid) := by
        simp [setItem, hDeal]
      simp only [hSet]
      exact reset_changeItem s t slot _

end AshamaneCore.Trades

/-!
## The requests of two traders

The handlers of the trade packets, and the operations that change the inventory
of a trader while a window is open. Of these only a new stack count knows about the
windows. What an operation asks of code outside the trade is part of its request.
-/

namespace AshamaneCore.Trades

open Library Players

/-! ## Positions -/

/-- A slot of the player himself, or of the bag in one of his slots. -/
structure Pos where
  bag : Option Nat
  slot : Nat
deriving DecidableEq

def isBagPos (pos : Pos) : Bool :=
  pos.bag = none ∧ (19 ≤ pos.slot ∧ pos.slot < 23 ∨ 75 ≤ pos.slot ∧ pos.slot < 82)

def isEquipmentPos (pos : Pos) : Bool := pos.bag = none ∧ pos.slot < 23

namespace Inventory

def itemAt (inventory : Inventory) (container : Option Nat) (slot : Nat) : Option Item :=
  inventory.entries.find? fun item => item.container = container ∧ item.slot = slot

def getBagByPos (inventory : Inventory) (bag : Nat) : Option Item :=
  (itemAt inventory none bag).filter Item.isBag

def getItemByPos (inventory : Inventory) (pos : Pos) : Option Item :=
  match pos.bag with
  | none => itemAt inventory none pos.slot
  | some bag => (getBagByPos inventory bag).bind fun holder => itemAt inventory (some holder.guid) pos.slot

/-- The bag that the position names, or the player himself when it names none. -/
def containerOf (inventory : Inventory) (pos : Pos) : Option Nat :=
  pos.bag.bind fun bag => (getBagByPos inventory bag).map Item.guid

def without (inventory : Inventory) (guid : Nat) : Inventory :=
  inventory.filter fun item => item.guid ≠ guid ∧ item.container ≠ some guid

def withCount (inventory : Inventory) (guid count : Nat) : Inventory :=
  inventory.alter guid (fun item => { item with count }) fun _ => rfl

def relocate (inventory : Inventory) (guid : Nat) (container : Option Nat) (slot : Nat) : Inventory :=
  inventory.alter guid (fun item => { item with container, slot }) fun _ => rfl

def isEmptyBag (inventory : Inventory) (guid : Nat) : Bool :=
  inventory.entries.all fun item => item.container ≠ some guid

def rankIn (inventory : Inventory) (bag slot : Nat) : Nat :=
  (inventory.entries.filter fun item => item.container = some bag ∧ item.slot < slot).length

def moveContents (inventory : Inventory) (full empty : Nat) : Inventory :=
  inventory.map
    (fun item =>
      if item.container = some full then
        { item with container := some empty, slot := rankIn inventory full item.slot }
      else item)
    fun item => by
      split <;> rfl

end Inventory

open Inventory

def State.setInventory (s : State) (t : Trader) (inventory : Inventory) : State :=
  { s with inventory := Function.update s.inventory t inventory }

/-! ## Operations on the inventory -/

section

variable (rand32 : Nat → Nat)

def setCount (s : State) (t : Trader) (guid count : Nat) : State :=
  refreshTrade rand32 (s.setInventory t (withCount (s.inventory t) guid count)) t guid

def destroyItem (s : State) (t : Trader) (pos : Pos) : State :=
  match getItemByPos (s.inventory t) pos with
  | none => s
  | some item => s.setInventory t (without (s.inventory t) item.guid)

def moveItemFromInventory (s : State) (t : Trader) (pos : Pos) : State :=
  match getItemByPos (s.inventory t) pos with
  | none => s
  | some item => s.setInventory t (without (s.inventory t) item.guid)

/-- The stack is set on the item before it is put in its slot, and only a window of the
owner the item then has gets to know. -/
def storeInEmptySlot (s : State) (t : Trader) (pos : Pos) (item : Item) (count : Nat) (owned : Bool) :
    State :=
  let refreshed := if owned then refreshTrade rand32 s t item.guid else s
  refreshed.setInventory t ((refreshed.inventory t).assign
    { item with container := containerOf (s.inventory t) pos, slot := pos.slot, count })

def storeItem (s : State) (t : Trader) (pos : Pos) (item : Item) (count : Nat) (owned : Bool) : State :=
  match getItemByPos (s.inventory t) pos with
  | none => storeInEmptySlot rand32 s t pos item count owned
  | some other => setCount rand32 s t other.guid (other.count + count)

/-- An item goes to another slot of its player; the count is set again unless it is worn there. -/
def replaceItem (s : State) (t : Trader) (guid : Nat) (container : Option Nat) (pos : Pos) : State :=
  let refreshed := if isEquipmentPos pos then s else refreshTrade rand32 s t guid
  refreshed.setInventory t (relocate (refreshed.inventory t) guid container pos.slot)

def mergeItems (s : State) (t : Trader) (source dest : Item) : State :=
  setCount rand32 (s.setInventory t (without (s.inventory t) source.guid)) t dest.guid
    (dest.count + source.count)

def fillItem (s : State) (t : Trader) (source dest : Item) : State :=
  setCount rand32 (setCount rand32 s t source.guid (source.count + dest.count - source.maxStackSize)) t
    dest.guid source.maxStackSize

def bagExchange (inventory : Inventory) (src dst : Pos) (source dest : Item) : Option (Nat × Nat) :=
  if source.isBag && dest.isBag then
    if isEmptyBag inventory source.guid && !isBagPos src then some (dest.guid, source.guid)
    else if isEmptyBag inventory dest.guid && !isBagPos dst then some (source.guid, dest.guid)
    else none
  else none

def exchangeContents (s : State) (t : Trader) (src dst : Pos) (source dest : Item) : State :=
  match bagExchange (s.inventory t) src dst source dest with
  | none => s
  | some (full, empty) => s.setInventory t (moveContents (s.inventory t) full empty)

def exchangeItems (s : State) (t : Trader) (src dst : Pos) (source dest : Item) : State :=
  replaceItem rand32
    (replaceItem rand32 (exchangeContents s t src dst source dest) t source.guid
      (containerOf (s.inventory t) dst) dst)
    t dest.guid (containerOf (s.inventory t) src) src

/-- The answers of the checks that a swap makes before it touches anything. -/
structure SwapChecks where
  refused : Bool
  canMove : Bool
  canMerge : Bool
  canSwap : Bool

def absorbs (source dest : Item) (checks : SwapChecks) : Bool :=
  !source.isBag && !dest.isBag && checks.canMerge && decide (source.count + dest.count ≤ source.maxStackSize)

def swapOccupied (s : State) (t : Trader) (src dst : Pos) (source dest : Item) (checks : SwapChecks) :
    State :=
  if absorbs source dest checks then mergeItems rand32 s t source dest
  else if !source.isBag && !dest.isBag && checks.canMerge then fillItem rand32 s t source dest
  else if checks.canSwap then exchangeItems rand32 s t src dst source dest
  else s

/-- A swap that takes a child item along is a run of swaps of its own. -/
def swapItem (s : State) (t : Trader) (src dst : Pos) (checks : SwapChecks) : State :=
  if src = dst ∨ checks.refused = true then s
  else match getItemByPos (s.inventory t) src with
  | none => s
  | some source =>
    match getItemByPos (s.inventory t) dst with
    | none =>
      if checks.canMove then replaceItem rand32 s t source.guid (containerOf (s.inventory t) dst) dst else s
    | some dest => swapOccupied rand32 s t src dst source dest checks

/-! ## Handlers -/

/-- A player who has a trade already, or may not trade, opens none. -/
def handleInitiateTrade (s : State) (allowed : Bool) : State :=
  match s.deal with
  | some _ => s
  | none => if allowed then { s with deal := some fun _ => newTradeData } else s

def tradeCancel (s : State) : State := { s with deal := none }

def handleSetTradeGold (s : State) (t : Trader) (coinage : Nat) : State :=
  setMoney rand32 (updateClientStateIndex s t) t coinage

structure ItemChecks where
  canBeTraded : Bool
  isBindedNotWith : Bool

def offerItem (s : State) (t : Trader) (slot : Fin tradeSlotCount) (item : Item) (checks : ItemChecks) :
    State :=
  if slot ≠ tradeSlotNontraded ∧ checks.isBindedNotWith = true then updateClientStateIndex s t
  else setItem rand32 (updateClientStateIndex s t) t slot (some item.guid) false

def handleSetTradeItem (s : State) (t : Trader) (tradeSlot : Nat) (pos : Pos) (checks : ItemChecks) : State :=
  match s.deal with
  | none => s
  | some data =>
    if h : tradeSlot < tradeSlotCount then
      match getItemByPos (s.inventory t) pos with
      | none => s
      | some item =>
        if tradeSlot ≠ tradeSlotNontraded ∧ checks.canBeTraded = false then s
        else if (data t).hasItem item.guid then s
        else offerItem rand32 s t ⟨tradeSlot, h⟩ item checks
    else s

def handleClearTradeItem (s : State) (t : Trader) (tradeSlot : Nat) : State :=
  if h : tradeSlot < tradeSlotCount then
    setItem rand32 (updateClientStateIndex s t) t ⟨tradeSlot, h⟩ none false
  else updateClientStateIndex s t

def handleUnacceptTrade (s : State) (t : Trader) : State := setAccepted s t false

/-! ## Acceptance -/

/-- What an acceptance asks of the world, of the items, of the spells and of the bags. -/
structure AcceptChecks where
  isWithinDist : Bool
  canBeTraded : Item → Bool
  isBindedNotWith : Item → Bool
  canCast : Trader → Bool
  canStoreItems : Trader → Bool

/-- What changes hands: the items by slot and the gold of each side. -/
structure Exchange where
  items : Trader → Fin tradeSlotTradedCount → Option Item
  money : Trader → Nat

def offeredItems (s : State) (data : Trader → TradeData) (t : Trader)
    (i : Fin tradeSlotTradedCount) : Option Item := getItem s (data t) t (tradedSlot i)

/-- Only the items of the player who accepts are asked whether they are bound to him. -/
def itemsTradable (s : State) (data : Trader → TradeData) (t : Trader) (checks : AcceptChecks) : Bool :=
  (List.finRange tradeSlotTradedCount).all fun i =>
    ((offeredItems s data t i).all fun item => checks.canBeTraded item && !checks.isBindedNotWith item) &&
    (offeredItems s data t.other i).all checks.canBeTraded

def spellReady (s : State) (data : Trader → TradeData) (t : Trader) (checks : AcceptChecks) : Bool :=
  (getItem s (data t.other) t.other tradeSlotNontraded).isSome &&
  ((data t).spellCastItem.isNone || ((data t).spellCastItem.bind (s.inventory t).find?).isSome) &&
  checks.canCast t

def takeOffered (inventory : Inventory) (items : Fin tradeSlotTradedCount → Option Item) : Inventory :=
  (List.finRange tradeSlotTradedCount).foldl
    (fun rest i => ((items i).map fun item => without rest item.guid).getD rest) inventory

def moneyAfter (money given received : Nat) : Nat :=
  modifyMoney (modifyMoney money (-(asInt64 given))) (asInt64 received)

variable (moveItems : Trader → (Trader → Fin tradeSlotTradedCount → Option Item) →
  (Trader → Inventory) → Trader → Inventory)

def exchange (s : State) (data : Trader → TradeData) (t : Trader) : State × Option Exchange :=
  ({ s with
      inventory := moveItems t (offeredItems s data) fun u => takeOffered (s.inventory u) (offeredItems s data u)
      money := fun u => moneyAfter (s.money u) (data u).money (data u.other).money
      deal := none },
    some ⟨offeredItems s data, fun u => (data u).money⟩)

def completeTrade (s : State) (data : Trader → TradeData) (t : Trader) (checks : AcceptChecks) :
    State × Option Exchange :=
  if (data t).spell ≠ 0 ∧ spellReady s data t checks = false then (setSpell rand32 s t 0 none, none)
  else if (data t.other).spell ≠ 0 ∧ spellReady s data t.other checks = false then
    (setSpell rand32 s t.other 0 none, none)
  else if checks.canStoreItems t = false ∨ checks.canStoreItems t.other = false then
    (bothUnaccepted s t, none)
  else exchange moveItems s data t

/-- The checks of an acceptance, in the state in which the flag is already set. -/
def checkTrade (s : State) (data : Trader → TradeData) (t : Trader) (stateIndex : Nat)
    (checks : AcceptChecks) : State × Option Exchange :=
  if (data t.other).serverStateIndex ≠ stateIndex ∨ checks.isWithinDist = false ∨
      hasEnoughMoney (s.money t) (data t).money = false then (setAccepted s t false, none)
  else if hasEnoughMoney (s.money t.other) (data t.other).money = false then
    (setAccepted s t.other false, none)
  else if fitsLimit (s.money t) (data t.other).money = false then (setAccepted s t false, none)
  else if fitsLimit (s.money t.other) (data t).money = false then (setAccepted s t.other false, none)
  else if itemsTradable s data t checks = false then (s, none)
  else if (data t.other).accepted = false then (s, none)
  else completeTrade rand32 moveItems s data t checks

def handleAcceptTrade (s : State) (t : Trader) (stateIndex : Nat) (checks : AcceptChecks) :
    State × Option Exchange :=
  match s.deal with
  | none => (s, none)
  | some data => checkTrade rand32 moveItems (setAccepted s t true) data t stateIndex checks

end

/-! ## One request after another -/

inductive Request
  | initiateTrade (allowed : Bool)
  | cancelTrade
  | setTradeGold (t : Trader) (coinage : Nat)
  | setTradeItem (t : Trader) (tradeSlot : Nat) (pos : Pos) (checks : ItemChecks)
  | clearTradeItem (t : Trader) (tradeSlot : Nat)
  | setSpell (t : Trader) (spell : Nat) (castItem : Option Nat)
  | acceptTrade (t : Trader) (stateIndex : Nat) (checks : AcceptChecks)
  | unacceptTrade (t : Trader)
  | setCount (t : Trader) (guid count : Nat)
  | destroyItem (t : Trader) (pos : Pos)
  | moveItemFromInventory (t : Trader) (pos : Pos)
  | storeItem (t : Trader) (pos : Pos) (item : Item) (count : Nat) (owned : Bool)
  | swapItem (t : Trader) (src dst : Pos) (checks : SwapChecks)
  | modifyMoney (t : Trader) (amount : Int)

section

variable (rand32 : Nat → Nat) (moveItems : Trader → (Trader → Fin tradeSlotTradedCount → Option Item) →
  (Trader → Inventory) → Trader → Inventory)

def handle (s : State) : Request → State × Option Exchange
  | .initiateTrade allowed => (handleInitiateTrade s allowed, none)
  | .cancelTrade => (tradeCancel s, none)
  | .setTradeGold t coinage => (handleSetTradeGold rand32 s t coinage, none)
  | .setTradeItem t tradeSlot pos checks => (handleSetTradeItem rand32 s t tradeSlot pos checks, none)
  | .clearTradeItem t tradeSlot => (handleClearTradeItem rand32 s t tradeSlot, none)
  | .setSpell t spell castItem => (setSpell rand32 s t spell castItem, none)
  | .acceptTrade t stateIndex checks => handleAcceptTrade rand32 moveItems s t stateIndex checks
  | .unacceptTrade t => (handleUnacceptTrade s t, none)
  | .setCount t guid count => (setCount rand32 s t guid count, none)
  | .destroyItem t pos => (destroyItem s t pos, none)
  | .moveItemFromInventory t pos => (moveItemFromInventory s t pos, none)
  | .storeItem t pos item count owned => (storeItem rand32 s t pos item count owned, none)
  | .swapItem t src dst checks => (swapItem rand32 s t src dst checks, none)
  | .modifyMoney t amount =>
    ({ s with money := Function.update s.money t (modifyMoney (s.money t) amount) }, none)

def step (s : State) (r : Request) : State := (handle rand32 moveItems s r).1

end

end AshamaneCore.Trades
