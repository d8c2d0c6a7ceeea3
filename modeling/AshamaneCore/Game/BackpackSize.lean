import AshamaneCore.Game.DestroyItemCount
import AshamaneCore.Library.Batches
import AshamaneCore.Library.KeyedSet
import Mathlib.Data.List.Nodup

/-!
# The size of the backpack

`SetInventorySlotCount` mails what lies in the slots that are taken away, in batches of
`MAX_MAIL_ITEMS`. The mails go to the player, who is online.
-/

namespace AshamaneCore.Backpack

open Library PlayerItems

def maxMailItems : Nat := 12

structure Item where
  guid : Nat
  entry : Nat
  deriving DecidableEq

/-! ## Mails -/

inductive MailMessageType
  | normal
  | auction
  | creature
  | gameobject
  | calendar
  deriving DecidableEq

inductive MailStationery
  | default
  | gm
  deriving DecidableEq

structure MailSender where
  messageType : MailMessageType
  senderId : Nat
  stationery : MailStationery

structure MailHead where
  messageID : Nat
  messageType : MailMessageType
  stationery : MailStationery
  mailTemplateId : Nat
  sender : Nat
  receiver : Nat
  subject : String
  body : String
  expireTime : Nat
  deliverTime : Nat
  money : Nat
  cod : Nat
  checked : Nat

structure MailItemInfo where
  itemGuid : Nat
  itemTemplate : Nat

structure Mail extends MailHead where
  items : List MailItemInfo

structure MailRow extends MailHead where
  hasItems : Bool

structure MailItemRow where
  mailId : Nat
  itemGuid : Nat
  receiver : Nat
  deriving DecidableEq

structure MailDraft where
  mailTemplateId : Nat
  subject : String
  body : String
  items : KeyedSet Item.guid
  money : Nat
  cod : Nat

def MailDraft.withText (subject body : String) : MailDraft := ⟨0, subject, body, KeyedSet.empty, 0, 0⟩

def MailDraft.addItem (draft : MailDraft) (item : Item) : MailDraft := { draft with items := draft.items.assign item }

/-! ## Players -/

structure Player where
  guid : Nat
  items : Nat → Option Item
  slotCount : Nat
  mail : List Mail
  mailItems : Nat → Option Item
  mailsLoaded : Bool
  unReadMails : UInt8
  nextMailDeliverTime : Nat

/-- The player, what is written about mails, and the items that were deleted from memory. -/
structure State where
  player : Player
  mailId : Nat
  mailRows : List MailRow
  mailItemRows : List MailItemRow
  deleted : List Item

structure Server where
  now : Nat
  mailDeliveryDelay : Nat
  notEquippedItem : String
  senderIsGameMaster : Bool

def day : Nat := 86400

def mailCheckMaskCopied : Nat := 4

def Server.expireDelay (server : Server) (sender : MailSender) (draft : MailDraft) : Nat :=
  if sender.messageType = .auction ∧ draft.items.entries = [] ∧ draft.money = 0 then server.mailDeliveryDelay
  else if draft.cod ≠ 0 then 3 * day
  else if server.senderIsGameMaster then 90 * day
  else 30 * day

def Player.addNewMailDeliverTime (p : Player) (now deliverTime : Nat) : Player :=
  if deliverTime ≤ now then { p with unReadMails := p.unReadMails + 1 }
  else if p.nextMailDeliverTime = 0 ∨ deliverTime < p.nextMailDeliverTime then
    { p with nextMailDeliverTime := deliverTime }
  else p

def Player.addMail (p : Player) (mail : Mail) : Player := { p with mail := mail :: p.mail }

def Player.addMItem (p : Player) (item : Item) : Player :=
  { p with mailItems := Function.update p.mailItems item.guid (some item) }

namespace State

variable (server : Server) (s : State)

def head (sender : MailSender) (draft : MailDraft) (checked deliverDelay : Nat) : MailHead where
  messageID := s.mailId
  messageType := sender.messageType
  stationery := sender.stationery
  mailTemplateId := draft.mailTemplateId
  sender := sender.senderId
  receiver := s.player.guid
  subject := draft.subject
  body := draft.body
  expireTime := server.now + deliverDelay + server.expireDelay sender draft
  deliverTime := server.now + deliverDelay
  money := draft.money
  cod := draft.cod
  checked := checked

def addToDB (sender : MailSender) (draft : MailDraft) (checked deliverDelay : Nat) : State :=
  { s with
    mailId := s.mailId + 1
    mailRows := s.mailRows ++ [⟨s.head server sender draft checked deliverDelay, !draft.items.entries.isEmpty⟩]
    mailItemRows := s.mailItemRows ++ draft.items.entries.map fun item => ⟨s.mailId, item.guid, s.player.guid⟩ }

/-- Where the mails of the player are not loaded, the items are deleted from memory. -/
def sendMailTo (sender : MailSender) (draft : MailDraft) (checked deliverDelay : Nat) : State :=
  let sent := s.addToDB server sender draft checked deliverDelay
  let player := s.player.addNewMailDeliverTime server.now (server.now + deliverDelay)
  if s.player.mailsLoaded then
    { sent with
      player := draft.items.entries.foldl Player.addMItem
        (player.addMail ⟨s.head server sender draft checked deliverDelay,
          draft.items.entries.map fun item => ⟨item.guid, item.entry⟩⟩) }
  else { sent with player := player, deleted := s.deleted ++ draft.items.entries }

/-! ## Slots -/

/-- What lies in the slots from the new count on, in the order of the slots. -/
def unstorableItems (slots : Nat) : List Item :=
  (List.range' (inventorySlotItemStart + slots) (inventorySlotItemEnd - (inventorySlotItemStart + slots))).filterMap
    s.player.items

def sendItemsBatch (unstorable : List Item) (batchSize : Nat) (batchNumber : Nat) : State :=
  s.sendMailTo server ⟨.normal, s.player.guid, .gm⟩
    (((unstorable.drop (batchNumber * maxMailItems)).take batchSize).foldl MailDraft.addItem
      (.withText server.notEquippedItem "There were problems with equipping item(s)."))
    mailCheckMaskCopied 0

def sendUnstorable (unstorable : List Item) : State :=
  let fullBatches := unstorable.length / maxMailItems
  let remainder := unstorable.length % maxMailItems
  let sent := (List.range fullBatches).foldl (fun s batch => s.sendItemsBatch server unstorable maxMailItems batch) s
  if remainder ≠ 0 then sent.sendItemsBatch server unstorable remainder fullBatches else sent

def setSlotCount (slots : Nat) : State := { s with player := { s.player with slotCount := slots } }

/-- More slots than there are is an assertion that fails. -/
def setInventorySlotCount (slots : Nat) : Option State :=
  if slots ≤ inventorySlotItemEnd - inventorySlotItemStart then
    if slots < s.player.slotCount then
      some ((s.sendUnstorable server (s.unstorableItems slots)).setSlotCount slots)
    else some (s.setSlotCount slots)
  else none

end State

/-!
## Mailed backpacks

An item of a slot that is taken away is put into a mail, but never taken out of its slot, so
the items are conserved only where there are none.
-/

open Library PlayerItems Batches

namespace State

/-! ## Places -/

def Mailed (s : State) (guid id : Nat) : Prop := ∃ row ∈ s.mailItemRows, row.mailId = id ∧ row.itemGuid = guid

def mailSize (s : State) (id : Nat) : Nat := s.mailItemRows.countP fun row => row.mailId = id

inductive Place
  | slot (slot : Nat)
  | mail (id : Nat)

def LiesIn (s : State) (item : Item) : Place → Prop
  | .slot slot => s.player.items slot = some item
  | .mail id => s.Mailed item.guid id

structure TakenAway (s : State) (slots slot : Nat) (item : Item) : Prop where
  first_le : inventorySlotItemStart + slots ≤ slot
  lt_end : slot < inventorySlotItemEnd
  item_eq : s.player.items slot = some item

structure AllMailed (s : State) (slots : Nat) (s' : State) : Prop where
  once : ∀ slot item, s.TakenAway slots slot item → ∃! id, s'.Mailed item.guid id
  size : ∀ slot item, s.TakenAway slots slot item → ∀ id, s'.Mailed item.guid id → s'.mailSize id ≤ maxMailItems
  order : ∀ a b item other, s.TakenAway slots a item → s.TakenAway slots b other → a ≤ b →
    ∀ m n, s'.Mailed item.guid m → s'.Mailed other.guid n → m ≤ n

/-- What is taken away is mailed and gone, and every item stays in exactly one place. -/
structure Conserved (s : State) (slots : Nat) (s' : State) : Prop extends AllMailed s slots s' where
  gone : ∀ slot item, s.TakenAway slots slot item → ∀ other, s'.player.items other ≠ some item
  place : ∀ item, (∃! place, s.LiesIn item place) → ∃! place, s'.LiesIn item place
  kept : ∀ slot, slot < inventorySlotItemStart + slots → s'.player.items slot = s.player.items slot

/-! ## One mail -/

def sendItems (server : Server) (s : State) (items : List Item) : State :=
  s.sendMailTo server ⟨.normal, s.player.guid, .gm⟩
    (items.foldl MailDraft.addItem (.withText server.notEquippedItem "There were problems with equipping item(s)."))
    mailCheckMaskCopied 0

variable {server : Server} {s : State} {items l : List Item} {batches : List (List Item)} {guid id : Nat}

theorem foldl_addMItem_kept (p : Player) (items : List Item) :
    (items.foldl Player.addMItem p).items = p.items ∧ (items.foldl Player.addMItem p).mailsLoaded = p.mailsLoaded := by
  induction items generalizing p with
  | nil => exact ⟨rfl, rfl⟩
  | cons item items ih => exact ih (p.addMItem item)

theorem addNewMailDeliverTime_kept (p : Player) (now deliverTime : Nat) :
    (p.addNewMailDeliverTime now deliverTime).items = p.items ∧
      (p.addNewMailDeliverTime now deliverTime).mailsLoaded = p.mailsLoaded := by
  rw [Player.addNewMailDeliverTime]
  split
  · exact ⟨rfl, rfl⟩
  · split
    · exact ⟨rfl, rfl⟩
    · exact ⟨rfl, rfl⟩

section SendMail

variable (server s) (sender : MailSender) (draft : MailDraft) (checked deliverDelay : Nat)

theorem sendMailTo_kept : (s.sendMailTo server sender draft checked deliverDelay).player.items = s.player.items ∧
    (s.sendMailTo server sender draft checked deliverDelay).player.mailsLoaded = s.player.mailsLoaded := by
  have hTime := addNewMailDeliverTime_kept s.player server.now (server.now + deliverDelay)
  rw [sendMailTo]
  split
  · have hItems := foldl_addMItem_kept ((s.player.addNewMailDeliverTime server.now
      (server.now + deliverDelay)).addMail ⟨s.head server sender draft checked deliverDelay,
        draft.items.entries.map fun item => ⟨item.guid, item.entry⟩⟩) draft.items.entries
    exact ⟨hItems.1.trans hTime.1, hItems.2.trans hTime.2⟩
  · exact hTime

end SendMail

/-! ## All mails -/

theorem foldl_sendItems_kept : (batches.foldl (sendItems server) s).player.items = s.player.items := by
  induction batches generalizing s with
  | nil => rfl
  | cons items batches ih => exact ih.trans (sendMailTo_kept ..).1

theorem sendUnstorable_eq (server : Server) (s : State) (l : List Item) : ∃ n, l.length ≤ n * maxMailItems ∧
    s.sendUnstorable server l = ((List.range n).map (batch maxMailItems l)).foldl (sendItems server) s := by
  have hDivided := Nat.div_add_mod' l.length maxMailItems
  have hRest := Nat.mod_lt l.length (show 0 < maxMailItems by decide)
  rw [sendUnstorable]
  split
  · refine ⟨l.length / maxMailItems + 1, ?_, ?_⟩
    · rw [Nat.add_one_mul]
      omega
    · rw [List.range_succ, List.map_append, List.foldl_append, List.map_singleton, List.foldl_map,
        ← batch_rest (by decide)]
      rfl
  · refine ⟨l.length / maxMailItems, by omega, ?_⟩
    rw [List.foldl_map]
    rfl

theorem sendUnstorable_kept : (s.sendUnstorable server l).player.items = s.player.items := by
  obtain ⟨n, -, hAll⟩ := sendUnstorable_eq server s l
  rw [hAll, foldl_sendItems_kept]

end State

/-!
## Backpacks that shrink

The items stay in their slots when the backpack shrinks, also where they were deleted from
memory.
-/

namespace State

variable {server : Server} {s s' : State} {slots slot : Nat} {item : Item}

/-! ## Slots and positions -/

theorem mem_unstorableItems : item ∈ s.unstorableItems slots ↔ ∃ slot, s.TakenAway slots slot item := by
  rw [unstorableItems, List.mem_filterMap]
  constructor
  · rintro ⟨slot, hSlot, hItem⟩
    obtain ⟨hFirst, hEnd⟩ := List.mem_range'_1.mp hSlot
    exact ⟨slot, hFirst, by omega, hItem⟩
  · rintro ⟨slot, h⟩
    have hFirst := h.first_le
    have hEnd := h.lt_end
    exact ⟨slot, List.mem_range'_1.mpr ⟨hFirst, by omega⟩, h.item_eq⟩

/-! ## The slots -/

theorem setInventorySlotCount_items (h : s.setInventorySlotCount server slots = some s') :
    s'.player.items = s.player.items := by
  rw [setInventorySlotCount] at h
  split at h
  · split at h
    · cases h
      exact sendUnstorable_kept
    · cases h
      rfl
  · cases h

/-- Items are conserved exactly if there are none in the slots that are taken away. -/
theorem conserved_iff (server : Server) (s : State) (slots : Nat)
    (hSlots : slots ≤ inventorySlotItemEnd - inventorySlotItemStart) :
    (∃ s', s.setInventorySlotCount server slots = some s' ∧ Conserved s slots s') ↔
      ∀ slot, inventorySlotItemStart + slots ≤ slot → slot < inventorySlotItemEnd → s.player.items slot = none := by
  constructor
  · rintro ⟨s', hRun, hConserved⟩ slot hFirst hEnd
    by_contra hSome
    obtain ⟨item, hItem⟩ := Option.ne_none_iff_exists'.mp hSome
    exact hConserved.gone slot item ⟨hFirst, hEnd, hItem⟩ slot
      ((congrFun (setInventorySlotCount_items hRun) slot).trans hItem)
  · intro hEmpty
    have hNone : ∀ slot item, ¬ s.TakenAway slots slot item := by
      intro slot item h
      cases (hEmpty slot h.first_le h.lt_end).symm.trans h.item_eq
    have hUnstorable : s.unstorableItems slots = [] := by
      refine List.eq_nil_iff_forall_not_mem.mpr fun item hItem => ?_
      obtain ⟨slot, h⟩ := mem_unstorableItems.mp hItem
      exact hNone slot item h
    refine ⟨s.setSlotCount slots, ?_, ⟨?_, ?_, ?_⟩, ?_, fun _ h => h, fun _ _ => rfl⟩
    · rw [setInventorySlotCount, if_pos hSlots, hUnstorable]
      exact ite_self _
    · exact fun slot item h => absurd h (hNone slot item)
    · exact fun slot item h => absurd h (hNone slot item)
    · exact fun a _ item _ h => absurd h (hNone a item)
    · exact fun slot item h => absurd h (hNone slot item)

/-! ## A full backpack -/

def withItem (slot : Nat) : State where
  player :=
    { guid := 1
      items := fun other => if other = slot then some ⟨7, 6948⟩ else none
      slotCount := 24
      mail := []
      mailItems := fun _ => none
      mailsLoaded := true
      unReadMails := 0
      nextMailDeliverTime := 0 }
  mailId := 1
  mailRows := []
  mailItemRows := []
  deleted := []

def startOfDay : Server := ⟨0, 3600, "An item could not be equipped.", false⟩

/-- An item in the first slot is kept. -/
theorem conserved_first :
    ∃ s', (withItem 23).setInventorySlotCount startOfDay 16 = some s' ∧ Conserved (withItem 23) 16 s' := by
  refine (conserved_iff startOfDay (withItem 23) 16 (by decide)).mpr fun slot hFirst _ => ?_
  refine if_neg ?_
  rintro rfl
  exact absurd hFirst (by decide)

/-- An item in the last slot is mailed, and it still lies there. -/
theorem last_not_conserved :
    ∃ s', (withItem 46).setInventorySlotCount startOfDay 16 = some s' ∧ s'.player.items 46 = some ⟨7, 6948⟩ ∧
      s'.Mailed 7 1 ∧ ¬ Conserved (withItem 46) 16 s' := by
  have hTaken : (withItem 46).TakenAway 16 46 ⟨7, 6948⟩ := ⟨by decide, by decide, rfl⟩
  obtain ⟨s', hRun⟩ : ∃ s', (withItem 46).setInventorySlotCount startOfDay 16 = some s' := ⟨_, rfl⟩
  have hHeld : s'.player.items 46 = some ⟨7, 6948⟩ := congrFun (setInventorySlotCount_items hRun) 46
  refine ⟨s', hRun, hHeld, ?_, fun hConserved => hConserved.gone 46 _ hTaken 46 hHeld⟩
  cases hRun
  exact ⟨⟨1, 7, 1⟩, List.mem_singleton.mpr rfl, rfl, rfl⟩

end State

end AshamaneCore.Backpack
