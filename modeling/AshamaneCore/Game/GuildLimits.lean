import AshamaneCore.Game.GuildBank
import AshamaneCore.Library.Transition

/-!
# The daily limits of the guild bank

What a member takes out of the bank in a day is charged to the member, and nothing else is.
So the limits of the member's rank hold over every sequence of requests.
-/

namespace AshamaneCore.Guilds

open Library

inductive BankRequest
  | swapItems (tabId slotId destTabId destSlotId : UInt8) (splitedAmount : UInt32)
  | swapItemsWithInventory (toChar : Bool) (tabId slotId playerBag playerSlotId : UInt8)
    (splitedAmount : UInt32)
  | withdrawMoney (amount : UInt64) (repair canHold : Bool)
  deriving DecidableEq

/-- What a request took out of each tab, counted in operations, and in copper. -/
structure Receipt where
  refused : Bool
  taken : BankTabId → Nat
  copper : Nat

namespace MoveOutcome

/-- A move between tabs takes from its source, a swap from both. -/
def takenBetween (outcome : MoveOutcome) (tabId destTabId : UInt8) (tab : BankTabId) : Nat :=
  match outcome with
  | refused => 0
  | moved => if tabId ≠ destTabId ∧ tab.val = tabId.toNat then 1 else 0
  | swapped =>
    if tabId ≠ destTabId ∧ (tab.val = tabId.toNat ∨ tab.val = destTabId.toNat) then 1 else 0

/-- A move to the character takes from the tab, and so does a swap in either direction. -/
def takenByCharacter (outcome : MoveOutcome) (toChar : Bool) (tabId : UInt8) (tab : BankTabId) : Nat :=
  match outcome with
  | refused => 0
  | moved => if toChar ∧ tab.val = tabId.toNat then 1 else 0
  | swapped => if tab.val = tabId.toNat then 1 else 0

end MoveOutcome

section Requests

variable {ι : Type} (inv : Inventory ι) (getMaxStackCount : UInt32 → UInt32)

def BankWorld.request (w : BankWorld ι) (player : ObjectGuid) : BankRequest → Receipt × BankWorld ι
  | .swapItems tabId slotId destTabId destSlotId splitedAmount =>
    let result := w.swapItems inv getMaxStackCount player tabId slotId destTabId destSlotId splitedAmount
    (⟨result.1 = .refused, result.1.takenBetween tabId destTabId, 0⟩, result.2)
  | .swapItemsWithInventory toChar tabId slotId playerBag playerSlotId splitedAmount =>
    let result := w.swapItemsWithInventory inv getMaxStackCount player toChar tabId slotId playerBag
      playerSlotId splitedAmount
    (⟨result.1 = .refused, result.1.takenByCharacter toChar tabId, 0⟩, result.2)
  | .withdrawMoney amount repair canHold =>
    let result := w.handleMemberWithdrawMoney player amount repair canHold
    (⟨!result.1, fun _ => 0, if result.1 then (min amount Guild.maxMoneyAmount).toNat else 0⟩, result.2)

/-- A request of a player with the inventory the character has then, or any other change of
the guild. -/
inductive BankAction (ι : Type)
  | request (player : ObjectGuid) (inventory : ι) (request : BankRequest)
  | change (guild : Guild)

namespace BankAction

def step (w : BankWorld ι) : BankAction ι → BankWorld ι
  | request player inventory r =>
    (({ w with inventory } : BankWorld ι).request inv getMaxStackCount player r).2
  | change guild => { w with guild }

def gets (player : ObjectGuid) (measure : Receipt → Nat) (w : BankWorld ι) : BankAction ι → Nat
  | request sender inventory r =>
    if sender = player then
      measure (({ w with inventory } : BankWorld ι).request inv getMaxStackCount sender r).1
    else 0
  | change _ => 0

/-- Other changes of the guild leave the player's record and the limits of the rank alone. -/
def KeepsLimits (player : ObjectGuid) (w : BankWorld ι) : BankAction ι → Prop
  | request _ _ _ => True
  | change guild =>
    guild.getMember player = w.guild.getMember player ∧
      ∀ member, w.guild.getMember player = some member →
        (∀ tab : BankTabId, guild.getRankBankTabSlotsPerDay member.rankId (UInt8.ofNat tab.val) =
          w.guild.getRankBankTabSlotsPerDay member.rankId (UInt8.ofNat tab.val)) ∧
        guild.getRankBankMoneyPerDay member.rankId = w.guild.getRankBankMoneyPerDay member.rankId

/-- A refused request leaves the members as they are, with all that was charged to them. -/
def FreeIfRefused (w : BankWorld ι) : BankAction ι → Prop
  | request player inventory r =>
    (({ w with inventory } : BankWorld ι).request inv getMaxStackCount player r).1.refused →
      (({ w with inventory } : BankWorld ι).request inv getMaxStackCount player r).2.guild.members =
        w.guild.members
  | change _ => True

end BankAction

/-! ## Charges -/

structure SameBooks (g next : Guild) : Prop where
  members : next.members = g.members
  ranks : next.ranks = g.ranks
  purchased : next.bankTabs.purchased = g.bankTabs.purchased

theorem SameBooks.refl (g : Guild) : SameBooks g g := ⟨rfl, rfl, rfl⟩

variable {g next : Guild}

theorem SameBooks.trans {last : Guild} (h : SameBooks g next) (hNext : SameBooks next last) :
    SameBooks g last :=
  ⟨hNext.members.trans h.members, hNext.ranks.trans h.ranks, hNext.purchased.trans h.purchased⟩

theorem sameBooks_setItem (g : Guild) (pos : BankPos) (item : Option Item) :
    SameBooks g (g.setItem pos item) := ⟨rfl, rfl, rfl⟩

/-- The side a move takes from is charged, unless it stays in its tab. -/
def Guild.charge (g : Guild) (player : ObjectGuid) (side other : MoveItemData) : Guild :=
  match side with
  | .bank container _ => if side.sameTab other then g else g.updateMemberWithdrawSlots player container
  | .player _ _ => g

theorem SameBooks.charge (h : SameBooks g next) (player : ObjectGuid)
    (side other : MoveItemData) : SameBooks (g.charge player side other) (next.charge player side other) := by
  cases side with
  | bank container slot =>
    rw [Guild.charge, Guild.charge]
    split
    · exact h
    · refine ⟨?_, h.ranks, h.purchased⟩
      rw [Guild.updateMemberWithdrawSlots, Guild.updateMemberWithdrawSlots, h.members]
  | player container slot => exact h

theorem sameBooks_storeAt (w : BankWorld ι) (container : BankTabId) (item : Item)
    (pos : BankSlotId × UInt32) (clone : Bool) :
    SameBooks w.guild (w.storeAt container item pos clone).guild := by
  rw [BankWorld.storeAt]
  split
  · exact sameBooks_setItem _ _ _
  · split
    · exact sameBooks_setItem _ _ _
    · exact sameBooks_setItem _ _ _

theorem sameBooks_storeInBank (container : BankTabId) (item : Item) (vec : List (BankSlotId × UInt32))
    (w : BankWorld ι) : SameBooks w.guild (BankWorld.storeInBank container item w vec).guild := by
  induction vec generalizing w with
  | nil => exact SameBooks.refl _
  | cons pos rest ih => exact (sameBooks_storeAt w container item pos _).trans (ih _)

theorem sameBooks_storeItem (w : BankWorld ι) (item : Item) (side : MoveItemData) (vec : side.Reserved) :
    SameBooks w.guild (w.storeItem inv item side vec).guild := by
  cases side with
  | bank container slot => exact sameBooks_storeInBank container item vec w
  | player container slot => exact SameBooks.refl _

variable {side : MoveItemData}

theorem sameBooks_removeItem (w : BankWorld ι) (player : ObjectGuid) (item : Item)
    (other : MoveItemData) (splitedAmount : UInt32) (hSide : ∀ container, side ≠ .bank container none) :
    SameBooks (w.guild.charge player side other)
      (w.removeItem inv player item other splitedAmount side).guild := by
  cases side with
  | bank container slot =>
    cases slot with
    | none => exact absurd rfl (hSide container)
    | some slot =>
      dsimp only [BankWorld.removeItem, Guild.charge]
      split
      · exact sameBooks_setItem _ _ _
      · exact ⟨rfl, rfl, rfl⟩
  | player container slot => exact SameBooks.refl _

variable {inv getMaxStackCount}

variable {w : BankWorld ι} {item : Item}

theorem initItem_named (h : w.initItem inv side = some item) (container : BankTabId) : side ≠ .bank container none := by
  rintro rfl
  cases h

variable {player : ObjectGuid} {src dest : MoveItemData}

theorem doItemsMove_books {next : BankWorld ι}
    {srcItem stored : Item} {splitedAmount : UInt32} (hSrc : ∀ container, src ≠ .bank container none)
    (h : w.doItemsMove inv getMaxStackCount player src dest srcItem stored none splitedAmount = .ok next) :
    SameBooks (w.guild.charge player src dest) next.guild := by
  rw [BankWorld.doItemsMove] at h
  split at h
  · cases h
  obtain rfl := Except.ok.inj h
  exact (sameBooks_removeItem inv w player srcItem dest splitedAmount hSrc).trans (sameBooks_storeItem _ _ _ _ _)

theorem doItemsMove_swap_books {next : BankWorld ι}
    {srcItem destItem : Item} (hSrc : ∀ container, src ≠ .bank container none)
    (hDest : ∀ container, dest ≠ .bank container none)
    (h : w.doItemsMove inv getMaxStackCount player src dest srcItem srcItem (some destItem) 0 = .ok next) :
    SameBooks ((w.guild.charge player src dest).charge player dest src) next.guild := by
  rw [BankWorld.doItemsMove] at h
  split at h
  · cases h
  dsimp only at h
  split at h
  · cases h
  obtain rfl := Except.ok.inj h
  have hFirst := (sameBooks_removeItem inv w player srcItem dest 0 hSrc).charge player dest src
  have hBoth := hFirst.trans (sameBooks_removeItem inv _ player destItem src 0 hDest)
  exact (hBoth.trans (sameBooks_storeItem _ _ _ _ _)).trans (sameBooks_storeItem _ _ _ _ _)

/-- How a move is settled: what was taken was allowed and is charged. -/
inductive Settles (w : BankWorld ι) (player : ObjectGuid) (src dest : MoveItemData) :
    MoveOutcome × BankWorld ι → Prop
  | refused (next : BankWorld ι) (hSame : next.guild = w.guild) : Settles w player src dest (.refused, next)
  | moved (next : BankWorld ι) (hRights : w.hasWithdrawRights player src dest)
    (hBooks : SameBooks (w.guild.charge player src dest) next.guild) :
    Settles w player src dest (.moved, next)
  | swapped (next : BankWorld ι) (hRights : w.hasWithdrawRights player src dest)
    (hBack : w.hasWithdrawRights player dest src)
    (hBooks : SameBooks ((w.guild.charge player src dest).charge player dest src) next.guild) :
    Settles w player src dest (.swapped, next)

theorem settles_moveSplit (splitedAmount : UInt32) (hRights : w.hasWithdrawRights player src dest)
    (hItem : w.initItem inv src = some item) :
    Settles w player src dest (w.moveSplit inv getMaxStackCount player src dest item splitedAmount) := by
  dsimp only [BankWorld.moveSplit]
  split
  · rename_i moved hMove
    have hBooks : SameBooks ((w.cloneItem item splitedAmount).2.guild.charge player src dest) moved.guild :=
      doItemsMove_books (initItem_named hItem) hMove
    exact Settles.moved moved hRights hBooks
  · exact Settles.refused _ rfl

theorem settles_swap (hRights : w.hasWithdrawRights player src dest) (hItem : w.initItem inv src = some item) :
    Settles w player src dest (w.swapItemsOf inv getMaxStackCount player src dest item) := by
  rw [BankWorld.swapItemsOf]
  split
  · exact Settles.refused w rfl
  rename_i destItem hDest
  split
  · exact Settles.refused w rfl
  rename_i hAllowed
  rw [Bool.or_eq_true, not_or, Bool.not_eq_true', Bool.not_eq_false, Bool.not_eq_true', Bool.not_eq_false]
    at hAllowed
  split
  · rename_i swapped hMove
    exact Settles.swapped swapped hRights hAllowed.2
      (doItemsMove_swap_books (initItem_named hItem) (initItem_named hDest) hMove)
  · exact Settles.refused w rfl

theorem settles_moveItems (w : BankWorld ι) (player : ObjectGuid) (src dest : MoveItemData)
    (splitedAmount : UInt32) :
    Settles w player src dest (w.moveItems inv getMaxStackCount player src dest splitedAmount) := by
  rw [BankWorld.moveItems]
  split
  · exact Settles.refused w rfl
  rename_i item hItem
  split
  · exact Settles.refused w rfl
  split
  · exact Settles.refused w rfl
  rename_i hAllowed
  rw [Bool.or_eq_true, not_or, Bool.not_eq_true', Bool.not_eq_false, Bool.not_eq_true', Bool.not_eq_false]
    at hAllowed
  split
  · exact settles_moveSplit _ hAllowed.2 hItem
  split
  · rename_i moved hMove
    exact Settles.moved moved hAllowed.2 (doItemsMove_books (initItem_named hItem) hMove)
  · exact settles_swap hAllowed.2 hItem

/-! ## What is charged -/

def MoveItemData.leaves (side other : MoveItemData) (tab : BankTabId) : Bool :=
  match side with
  | .bank container _ => container = tab && !side.sameTab other
  | .player _ _ => false

def Member.charged (side other : MoveItemData) (member : Member) : Member :=
  match side with
  | .bank container _ =>
    if side.sameTab other then member else member.updateBankTabWithdrawValue container 1
  | .player _ _ => member

theorem getMember_charge (g : Guild) (player guid : ObjectGuid) (side other : MoveItemData) :
    (g.charge player side other).getMember guid =
      if guid = player then (g.getMember guid).map (Member.charged side other) else g.getMember guid := by
  cases side with
  | bank container slot =>
    rw [Guild.charge]
    unfold Member.charged
    by_cases hTab : (MoveItemData.bank container slot).sameTab other = true
    · simp only [if_pos hTab, Option.map_id', ite_self]
    · simp only [if_neg hTab]
      exact getMember_alter g player guid (Member.key_updateTab container 1)
  | player container slot =>
    unfold Member.charged
    simp only [Guild.charge, Option.map_id', ite_self]

theorem charged_rankId (side other : MoveItemData) (member : Member) :
    (member.charged side other).rankId = member.rankId := by
  cases side with
  | bank container slot =>
    rw [Member.charged]
    split <;> rfl
  | player container slot => rfl

theorem charged_money (side other : MoveItemData) (member : Member) :
    (member.charged side other).bankWithdrawMoney = member.bankWithdrawMoney := by
  cases side with
  | bank container slot =>
    rw [Member.charged]
    split <;> rfl
  | player container slot => rfl

theorem charged_slots (side other : MoveItemData) (member : Member) (tab : BankTabId) :
    (member.charged side other).bankWithdraw tab =
      member.bankWithdraw tab + UInt32.ofNat (side.leaves other tab).toNat := by
  cases side with
  | bank container slot =>
    rw [Member.charged, MoveItemData.leaves]
    by_cases hTab : (MoveItemData.bank container slot).sameTab other = true
    · rw [if_pos hTab, hTab, Bool.not_true, Bool.and_false]
      exact (UInt32.add_zero _).symm
    · rw [if_neg hTab, Bool.eq_false_iff.mpr hTab, Bool.not_false, Bool.and_true]
      by_cases hSame : container = tab
      · rw [hSame, decide_eq_true rfl]
        exact Function.update_self _ _ _
      · rw [decide_eq_false hSame]
        exact (Function.update_of_ne (Ne.symm hSame) _ _).trans (UInt32.add_zero _).symm
  | player container slot => exact (UInt32.add_zero _).symm

variable {member : Member} {tab : BankTabId}

theorem remaining_of_leaves {other : MoveItemData} (hRights : w.hasWithdrawRights player side other)
    (hMember : w.guild.getMember player = some member) (hLeaves : side.leaves other tab) :
    w.guild.getMemberRemainingSlots member tab ≠ 0 := by
  cases side with
  | bank container slot =>
    rw [MoveItemData.leaves, Bool.and_eq_true, decide_eq_true_iff, Bool.not_eq_true'] at hLeaves
    obtain ⟨rfl, hTab⟩ := hLeaves
    rw [BankWorld.hasWithdrawRights, hTab, Bool.false_or, hMember] at hRights
    exact of_decide_eq_true hRights
  | player container slot => cases hLeaves

theorem leaves_once (h : src.leaves dest tab) :
    dest.leaves src tab = false := by
  cases src with
  | player container slot => cases h
  | bank container slot =>
    cases dest with
    | player container slot => rfl
    | bank other slot =>
      rw [MoveItemData.leaves, Bool.and_eq_true, decide_eq_true_iff, Bool.not_eq_true'] at h
      obtain ⟨rfl, hTab⟩ := h
      have hOther : container ≠ other := of_decide_eq_false hTab
      rw [MoveItemData.leaves, decide_eq_false (Ne.symm hOther), Bool.false_and]

/-- The member's record after a request, against what the receipt says. -/
structure Charged (g : Guild) (member after : Member) (taken : BankTabId → Nat) (copper : Nat) : Prop where
  rankId : after.rankId = member.rankId
  slots : ∀ tab, after.bankWithdraw tab = member.bankWithdraw tab + UInt32.ofNat (taken tab)
  allowed : ∀ tab, taken tab = 0 ∨ taken tab = 1 ∧ g.getMemberRemainingSlots member tab ≠ 0
  money : after.bankWithdrawMoney = member.bankWithdrawMoney + UInt64.ofNat copper
  affordable : copper = 0 ∨ copper ≤ Guild.maxMoneyAmount.toNat ∧
    (UInt64.ofNat copper).toInt64 ≤ g.getMemberRemainingMoney member

/-- A request changes no record but the player's, which is charged by the receipt. -/
structure Accounted (w next : BankWorld ι) (player : ObjectGuid) (receipt : Receipt) : Prop where
  ranks : next.guild.ranks = w.guild.ranks
  purchased : next.guild.bankTabs.purchased = w.guild.bankTabs.purchased
  others : ∀ guid, guid ≠ player → next.guild.getMember guid = w.guild.getMember guid
  own : ∀ member, w.guild.getMember player = some member → ∃ after,
    next.guild.getMember player = some after ∧
      Charged w.guild member after receipt.taken receipt.copper
  free : receipt.refused → next.guild.members = w.guild.members

theorem Charged.refl (g : Guild) (member : Member) : Charged g member member (fun _ => 0) 0 :=
  ⟨rfl, fun _ => (UInt32.add_zero _).symm, fun _ => Or.inl rfl, (UInt64.add_zero _).symm, Or.inl rfl⟩

theorem Accounted.of_same {next : BankWorld ι} (player : ObjectGuid) (refused : Bool)
    (h : SameBooks w.guild next.guild) : Accounted w next player ⟨refused, fun _ => 0, 0⟩ := by
  have hGet : ∀ guid, next.guild.getMember guid = w.guild.getMember guid :=
    fun guid => congrArg (fun members : Members => members.find? guid.toNat) h.members
  exact ⟨h.ranks, h.purchased, fun guid _ => hGet guid,
    fun member hMember => ⟨member, (hGet player).trans hMember, Charged.refl _ _⟩, fun _ => h.members⟩

/-- The count of operations that took an item out of a tab, by the sides of a move. -/
def MoveOutcome.takes (outcome : MoveOutcome) (src dest : MoveItemData) (tab : BankTabId) : Nat :=
  match outcome with
  | refused => 0
  | moved => (src.leaves dest tab).toNat
  | swapped => (src.leaves dest tab).toNat + (dest.leaves src tab).toNat

theorem charge_frame (g : Guild) (player : ObjectGuid) (side other : MoveItemData) :
    (g.charge player side other).ranks = g.ranks ∧
      (g.charge player side other).bankTabs.purchased = g.bankTabs.purchased := by
  cases side with
  | bank container slot =>
    rw [Guild.charge]
    split <;> exact ⟨rfl, rfl⟩
  | player container slot => exact ⟨rfl, rfl⟩

theorem leaves_allowed {other : MoveItemData} (hRights : w.hasWithdrawRights player side other)
    (hMember : w.guild.getMember player = some member) (tab : BankTabId) :
    (side.leaves other tab).toNat = 0 ∨
      (side.leaves other tab).toNat = 1 ∧ w.guild.getMemberRemainingSlots member tab ≠ 0 := by
  cases hLeaves : side.leaves other tab with
  | false => exact Or.inl rfl
  | true => exact Or.inr ⟨rfl, remaining_of_leaves hRights hMember hLeaves⟩

/-- A result is accounted for when its outcome is read as what it takes from each tab. -/
def AccountedAs (w : BankWorld ι) (player : ObjectGuid) (takes : MoveOutcome → BankTabId → Nat)
    (result : MoveOutcome × BankWorld ι) : Prop :=
  Accounted w result.2 player ⟨result.1 = .refused, takes result.1, 0⟩

theorem Settles.accounted {result : MoveOutcome × BankWorld ι} (h : Settles w player src dest result) :
    AccountedAs w player (fun outcome => outcome.takes src dest) result := by
  cases h with
  | refused next hSame => exact Accounted.of_same player _ (by rw [hSame]; exact SameBooks.refl _)
  | moved next hRights hBooks =>
    have hGet : ∀ guid, next.guild.getMember guid = (w.guild.charge player src dest).getMember guid :=
      fun guid => congrArg (fun members : Members => members.find? guid.toNat) hBooks.members
    obtain ⟨hRanks, hPurchased⟩ := charge_frame w.guild player src dest
    refine ⟨hBooks.ranks.trans hRanks, hBooks.purchased.trans hPurchased, ?_, ?_, ?_⟩
    · intro guid hOther
      rw [hGet, getMember_charge, if_neg hOther]
    · intro member hMember
      refine ⟨member.charged src dest, ?_, charged_rankId _ _ _, charged_slots _ _ _,
        leaves_allowed hRights hMember, ?_, Or.inl rfl⟩
      · rw [hGet, getMember_charge, if_pos rfl, hMember, Option.map_some]
      · rw [charged_money]
        exact (UInt64.add_zero _).symm
    · intro hRefused
      cases hRefused
  | swapped next hRights hBack hBooks =>
    have hGet : ∀ guid, next.guild.getMember guid =
        ((w.guild.charge player src dest).charge player dest src).getMember guid :=
      fun guid => congrArg (fun members : Members => members.find? guid.toNat) hBooks.members
    obtain ⟨hRanks, hPurchased⟩ := charge_frame w.guild player src dest
    obtain ⟨hRanksBack, hPurchasedBack⟩ := charge_frame (w.guild.charge player src dest) player dest src
    refine ⟨(hBooks.ranks.trans hRanksBack).trans hRanks,
      (hBooks.purchased.trans hPurchasedBack).trans hPurchased, ?_, ?_, ?_⟩
    · intro guid hOther
      rw [hGet, getMember_charge, if_neg hOther, getMember_charge, if_neg hOther]
    · intro member hMember
      refine ⟨(member.charged src dest).charged dest src, ?_, ?_, ?_, ?_, ?_, Or.inl rfl⟩
      · rw [hGet, getMember_charge, if_pos rfl, getMember_charge, if_pos rfl, hMember, Option.map_some,
          Option.map_some]
      · rw [charged_rankId, charged_rankId]
      · intro tab
        rw [charged_slots, charged_slots, UInt32.add_assoc, ← UInt32.ofNat_add]
        rfl
      · intro tab
        cases hLeaves : src.leaves dest tab with
        | false =>
          simp only [MoveOutcome.takes, hLeaves, Bool.toNat_false, Nat.zero_add]
          exact leaves_allowed hBack hMember tab
        | true =>
          simp only [MoveOutcome.takes, leaves_once hLeaves, Bool.toNat_false, Nat.add_zero]
          exact leaves_allowed hRights hMember tab
      · rw [charged_money, charged_money]
        exact (UInt64.add_zero _).symm
    · intro hRefused
      cases hRefused

/-! ## Allowances -/

theorem toInt_int32 (slots : Int32) :
    slots.toInt = if 2 * slots.toUInt32.toNat < 2 ^ 32 then (slots.toUInt32.toNat : Int)
      else slots.toUInt32.toNat - (2 ^ 32 : Nat) := BitVec.toInt_eq_toNat_cond slots.toBitVec

theorem used_lt_slots {slots : Int32} {used : UInt32} (hUsed : used.toNat ≤ slots.toInt.toNat)
    (h : (slots.toUInt32 - used).toInt32 > 0) : used.toNat < slots.toInt.toNat := by
  apply Nat.lt_of_le_of_ne hUsed
  intro hAll
  rw [toInt_int32] at hAll
  split at hAll
  · have hSame : slots.toUInt32 = used := UInt32.toNat.inj hAll.symm
    rw [hSame, UInt32.sub_self] at h
    exact absurd h (by decide)
  · rename_i hNegative
    have hLt := UInt32.toNat_lt slots.toUInt32
    have hZero : used = 0 := by
      apply UInt32.toNat.inj
      rw [hAll]
      change Int.toNat _ = 0
      omega
    rw [hZero, UInt32.sub_zero] at h
    have hPositive : 0 < slots.toInt := Int32.lt_iff_toInt_lt.mp h
    rw [toInt_int32, if_neg hNegative] at hPositive
    omega

theorem used_lt_of_remaining {slots : Int32}
    (hRank : member.rankId ≠ grGuildmaster)
    (hSlots : g.getRankBankTabSlotsPerDay member.rankId (UInt8.ofNat tab.val) = slots)
    (hUsed : (member.bankWithdraw tab).toNat ≤ slots.toInt.toNat)
    (h : g.getMemberRemainingSlots member tab ≠ 0) :
    (member.bankWithdraw tab).toNat < slots.toInt.toNat := by
  dsimp only [Guild.getMemberRemainingSlots] at h
  rw [if_neg hRank, hSlots] at h
  split at h
  · split at h
    · rename_i hPositive
      exact used_lt_slots hUsed hPositive
    · exact absurd rfl h
  · exact absurd rfl h

theorem limit_toNat (perDay : UInt32) : (perDay.toUInt64 * Guild.gold).toNat = perDay.toNat * 10000 := by
  have hLt := UInt32.toNat_lt perDay
  rw [UInt64.toNat_mul, UInt32.toNat_toUInt64, Guild.gold, Nat.mod_eq_of_lt]
  · rfl
  · change perDay.toNat * 10000 < 2 ^ 64
    omega

theorem toInt_small {amount : UInt64} (h : 2 * amount.toNat < 2 ^ 64) :
    amount.toInt64.toInt = amount.toNat :=
  BitVec.toInt_eq_toNat_of_lt h

variable {perDay : UInt32}

theorem affordable_within {amount : UInt64}
    (hRank : member.rankId ≠ grGuildmaster) (hPerDay : g.getRankBankMoneyPerDay member.rankId = perDay)
    (hUsed : member.bankWithdrawMoney.toNat ≤ perDay.toNat * 10000)
    (hAmount : amount.toNat ≤ Guild.maxMoneyAmount.toNat)
    (h : amount.toInt64 ≤ g.getMemberRemainingMoney member) :
    member.bankWithdrawMoney.toNat + amount.toNat ≤ perDay.toNat * 10000 := by
  have hMax : Guild.maxMoneyAmount.toNat = 99999999999 := rfl
  have hToInt := @toInt_small amount (by omega)
  have hLe := Int64.le_iff_toInt_le.mp h
  rw [hToInt] at hLe
  have hFree : g.getMemberRemainingMoney member = 0 →
      member.bankWithdrawMoney.toNat + amount.toNat ≤ perDay.toNat * 10000 := by
    intro hZero
    rw [hZero] at hLe
    have hNone : (amount.toNat : Int) ≤ 0 := hLe
    omega
  dsimp only [Guild.getMemberRemainingMoney] at hLe hFree
  rw [if_neg hRank, hPerDay] at hLe hFree
  split at hLe
  · rename_i hRights
    rw [if_pos hRights] at hFree
    split at hLe
    · have hLt := UInt32.toNat_lt perDay
      have hBelow : member.bankWithdrawMoney ≤ perDay.toUInt64 * Guild.gold := by
        rw [UInt64.le_iff_toNat_le, limit_toNat]
        exact hUsed
      have hLeft : (perDay.toUInt64 * Guild.gold - member.bankWithdrawMoney).toNat =
          perDay.toNat * 10000 - member.bankWithdrawMoney.toNat := by
        rw [UInt64.toNat_sub_of_le _ _ hBelow, limit_toNat]
      rw [toInt_small (by omega), hLeft] at hLe
      omega
    · rename_i hNone
      exact hFree (if_neg hNone)
  · rename_i hRights
    exact hFree (if_neg hRights)

/-! ## Requests -/

variable {tabId : UInt8}

theorem bankTab?_some (h : w.bankTab? tabId = some tab) :
    tab.val = tabId.toNat := by
  rw [BankWorld.bankTab?] at h
  split at h
  · obtain rfl := Option.some.inj h
    rfl
  · cases h

theorem takes_between {destTabId : UInt8} {destTab : BankTabId} (hTab : tab.val = tabId.toNat)
    (hDest : destTab.val = destTabId.toNat) (slot destSlot : Option BankSlotId) (outcome : MoveOutcome) :
    outcome.takes (.bank tab slot) (.bank destTab destSlot) = outcome.takenBetween tabId destTabId := by
  funext x
  have hSame : tab = destTab ↔ tabId = destTabId := by
    rw [Fin.ext_iff, hTab, hDest, UInt8.toNat_inj]
  have hSrc : tab = x ↔ x.val = tabId.toNat := by
    rw [Fin.ext_iff, hTab]
    exact eq_comm
  have hOther : destTab = x ↔ x.val = destTabId.toNat := by
    rw [Fin.ext_iff, hDest]
    exact eq_comm
  cases outcome with
  | refused => rfl
  | moved =>
    simp only [MoveOutcome.takes, MoveOutcome.takenBetween, MoveItemData.leaves, MoveItemData.sameTab,
      hSame, hSrc]
    by_cases hEq : tabId = destTabId <;> by_cases hIs : x.val = tabId.toNat <;> simp [hEq, hIs]
  | swapped =>
    simp only [MoveOutcome.takes, MoveOutcome.takenBetween, MoveItemData.leaves, MoveItemData.sameTab,
      eq_comm (a := destTab) (b := tab), hSame, hSrc, hOther]
    by_cases hEq : tabId = destTabId
    · simp only [hEq, decide_true, Bool.not_true, Bool.and_false, Bool.toNat_false, ne_eq, not_true,
        false_and, if_false]
    · by_cases hIs : x.val = tabId.toNat
      · have hNot : ¬x.val = destTabId.toNat := fun h => hEq (UInt8.toNat_inj.mp (hIs.symm.trans h))
        rw [decide_eq_true hIs, decide_eq_false hNot, decide_eq_false hEq, if_pos ⟨hEq, Or.inl hIs⟩]
        rfl
      · by_cases hThere : x.val = destTabId.toNat
        · rw [decide_eq_false hIs, decide_eq_true hThere, decide_eq_false hEq,
            if_pos ⟨hEq, Or.inr hThere⟩]
          rfl
        · rw [decide_eq_false hIs, decide_eq_false hThere, if_neg fun h => h.2.elim hIs hThere]
          rfl

theorem clamped_le (amount limit : UInt64) : (min amount limit).toNat ≤ limit.toNat := by
  change (if amount ≤ limit then amount else limit).toNat ≤ limit.toNat
  split
  · rename_i h
    exact UInt64.le_iff_toNat_le.mp h
  · exact le_rfl

theorem accounted_withdrawMoney (w : BankWorld ι) (player : ObjectGuid) (amount : UInt64)
    (repair canHold : Bool) :
    let result := w.handleMemberWithdrawMoney player amount repair canHold
    Accounted w result.2 player
      ⟨!result.1, fun _ => 0, if result.1 then (min amount Guild.maxMoneyAmount).toNat else 0⟩ := by
  dsimp only [BankWorld.handleMemberWithdrawMoney]
  generalize w.guild.hasRankRight player (if repair then grRightWithdrawRepair else grRightWithdrawGold) =
    allowed
  split
  · exact Accounted.of_same player true (SameBooks.refl _)
  split
  · exact Accounted.of_same player true (SameBooks.refl _)
  rename_i member hMember
  split
  · exact Accounted.of_same player true (SameBooks.refl _)
  split
  · exact Accounted.of_same player true (SameBooks.refl _)
  rename_i hAfford
  split
  · exact Accounted.of_same player true (SameBooks.refl _)
  have hGet : ∀ guid, ((w.guild.updateMemberWithdrawMoney player
      (min amount Guild.maxMoneyAmount)).withdrawMoney (min amount Guild.maxMoneyAmount)).getMember guid =
      if guid = player then
        (w.guild.getMember guid).map (Member.updateBankMoneyWithdrawValue (min amount Guild.maxMoneyAmount))
      else w.guild.getMember guid :=
    fun guid => getMember_alter w.guild player guid (Member.key_updateMoney (min amount Guild.maxMoneyAmount))
  refine ⟨rfl, rfl, fun guid hOther => (hGet guid).trans (if_neg hOther), ?_, ?_⟩
  · intro found hFound
    obtain rfl := Option.some.inj (hMember.symm.trans hFound)
    refine ⟨member.updateBankMoneyWithdrawValue (min amount Guild.maxMoneyAmount), ?_, rfl,
      fun _ => (UInt32.add_zero _).symm, fun _ => Or.inl rfl, ?_, ?_⟩
    · rw [hGet, if_pos rfl, hMember]
      rfl
    · rw [if_pos rfl, UInt64.ofNat_toNat]
      rfl
    · rw [if_pos rfl, UInt64.ofNat_toNat]
      exact Or.inr ⟨clamped_le _ _, Int64.not_lt.mp hAfford⟩
  · intro hRefused
    cases hRefused

theorem takes_toCharacter (hTab : tab.val = tabId.toNat)
    (slot : Option BankSlotId) (bag bagSlot : UInt8) (outcome : MoveOutcome) :
    outcome.takes (.bank tab slot) (.player bag bagSlot) = outcome.takenByCharacter true tabId := by
  funext x
  have hSrc : tab = x ↔ x.val = tabId.toNat := by
    rw [Fin.ext_iff, hTab]
    exact eq_comm
  cases outcome <;>
    simp only [MoveOutcome.takes, MoveOutcome.takenByCharacter, MoveItemData.leaves, MoveItemData.sameTab,
      hSrc, Bool.not_false, Bool.and_true, Bool.toNat_false, Nat.add_zero, true_and] <;>
    by_cases hIs : x.val = tabId.toNat <;> simp [hIs]

theorem takes_fromCharacter (hTab : tab.val = tabId.toNat)
    (slot : Option BankSlotId) (bag bagSlot : UInt8) (outcome : MoveOutcome) :
    outcome.takes (.player bag bagSlot) (.bank tab slot) = outcome.takenByCharacter false tabId := by
  funext x
  have hSrc : tab = x ↔ x.val = tabId.toNat := by
    rw [Fin.ext_iff, hTab]
    exact eq_comm
  cases outcome with
  | refused => rfl
  | moved => rfl
  | swapped =>
    simp only [MoveOutcome.takes, MoveOutcome.takenByCharacter, MoveItemData.leaves,
      MoveItemData.sameTab, hSrc, Bool.not_false, Bool.and_true, Bool.toNat_false, Nat.zero_add]
    by_cases hIs : x.val = tabId.toNat
    · rw [decide_eq_true hIs, if_pos hIs]
      rfl
    · rw [decide_eq_false hIs, if_neg hIs]
      rfl

theorem accounted_swapItems (w : BankWorld ι) (player : ObjectGuid)
    (tabId slotId destTabId destSlotId : UInt8) (splitedAmount : UInt32) :
    AccountedAs w player (fun outcome => outcome.takenBetween tabId destTabId)
      (w.swapItems inv getMaxStackCount player tabId slotId destTabId destSlotId splitedAmount) := by
  have hNone : AccountedAs w player (fun outcome => outcome.takenBetween tabId destTabId) (.refused, w) :=
    Accounted.of_same player true (SameBooks.refl _)
  rw [BankWorld.swapItems]
  split
  · rename_i tab slot destTab destSlot hTab _ hDest _
    split
    · exact hNone
    · have hTakes := takes_between (bankTab?_some hTab) (bankTab?_some hDest) (some slot) (some destSlot)
      rw [← funext hTakes]
      exact (settles_moveItems w player _ _ splitedAmount).accounted
  · exact hNone

theorem accounted_swapItemsWithInventory (w : BankWorld ι) (player : ObjectGuid) (toChar : Bool)
    (tabId slotId playerBag playerSlotId : UInt8) (splitedAmount : UInt32) :
    AccountedAs w player (fun outcome => outcome.takenByCharacter toChar tabId)
      (w.swapItemsWithInventory inv getMaxStackCount player toChar tabId slotId playerBag playerSlotId
        splitedAmount) := by
  have hNone : AccountedAs w player (fun outcome => outcome.takenByCharacter toChar tabId) (.refused, w) :=
    Accounted.of_same player true (SameBooks.refl _)
  rw [BankWorld.swapItemsWithInventory]
  split
  · exact hNone
  rename_i tab hTab
  split
  · exact hNone
  cases toChar with
  | true =>
    rw [← funext (takes_toCharacter (bankTab?_some hTab) (bankSlot? slotId) playerBag playerSlotId)]
    exact (settles_moveItems w player _ _ splitedAmount).accounted
  | false =>
    rw [← funext (takes_fromCharacter (bankTab?_some hTab) (bankSlot? slotId) playerBag playerSlotId)]
    exact (settles_moveItems w player _ _ splitedAmount).accounted

theorem accounted_request (w : BankWorld ι) (player : ObjectGuid) (request : BankRequest) :
    Accounted w (w.request inv getMaxStackCount player request).2 player
      (w.request inv getMaxStackCount player request).1 := by
  cases request with
  | swapItems tabId slotId destTabId destSlotId splitedAmount =>
    exact accounted_swapItems w player tabId slotId destTabId destSlotId splitedAmount
  | swapItemsWithInventory toChar tabId slotId playerBag playerSlotId splitedAmount =>
    exact accounted_swapItemsWithInventory w player toChar tabId slotId playerBag playerSlotId splitedAmount
  | withdrawMoney amount repair canHold => exact accounted_withdrawMoney w player amount repair canHold

/-! ## A day -/

/-- The member has the rank with its limits, and has stayed within them. -/
structure WithinLimits (player : ObjectGuid) (rankId : UInt8) (slots : BankTabId → Int32)
    (perDay : UInt32) (w : BankWorld ι) : Prop where
  record : ∃ member, w.guild.getMember player = some member ∧ member.rankId = rankId ∧
    (∀ tab, (member.bankWithdraw tab).toNat ≤ (slots tab).toInt.toNat) ∧
    member.bankWithdrawMoney.toNat ≤ perDay.toNat * 10000
  slots : ∀ tab : BankTabId, w.guild.getRankBankTabSlotsPerDay rankId (UInt8.ofNat tab.val) = slots tab
  perDay : w.guild.getRankBankMoneyPerDay rankId = perDay

def usedSlots (player : ObjectGuid) (tab : BankTabId) (w : BankWorld ι) : Nat :=
  (w.guild.getMember player).elim 0 fun member => (member.bankWithdraw tab).toNat

def usedMoney (player : ObjectGuid) (w : BankWorld ι) : Nat :=
  (w.guild.getMember player).elim 0 fun member => member.bankWithdrawMoney.toNat

theorem getRankInfo_congr (hRanks : next.ranks = g.ranks) (rankId : UInt8) :
    next.getRankInfo rankId = g.getRankInfo rankId := by
  rw [Guild.getRankInfo, Guild.getRankInfo, Guild.getRanksSize, Guild.getRanksSize, hRanks]

theorem slotsPerDay_congr (hRanks : next.ranks = g.ranks)
    (hPurchased : next.bankTabs.purchased = g.bankTabs.purchased) (rankId tabId : UInt8) :
    next.getRankBankTabSlotsPerDay rankId tabId = g.getRankBankTabSlotsPerDay rankId tabId := by
  rw [Guild.getRankBankTabSlotsPerDay, Guild.getRankBankTabSlotsPerDay, Guild.getPurchasedTabsSize,
    Guild.getPurchasedTabsSize, hPurchased, getRankInfo_congr hRanks]

theorem moneyPerDay_congr (hRanks : next.ranks = g.ranks) (rankId : UInt8) :
    next.getRankBankMoneyPerDay rankId = g.getRankBankMoneyPerDay rankId := by
  rw [Guild.getRankBankMoneyPerDay, Guild.getRankBankMoneyPerDay, getRankInfo_congr hRanks]

variable {slots : BankTabId → Int32}

theorem Charged.within {after : Member} {taken : BankTabId → Nat} {copper : Nat}
    (h : Charged g member after taken copper)
    (hRank : member.rankId ≠ grGuildmaster)
    (hSlots : ∀ tab : BankTabId,
      g.getRankBankTabSlotsPerDay member.rankId (UInt8.ofNat tab.val) = slots tab)
    (hPerDay : g.getRankBankMoneyPerDay member.rankId = perDay)
    (hUsed : ∀ tab, (member.bankWithdraw tab).toNat ≤ (slots tab).toInt.toNat)
    (hMoney : member.bankWithdrawMoney.toNat ≤ perDay.toNat * 10000) :
    (∀ tab, (after.bankWithdraw tab).toNat = (member.bankWithdraw tab).toNat + taken tab ∧
      (after.bankWithdraw tab).toNat ≤ (slots tab).toInt.toNat) ∧
    after.bankWithdrawMoney.toNat = member.bankWithdrawMoney.toNat + copper ∧
    after.bankWithdrawMoney.toNat ≤ perDay.toNat * 10000 := by
  refine ⟨fun tab => ?_, ?_⟩
  · rw [h.slots tab]
    obtain hNone | ⟨hOne, hLeft⟩ := h.allowed tab
    · rw [hNone]
      exact ⟨congrArg UInt32.toNat (UInt32.add_zero _), (congrArg UInt32.toNat (UInt32.add_zero _)).trans_le (hUsed tab)⟩
    · have hLess := used_lt_of_remaining hRank (hSlots tab) (hUsed tab) hLeft
      have hBound : (slots tab).toInt < 2 ^ 31 := (slots tab).toInt_lt
      have hSum : (member.bankWithdraw tab + UInt32.ofNat 1).toNat = (member.bankWithdraw tab).toNat + 1 := by
        rw [UInt32.toNat_add, Nat.mod_eq_of_lt]
        · rfl
        · change (member.bankWithdraw tab).toNat + 1 < 2 ^ 32
          omega
      rw [hOne, hSum]
      exact ⟨rfl, hLess⟩
  · rw [h.money]
    obtain hNone | ⟨hMax, hAfford⟩ := h.affordable
    · rw [hNone]
      exact ⟨congrArg UInt64.toNat (UInt64.add_zero _),
        (congrArg UInt64.toNat (UInt64.add_zero _)).trans_le hMoney⟩
    · have hLt := UInt32.toNat_lt perDay
      have hCopper : (UInt64.ofNat copper).toNat = copper := by
        have hValue : Guild.maxMoneyAmount.toNat = 99999999999 := rfl
        rw [UInt64.toNat_ofNat', Nat.mod_eq_of_lt]
        omega
      have hWithin := affordable_within hRank hPerDay hMoney (hCopper.trans_le hMax) hAfford
      rw [hCopper] at hWithin
      have hSum : (member.bankWithdrawMoney + UInt64.ofNat copper).toNat =
          member.bankWithdrawMoney.toNat + copper := by
        rw [UInt64.toNat_add, hCopper, Nat.mod_eq_of_lt]
        omega
      rw [hSum]
      exact ⟨rfl, hWithin⟩

variable {rankId : UInt8}

theorem WithinLimits.request {next : BankWorld ι} {sender : ObjectGuid} {receipt : Receipt}
    (h : WithinLimits player rankId slots perDay w) (hRank : rankId ≠ grGuildmaster)
    (hAccounted : Accounted w next sender receipt) :
    WithinLimits player rankId slots perDay next ∧
      (∀ tab, usedSlots player tab next =
        usedSlots player tab w + if sender = player then receipt.taken tab else 0) ∧
      usedMoney player next = usedMoney player w + if sender = player then receipt.copper else 0 := by
  obtain ⟨member, hMember, rfl, hUsed, hMoney⟩ := h.record
  have hSlots : ∀ tab : BankTabId,
      next.guild.getRankBankTabSlotsPerDay member.rankId (UInt8.ofNat tab.val) = slots tab :=
    fun tab => (slotsPerDay_congr hAccounted.ranks hAccounted.purchased _ _).trans (h.slots tab)
  have hPerDay := (moneyPerDay_congr hAccounted.ranks member.rankId).trans h.perDay
  by_cases hSender : sender = player
  · subst hSender
    obtain ⟨after, hAfter, hCharged⟩ := hAccounted.own member hMember
    obtain ⟨hTabs, hSum, hWithin⟩ := hCharged.within hRank h.slots h.perDay hUsed hMoney
    refine ⟨⟨⟨after, hAfter, hCharged.rankId, fun tab => (hTabs tab).2, hWithin⟩, hSlots, hPerDay⟩, ?_, ?_⟩
    · intro tab
      rw [usedSlots, usedSlots, hAfter, hMember, if_pos rfl]
      exact (hTabs tab).1
    · rw [usedMoney, usedMoney, hAfter, hMember, if_pos rfl]
      exact hSum
  · have hSame := hAccounted.others player (Ne.symm hSender)
    refine ⟨⟨⟨member, hSame.trans hMember, rfl, hUsed, hMoney⟩, hSlots, hPerDay⟩, ?_, ?_⟩
    · intro tab
      rw [usedSlots, usedSlots, hSame, if_neg hSender, Nat.add_zero]
    · rw [usedMoney, usedMoney, hSame, if_neg hSender, Nat.add_zero]

theorem WithinLimits.step {w : BankWorld ι} {player : ObjectGuid} {rankId : UInt8}
    {slots : BankTabId → Int32} {perDay : UInt32} (h : WithinLimits player rankId slots perDay w)
    (hRank : rankId ≠ grGuildmaster) (action : BankAction ι) (hKeeps : action.KeepsLimits player w) :
    WithinLimits player rankId slots perDay (action.step inv getMaxStackCount w) ∧
      (∀ tab, usedSlots player tab (action.step inv getMaxStackCount w) =
        usedSlots player tab w + action.gets inv getMaxStackCount player (fun r => r.taken tab) w) ∧
      usedMoney player (action.step inv getMaxStackCount w) =
        usedMoney player w + action.gets inv getMaxStackCount player Receipt.copper w := by
  cases action with
  | request sender inventory r =>
    have hHere : WithinLimits player rankId slots perDay ({ w with inventory } : BankWorld ι) :=
      ⟨h.record, h.slots, h.perDay⟩
    exact hHere.request hRank (accounted_request _ sender r)
  | change guild =>
    obtain ⟨hSame, hLimits⟩ := hKeeps
    obtain ⟨member, hMember, rfl, hUsed, hMoney⟩ := h.record
    obtain ⟨hSlots, hPerDay⟩ := hLimits member hMember
    refine ⟨⟨⟨member, hSame.trans hMember, rfl, hUsed, hMoney⟩,
      fun tab => (hSlots tab).trans (h.slots tab), hPerDay.trans h.perDay⟩, fun tab => ?_, ?_⟩
    · exact congrArg (fun found => Option.elim found 0 fun m => (m.bankWithdraw tab).toNat) hSame
    · exact congrArg (fun found => Option.elim found 0 fun m : Member => m.bankWithdrawMoney.toNat) hSame

theorem freeIfRefused (w : BankWorld ι) (action : BankAction ι) :
    action.FreeIfRefused inv getMaxStackCount w := by
  cases action with
  | request sender inventory r =>
    exact (accounted_request ({ w with inventory } : BankWorld ι) sender r).free
  | change guild => trivial

theorem WithinLimits.usedSlots_le (h : WithinLimits player rankId slots perDay w)
    (tab : BankTabId) : usedSlots player tab w ≤ (slots tab).toInt.toNat := by
  obtain ⟨found, hFound, -, hUsed, -⟩ := h.record
  rw [usedSlots, hFound]
  exact hUsed tab

theorem WithinLimits.usedMoney_le (h : WithinLimits player rankId slots perDay w) :
    usedMoney player w ≤ perDay.toNat * 10000 := by
  obtain ⟨found, hFound, -, -, hUsed⟩ := h.record
  rw [usedMoney, hFound]
  exact hUsed

theorem WithinLimits.run (h : WithinLimits player rankId slots perDay w)
    (hRank : rankId ≠ grGuildmaster) {actions : List (BankAction ι)}
    (hKeeps : Transition.Along (BankAction.step inv getMaxStackCount) (BankAction.KeepsLimits player)
      w actions) :
    (∀ tab, usedSlots player tab w + Transition.amount (BankAction.step inv getMaxStackCount)
      (BankAction.gets inv getMaxStackCount player fun r => r.taken tab) w actions ≤
        (slots tab).toInt.toNat) ∧
    usedMoney player w + Transition.amount (BankAction.step inv getMaxStackCount)
      (BankAction.gets inv getMaxStackCount player Receipt.copper) w actions ≤ perDay.toNat * 10000 := by
  constructor
  · intro tab
    apply @Transition.amount_le _ _ _ (WithinLimits player rankId slots perDay) _ (usedSlots player tab)
      _ _ _ _ _ h _ hKeeps
    · intro state action hState hAction
      obtain ⟨hNext, hSlots, -⟩ := hState.step hRank action hAction
      exact ⟨hNext, hSlots tab⟩
    · exact fun state hState => hState.usedSlots_le tab
  · apply @Transition.amount_le _ _ _ (WithinLimits player rankId slots perDay) _ (usedMoney player)
      _ _ _ _ _ h _ hKeeps
    · intro state action hState hAction
      obtain ⟨hNext, -, hMoney⟩ := hState.step hRank action hAction
      exact ⟨hNext, hMoney⟩
    · exact fun state hState => hState.usedMoney_le

def BankWorld.resetTimes (w : BankWorld ι) : BankWorld ι := { w with guild := w.guild.resetTimes }

theorem withinLimits_resetTimes (w : BankWorld ι)
    (hMember : w.guild.getMember player = some member) :
    WithinLimits player member.rankId
      (fun tab => w.guild.getRankBankTabSlotsPerDay member.rankId (UInt8.ofNat tab.val))
      (w.guild.getRankBankMoneyPerDay member.rankId) w.resetTimes ∧
    (∀ tab, usedSlots player tab w.resetTimes = 0) ∧ usedMoney player w.resetTimes = 0 := by
  have hReset : w.resetTimes.guild.getMember player = some member.resetValues := by
    have hMap := w.guild.members.find?_map Member.resetValues Member.key_resetValues player.toNat
    exact hMap.trans (congrArg (Option.map Member.resetValues) hMember)
  refine ⟨⟨⟨member.resetValues, hReset, rfl, fun _ => Nat.zero_le _, Nat.zero_le _⟩, fun _ => rfl, rfl⟩,
    fun tab => ?_, ?_⟩
  · rw [usedSlots, hReset]
    rfl
  · rw [usedMoney, hReset]
    rfl

/-- From one reset to the next, over all requests of all players and whatever else happens
to the guild, a member who is not its master and whose rank keeps its limits stays within
them, and a refused request costs nothing. -/
theorem limits_hold (inv : Inventory ι) (getMaxStackCount : UInt32 → UInt32) (w : BankWorld ι)
    {player : ObjectGuid} {member : Member} (hMember : w.guild.getMember player = some member)
    (hRank : member.rankId ≠ grGuildmaster) {actions : List (BankAction ι)}
    (hKeeps : Transition.Along (BankAction.step inv getMaxStackCount) (BankAction.KeepsLimits player)
      w.resetTimes actions) :
    (∀ tab : BankTabId,
      Transition.amount (BankAction.step inv getMaxStackCount)
        (BankAction.gets inv getMaxStackCount player fun r => r.taken tab) w.resetTimes actions ≤
      (w.guild.getRankBankTabSlotsPerDay member.rankId (UInt8.ofNat tab.val)).toInt.toNat) ∧
    Transition.amount (BankAction.step inv getMaxStackCount)
        (BankAction.gets inv getMaxStackCount player Receipt.copper) w.resetTimes actions ≤
      (w.guild.getRankBankMoneyPerDay member.rankId).toNat * 10000 ∧
    Transition.Along (BankAction.step inv getMaxStackCount)
      (BankAction.FreeIfRefused inv getMaxStackCount) w.resetTimes actions := by
  obtain ⟨hStart, hSlots, hMoney⟩ := withinLimits_resetTimes w hMember
  obtain ⟨hTaken, hCopper⟩ := hStart.run hRank hKeeps
  rw [hMoney, Nat.zero_add] at hCopper
  refine ⟨fun tab => ?_, hCopper, Transition.along_all freeIfRefused _ _⟩
  have hTab := hTaken tab
  rw [hSlots, Nat.zero_add] at hTab
  exact hTab

end Requests

/-- A guild whose officers may take one item of each tab and five gold a day. -/
def officersGuild : BankWorld Unit where
  guild :=
    { leaderGuid := ⟨1, 0⟩
      members := (KeyedSet.empty.emplace ⟨⟨1, 0⟩, grGuildmaster, fun _ => 0, 0⟩).emplace
        ⟨⟨2, 0⟩, grOfficer, fun _ => 0, 0⟩
      ranks := [⟨⟨grGuildmaster, "Guild Master", grRightAll, 0⟩, fun _ => ⟨0, guildBankRightFull, 0⟩⟩,
        ⟨⟨grOfficer, "Officer", grRightAll, 5⟩, fun _ => ⟨0, guildBankRightFull, 1⟩⟩]
      bankTabs := ⟨1, one_le_maxTabs, fun pos =>
        if pos.2.val < 2 then some ⟨pos.2.val, 100, 5, false⟩ else none⟩
      bankMoney := 1000000 }
  inventory := ()
  nextItemGuid := 2

def roomyBags : Inventory Unit where
  getItemByPos := fun _ _ _ => none
  isNotEmptyBag := fun _ _ => false
  canBeTraded := fun _ _ => true
  canStoreItem := fun _ _ _ _ _ => .ok []
  setCount := fun _ _ _ _ => ()
  moveItemFromInventory := fun _ _ _ => ()
  moveItemToInventory := fun _ _ _ => ()

/-- An officer asks for two items and for more than the gold of a day. -/
def greedyDay : List (BankAction Unit) :=
  [.request ⟨2, 0⟩ () (.swapItemsWithInventory true 0 0 0 23 0),
    .request ⟨2, 0⟩ () (.swapItemsWithInventory true 0 1 0 24 0),
    .request ⟨2, 0⟩ () (.withdrawMoney 40000 false true),
    .request ⟨2, 0⟩ () (.withdrawMoney 20000 true true)]

theorem limits_hold_greedyDay :
    (∀ tab : BankTabId, Transition.amount (BankAction.step roomyBags fun _ => 20)
      (BankAction.gets roomyBags (fun _ => 20) ⟨2, 0⟩ fun r => r.taken tab) officersGuild.resetTimes
        greedyDay ≤
      (officersGuild.guild.getRankBankTabSlotsPerDay grOfficer (UInt8.ofNat tab.val)).toInt.toNat) ∧
    Transition.amount (BankAction.step roomyBags fun _ => 20)
      (BankAction.gets roomyBags (fun _ => 20) ⟨2, 0⟩ Receipt.copper) officersGuild.resetTimes greedyDay ≤
        (officersGuild.guild.getRankBankMoneyPerDay grOfficer).toNat * 10000 ∧
    Transition.Along (BankAction.step roomyBags fun _ => 20)
      (BankAction.FreeIfRefused roomyBags fun _ => 20) officersGuild.resetTimes greedyDay := by
  have hMember : officersGuild.guild.getMember ⟨2, 0⟩ = some ⟨⟨2, 0⟩, grOfficer, fun _ => 0, 0⟩ := by
    decide +kernel
  have hRank : grOfficer ≠ grGuildmaster := by decide
  have hKeeps : Transition.Along (BankAction.step roomyBags fun _ => 20) (BankAction.KeepsLimits ⟨2, 0⟩)
      officersGuild.resetTimes greedyDay := by
    simp only [greedyDay, Transition.Along, BankAction.KeepsLimits, and_self]
  exact limits_hold roomyBags (fun _ => 20) officersGuild hMember hRank hKeeps

example : Transition.amount (BankAction.step roomyBags fun _ => 20)
    (BankAction.gets roomyBags (fun _ => 20) ⟨2, 0⟩ Receipt.copper) officersGuild.resetTimes
      greedyDay = 40000 := by
  decide +kernel

end AshamaneCore.Guilds
