import AshamaneCore.Game.PlayerMoney
import AshamaneCore.Library.KeyedSet
import Mathlib.Data.Finset.Basic

/-!
# The auction house

An auction is named by its id, which is given out once: the maps of the three
houses and the pending lists of the sellers hold ids, and following the id of a
removed auction has no meaning. What is computed in floating point is given by the
world: the minimal increment, the cut of the house and the deposit.
-/

namespace AshamaneCore.Auctions

open Library Players

inductive House
  | horde
  | alliance
  | neutral
  deriving DecidableEq

inductive AuctionError
  | ok
  | databaseError
  | notEnoughMoney
  | itemNotFound
  | higherBid
  | bidOwn
  deriving DecidableEq

inductive AuctionAction
  | sellItem
  | cancel
  | placeBid
  deriving DecidableEq

inductive MailAuctionAnswers
  | outbidded
  | won
  | successful
  | expired
  | cancelledToBidder
  | canceled
  | salePending
  deriving DecidableEq

structure AuctionItem where
  entry : Nat
  count : Nat
  deriving DecidableEq

structure AuctionEntry where
  id : Nat
  house : House
  auctioneer : Nat
  itemGuidLow : Nat
  itemEntry : Nat
  itemCount : Nat
  owner : Nat
  startbid : Nat
  bid : Nat
  buyout : Nat
  expireTime : Int
  bidder : Nat
  deposit : Nat
  etime : Nat
  auctionHouseEntry : Nat
  deriving DecidableEq

structure AuctionRow where
  id : Nat
  auctioneer : Nat
  itemGuidLow : Nat
  owner : Nat
  buyout : Nat
  expireTime : Nat
  bidder : Nat
  bid : Nat
  startbid : Nat
  deposit : Nat
  deriving DecidableEq

structure MailSubject where
  itemEntry : Nat
  response : MailAuctionAnswers
  id : Nat
  itemCount : Nat
  deriving DecidableEq

structure MailBody where
  lowGuid : Nat
  bid : Nat
  buyout : Nat
  deposit : Nat
  cut : Nat
  deriving DecidableEq

structure Mail where
  receiver : Nat
  subject : MailSubject
  body : MailBody
  money : Nat
  item : Option Nat
  deriving DecidableEq

/-- The auctions of a seller whose deposit is still to be charged. -/
structure PlayerAuctions where
  guid : Nat
  auctions : List Nat
  lastCount : Nat
  deriving DecidableEq

inductive Event
  | commandResult (player : Nat) (auction : Option Nat) (action : AuctionAction) (error : AuctionError)
  | depositCharged (seller auction amount : Nat)
  /-- The warning that the deposit of an offline seller could not be retrieved. -/
  | depositNotRetrieved (auction : Nat)
  deriving DecidableEq

structure World where
  characters : Finset Nat
  playerAccountIdByGuid : Nat → Nat
  hasAccount : ∀ guid, playerAccountIdByGuid guid ≠ 0 ↔ guid ∈ characters
  nobody : 0 ∉ characters
  isBotChar : Nat → Bool
  increment : Nat → Nat
  /-- The cut of a house from a bid, before negative ones are dropped. -/
  consignment : Nat → Nat → Int
  getAuctionDeposit : (house time : Nat) → AuctionItem → (count : Nat) → Nat
  /-- A deposit can be charged as a signed amount. -/
  depositRange : ∀ house time item count, getAuctionDeposit house time item count < 2 ^ 63

abbrev World.Ordinary (w : World) : Type := { guid : Nat // guid ∈ w.characters ∧ w.isBotChar guid = false }

abbrev World.Online (w : World) : Type := { online : Nat → Bool // ∀ guid, online guid = true → guid ∈ w.characters }

structure State where
  auctions : KeyedSet AuctionEntry.id
  nextAuctionId : Nat
  items : Nat → Option AuctionItem
  pending : KeyedSet PlayerAuctions.guid
  rows : KeyedSet AuctionRow.id
  money : Nat → Nat
  mails : List Mail
  history : List Event

/-! ## Entries and mails -/

namespace AuctionEntry

variable (w : World) (auction : AuctionEntry)

def getAuctionCut : Nat := (max (w.consignment auction.auctionHouseEntry auction.bid) 0).toNat

def getAuctionOutBid : Nat := if w.increment auction.bid ≠ 0 then w.increment auction.bid else 1

def saveToDB : AuctionRow :=
  { id := auction.id, auctioneer := auction.auctioneer, itemGuidLow := auction.itemGuidLow,
    owner := auction.owner, buyout := auction.buyout,
    expireTime := (auction.expireTime % 2 ^ 32).toNat, bidder := auction.bidder, bid := auction.bid,
    startbid := auction.startbid, deposit := auction.deposit }

def buildAuctionMailSubject (response : MailAuctionAnswers) : MailSubject :=
  { itemEntry := auction.itemEntry, response := response, id := auction.id,
    itemCount := auction.itemCount }

end AuctionEntry

namespace State

variable (s : State)

def record (event : Event) : State := { s with history := s.history ++ [event] }

def send (mail : Mail) : State := { s with mails := s.mails ++ [mail] }

def getAuction (house : House) (id : Nat) : Option AuctionEntry :=
  (s.auctions.find? id).filter fun auction => auction.house = house

def write (auction : AuctionEntry) : State := { s with auctions := s.auctions.assign auction }

/-- An auction is removed with its item and its row; pending lists are not looked at. -/
def removeAuction (auction : AuctionEntry) : State :=
  { s with
    auctions := s.auctions.erase auction.id
    items := Function.update s.items auction.itemGuidLow none
    rows := s.rows.erase auction.id }

def charge (player : Nat) (amount : Nat) : State :=
  { s with
    money := Function.update s.money player (modifyMoney (s.money player) (-asInt64 amount)) }

end State

section

variable (w : World) (online : w.Online)

/-- A player of this guid exists, online or offline, and is not of the auction bot. -/
def World.takesMail (guid : Nat) : Bool :=
  (online.val guid || w.playerAccountIdByGuid guid ≠ 0) && !w.isBotChar guid

/-- The item of a bidder who does not exist is deleted, which no later step looks at. -/
def sendAuctionWonMail (s : State) (auction : AuctionEntry) : State :=
  if (s.items auction.itemGuidLow).isNone then s
  else if w.takesMail online auction.bidder then
    s.send
      { receiver := auction.bidder, subject := auction.buildAuctionMailSubject .won,
        body := { lowGuid := auction.owner, bid := auction.bid, buyout := auction.buyout, deposit := 0,
                  cut := 0 },
        money := 0, item := some auction.itemGuidLow }
  else { s with items := Function.update s.items auction.itemGuidLow none }

def sendAuctionSalePendingMail (s : State) (auction : AuctionEntry) : State :=
  if w.takesMail online auction.owner then
    s.send
      { receiver := auction.owner, subject := auction.buildAuctionMailSubject .salePending,
        body := { lowGuid := auction.bidder, bid := auction.bid, buyout := auction.buyout,
                  deposit := auction.deposit, cut := auction.getAuctionCut w },
        money := 0, item := none }
  else s

/-- The profit of the seller is computed in unsigned 64-bit arithmetic. -/
def auctionProfit (auction : AuctionEntry) : Nat :=
  (auction.bid + auction.deposit + (2 ^ 64 - auction.getAuctionCut w % 2 ^ 64)) % 2 ^ 64

def sendAuctionSuccessfulMail (s : State) (auction : AuctionEntry) : State :=
  if w.takesMail online auction.owner then
    s.send
      { receiver := auction.owner, subject := auction.buildAuctionMailSubject .successful,
        body := { lowGuid := auction.bidder, bid := auction.bid, buyout := auction.buyout,
                  deposit := auction.deposit, cut := auction.getAuctionCut w },
        money := auctionProfit w auction, item := none }
  else s

def sendAuctionExpiredMail (s : State) (auction : AuctionEntry) : State :=
  if (s.items auction.itemGuidLow).isNone then s
  else if w.takesMail online auction.owner then
    s.send
      { receiver := auction.owner, subject := auction.buildAuctionMailSubject .expired,
        body := { lowGuid := 0, bid := 0, buyout := auction.buyout, deposit := auction.deposit, cut := 0 },
        money := 0, item := some auction.itemGuidLow }
  else { s with items := Function.update s.items auction.itemGuidLow none }

def sendAuctionOutbiddedMail (s : State) (auction : AuctionEntry) : State :=
  if w.takesMail online auction.bidder then
    s.send
      { receiver := auction.bidder, subject := auction.buildAuctionMailSubject .outbidded,
        body := { lowGuid := auction.owner, bid := auction.bid, buyout := auction.buyout,
                  deposit := auction.deposit, cut := auction.getAuctionCut w },
        money := auction.bid, item := none }
  else s

def sendAuctionCancelledToBidderMail (s : State) (auction : AuctionEntry) : State :=
  if w.takesMail online auction.bidder then
    s.send
      { receiver := auction.bidder, subject := auction.buildAuctionMailSubject .cancelledToBidder,
        body := { lowGuid := auction.owner, bid := auction.bid, buyout := auction.buyout,
                  deposit := auction.deposit, cut := 0 },
        money := auction.bid, item := none }
  else s

end

/-! ## Pending deposits -/

def pendingAuctionAdd (s : State) (player auction : Nat) : State :=
  match s.pending.find? player with
  | some list =>
    { s with pending := s.pending.assign { list with auctions := list.auctions ++ [auction] } }
  | none =>
    { s with pending := s.pending.assign { guid := player, auctions := [auction], lastCount := 0 } }

/-- The deposit of the batch is divided evenly, and the last auction gets the rest. -/
def depositShares (total count : Nat) : List Nat :=
  List.replicate (count - 1) (total / count) ++ [total - (count - 1) * (total / count)]

def chargedShares : (paid : Nat) → List Nat → List Nat
  | _, [] => []
  | paid, share :: shares => min paid share :: chargedShares (paid - min paid share) shares

section

variable (w : World)

def totalDeposit (s : State) (first : AuctionEntry) (totalItems : Nat) : Nat :=
  match s.items first.itemGuidLow with
  | some item => w.getAuctionDeposit first.auctionHouseEntry first.etime item totalItems
  | none => 0

def assignDeposit (seller : Nat) (s : State) (line : AuctionEntry × Nat × Nat) : State :=
  let auction : AuctionEntry := { line.1 with deposit := line.2.1 }
  { s.write auction with
    rows := s.rows.assign auction.saveToDB
    history := s.history ++ [.depositCharged seller auction.id line.2.2] }

def State.moneyAfter (s : State) (player total : Nat) : Nat :=
  modifyMoney (s.money player) (-asInt64 total)

/-- Every auction of a batch with its deposit and what was charged for it. -/
def depositLines (s : State) (player : Nat) (auctions : List AuctionEntry) (total : Nat) :
    List (AuctionEntry × Nat × Nat) :=
  auctions.zip ((depositShares total auctions.length).zip
    (chargedShares (s.money player - s.moneyAfter player total) (depositShares total auctions.length)))

def processBatch (s : State) (player : Nat) (auctions : List AuctionEntry) (total : Nat) : State :=
  { (depositLines s player auctions total).foldl (assignDeposit player) s with
    pending := s.pending.erase player
    money := Function.update s.money player (s.moneyAfter player total) }

def pendingAuctionProcess (s : State) (player : Nat) : Option State :=
  match s.pending.find? player with
  | none => some s
  | some list =>
    (s.auctions.findAll? list.auctions).bind fun auctions =>
    auctions.head?.map fun first =>
      processBatch s player auctions
        (totalDeposit w s first (auctions.foldl (fun n a => (n + a.itemCount) % 2 ^ 32) 0))

/-- One auction of a seller who is offline is let run out, with the deposit it has. -/
def expirePending (now : Int) (s : State) (auction : AuctionEntry) : State :=
  let expired : AuctionEntry := { auction with expireTime := now }
  { s.write expired with
    rows := s.rows.assign expired.saveToDB
    history := s.history ++ [.depositNotRetrieved auction.id] }

def expireBatch (now : Int) (s : State) (player : Nat) (auctions : List AuctionEntry) : State :=
  { auctions.foldl (expirePending now) s with pending := s.pending.erase player }

def updatePending (online : w.Online) (now : Int) (s : State) (list : PlayerAuctions) : Option State :=
  if online.val list.guid then
    if list.auctions.length = list.lastCount then pendingAuctionProcess w s list.guid
    else some { s with pending := s.pending.assign { list with lastCount := list.auctions.length } }
  else (s.auctions.findAll? list.auctions).map (expireBatch now s list.guid)

def updatePendingAuctions (online : w.Online) (now : Int) (s : State) : Option State :=
  s.pending.entries.foldlM (updatePending w online now) s

end

/-! ## Requests -/

structure SellRequest (w : World) where
  player : w.Ordinary
  canInteract : Bool
  house : House
  auctionHouseEntry : Nat
  auctioneer : Nat
  minBid : Nat
  buyoutPrice : Nat
  runTime : Nat
  /-- The item to auction and its low guid, or the error of the checks of the inventory. -/
  item : Except AuctionError (Nat × AuctionItem)
  expireTime : Int

structure BidRequest (w : World) where
  player : w.Ordinary
  canInteract : Bool
  house : House
  auctionItemId : Nat
  bidAmount : Nat
  online : w.Online
  ownerInWorld : Bool

structure RemoveRequest (w : World) where
  player : w.Ordinary
  canInteract : Bool
  house : House
  auctionItemId : Nat
  online : w.Online

section

variable (w : World)

def minAuctionTime : Nat := 12 * 3600

def newAuction (s : State) (request : SellRequest w) (guid : Nat) (item : AuctionItem) (deposit : Nat) :
    AuctionEntry :=
  { id := s.nextAuctionId, house := request.house, auctioneer := request.auctioneer,
    itemGuidLow := guid, itemEntry := item.entry, itemCount := item.count,
    owner := request.player.val, startbid := request.minBid, bid := 0, buyout := request.buyoutPrice,
    expireTime := request.expireTime, bidder := 0, deposit := deposit, etime := request.runTime,
    auctionHouseEntry := request.auctionHouseEntry }

def addAuction (s : State) (item : AuctionItem) (auction : AuctionEntry) : State :=
  { s with
    auctions := s.auctions.assign auction
    nextAuctionId := s.nextAuctionId + 1
    items := Function.update s.items auction.itemGuidLow (some item)
    rows := s.rows.assign auction.saveToDB }

/-- The auction is added to its map and to the pending list of the seller. -/
def listAuction (s : State) (request : SellRequest w) (guid : Nat) (item : AuctionItem) : State :=
  (pendingAuctionAdd (addAuction s item (newAuction w s request guid item
    (w.getAuctionDeposit request.auctionHouseEntry request.runTime item item.count)))
    request.player.val s.nextAuctionId).record
      (.commandResult request.player.val (some s.nextAuctionId) .sellItem .ok)

def handleAuctionSellItem (s : State) (request : SellRequest w) : State :=
  if request.minBid = 0 ∨ request.runTime = 0 then s
  else if maxMoneyAmount < request.minBid ∨ maxMoneyAmount < request.buyoutPrice then
    s.record (.commandResult request.player.val none .sellItem .databaseError)
  else if request.canInteract = false then s
  else if request.runTime ≠ minAuctionTime ∧ request.runTime ≠ 2 * minAuctionTime ∧
      request.runTime ≠ 4 * minAuctionTime then s
  else match request.item with
    | .error error => s.record (.commandResult request.player.val none .sellItem error)
    | .ok (guid, item) =>
      if (s.items guid).isSome then
        s.record (.commandResult request.player.val none .sellItem .databaseError)
      else if hasEnoughMoney (s.money request.player.val)
          (w.getAuctionDeposit request.auctionHouseEntry request.runTime item item.count) = false then
        s.record (.commandResult request.player.val none .sellItem .notEnoughMoney)
      else listAuction w s request guid item

inductive BidOutcome
  | ignored
  | refused (auction : Option Nat) (error : AuctionError)
  | bid (auction : AuctionEntry)
  | buyout (auction : AuctionEntry)
  deriving DecidableEq

def checkBid (s : State) (request : BidRequest w) : BidOutcome :=
  if request.auctionItemId = 0 ∨ request.bidAmount = 0 then .ignored
  else if request.canInteract = false then .ignored
  else match s.getAuction request.house request.auctionItemId with
    | none => .refused none .bidOwn
    | some auction =>
      if auction.owner = request.player.val then .refused none .bidOwn
      else if request.ownerInWorld = false ∧
          w.playerAccountIdByGuid auction.owner = w.playerAccountIdByGuid request.player.val then
        .refused none .bidOwn
      else if request.bidAmount ≤ auction.bid ∨ request.bidAmount < auction.startbid then .ignored
      else if (request.bidAmount < auction.buyout ∨ auction.buyout = 0) ∧
          request.bidAmount < (auction.bid + auction.getAuctionOutBid w) % 2 ^ 64 then
        .refused (some auction.id) .higherBid
      else if hasEnoughMoney (s.money request.player.val) request.bidAmount = false then
        .refused (some auction.id) .notEnoughMoney
      else if request.bidAmount < auction.buyout ∨ auction.buyout = 0 then .bid auction
      else .buyout auction

def updateBid (auction : AuctionEntry) (row : AuctionRow) : AuctionRow :=
  { row with bidder := auction.bidder, bid := auction.bid }

/-- A bidder pays the difference to his own bid, or the bid while the other bidder is refunded. -/
def payBid (s : State) (request : BidRequest w) (auction : AuctionEntry) : State :=
  if auction.bidder ≠ 0 then
    if auction.bidder = request.player.val then
      s.charge request.player.val (request.bidAmount - auction.bid)
    else
      (sendAuctionOutbiddedMail w request.online s auction).charge request.player.val request.bidAmount
  else s.charge request.player.val request.bidAmount

def placeBid (s : State) (request : BidRequest w) (auction : AuctionEntry) : State :=
  let raised : AuctionEntry := { auction with bidder := request.player.val, bid := request.bidAmount }
  { (payBid w s request auction).write raised with
    rows := (payBid w s request auction).rows.alter auction.id (updateBid raised) fun _ => rfl
    history := (payBid w s request auction).history ++
      [.commandResult request.player.val (some auction.id) .placeBid .ok] }

/-- The difference of a buyout to an own bid is taken modulo 2^64. -/
def payBuyout (s : State) (request : BidRequest w) (auction : AuctionEntry) : State :=
  if request.player.val = auction.bidder then
    s.charge request.player.val ((auction.buyout + (2 ^ 64 - auction.bid)) % 2 ^ 64)
  else if auction.bidder ≠ 0 then
    sendAuctionOutbiddedMail w request.online (s.charge request.player.val auction.buyout) auction
  else s.charge request.player.val auction.buyout

def buyoutAuction (s : State) (request : BidRequest w) (auction : AuctionEntry) : State :=
  let sold : AuctionEntry := { auction with bidder := request.player.val, bid := auction.buyout }
  (sendAuctionWonMail w request.online (sendAuctionSuccessfulMail w request.online
    (sendAuctionSalePendingMail w request.online ((payBuyout w s request auction).record
      (.commandResult request.player.val (some auction.id) .placeBid .ok)) sold) sold) sold).removeAuction sold

def handleAuctionPlaceBid (s : State) (request : BidRequest w) : State :=
  match checkBid w s request with
  | .ignored => s
  | .refused auction error => s.record (.commandResult request.player.val auction .placeBid error)
  | .bid auction => placeBid w s request auction
  | .buyout auction => buyoutAuction w s request auction

/-- The auction that an owner may cancel, unless he cannot pay the cut. -/
inductive CancelOutcome
  | ignored
  | refused
  | cancelled (auction : AuctionEntry)
  deriving DecidableEq

def checkCancel (s : State) (request : RemoveRequest w) : CancelOutcome :=
  if request.canInteract = false then .ignored
  else match s.getAuction request.house request.auctionItemId with
    | none => .refused
    | some auction =>
      if auction.owner ≠ request.player.val then .refused
      else if (s.items auction.itemGuidLow).isNone then .refused
      else if auction.bidder ≠ 0 ∧
          hasEnoughMoney (s.money request.player.val) (auction.getAuctionCut w) = false then .ignored
      else .cancelled auction

def payCut (s : State) (request : RemoveRequest w) (auction : AuctionEntry) : State :=
  if auction.bidder ≠ 0 then
    (sendAuctionCancelledToBidderMail w request.online s auction).charge request.player.val
      (auction.getAuctionCut w)
  else s

def cancelAuction (s : State) (request : RemoveRequest w) (auction : AuctionEntry) : State :=
  (((payCut w s request auction).send
    { receiver := request.player.val, subject := auction.buildAuctionMailSubject .canceled,
      body := { lowGuid := 0, bid := 0, buyout := auction.buyout, deposit := auction.deposit, cut := 0 },
      money := 0, item := some auction.itemGuidLow }).record
    (.commandResult request.player.val (some auction.id) .cancel .ok)).removeAuction auction

def handleAuctionRemoveItem (s : State) (request : RemoveRequest w) : State :=
  match checkCancel w s request with
  | .ignored => s
  | .refused => s.record (.commandResult request.player.val none .cancel .databaseError)
  | .cancelled auction => cancelAuction w s request auction

/-! ## Expiry -/

def expireAuction (online : w.Online) (now : Int) (s : State) (auction : AuctionEntry) : State :=
  if now + 60 < auction.expireTime then s
  else if auction.bidder = 0 ∧ auction.bid = 0 then
    (sendAuctionExpiredMail w online s auction).removeAuction auction
  else
    (sendAuctionWonMail w online (sendAuctionSuccessfulMail w online s auction) auction).removeAuction
      auction

def updateHouse (online : w.Online) (house : House) (now : Int) (s : State) : State :=
  (s.auctions.entries.filter fun auction => auction.house = house).foldl (expireAuction w online now) s

inductive Operation
  | sellItem (request : SellRequest w)
  | placeBid (request : BidRequest w)
  | removeItem (request : RemoveRequest w)
  | update (online : w.Online) (house : House) (now : Int)
  | updatePending (online : w.Online) (now : Int)

def operate (s : State) : Operation w → Option State
  | .sellItem request => some (handleAuctionSellItem w s request)
  | .placeBid request => some (handleAuctionPlaceBid w s request)
  | .removeItem request => some (handleAuctionRemoveItem w s request)
  | .update online house now => some (updateHouse w online house now s)
  | .updatePending online now => updatePendingAuctions w online now s

def next (s : State) (operation : Operation w) : State := (operate w s operation).getD s

end

abbrev Purse : Type := { money : Nat // money ≤ maxMoneyAmount }

def State.initial (money : Nat → Purse) : State :=
  { auctions := KeyedSet.empty, nextAuctionId := 1, items := fun _ => none, pending := KeyedSet.empty,
    rows := KeyedSet.empty, money := fun guid => (money guid).val, mails := [], history := [] }

end AshamaneCore.Auctions
