import AshamaneCore.Game.AuctionHouseMgr
import AshamaneCore.Library.Transition
import Mathlib.Algebra.BigOperators.Group.Finset.Basic
import Mathlib.Algebra.Order.Ring.Int

/-!
# The gold that goes through the auction house

Gold is with the players, in their mails, or staked on auctions. Bids and
refunds move it between the three, and only the cut of the house and the
deposit that comes back with a sale change the sum.
-/

namespace AshamaneCore.Auctions

open Library Library.Transition Players

/-! ## Where the gold is -/

def mailGold : List Mail → Int
  | [] => 0
  | mail :: mails => mail.money + mailGold mails

theorem mailGold_concat (mails : List Mail) (mail : Mail) :
    mailGold (mails ++ [mail]) = mailGold mails + mail.money := by
  induction mails with
  | nil => exact Int.add_comm ..
  | cons first mails ih => rw [List.cons_append, mailGold, mailGold, ih, add_assoc]

def stake (auction : AuctionEntry) : Int := if auction.bidder ≠ 0 then auction.bid else 0

def State.gold (w : World) (s : State) : Int := ∑ guid ∈ w.characters, (s.money guid : Int)

def State.wealth (w : World) (s : State) : Int :=
  s.gold w + mailGold s.mails + s.auctions.total stake

section

variable (w : World) (s : State)

@[simp] theorem wealth_record (event : Event) : (s.record event).wealth w = s.wealth w := rfl

@[simp] theorem wealth_send (mail : Mail) : (s.send mail).wealth w = s.wealth w + mail.money := by
  have hSent : (s.send mail).wealth w = s.gold w + mailGold (s.mails ++ [mail]) + s.auctions.total stake := rfl
  rw [hSent, mailGold_concat, State.wealth]
  omega

theorem gold_charge {player amount : Nat} (hPlayer : player ∈ w.characters)
    (hMoney : amount ≤ s.money player) (hMax : s.money player ≤ maxMoneyAmount) :
    (s.charge player amount).wealth w = s.wealth w - amount := by
  have hSmall : asInt64 amount = amount := by
    refine asInt64_of_lt ((hMoney.trans hMax).trans_lt ?_)
    decide
  have hGold : (s.charge player amount).gold w = s.gold w - amount := by
    rw [State.gold, State.gold, State.charge, hSmall, modifyMoney_charge hMoney,
      ← Finset.add_sum_erase _ _ hPlayer, ← Finset.add_sum_erase _ _ hPlayer]
    dsimp only
    rw [Function.update_self]
    have hOthers : ∀ guid ∈ w.characters.erase player,
        ((Function.update s.money player (s.money player - amount) guid : Nat) : Int) = s.money guid :=
      fun guid hGuid => by rw [Function.update_of_ne (Finset.ne_of_mem_erase hGuid)]
    rw [Finset.sum_congr rfl hOthers]
    omega
  have hCharged : (s.charge player amount).wealth w =
      (s.charge player amount).gold w + mailGold s.mails + s.auctions.total stake := rfl
  rw [hCharged, hGold, State.wealth]
  omega

theorem wealth_write {auction old : AuctionEntry} (hOld : s.auctions.find? auction.id = some old) :
    (s.write auction).wealth w = s.wealth w - stake old + stake auction := by
  have hWritten : (s.write auction).wealth w =
      s.gold w + mailGold s.mails + (s.auctions.assign auction).total stake := rfl
  rw [hWritten, KeyedSet.total_assign stake hOld, State.wealth]
  omega

theorem wealth_removeAuction {auction old : AuctionEntry} (hOld : s.auctions.find? auction.id = some old) :
    (s.removeAuction auction).wealth w = s.wealth w - stake old := by
  have hRemoved : (s.removeAuction auction).wealth w =
      s.gold w + mailGold s.mails + (s.auctions.erase auction.id).total stake := rfl
  rw [hRemoved, KeyedSet.total_erase stake hOld, State.wealth]
  omega

end

/-! ## Mails -/

/-- A state that differs in nothing a player owns but the mail of some gold. -/
structure Mailed (w : World) (amount : Int) (s s' : State) : Prop where
  wealth : s'.wealth w = s.wealth w + amount
  auctions : s'.auctions = s.auctions
  money : s'.money = s.money

section

variable {w : World} {online : w.Online} {s : State} {auction : AuctionEntry}

theorem takesMail_ordinary {guid : Nat} (h : guid ∈ w.characters) (hBot : w.isBotChar guid = false) :
    w.takesMail online guid = true := by
  rw [World.takesMail, hBot, decide_eq_true ((w.hasAccount guid).mpr h), Bool.or_true]
  rfl

theorem mailed_send {mail : Mail} {amount : Int} (h : (mail.money : Int) = amount) :
    Mailed w amount s (s.send mail) := ⟨h ▸ wealth_send w s mail, rfl, rfl⟩

variable (online s auction) in
theorem mailed_won : Mailed w 0 s (sendAuctionWonMail w online s auction) := by
  rw [sendAuctionWonMail]
  split
  · exact ⟨(add_zero _).symm, rfl, rfl⟩
  · split
    · exact mailed_send rfl
    · exact ⟨(add_zero _).symm, rfl, rfl⟩

variable (online s auction) in
theorem mailed_salePending : Mailed w 0 s (sendAuctionSalePendingMail w online s auction) := by
  rw [sendAuctionSalePendingMail]
  split
  · exact mailed_send rfl
  · exact ⟨(add_zero _).symm, rfl, rfl⟩

variable (online s) in
theorem mailed_successful (h : auction.owner ∈ w.characters) (hBot : w.isBotChar auction.owner = false) :
    Mailed w (auctionProfit w auction) s (sendAuctionSuccessfulMail w online s auction) := by
  rw [sendAuctionSuccessfulMail, takesMail_ordinary h hBot, if_pos rfl]
  exact mailed_send rfl

variable (online s) in
theorem mailed_outbidded (h : auction.bidder ∈ w.characters) (hBot : w.isBotChar auction.bidder = false) :
    Mailed w auction.bid s (sendAuctionOutbiddedMail w online s auction) := by
  rw [sendAuctionOutbiddedMail, takesMail_ordinary h hBot, if_pos rfl]
  exact mailed_send rfl

variable (online s) in
theorem mailed_cancelled (h : auction.bidder ∈ w.characters) (hBot : w.isBotChar auction.bidder = false) :
    Mailed w auction.bid s (sendAuctionCancelledToBidderMail w online s auction) := by
  rw [sendAuctionCancelledToBidderMail, takesMail_ordinary h hBot, if_pos rfl]
  exact mailed_send rfl

end

/-- Mails leave everything as it is but the mails themselves and deleted items. -/
structure Framed (s s' : State) : Prop where
  auctions : s'.auctions = s.auctions
  nextAuctionId : s'.nextAuctionId = s.nextAuctionId
  pending : s'.pending = s.pending
  rows : s'.rows = s.rows
  money : s'.money = s.money
  history : s'.history = s.history

section

variable (w : World) (online : w.Online) (s : State) (auction : AuctionEntry)

theorem framed_won : Framed s (sendAuctionWonMail w online s auction) := by
  rw [sendAuctionWonMail]
  split
  · exact ⟨rfl, rfl, rfl, rfl, rfl, rfl⟩
  · split <;> exact ⟨rfl, rfl, rfl, rfl, rfl, rfl⟩

theorem framed_successful : Framed s (sendAuctionSuccessfulMail w online s auction) := by
  rw [sendAuctionSuccessfulMail]
  split <;> exact ⟨rfl, rfl, rfl, rfl, rfl, rfl⟩

theorem framed_expired : Framed s (sendAuctionExpiredMail w online s auction) := by
  rw [sendAuctionExpiredMail]
  split
  · exact ⟨rfl, rfl, rfl, rfl, rfl, rfl⟩
  · split <;> exact ⟨rfl, rfl, rfl, rfl, rfl, rfl⟩

end

theorem Framed.trans {s s' s'' : State} (h : Framed s s') (hNext : Framed s' s'') : Framed s s'' :=
  ⟨hNext.auctions.trans h.auctions, hNext.nextAuctionId.trans h.nextAuctionId,
    hNext.pending.trans h.pending, hNext.rows.trans h.rows, hNext.money.trans h.money,
    hNext.history.trans h.history⟩

/-! ## What is listed -/

/-- The parties of an auction exist and are no bots, and a bid is below the buyout. -/
structure Fair (w : World) (auction : AuctionEntry) : Prop where
  owner : auction.owner ∈ w.characters ∧ w.isBotChar auction.owner = false
  bidder : auction.bidder ≠ 0 → auction.bidder ∈ w.characters ∧ w.isBotChar auction.bidder = false
  below : auction.buyout ≠ 0 → auction.bid < auction.buyout
  bid : auction.bid ≤ maxMoneyAmount
  buyout : auction.buyout ≤ maxMoneyAmount

structure Sound (w : World) (s : State) : Prop where
  fair : ∀ auction ∈ s.auctions.entries, Fair w auction
  purse : ∀ guid, s.money guid ≤ maxMoneyAmount

variable {w : World} {s : State}

theorem Sound.of_find (h : Sound w s) {id : Nat} {auction : AuctionEntry}
    (hFind : s.auctions.find? id = some auction) : Fair w auction :=
  h.fair auction (KeyedSet.find?_eq_some_iff.mp hFind).1

theorem getAuction_find {house : House} {id : Nat} {auction : AuctionEntry}
    (h : s.getAuction house id = some auction) :
    s.auctions.find? auction.id = some auction ∧ auction.id = id := by
  obtain ⟨hFind, -⟩ := Option.filter_eq_some_iff.mp h
  have hId := (KeyedSet.find?_eq_some_iff.mp hFind).2
  exact ⟨hId ▸ hFind, hId⟩

/-! ## Bids -/

/-- A bid that passed the checks: it is above the last one, and the player has the money. -/
structure Admitted (s : State) (request : BidRequest w) (auction : AuctionEntry) : Prop where
  found : s.auctions.find? auction.id = some auction
  higher : auction.bid < request.bidAmount
  covered : request.bidAmount ≤ s.money request.player.val

theorem checkBid_bid {request : BidRequest w} {auction : AuctionEntry}
    (h : checkBid w s request = .bid auction) :
    Admitted s request auction ∧ (auction.buyout ≠ 0 → request.bidAmount < auction.buyout) := by
  simp only [checkBid] at h
  split at h
  · cases h
  · split at h
    · cases h
    · split at h
      · cases h
      · rename_i found hFound
        split_ifs at h with hOwner hAccount hCheat hLow hMoney hBelow
        obtain rfl := BidOutcome.bid.inj h
        rw [not_or, not_le] at hCheat
        refine ⟨⟨(getAuction_find hFound).1, hCheat.1, by simpa [hasEnoughMoney] using hMoney⟩, fun hBuyout => ?_⟩
        exact hBelow.resolve_right hBuyout

theorem checkBid_buyout {request : BidRequest w} {auction : AuctionEntry}
    (h : checkBid w s request = .buyout auction) :
    Admitted s request auction ∧ auction.buyout ≠ 0 ∧ auction.buyout ≤ request.bidAmount := by
  simp only [checkBid] at h
  split at h
  · cases h
  · split at h
    · cases h
    · split at h
      · cases h
      · rename_i found hFound
        split_ifs at h with hOwner hAccount hCheat hLow hMoney hBelow
        obtain rfl := BidOutcome.buyout.inj h
        rw [not_or, not_le] at hCheat
        rw [not_or, not_lt] at hBelow
        exact ⟨⟨(getAuction_find hFound).1, hCheat.1, by simpa [hasEnoughMoney] using hMoney⟩, hBelow.2, hBelow.1⟩

/-- A player has paid an amount in full, and others were mailed some gold. -/
structure Paid (w : World) (player amount : Nat) (mailed : Int) (s s' : State) : Prop where
  covered : amount ≤ s.money player
  wealth : s'.wealth w = s.wealth w - amount + mailed
  auctions : s'.auctions = s.auctions
  money : s'.money = Function.update s.money player (s.money player - amount)

theorem charge_money {player amount : Nat} (hMoney : amount ≤ s.money player)
    (hMax : s.money player ≤ maxMoneyAmount) :
    (s.charge player amount).money = Function.update s.money player (s.money player - amount) := by
  have hSmall : asInt64 amount = amount := by
    refine asInt64_of_lt ((hMoney.trans hMax).trans_lt ?_)
    decide
  rw [State.charge, hSmall, modifyMoney_charge hMoney]

theorem paid_charge (h : Sound w s) (player : w.Ordinary) {amount : Nat} (hMoney : amount ≤ s.money player.val) :
    Paid w player.val amount 0 s (s.charge player.val amount) := by
  refine ⟨hMoney, ?_, rfl, charge_money hMoney (h.purse _)⟩
  rw [gold_charge w s player.property.1 hMoney (h.purse _), add_zero]

theorem Mailed.paid {s' : State} {player amount : Nat} {mailed : Int} (h : Mailed w mailed s s')
    {s'' : State} (hPaid : Paid w player amount 0 s' s'') : Paid w player amount mailed s s'' := by
  have hMoney := hPaid.money
  rw [h.money] at hMoney
  refine ⟨h.money ▸ hPaid.covered, ?_, hPaid.auctions.trans h.auctions, hMoney⟩
  rw [hPaid.wealth, h.wealth]
  omega

theorem Paid.mailed {s' s'' : State} {player amount : Nat} {first mailed : Int}
    (h : Paid w player amount first s s') (hMailed : Mailed w mailed s' s'') :
    Paid w player amount (first + mailed) s s'' := by
  refine ⟨h.covered, ?_, hMailed.auctions.trans h.auctions, hMailed.money.trans h.money⟩
  rw [hMailed.wealth, h.wealth]
  omega

theorem Mailed.sound {s' : State} {mailed : Int} (h : Mailed w mailed s s') (hSound : Sound w s) :
    Sound w s' := by
  refine ⟨?_, ?_⟩
  · rw [h.auctions]
    exact hSound.fair
  · rw [h.money]
    exact hSound.purse

theorem Paid.purse {s' : State} {player amount : Nat} {mailed : Int} (h : Paid w player amount mailed s s')
    (hSound : Sound w s) (guid : Nat) : s'.money guid ≤ maxMoneyAmount := by
  rw [h.money]
  rcases eq_or_ne guid player with rfl | hNe
  · rw [Function.update_self]
    exact (Nat.sub_le _ _).trans (hSound.purse guid)
  · rw [Function.update_of_ne hNe]
    exact hSound.purse guid

def bidCharge (request : BidRequest w) (auction : AuctionEntry) (amount : Nat) : Nat :=
  if auction.bidder = request.player.val then amount - auction.bid else amount

theorem World.Ordinary.ne_zero (player : w.Ordinary) : player.val ≠ 0 :=
  fun hZero => w.nobody (hZero ▸ player.property.1)

theorem bidCharge_le (request : BidRequest w) (auction : AuctionEntry) (amount : Nat) :
    bidCharge request auction amount ≤ amount := by
  rw [bidCharge]
  split <;> omega

theorem bidCharge_stake (request : BidRequest w) (auction : AuctionEntry) {amount : Nat}
    (h : auction.bid ≤ amount) :
    -(bidCharge request auction amount : Int) +
        (if auction.bidder = request.player.val then 0 else stake auction) =
      stake auction - amount := by
  rw [bidCharge]
  split
  · rename_i hOwn
    rw [stake, if_pos (hOwn ▸ request.player.ne_zero)]
    omega
  · omega

theorem paid_bid (h : Sound w s) {request : BidRequest w} {auction : AuctionEntry}
    (hAdmitted : Admitted s request auction) :
    Paid w request.player.val (bidCharge request auction request.bidAmount)
      (if auction.bidder = request.player.val then 0 else stake auction) s
      (payBid w s request auction) := by
  have hCovered := (bidCharge_le request auction request.bidAmount).trans hAdmitted.covered
  rcases eq_or_ne auction.bidder request.player.val with hOwn | hOther
  · rw [bidCharge, if_pos hOwn] at hCovered ⊢
    rw [if_pos hOwn, payBid, if_pos (hOwn ▸ request.player.ne_zero), if_pos hOwn]
    exact paid_charge h request.player hCovered
  · rw [bidCharge, if_neg hOther, if_neg hOther, stake, payBid]
    rcases eq_or_ne auction.bidder 0 with hNobody | hBidder
    · rw [if_neg (not_not_intro hNobody), if_neg (not_not_intro hNobody)]
      exact paid_charge h request.player hAdmitted.covered
    · obtain ⟨hCharacter, hBot⟩ := (h.of_find hAdmitted.found).bidder hBidder
      have hMailed := mailed_outbidded request.online s hCharacter hBot
      rw [if_pos hBidder, if_pos hBidder, if_neg hOther]
      refine hMailed.paid (paid_charge (hMailed.sound h) request.player ?_)
      rw [hMailed.money]
      exact hAdmitted.covered

theorem paid_buyout (h : Sound w s) {request : BidRequest w} {auction : AuctionEntry}
    (hAdmitted : Admitted s request auction) (hBuyout : auction.buyout ≠ 0)
    (hCovers : auction.buyout ≤ request.bidAmount) :
    Paid w request.player.val (bidCharge request auction auction.buyout)
      (if auction.bidder = request.player.val then 0 else stake auction) s
      (payBuyout w s request auction) := by
  have hFair := h.of_find hAdmitted.found
  have hMoney := hCovers.trans hAdmitted.covered
  have hCovered := (bidCharge_le request auction auction.buyout).trans hMoney
  rcases eq_or_ne auction.bidder request.player.val with hOwn | hOther
  · have hBelow := hFair.below hBuyout
    have hBounded := hFair.buyout
    rw [maxMoneyAmount] at hBounded
    have hDifference : (auction.buyout + (2 ^ 64 - auction.bid)) % 2 ^ 64 = auction.buyout - auction.bid := by
      omega
    rw [bidCharge, if_pos hOwn] at hCovered ⊢
    rw [if_pos hOwn, payBuyout, if_pos hOwn.symm, hDifference]
    exact paid_charge h request.player hCovered
  · rw [bidCharge, if_neg hOther, if_neg hOther, stake, payBuyout, if_neg hOther.symm]
    rcases eq_or_ne auction.bidder 0 with hNobody | hBidder
    · rw [if_neg (not_not_intro hNobody), if_neg (not_not_intro hNobody)]
      exact paid_charge h request.player hMoney
    · obtain ⟨hCharacter, hBot⟩ := hFair.bidder hBidder
      rw [if_pos hBidder, if_pos hBidder]
      have hPaid := (paid_charge h request.player hMoney).mailed
        (mailed_outbidded request.online _ hCharacter hBot)
      rwa [zero_add] at hPaid

end AshamaneCore.Auctions
