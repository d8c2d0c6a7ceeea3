import AshamaneCore.Game.AuctionGold

/-!
# Bids and cancellations conserve gold

What is listed stays fair under every operation, so a bid moves exactly its
amount, a sale loses exactly the cut and brings the deposit, and a cancellation
loses the cut. The one way to break this is a profit that does not fit into an
unsigned 64-bit value.
-/

namespace AshamaneCore.Auctions

open Library Library.Transition Players

section

variable (w : World)

def AuctionEntry.soldTo (auction : AuctionEntry) (player : Nat) : AuctionEntry :=
  { auction with bidder := player, bid := auction.buyout }

/-- Bid, deposit and cut make a profit that is an unsigned 64-bit value. -/
def ProfitFits (auction : AuctionEntry) : Prop :=
  auction.getAuctionCut w ≤ auction.bid + auction.deposit ∧
    auction.bid + auction.deposit < auction.getAuctionCut w + 2 ^ 64

/-- What a bid does: it is ignored, refused with nothing but an answer, or takes the gold of the
player that it has to. -/
def BidConserves (s : State) (request : BidRequest w) (s' : State) : Prop :=
  match checkBid w s request with
  | .ignored => s' = s
  | .refused auction error => s' = s.record (.commandResult request.player.val auction .placeBid error)
  | .bid auction =>
    s'.wealth w = s.wealth w ∧ auction.bid < request.bidAmount ∧
      s'.auctions.find? auction.id =
        some { auction with bidder := request.player.val, bid := request.bidAmount } ∧
      s'.money request.player.val + bidCharge request auction request.bidAmount =
        s.money request.player.val
  | .buyout auction =>
    s'.wealth w = s.wealth w - (auction.soldTo request.player.val).getAuctionCut w + auction.deposit ∧
      auction.bid < auction.buyout ∧ s'.auctions.find? auction.id = none ∧
      s'.money request.player.val + bidCharge request auction auction.buyout =
        s.money request.player.val

def CancelConserves (s : State) (request : RemoveRequest w) (s' : State) : Prop :=
  match checkCancel w s request with
  | .ignored => s' = s
  | .refused => s' = s.record (.commandResult request.player.val none .cancel .databaseError)
  | .cancelled auction =>
    s'.wealth w = s.wealth w - (if auction.bidder ≠ 0 then auction.getAuctionCut w else 0) ∧
      s'.auctions.find? auction.id = none ∧
      s'.money request.player.val + (if auction.bidder ≠ 0 then auction.getAuctionCut w else 0) =
        s.money request.player.val

def Conserves (s : State) : Operation w → Prop
  | .placeBid request => BidConserves w s request (handleAuctionPlaceBid w s request)
  | .removeItem request => CancelConserves w s request (handleAuctionRemoveItem w s request)
  | _ => True

/-- The profit of the seller fits whenever an auction is bought out. -/
def ProfitsFit (s : State) : Operation w → Prop
  | .placeBid request => ∀ auction, checkBid w s request = .buyout auction →
    ProfitFits w (auction.soldTo request.player.val)
  | _ => True

end

variable {w : World} {s : State}

/-! ## Bids -/

theorem profit_eq_iff (auction : AuctionEntry) :
    (auctionProfit w auction : Int) = auction.bid + auction.deposit - auction.getAuctionCut w ↔
      ProfitFits w auction := by
  rw [auctionProfit, ProfitFits]
  omega

variable {s' : State}

theorem Paid.money_player {player amount : Nat} {mailed : Int}
    (h : Paid w player amount mailed s s') : s'.money player + amount = s.money player := by
  rw [h.money, Function.update_self]
  exact Nat.sub_add_cancel h.covered

variable {auction : AuctionEntry}

theorem placeBid_conserves (h : Sound w s) {request : BidRequest w}
    (hCheck : checkBid w s request = .bid auction) :
    BidConserves w s request (placeBid w s request auction) := by
  obtain ⟨hAdmitted, -⟩ := checkBid_bid hCheck
  have hPaid := paid_bid h hAdmitted
  have hFound := hAdmitted.found
  rw [← hPaid.auctions] at hFound
  have hCharge := bidCharge_stake request auction hAdmitted.higher.le
  let raised : AuctionEntry :=
    { auction with bidder := request.player.val, bid := request.bidAmount }
  have hWealth : (placeBid w s request auction).wealth w = ((payBid w s request auction).write raised).wealth w := rfl
  have hRaised : (payBid w s request auction).auctions.find? raised.id = some auction := hFound
  have hStake : stake raised = request.bidAmount := if_pos request.player.ne_zero
  rw [BidConserves, hCheck]
  refine ⟨?_, hAdmitted.higher, ?_, hPaid.money_player⟩
  · rw [hWealth, wealth_write w _ hRaised, hPaid.wealth, hStake]
    omega
  · exact (KeyedSet.find?_assign_eq (payBid w s request auction).auctions raised auction.id).trans (if_pos rfl)

theorem Mailed.trans {s'' : State} {first second : Int} (h : Mailed w first s s')
    (hNext : Mailed w second s' s'') : Mailed w (first + second) s s'' := by
  refine ⟨?_, hNext.auctions.trans h.auctions, hNext.money.trans h.money⟩
  rw [hNext.wealth, h.wealth, add_assoc]

theorem mailed_record (event : Event) : Mailed w 0 s (s.record event) := ⟨(add_zero _).symm, rfl, rfl⟩

theorem sale_mailed (online : w.Online) (s : State)
    (hOwner : auction.owner ∈ w.characters ∧ w.isBotChar auction.owner = false) :
    Mailed w (auctionProfit w auction) s
      (sendAuctionWonMail w online (sendAuctionSuccessfulMail w online s auction) auction) := by
  have hMailed := (mailed_successful online s hOwner.1 hOwner.2).trans (mailed_won online _ auction)
  rwa [add_zero] at hMailed

theorem buyout_mailed (request : BidRequest w) (s : State) (hFair : Fair w auction) :
    Mailed w (auctionProfit w (auction.soldTo request.player.val)) s
      (sendAuctionWonMail w request.online (sendAuctionSuccessfulMail w request.online
        (sendAuctionSalePendingMail w request.online (s.record
          (.commandResult request.player.val (some auction.id) .placeBid .ok))
            (auction.soldTo request.player.val)) (auction.soldTo request.player.val))
              (auction.soldTo request.player.val)) := by
  have hOwner : (auction.soldTo request.player.val).owner ∈ w.characters ∧
      w.isBotChar (auction.soldTo request.player.val).owner = false := hFair.owner
  have hPending := (mailed_record _).trans (mailed_salePending request.online
    (s.record (.commandResult request.player.val (some auction.id) .placeBid .ok))
    (auction.soldTo request.player.val))
  have hMailed := hPending.trans (sale_mailed request.online _ hOwner)
  rwa [add_zero, zero_add] at hMailed

theorem buyout_conserves_iff (h : Sound w s) {request : BidRequest w}
    (hCheck : checkBid w s request = .buyout auction) :
    BidConserves w s request (buyoutAuction w s request auction) ↔
      ProfitFits w (auction.soldTo request.player.val) := by
  obtain ⟨hAdmitted, hBuyout, hCovers⟩ := checkBid_buyout hCheck
  have hFair := h.of_find hAdmitted.found
  have hBelow := hFair.below hBuyout
  have hPaid := paid_buyout h hAdmitted hBuyout hCovers
  have hCharge := bidCharge_stake request auction hBelow.le
  have hMailed := buyout_mailed request (payBuyout w s request auction) hFair
  have hSale := hPaid.mailed hMailed
  have hFound := hAdmitted.found
  rw [← hSale.auctions] at hFound
  have hWealth : (buyoutAuction w s request auction).wealth w =
      s.wealth w + auctionProfit w (auction.soldTo request.player.val) - auction.buyout := by
    refine (wealth_removeAuction w _ hFound).trans ?_
    rw [hSale.wealth]
    omega
  rw [← profit_eq_iff, BidConserves, hCheck]
  dsimp only
  rw [hWealth]
  have hGone : (buyoutAuction w s request auction).auctions.find? auction.id = none :=
    (KeyedSet.find?_erase_eq ..).trans (if_pos rfl)
  have hBid : (auction.soldTo request.player.val).bid = auction.buyout := rfl
  have hDeposit : (auction.soldTo request.player.val).deposit = auction.deposit := rfl
  rw [hBid, hDeposit]
  constructor
  · rintro ⟨hSum, -⟩
    omega
  · intro hProfit
    exact ⟨by omega, hBelow, hGone, hSale.money_player⟩

/-! ## Cancellations -/

variable {request : RemoveRequest w}

theorem checkCancel_cancelled (h : checkCancel w s request = .cancelled auction) :
    s.auctions.find? auction.id = some auction ∧ auction.owner = request.player.val ∧
      (auction.bidder ≠ 0 → auction.getAuctionCut w ≤ s.money request.player.val) := by
  simp only [checkCancel] at h
  split at h
  · cases h
  · split at h
    · cases h
    · rename_i found hFound
      split_ifs at h with hOwner hItem hCut
      obtain rfl := CancelOutcome.cancelled.inj h
      refine ⟨(getAuction_find hFound).1, not_not.mp hOwner, fun hBidder => ?_⟩
      by_contra hLess
      exact hCut ⟨hBidder, by simpa [hasEnoughMoney] using hLess⟩

theorem paid_cut (h : Sound w s)
    (hCheck : checkCancel w s request = .cancelled auction) :
    Paid w request.player.val (if auction.bidder ≠ 0 then auction.getAuctionCut w else 0) (stake auction) s
      (payCut w s request auction) := by
  obtain ⟨hFound, -, hCut⟩ := checkCancel_cancelled hCheck
  rw [payCut, stake]
  split
  · rename_i hBidder
    obtain ⟨hCharacter, hBot⟩ := (h.of_find hFound).bidder hBidder
    have hMailed := mailed_cancelled request.online s hCharacter hBot
    refine hMailed.paid (paid_charge (hMailed.sound h) request.player ?_)
    rw [hMailed.money]
    exact hCut hBidder
  · refine ⟨Nat.zero_le _, by omega, rfl, ?_⟩
    rw [Nat.sub_zero, Function.update_eq_self]

theorem cancel_conserves (h : Sound w s)
    (hCheck : checkCancel w s request = .cancelled auction) :
    CancelConserves w s request (cancelAuction w s request auction) := by
  obtain ⟨hFound, -, -⟩ := checkCancel_cancelled hCheck
  have hPaid := paid_cut h hCheck
  rw [← hPaid.auctions] at hFound
  have hWealth : (cancelAuction w s request auction).wealth w =
      (payCut w s request auction).wealth w + (0 : Nat) - stake auction := by
    refine (wealth_removeAuction w (((payCut w s request auction).send _).record _) hFound).trans ?_
    rw [wealth_record, wealth_send]
  rw [CancelConserves, hCheck]
  refine ⟨?_, (KeyedSet.find?_erase_eq ..).trans (if_pos rfl), hPaid.money_player⟩
  rw [hWealth, hPaid.wealth]
  split <;> omega

/-! ## Every operation keeps the auctions fair -/

theorem Sound.shrink (h : Sound w s)
    (hAuctions : ∀ auction ∈ s'.auctions.entries, auction ∈ s.auctions.entries)
    (hPurse : ∀ guid, s'.money guid ≤ maxMoneyAmount) : Sound w s' :=
  ⟨fun auction hMem => h.fair auction (hAuctions auction hMem), hPurse⟩

theorem Sound.remove (h : Sound w s) (hAuctions : s'.auctions = s.auctions)
    (hPurse : ∀ guid, s'.money guid ≤ maxMoneyAmount) (auction : AuctionEntry) :
    Sound w (s'.removeAuction auction) := by
  refine h.shrink (fun a hMem => ?_) hPurse
  rw [← hAuctions]
  exact (KeyedSet.mem_erase.mp hMem).1

theorem sellItem_cases (s : State) (request : SellRequest w) :
    handleAuctionSellItem w s request = s ∨
      (∃ error, handleAuctionSellItem w s request =
        s.record (.commandResult request.player.val none .sellItem error)) ∨
      ∃ guid item, request.buyoutPrice ≤ maxMoneyAmount ∧
        handleAuctionSellItem w s request = listAuction w s request guid item := by
  rw [handleAuctionSellItem]
  split
  · exact Or.inl rfl
  · split
    · exact Or.inr (Or.inl ⟨_, rfl⟩)
    · rename_i hPrices
      split
      · exact Or.inl rfl
      · split
        · exact Or.inl rfl
        · split
          · exact Or.inr (Or.inl ⟨_, rfl⟩)
          · split
            · exact Or.inr (Or.inl ⟨_, rfl⟩)
            · split
              · exact Or.inr (Or.inl ⟨_, rfl⟩)
              · exact Or.inr (Or.inr ⟨_, _, not_lt.mp (not_or.mp hPrices).2, rfl⟩)

theorem pendingAuctionAdd_eq (s : State) (player auction : Nat) :
    ∃ pending, pendingAuctionAdd s player auction = { s with pending := pending } := by
  rw [pendingAuctionAdd]
  split <;> exact ⟨_, rfl⟩

theorem sellItem_sound (h : Sound w s) (request : SellRequest w) :
    Sound w (handleAuctionSellItem w s request) := by
  rcases sellItem_cases s request with hSame | ⟨error, hRefused⟩ | ⟨guid, item, hBuyout, hListed⟩
  · rwa [hSame]
  · rw [hRefused]
    exact ⟨h.fair, h.purse⟩
  · obtain ⟨pending, hPending⟩ := pendingAuctionAdd_eq (addAuction s item (newAuction w s request guid item
      (w.getAuctionDeposit request.auctionHouseEntry request.runTime item item.count)))
      request.player.val s.nextAuctionId
    rw [hListed, listAuction, hPending]
    refine ⟨fun auction hMem => ?_, h.purse⟩
    rcases KeyedSet.mem_assign.mp hMem with rfl | ⟨hOld, -⟩
    · exact ⟨request.player.property, fun hNe => absurd rfl hNe, Nat.pos_of_ne_zero, Nat.zero_le _, hBuyout⟩
    · exact h.fair auction hOld

theorem placeBid_sound (h : Sound w s) (request : BidRequest w) :
    Sound w (handleAuctionPlaceBid w s request) := by
  rw [handleAuctionPlaceBid]
  split
  · exact h
  · exact ⟨h.fair, h.purse⟩
  · rename_i auction hCheck
    obtain ⟨hAdmitted, hBelow⟩ := checkBid_bid hCheck
    have hFair := h.of_find hAdmitted.found
    have hPaid := paid_bid h hAdmitted
    refine ⟨fun a hMem => ?_, hPaid.purse h⟩
    rcases KeyedSet.mem_assign.mp hMem with rfl | ⟨hOld, -⟩
    · exact ⟨hFair.owner, fun _ => request.player.property, hBelow,
        hAdmitted.covered.trans (h.purse _), hFair.buyout⟩
    · rw [hPaid.auctions] at hOld
      exact h.fair a hOld
  · rename_i auction hCheck
    obtain ⟨hAdmitted, hBuyout, hCovers⟩ := checkBid_buyout hCheck
    have hSale := (paid_buyout h hAdmitted hBuyout hCovers).mailed
      (buyout_mailed request (payBuyout w s request auction) (h.of_find hAdmitted.found))
    exact h.remove hSale.auctions (hSale.purse h) _

theorem removeItem_sound (h : Sound w s) (request : RemoveRequest w) :
    Sound w (handleAuctionRemoveItem w s request) := by
  rw [handleAuctionRemoveItem]
  split
  · exact h
  · exact ⟨h.fair, h.purse⟩
  · rename_i auction hCheck
    have hPaid := paid_cut h hCheck
    rw [cancelAuction]
    refine h.remove ?_ ?_ auction
    · exact hPaid.auctions
    · exact hPaid.purse h

theorem expireAuction_sound (h : Sound w s) (online : w.Online) (now : Int) (auction : AuctionEntry) :
    Sound w (expireAuction w online now s auction) := by
  rw [expireAuction]
  split
  · exact h
  · split
    · have hFrame := framed_expired w online s auction
      exact h.remove hFrame.auctions (hFrame.money ▸ h.purse) auction
    · have hFrame := (framed_successful w online s auction).trans (framed_won w online _ auction)
      exact h.remove hFrame.auctions (hFrame.money ▸ h.purse) auction

theorem updateHouse_sound (h : Sound w s) (online : w.Online) (house : House) (now : Int) :
    Sound w (updateHouse w online house now s) := by
  change Sound w (run (expireAuction w online now) s _)
  exact invariant (P := Sound w) (fun _ auction hSound => expireAuction_sound hSound online now auction) h _

/-! ### Pending deposits -/

theorem Fair.rewrite (h : Fair w auction) (deposit : Nat) (expireTime : Int) :
    Fair w { auction with deposit := deposit, expireTime := expireTime } :=
  ⟨h.owner, h.bidder, h.below, h.bid, h.buyout⟩

theorem Sound.assign (h : Sound w s) (hFair : Fair w auction)
    (hAuctions : s'.auctions = s.auctions.assign auction) (hMoney : s'.money = s.money) : Sound w s' := by
  refine ⟨fun a hMem => ?_, hMoney ▸ h.purse⟩
  rw [hAuctions] at hMem
  rcases KeyedSet.mem_assign.mp hMem with rfl | ⟨hOld, -⟩
  · exact hFair
  · exact h.fair a hOld

theorem assignDeposits_sound (player : Nat) (lines : List (AuctionEntry × Nat × Nat)) (h : Sound w s)
    (hLines : ∀ line ∈ lines, Fair w line.1) : Sound w (lines.foldl (assignDeposit player) s) := by
  induction lines generalizing s with
  | nil => exact h
  | cons line lines ih =>
    obtain ⟨hLine, hRest⟩ := List.forall_mem_cons.mp hLines
    exact ih (h.assign (hLine.rewrite line.2.1 line.1.expireTime) rfl rfl) hRest

theorem expirePending_sound (now : Int) (auctions : List AuctionEntry) (h : Sound w s)
    (hFair : ∀ auction ∈ auctions, Fair w auction) : Sound w (auctions.foldl (expirePending now) s) := by
  induction auctions generalizing s with
  | nil => exact h
  | cons auction auctions ih =>
    obtain ⟨hFirst, hRest⟩ := List.forall_mem_cons.mp hFair
    exact ih (h.assign (hFirst.rewrite auction.deposit now) rfl rfl) hRest

theorem totalDeposit_lt (s : State) (first : AuctionEntry) (totalItems : Nat) :
    totalDeposit w s first totalItems < 2 ^ 63 := by
  rw [totalDeposit]
  split
  · exact w.depositRange ..
  · decide

theorem moneyAfter_le (s : State) (player : Nat) {total : Nat} (hTotal : total < 2 ^ 63) :
    s.moneyAfter player total ≤ s.money player := by
  rw [State.moneyAfter, asInt64_of_lt hTotal]
  exact modifyMoney_charge_le _ _

theorem processBatch_sound (h : Sound w s) (player : Nat) {auctions : List AuctionEntry} {total : Nat}
    (hFair : ∀ auction ∈ auctions, Fair w auction) (hTotal : total < 2 ^ 63) :
    Sound w (processBatch s player auctions total) := by
  have hLines : ∀ line ∈ depositLines s player auctions total, Fair w line.1 :=
    fun line hMem => hFair line.1 (List.of_mem_zip hMem).1
  have hMoney : (processBatch s player auctions total).money =
      Function.update s.money player (s.moneyAfter player total) := rfl
  refine ⟨(assignDeposits_sound player _ h hLines).fair, fun guid => ?_⟩
  rw [hMoney]
  rcases eq_or_ne guid player with rfl | hNe
  · rw [Function.update_self]
    exact (moneyAfter_le s guid hTotal).trans (h.purse guid)
  · rw [Function.update_of_ne hNe]
    exact h.purse guid

theorem findAll_fair (h : Sound w s) {ids : List Nat} {auctions : List AuctionEntry}
    (hAll : s.auctions.findAll? ids = some auctions) : ∀ auction ∈ auctions, Fair w auction :=
  fun auction hMem => h.fair auction ((KeyedSet.findAll?_eq_some_iff.mp hAll).2 auction hMem)

theorem updatePending_sound (online : w.Online) (now : Int) (s : State) (list : PlayerAuctions) (s' : State)
    (h : Sound w s) (hStep : updatePending w online now s list = some s') : Sound w s' := by
  rw [updatePending] at hStep
  split at hStep
  · split at hStep
    · rw [pendingAuctionProcess] at hStep
      split at hStep
      · exact Option.some.inj hStep ▸ h
      · obtain ⟨auctions, hAll, hRest⟩ := Option.bind_eq_some_iff.mp hStep
        obtain ⟨first, -, rfl⟩ := Option.map_eq_some_iff.mp hRest
        exact processBatch_sound h _ (findAll_fair h hAll) (totalDeposit_lt ..)
    · exact Option.some.inj hStep ▸ ⟨h.fair, h.purse⟩
  · obtain ⟨auctions, hAll, rfl⟩ := Option.map_eq_some_iff.mp hStep
    have hExpired := expirePending_sound now auctions h (findAll_fair h hAll)
    exact ⟨hExpired.fair, hExpired.purse⟩

theorem next_sound (h : Sound w s) (operation : Operation w) : Sound w (next w s operation) := by
  cases operation with
  | sellItem request => exact sellItem_sound h request
  | placeBid request => exact placeBid_sound h request
  | removeItem request => exact removeItem_sound h request
  | update online house now => exact updateHouse_sound h online house now
  | updatePending online now =>
    rw [next]
    cases hUpdate : operate w s (.updatePending online now) with
    | none => exact h
    | some s' => exact foldlM_invariant (updatePending_sound online now) hUpdate h

/-! ## Runs -/

theorem conserves_iff (h : Sound w s) (operation : Operation w) :
    Conserves w s operation ↔ ProfitsFit w s operation := by
  cases operation with
  | placeBid request =>
    rw [Conserves, ProfitsFit, handleAuctionPlaceBid]
    cases hCheck : checkBid w s request with
    | ignored => simp [BidConserves, hCheck]
    | refused auction error => simp [BidConserves, hCheck]
    | bid auction => simp [placeBid_conserves h hCheck]
    | buyout auction => simp [buyout_conserves_iff h hCheck]
  | removeItem request =>
    refine iff_of_true ?_ trivial
    rw [Conserves, handleAuctionRemoveItem]
    cases hCheck : checkCancel w s request with
    | ignored => simp [CancelConserves, hCheck]
    | refused => simp [CancelConserves, hCheck]
    | cancelled auction => exact cancel_conserves h hCheck
  | sellItem request | update online house now | updatePending online now => exact Iff.rfl

theorem initial_sound (w : World) (money : Nat → Purse) : Sound w (State.initial money) :=
  ⟨fun _ hMem => (List.not_mem_nil hMem).elim, fun guid => (money guid).property⟩

/-- The runs in which every bid and every cancellation conserves gold. -/
theorem run_conserves_iff (w : World) (money : Nat → Purse) (operations : List (Operation w)) :
    Along (next w) (Conserves w) (State.initial money) operations ↔
      Along (next w) (ProfitsFit w) (State.initial money) operations :=
  along_congr (I := Sound w) (fun _ operation hSound => conserves_iff hSound operation)
    (fun _ operation hSound _ => next_sound hSound operation) (initial_sound w money) operations

/-! ## A sale below the cut -/

/-- Two players, and a house that takes a percentage of the price. -/
def percentWorld (percent : Int) : World where
  characters := {1, 2}
  playerAccountIdByGuid guid := if guid = 1 ∨ guid = 2 then 100 + guid else 0
  hasAccount guid := by
    rw [Finset.mem_insert, Finset.mem_singleton]
    split <;> simp_all
  nobody := by decide
  isBotChar _ := false
  increment bid := bid / 20
  consignment _ bid := bid * percent / 100
  getAuctionDeposit _ _ _ _ := 100
  depositRange _ _ _ _ := by decide

section

variable (percent : Int)

def seller : (percentWorld percent).Ordinary := ⟨1, by simp [percentWorld]⟩

def buyer : (percentWorld percent).Ordinary := ⟨2, by simp [percentWorld]⟩

def nobodyOnline : (percentWorld percent).Online := ⟨fun _ => false, fun _ h => nomatch h⟩

def swordSale : SellRequest (percentWorld percent) :=
  { player := seller percent, canInteract := true, house := .neutral, auctionHouseEntry := 7,
    auctioneer := 23442, minBid := 1, buyoutPrice := 10000, runTime := minAuctionTime,
    item := .ok (50, ⟨2488, 1⟩), expireTime := 43200 }

def swordBuyout : BidRequest (percentWorld percent) :=
  { player := buyer percent, canInteract := true, house := .neutral, auctionItemId := 1,
    bidAmount := 10000, online := nobodyOnline percent, ownerInWorld := false }

end

def purse (money : Nat) (h : money ≤ maxMoneyAmount) : Nat → Purse := fun _ => ⟨money, h⟩

/-- With twice the price as the cut, the seller is mailed a profit modulo 2^64. -/
theorem cut_above_price_creates_gold :
    ¬ Along (next (percentWorld 200)) (Conserves (percentWorld 200))
      (State.initial (purse 20000 (by decide))) [.sellItem (swordSale 200), .placeBid (swordBuyout 200)] := by
  rintro ⟨-, hBid, -⟩
  have hCheck : checkBid (percentWorld 200) (next (percentWorld 200) (State.initial (purse 20000 (by decide)))
      (.sellItem (swordSale 200))) (swordBuyout 200) =
        .buyout (newAuction (percentWorld 200) (State.initial (purse 20000 (by decide))) (swordSale 200) 50
          ⟨2488, 1⟩ 100) := by
    decide +kernel
  rw [Conserves, BidConserves, hCheck] at hBid
  exact absurd hBid.1 (by decide +kernel)

end AshamaneCore.Auctions
