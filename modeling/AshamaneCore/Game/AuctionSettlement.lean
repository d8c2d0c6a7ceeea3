import AshamaneCore.Game.AuctionConservation

/-!
# Deposits of auctions

The deposit of an auction is charged some time after the auction was listed, in
one batch with the other auctions of its seller. Until then the auction stands
in a pending list, which no removal of an auction looks at.
-/

namespace AshamaneCore.Auctions

open Library Library.Transition Players

def takenFrom (seller id : Nat) : List Event → Nat
  | [] => 0
  | .depositCharged player auction amount :: history =>
    (if player = seller ∧ auction = id then amount else 0) + takenFrom seller id history
  | _ :: history => takenFrom seller id history

/-- The deposit of an auction that was mailed to a player with his profit. -/
def refundedTo (player id : Nat) : List Mail → Nat
  | [] => 0
  | mail :: mails =>
    (if mail.subject.response = .successful ∧ mail.receiver = player ∧ mail.subject.id = id then
      mail.body.deposit else 0) + refundedTo player id mails

def Pending (s : State) (id : Nat) : Prop := ∃ list ∈ s.pending.entries, id ∈ list.auctions

/-- The seller was found offline when the deposit was to be charged. -/
def NotRetrieved (s : State) (id : Nat) : Prop := .depositNotRetrieved id ∈ s.history

theorem takenFrom_append (seller id : Nat) (history events : List Event) :
    takenFrom seller id (history ++ events) = takenFrom seller id history + takenFrom seller id events := by
  induction history with
  | nil => exact (Nat.zero_add _).symm
  | cons event history ih =>
    cases event with
    | depositCharged player auction amount => rw [List.cons_append, takenFrom, takenFrom, ih, Nat.add_assoc]
    | commandResult _ _ _ _ | depositNotRetrieved _ => exact ih

theorem refundedTo_append (player id : Nat) (mails more : List Mail) :
    refundedTo player id (mails ++ more) = refundedTo player id mails + refundedTo player id more := by
  induction mails with
  | nil => exact (Nat.zero_add _).symm
  | cons mail mails ih => rw [List.cons_append, refundedTo, refundedTo, ih, Nat.add_assoc]

theorem refundedTo_concat (player id : Nat) (mails : List Mail) (mail : Mail) :
    refundedTo player id (mails ++ [mail]) = refundedTo player id mails +
      if mail.subject.response = .successful ∧ mail.receiver = player ∧ mail.subject.id = id then
        mail.body.deposit else 0 := refundedTo_append ..

theorem takenFrom_record (player : Nat) (auction : Option Nat) (action : AuctionAction) (error : AuctionError)
    (seller id : Nat) (history : List Event) :
    takenFrom seller id (history ++ [.commandResult player auction action error]) =
      takenFrom seller id history := takenFrom_append ..

theorem le_takenFrom {seller id amount : Nat} {history : List Event}
    (h : .depositCharged seller id amount ∈ history) : amount ≤ takenFrom seller id history := by
  induction history with
  | nil => exact (List.not_mem_nil h).elim
  | cons event history ih =>
    rcases List.mem_cons.mp h with rfl | hRest
    · rw [takenFrom, if_pos ⟨rfl, rfl⟩]
      exact Nat.le_add_right ..
    · refine (ih hRest).trans ?_
      cases event with
      | depositCharged player auction charged => exact Nat.le_add_left ..
      | commandResult _ _ _ _ | depositNotRetrieved _ => exact Nat.le_refl _

/-! ## Shares of a batch -/

theorem length_depositShares (total : Nat) {count : Nat} (h : 0 < count) :
    (depositShares total count).length = count := by
  rw [depositShares, List.length_append, List.length_replicate, List.length_singleton]
  omega

theorem sum_depositShares (total count : Nat) :
    (depositShares total count).sum = total := by
  have hLess : (count - 1) * (total / count) ≤ total :=
    (Nat.mul_le_mul_right _ (Nat.sub_le count 1)).trans (Nat.mul_div_le total count)
  rw [depositShares, List.sum_append, List.sum_replicate_nat, List.sum_singleton]
  omega

theorem chargedShares_full {paid : Nat} {shares : List Nat} (h : shares.sum ≤ paid) :
    chargedShares paid shares = shares := by
  induction shares generalizing paid with
  | nil => rfl
  | cons share shares ih =>
    rw [List.sum_cons] at h
    rw [chargedShares, Nat.min_eq_right (by omega), ih (by omega)]

/-! ## What is owed -/

/-- Every pending auction is listed with its seller, every row is of a listed auction, and what is
not pending was either charged or given up. -/
structure Accounted (s : State) : Prop where
  fresh : ∀ auction ∈ s.auctions.entries, auction.id < s.nextAuctionId
  pending : ∀ list ∈ s.pending.entries, ∀ id ∈ list.auctions,
    ∃ auction ∈ s.auctions.entries, auction.id = id ∧ auction.owner = list.guid
  batches : ∀ list ∈ s.pending.entries, list.auctions ≠ [] ∧ list.auctions.Nodup
  rows : ∀ row ∈ s.rows.entries, ∃ auction ∈ s.auctions.entries, auction.id = row.id
  charged : ∀ auction ∈ s.auctions.entries, Pending s auction.id ∨ NotRetrieved s auction.id ∨
    auction.deposit ≤ takenFrom auction.owner auction.id s.history
  unsold : ∀ auction ∈ s.auctions.entries, ∀ player, refundedTo player auction.id s.mails = 0
  unused : ∀ player id, s.nextAuctionId ≤ id → refundedTo player id s.mails = 0
  settled : ∀ player id, refundedTo player id s.mails ≤ takenFrom player id s.history

/-- A step that is only about gold and items, and refunds at most an amount for one auction. -/
structure Refunds (player id amount : Nat) (s s' : State) : Prop where
  auctions : s'.auctions = s.auctions
  nextAuctionId : s'.nextAuctionId = s.nextAuctionId
  pending : s'.pending = s.pending
  rows : s'.rows = s.rows
  taken : ∀ player id, takenFrom player id s'.history = takenFrom player id s.history
  notRetrieved : ∀ id, NotRetrieved s id → NotRetrieved s' id
  refunded : ∀ p i, refundedTo p i s'.mails ≤
    refundedTo p i s.mails + if p = player ∧ i = id then amount else 0

section

variable {player id : Nat} {s s' s'' : State}

theorem Refunds.refl (player id : Nat) (s : State) : Refunds player id 0 s s :=
  ⟨rfl, rfl, rfl, rfl, fun _ _ => rfl, fun _ h => h, fun _ _ => Nat.le_add_right ..⟩

theorem Refunds.trans {first second : Nat} (h : Refunds player id first s s')
    (hNext : Refunds player id second s' s'') : Refunds player id (first + second) s s'' := by
  refine ⟨hNext.auctions.trans h.auctions, hNext.nextAuctionId.trans h.nextAuctionId,
    hNext.pending.trans h.pending, hNext.rows.trans h.rows, fun p i => (hNext.taken p i).trans (h.taken p i),
    fun i hGiven => hNext.notRetrieved i (h.notRetrieved i hGiven), fun p i => ?_⟩
  have hFirst := h.refunded p i
  have hSecond := hNext.refunded p i
  split at hFirst <;> split at hSecond <;> split <;> omega

theorem refunds_charge (player id : Nat) (s : State) (payer amount : Nat) :
    Refunds player id 0 s (s.charge payer amount) :=
  ⟨rfl, rfl, rfl, rfl, fun _ _ => rfl, fun _ h => h, fun _ _ => Nat.le_add_right ..⟩

theorem refunds_record (player id : Nat) (s : State) (payer : Nat) (auction : Option Nat)
    (action : AuctionAction) (error : AuctionError) :
    Refunds player id 0 s (s.record (.commandResult payer auction action error)) :=
  ⟨rfl, rfl, rfl, rfl, fun _ _ => takenFrom_record .., fun _ h => List.mem_append_left _ h,
    fun _ _ => Nat.le_add_right ..⟩

theorem refunds_items (player id : Nat) (s : State) (items : Nat → Option AuctionItem) :
    Refunds player id 0 s { s with items := items } :=
  ⟨rfl, rfl, rfl, rfl, fun _ _ => rfl, fun _ h => h, fun _ _ => Nat.le_add_right ..⟩

theorem refunds_send (player id : Nat) (s : State) {mail : Mail} (answer : MailAuctionAnswers)
    (hAnswer : mail.subject.response = answer) (h : answer ≠ .successful) :
    Refunds player id 0 s (s.send mail) := by
  refine ⟨rfl, rfl, rfl, rfl, fun _ _ => rfl, fun _ h => h, fun p i => ?_⟩
  rw [State.send, refundedTo_concat, if_neg fun hSale => h (hAnswer.symm.trans hSale.1)]
  exact Nat.le_add_right ..

theorem refunds_sale (s : State) {mail : Mail} {amount : Nat} (hReceiver : mail.receiver = player)
    (hId : mail.subject.id = id) (hDeposit : mail.body.deposit = amount) :
    Refunds player id amount s (s.send mail) := by
  refine ⟨rfl, rfl, rfl, rfl, fun _ _ => rfl, fun _ h => h, fun p i => ?_⟩
  rw [State.send, refundedTo_concat]
  split
  · rename_i hSale
    rw [if_pos ⟨hSale.2.1.symm.trans hReceiver, hSale.2.2.symm.trans hId⟩, hDeposit]
  · exact Nat.add_le_add_left (Nat.zero_le _) _

end

section

variable (w : World) (online : w.Online) (s : State) (player id : Nat)

theorem refunds_won (auction : AuctionEntry) :
    Refunds player id 0 s (sendAuctionWonMail w online s auction) := by
  rw [sendAuctionWonMail]
  split
  · exact Refunds.refl ..
  · split
    · exact refunds_send _ _ _ .won rfl (by decide)
    · exact refunds_items ..

theorem refunds_salePending (auction : AuctionEntry) :
    Refunds player id 0 s (sendAuctionSalePendingMail w online s auction) := by
  rw [sendAuctionSalePendingMail]
  split
  · exact refunds_send _ _ _ .salePending rfl (by decide)
  · exact Refunds.refl ..

theorem refunds_expired (auction : AuctionEntry) :
    Refunds player id 0 s (sendAuctionExpiredMail w online s auction) := by
  rw [sendAuctionExpiredMail]
  split
  · exact Refunds.refl ..
  · split
    · exact refunds_send _ _ _ .expired rfl (by decide)
    · exact refunds_items ..

theorem refunds_outbidded (auction : AuctionEntry) :
    Refunds player id 0 s (sendAuctionOutbiddedMail w online s auction) := by
  rw [sendAuctionOutbiddedMail]
  split
  · exact refunds_send _ _ _ .outbidded rfl (by decide)
  · exact Refunds.refl ..

theorem refunds_cancelled (auction : AuctionEntry) :
    Refunds player id 0 s (sendAuctionCancelledToBidderMail w online s auction) := by
  rw [sendAuctionCancelledToBidderMail]
  split
  · exact refunds_send _ _ _ .cancelledToBidder rfl (by decide)
  · exact Refunds.refl ..

theorem refunds_successful (auction : AuctionEntry) :
    Refunds auction.owner auction.id auction.deposit s (sendAuctionSuccessfulMail w online s auction) := by
  rw [sendAuctionSuccessfulMail]
  split
  · refine refunds_sale s ?_ ?_ ?_ <;> rfl
  · refine ⟨rfl, rfl, rfl, rfl, fun _ _ => rfl, fun _ h => h, fun _ _ => Nat.le_add_right ..⟩

end

variable {w : World} {s s' : State}

theorem Accounted.refund (h : Accounted s) {player id : Nat} (hRefunds : Refunds player id 0 s s') :
    Accounted s' := by
  have hMails : ∀ p i, refundedTo p i s'.mails ≤ refundedTo p i s.mails := fun p i => by
    simpa using hRefunds.refunded p i
  have hPending : ∀ id, Pending s id → Pending s' id := fun _ ⟨list, hList, hMem⟩ =>
    ⟨list, hRefunds.pending ▸ hList, hMem⟩
  refine ⟨?_, ?_, ?_, ?_, fun auction hMem => ?_, fun auction hMem player => ?_, fun player id hLe => ?_,
    fun player id => ?_⟩
  · rw [hRefunds.auctions, hRefunds.nextAuctionId]
    exact h.fresh
  · rw [hRefunds.auctions, hRefunds.pending]
    exact h.pending
  · rw [hRefunds.pending]
    exact h.batches
  · rw [hRefunds.auctions, hRefunds.rows]
    exact h.rows
  · rw [hRefunds.auctions] at hMem
    rw [hRefunds.taken]
    exact (h.charged auction hMem).imp (hPending _) (Or.imp_left (hRefunds.notRetrieved _))
  · rw [hRefunds.auctions] at hMem
    exact Nat.le_zero.mp ((hMails _ _).trans (h.unsold auction hMem player).le)
  · rw [hRefunds.nextAuctionId] at hLe
    exact Nat.le_zero.mp ((hMails _ _).trans (h.unused player id hLe).le)
  · rw [hRefunds.taken]
    exact (hMails _ _).trans (h.settled player id)

theorem Accounted.remove (h : Accounted s) {auction sold : AuctionEntry} {amount : Nat}
    (hListed : auction ∈ s.auctions.entries) (hPending : ¬ Pending s auction.id)
    (hCharged : amount ≤ takenFrom auction.owner auction.id s.history)
    (hRefunds : Refunds auction.owner auction.id amount s s') (hSold : sold.id = auction.id) :
    Accounted (s'.removeAuction sold) := by
  have hLeft : ∀ a, a ∈ (s'.removeAuction sold).auctions.entries ↔ a ∈ s.auctions.entries ∧ a.id ≠ auction.id :=
    fun a => by rw [← hRefunds.auctions, ← hSold]; exact KeyedSet.mem_erase
  have hMails : ∀ p i, i ≠ auction.id → refundedTo p i s'.mails ≤ refundedTo p i s.mails := fun p i hNe => by
    simpa [hNe] using hRefunds.refunded p i
  refine ⟨fun a hMem => ?_, fun list hList id hId => ?_, fun list hList => ?_, fun row hRow => ?_,
    fun a hMem => ?_, fun a hMem player => ?_, fun player id hLe => ?_, fun player id => ?_⟩
  · exact (h.fresh a ((hLeft a).mp hMem).1).trans_eq hRefunds.nextAuctionId.symm
  · have hOld : list ∈ s.pending.entries := hRefunds.pending ▸ hList
    obtain ⟨a, hMem, rfl, hOwner⟩ := h.pending list hOld id hId
    exact ⟨a, (hLeft a).mpr ⟨hMem, fun hEq => hPending ⟨list, hOld, hEq ▸ hId⟩⟩, rfl, hOwner⟩
  · exact h.batches list (hRefunds.pending ▸ hList)
  · obtain ⟨hOld, hNe⟩ := KeyedSet.mem_erase.mp hRow
    obtain ⟨a, hMem, hId⟩ := h.rows row (hRefunds.rows ▸ hOld)
    exact ⟨a, (hLeft a).mpr ⟨hMem, fun hEq => hNe (hId.symm.trans (hEq.trans hSold.symm))⟩, hId⟩
  · refine (h.charged a ((hLeft a).mp hMem).1).imp ?_ (Or.imp (hRefunds.notRetrieved _) ?_)
    · rintro ⟨list, hList, hId⟩
      exact ⟨list, hRefunds.pending ▸ hList, hId⟩
    · exact fun hPaid => hPaid.trans_eq (hRefunds.taken _ _).symm
  · obtain ⟨hOld, hNe⟩ := (hLeft a).mp hMem
    exact Nat.le_zero.mp ((hMails _ _ hNe).trans (h.unsold a hOld player).le)
  · have hUnused : s.nextAuctionId ≤ id := hRefunds.nextAuctionId ▸ hLe
    have hNe : id ≠ auction.id := fun hEq => by
      have hFresh := h.fresh auction hListed
      omega
    exact Nat.le_zero.mp ((hMails _ _ hNe).trans (h.unused player id hUnused).le)
  · refine (hRefunds.refunded player id).trans (le_trans ?_ (hRefunds.taken player id).ge)
    have hSettled := h.settled player id
    split
    · rename_i hSame
      obtain ⟨rfl, rfl⟩ := hSame
      rw [h.unsold auction hListed auction.owner]
      omega
    · omega

/-- Auctions, lists and rows are rewritten under the ids and owners they have. -/
structure Rewritten (s s' : State) : Prop where
  back : ∀ auction ∈ s'.auctions.entries,
    ∃ old ∈ s.auctions.entries, old.id = auction.id ∧ old.owner = auction.owner
  forth : ∀ auction ∈ s.auctions.entries,
    ∃ rewritten ∈ s'.auctions.entries, rewritten.id = auction.id ∧ rewritten.owner = auction.owner
  nextAuctionId : s'.nextAuctionId = s.nextAuctionId
  lists : ∀ list ∈ s'.pending.entries, ∃ old ∈ s.pending.entries, old.guid = list.guid ∧ old.auctions = list.auctions
  rows : ∀ row ∈ s'.rows.entries, ∃ auction ∈ s.auctions.entries, auction.id = row.id
  charged : ∀ auction ∈ s'.auctions.entries, Pending s' auction.id ∨ NotRetrieved s' auction.id ∨
    auction.deposit ≤ takenFrom auction.owner auction.id s'.history
  mails : s'.mails = s.mails
  taken : ∀ player id, takenFrom player id s.history ≤ takenFrom player id s'.history

theorem Accounted.rewrite (h : Accounted s) (hRewritten : Rewritten s s') : Accounted s' := by
  refine ⟨fun a hMem => ?_, fun list hList id hId => ?_, fun list hList => ?_, fun row hRow => ?_,
    hRewritten.charged, fun a hMem player => ?_, fun player id hLe => ?_, fun player id => ?_⟩
  · obtain ⟨old, hOld, hId, -⟩ := hRewritten.back a hMem
    rw [← hId, hRewritten.nextAuctionId]
    exact h.fresh old hOld
  · obtain ⟨old, hOld, hGuid, hAuctions⟩ := hRewritten.lists list hList
    obtain ⟨a, hMem, rfl, hOwner⟩ := h.pending old hOld id (hAuctions ▸ hId)
    obtain ⟨b, hB, hSameId, hSameOwner⟩ := hRewritten.forth a hMem
    exact ⟨b, hB, hSameId, hSameOwner.trans (hOwner.trans hGuid)⟩
  · obtain ⟨old, hOld, -, hAuctions⟩ := hRewritten.lists list hList
    exact hAuctions ▸ h.batches old hOld
  · obtain ⟨a, hMem, hId⟩ := hRewritten.rows row hRow
    obtain ⟨b, hB, hSame, -⟩ := hRewritten.forth a hMem
    exact ⟨b, hB, hSame.trans hId⟩
  · obtain ⟨old, hOld, hId, -⟩ := hRewritten.back a hMem
    rw [hRewritten.mails, ← hId]
    exact h.unsold old hOld player
  · rw [hRewritten.mails]
    exact h.unused player id (hRewritten.nextAuctionId ▸ hLe)
  · rw [hRewritten.mails]
    exact (h.settled player id).trans (hRewritten.taken player id)

end AshamaneCore.Auctions

/-!
## Removals of auctions

An auction leaves its map by a buyout, a cancellation or its end. When it is
not pending then, what is owed stays accounted for.
-/

namespace AshamaneCore.Auctions

open Library Library.Transition Players

/-- The auction is not pending, and its deposit did not have to be given up. -/
def Collected (s : State) (auction : AuctionEntry) : Prop :=
  ¬ Pending s auction.id ∧ (auction.deposit = 0 ∨ ¬ NotRetrieved s auction.id)

def Ends (now : Int) (s : State) (auction : AuctionEntry) : Prop :=
  auction.expireTime ≤ now + 60 → if auction.bidder = 0 ∧ auction.bid = 0 then ¬ Pending s auction.id
    else Collected s auction

variable {w : World} {s : State}

variable {auction : AuctionEntry}

theorem Accounted.deposit_le (h : Accounted s) (hMem : auction ∈ s.auctions.entries)
    (hCollected : Collected s auction) :
    auction.deposit ≤ takenFrom auction.owner auction.id s.history := by
  obtain ⟨hPending, hRetrieved⟩ := hCollected
  rcases h.charged auction hMem with hWaits | hGivenUp | hPaid
  · exact absurd hWaits hPending
  · rw [hRetrieved.resolve_right (not_not_intro hGivenUp)]
    exact Nat.zero_le _
  · exact hPaid

/-! ## Sales -/

theorem mem_pendingAuctionAdd (s : State) (player id : Nat) :
    (∀ list ∈ s.pending.entries, list.guid ≠ player → list ∈ (pendingAuctionAdd s player id).pending.entries) ∧
    ∃ before, (∀ list ∈ s.pending.entries, list.guid = player → list.auctions = before) ∧
      (before = [] ∨ ∃ list ∈ s.pending.entries, list.guid = player ∧ list.auctions = before) ∧
      (∃ list ∈ (pendingAuctionAdd s player id).pending.entries, list.auctions = before ++ [id]) ∧
      ∀ list ∈ (pendingAuctionAdd s player id).pending.entries,
        list ∈ s.pending.entries ∨ list.guid = player ∧ list.auctions = before ++ [id] := by
  rw [pendingAuctionAdd]
  split
  · rename_i list hFind
    obtain ⟨hList, rfl⟩ := KeyedSet.find?_eq_some_iff.mp hFind
    refine ⟨fun other hOther hNe => KeyedSet.mem_assign.mpr (Or.inr ⟨hOther, hNe⟩), list.auctions,
      fun other hOther hGuid => congrArg _ (s.pending.key_injective hOther hList hGuid),
      Or.inr ⟨list, hList, rfl, rfl⟩, ⟨_, KeyedSet.mem_assign.mpr (Or.inl rfl), rfl⟩, fun other hOther => ?_⟩
    rcases KeyedSet.mem_assign.mp hOther with rfl | ⟨hOld, -⟩
    · exact Or.inr ⟨rfl, rfl⟩
    · exact Or.inl hOld
  · rename_i hNone
    have hAbsent := KeyedSet.find?_eq_none_iff.mp hNone
    refine ⟨fun other hOther hNe => KeyedSet.mem_assign.mpr (Or.inr ⟨hOther, hNe⟩), [],
      fun other hOther hGuid => absurd hGuid (hAbsent other hOther), Or.inl rfl,
      ⟨_, KeyedSet.mem_assign.mpr (Or.inl rfl), rfl⟩, fun other hOther => ?_⟩
    rcases KeyedSet.mem_assign.mp hOther with rfl | ⟨hOld, -⟩
    · exact Or.inr ⟨rfl, rfl⟩
    · exact Or.inl hOld

theorem Accounted.list (h : Accounted s) {item : AuctionItem}
    (hId : auction.id = s.nextAuctionId) :
    Accounted (pendingAuctionAdd (addAuction s item auction) auction.owner s.nextAuctionId) := by
  obtain ⟨hKept, before, hOwn, hBefore, hNew, hLists⟩ :=
    mem_pendingAuctionAdd (addAuction s item auction) auction.owner s.nextAuctionId
  obtain ⟨pending, hPending⟩ := pendingAuctionAdd_eq (addAuction s item auction) auction.owner s.nextAuctionId
  rw [hPending] at hKept hNew hLists ⊢
  have hMem : ∀ a, a ∈ (addAuction s item auction).auctions.entries ↔
      a = auction ∨ a ∈ s.auctions.entries ∧ a.id ≠ auction.id := fun a => KeyedSet.mem_assign
  have hOld : ∀ a ∈ s.auctions.entries, a ∈ (addAuction s item auction).auctions.entries := fun a hA =>
    (hMem a).mpr (Or.inr ⟨hA, ((h.fresh a hA).trans_eq hId.symm).ne⟩)
  have hSelf : auction ∈ (addAuction s item auction).auctions.entries := (hMem auction).mpr (Or.inl rfl)
  have hBatch : before.Nodup ∧ ∀ id ∈ before, ∃ a ∈ s.auctions.entries, a.id = id ∧ a.owner = auction.owner := by
    rcases hBefore with rfl | ⟨list, hList, hGuid, rfl⟩
    · exact ⟨List.nodup_nil, fun _ hNone => (List.not_mem_nil hNone).elim⟩
    · refine ⟨(h.batches list hList).2, fun id hMem => ?_⟩
      rw [← hGuid]
      exact h.pending list hList id hMem
  have hWaits : ∀ id, Pending s id → ∃ list ∈ pending.entries, id ∈ list.auctions := by
    rintro id ⟨list, hList, hMem⟩
    rcases eq_or_ne list.guid auction.owner with hGuid | hNe
    · obtain ⟨new, hNewMem, hNewAuctions⟩ := hNew
      refine ⟨new, hNewMem, ?_⟩
      rw [hNewAuctions, ← hOwn list hList hGuid]
      exact List.mem_append_left _ hMem
    · exact ⟨list, hKept list hList hNe, hMem⟩
  refine ⟨fun a hA => ?_, fun list hList id hMemId => ?_, fun list hList => ?_, fun row hRow => ?_,
    fun a hA => ?_, fun a hA player => ?_, fun player id hLe => ?_, h.settled⟩
  · rcases (hMem a).mp hA with rfl | ⟨hA, -⟩
    · exact hId ▸ Nat.lt_succ_self _
    · exact (h.fresh a hA).trans (Nat.lt_succ_self _)
  · rcases hLists list hList with hStored | ⟨hGuid, hAuctions⟩
    · obtain ⟨a, hA, hSame, hOwner⟩ := h.pending list hStored id hMemId
      exact ⟨a, hOld a hA, hSame, hOwner⟩
    · rw [hAuctions, List.mem_append, List.mem_singleton] at hMemId
      rcases hMemId with hIn | rfl
      · obtain ⟨a, hA, hSame, hOwner⟩ := hBatch.2 id hIn
        exact ⟨a, hOld a hA, hSame, hOwner.trans hGuid.symm⟩
      · exact ⟨auction, hSelf, hId, hGuid.symm⟩
  · rcases hLists list hList with hStored | ⟨-, hAuctions⟩
    · exact h.batches list hStored
    · rw [hAuctions]
      refine ⟨List.append_ne_nil_of_right_ne_nil _ (List.cons_ne_nil _ _), ?_⟩
      refine List.nodup_append.mpr ⟨hBatch.1, List.nodup_singleton _, fun id hIn other hOther hEq => ?_⟩
      obtain ⟨a, hA, rfl, -⟩ := hBatch.2 id hIn
      have hFresh := h.fresh a hA
      rw [List.mem_singleton] at hOther
      omega
  · rcases KeyedSet.mem_assign.mp hRow with rfl | ⟨hStored, -⟩
    · exact ⟨auction, hSelf, rfl⟩
    · obtain ⟨a, hA, hSame⟩ := h.rows row hStored
      exact ⟨a, hOld a hA, hSame⟩
  · rcases (hMem a).mp hA with rfl | ⟨hA, -⟩
    · obtain ⟨new, hNewMem, hNewAuctions⟩ := hNew
      refine Or.inl ⟨new, hNewMem, ?_⟩
      rw [hNewAuctions, hId]
      exact List.mem_append_right _ (List.mem_singleton_self _)
    · exact (h.charged a hA).imp_left (hWaits a.id)
  · rcases (hMem a).mp hA with rfl | ⟨hA, -⟩
    · exact h.unused player a.id hId.ge
    · exact h.unsold a hA player
  · exact h.unused player id ((Nat.le_succ _).trans hLe)

theorem sellItem_accounted (h : Accounted s) (request : SellRequest w) :
    Accounted (handleAuctionSellItem w s request) := by
  rcases sellItem_cases s request with hSame | ⟨error, hRefused⟩ | ⟨guid, item, -, hListed⟩
  · rwa [hSame]
  · rw [hRefused]
    exact h.refund (refunds_record 0 0 _ _ _ _ _)
  · rw [hListed, listAuction]
    exact (h.list rfl).refund (refunds_record 0 0 _ _ _ _ _)

/-! ## Bids -/

theorem refunds_bid (player id : Nat) (s : State) (request : BidRequest w) (auction : AuctionEntry) :
    Refunds player id 0 s (payBid w s request auction) := by
  rw [payBid]
  split
  · split
    · exact refunds_charge ..
    · exact (refunds_outbidded w request.online s player id auction).trans (refunds_charge ..)
  · exact refunds_charge ..

theorem refunds_buyout (player id : Nat) (s : State) (request : BidRequest w) (auction : AuctionEntry) :
    Refunds player id 0 s (payBuyout w s request auction) := by
  rw [payBuyout]
  split
  · exact refunds_charge ..
  · split
    · exact (refunds_charge ..).trans (refunds_outbidded w request.online _ player id auction)
    · exact refunds_charge ..

theorem Accounted.raise (h : Accounted s) {raised : AuctionEntry}
    (hMem : auction ∈ s.auctions.entries) (hId : raised.id = auction.id)
    (hOwner : raised.owner = auction.owner) (hDeposit : raised.deposit = auction.deposit) :
    Accounted { s.write raised with rows := s.rows.alter auction.id (updateBid raised) fun _ => rfl } := by
  refine h.rewrite ⟨fun a hA => ?_, fun a hA => ?_, rfl, fun list hList => ⟨list, hList, rfl, rfl⟩,
    fun row hRow => ?_, fun a hA => ?_, rfl, fun _ _ => Nat.le_refl _⟩
  · rcases KeyedSet.mem_assign.mp hA with rfl | ⟨hOld, -⟩
    · exact ⟨auction, hMem, hId.symm, hOwner.symm⟩
    · exact ⟨a, hOld, rfl, rfl⟩
  · rcases eq_or_ne a.id raised.id with hSame | hNe
    · obtain rfl := s.auctions.key_injective hA hMem (hSame.trans hId)
      exact ⟨raised, KeyedSet.mem_assign.mpr (Or.inl rfl), hId, hOwner⟩
    · exact ⟨a, KeyedSet.mem_assign.mpr (Or.inr ⟨hA, hNe⟩), rfl, rfl⟩
  · obtain ⟨old, hOld, rfl⟩ := List.mem_map.mp hRow
    obtain ⟨a, hA, hSame⟩ := h.rows old hOld
    refine ⟨a, hA, hSame.trans ?_⟩
    split <;> rfl
  · rcases KeyedSet.mem_assign.mp hA with rfl | ⟨hOld, -⟩
    · rw [hId, hOwner, hDeposit]
      exact h.charged auction hMem
    · exact h.charged a hOld

theorem placeBid_accounted (h : Accounted s) (request : BidRequest w)
    (hCollected : ∀ auction, checkBid w s request = .buyout auction → Collected s auction) :
    Accounted (handleAuctionPlaceBid w s request) := by
  rw [handleAuctionPlaceBid]
  split
  · exact h
  · exact h.refund (refunds_record 0 0 _ _ _ _ _)
  · rename_i auction hCheck
    obtain ⟨hMem, -⟩ := KeyedSet.find?_eq_some_iff.mp (checkBid_bid hCheck).1.found
    have hPaid := refunds_bid auction.owner auction.id s request auction
    rw [← hPaid.auctions] at hMem
    let raised : AuctionEntry := { auction with bidder := request.player.val, bid := request.bidAmount }
    have hId : raised.id = auction.id := rfl
    exact ((h.refund hPaid).raise hMem hId rfl rfl).refund
      (refunds_record 0 0 _ request.player.val (some auction.id) .placeBid .ok)
  · rename_i auction hCheck
    obtain ⟨hMem, -⟩ := KeyedSet.find?_eq_some_iff.mp (checkBid_buyout hCheck).1.found
    have hSold := hCollected auction hCheck
    refine h.remove hMem hSold.1 (h.deposit_le hMem hSold) ?_ rfl
    have hPaid := ((refunds_buyout auction.owner auction.id s request auction).trans
      (refunds_record _ _ _ request.player.val (some auction.id) .placeBid .ok)).trans
        (refunds_salePending w request.online _ _ _ (auction.soldTo request.player.val))
    have hSale := (hPaid.trans (refunds_successful w request.online _ (auction.soldTo request.player.val))).trans
      (refunds_won w request.online _ _ _ (auction.soldTo request.player.val))
    rwa [Nat.zero_add, Nat.add_zero] at hSale

theorem removeItem_accounted (h : Accounted s) (request : RemoveRequest w)
    (hWaits : ∀ auction, checkCancel w s request = .cancelled auction → ¬ Pending s auction.id) :
    Accounted (handleAuctionRemoveItem w s request) := by
  rw [handleAuctionRemoveItem]
  split
  · exact h
  · exact h.refund (refunds_record 0 0 _ _ _ _ _)
  · rename_i auction hCheck
    obtain ⟨hMem, -⟩ := KeyedSet.find?_eq_some_iff.mp (checkCancel_cancelled hCheck).1
    refine h.remove hMem (hWaits auction hCheck) (Nat.zero_le _) ?_ rfl
    have hCut : Refunds auction.owner auction.id 0 s (payCut w s request auction) := by
      rw [payCut]
      split
      · exact (refunds_cancelled w request.online s _ _ auction).trans (refunds_charge ..)
      · exact Refunds.refl ..
    exact (hCut.trans (refunds_send _ _ _ .canceled rfl (by decide))).trans (refunds_record ..)

/-! ## Ends -/

variable {now : Int}

theorem expireAuction_accounted (h : Accounted s) (online : w.Online)
    (hMem : auction ∈ s.auctions.entries) (hEnds : Ends now s auction) :
    Accounted (expireAuction w online now s auction) := by
  rw [expireAuction]
  split
  · exact h
  · rename_i hDue
    have hEnd := hEnds (not_lt.mp hDue)
    split
    · rename_i hUnsold
      rw [if_pos hUnsold] at hEnd
      exact h.remove hMem hEnd (Nat.zero_le _) (refunds_expired w online s _ _ auction) rfl
    · rename_i hSold
      rw [if_neg hSold] at hEnd
      exact h.remove hMem hEnd.1 (h.deposit_le hMem hEnd)
        ((refunds_successful w online s auction).trans (refunds_won w online _ _ _ auction)) rfl

theorem expireAuction_others (online : w.Online) (now : Int) (s : State) (auction : AuctionEntry) :
    (∀ a ∈ s.auctions.entries, a.id ≠ auction.id → a ∈ (expireAuction w online now s auction).auctions.entries) ∧
      (expireAuction w online now s auction).pending = s.pending ∧
      (expireAuction w online now s auction).history = s.history := by
  rw [expireAuction]
  split
  · exact ⟨fun _ hA _ => hA, rfl, rfl⟩
  · split
    · have hFrame := framed_expired w online s auction
      exact ⟨fun a hA hNe => KeyedSet.mem_erase.mpr ⟨hFrame.auctions ▸ hA, hNe⟩, hFrame.pending, hFrame.history⟩
    · have hFrame := (framed_successful w online s auction).trans (framed_won w online _ auction)
      exact ⟨fun a hA hNe => KeyedSet.mem_erase.mpr ⟨hFrame.auctions ▸ hA, hNe⟩, hFrame.pending, hFrame.history⟩

theorem expireAuctions_accounted (online : w.Online) (auctions : List AuctionEntry)
    (h : Accounted s) (hIds : (auctions.map AuctionEntry.id).Nodup)
    (hMem : ∀ auction ∈ auctions, auction ∈ s.auctions.entries) (hEnds : ∀ auction ∈ auctions, Ends now s auction) :
    Accounted (auctions.foldl (expireAuction w online now) s) := by
  induction auctions generalizing s with
  | nil => exact h
  | cons auction auctions ih =>
    obtain ⟨hNew, hNodup⟩ := List.nodup_cons.mp hIds
    obtain ⟨hFirst, hOthers⟩ := List.forall_mem_cons.mp hMem
    obtain ⟨hEnd, hRest⟩ := List.forall_mem_cons.mp hEnds
    obtain ⟨hStay, hPending, hHistory⟩ := expireAuction_others online now s auction
    refine ih (expireAuction_accounted h online hFirst hEnd) hNodup (fun a hA => ?_) fun a hA => ?_
    · exact hStay a (hOthers a hA) fun hEq => hNew (hEq ▸ List.mem_map_of_mem hA)
    · have hA := hRest a hA
      rw [Ends, Collected, Pending, NotRetrieved] at hA ⊢
      rwa [hPending, hHistory]

theorem updateHouse_accounted (h : Accounted s) (online : w.Online) {house : House}
    (hEnds : ∀ auction ∈ s.auctions.entries, auction.house = house → Ends now s auction) :
    Accounted (updateHouse w online house now s) := by
  refine expireAuctions_accounted online _ h ?_ (fun a hA => (List.mem_filter.mp hA).1) fun a hA => ?_
  · exact s.auctions.nodup_keys.sublist (List.filter_sublist.map _)
  · obtain ⟨hMem, hHouse⟩ := List.mem_filter.mp hA
    exact hEnds a hMem (of_decide_eq_true hHouse)

end AshamaneCore.Auctions
