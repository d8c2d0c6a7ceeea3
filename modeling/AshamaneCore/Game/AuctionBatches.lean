import AshamaneCore.Game.AuctionSettlement

/-!
# Batches of deposits

A batch that is charged gives every auction a share that its seller has paid,
and a batch of an offline seller is given up. The other batches do not notice.
-/

namespace AshamaneCore.Auctions

open Library Library.Transition Players

def Covered (w : World) (s : State) (list : PlayerAuctions) : Prop :=
  ∀ auctions first, s.auctions.findAll? list.auctions = some auctions → auctions.head? = some first →
    totalDeposit w s first (auctions.foldl (fun n a => (n + a.itemCount) % 2 ^ 32) 0) ≤ s.money list.guid

/-- A batch leaves the pending lists, and its auctions and rows are rewritten. -/
def settleBatch (s : State) (seller : Nat) (rewritten : List AuctionEntry) (events : List Event)
    (money : Nat → Nat) : State :=
  { s with
    auctions := rewritten.foldl KeyedSet.assign s.auctions
    rows := (rewritten.map AuctionEntry.saveToDB).foldl KeyedSet.assign s.rows
    pending := s.pending.erase seller
    money := money
    history := s.history ++ events }

def priced (line : AuctionEntry × Nat × Nat) : AuctionEntry := { line.1 with deposit := line.2.1 }

def ended (now : Int) (auction : AuctionEntry) : AuctionEntry := { auction with expireTime := now }

theorem foldl_assignDeposit (player : Nat) (lines : List (AuctionEntry × Nat × Nat)) (s : State) :
    lines.foldl (assignDeposit player) s =
      { s with
        auctions := (lines.map priced).foldl KeyedSet.assign s.auctions
        rows := ((lines.map priced).map AuctionEntry.saveToDB).foldl KeyedSet.assign s.rows
        history := s.history ++ lines.map fun line => .depositCharged player line.1.id line.2.2 } := by
  induction lines generalizing s with
  | nil => simp
  | cons line lines ih => simp [ih, assignDeposit, State.write, priced]

theorem foldl_expirePending (now : Int) (auctions : List AuctionEntry) (s : State) :
    auctions.foldl (expirePending now) s =
      { s with
        auctions := (auctions.map (ended now)).foldl KeyedSet.assign s.auctions
        rows := ((auctions.map (ended now)).map AuctionEntry.saveToDB).foldl KeyedSet.assign s.rows
        history := s.history ++ auctions.map fun auction => .depositNotRetrieved auction.id } := by
  induction auctions generalizing s with
  | nil => simp
  | cons auction auctions ih => simp [ih, expirePending, State.write, ended]

theorem processBatch_eq (s : State) (player : Nat) (auctions : List AuctionEntry) (total : Nat) :
    processBatch s player auctions total =
      settleBatch s player ((depositLines s player auctions total).map priced)
        ((depositLines s player auctions total).map fun line => .depositCharged player line.1.id line.2.2)
        (Function.update s.money player (s.moneyAfter player total)) := by
  rw [processBatch, foldl_assignDeposit, settleBatch]

theorem expireBatch_eq (now : Int) (s : State) (player : Nat) (auctions : List AuctionEntry) :
    expireBatch now s player auctions =
      settleBatch s player (auctions.map (ended now))
        (auctions.map fun auction => .depositNotRetrieved auction.id) s.money := by
  rw [expireBatch, foldl_expirePending, settleBatch]

variable {w : World} {s : State}

/-! ## One batch -/

/-- The auctions of a pending list under the ids and owners they have. -/
structure Batch (s : State) (list : PlayerAuctions) (rewritten : List AuctionEntry) : Prop where
  stored : list ∈ s.pending.entries
  ids : rewritten.map AuctionEntry.id = list.auctions
  old : ∀ auction ∈ rewritten, ∃ old ∈ s.auctions.entries, old.id = auction.id ∧ old.owner = auction.owner

section

variable {list : PlayerAuctions} {rewritten : List AuctionEntry} {events : List Event} {money : Nat → Nat}

theorem Accounted.batch_nodup (h : Accounted s) (hBatch : Batch s list rewritten) :
    (rewritten.map AuctionEntry.id).Nodup := hBatch.ids ▸ (h.batches list hBatch.stored).2

theorem Accounted.settle (h : Accounted s) (hBatch : Batch s list rewritten)
    (hCharged : ∀ auction ∈ rewritten, .depositNotRetrieved auction.id ∈ events ∨
      auction.deposit ≤ takenFrom auction.owner auction.id events) :
    Accounted (settleBatch s list.guid rewritten events money) := by
  have hNodup := h.batch_nodup hBatch
  have hMem : ∀ a, a ∈ (settleBatch s list.guid rewritten events money).auctions.entries ↔
      a ∈ rewritten ∨ a ∈ s.auctions.entries ∧ ∀ b ∈ rewritten, a.id ≠ b.id :=
    fun a => KeyedSet.mem_foldl_assign hNodup
  have hTaken : ∀ player id, takenFrom player id (s.history ++ events) =
      takenFrom player id s.history + takenFrom player id events := fun _ _ => takenFrom_append ..
  refine h.rewrite ⟨fun a hA => ?_, fun a hA => ?_, rfl, fun l hL => ?_, fun row hRow => ?_, fun a hA => ?_, rfl,
    fun player id => (hTaken player id).ge.trans' (Nat.le_add_right ..)⟩
  · rcases (hMem a).mp hA with hNew | ⟨hOld, -⟩
    · exact hBatch.old a hNew
    · exact ⟨a, hOld, rfl, rfl⟩
  · by_cases hIn : ∃ b ∈ rewritten, a.id = b.id
    · obtain ⟨b, hB, hId⟩ := hIn
      obtain ⟨old, hOld, hSameId, hOwner⟩ := hBatch.old b hB
      obtain rfl := s.auctions.key_injective hA hOld (hId.trans hSameId.symm)
      exact ⟨b, (hMem b).mpr (Or.inl hB), hId.symm, hOwner.symm⟩
    · refine ⟨a, (hMem a).mpr (Or.inr ⟨hA, fun b hB hId => hIn ⟨b, hB, hId⟩⟩), rfl, rfl⟩
  · exact ⟨l, (KeyedSet.mem_erase.mp hL).1, rfl, rfl⟩
  · have hRowIds : ((rewritten.map AuctionEntry.saveToDB).map AuctionRow.id).Nodup := by
      rw [List.map_map]
      exact hNodup
    rcases (KeyedSet.mem_foldl_assign hRowIds).mp hRow with hNew | ⟨hOld, -⟩
    · obtain ⟨a, hA, rfl⟩ := List.mem_map.mp hNew
      obtain ⟨old, hOld, hId, -⟩ := hBatch.old a hA
      exact ⟨old, hOld, hId⟩
    · exact h.rows row hOld
  · rcases (hMem a).mp hA with hNew | ⟨hOld, hOthers⟩
    · refine Or.inr ((hCharged a hNew).imp (List.mem_append_right _) fun hPaid => ?_)
      exact (hPaid.trans (Nat.le_add_left ..)).trans (hTaken ..).ge
    · refine (h.charged a hOld).imp ?_ (Or.imp (List.mem_append_left _) fun hPaid => ?_)
      · rintro ⟨l, hL, hId⟩
        refine ⟨l, KeyedSet.mem_erase.mpr ⟨hL, fun hGuid => ?_⟩, hId⟩
        obtain rfl := s.pending.key_injective hL hBatch.stored hGuid
        rw [← hBatch.ids] at hId
        obtain ⟨b, hB, hSame⟩ := List.mem_map.mp hId
        exact hOthers b hB hSame.symm
      · exact (hPaid.trans (Nat.le_add_right ..)).trans (hTaken ..).ge

theorem settleBatch_others (h : Accounted s) (hBatch : Batch s list rewritten)
    (hMoney : ∀ player, player ≠ list.guid → money player = s.money player) {other : PlayerAuctions}
    (hOther : other ∈ s.pending.entries) (hNe : other.guid ≠ list.guid) :
    other ∈ (settleBatch s list.guid rewritten events money).pending.entries ∧
      (Covered w s other → Covered w (settleBatch s list.guid rewritten events money) other) := by
  have hAll : (settleBatch s list.guid rewritten events money).auctions.findAll? other.auctions =
      s.auctions.findAll? other.auctions := by
    refine KeyedSet.findAll?_congr fun id hId => KeyedSet.find?_foldl_assign (fun a hA hSame => hNe ?_) _
    obtain ⟨mine, hMine, hMineId, hMineOwner⟩ := h.pending other hOther id hId
    obtain ⟨theirs, hTheirs, hTheirsId, hTheirsOwner⟩ := h.pending list hBatch.stored a.id
      (hBatch.ids ▸ List.mem_map_of_mem hA)
    obtain rfl := s.auctions.key_injective hMine hTheirs (hMineId.trans (hSame.symm.trans hTheirsId.symm))
    exact hMineOwner.symm.trans hTheirsOwner
  refine ⟨KeyedSet.mem_erase.mpr ⟨hOther, hNe⟩, fun hCovered auctions first hFound hFirst => ?_⟩
  rw [hAll] at hFound
  exact (hCovered auctions first hFound hFirst).trans_eq (hMoney other.guid hNe).symm

end

variable {list : PlayerAuctions}

theorem Accounted.found (h : Accounted s) (hList : list ∈ s.pending.entries) :
    ∃ auctions, s.auctions.findAll? list.auctions = some auctions ∧
      (∀ auction ∈ auctions, auction ∈ s.auctions.entries ∧ auction.owner = list.guid) ∧
      auctions.map AuctionEntry.id = list.auctions := by
  have hFound : ∀ id ∈ list.auctions, (s.auctions.find? id).isSome := fun id hId => by
    obtain ⟨a, hA, hSame, -⟩ := h.pending list hList id hId
    exact Option.isSome_iff_exists.mpr ⟨a, KeyedSet.find?_eq_some_iff.mpr ⟨hA, hSame⟩⟩
  obtain ⟨auctions, hAll⟩ := KeyedSet.exists_findAll? hFound
  obtain ⟨hIds, hMem⟩ := KeyedSet.findAll?_eq_some_iff.mp hAll
  refine ⟨auctions, hAll, fun auction hAuction => ⟨hMem auction hAuction, ?_⟩, hIds⟩
  obtain ⟨a, hA, hSame, hOwner⟩ := h.pending list hList auction.id (hIds ▸ List.mem_map_of_mem hAuction)
  rwa [← s.auctions.key_injective hA (hMem auction hAuction) hSame]

/-! ## One seller -/

variable {total : Nat}

theorem moneyAfter_covered {player : Nat} (hTotal : total < 2 ^ 63) (hCovered : total ≤ s.money player) :
    s.money player - s.moneyAfter player total = total := by
  rw [State.moneyAfter, asInt64_of_lt hTotal, modifyMoney_charge hCovered]
  exact Nat.sub_sub_self hCovered

variable {auctions : List AuctionEntry}

theorem depositLines_covered {player : Nat} (hTotal : total < 2 ^ 63)
    (hCovered : total ≤ s.money player) :
    depositLines s player auctions total =
      auctions.zip ((depositShares total auctions.length).map fun share => (share, share)) := by
  rw [depositLines, moneyAfter_covered hTotal hCovered, chargedShares_full (sum_depositShares ..).le,
    ← List.zip_map', List.map_id']

theorem processBatch_step (h : Accounted s)
    (hList : list ∈ s.pending.entries)
    (hOwned : ∀ auction ∈ auctions, auction ∈ s.auctions.entries ∧ auction.owner = list.guid)
    (hIds : auctions.map AuctionEntry.id = list.auctions) (hTotal : total < 2 ^ 63)
    (hCovered : total ≤ s.money list.guid) :
    Accounted (processBatch s list.guid auctions total) ∧
      ∀ other ∈ s.pending.entries, other.guid ≠ list.guid →
        other ∈ (processBatch s list.guid auctions total).pending.entries ∧
          (Covered w s other → Covered w (processBatch s list.guid auctions total) other) := by
  have hNonempty : 0 < auctions.length := by
    rw [← List.length_map AuctionEntry.id, hIds]
    exact List.length_pos_iff.mpr (h.batches list hList).1
  have hLength : ((depositShares total auctions.length).map fun share => (share, share)).length = auctions.length := by
    rw [List.length_map, length_depositShares total hNonempty]
  let lines := auctions.zip ((depositShares total auctions.length).map fun share => (share, share))
  have hLines : ∀ line ∈ lines, line.1 ∈ auctions ∧ line.2.1 = line.2.2 := fun line hLine => by
    obtain ⟨hFirst, hSecond⟩ := List.of_mem_zip hLine
    obtain ⟨share, -, hShare⟩ := List.mem_map.mp hSecond
    exact ⟨hFirst, by rw [← hShare]⟩
  have hBatch : Batch s list (lines.map priced) := by
    refine ⟨hList, ?_, fun a hA => ?_⟩
    · rw [← hIds, ← List.map_fst_zip hLength.ge, List.map_map, List.map_map]
      rfl
    · obtain ⟨line, hLine, rfl⟩ := List.mem_map.mp hA
      exact ⟨line.1, (hOwned line.1 (hLines line hLine).1).1, rfl, rfl⟩
  rw [processBatch_eq, depositLines_covered hTotal hCovered]
  refine ⟨h.settle hBatch fun a hA => ?_, fun other hOther hNe =>
    settleBatch_others h hBatch (fun _ hPlayer => Function.update_of_ne hPlayer ..) hOther hNe⟩
  obtain ⟨line, hLine, rfl⟩ := List.mem_map.mp hA
  obtain ⟨hMem, hEqual⟩ := hLines line hLine
  have hOwner : (priced line).owner = list.guid := (hOwned line.1 hMem).2
  have hDeposit : (priced line).deposit = line.2.2 := hEqual
  rw [hOwner, hDeposit]
  exact Or.inr (le_takenFrom (List.mem_map.mpr ⟨line, hLine, rfl⟩))

theorem pendingAuctionProcess_eq (hList : list ∈ s.pending.entries)
    {first : AuctionEntry} {rest : List AuctionEntry}
    (hAll : s.auctions.findAll? list.auctions = some (first :: rest)) :
    pendingAuctionProcess w s list.guid = some (processBatch s list.guid (first :: rest)
      (totalDeposit w s first ((first :: rest).foldl (fun n a => (n + a.itemCount) % 2 ^ 32) 0))) := by
  have hFind : s.pending.find? list.guid = some list := KeyedSet.find?_eq_some_iff.mpr ⟨hList, rfl⟩
  rw [pendingAuctionProcess, hFind]
  simp only [hAll, Option.bind_some, List.head?_cons, Option.map_some]

theorem lastCount_step (h : Accounted s) (hList : list ∈ s.pending.entries) (count : Nat) :
    Accounted { s with pending := s.pending.assign { list with lastCount := count } } ∧
      ∀ other ∈ s.pending.entries, other.guid ≠ list.guid →
        other ∈ (s.pending.assign { list with lastCount := count }).entries := by
  have hOld : ∀ l ∈ (s.pending.assign { list with lastCount := count }).entries,
      ∃ old ∈ s.pending.entries, old.guid = l.guid ∧ old.auctions = l.auctions := fun l hL => by
    rcases KeyedSet.mem_assign.mp hL with rfl | ⟨hOld, -⟩
    · exact ⟨list, hList, rfl, rfl⟩
    · exact ⟨l, hOld, rfl, rfl⟩
  have hNew : ∀ l ∈ s.pending.entries,
      ∃ new ∈ (s.pending.assign { list with lastCount := count }).entries, new.auctions = l.auctions :=
    fun l hL => by
      rcases eq_or_ne l.guid list.guid with hGuid | hNe
      · obtain rfl := s.pending.key_injective hL hList hGuid
        exact ⟨_, KeyedSet.mem_assign.mpr (Or.inl rfl), rfl⟩
      · exact ⟨l, KeyedSet.mem_assign.mpr (Or.inr ⟨hL, hNe⟩), rfl⟩
  refine ⟨h.rewrite ⟨fun a hA => ⟨a, hA, rfl, rfl⟩, fun a hA => ⟨a, hA, rfl, rfl⟩, rfl, hOld, h.rows, fun a hA => ?_,
    rfl, fun _ _ => Nat.le_refl _⟩, fun other hOther hNe => KeyedSet.mem_assign.mpr (Or.inr ⟨hOther, hNe⟩)⟩
  refine (h.charged a hA).imp_left ?_
  rintro ⟨l, hL, hId⟩
  obtain ⟨new, hMem, hAuctions⟩ := hNew l hL
  exact ⟨new, hMem, hAuctions ▸ hId⟩

theorem expireBatch_step (h : Accounted s) (now : Int)
    (hList : list ∈ s.pending.entries)
    (hOwned : ∀ auction ∈ auctions, auction ∈ s.auctions.entries ∧ auction.owner = list.guid)
    (hIds : auctions.map AuctionEntry.id = list.auctions) :
    Accounted (expireBatch now s list.guid auctions) ∧
      ∀ other ∈ s.pending.entries, other.guid ≠ list.guid →
        other ∈ (expireBatch now s list.guid auctions).pending.entries ∧
          (Covered w s other → Covered w (expireBatch now s list.guid auctions) other) := by
  have hBatch : Batch s list (auctions.map (ended now)) := by
    refine ⟨hList, ?_, fun a hA => ?_⟩
    · rw [List.map_map]
      exact hIds
    · obtain ⟨old, hOld, rfl⟩ := List.mem_map.mp hA
      exact ⟨old, (hOwned old hOld).1, rfl, rfl⟩
  rw [expireBatch_eq]
  refine ⟨h.settle hBatch fun a hA => ?_, fun other hOther hNe =>
    settleBatch_others h hBatch (fun _ _ => rfl) hOther hNe⟩
  obtain ⟨old, hOld, rfl⟩ := List.mem_map.mp hA
  exact Or.inl (List.mem_map.mpr ⟨old, hOld, rfl⟩)

theorem updatePending_step (h : Accounted s) (online : w.Online) (now : Int)
    (hList : list ∈ s.pending.entries)
    (hCovered : online.val list.guid = true → list.auctions.length = list.lastCount → Covered w s list) :
    ∃ s', updatePending w online now s list = some s' ∧ Accounted s' ∧
      ∀ other ∈ s.pending.entries, other.guid ≠ list.guid →
        other ∈ s'.pending.entries ∧ (Covered w s other → Covered w s' other) := by
  obtain ⟨auctions, hAll, hOwned, hIds⟩ := h.found hList
  rw [updatePending]
  split
  · rename_i hOnline
    split
    · rename_i hLength
      obtain ⟨first, rest, rfl⟩ : ∃ first rest, auctions = first :: rest :=
        List.exists_cons_of_ne_nil fun hNil => (h.batches list hList).1 (hIds.symm.trans (hNil ▸ rfl))
      exact ⟨_, pendingAuctionProcess_eq hList hAll, processBatch_step h hList hOwned hIds (totalDeposit_lt ..)
        (hCovered hOnline hLength (first :: rest) first hAll rfl)⟩
    · obtain ⟨hAccounted, hOthers⟩ := lastCount_step h hList list.auctions.length
      exact ⟨_, rfl, hAccounted, fun other hOther hNe => ⟨hOthers other hOther hNe, id⟩⟩
  · exact ⟨_, by rw [hAll, Option.map_some], expireBatch_step h now hList hOwned hIds⟩

/-! ## All sellers -/

theorem updateAll_accounted (online : w.Online) (now : Int) (lists : List PlayerAuctions) (h : Accounted s)
    (hSorted : lists.Pairwise fun a b => a.guid < b.guid) (hLists : ∀ list ∈ lists, list ∈ s.pending.entries)
    (hCovered : ∀ list ∈ lists, online.val list.guid = true → list.auctions.length = list.lastCount →
      Covered w s list) :
    ∃ s', lists.foldlM (updatePending w online now) s = some s' ∧ Accounted s' := by
  induction lists generalizing s with
  | nil => exact ⟨s, rfl, h⟩
  | cons list lists ih =>
    obtain ⟨hBehind, hRest⟩ := List.pairwise_cons.mp hSorted
    obtain ⟨hList, hOthers⟩ := List.forall_mem_cons.mp hLists
    obtain ⟨hFirst, hLater⟩ := List.forall_mem_cons.mp hCovered
    obtain ⟨t, hStep, hAccounted, hKept⟩ := updatePending_step h online now hList hFirst
    obtain ⟨s', hFold, hEnd⟩ := ih hAccounted hRest
      (fun other hOther => (hKept other (hOthers other hOther) (hBehind other hOther).ne').1)
      fun other hOther hOnline hLength => (hKept other (hOthers other hOther) (hBehind other hOther).ne').2
        (hLater other hOther hOnline hLength)
    exact ⟨s', by rw [List.foldlM_cons, hStep]; exact hFold, hEnd⟩

/-! ## Runs -/

/-- Every pending auction and every row is of a listed auction, and no sale refunded more than was
taken. -/
structure Safe (s : State) : Prop where
  pending : ∀ list ∈ s.pending.entries, ∀ id ∈ list.auctions, ∃ auction ∈ s.auctions.entries, auction.id = id
  rows : ∀ row ∈ s.rows.entries, ∃ auction ∈ s.auctions.entries, auction.id = row.id
  refunds : ∀ player id, refundedTo player id s.mails ≤ takenFrom player id s.history

section

variable (w)

/-- The operation follows no pointer to a removed auction and ends in a safe state. -/
def Secured (s : State) (operation : Operation w) : Prop := ∃ s', operate w s operation = some s' ∧ Safe s'

/-- Auctions are removed after their deposits were charged, to sellers who are online and have the
money. -/
def Charged (s : State) : Operation w → Prop
  | .sellItem _ => True
  | .placeBid request => ∀ auction, checkBid w s request = .buyout auction → Collected s auction
  | .removeItem request => ∀ auction, checkCancel w s request = .cancelled auction → ¬ Pending s auction.id
  | .update _ house now => ∀ auction ∈ s.auctions.entries, auction.house = house → Ends now s auction
  | .updatePending online _ => ∀ list ∈ s.pending.entries, online.val list.guid = true →
    list.auctions.length = list.lastCount → Covered w s list

end

theorem Accounted.safe (h : Accounted s) : Safe s := by
  refine ⟨fun list hList id hId => ?_, h.rows, h.settled⟩
  obtain ⟨a, hA, hSame, -⟩ := h.pending list hList id hId
  exact ⟨a, hA, hSame⟩

theorem operate_accounted (h : Accounted s) {operation : Operation w} (hCharged : Charged w s operation) :
    ∃ s', operate w s operation = some s' ∧ Accounted s' := by
  cases operation with
  | sellItem request => exact ⟨_, rfl, sellItem_accounted h request⟩
  | placeBid request => exact ⟨_, rfl, placeBid_accounted h request hCharged⟩
  | removeItem request => exact ⟨_, rfl, removeItem_accounted h request hCharged⟩
  | update online house now => exact ⟨_, rfl, updateHouse_accounted h online hCharged⟩
  | updatePending online now =>
    exact updateAll_accounted online now _ h s.pending.sorted (fun _ hList => hList) hCharged

theorem initial_accounted (money : Nat → Purse) : Accounted (State.initial money) where
  fresh _ hMem := (List.not_mem_nil hMem).elim
  pending _ hMem := (List.not_mem_nil hMem).elim
  batches _ hMem := (List.not_mem_nil hMem).elim
  rows _ hMem := (List.not_mem_nil hMem).elim
  charged _ hMem := (List.not_mem_nil hMem).elim
  unsold _ hMem := (List.not_mem_nil hMem).elim
  unused _ _ _ := rfl
  settled _ _ := Nat.le_refl 0

/-- While auctions are removed only after they were charged, nothing is refunded that was not taken. -/
theorem run_secured (w : World) (money : Nat → Purse) (operations : List (Operation w))
    (h : Along (next w) (Charged w) (State.initial money) operations) :
    Along (next w) (Secured w) (State.initial money) operations := by
  refine Along.judge (I := Accounted) (fun s operation hAccounted hCharged => ?_) (initial_accounted money) h
  obtain ⟨s', hOperate, hNext⟩ := operate_accounted hAccounted hCharged
  exact ⟨⟨s', hOperate, hNext.safe⟩, by rw [next, hOperate]; exact hNext⟩

/-! ## A sale before and after the charge -/

def sellerOnline (percent : Int) : (percentWorld percent).Online :=
  ⟨fun guid => guid = 1, fun _ h => of_decide_eq_true h ▸ (seller percent).property.1⟩

/-- The seller is charged by the second scan, and then the sword is bought out. -/
def chargedSale : List (Operation (percentWorld 5)) :=
  [.sellItem (swordSale 5), .updatePending (sellerOnline 5) 0, .updatePending (sellerOnline 5) 60,
    .placeBid (swordBuyout 5)]

theorem chargedSale_secured :
    Along (next (percentWorld 5)) (Charged (percentWorld 5)) (State.initial (purse 20000 (by decide))) chargedSale ∧
      Along (next (percentWorld 5)) (Secured (percentWorld 5)) (State.initial (purse 20000 (by decide)))
        chargedSale := by
  have hCharged : Along (next (percentWorld 5)) (Charged (percentWorld 5))
      (State.initial (purse 20000 (by decide))) chargedSale := by
    let listed := next (percentWorld 5) (State.initial (purse 20000 (by decide))) (.sellItem (swordSale 5))
    let scanned := next (percentWorld 5) listed (.updatePending (sellerOnline 5) 0)
    let charged := next (percentWorld 5) scanned (.updatePending (sellerOnline 5) 60)
    let sword := newAuction (percentWorld 5) (State.initial (purse 20000 (by decide))) (swordSale 5) 50 ⟨2488, 1⟩ 100
    refine ⟨trivial, fun list hList _ hLength => ?_, fun list hList _ _ auctions first hAll hFirst => ?_,
      fun auction hCheck => ?_, trivial⟩
    · have hNew : ∀ l ∈ listed.pending.entries, l.auctions.length ≠ l.lastCount := by decide +kernel
      exact absurd hLength (hNew list hList)
    · have hPending : scanned.pending.entries = [⟨1, [1], 1⟩] := by decide +kernel
      have hFound : scanned.auctions.findAll? [1] = some [sword] := by decide +kernel
      obtain rfl := List.mem_singleton.mp (hPending ▸ hList)
      obtain rfl := Option.some.inj (hFound.symm.trans hAll)
      obtain rfl := Option.some.inj hFirst
      decide +kernel
    · have hSold : checkBid (percentWorld 5) charged (swordBuyout 5) = .buyout sword := by decide +kernel
      have hDone : charged.pending.entries = [] := by decide +kernel
      obtain rfl := BidOutcome.buyout.inj (hSold.symm.trans hCheck)
      have hRetrieved : Event.depositNotRetrieved 1 ∉ charged.history := by decide +kernel
      exact ⟨fun ⟨_, hList, _⟩ => List.not_mem_nil (hDone ▸ hList), Or.inr hRetrieved⟩
  exact ⟨hCharged, run_secured _ _ _ hCharged⟩

/-- The sword is bought out while its auction is pending. -/
theorem pending_sale_refunds :
    ¬ Along (next (percentWorld 5)) (Secured (percentWorld 5)) (State.initial (purse 20000 (by decide)))
      [.sellItem (swordSale 5), .placeBid (swordBuyout 5)] := by
  rintro ⟨-, ⟨s', hOperate, hSafe⟩, -⟩
  obtain rfl := Option.some.inj hOperate
  exact absurd (hSafe.refunds 1 1) (by decide +kernel)

end AshamaneCore.Auctions
