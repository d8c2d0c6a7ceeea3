import AshamaneCore.Game.TradeHandler
import AshamaneCore.Library.Since

/-!
# What is seen in the trade windows

A request other than an acceptance either leaves what both windows show as it
is, or takes the acceptances back. The operations that make an offered item
vanish or come back without a new count are the exception.
-/

namespace AshamaneCore.Trades

open Library Inventory

/-- What a window shows: the items by slot with their counts, and the gold. -/
structure Window where
  items : Fin tradeSlotTradedCount → Option (Nat × Nat)
  money : Nat

def Item.shown (item : Item) : Nat × Nat := (item.guid, item.count)

def windowOf (s : State) (data : Trader → TradeData) (t : Trader) : Window where
  items i := (offeredItems s data t i).map Item.shown
  money := (data t).money

def State.window (s : State) : Option (Trader → Window) := s.deal.map (windowOf s)

def State.Traded (s : State) (t : Trader) (guid : Nat) : Prop :=
  ∃ data i, s.deal = some data ∧ (data t).items (tradedSlot i) = some guid

variable {guid : Nat}

theorem State.Traded.offered {s : State} {t : Trader} (h : s.Traded t guid) :
    s.Offered t guid := by
  obtain ⟨data, i, hData, hItem⟩ := h
  exact ⟨data, tradedSlot i, hData, hItem⟩

def SameShown (inventory inventory' : Inventory) (guid : Nat) : Prop :=
  (inventory'.find? guid).map Item.shown = (inventory.find? guid).map Item.shown

def Removes (inventory : Inventory) (item : Item) (guid : Nat) : Prop :=
  guid = item.guid ∨ ∃ inner ∈ inventory.entries, inner.guid = guid ∧ inner.container = some item.guid

/-- The request makes the item vanish, or appear, without setting a count. -/
def Displaces (s : State) (t : Trader) (guid : Nat) : Request → Prop
  | .destroyItem u pos | .moveItemFromInventory u pos =>
    t = u ∧ ∃ item, getItemByPos (s.inventory u) pos = some item ∧ Removes (s.inventory u) item guid
  | .storeItem u pos item _ owned =>
    t = u ∧ owned = false ∧ getItemByPos (s.inventory u) pos = none ∧ guid = item.guid
  | .swapItem u src dst checks =>
    t = u ∧ src ≠ dst ∧ checks.refused = false ∧ ∃ source dest,
      getItemByPos (s.inventory u) src = some source ∧ getItemByPos (s.inventory u) dst = some dest ∧
      absorbs source dest checks = true ∧ Removes (s.inventory u) source guid
  | _ => False

def Undisturbed (s : State) (r : Request) : Prop :=
  (∃ u, s.Accepted u) → ∀ t guid, Displaces s t guid r → ¬ s.Traded t guid

/-! ## Settled changes -/

/-- A change that leaves nobody's acceptance behind, or both windows as they were. -/
def Settled (s s' : State) : Prop :=
  (∀ t, ¬ s'.Accepted t) ∨ (∀ t, s'.Accepted t → s.Accepted t) ∧ s'.window = s.window

theorem Settled.refl (s : State) : Settled s s := Or.inr ⟨fun _ h => h, rfl⟩

variable {s' : State}

theorem Settled.trans {s s'' : State} (h : Settled s s') (h' : Settled s' s'') : Settled s s'' := by
  rcases h' with hNone | ⟨hBack, hWindow⟩
  · exact Or.inl hNone
  · rcases h with hNone | ⟨hFirst, hSame⟩
    · exact Or.inl fun t hAccepted => hNone t (hBack t hAccepted)
    · exact Or.inr ⟨fun t hAccepted => hFirst t (hBack t hAccepted), hWindow.trans hSame⟩

theorem Settled.of_reset {s : State} (h : s' = s ∨ Reset s s') : Settled s s' := by
  rcases h with rfl | hReset
  · exact Settled.refl _
  · exact Or.inl hReset.unaccepted

theorem windowOf_congr {s : State} {data data' : Trader → TradeData}
    (hData : ∀ t, (data' t).items = (data t).items ∧ (data' t).money = (data t).money)
    (hShown : ∀ t i guid, (data t).items (tradedSlot i) = some guid →
      SameShown (s.inventory t) (s'.inventory t) guid) :
    windowOf s' data' = windowOf s data := by
  funext t
  obtain ⟨hItems, hMoney⟩ := hData t
  rw [windowOf, windowOf, hMoney, Window.mk.injEq]
  refine ⟨funext fun i => ?_, rfl⟩
  rw [offeredItems, offeredItems, getItem, getItem, hItems]
  cases hGuid : (data t).items (tradedSlot i) with
  | none => rfl
  | some guid => exact hShown t i guid hGuid

theorem window_congr {s : State} (hDeal : s'.deal = s.deal)
    (hShown : ∀ t guid, s.Traded t guid → SameShown (s.inventory t) (s'.inventory t) guid) :
    s'.window = s.window := by
  rw [State.window, State.window, hDeal]
  cases hData : s.deal with
  | none => rfl
  | some data =>
    rw [Option.map_some, Option.map_some]
    exact congrArg some (windowOf_congr (fun _ => ⟨rfl, rfl⟩)
      fun t i guid hItem => hShown t guid ⟨data, i, hData, hItem⟩)

theorem Settled.of_inventory {s : State} (hDeal : s'.deal = s.deal)
    (hShown : (∃ u, s.Accepted u) → ∀ t guid, s.Traded t guid →
      SameShown (s.inventory t) (s'.inventory t) guid) : Settled s s' := by
  have hBack : ∀ t, s'.Accepted t → s.Accepted t := by
    rintro t ⟨data, hData, hAccepted⟩
    exact ⟨data, hDeal ▸ hData, hAccepted⟩
  rcases Classical.em (∃ u, s.Accepted u) with hSome | hNone
  · exact Or.inr ⟨hBack, window_congr hDeal (hShown hSome)⟩
  · exact Or.inl fun t hAccepted => hNone ⟨t, hBack t hAccepted⟩

theorem window_alter {s : State} (t : Trader) {f : TradeData → TradeData}
    (hf : ∀ data, (f data).items = data.items ∧ (f data).money = data.money) : (s.alter t f).window = s.window := by
  rw [State.window, State.window, alter_deal, Option.map_map]
  cases s.deal with
  | none => rfl
  | some data =>
    rw [Option.map_some, Option.map_some, Function.comp_apply]
    refine congrArg some (windowOf_congr (fun u => ?_) fun _ _ _ _ => rfl)
    rcases eq_or_ne u t with rfl | hNe
    · rw [Function.update_self]
      exact hf _
    · rw [Function.update_of_ne hNe]
      exact ⟨rfl, rfl⟩

theorem Settled.alter (s : State) (t : Trader) {f : TradeData → TradeData}
    (hf : ∀ data, ((f data).accepted = true → data.accepted = true) ∧
      (f data).items = data.items ∧ (f data).money = data.money) : Settled s (s.alter t f) := by
  exact Or.inr ⟨fun u => accepted_alter fun data => (hf data).1, window_alter t fun data => (hf data).2⟩

theorem settled_setAccepted (s : State) (t : Trader) : Settled s (setAccepted s t false) := by
  apply Settled.alter
  exact fun _ => ⟨fun h => absurd h Bool.false_ne_true, rfl, rfl⟩

theorem settled_updateClientStateIndex (s : State) (t : Trader) :
    Settled s (updateClientStateIndex s t) := by
  apply Settled.alter
  exact fun _ => ⟨fun h => h, rfl, rfl⟩

/-! ## Inventories -/

theorem setInventory_inventory (s : State) (t : Trader) (inventory : Inventory) :
    (s.setInventory t inventory).inventory = Function.update s.inventory t inventory := rfl

variable {inventory : Inventory}

theorem Settled.setInventory {s : State} {t : Trader}
    (h : (∃ u, s.Accepted u) → ∀ guid, s.Traded t guid → SameShown (s.inventory t) inventory guid) :
    Settled s (s.setInventory t inventory) := by
  refine Settled.of_inventory rfl fun hAccepted u guid hTraded => ?_
  rcases eq_or_ne u t with rfl | hNe
  · rw [setInventory_inventory, Function.update_self]
    exact h hAccepted guid hTraded
  · rw [setInventory_inventory, Function.update_of_ne hNe]
    rfl

theorem sameShown_without {item : Item}
    (h : ¬ Removes inventory item guid) : SameShown inventory (without inventory item.guid) guid := by
  have hFind : (without inventory item.guid).find? guid = inventory.find? guid := by
    ext a
    rw [KeyedSet.find?_eq_some_iff, KeyedSet.find?_eq_some_iff]
    constructor
    · rintro ⟨hMem, hGuid⟩
      exact ⟨(List.mem_filter.mp hMem).1, hGuid⟩
    · rintro ⟨hMem, rfl⟩
      refine ⟨List.mem_filter.mpr ⟨hMem, decide_eq_true ⟨fun hSame => ?_, fun hInside => ?_⟩⟩, rfl⟩
      · exact h (Or.inl hSame)
      · exact h (Or.inr ⟨a, hMem, rfl, hInside⟩)
  rw [SameShown, hFind]

theorem sameShown_withCount {other count : Nat} (h : other ≠ guid) :
    SameShown inventory (withCount inventory guid count) other := by
  rw [SameShown, withCount, KeyedSet.find?_alter_eq, if_neg h]

theorem sameShown_relocate (inventory : Inventory) (guid : Nat) (container : Option Nat) (slot other : Nat) :
    SameShown inventory (relocate inventory guid container slot) other := by
  rw [SameShown, relocate, KeyedSet.find?_alter_eq]
  split
  · rw [Option.map_map]
    rfl
  · rfl

theorem sameShown_moveContents (inventory : Inventory) (full empty other : Nat) :
    SameShown inventory (moveContents inventory full empty) other := by
  rw [SameShown, moveContents, KeyedSet.find?_map, Option.map_map]
  refine congrFun (congrArg _ (funext fun item => ?_)) _
  rw [Function.comp_apply]
  split <;> rfl

variable {rand32 : Nat → Nat} {s : State} {t : Trader}

theorem settled_refreshTrade (s : State) (t : Trader) (guid : Nat) :
    Settled s (refreshTrade rand32 s t guid) := by
  apply Settled.of_reset
  exact (refreshTrade_cases s t guid).imp And.left id

theorem settled_setCount (s : State) (t : Trader) (guid count : Nat) :
    Settled s (setCount rand32 s t guid count) := by
  rw [setCount]
  rcases @refreshTrade_cases rand32 (s.setInventory t (withCount (s.inventory t) guid count)) t guid
    with ⟨hSame, hOffered⟩ | hReset
  · rw [hSame]
    apply Settled.setInventory
    intro _ other hTraded
    apply sameShown_withCount
    rintro rfl
    exact hOffered hTraded.offered
  · exact Or.inl hReset.unaccepted

theorem settled_without {item : Item}
    (h : (∃ u, s.Accepted u) → ∀ guid, Removes (s.inventory t) item guid → ¬ s.Traded t guid) :
    Settled s (s.setInventory t (without (s.inventory t) item.guid)) := by
  apply Settled.setInventory
  exact fun hAccepted guid hTraded => sameShown_without fun hRemoved => h hAccepted guid hRemoved hTraded

theorem settled_replaceItem (s : State) (t : Trader) (guid : Nat) (container : Option Nat) (pos : Pos) :
    Settled s (replaceItem rand32 s t guid container pos) := by
  simp only [replaceItem]
  refine Settled.trans ?_ (Settled.setInventory fun _ other _ => sameShown_relocate ..)
  split
  · exact Settled.refl s
  · exact settled_refreshTrade s t guid

theorem settled_exchangeItems (s : State) (t : Trader) (src dst : Pos) (source dest : Item) :
    Settled s (exchangeItems rand32 s t src dst source dest) := by
  rw [exchangeItems]
  refine Settled.trans (Settled.trans ?_ (settled_replaceItem ..)) (settled_replaceItem ..)
  rw [exchangeContents]
  split
  · exact Settled.refl s
  · exact Settled.setInventory fun _ other _ => sameShown_moveContents ..

theorem settled_fillItem (s : State) (t : Trader) (source dest : Item) :
    Settled s (fillItem rand32 s t source dest) := by
  rw [fillItem]
  exact (settled_setCount ..).trans (settled_setCount ..)

end AshamaneCore.Trades

/-!
## The agreement of two traders

What an exchange hands over is what both windows showed when the other side
accepted, and they have shown nothing else since, in every run in which no
traded item is displaced behind an acceptance.
-/

namespace AshamaneCore.Trades

open Library Library.Transition Inventory Players

variable {rand32 : Nat → Nat} {moveItems : Trader → (Trader → Fin tradeSlotTradedCount → Option Item) →
  (Trader → Inventory) → Trader → Inventory}
variable {s : State} {t : Trader}

/-! ## Requests other than an acceptance -/

theorem settled_setTradeItem (s : State) (t : Trader) (tradeSlot : Nat) (pos : Pos) (checks : ItemChecks) :
    Settled s (handleSetTradeItem rand32 s t tradeSlot pos checks) := by
  rw [handleSetTradeItem]
  have hIndex := settled_updateClientStateIndex s t
  split
  · exact Settled.refl s
  · split
    · split
      · exact Settled.refl s
      · split
        · exact Settled.refl s
        · split
          · exact Settled.refl s
          · rw [offerItem]
            split
            · exact hIndex
            · exact hIndex.trans (Settled.of_reset (setItem_cases ..))
    · exact Settled.refl s

theorem settled_clearTradeItem (s : State) (t : Trader) (tradeSlot : Nat) :
    Settled s (handleClearTradeItem rand32 s t tradeSlot) := by
  rw [handleClearTradeItem]
  have hIndex := settled_updateClientStateIndex s t
  split
  · exact hIndex.trans (Settled.of_reset (setItem_cases ..))
  · exact hIndex

theorem settled_initiateTrade (s : State) (allowed : Bool) : Settled s (handleInitiateTrade s allowed) := by
  rw [handleInitiateTrade]
  split
  · exact Settled.refl s
  · split
    · refine Or.inl fun t hAccepted => ?_
      obtain ⟨data, hData, hTrue⟩ := hAccepted
      obtain rfl := Option.some.inj hData
      exact Bool.false_ne_true hTrue
    · exact Settled.refl s

theorem not_accepted_of_closed (h : s.deal = none) (t : Trader) : ¬ s.Accepted t := by
  rintro ⟨data, hData, -⟩
  rw [h] at hData
  cases hData

variable {pos : Pos}

theorem settled_storeItem {item : Item} {count : Nat} {owned : Bool}
    (h : Undisturbed s (.storeItem t pos item count owned)) :
    Settled s (storeItem rand32 s t pos item count owned) := by
  rw [storeItem]
  split
  · rename_i hEmpty
    simp only [storeInEmptySlot]
    have hAssign : ∀ s', s' = s ∨ Reset s s' → ((∃ u, s'.Accepted u) → ¬ s'.Traded t item.guid) →
        Settled s (s'.setInventory t ((s'.inventory t).assign
          { item with container := containerOf (s.inventory t) pos, slot := pos.slot, count })) := by
      intro s' hBefore hUntraded
      refine (Settled.of_reset hBefore).trans (Settled.setInventory fun hAccepted guid hTraded => ?_)
      rw [SameShown, KeyedSet.find?_assign_eq, if_neg]
      rintro rfl
      exact hUntraded hAccepted hTraded
    cases owned with
    | false =>
      apply hAssign s (Or.inl rfl)
      exact fun hAccepted => h hAccepted t item.guid ⟨rfl, rfl, hEmpty, rfl⟩
    | true =>
      rw [if_pos rfl]
      rcases @refreshTrade_cases rand32 s t item.guid with ⟨hSame, hOffered⟩ | hReset
      · rw [hSame]
        exact hAssign s (Or.inl rfl) fun _ hTraded => hOffered hTraded.offered
      · apply hAssign _ (Or.inr hReset)
        rintro ⟨u, hAccepted⟩
        exact absurd hAccepted (hReset.unaccepted u)
  · exact settled_setCount ..

theorem settled_swapItem {src dst : Pos} {checks : SwapChecks}
    (h : Undisturbed s (.swapItem t src dst checks)) : Settled s (swapItem rand32 s t src dst checks) := by
  rw [swapItem]
  split
  · exact Settled.refl s
  · rename_i hAllowed
    obtain ⟨hNe, hRefused⟩ := not_or.mp hAllowed
    split
    · exact Settled.refl s
    · rename_i source hSource
      split
      · split
        · exact settled_replaceItem ..
        · exact Settled.refl s
      · rename_i dest hDest
        rw [swapOccupied]
        split
        · rename_i hAbsorbs
          refine Settled.trans (settled_without fun hAccepted guid hRemoved => ?_) (settled_setCount ..)
          exact h hAccepted t guid ⟨rfl, hNe, eq_false_of_ne_true hRefused, source, dest, hSource, hDest,
            hAbsorbs, hRemoved⟩
        · split
          · exact settled_fillItem ..
          · split
            · exact settled_exchangeItems ..
            · exact Settled.refl s

theorem settled_destroyItem (h : Undisturbed s (.destroyItem t pos)) :
    Settled s (destroyItem s t pos) := by
  rw [destroyItem]
  split
  · exact Settled.refl s
  · rename_i item hItem
    exact settled_without fun hAccepted guid hRemoved => h hAccepted t guid ⟨rfl, item, hItem, hRemoved⟩

theorem settled_moveItemFromInventory (h : Undisturbed s (.moveItemFromInventory t pos)) :
    Settled s (moveItemFromInventory s t pos) := by
  rw [moveItemFromInventory]
  split
  · exact Settled.refl s
  · rename_i item hItem
    exact settled_without fun hAccepted guid hRemoved => h hAccepted t guid ⟨rfl, item, hItem, hRemoved⟩

theorem settled_modifyMoney (s : State) (money : Trader → Nat) : Settled s { s with money } :=
  Or.inr ⟨fun _ hAccepted => hAccepted, rfl⟩

/-! ## Acceptances -/

variable {u : Trader}

theorem accepted_of_setAccepted (hNe : u ≠ t) (h : (setAccepted s t true).Accepted u) :
    s.Accepted u := by
  obtain ⟨data, hData, hAccepted⟩ := h
  obtain ⟨old, hOld, rfl⟩ := Option.map_eq_some_iff.mp hData
  rw [Function.update_of_ne hNe] at hAccepted
  exact ⟨old, hOld, hAccepted⟩

theorem window_setAccepted (s : State) (t : Trader) (accepted : Bool) :
    (setAccepted s t accepted).window = s.window :=
  window_alter t fun _ => ⟨rfl, rfl⟩

theorem settled_completeTrade (s : State) (data : Trader → TradeData) (t : Trader) (checks : AcceptChecks) :
    Settled s (completeTrade rand32 moveItems s data t checks).1 := by
  rw [completeTrade]
  split
  · exact Settled.of_reset (setSpell_cases ..)
  · split
    · exact Settled.of_reset (setSpell_cases ..)
    · split
      · exact Settled.of_reset (Or.inr (reset_bothUnaccepted s t))
      · exact Or.inl (not_accepted_of_closed rfl)

theorem checkTrade_cases (s : State) (data : Trader → TradeData) (t : Trader) (stateIndex : Nat)
    (checks : AcceptChecks) :
    (checkTrade rand32 moveItems s data t stateIndex checks).1 = setAccepted s t false ∨
      (data t.other).serverStateIndex = stateIndex ∧
        Settled s (checkTrade rand32 moveItems s data t stateIndex checks).1 := by
  rw [checkTrade]
  split
  · exact Or.inl rfl
  · rename_i hPassed
    refine Or.inr ⟨Classical.not_not.mp (not_or.mp hPassed).1, ?_⟩
    split
    · exact settled_setAccepted s t.other
    · split
      · exact settled_setAccepted s t
      · split
        · exact settled_setAccepted s t.other
        · split
          · exact Settled.refl s
          · split
            · exact Settled.refl s
            · exact settled_completeTrade s data t checks

/-- The trader accepts under the state index that the other window has. -/
def Accepts (t : Trader) (s : State) (r : Request) : Prop :=
  ∃ stateIndex checks data, r = .acceptTrade t stateIndex checks ∧ s.deal = some data ∧
    (data t.other).serverStateIndex = stateIndex

variable {checks : AcceptChecks} {stateIndex : Nat}

theorem acceptTrade_flag (h : (handleAcceptTrade rand32 moveItems s t stateIndex checks).1.Accepted u) :
    Accepts u s (.acceptTrade t stateIndex checks) ∨
      s.Accepted u ∧ (handleAcceptTrade rand32 moveItems s t stateIndex checks).1.window = s.window := by
  rw [handleAcceptTrade] at h ⊢
  cases hDeal : s.deal with
  | none =>
    rw [hDeal] at h
    exact absurd h (not_accepted_of_closed hDeal u)
  | some data =>
    rw [hDeal] at h
    simp only at h ⊢
    rcases @checkTrade_cases rand32 moveItems (setAccepted s t true) data t
      stateIndex checks with hRefused | ⟨hIndex, hSettled⟩
    · rw [hRefused] at h ⊢
      refine Or.inr ⟨?_, by rw [window_setAccepted, window_setAccepted]⟩
      rcases eq_or_ne u t with rfl | hNe
      · exact absurd h (not_accepted_setAccepted (Or.inl rfl))
      · exact accepted_of_setAccepted hNe (accepted_alter (fun _ hFalse => by cases hFalse) h)
    · rcases eq_or_ne u t with rfl | hNe
      · exact Or.inl ⟨stateIndex, checks, data, rfl, hDeal, hIndex⟩
      · rcases hSettled with hNone | ⟨hBack, hWindow⟩
        · exact absurd h (hNone u)
        · exact Or.inr ⟨accepted_of_setAccepted hNe (hBack u h), hWindow.trans (window_setAccepted ..)⟩

theorem step_flag {r : Request} (hCond : Undisturbed s r) (h : (step rand32 moveItems s r).Accepted t) :
    Accepts t s r ∨ s.Accepted t ∧ (step rand32 moveItems s r).window = s.window := by
  have hOther : Settled s (step rand32 moveItems s r) →
      Accepts t s r ∨ s.Accepted t ∧ (step rand32 moveItems s r).window = s.window := by
    rintro (hNone | ⟨hBack, hWindow⟩)
    · exact absurd h (hNone t)
    · exact Or.inr ⟨hBack t h, hWindow⟩
  cases r with
  | initiateTrade allowed => exact hOther (settled_initiateTrade s allowed)
  | cancelTrade => exact hOther (Or.inl (not_accepted_of_closed rfl))
  | setTradeGold u coinage =>
    exact hOther ((settled_updateClientStateIndex s u).trans (Settled.of_reset (setMoney_cases ..)))
  | setTradeItem u tradeSlot pos checks => exact hOther (settled_setTradeItem ..)
  | clearTradeItem u tradeSlot => exact hOther (settled_clearTradeItem ..)
  | setSpell u spell castItem => exact hOther (Settled.of_reset (setSpell_cases ..))
  | acceptTrade u stateIndex checks => exact acceptTrade_flag h
  | unacceptTrade u => exact hOther (settled_setAccepted s u)
  | setCount u guid count => exact hOther (settled_setCount ..)
  | destroyItem u pos => exact hOther (settled_destroyItem hCond)
  | moveItemFromInventory u pos => exact hOther (settled_moveItemFromInventory hCond)
  | storeItem u pos item count owned => exact hOther (settled_storeItem hCond)
  | swapItem u src dst checks => exact hOther (settled_swapItem hCond)
  | modifyMoney u amount => exact hOther (settled_modifyMoney s _)

/-! ## Exchanges -/

/-- What has been checked when an exchange is performed, and what it hands over. -/
structure Exchanged (s : State) (t : Trader) (stateIndex : Nat) (given : Exchange) (after : State)
    (data : Trader → TradeData) : Prop where
  deal : s.deal = some data
  informed : (data t.other).serverStateIndex = stateIndex
  accepted : (data t.other).accepted = true
  items : given.items = offeredItems s data
  gold : given.money = fun u => (data u).money
  covered : ∀ u, (data u).money ≤ s.money u
  fits : ∀ u, fitsLimit (s.money u) (data u.other).money = true
  paid : after.money = fun u => moneyAfter (s.money u) (data u).money (data u.other).money

theorem exchange_money (s : State) (data : Trader → TradeData) {t : Trader} {accepted : Bool} :
    (exchange moveItems (setAccepted s t accepted) data u).1.money =
      fun u => moneyAfter (s.money u) (data u).money (data u.other).money := by
  rw [exchange, setAccepted, alter_money]

variable {data : Trader → TradeData} {given : Exchange}

theorem completeTrade_exchange (h : (completeTrade rand32 moveItems s data t checks).2 = some given) :
    completeTrade rand32 moveItems s data t checks = exchange moveItems s data t := by
  rw [completeTrade] at h ⊢
  split at h
  · cases h
  · rename_i hMine
    rw [if_neg hMine]
    split at h
    · cases h
    · rename_i hHis
      rw [if_neg hHis]
      split at h
      · cases h
      · rename_i hStored
        rw [if_neg hStored]

theorem forall_trader {P : Trader → Prop} (hMine : P t) (hHis : P t.other) (u : Trader) : P u := by
  rcases t.eq_or_eq_other u with rfl | rfl
  · exact hMine
  · exact hHis

theorem checkTrade_exchange (hDeal : s.deal = some data)
    (h : (checkTrade rand32 moveItems (setAccepted s t true) data t stateIndex checks).2 = some given) :
    Exchanged s t stateIndex given
      (checkTrade rand32 moveItems (setAccepted s t true) data t stateIndex checks).1 data := by
  rw [checkTrade] at h ⊢
  split at h
  · cases h
  · rename_i hFirst
    rw [if_neg hFirst]
    obtain ⟨hIndex, hRest⟩ := not_or.mp hFirst
    obtain ⟨-, hMine⟩ := not_or.mp hRest
    split at h
    · cases h
    · rename_i hHis
      rw [if_neg hHis]
      split at h
      · cases h
      · rename_i hFits
        rw [if_neg hFits]
        split at h
        · cases h
        · rename_i hFitsHis
          rw [if_neg hFitsHis]
          split at h
          · cases h
          · rename_i hTradable
            rw [if_neg hTradable]
            split at h
            · cases h
            · rename_i hAccepted
              rw [if_neg hAccepted]
              have hPerformed := completeTrade_exchange h
              rw [hPerformed] at h ⊢
              obtain rfl := Option.some.inj h
              exact {
                deal := hDeal
                informed := Classical.not_not.mp hIndex
                accepted := eq_true_of_ne_false hAccepted
                items := rfl
                gold := rfl
                covered := forall_trader (of_decide_eq_true (eq_true_of_ne_false hMine))
                  (of_decide_eq_true (eq_true_of_ne_false hHis))
                fits := forall_trader (eq_true_of_ne_false hFits)
                  (by rw [Trader.other_other]; exact eq_true_of_ne_false hFitsHis)
                paid := exchange_money s data }

theorem acceptTrade_exchange (h : (handleAcceptTrade rand32 moveItems s t stateIndex checks).2 = some given) :
    ∃ data, Exchanged s t stateIndex given
      (handleAcceptTrade rand32 moveItems s t stateIndex checks).1 data := by
  rw [handleAcceptTrade] at h ⊢
  cases hDeal : s.deal with
  | none =>
    rw [hDeal] at h
    cases h
  | some data =>
    rw [hDeal] at h
    exact ⟨data, checkTrade_exchange hDeal h⟩

theorem moneyAfter_eq {money given received : Nat} (hMoney : money ≤ maxMoneyAmount)
    (hGiven : given ≤ money) (hReceived : received ≤ maxMoneyAmount)
    (hFits : fitsLimit money received = true) : moneyAfter money given received = money - given + received := by
  have hRoom : money + received ≤ maxMoneyAmount := by
    rw [fitsLimit, decide_eq_true_iff, Int.toNat_natCast] at hFits
    rw [maxMoneyAmount] at hReceived hFits ⊢
    omega
  have hSmall : maxMoneyAmount < 2 ^ 63 := by decide
  rw [moneyAfter, asInt64_of_lt ((hGiven.trans hMoney).trans_lt hSmall),
    asInt64_of_lt (hReceived.trans_lt hSmall), modifyMoney_charge hGiven, modifyMoney_pay]
  exact (Nat.add_le_add_right (Nat.sub_le ..) _).trans hRoom

/-! ## The agreement -/

/-- What the exchange hands over is what both windows show, and have shown since the other
side accepted; each side has named the state of the window it accepted. -/
structure Agreed (rand32 : Nat → Nat) (moveItems : Trader → (Trader → Fin tradeSlotTradedCount → Option Item) →
    (Trader → Inventory) → Trader → Inventory) (s : State) (earlier : List Request) (t : Trader)
    (last : Request) (given : Exchange) : Prop where
  shown : (run (step rand32 moveItems) s earlier).window =
    some fun u => ⟨fun i => (given.items u i).map Item.shown, given.money u⟩
  since : UnchangedSince (step rand32 moveItems) (Accepts t.other) State.window s earlier
  informed : Accepts t (run (step rand32 moveItems) s earlier) last
  gold : (∀ u, (run (step rand32 moveItems) s earlier).money u ≤ maxMoneyAmount) →
    ∀ u, (step rand32 moveItems (run (step rand32 moveItems) s earlier) last).money u =
      (run (step rand32 moveItems) s earlier).money u - given.money u + given.money u.other

def Agreement (rand32 : Nat → Nat) (moveItems : Trader → (Trader → Fin tradeSlotTradedCount → Option Item) →
    (Trader → Inventory) → Trader → Inventory) (s : State) (requests : List Request) : Prop :=
  ∀ earlier t stateIndex checks given,
    earlier ++ [.acceptTrade t stateIndex checks] <+: requests →
    (handle rand32 moveItems (run (step rand32 moveItems) s earlier) (.acceptTrade t stateIndex checks)).2 =
      some given →
    Agreed rand32 moveItems s earlier t (.acceptTrade t stateIndex checks) given

theorem Exchanged.window {after : State}
    (h : Exchanged s t stateIndex given after data) :
    s.window = some fun u => ⟨fun i => (given.items u i).map Item.shown, given.money u⟩ := by
  rw [State.window, h.deal, h.items, h.gold]
  rfl

theorem Exchanged.money {after : State}
    (h : Exchanged s t stateIndex given after data) (hLimit : ∀ u, s.money u ≤ maxMoneyAmount) (u : Trader) :
    after.money u = s.money u - given.money u + given.money u.other := by
  have hHis := (h.covered u.other).trans (hLimit u.other)
  rw [h.paid, h.gold]
  exact moneyAfter_eq (hLimit u) (h.covered u) hHis (h.fits u)

section

/-- A stack of cloth in the first slot of the backpack, the only item of the two players. -/
def cloth : Item := ⟨5, none, 23, 20, 20, false⟩

def clothOwner : State where
  inventory := Function.update (fun _ => KeyedSet.empty) .initiator (KeyedSet.empty.emplace cloth)
  money _ := 100
  deal := none
  draws := 0

def drawn (n : Nat) : Nat := n + 2

def storeFirst (_ : Trader) (items : Trader → Fin tradeSlotTradedCount → Option Item)
    (inventory : Trader → Inventory) (t : Trader) : Inventory :=
  ((items t.other 0).map fun item => (inventory t).assign { item with container := none, slot := 23 }).getD
    (inventory t)

def allPass : AcceptChecks := ⟨true, fun _ => true, fun _ => false, fun _ => true, fun _ => true⟩

def clothAccepted : List Request :=
  [.initiateTrade true, .setTradeItem .initiator 0 ⟨none, 23⟩ ⟨true, false⟩,
    .acceptTrade .target 2 allPass]

def firstShown (s : State) : Option (Option (Nat × Nat)) := s.window.map fun shown => (shown .initiator).items 0

/-- The stack is accepted and then destroyed: the exchange hands over nothing for the gold. -/
theorem destroyed_item_exchanged :
    (handle drawn storeFirst
      (run (step drawn storeFirst) clothOwner (clothAccepted ++ [.destroyItem .initiator ⟨none, 23⟩]))
      (.acceptTrade .initiator 1 allPass)).2.isSome = true ∧
    ¬ Agreement drawn storeFirst clothOwner (clothAccepted ++
      [.destroyItem .initiator ⟨none, 23⟩, .acceptTrade .initiator 1 allPass]) := by
  have hExchanged : (handle drawn storeFirst
      (run (step drawn storeFirst) clothOwner (clothAccepted ++ [.destroyItem .initiator ⟨none, 23⟩]))
      (.acceptTrade .initiator 1 allPass)).2.isSome = true := by decide
  refine ⟨hExchanged, fun hAgreement => ?_⟩
  obtain ⟨given, hGiven⟩ := Option.isSome_iff_exists.mp hExchanged
  obtain ⟨early, r, late, hSplit, hAccepts, hSame⟩ :=
    (hAgreement _ _ _ _ given (List.prefix_refl _) hGiven).since
  obtain ⟨stateIndex, checks, data, rfl, -, -⟩ := hAccepts
  have hFirst := congrArg (Option.map fun shown => (shown Trader.initiator).items 0)
    (hSame [] List.nil_prefix)
  rcases early with _ | ⟨_, _ | ⟨_, _ | ⟨_, _ | ⟨_, early⟩⟩⟩⟩
  · cases hSplit
  · cases hSplit
  · cases hSplit
    have hDiffer : firstShown (run (step drawn storeFirst) clothOwner clothAccepted) ≠
        firstShown (run (step drawn storeFirst) clothOwner
          (clothAccepted ++ [.destroyItem .initiator ⟨none, 23⟩])) := by decide
    exact hDiffer hFirst
  · cases hSplit
  · cases early <;> cases hSplit

end

/-- Traders who agree while no traded item is displaced get what they saw. -/
theorem exchange_agreed {requests : List Request} (hClosed : s.deal = none)
    (h : Along (step rand32 moveItems) Undisturbed s requests) :
    Agreement rand32 moveItems s requests := by
  intro earlier t stateIndex checks given hPrefix hGiven
  obtain ⟨data, hExchanged⟩ := acceptTrade_exchange hGiven
  have hEarlier : Along (step rand32 moveItems) Undisturbed s earlier :=
    h.of_prefix ((List.prefix_append earlier _).trans hPrefix)
  have hAccepted : (run (step rand32 moveItems) s earlier).Accepted t.other :=
    ⟨data, hExchanged.deal, hExchanged.accepted⟩
  exact {
    shown := hExchanged.window
    since := unchangedSince_of_flag (fun _ _ hCond hFlag => step_flag hCond hFlag)
      (not_accepted_of_closed hClosed t.other) hEarlier hAccepted
    informed := ⟨stateIndex, checks, data, rfl, hExchanged.deal, hExchanged.informed⟩
    gold := hExchanged.money }

theorem cloth_agreed : (handle drawn storeFirst (run (step drawn storeFirst) clothOwner clothAccepted)
      (.acceptTrade .initiator 1 allPass)).2.isSome = true ∧
    Agreement drawn storeFirst clothOwner (clothAccepted ++ [.acceptTrade .initiator 1 allPass]) := by
  refine ⟨by decide, exchange_agreed rfl ⟨?_, ?_, ?_, ?_, trivial⟩⟩
  all_goals exact fun _ _ _ hDisplaced => hDisplaced.elim

end AshamaneCore.Trades
