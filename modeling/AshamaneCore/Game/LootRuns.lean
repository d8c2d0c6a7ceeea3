import AshamaneCore.Game.LootGeneration
import AshamaneCore.Library.Transition

/-!
# Runs of looting

A loot is filled for one player after the other, and then any requests come in.
While every request is granted only what is left for its player, nothing is
handed out twice, and the counter stays as far from the truth as the fill left
it.
-/

namespace AshamaneCore.Looting

open Library Library.Transition

section

variable (C : Loot → StoreRequest → Prop) (w : World) (group : Option LootGroup)

/-- A condition on the requests that are made for a player when his entries are filled. -/
def AutoStores (loot : Loot) (m : Member) : Prop :=
  Along (autoStore m w) (fun l slot => storesToken l m w slot = true → C l (autoRequest m slot))
    (fillEntries loot m group) (autoSlots group loot m)

def Requests (loot : Loot) : Operation → Prop
  | .store request => C loot request
  | .block _ _ => True

structure Keeps (K : Loot → Prop) : Prop where
  entitled : ∀ loot request, C loot request → Entitled loot request
  grows : ∀ loot next, Grows loot next → K loot → K next
  grant : ∀ loot request found excess, Filed loot → Ticketed loot excess → C loot request →
    checkStore loot request = some found → K loot → K (grant loot request.player found)

end

variable {C : Loot → StoreRequest → Prop} {K : Loot → Prop} {w : World} {group : Option LootGroup} {loot : Loot}
  {excess : Nat}

variable {request : StoreRequest}

theorem Keeps.store (hKeeps : Keeps C K) (h : Filed loot) (hTickets : Ticketed loot excess)
    (hC : C loot request) (hK : K loot) : K (storeLootItem loot request) := by
  rw [storeLootItem]
  cases hCheck : checkStore loot request with
  | none => exact hK
  | some found => exact hKeeps.grant loot request found excess h hTickets hC hCheck hK

/-! ## Fills -/

/-- What holds between two visits: the rest of the players are unvisited. -/
structure Midway (K : Loot → Prop) (rest : List Nat) (excess : Nat) (loot : Loot) : Prop where
  filling : Filling loot
  ticketed : Ticketed loot excess
  unvisited : ∀ guid ∈ rest, Unvisited loot guid
  keeps : K loot

theorem storeLootItem_filling (h : Filling loot) (request : StoreRequest) : Filling (storeLootItem loot request) := by
  rw [storeLootItem]
  split
  · exact h
  · exact h.grant _ _

theorem storeLootItem_unvisited {guid : Nat} (h : Unvisited loot guid) (request : StoreRequest) :
    Unvisited (storeLootItem loot request) guid := by
  rw [storeLootItem]
  split
  · exact h
  · exact h.grant _ _

variable {m : Member}

theorem autoStore_midway (hKeeps : Keeps C K) {rest : List Nat} {slot : Nat}
    (h : Midway K rest excess loot) (hC : storesToken loot m w slot = true → C loot (autoRequest m slot)) :
    Midway K rest excess (autoStore m w loot slot) := by
  rw [autoStore]
  split
  · rename_i hToken
    have hRequest := hC hToken
    have hStored := storeLootItem_ticketed h.filling.filed h.ticketed (hKeeps.entitled loot _ hRequest)
    exact ⟨storeLootItem_filling h.filling _, hStored.2,
      fun guid hRest => storeLootItem_unvisited (h.unvisited guid hRest) _,
      hKeeps.store h.filling.filed h.ticketed hRequest h.keeps⟩
  · exact h

theorem visit_midway (hKeeps : Keeps C K) {rest : List Nat} (hNew : m.guid ∉ rest)
    (h : Midway K (m.guid :: rest) excess loot) (hC : AutoStores C w group loot m) :
    ∃ more, Midway K rest (excess + more) (fillNotNormalLootFor w group loot m) ∧
      (more = 0 ↔ CountedOnce group loot m) := by
  obtain ⟨hFilling, ⟨more, hTicketed, hZero⟩, hOthers, hGrows⟩ :=
    fillEntries_filling group h.filling h.ticketed (h.unvisited m.guid List.mem_cons_self)
  have hFilled : Midway K rest (excess + more) (fillEntries loot m group) :=
    ⟨hFilling, hTicketed, fun guid hRest => hOthers guid (fun hEq => hNew (hEq ▸ hRest))
      (h.unvisited guid (List.mem_cons_of_mem _ hRest)), hKeeps.grows _ _ hGrows h.keeps⟩
  exact ⟨more, invariant_along (fun _ _ hMid hRequest => autoStore_midway hKeeps hMid hRequest) hFilled hC, hZero⟩

theorem visits_midway (hKeeps : Keeps C K) (members : List Member) (hDistinct : (members.map Member.guid).Nodup)
    (h : Midway K (members.map Member.guid) excess loot)
    (hC : Along (fillNotNormalLootFor w group) (AutoStores C w group) loot members) :
    ∃ more, Midway K [] (excess + more) (run (fillNotNormalLootFor w group) loot members) ∧
      (more = 0 ↔ Along (fillNotNormalLootFor w group) (CountedOnce group) loot members) := by
  induction members generalizing loot excess with
  | nil => exact ⟨0, h, iff_of_true rfl trivial⟩
  | cons m members ih =>
    obtain ⟨hNew, hRest⟩ := List.nodup_cons.mp hDistinct
    obtain ⟨first, hVisited, hFirst⟩ := visit_midway hKeeps hNew h hC.1
    obtain ⟨more, hAll, hMore⟩ := ih hRest hVisited hC.2
    refine ⟨first + more, ?_, ?_⟩
    · rw [← Nat.add_assoc]
      exact hAll
    · rw [Nat.add_eq_zero_iff, hFirst, hMore]
      exact Iff.rfl

theorem fillAll_eq {members : List Member} {filled : Loot} (h : fillAll w group loot members = some filled) :
    filled = run (fillNotNormalLootFor w group) loot members := by
  induction members generalizing loot with
  | nil => exact (Option.some.inj h).symm
  | cons m members ih =>
    rw [fillAll, List.foldlM_cons] at h
    obtain ⟨next, hNext, hRest⟩ := Option.bind_eq_some_iff.mp h
    split at hNext
    · obtain rfl := Option.some.inj hNext
      exact ih hRest
    · cases hNext

/-! ## Flags -/

variable {f : Nat → LootItem → LootItem}

theorem Filed.mapItems (h : Filed loot) (quest : Bool)
    (hStatic : ∀ i item, (f i item).static = item.static) : Filed (loot.mapItems quest f) := by
  refine h.congr (loot.static?_mapItems quest hStatic) (fun kind p i => ?_) fun kind p => ?_
  · rw [Loot.ListedFor, Loot.entries_mapItems]
    exact Iff.rfl
  · rw [Loot.entries_mapItems]
    exact h.order kind p

theorem Ticketed.mapItems (h : Ticketed loot excess) (quest : Bool)
    (hStatic : ∀ i item, (f i item).static = item.static) (hLooted : ∀ i item, (f i item).isLooted = item.isLooted) :
    Ticketed (loot.mapItems quest f) excess := by
  have hListed : ∀ kind p i, (loot.mapItems quest f).ListedFor kind p i ↔ loot.ListedFor kind p i := fun kind p i => by
    rw [Loot.ListedFor, Loot.entries_mapItems]
    exact Iff.rfl
  have hLeft : ∀ kind p i, (loot.mapItems quest f).LeftFor kind p i ↔ loot.LeftFor kind p i := fun kind p i => by
    rw [Loot.LeftFor, Loot.entries_mapItems]
    exact Iff.rfl
  have hFlag : ∀ q i, (loot.mapItems quest f).Looted q i ↔ loot.Looted q i :=
    exists_mapItems loot quest fun i item => by rw [hLooted]
  have hCount : (loot.mapItems quest f).unlootedCount = loot.unlootedCount := by
    rw [Loot.mapItems]
    split <;> rfl
  rw [Ticketed, Loot.offered_congr (loot.static?_mapItems quest hStatic) hListed,
    Loot.left_congr (loot.static?_mapItems quest hStatic) hFlag hListed hLeft, history_mapItems, hCount]
  exact h

theorem grows_mapItems (loot : Loot) (quest : Bool) (f : Nat → LootItem → LootItem) :
    Grows loot (loot.mapItems quest f) := by
  refine ⟨fun kind p i hListed => ?_, history_mapItems ..⟩
  rw [Loot.ListedFor, Loot.entries_mapItems]
  exact hListed

/-! ## Filled loot -/

structure Filled (K : Loot → Prop) (excess : Nat) (loot : Loot) : Prop where
  filed : Filed loot
  ticketed : Ticketed loot excess
  keeps : K loot

theorem Filled.mapItems (hKeeps : Keeps C K) (h : Filled K excess loot) (quest : Bool)
    (hStatic : ∀ i item, (f i item).static = item.static)
    (hLooted : ∀ i item, (f i item).isLooted = item.isLooted) : Filled K excess (loot.mapItems quest f) :=
  ⟨h.filed.mapItems quest hStatic, h.ticketed.mapItems quest hStatic hLooted,
    hKeeps.grows _ _ (grows_mapItems loot quest f) h.keeps⟩

theorem markThreshold_filled (hKeeps : Keeps C K) (h : Filled K excess loot) :
    Filled K excess (markThreshold w group loot) := by
  cases group with
  | none => exact h
  | some g =>
    refine h.mapItems hKeeps false (fun i item => ?_) fun i item => ?_
    · split <;> rfl
    · split <;> rfl

theorem looters_distinct (owner : Member) (personal : Bool) :
    ((looters group owner personal).map Member.guid).Nodup := by
  cases group with
  | none => exact List.nodup_singleton _
  | some g =>
    cases personal with
    | false => exact g.distinct
    | true => exact List.nodup_singleton _

theorem fillLoot_filled (hKeeps : Keeps C K) {gold : Nat} {content : List Drop} {owner : Member} {personal : Bool}
    (hStart : K (processed w group gold content owner personal))
    (hC : Along (fillNotNormalLootFor w group) (AutoStores C w group) (processed w group gold content owner personal)
      (looters group owner personal))
    (hFill : fillLoot w group gold content owner personal = some loot) :
    ∃ excess, Filled K excess loot ∧ (excess = 0 ↔ Along (fillNotNormalLootFor w group) (CountedOnce group)
      (processed w group gold content owner personal) (looters group owner personal)) := by
  have hGenerated := processed_generated w group gold content owner personal
  have hMidway : Midway K ((looters group owner personal).map Member.guid) 0
      (processed w group gold content owner personal) :=
    ⟨hGenerated.filling, hGenerated.ticketed, fun guid _ => hGenerated.unvisited guid, hStart⟩
  obtain ⟨more, hVisited, hZero⟩ := visits_midway hKeeps _ (looters_distinct owner personal) hMidway hC
  rw [Nat.zero_add] at hVisited
  obtain ⟨filled, hAll, rfl⟩ := Option.map_eq_some_iff.mp hFill
  obtain rfl := fillAll_eq hAll
  have hFilled : Filled K more (run (fillNotNormalLootFor w group)
      (processed w group gold content owner personal) (looters group owner personal)) :=
    ⟨hVisited.filling.filed, hVisited.ticketed, hVisited.keeps⟩
  refine ⟨more, ?_, hZero⟩
  split
  · exact hFilled
  · exact markThreshold_filled hKeeps hFilled

theorem next_filled (hKeeps : Keeps C K) (h : Filled K excess loot) {operation : Operation}
    (hC : Requests C loot operation) : Filled K excess (next loot operation) := by
  cases operation with
  | store request =>
    have hStored := storeLootItem_ticketed h.filed h.ticketed (hKeeps.entitled loot request hC)
    exact ⟨hStored.1, hStored.2, hKeeps.store h.filed h.ticketed hC h.keeps⟩
  | block quest index =>
    refine h.mapItems hKeeps quest (fun i item => ?_) fun i item => ?_
    · split <;> rfl
    · split <;> rfl

/-! ## Nothing is taken twice -/

/-- What a request is granted is left for its player, and it is no currency among the quest items. -/
def Proper (loot : Loot) (request : StoreRequest) : Prop :=
  ∀ found, checkStore loot request = some found →
    found.take request.player ∈ loot.left ∧ (found.quest = true → found.item.currency = false)

/-- Things for everybody went to players with an entry, currencies as currencies, and never while the
counter was at zero. -/
structure Handed (loot : Loot) : Prop where
  entry : ∀ h ∈ loot.history, h.item.personal h.quest = true → loot.ListedFor (h.item.kind h.quest) h.player h.index
  currency : ∀ h ∈ loot.history, h.item.currency = true → h.asCurrency = true
  counter : ∀ h ∈ loot.history, 0 < h.counter

/-- And no item was handed out twice, or twice to one player if everybody takes it for himself. -/
structure Fair (loot : Loot) : Prop extends Handed loot where
  once : (loot.history.map Handout.take).Nodup

theorem handed_grant {found : Found} (hTickets : Ticketed loot excess)
    (hC : Proper loot request) (hCheck : checkStore loot request = some found) (h : Handed loot) :
    Handed (grant loot request.player found) := by
  obtain ⟨hLeft, hQuest⟩ := hC found hCheck
  have hFound := checkStore_found hCheck
  have hMet := lootItemInSlot_met hFound
  have hHistory : ∀ handout, handout ∈ (grant loot request.player found).history → handout ∈ loot.history ∨
      handout = ⟨request.player, found.quest, found.index, found.item, found.asCurrency, loot.unlootedCount⟩ :=
    fun handout hMem => by
      rw [grant_history, List.mem_append, List.mem_singleton] at hMem
      exact hMem
  refine ⟨fun handout hMem hPersonal => ?_, fun handout hMem hCurrency => ?_, fun handout hMem => ?_⟩
  · rw [grant_listedFor]
    rcases hHistory handout hMem with hOld | rfl
    · exact h.entry handout hOld hPersonal
    · exact ((personal_mem_left hMet.item hPersonal request.player).mp hLeft).listed
  · rcases hHistory handout hMem with hOld | rfl
    · exact h.currency handout hOld hCurrency
    · have hItem : found.quest = false := by
        rw [← Bool.not_eq_true]
        exact fun hList => Bool.false_ne_true ((hQuest hList).symm.trans hCurrency)
      have hNot : found.item.currency = true := hCurrency
      have hPersonal : found.item.personal found.quest = true := by
        rw [LootItem.personal, hItem, hNot, Bool.not_false, Bool.true_and, Bool.or_true]
      rw [Found.asCurrency, hItem, hNot, entry_of_personal hFound hLeft hPersonal]
      rfl
  · rcases hHistory handout hMem with hOld | rfl
    · exact h.counter handout hOld
    · exact hTickets.counter_pos hLeft

theorem proper_keeps : Keeps Proper Handed where
  entitled _ _ hC found hCheck := (hC found hCheck).1
  grows _ _ hGrows h := by
    refine ⟨fun handout hMem hPersonal => ?_, ?_, ?_⟩
    · exact hGrows.listed _ _ _ (h.entry handout (hGrows.history ▸ hMem) hPersonal)
    · rw [hGrows.history]
      exact h.currency
    · rw [hGrows.history]
      exact h.counter
  grant _ _ _ _ _ hTickets hC hCheck h := handed_grant hTickets hC hCheck h

theorem Filled.fair (h : Filled Handed excess loot) : Fair loot := ⟨h.keeps, h.ticketed.nodup⟩

theorem Generated.handed (h : Generated loot) : Handed loot := by
  refine ⟨?_, ?_, ?_⟩ <;> rw [h.history] <;> exact fun _ hMem => (List.not_mem_nil hMem).elim

/-- While requests are granted only what is left, loot is handed out fairly. -/
theorem requests_fair (w : World) (group : Option LootGroup) (gold : Nat) (content : List Drop) (owner : Member)
    (personal : Bool) {loot : Loot} (hFill : fillLoot w group gold content owner personal = some loot)
    (hAuto : Along (fillNotNormalLootFor w group) (AutoStores Proper w group)
      (processed w group gold content owner personal) (looters group owner personal))
    (operations : List Operation) (hProper : Along next (Requests Proper) loot operations) :
    Fair loot ∧ Along next (fun l operation => Fair (next l operation)) loot operations := by
  have hStart := (processed_generated w group gold content owner personal).handed
  obtain ⟨excess, hFilled, -⟩ := fillLoot_filled proper_keeps hStart hAuto hFill
  refine ⟨hFilled.fair, Along.judge (I := Filled Handed excess) (fun l operation h hC => ?_) hFilled hProper⟩
  have hNext := next_filled proper_keeps h hC
  exact ⟨hNext.fair, hNext⟩

/-! ### Two looters -/

def swordWorld : World :=
  ⟨fun id => if id = 1 then some ⟨false, false, 1, false, 1, Nat.one_pos⟩ else none⟩

def looter (guid : Nat) : Member :=
  { guid := guid, allowed := fun _ => true, present := false, autoStore := fun _ => ⟨false, false, false⟩ }

theorem looters_one_two : ([looter 1, looter 2].map Member.guid).Nodup := by decide

def party (lootMethod : LootMethod) : LootGroup :=
  { lootMethod := lootMethod, masterLooterGuid := 0, lootThreshold := 2, members := [looter 1, looter 2],
    distinct := looters_one_two }

def sword (needsQuest : Bool) (conditions : List Nat) : Drop := ⟨⟨1, false, needsQuest, conditions⟩, 1, true⟩

def take (player : Nat) : Operation := .store ⟨player, 0, true, true⟩

def swordFill (lootMethod : LootMethod) (needsQuest : Bool) (conditions : List Nat) : Option Loot :=
  fillLoot swordWorld (some (party lootMethod)) 0 [sword needsQuest conditions] (looter 1) false

def swordLoot (lootMethod : LootMethod) (needsQuest : Bool) (conditions : List Nat) : Loot :=
  (swordFill lootMethod needsQuest conditions).getD (Loot.empty 0)

theorem swordFill_eq {lootMethod : LootMethod} {needsQuest : Bool} {conditions : List Nat}
    (h : (swordFill lootMethod needsQuest conditions).isSome = true) :
    swordFill lootMethod needsQuest conditions = some (swordLoot lootMethod needsQuest conditions) := by
  obtain ⟨loot, hFill⟩ := Option.isSome_iff_exists.mp h
  rw [swordLoot, hFill, Option.getD_some]

theorem sword_fair :
    Fair (swordLoot .freeForAll false []) ∧
      Along next (fun l operation => Fair (next l operation)) (swordLoot .freeForAll false []) [take 1] := by
  have hFill := swordFill_eq (show (swordFill .freeForAll false []).isSome = true by decide +kernel)
  refine requests_fair _ _ _ _ _ _ hFill ⟨trivial, trivial, trivial⟩ _ ⟨fun found hCheck => ?_, trivial⟩
  let item : LootItem := ⟨1, 1, [], false, false, false, false, [], false, false, true, false⟩
  have hItem : (swordLoot .freeForAll false []).item? false 0 = some item := by decide +kernel
  have hFound : checkStore (swordLoot .freeForAll false []) ⟨1, 0, true, true⟩ = some ⟨false, 0, item, none⟩ := by
    decide +kernel
  obtain rfl := Option.some.inj (hFound.symm.trans hCheck)
  exact ⟨(shared_mem_left hItem rfl 1).mpr ⟨rfl, Or.inl rfl⟩, fun hQuest => by cases hQuest⟩

/-- Two players who have entries of a conditional item both get it. -/
theorem conditional_item_twice :
    swordFill .freeForAll false [5] = some (swordLoot .freeForAll false [5]) ∧
      ¬ Along next (fun l operation => Fair (next l operation)) (swordLoot .freeForAll false [5]) [take 1, take 2] := by
  refine ⟨swordFill_eq (by decide +kernel), ?_⟩
  rintro ⟨-, hFair, -⟩
  exact absurd hFair.once (by decide +kernel)

/-! ## The counter is exact -/

/-- The counter is the number of takes that are left, and tells when the loot is empty. -/
structure Exact (loot : Loot) : Prop where
  counter : loot.unlootedCount = loot.left.ncard
  looted : loot.isLooted = true ↔ loot.gold = 0 ∧ loot.left = ∅

def ShownTo (loot : Loot) (request : StoreRequest) : Prop := Shown loot request.player request.slot

theorem entitled_keeps : Keeps Entitled fun _ => True where
  entitled _ _ hC := hC
  grows _ _ _ _ := trivial
  grant _ _ _ _ _ _ _ _ _ := trivial

theorem Filled.exact_iff (h : Filled K excess loot) : Exact loot ↔ excess = 0 := by
  have hCounts := h.ticketed.counts
  constructor
  · intro hExact
    have hCounter := hExact.counter
    omega
  · rintro rfl
    refine ⟨hCounts.symm, ?_⟩
    rw [h.ticketed.left_empty_iff, Loot.isLooted, Bool.and_eq_true, decide_eq_true_iff, decide_eq_true_iff]

theorem entitled_of_shown (h : Filed loot) (hShown : ShownTo loot request) :
    Entitled loot request := fun _ hCheck => left_of_shown h hShown (checkStore_found hCheck)

/-- The counter is exact under all requests for what is shown when it was exact at the fill. -/
theorem unlootedCount_exact_iff (w : World) (group : Option LootGroup) (gold : Nat) (content : List Drop)
    (owner : Member) (personal : Bool) {loot : Loot}
    (hFill : fillLoot w group gold content owner personal = some loot)
    (hAuto : Along (fillNotNormalLootFor w group) (AutoStores Entitled w group)
      (processed w group gold content owner personal) (looters group owner personal))
    (operations : List Operation) (hShown : Along next (Requests ShownTo) loot operations) :
    (Exact loot ∧ Along next (fun l operation => Exact (next l operation)) loot operations) ↔
      Along (fillNotNormalLootFor w group) (CountedOnce group) (processed w group gold content owner personal)
        (looters group owner personal) := by
  obtain ⟨excess, hFilled, hZero⟩ := fillLoot_filled entitled_keeps trivial hAuto hFill
  rw [← hZero]
  constructor
  · exact fun hExact => hFilled.exact_iff.mp hExact.1
  · intro hExcess
    refine ⟨hFilled.exact_iff.mpr hExcess, Along.judge (I := Filled (fun _ => True) excess)
      (fun l operation h hC => ?_) hFilled hShown⟩
    have hEntitled : Requests Entitled l operation := by
      cases operation with
      | store request => exact entitled_of_shown h.filed hC
      | block quest index => trivial
    have hNext := next_filled entitled_keeps h hEntitled
    exact ⟨hNext.exact_iff.mpr hExcess, hNext⟩

theorem countedOnce_nil {group : Option LootGroup} {loot : Loot}
    (hQuest : questSlots loot m group = []) (hConditional : conditionalSlots loot m = []) :
    CountedOnce group loot m := by
  refine ⟨fun i hSlot => ?_, fun i hSlot => ?_⟩
  · exact (List.not_mem_nil (hQuest ▸ hSlot)).elim
  · exact (List.not_mem_nil (hConditional ▸ hSlot)).elim

theorem sword_exact :
    Exact (swordLoot .freeForAll false []) ∧
      Along next (fun l operation => Exact (next l operation)) (swordLoot .freeForAll false []) [take 1] := by
  have hFill := swordFill_eq (show (swordFill .freeForAll false []).isSome = true by decide +kernel)
  have hShown : Along next (Requests ShownTo) (swordLoot .freeForAll false []) [take 1] := by
    refine ⟨⟨⟨1, fun _ => true, false⟩, .all, rfl, ⟨0, .allowLoot, 1, 1⟩, ?_, rfl⟩, trivial⟩
    decide +kernel
  refine (unlootedCount_exact_iff _ _ _ _ _ _ hFill ⟨trivial, trivial, trivial⟩ [take 1] hShown).mpr ?_
  exact ⟨countedOnce_nil (by decide +kernel) (by decide +kernel),
    countedOnce_nil (by decide +kernel) (by decide +kernel), trivial⟩

/-- Under group loot a quest item is counted for both players who see it. -/
theorem quest_item_counted_twice :
    swordFill .groupLoot true [] = some (swordLoot .groupLoot true []) ∧ ¬ Exact (swordLoot .groupLoot true []) := by
  refine ⟨swordFill_eq (by decide +kernel), fun hExact => ?_⟩
  have hCount : (swordLoot .groupLoot true []).unlootedCount = 2 := by decide +kernel
  have hItems : (swordLoot .groupLoot true []).items = [] := by decide +kernel
  have hQuests : (swordLoot .groupLoot true []).questItems.map (fun item => item.personal true) = [false] := by
    decide +kernel
  have hOne : (swordLoot .groupLoot true []).left ⊆ {⟨none, true, 0⟩} := by
    rintro ⟨taker, quest, index⟩ ⟨other, hOther, hLeaves⟩
    obtain ⟨item, hItem, rfl⟩ := Option.map_eq_some_iff.mp hOther
    cases quest with
    | false =>
      have hAt : (swordLoot .groupLoot true []).items[index]? = some item := hItem
      rw [hItems] at hAt
      cases hAt
    | true =>
      have hAt : (swordLoot .groupLoot true []).questItems[index]? = some item := hItem
      have hShared := congrArg (fun l => l[index]?) hQuests
      rw [List.getElem?_map, hAt, Option.map_some] at hShared
      obtain rfl : index = 0 := by
        rcases index with _ | index
        · rfl
        · cases hShared
      have hNot := Option.some.inj hShared
      cases taker with
      | none => rfl
      | some p => exact absurd hLeaves.1 (Bool.eq_false_iff.mp hNot)
  have hCard := Set.ncard_le_ncard hOne (Set.finite_singleton _)
  rw [Set.ncard_singleton, ← hExact.counter, hCount] at hCard
  omega

end AshamaneCore.Looting
