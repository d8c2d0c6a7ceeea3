import AshamaneCore.Game.LootSizes
import AshamaneCore.Library.NarrowLoops

/-!
# The limit of the client

The loops that give a player his entries run over an index of eight bits. They
end as long as the lists of items are short enough, and then the player is shown
no more than the client can.
-/

namespace AshamaneCore.Looting

open Library

section Loops

variable (group : Option LootGroup) (loot : Loot) (m : Member)

def picks (quest : Bool) (p : LootItem → Bool) (i : Nat) : Bool := (loot.item? quest i).any p

def itemLoopEnds (p : LootItem → Bool) : Prop :=
  NarrowLoops.Ends 256 loot.items.length (picks loot false p) fun _ => false

/-- The loop of `FillQuestLoot` leaves when the client is full. -/
def questLoopEnds : Prop :=
  NarrowLoops.Ends 256 loot.questItems.length
    (picks loot true fun item => !item.isLooted && (m.allowed item || followsRules group m.guid item))
    fun list => loot.items.length + list.length = maxNrLootItems

structure LoopsEnd : Prop where
  currency : itemLoopEnds loot fun item => !item.isLooted && item.currency && m.allowed item
  quest : loot.items.length = maxNrLootItems ∨ questLoopEnds group loot m
  ffa : itemLoopEnds loot fun item => !item.isLooted && item.freeforall && m.allowed item
  conditional : itemLoopEnds loot fun item => !item.isLooted && !item.freeforall && m.allowed item

variable {group loot m}

theorem loopsEnd_of_sizes (hItems : loot.items.length ≤ maxNrLootItems)
    (hQuest : loot.items.length = maxNrLootItems ∨ loot.questItems.length < 256) : LoopsEnd group loot m := by
  have hByte : loot.items.length < 256 := hItems.trans_lt (by decide)
  refine ⟨NarrowLoops.ends_of_lt hByte, hQuest.imp_right fun hShort => NarrowLoops.ends_of_lt hShort,
    NarrowLoops.ends_of_lt hByte, NarrowLoops.ends_of_lt hByte⟩

end Loops

/-! ## Sizes while a loot is filled -/

section Fill

variable {w : World} {group : Option LootGroup} {loot next : Loot} {m : Member}

/-- The lists keep their lengths, and nobody is shown more than the client can. -/
structure Fits (loot next : Loot) : Prop where
  size : ∀ quest, next.size quest = loot.size quest
  shown : ∀ player, next.items.length + (next.entries .quest player).length ≤ maxNrLootItems

theorem size_mapItems (loot : Loot) (q : Bool) (f : Nat → LootItem → LootItem) (quest : Bool) :
    (loot.mapItems q f).size quest = loot.size quest := by
  cases q <;> cases quest <;> simp [Loot.mapItems, Loot.size]

theorem entries_mapItems (loot : Loot) (q : Bool) (f : Nat → LootItem → LootItem) :
    (loot.mapItems q f).entries = loot.entries := by
  rw [Loot.mapItems]
  split <;> rfl

theorem Fits.of_lengths {third : Loot} (h : Fits loot next) (hSize : ∀ quest, third.size quest = next.size quest)
    (hLength : ∀ player, (third.entries .quest player).length = (next.entries .quest player).length) :
    Fits loot third := by
  refine ⟨fun quest => (hSize quest).trans (h.size quest), fun player => ?_⟩
  have hItems : third.items.length = next.items.length := hSize false
  rw [hItems, hLength player]
  exact h.shown player

theorem Fits.mapItems (h : Fits loot next) (q : Bool) (f : Nat → LootItem → LootItem) :
    Fits loot (next.mapItems q f) :=
  h.of_lengths (size_mapItems next q f) fun player => by rw [entries_mapItems]

theorem Fits.recount (h : Fits loot next) (n : Nat) : Fits loot { next with unlootedCount := n } :=
  h.of_lengths (fun _ => rfl) fun _ => rfl

theorem Fits.setEntries (h : Fits loot next) (kind : EntryKind) (guid : Nat) {list : List NotNormalLootItem}
    (hList : kind = .quest → next.items.length + list.length ≤ maxNrLootItems) :
    Fits loot (next.setEntries kind guid list) := by
  refine ⟨h.size, fun player => ?_⟩
  have hItems : (next.setEntries kind guid list).items.length = next.items.length := rfl
  have hEntries : (next.setEntries kind guid list).entries =
      Function.update next.entries kind (Function.update (next.entries kind) guid list) := rfl
  rw [hItems, hEntries]
  rcases eq_or_ne kind .quest with rfl | hKind
  · rcases eq_or_ne player guid with rfl | hOther
    · rw [Function.update_self, Function.update_self]
      exact hList rfl
    · rw [Function.update_self, Function.update_of_ne hOther]
      exact h.shown player
  · rw [Function.update_of_ne hKind.symm]
    exact h.shown player

theorem length_questSlots (hItems : loot.items.length ≤ maxNrLootItems) :
    loot.items.length + (questSlots loot m group).length ≤ maxNrLootItems := by
  rw [questSlots]
  split
  · rename_i hFull
    rw [hFull]
    exact le_refl _
  · rename_i hNot
    rw [if_pos (Nat.lt_of_le_of_ne hItems hNot)]
    have hTake := List.length_take_le (maxNrLootItems - loot.items.length) (seenQuestSlots loot m group)
    omega

theorem Fits.unlessFilled (h : Fits loot next) (kind : EntryKind) {fill : Loot → Loot} (hFill : Fits loot (fill next)) :
    Fits loot (unlessFilled next m kind fill) := by
  rw [Looting.unlessFilled]
  split
  · exact hFill
  · exact h

theorem Fits.setOther (h : Fits loot next) {kind : EntryKind} (hKind : kind ≠ .quest) (guid : Nat)
    (list : List NotNormalLootItem) : Fits loot (next.setEntries kind guid list) :=
  h.setEntries kind guid fun hQuest => absurd hQuest hKind

theorem Fits.fillQuestLoot (h : Fits loot next) : Fits loot (fillQuestLoot next m group) := by
  have hItems : next.items.length ≤ maxNrLootItems := Nat.le_trans (Nat.le_add_right _ _) (h.shown m.guid)
  refine ((h.setEntries .quest m.guid fun _ => ?_).mapItems true _).recount _
  rw [newEntries, List.length_map]
  exact length_questSlots hItems

theorem Fits.fillConditional (h : Fits loot next) : Fits loot (fillNonQuestNonFFAConditionalLoot next m) := by
  have hKind : EntryKind.conditional ≠ .quest := by decide
  have hEntries := h.setOther hKind m.guid (newEntries (conditionalSlots next m))
  exact (hEntries.mapItems false fun i item => countConditional next m i (allowLooter next m i item)).recount _

theorem Fits.fillEntries (h : Fits loot next) : Fits loot (fillEntries next m group) := by
  have hCurrency : Fits loot (Looting.unlessFilled next m .currency fun l => fillCurrencyLoot l m) :=
    h.unlessFilled _ ((h.setOther (by decide) m.guid _).recount _)
  have hQuests : Fits loot (Looting.unlessFilled _ m .quest fun l => Looting.fillQuestLoot l m group) :=
    hCurrency.unlessFilled _ hCurrency.fillQuestLoot
  have hFfa : Fits loot (Looting.unlessFilled _ m .ffa fun l => fillFFALoot l m) :=
    hQuests.unlessFilled _ ((hQuests.setOther (by decide) m.guid _).recount _)
  have hLast : Fits loot (Looting.unlessFilled _ m .conditional fun l => fillNonQuestNonFFAConditionalLoot l m) :=
    hFfa.unlessFilled _ hFfa.fillConditional
  exact hLast

theorem Fits.markEntry (h : Fits loot next) (player : Nat) (found : Found) :
    Fits loot (next.markEntry player found) := by
  rw [Loot.markEntry]
  split
  · rename_i position hEntry
    refine h.setEntries _ player fun hKind => ?_
    rw [hKind, List.length_modify]
    exact h.shown player
  · exact h

theorem Fits.autoStore (h : Fits loot next) (slot : Nat) : Fits loot (autoStore m w next slot) := by
  rw [Looting.autoStore]
  split
  · rw [storeLootItem]
    split
    · exact h
    · rename_i found hFound
      have hHanded : ∀ {l : Loot} (asCurrency : Bool), Fits loot l →
          Fits loot (l.handOut (autoRequest m slot).player found asCurrency) :=
        fun asCurrency hl => hl.of_lengths (fun _ => rfl) fun _ => rfl
      rw [grant]
      split
      · exact hHanded true (h.markEntry _ found)
      · split
        · exact hHanded false (h.markEntry _ found)
        · exact hHanded false ((h.markEntry _ found).mapItems _ _)
  · exact h

theorem Fits.fillNotNormalLootFor (h : Fits loot next) : Fits loot (fillNotNormalLootFor w group next m) := by
  rw [Looting.fillNotNormalLootFor]
  have hAll : ∀ (slots : List Nat) l, Fits loot l → Fits loot (slots.foldl (Looting.autoStore m w) l) := by
    intro slots
    induction slots with
    | nil => exact fun l hl => hl
    | cons slot slots ih => exact fun l hl => ih _ (hl.autoStore slot)
  exact hAll _ _ h.fillEntries

theorem Fits.markThreshold (h : Fits loot next) : Fits loot (markThreshold w group next) := by
  cases group with
  | none => exact h
  | some g => exact h.mapItems false _

def ShortEnough (loot : Loot) : Prop :=
  loot.items.length ≤ maxNrLootItems ∧ (loot.items.length = maxNrLootItems ∨ loot.questItems.length < 256)

theorem ShortEnough.of_size (h : ShortEnough loot) (hSize : ∀ quest, next.size quest = loot.size quest) :
    ShortEnough next := by
  have hItems : next.items.length = loot.items.length := hSize false
  have hQuest : next.questItems.length = loot.questItems.length := hSize true
  rw [ShortEnough, hItems, hQuest]
  exact h

theorem ShortEnough.loopsEnd (h : ShortEnough loot) : loopsEnd group loot m = true := by
  have hByte : loot.items.length < 256 := h.1.trans_lt (by decide)
  rw [Looting.loopsEnd, decide_eq_true hByte, Bool.true_and]
  rcases h.2 with hFull | hShort
  · rw [decide_eq_true hFull, Bool.or_true, Bool.true_or]
  · rw [decide_eq_true hShort, Bool.true_or, Bool.true_or]

theorem fillAll_fits (hShort : ShortEnough loot) (h : Fits loot next) (members : List Member) :
    ∃ filled, fillAll w group next members = some filled ∧ Fits loot filled := by
  induction members generalizing next with
  | nil => exact ⟨next, rfl, h⟩
  | cons m members ih =>
    have hNext : Fits loot (Looting.fillNotNormalLootFor w group next m) := h.fillNotNormalLootFor
    obtain ⟨filled, hFilled, hFits⟩ := ih hNext
    refine ⟨filled, ?_, hFits⟩
    rw [fillAll, List.foldlM_cons, if_pos (hShort.of_size h.size).loopsEnd]
    exact hFilled

end Fill

/-! ## What a generation keeps to -/

section Limits

variable (w : World) (gold : Nat) (content : List Drop)

/-- The lists are short, the counts are right, every loop ends that is run for a player,
and in the end nobody is shown too much. -/
structure WithinLimits : Prop where
  items : (generate w gold content).items.length ≤ maxNrLootItems
  counts : StackCounts w (generate w gold content)
  loops : ∀ group owner personal before m after, looters group owner personal = before ++ m :: after →
    ∃ loot, fillAll w group (processed w group gold content owner personal) before = some loot ∧
      LoopsEnd group loot m
  shown : ∀ group owner personal, ∃ filled, fillLoot w group gold content owner personal = some filled ∧
    ∀ player, filled.items.length + (filled.entries .quest player).length ≤ maxNrLootItems

/-- No currency is rolled behind a full list of items, and with room in it only so many quest
currencies behind a full list of quest items. -/
structure Bounded : Prop where
  items : lateCurrencies w false 0 content = 0
  quest : maxNrLootItems ≤ totalStacks w false content ∨
    lateCurrencies w true 0 content < 256 - maxNrQuestItems

variable {w gold content}

theorem limit_le_of_late {quest : Bool} {before : Nat} (h : 0 < lateCurrencies w quest before content) :
    limit quest ≤ before + totalStacks w quest content := by
  induction content generalizing before with
  | nil => exact absurd h (Nat.lt_irrefl 0)
  | cons drop drops ih =>
    rw [totalStacks, List.map_cons, List.sum_cons]
    rw [lateCurrencies] at h
    split at h
    · rename_i hLate
      exact hLate.2.2.trans (Nat.le_add_right _ _)
    · have hRest := ih ((Nat.zero_add _).symm ▸ h)
      rw [totalStacks] at hRest
      omega

theorem shortEnough_iff : ShortEnough (generate w gold content) ↔ Bounded w content := by
  have hSize : ∀ quest, (generate w gold content).size quest =
      min (limit quest) (totalStacks w quest content) + lateCurrencies w quest 0 content :=
    fun _ => size_generate gold content
  have hItems : (generate w gold content).items.length =
      min maxNrLootItems (totalStacks w false content) + lateCurrencies w false 0 content := hSize false
  have hQuest : (generate w gold content).questItems.length =
      min maxNrQuestItems (totalStacks w true content) + lateCurrencies w true 0 content := hSize true
  have hLateItems : 0 < lateCurrencies w false 0 content → maxNrLootItems ≤ 0 + totalStacks w false content :=
    limit_le_of_late
  have hLateQuest : 0 < lateCurrencies w true 0 content → maxNrQuestItems ≤ 0 + totalStacks w true content :=
    limit_le_of_late
  have hLimit : maxNrQuestItems < 256 := by decide
  rw [ShortEnough, hItems, hQuest]
  constructor
  · rintro ⟨hShort, hRest⟩
    exact ⟨by omega, by omega⟩
  · rintro ⟨hNone, hRest⟩
    exact ⟨by omega, by omega⟩

theorem processed_size (group : Option LootGroup) (owner : Member) (personal quest : Bool) :
    (processed w group gold content owner personal).size quest = (generate w gold content).size quest := by
  rw [processed]
  split <;> rfl

theorem processed_entries (group : Option LootGroup) (owner : Member) (personal : Bool) :
    (processed w group gold content owner personal).entries = fun _ _ => [] := by
  have hGenerated := (generate_generated w gold content).entries
  rw [processed]
  split
  · exact hGenerated
  · exact hGenerated

def refused : Member where
  guid := 1
  allowed _ := false
  present := true
  autoStore _ := ⟨false, false, false⟩

theorem WithinLimits.shortEnough (h : WithinLimits w gold content) : ShortEnough (generate w gold content) := by
  refine ⟨h.items, ?_⟩
  obtain ⟨loot, hLoot, hEnds⟩ := h.loops none refused true [] refused [] rfl
  obtain rfl : generate w gold content = loot := Option.some.inj hLoot
  refine hEnds.quest.imp_right fun hQuest => (NarrowLoops.ends_iff_of_none (by decide) fun i => ?_).mp hQuest
  have hNone : (fun item : LootItem => !item.isLooted && (refused.allowed item || followsRules none refused.guid item)) =
      fun _ => false := by
    funext item
    rw [followsRules, refused, Option.any_none, Bool.and_false, Bool.or_false, Bool.and_false]
  rw [picks, hNone, Option.any_false]

theorem ShortEnough.withinLimits (h : ShortEnough (generate w gold content))
    (hCounts : ∀ drop ∈ content, 0 < drop.count) : WithinLimits w gold content := by
  have hStart : ∀ group owner personal, ShortEnough (processed w group gold content owner personal) ∧
      Fits (processed w group gold content owner personal) (processed w group gold content owner personal) := by
    intro group owner personal
    have hShort := h.of_size (processed_size group owner personal)
    refine ⟨hShort, fun _ => rfl, fun player => ?_⟩
    rw [processed_entries]
    exact hShort.1
  refine ⟨h.1, generate_stackCounts gold hCounts, ?_, ?_⟩
  · intro group owner personal before m after _
    obtain ⟨hShort, hFits⟩ := hStart group owner personal
    obtain ⟨loot, hLoot, hBefore⟩ := fillAll_fits (w := w) hShort hFits before
    have hLater := hShort.of_size hBefore.size
    exact ⟨loot, hLoot, loopsEnd_of_sizes hLater.1 hLater.2⟩
  · intro group owner personal
    obtain ⟨hShort, hFits⟩ := hStart group owner personal
    obtain ⟨filled, hFilled, hAll⟩ := fillAll_fits (w := w) hShort hFits (looters group owner personal)
    rw [fillLoot, hFilled]
    refine ⟨_, rfl, ?_⟩
    dsimp only
    split
    · exact hAll.shown
    · exact hAll.markThreshold.shown

theorem withinLimits_iff (hCounts : ∀ drop ∈ content, 0 < drop.count) :
    WithinLimits w gold content ↔ Bounded w content :=
  ⟨fun h => shortEnough_iff.mp h.shortEnough, fun h => (shortEnough_iff.mpr h).withinLimits hCounts⟩

end Limits

end AshamaneCore.Looting

namespace AshamaneCore.LootTemplates

open LootTemplate

/-- For every loaded template and every outcome of its rolls, the loot keeps to the limits exactly
when no list is full before a currency is rolled into it, but for quest currencies up to the index. -/
theorem fillLoot_limits_iff {c : Config} {dice : Dice} {rows referenceRows : List Row} {lootId : Nat}
    {t : LootTemplate} (ht : (LootStore.loadLootTable c rows).getLootFor lootId = some t) {rate : Bool}
    {lootMode depth gold : Nat} {usable : Nat → Bool} {run : Run}
    (hRun : process c dice (LootStore.loadLootTable c referenceRows) rate lootMode depth t 0 usable
      ⟨Looting.Loot.empty gold, [], 0⟩ = some run) :
    run.loot = Looting.generate c.world gold run.rolled ∧
      (Looting.WithinLimits c.world gold run.rolled ↔ Looting.Bounded c.world run.rolled) := by
  have hMade := process_made ht hRun
  exact ⟨hMade.loot, Looting.withinLimits_iff hMade.counts⟩

def currencyConfig : Config where
  world := ⟨fun _ => none⟩
  hasCurrency _ := true
  qualityRate _ := 1
  rateDropItemReferenced := 1
  rateDropItemReferencedAmount := 1
  maxDuplicates := 1

def currencyRows (n : Nat) : List Row :=
  (List.range n).map fun i =>
    { entry := 1, item := -((i : Int) + 1), reference := 0, chance := 100, needsQuest := false, lootmode := 1,
      groupid := 0, mincount := 1, maxcount := 1, conditions := [] }

def currencyTemplate (n : Nat) : LootTemplate := ⟨(currencyRows n).map Row.storeItem, []⟩

def currencyRun (n : Nat) : Option Run :=
  process currencyConfig lowest (LootStore.loadLootTable currencyConfig []) false 1 1 (currencyTemplate n) 0
    (fun _ => true) ⟨Looting.Loot.empty 0, [], 0⟩

theorem sixteen_loaded :
    (LootStore.loadLootTable currencyConfig (currencyRows 16)).getLootFor 1 = some (currencyTemplate 16) := by
  rfl

theorem sixteen_late : (currencyRun 16).map (fun run =>
    (Looting.lateCurrencies currencyConfig.world false 0 run.rolled,
      Looting.lateCurrencies currencyConfig.world true 0 run.rolled)) = some (0, 0) := by
  decide

/-- As many currencies as the client can show. -/
theorem sixteen_currencies :
    ∃ run, currencyRun 16 = some run ∧ Looting.WithinLimits currencyConfig.world 0 run.rolled := by
  obtain ⟨run, hRun, hLate⟩ := Option.map_eq_some_iff.mp sixteen_late
  obtain ⟨hItems, hQuest⟩ := Prod.mk.inj hLate
  have hBounded : Looting.Bounded currencyConfig.world run.rolled := by
    refine ⟨hItems, Or.inr ?_⟩
    rw [hQuest]
    decide
  exact ⟨run, hRun, (fillLoot_limits_iff sixteen_loaded hRun).2.mpr hBounded⟩

theorem seventeen_loaded :
    (LootStore.loadLootTable currencyConfig (currencyRows 17)).getLootFor 1 = some (currencyTemplate 17) := by
  rfl

theorem seventeen_items : (currencyRun 17).map (fun run => run.loot.items.length) = some 17 := by
  decide

/-- One currency more than the client can show. -/
theorem seventeen_currencies :
    (LootStore.loadLootTable currencyConfig (currencyRows 17)).getLootFor 1 = some (currencyTemplate 17) ∧
    ∃ run, currencyRun 17 = some run ∧ run.loot = Looting.generate currencyConfig.world 0 run.rolled ∧
      ¬ Looting.WithinLimits currencyConfig.world 0 run.rolled := by
  obtain ⟨run, hRun, hItems⟩ := Option.map_eq_some_iff.mp seventeen_items
  have hMade := process_made seventeen_loaded hRun
  refine ⟨seventeen_loaded, run, hRun, hMade.loot, fun h => ?_⟩
  have hLimit := h.items
  rw [← hMade.loot, hItems] at hLimit
  exact absurd hLimit (by decide)

end AshamaneCore.LootTemplates
