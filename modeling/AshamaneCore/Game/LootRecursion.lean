import AshamaneCore.Game.LootMgr

/-!
# The recursion through references

Processing a template ends for every outcome exactly when no cycle of references
is in reach that can all be hit. The search for a quest drop needs no dice: it
follows the references before the first quest drop.
-/

namespace AshamaneCore.LootTemplates

open Library Library.BoundedRecursion

def Config.mayHit (c : Config) (rate : Bool) (item : LootStoreItem) : Prop :=
  100 ≤ item.chance ∨ 0 < item.chance * c.referenceModifier rate

namespace LootTemplate

def Live (c : Config) (reference : LootStore) (rate : Bool) (lootMode : Nat) (t u : LootTemplate) : Prop :=
  ∃ item ∈ t.entries, item.lootmode &&& lootMode ≠ 0 ∧ c.mayHit rate item ∧ 0 < item.reference ∧
    reference.getLootFor item.reference = some u ∧ item.groupid = 0 ∧ 0 < c.referenceCount item

inductive DropsQuest (store : LootStore) : LootStoreItem → Prop
  | plain {item : LootStoreItem} (h : item.reference = 0) (hQuest : item.needsQuest = true) : DropsQuest store item
  | group {item : LootStoreItem} {u : LootTemplate} (h : 0 < item.reference)
      (hFound : store.getLootFor item.reference = some u) (hGroup : item.groupid ≠ 0)
      (hQuest : (u.group? item.groupid).any LootGroup.hasQuestDrop = true) : DropsQuest store item
  | entry {item other : LootStoreItem} {u : LootTemplate} (h : 0 < item.reference)
      (hFound : store.getLootFor item.reference = some u) (hWhole : item.groupid = 0) (hMem : other ∈ u.entries)
      (hQuest : DropsQuest store other) : DropsQuest store item
  | anyGroup {item : LootStoreItem} {u : LootTemplate} (h : 0 < item.reference)
      (hFound : store.getLootFor item.reference = some u) (hWhole : item.groupid = 0)
      (hQuest : (u.groups.any fun group => group.any LootGroup.hasQuestDrop) = true) : DropsQuest store item

def TemplateDropsQuest (store : LootStore) (t : LootTemplate) : Prop :=
  (∃ item ∈ t.entries, DropsQuest store item) ∨ (t.groups.any fun group => group.any LootGroup.hasQuestDrop) = true

/-- No entry with a quest drop stands before the one that asks another template. -/
def Asks (store : LootStore) (t u : LootTemplate) : Prop :=
  ∃ before item after, t.entries = before ++ item :: after ∧ (∀ other ∈ before, ¬ DropsQuest store other) ∧
    0 < item.reference ∧ store.getLootFor item.reference = some u ∧ item.groupid = 0

theorem finite_found (store : LootStore) : {u | ∃ lootId, store.getLootFor lootId = some u}.Finite := by
  refine (List.finite_toSet (store.entries.map Prod.snd)).subset ?_
  rintro u ⟨lootId, h⟩
  obtain ⟨node, hNode, rfl⟩ := Option.map_eq_some_iff.mp h
  exact List.mem_map_of_mem (KeyedSet.find?_eq_some_iff.mp hNode).1

/-! ## Processing -/

section Process

variable {c : Config} {dice : Dice} {reference : LootStore} {rate : Bool} {lootMode : Nat}
  {whole : LootTemplate → (Nat → Bool) × Run → Option Run}

variable {item : LootStoreItem}

theorem roll_mayHit {s : Run} (hReference : 0 < item.reference)
    (h : (s.roll c dice rate item).1 = true) : c.mayHit rate item := by
  rw [Run.roll, if_pos hReference] at h
  split at h
  · rename_i hCertain
    exact Or.inl hCertain
  · exact Or.inr ((dice.chance_nonneg s.drawn).trans_lt (of_decide_eq_true h))

theorem repeated_isSome {f : Run → Option Run} {n : Nat} (h : 0 < n → ∀ s, (f s).isSome = true) (s : Run) :
    (repeated f n s).isSome = true := by
  induction n generalizing s with
  | zero => rfl
  | succ n ih =>
    obtain ⟨next, hNext⟩ := Option.isSome_iff_exists.mp (h (Nat.succ_pos n) s)
    rw [repeated, hNext]
    exact ih (fun _ => h (Nat.succ_pos n)) next

variable {t : LootTemplate}

theorem processEntry_isSome {usable : Nat → Bool} {s : Run}
    (hItem : item ∈ t.entries)
    (h : ∀ u, Live c reference rate lootMode t u → ∀ arg, (whole u arg).isSome = true) :
    (processEntry c dice reference rate lootMode whole usable s item).isSome = true := by
  rw [processEntry]
  split
  · rfl
  · rename_i hMode
    dsimp only
    split
    · rfl
    · rename_i hHit
      split
      · rename_i hReference
        split
        · rfl
        · rename_i referenced hFound
          refine repeated_isSome (fun hCount s => ?_) _
          rw [dispatch]
          split
          · rfl
          · rename_i hWhole
            have hMay := roll_mayHit hReference (Bool.not_eq_false _ ▸ hHit)
            exact h referenced ⟨item, hItem, hMode, hMay, hReference, hFound, not_not.mp hWhole, hCount⟩ _
      · rfl

theorem processWhole_isSome (h : ∀ u, Live c reference rate lootMode t u → ∀ arg, (whole u arg).isSome = true)
    (arg : (Nat → Bool) × Run) :
    (processWhole c dice reference rate lootMode whole t arg).isSome = true := by
  have hEntry : ∀ item ∈ t.entries, ∀ s,
      (processEntry c dice reference rate lootMode whole arg.1 s item).isSome = true :=
    fun item hItem s => processEntry_isSome hItem h
  obtain ⟨next, hNext⟩ := Option.isSome_iff_exists.mp (foldlM_isSome hEntry arg.2)
  rw [processWhole, hNext]
  rfl

theorem roll_lowest (hReference : 0 < item.reference) (h : c.mayHit rate item) (s : Run) :
    (s.roll c lowest rate item).1 = true := by
  rw [Run.roll, if_pos hReference]
  split
  · rfl
  · rename_i hNot
    exact decide_eq_true (h.resolve_left hNot)

theorem processWhole_eq_none {u : LootTemplate} (hLive : Live c reference rate lootMode t u)
    (h : ∀ arg, whole u arg = none) (arg : (Nat → Bool) × Run) :
    processWhole c lowest reference rate lootMode whole t arg = none := by
  obtain ⟨item, hItem, hMode, hHit, hReference, hFound, hWhole, hCount⟩ := hLive
  have hEntry : ∀ s, processEntry c lowest reference rate lootMode whole arg.1 s item = none := by
    intro s
    obtain ⟨n, hSucc⟩ := Nat.exists_eq_succ_of_ne_zero hCount.ne'
    have hRolled : ¬ (s.roll c lowest rate item).1 = false := by
      rw [roll_lowest hReference hHit s]
      exact Bool.false_ne_true.symm
    rw [processEntry, if_neg hMode]
    dsimp only
    rw [if_neg hRolled, if_pos hReference, hFound]
    dsimp only
    rw [hSucc, repeated, dispatch, if_neg (not_not.mpr hWhole), h]
    rfl
  rw [processWhole, foldlM_eq_none hItem hEntry]
  rfl

/-- All of a template is processed to an end for every outcome of the dice. -/
def ProcessEnds (c : Config) (reference : LootStore) (rate : Bool) (lootMode : Nat) (t : LootTemplate) : Prop :=
  ∀ (dice : Dice) (usable : Nat → Bool) (s : Run),
    ∃ depth, (process c dice reference rate lootMode depth t 0 usable s).isSome = true

theorem processEnds_iff :
    ProcessEnds c reference rate lootMode t ↔ ¬ Endless (Live c reference rate lootMode) t := by
  have hGood : ∀ (dice : Dice) f, Good (fun _ _ _ => True) f →
      Good (fun _ _ _ => True) (processWhole c dice reference rate lootMode f) := fun _ _ _ _ _ _ _ => trivial
  constructor
  · intro h hEndless
    obtain ⟨depth, hSome⟩ := h lowest (fun _ => true) ⟨Looting.Loot.empty 0, [], 0⟩
    have hNone := unfolded_eq_none (hGood lowest) (fun f a b _ hLive => processWhole_eq_none hLive) hEndless depth
    rw [process, dispatch, if_neg (not_not.mpr rfl), hNone] at hSome
    exact Bool.false_ne_true hSome
  · intro h dice usable s
    have hFinite : {u | ∃ t, Live c reference rate lootMode t u}.Finite := by
      refine (finite_found reference).subset ?_
      rintro u ⟨t, item, -, -, -, -, hFound, -⟩
      exact ⟨item.reference, hFound⟩
    obtain ⟨depth, hDepth⟩ := ends_of_not_endless hFinite (hGood dice) (fun f a _ => processWhole_isSome) h
    refine ⟨depth, ?_⟩
    rw [process, dispatch, if_neg (not_not.mpr rfl)]
    exact hDepth depth (le_refl _) _

end Process

/-! ## Quest drops -/

section Quest

variable {store : LootStore} {whole : LootTemplate → Unit → Option Bool}

def Answers (store : LootStore) (t : LootTemplate) (_ : Unit) (v : Bool) : Prop := v = true ↔ TemplateDropsQuest store t

variable {item : LootStoreItem}

theorem dropsQuest_of_plain (h : ¬ 0 < item.reference) :
    DropsQuest store item ↔ item.needsQuest = true := by
  refine ⟨fun hQuest => ?_, DropsQuest.plain (Nat.eq_zero_of_not_pos h)⟩
  cases hQuest with
  | plain _ hQuest => exact hQuest
  | group hPos => exact absurd hPos h
  | entry hPos => exact absurd hPos h
  | anyGroup hPos => exact absurd hPos h

theorem DropsQuest.exists_found (h : 0 < item.reference) (hQuest : DropsQuest store item) :
    ∃ u, store.getLootFor item.reference = some u := by
  cases hQuest with
  | plain hZero => exact absurd hZero h.ne'
  | group _ hFound => exact ⟨_, hFound⟩
  | entry _ hFound => exact ⟨_, hFound⟩
  | anyGroup _ hFound => exact ⟨_, hFound⟩

theorem dropsQuest_of_found {u : LootTemplate} (h : 0 < item.reference)
    (hFound : store.getLootFor item.reference = some u) :
    DropsQuest store item ↔
      if item.groupid ≠ 0 then (u.group? item.groupid).any LootGroup.hasQuestDrop = true
      else TemplateDropsQuest store u := by
  have hSame : ∀ other, store.getLootFor item.reference = some other → other = u :=
    fun other hOther => Option.some.inj (hOther.symm.trans hFound)
  split
  · rename_i hGroup
    refine ⟨fun hQuest => ?_, DropsQuest.group h hFound hGroup⟩
    cases hQuest with
    | plain hZero => exact absurd hZero h.ne'
    | group _ hOther _ hQuest => exact hSame _ hOther ▸ hQuest
    | entry _ _ hWhole => exact absurd hWhole hGroup
    | anyGroup _ _ hWhole => exact absurd hWhole hGroup
  · rename_i hGroup
    have hWhole := not_not.mp hGroup
    constructor
    · intro hQuest
      cases hQuest with
      | plain hZero => exact absurd hZero h.ne'
      | group _ _ hNot => exact absurd hNot hGroup
      | entry _ hOther _ hMem hQuest => exact Or.inl ⟨_, hSame _ hOther ▸ hMem, hQuest⟩
      | anyGroup _ hOther _ hQuest => exact Or.inr (hSame _ hOther ▸ hQuest)
    · rintro (⟨other, hMem, hQuest⟩ | hQuest)
      · exact DropsQuest.entry h hFound hWhole hMem hQuest
      · exact DropsQuest.anyGroup h hFound hWhole hQuest

theorem hasQuestEntry_answers (h : Good (Answers store) whole) {v : Bool}
    (hEntry : hasQuestEntry store whole item = some v) : v = true ↔ DropsQuest store item := by
  rw [hasQuestEntry] at hEntry
  split at hEntry
  · rename_i hReference
    split at hEntry
    · rename_i hNone
      obtain rfl := Option.some.inj hEntry
      refine iff_of_false Bool.false_ne_true fun hQuest => ?_
      obtain ⟨u, hFound⟩ := hQuest.exists_found hReference
      rw [hNone] at hFound
      cases hFound
    · rename_i referenced hFound
      rw [dispatchQuest] at hEntry
      rw [dropsQuest_of_found hReference hFound]
      split
      · rename_i hGroup
        rw [if_pos hGroup] at hEntry
        rw [Option.some.inj hEntry]
      · rename_i hGroup
        rw [if_neg hGroup] at hEntry
        exact h referenced () v hEntry
  · rename_i hReference
    obtain rfl := Option.some.inj hEntry
    exact (dropsQuest_of_plain hReference).symm

theorem hasQuestDropWhole_good (h : Good (Answers store) whole) :
    Good (Answers store) (hasQuestDropWhole store whole) := by
  intro t s v hWhole
  obtain ⟨found, hFound, hRest⟩ := Option.bind_eq_some_iff.mp hWhole
  have hEntries := anyM_eq_some (fun item v => hasQuestEntry_answers h) hFound
  cases found with
  | true =>
    obtain rfl := Option.some.inj hRest
    exact iff_of_true rfl (Or.inl (hEntries.mp rfl))
  | false =>
    have hNone : ¬ ∃ item ∈ t.entries, DropsQuest store item := fun hQuest => Bool.false_ne_true (hEntries.mpr hQuest)
    obtain rfl := Option.some.inj hRest
    exact (or_iff_right hNone).symm

variable {t : LootTemplate}

theorem hasQuestDropWhole_isSome (hGood : Good (Answers store) whole)
    (h : ∀ u, Asks store t u → ∀ s, (whole u s).isSome = true) (s : Unit) :
    (hasQuestDropWhole store whole t s).isSome = true := by
  have hEntries : (t.entries.anyM (hasQuestEntry store whole)).isSome = true := by
    refine anyM_isSome (fun item v => hasQuestEntry_answers hGood) fun before item after hSplit hBefore => ?_
    rw [hasQuestEntry]
    split
    · rename_i hReference
      split
      · rfl
      · rename_i referenced hFound
        rw [dispatchQuest]
        split
        · rfl
        · rename_i hWhole
          exact h referenced ⟨before, item, after, hSplit, hBefore, hReference, hFound, not_not.mp hWhole⟩ ()
    · rfl
  obtain ⟨found, hFound⟩ := Option.isSome_iff_exists.mp hEntries
  rw [hasQuestDropWhole, hFound]
  cases found <;> rfl

theorem hasQuestDropWhole_eq_none (hGood : Good (Answers store) whole) {u : LootTemplate} (hAsks : Asks store t u)
    (h : ∀ s, whole u s = none) (s : Unit) : hasQuestDropWhole store whole t s = none := by
  obtain ⟨before, item, after, hSplit, hBefore, hReference, hFound, hWhole⟩ := hAsks
  have hEntry : hasQuestEntry store whole item = none := by
    rw [hasQuestEntry, if_pos hReference, hFound]
    dsimp only
    rw [dispatchQuest, if_neg (not_not.mpr hWhole), h]
  rw [hasQuestDropWhole, hSplit, anyM_eq_none (fun item v => hasQuestEntry_answers hGood) hBefore hEntry]
  rfl

theorem questDropEnds_iff :
    (∃ depth, (hasQuestDrop store depth t 0).isSome = true) ↔ ¬ Endless (Asks store) t := by
  have hGood : ∀ f, Good (Answers store) f → Good (Answers store) (hasQuestDropWhole store f) :=
    fun f => hasQuestDropWhole_good
  constructor
  · rintro ⟨depth, hSome⟩ hEndless
    have hNone := unfolded_eq_none hGood (fun f a b hf hAsks => hasQuestDropWhole_eq_none hf hAsks) hEndless depth
    rw [hasQuestDrop, dispatchQuest, if_neg (not_not.mpr rfl), hNone] at hSome
    exact Bool.false_ne_true hSome
  · intro h
    have hFinite : {u | ∃ t, Asks store t u}.Finite := by
      refine (finite_found store).subset ?_
      rintro u ⟨t, before, item, after, -, -, -, hFound, -⟩
      exact ⟨item.reference, hFound⟩
    obtain ⟨depth, hDepth⟩ := ends_of_not_endless hFinite hGood (fun f a hf => hasQuestDropWhole_isSome hf) h
    refine ⟨depth, ?_⟩
    rw [hasQuestDrop, dispatchQuest, if_neg (not_not.mpr rfl)]
    exact hDepth depth (le_refl _) ()

end Quest

end LootTemplate

open LootTemplate

/-- Both recursions from a template over loaded tables, with what they end on. -/
theorem recursion_ends_iff (c : Config) (referenceRows rows : List Row) (t : LootTemplate) (rate : Bool)
    (lootMode : Nat) :
    (ProcessEnds c (LootStore.loadLootTable c referenceRows) rate lootMode t ↔
      ¬ Endless (Live c (LootStore.loadLootTable c referenceRows) rate lootMode) t) ∧
    ((∃ depth, (hasQuestDrop (LootStore.loadLootTable c rows) depth t 0).isSome = true) ↔
      ¬ Endless (Asks (LootStore.loadLootTable c rows)) t) :=
  ⟨processEnds_iff, questDropEnds_iff⟩

def plainConfig : Config where
  world := ⟨fun _ => none⟩
  hasCurrency _ := false
  qualityRate _ := 1
  rateDropItemReferenced := 1
  rateDropItemReferencedAmount := 1
  maxDuplicates := 1

def selfReference : Row :=
  { entry := 1, item := 1, reference := 1, chance := 100, needsQuest := false, lootmode := 1, groupid := 0,
    mincount := 1, maxcount := 1, conditions := [] }

theorem selfReference_loaded :
    (LootStore.loadLootTable plainConfig [selfReference]).getLootFor 1 = some ⟨[selfReference.storeItem], []⟩ := by
  rfl

theorem selfReference_count : plainConfig.referenceCount selfReference.storeItem = 1 := by
  have hProduct : (((1 : Nat) : ℚ) * 1) = ((1 : Int) : ℚ) := by norm_num
  have hCount : plainConfig.referenceCount selfReference.storeItem = (((1 : Nat) : ℚ) * 1).floor.toNat := rfl
  rw [hCount, hProduct, Rat.floor_intCast]
  rfl

/-- The row is accepted, and neither recursion ends. -/
theorem self_reference_endless :
    selfReference.storeItem.isValid plainConfig = true ∧
    ∃ t, (LootStore.loadLootTable plainConfig [selfReference]).getLootFor 1 = some t ∧
      ¬ ProcessEnds plainConfig (LootStore.loadLootTable plainConfig [selfReference]) false 1 t ∧
      ¬ ∃ depth, (hasQuestDrop (LootStore.loadLootTable plainConfig [selfReference]) depth t 0).isSome = true := by
  refine ⟨by decide, _, selfReference_loaded, ?_, ?_⟩
  · rw [processEnds_iff, not_not]
    refine ⟨_, Relation.ReflTransGen.refl, Relation.TransGen.single ?_⟩
    exact ⟨_, List.mem_cons_self, by decide, Or.inl (by decide), by decide, selfReference_loaded, rfl,
      by rw [selfReference_count]; exact Nat.one_pos⟩
  · rw [questDropEnds_iff, not_not]
    refine ⟨_, Relation.ReflTransGen.refl, Relation.TransGen.single ?_⟩
    exact ⟨[], _, [], rfl, fun _ h => absurd h List.not_mem_nil, by decide, selfReference_loaded, rfl⟩

end AshamaneCore.LootTemplates
