import AshamaneCore.Game.ReputationSessions

/-!
# Reputations after a reload

A load gives every faction its default and then replays its row, if it has one. What is
saved and loaded again comes back but for the wars that loading imposes and the factions
that start inactive.
-/

namespace AshamaneCore.Reputations

open Library Library.Transition

variable {r : Rules} {f g : FactionEntry} {p : PlayerReputations} {row : ReputationRow}

/-! ## Loading the rows -/

/-- What the load of a row makes of the default. -/
def Rules.loadedKept (r : Rules) (f : FactionEntry) (row : ReputationRow) : Kept :=
  Kept.load ⟨r.newFaction f, true⟩ row (reputationToRank (r.baseReputation f + row.standing))

def Holds (p : PlayerReputations) (index : Int) (k : Kept) : Prop :=
  p.mgr.factions index = some k.state ∧ p.needSave index = k.needSave

theorem Holds.kept {index : Int} {k : Kept} (h : Holds p index k) : p.kept index = k := by
  rw [kept_of_state h.1, h.2]

theorem loadedKept_standing (f : FactionEntry) (row : ReputationRow) :
    (r.loadedKept f row).state.standing = row.standing := by
  rw [Rules.loadedKept, Kept.load_state, Kept.replay_standing]

theorem loadedKept_regular (f : FactionEntry) (row : ReputationRow) :
    Regular (r.newFaction f) (r.loadedKept f row).state := by
  rw [Rules.loadedKept, Kept.load_state]
  exact Kept.replay_regular _ _ _ (Regular.refl _)

theorem loadedKept_changed (f : FactionEntry) (row : ReputationRow) : (r.loadedKept f row).state.changed = false := by
  rw [Rules.loadedKept, Kept.load_state, Kept.replay_changed]
  rfl

theorem loadedKept_needSave (f : FactionEntry) (row : ReputationRow) :
    (r.loadedKept f row).needSave = true ↔ (r.loadedKept f row).state.flags.toUInt16 ≠ row.flags := by
  have hState : (r.loadedKept f row).state = _ := Kept.load_state _ _ _
  rw [hState, Rules.loadedKept, Kept.load_eq, Kept.settle]
  split
  · rename_i hSame
    exact iff_of_false Bool.false_ne_true (not_not_intro hSame)
  · rename_i hDiffer
    exact iff_of_true (Kept.replay_needSave _ _ _ rfl) hDiffer

theorem loadedKept_visible (f : FactionEntry) (row : ReputationRow) :
    (r.loadedKept f row).state.has flagVisible = ((r.newFaction f).has flagVisible ||
      (row.has flagVisible && (r.newFaction f).becomesVisible)) := by
  rw [Rules.loadedKept, Kept.load_state, Kept.replay_visible, FactionState.becomesVisible_eq]
  cases (r.newFaction f).has flagVisible
  · rw [Bool.not_false, Bool.and_true]
  · rw [Bool.true_or, Bool.true_or]

/-- The rows that are done are loaded, every other faction is as it starts. -/
structure Loaded (r : Rules) (done : List ReputationRow) (p : PlayerReputations) : Prop where
  counted : Counted r r.store.entries p.mgr
  clear : ∀ index state, p.mgr.factions index = some state → state.changed = false
  fresh : ∀ f ∈ r.store.entries, f.canHaveReputation = true → (∀ row ∈ done, row.key ≠ f.id) →
    Holds p f.reputationIndex ⟨r.newFaction f, true⟩
  loaded : ∀ f ∈ r.store.entries, f.canHaveReputation = true → ∀ row ∈ done, row.key = f.id →
    Holds p f.reputationIndex (r.loadedKept f row)

variable {done : List ReputationRow}

theorem Loaded.skip (h : Loaded r done p)
    (hNone : ∀ f ∈ r.store.entries, f.canHaveReputation = true → row.key ≠ f.id) : Loaded r (done ++ [row]) p := by
  refine ⟨h.counted, h.clear, fun f hf hHas hFresh => ?_, fun f hf hHas found hFound hKey => ?_⟩
  · exact h.fresh f hf hHas fun found hFound => hFresh found (List.mem_append_left _ hFound)
  · rcases List.mem_append.mp hFound with hDone | hSelf
    · exact h.loaded f hf hHas found hDone hKey
    · rw [List.mem_singleton.mp hSelf] at hKey
      exact absurd hKey (hNone f hf hHas)

theorem Loaded.load (h : Loaded r done p) (hf : f ∈ r.store.entries) (hHas : f.canHaveReputation = true)
    (hKey : row.key = f.id) (hNew : ∀ other ∈ done, other.key ≠ row.key) :
    Loaded r (done ++ [row]) (r.loadRow p row) := by
  have hFresh := h.fresh f hf hHas fun other hOther => hKey ▸ hNew other hOther
  have hEq : r.loadRow p row = ⟨replaceState p.mgr f (r.loadedKept f row).state
        (row.has flagVisible && (r.newFaction f).becomesVisible)
        (reputationToRank ((r.newFaction f).standing + r.baseReputation f))
        (reputationToRank ((r.loadedKept f row).state.standing + r.baseReputation f)),
      Function.update p.needSave f.reputationIndex (r.loadedKept f row).needSave⟩ := by
    have hStart : (r.newFaction f).standing + r.baseReputation f = r.baseReputation f := Int.zero_add _
    rw [loadedKept_standing, hStart, Int.add_comm row.standing, Rules.loadRow, hKey, lookupEntry_of_mem hf]
    simp only [hHas, if_true, hFresh.kept]
    rfl
  have hSelf : Holds (r.loadRow p row) f.reputationIndex (r.loadedKept f row) := by
    rw [hEq]
    exact ⟨Function.update_self _ _ _, Function.update_self _ _ _⟩
  have hOther : ∀ index, index ≠ f.reputationIndex → ∀ k, Holds p index k → Holds (r.loadRow p row) index k := by
    intro index hNe k hHolds
    rw [hEq]
    exact ⟨(Function.update_of_ne hNe _ _).trans hHolds.1, (Function.update_of_ne hNe _ _).trans hHolds.2⟩
  have hApart : ∀ g ∈ r.store.entries, g.canHaveReputation = true → g ≠ f → g.reputationIndex ≠ f.reputationIndex :=
    fun g hg hgHas hNe => r.store.distinct.index_ne hf hg hHas hgHas hNe
  constructor
  · rw [hEq]
    refine h.counted.replaceState r.store.distinct hf hHas hFresh.1 (loadedKept_visible f row) ?_ ?_
    · exact fun hShown => not_visible_of_becomes (Bool.and_eq_true_iff.mp hShown).2
    · exact fun hChanged => absurd ((loadedKept_changed f row).symm.trans hChanged) Bool.false_ne_true
  · intro index state hState
    obtain rfl | hNe := eq_or_ne index f.reputationIndex
    · obtain rfl := Option.some.inj (hSelf.1.symm.trans hState)
      exact loadedKept_changed f row
    · rw [hEq] at hState
      exact h.clear index state ((Function.update_of_ne hNe _ _).symm.trans hState)
  · intro g hg hgHas hgFresh
    have hNe : g ≠ f := by
      rintro rfl
      exact hgFresh row (List.mem_append_right _ (List.mem_singleton_self row)) hKey
    exact hOther _ (hApart g hg hgHas hNe) _
      (h.fresh g hg hgHas fun other hMem => hgFresh other (List.mem_append_left _ hMem))
  · intro g hg hgHas found hFound hgKey
    rcases List.mem_append.mp hFound with hDone | hLast
    · have hNe : g ≠ f := by
        rintro rfl
        exact hNew found hDone (hgKey.trans hKey.symm)
      exact hOther _ (hApart g hg hgHas hNe) _ (h.loaded g hg hgHas found hDone hgKey)
    · obtain rfl := List.mem_singleton.mp hLast
      have hSame : g = f := List.inj_on_of_nodup_map r.store.ids hg hf (hgKey.symm.trans hKey)
      rw [hSame]
      exact hSelf

theorem Loaded.addRow (h : Loaded r done p) (hNew : ∀ other ∈ done, other.key ≠ row.key) :
    Loaded r (done ++ [row]) (r.loadRow p row) := by
  by_cases hEntry : ∃ f ∈ r.store.entries, f.canHaveReputation = true ∧ row.key = f.id
  · obtain ⟨f, hf, hHas, hKey⟩ := hEntry
    exact h.load hf hHas hKey hNew
  · have hSkip : r.loadRow p row = p := by
      rw [Rules.loadRow]
      split
      · rfl
      · rename_i f hLookup
        refine if_neg fun hHas => hEntry ⟨f, mem_of_lookupEntry hLookup, hHas, ?_⟩
        exact (by simpa using List.find?_some hLookup : f.id = row.key).symm
    rw [hSkip]
    exact h.skip fun f hf hHas hKey => hEntry ⟨f, hf, hHas, hKey⟩

theorem state_initializeFactions (hf : f ∈ r.store.entries) (hHas : f.canHaveReputation = true) :
    r.initializeFactions.factions f.reputationIndex = some (r.newFaction f) := by
  have hAll : ∀ l, Distinct l → ∀ f ∈ l, f.canHaveReputation = true →
      Rules.getState (l.foldl r.addFaction ⟨fun _ => none, 0, 0, 0, 0⟩) f = some (r.newFaction f) := by
    intro l
    induction l using List.reverseRecOn with
    | nil => exact fun _ f hf => absurd hf List.not_mem_nil
    | append_singleton l g ih =>
      intro hDistinct f hf hHas
      rw [List.foldl_append, List.foldl_cons, List.foldl_nil]
      rcases List.mem_append.mp hf with hOld | hLast
      · by_cases hgHas : g.canHaveReputation = true
        · rw [(getState_addFaction hDistinct hgHas).2 f hOld]
          exact ih hDistinct.init f hOld hHas
        · rw [Rules.addFaction, if_neg hgHas]
          exact ih hDistinct.init f hOld hHas
      · obtain rfl := List.mem_singleton.mp hLast
        exact (getState_addFaction hDistinct hHas).1
  exact (getState_of_has hHas).symm.trans (hAll _ r.store.distinct f hf hHas)

theorem loaded_initializeReputations : Loaded r [] r.initializeReputations := by
  refine ⟨counted_initializeFactions r, ?_, fun f hf hHas _ => ⟨state_initializeFactions hf hHas, rfl⟩, ?_⟩
  · intro index state hState
    obtain ⟨f, hf, hHas, rfl⟩ := (counted_initializeFactions r).listed index state hState
    obtain rfl := Option.some.inj ((state_initializeFactions hf hHas).symm.trans hState)
    rfl
  · exact fun f _ _ row hRow => absurd hRow List.not_mem_nil

variable {rows : List ReputationRow}

theorem loaded_loadFromDB (hKeys : (rows.map ReputationRow.key).Nodup) :
    Loaded r rows (r.loadFromDB rows) := by
  induction rows using List.reverseRecOn with
  | nil => exact loaded_initializeReputations
  | append_singleton rows row ih =>
    rw [List.map_append, List.nodup_append'] at hKeys
    rw [Rules.loadFromDB, List.foldl_append]
    refine (ih hKeys.1).addRow fun other hOther hSame => ?_
    exact hKeys.2.2 (List.mem_map_of_mem hOther) (List.mem_singleton.mpr hSame)

theorem Loaded.sound (h : Loaded r rows p) : Sound r rows p := by
  have hEither : ∀ f ∈ r.store.entries, f.canHaveReputation = true →
      Holds p f.reputationIndex ⟨r.newFaction f, true⟩ ∨
        ∃ row ∈ rows, row.key = f.id ∧ Holds p f.reputationIndex (r.loadedKept f row) := by
    intro f hf hHas
    by_cases hRow : ∃ row ∈ rows, row.key = f.id
    · obtain ⟨row, hMem, hKey⟩ := hRow
      exact Or.inr ⟨row, hMem, hKey, h.loaded f hf hHas row hMem hKey⟩
    · exact Or.inl (h.fresh f hf hHas fun row hMem hKey => hRow ⟨row, hMem, hKey⟩)
  refine ⟨h.counted, h.clear, fun f hf hHas state hState => ?_, fun index state hState hSaved => ?_⟩
  · rcases hEither f hf hHas with hFresh | ⟨row, -, -, hLoaded⟩
    · obtain rfl := Option.some.inj (hFresh.1.symm.trans hState)
      exact Regular.refl _
    · obtain rfl := Option.some.inj (hLoaded.1.symm.trans hState)
      exact loadedKept_regular f row
  · obtain ⟨f, hf, hHas, rfl⟩ := h.counted.listed index state hState
    rcases hEither f hf hHas with hFresh | ⟨row, hMem, hKey, hLoaded⟩
    · exact absurd (hFresh.2.symm.trans hSaved) Bool.false_ne_true.symm
    · obtain rfl := Option.some.inj (hLoaded.1.symm.trans hState)
      have hFlags : (r.loadedKept f row).state.flags.toUInt16 = row.flags := by
        by_contra hDiffer
        have hMark := (loadedKept_needSave f row).mpr hDiffer
        rw [← hLoaded.2, hSaved] at hMark
        cases hMark
      have hId : UInt16.ofNat (r.loadedKept f row).state.id = row.faction := by
        rw [(loadedKept_regular f row).id]
        exact (congrArg UInt16.ofNat hKey.symm).trans UInt16.ofNat_toNat
      rw [FactionState.toRow, hFlags, hId, loadedKept_standing]
      exact hMem

/-! ## Saving -/

theorem mem_savedRows : row ∈ r.savedRows p ↔ ∃ f ∈ r.store.entries, f.canHaveReputation = true ∧
    p.needSave f.reputationIndex = true ∧ ∃ state, p.mgr.factions f.reputationIndex = some state ∧
      state.toRow = row := by
  rw [Rules.savedRows, List.mem_filterMap]
  constructor
  · rintro ⟨f, hMem, hRow⟩
    obtain ⟨hIn, hMark⟩ := List.mem_filter.mp hMem
    obtain ⟨hf, hHas⟩ := List.mem_filter.mp hIn
    exact ⟨f, hf, hHas, hMark, Option.map_eq_some_iff.mp hRow⟩
  · rintro ⟨f, hf, hHas, hMark, hRow⟩
    exact ⟨f, List.mem_filter.mpr ⟨List.mem_filter.mpr ⟨hf, hHas⟩, hMark⟩, Option.map_eq_some_iff.mpr hRow⟩

section Saves

variable {rows : List ReputationRow} (hIds : ∀ f ∈ r.store.entries, f.id < 65536) (h : Sound r rows p)

include hIds h

theorem Sound.toRow_key (hf : f ∈ r.store.entries) (hHas : f.canHaveReputation = true) {state : FactionState}
    (hState : p.mgr.factions f.reputationIndex = some state) : state.toRow.key = f.id := by
  have hId : state.id = f.id := (h.regular f hf hHas state hState).id
  rw [ReputationRow.key, FactionState.toRow, hId]
  exact UInt16.toNat_ofNat_of_lt' (hIds f hf)

theorem Sound.key_of_saved (hRow : row ∈ r.savedRows p) :
    ∃ f ∈ r.store.entries, f.canHaveReputation = true ∧ p.needSave f.reputationIndex = true ∧ row.key = f.id := by
  obtain ⟨f, hf, hHas, hMark, state, hState, rfl⟩ := mem_savedRows.mp hRow
  exact ⟨f, hf, hHas, hMark, h.toRow_key hIds hf hHas hState⟩

theorem Sound.savedRows_nodup : ((r.savedRows p).map ReputationRow.key).Nodup := by
  have hKeys : (r.savedRows p).map ReputationRow.key =
      ((r.store.entries.filter FactionEntry.canHaveReputation).filter
        fun f => p.needSave f.reputationIndex).map FactionEntry.id := by
    rw [Rules.savedRows, List.map_filterMap, ← List.filterMap_eq_map]
    refine List.filterMap_congr fun f hMem => ?_
    obtain ⟨hf, hHas⟩ := List.mem_filter.mp (List.mem_of_mem_filter hMem)
    obtain ⟨state, hState⟩ := h.counted.stored f hf hHas
    rw [hState, Option.map_some, Option.map_some, h.toRow_key hIds hf hHas hState]
    rfl
  rw [hKeys]
  exact ((List.filter_sublist.trans List.filter_sublist).map _).nodup r.store.ids

theorem Sound.saved_iff (hf : f ∈ r.store.entries) (hHas : f.canHaveReputation = true) :
    (∃ row ∈ r.savedRows p, row.key = f.id) ↔ p.needSave f.reputationIndex = true := by
  constructor
  · rintro ⟨row, hRow, hKey⟩
    obtain ⟨g, hg, -, hMark, hgKey⟩ := h.key_of_saved hIds hRow
    rwa [List.inj_on_of_nodup_map r.store.ids hf hg (hKey.symm.trans hgKey)]
  · intro hMark
    obtain ⟨state, hState⟩ := h.counted.stored f hf hHas
    exact ⟨state.toRow, mem_savedRows.mpr ⟨f, hf, hHas, hMark, state, hState, rfl⟩, h.toRow_key hIds hf hHas hState⟩

theorem Sound.mem_saveToDB {table : ReputationTable} (hRows : rows.Perm table.entries) (hf : f ∈ r.store.entries)
    (hHas : f.canHaveReputation = true) {state : FactionState}
    (hState : p.mgr.factions f.reputationIndex = some state) :
    state.toRow ∈ (r.saveToDB p table).2.entries := by
  refine (KeyedSet.mem_foldl_assign (h.savedRows_nodup hIds)).mpr ?_
  cases hMark : p.needSave f.reputationIndex with
  | true => exact Or.inl (mem_savedRows.mpr ⟨f, hf, hHas, hMark, state, hState, rfl⟩)
  | false =>
    refine Or.inr ⟨hRows.mem_iff.mp (h.synced _ state hState hMark), fun row hRow hSame => ?_⟩
    have hKey := hSame.symm.trans (h.toRow_key hIds hf hHas hState)
    exact Bool.false_ne_true (hMark.symm.trans ((h.saved_iff hIds hf hHas).mp ⟨row, hRow, hKey⟩))

end Saves

/-! ## Round trips -/

def Rules.session (r : Rules) (rows : List ReputationRow) (calls : List ReputationCall) : PlayerReputations :=
  run r.request (r.loadFromDB rows) calls

/-- Every state comes back as far as loading restores it, with its rank and all counters. -/
structure ComesBack (r : Rules) (before after : PlayerReputations) : Prop where
  states : ∀ f ∈ r.store.entries, f.canHaveReputation = true → ∃ state loaded,
    before.mgr.factions f.reputationIndex = some state ∧ after.mgr.factions f.reputationIndex = some loaded ∧
      Restored (r.newFaction f) state loaded (r.getRank before.mgr f)
  ranks : ∀ f ∈ r.store.entries, r.getRank after.mgr f = r.getRank before.mgr f
  honored : after.mgr.honoredFactionCount = before.mgr.honoredFactionCount
  revered : after.mgr.reveredFactionCount = before.mgr.reveredFactionCount
  exalted : after.mgr.exaltedFactionCount = before.mgr.exaltedFactionCount
  visible : after.mgr.visibleFactionCount = before.mgr.visibleFactionCount

/-- The faction had no row, or loading corrects the flags of its row. -/
def Rules.Stale (r : Rules) (rows : List ReputationRow) (f : FactionEntry) : Prop :=
  (∀ row ∈ rows, row.key ≠ f.id) ∨
    ∃ row ∈ rows, row.key = f.id ∧ (r.loadedKept f row).state.flags.toUInt16 ≠ row.flags

theorem Loaded.stale_iff (h : Loaded r rows p) (hf : f ∈ r.store.entries)
    (hHas : f.canHaveReputation = true) : p.needSave f.reputationIndex = true ↔ r.Stale rows f := by
  constructor
  · intro hMark
    by_cases hRow : ∃ row ∈ rows, row.key = f.id
    · obtain ⟨row, hMem, hKey⟩ := hRow
      rw [(h.loaded f hf hHas row hMem hKey).2] at hMark
      exact Or.inr ⟨row, hMem, hKey, (loadedKept_needSave f row).mp hMark⟩
    · exact Or.inl fun row hMem hKey => hRow ⟨row, hMem, hKey⟩
  · rintro (hNone | ⟨row, hMem, hKey, hDiffer⟩)
    · exact (h.fresh f hf hHas hNone).2
    · rw [(h.loaded f hf hHas row hMem hKey).2]
      exact (loadedKept_needSave f row).mpr hDiffer

theorem comesBack_of_states {before after : PlayerReputations} (hBefore : Counted r r.store.entries before.mgr)
    (hAfter : Counted r r.store.entries after.mgr)
    (hStates : ∀ f ∈ r.store.entries, f.canHaveReputation = true → ∃ state loaded,
      before.mgr.factions f.reputationIndex = some state ∧ after.mgr.factions f.reputationIndex = some loaded ∧
        Restored (r.newFaction f) state loaded (r.getRank before.mgr f)) : ComesBack r before after := by
  have hSame : ∀ f ∈ r.store.entries, r.getRank after.mgr f = r.getRank before.mgr f ∧
      isVisible after.mgr f = isVisible before.mgr f := by
    intro f hf
    cases hHas : f.canHaveReputation with
    | false =>
      have hNone : ∀ m, Rules.getState m f = none := fun m => getState_of_hasNot hHas
      rw [Rules.getRank, Rules.getRank, Rules.getReputation, Rules.getReputation, isVisible, isVisible, hNone, hNone]
      exact ⟨rfl, rfl⟩
    | true =>
      obtain ⟨state, loaded, hState, hLoaded, hRestored⟩ := hStates f hf hHas
      rw [getRank_of_state ((getState_of_has hHas).trans hState), isVisible_of_state ((getState_of_has hHas).trans hState),
        getRank_of_state ((getState_of_has hHas).trans hLoaded),
        isVisible_of_state ((getState_of_has hHas).trans hLoaded), hRestored.standing, hRestored.visible]
      exact ⟨rfl, rfl⟩
  have hAtLeast : ∀ threshold, r.store.entries.countP (atLeast r threshold after.mgr) =
      r.store.entries.countP (atLeast r threshold before.mgr) :=
    fun threshold => List.countP_congr fun f hf => by rw [atLeast, atLeast, (hSame f hf).1]
  refine ⟨hStates, fun f hf => (hSame f hf).1, ?_, ?_, ?_, ?_⟩
  · rw [hAfter.honored, hBefore.honored, hAtLeast]
  · rw [hAfter.revered, hBefore.revered, hAtLeast]
  · rw [hAfter.exalted, hBefore.exalted, hAtLeast]
  · rw [hAfter.visible, hBefore.visible, List.countP_congr fun f hf => by rw [(hSame f hf).2]]

/-- What a session leaves is saved and comes back by any listing of the rows; a row is
written for the factions without a row that loads as it is, and for those that a request
touched; the other rows stay. -/
theorem reputations_come_back (r : Rules) (hIds : ∀ f ∈ r.store.entries, f.id < 65536) (table : ReputationTable)
    (rows reread : List ReputationRow) (hRows : rows.Perm table.entries) (calls : List ReputationCall)
    (hReread : reread.Perm (r.saveToDB (r.session rows calls) table).2.entries) :
    ComesBack r (r.session rows calls) (r.loadFromDB reread) ∧
    (∀ f ∈ r.store.entries, f.canHaveReputation = true →
      ((∃ row ∈ r.savedRows (r.session rows calls), row.key = f.id) ↔ r.Stale rows f ∨
        ¬ Along r.request (fun p call => ¬ r.Touches f.reputationIndex p call) (r.loadFromDB rows) calls)) ∧
    ∀ row, (∀ saved ∈ r.savedRows (r.session rows calls), row.key ≠ saved.key) →
      (row ∈ (r.saveToDB (r.session rows calls) table).2.entries ↔ row ∈ table.entries) := by
  have hLoaded : Loaded r rows (r.loadFromDB rows) :=
    loaded_loadFromDB ((hRows.map _).nodup_iff.mpr table.nodup_keys)
  have hSound : Sound r rows (r.session rows calls) := hLoaded.sound.run calls
  have hAgain : Loaded r reread (r.loadFromDB reread) :=
    loaded_loadFromDB ((hReread.map _).nodup_iff.mpr (KeyedSet.nodup_keys _))
  refine ⟨comesBack_of_states hSound.counted hAgain.counted fun f hf hHas => ?_, fun f hf hHas => ?_, ?_⟩
  · obtain ⟨state, hState⟩ := hSound.counted.stored f hf hHas
    have hRow := hReread.mem_iff.mpr (hSound.mem_saveToDB hIds hRows hf hHas hState)
    refine ⟨state, _, hState, (hAgain.loaded f hf hHas _ hRow (hSound.toRow_key hIds hf hHas hState)).1, ?_⟩
    rw [getRank_of_state ((getState_of_has hHas).trans hState), Int.add_comm]
    exact (hSound.regular f hf hHas state hState).restored true _
  · rw [hSound.saved_iff hIds hf hHas, ← hLoaded.stale_iff hf hHas]
    exact hLoaded.sound.run_needSave calls
  · intro row hOther
    refine (KeyedSet.mem_foldl_assign (hSound.savedRows_nodup hIds)).trans ?_
    constructor
    · rintro (hSaved | ⟨hMem, -⟩)
      · exact absurd rfl (hOther row hSaved)
      · exact hMem
    · exact fun hMem => Or.inr ⟨hMem, hOther⟩

def reavers : FactionEntry := ⟨21, fun _ => 1, fun _ => 0, fun _ => -4000, fun _ => 3, fun _ => 0, 0, 0, 0⟩

def reaverRules : Rules := ⟨⟨[reavers], List.nodup_singleton _, List.nodup_singleton _⟩, 1, 1, fun _ => none, 1⟩

def truce : List ReputationCall := [.setAtWar 0 false]

theorem reavers_come_back :
    ComesBack reaverRules (reaverRules.session [] truce)
      (reaverRules.loadFromDB (reaverRules.saveToDB (reaverRules.session [] truce) KeyedSet.empty).2.entries) :=
  (reputations_come_back reaverRules (by decide) KeyedSet.empty [] _ (List.Perm.refl _) truce
    (List.Perm.refl _)).1

def savedFlags : List UInt8 := [flagVisible, flagInactive, flagAtWar]

structure Unchanged (r : Rules) (before after : PlayerReputations) : Prop where
  states : ∀ f ∈ r.store.entries, f.canHaveReputation = true → ∃ state loaded,
    before.mgr.factions f.reputationIndex = some state ∧ after.mgr.factions f.reputationIndex = some loaded ∧
      loaded.standing = state.standing ∧ ∀ flag ∈ savedFlags, loaded.has flag = state.has flag
  ranks : ∀ f ∈ r.store.entries, r.getRank after.mgr f = r.getRank before.mgr f
  honored : after.mgr.honoredFactionCount = before.mgr.honoredFactionCount
  revered : after.mgr.reveredFactionCount = before.mgr.reveredFactionCount
  exalted : after.mgr.exaltedFactionCount = before.mgr.exaltedFactionCount
  visible : after.mgr.visibleFactionCount = before.mgr.visibleFactionCount

/-- The faction is hostile, so the load declares the war again. -/
theorem truce_forgotten :
    ¬ Unchanged reaverRules (reaverRules.session [] truce)
      (reaverRules.loadFromDB (reaverRules.saveToDB (reaverRules.session [] truce) KeyedSet.empty).2.entries) := by
  intro h
  obtain ⟨state, loaded, hState, hLoaded, -, hFlags⟩ := h.states reavers (List.mem_singleton_self _) (by decide)
  have hPeace : (reaverRules.session [] truce).mgr.factions 0 = some ⟨21, 0, 1, false⟩ := by rfl
  have hWar : (reaverRules.loadFromDB (reaverRules.saveToDB (reaverRules.session [] truce)
      KeyedSet.empty).2.entries).mgr.factions 0 = some ⟨21, 0, 3, false⟩ := by rfl
  have hSame := hFlags flagAtWar (by decide)
  obtain rfl := Option.some.inj (hPeace.symm.trans hState)
  obtain rfl := Option.some.inj (hWar.symm.trans hLoaded)
  exact absurd hSame (by decide)

end AshamaneCore.Reputations
