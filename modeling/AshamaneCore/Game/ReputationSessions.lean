import AshamaneCore.Game.ReputationSaves

/-!
# Sessions of reputations

What every request keeps: the counters, the regular flags, and that a state without the
mark is the one its row says. The mark is set by exactly the requests that write the
standing of the faction or change its flags.
-/

namespace AshamaneCore.Reputations

open Library Library.Transition

variable {r : Rules} {l : List FactionEntry} {f g : FactionEntry} {p : PlayerReputations}
  {state : FactionState} {index : Int}

theorem updateRankCounters_self (m : ReputationMgr) (rank : Nat) : Rules.updateRankCounters m rank rank = m := by
  have hSame : ∀ threshold count, Rules.countRank threshold rank rank count = count :=
    fun _ count => UInt8.sub_add_cancel count _
  rw [Rules.updateRankCounters, hSame, hSame, hSame]

theorem countVisible_false (p : PlayerReputations) : p.countVisible false = p := by
  have hSame : p.mgr.visibleFactionCount + 0 = p.mgr.visibleFactionCount := UInt8.add_zero _
  rw [PlayerReputations.countVisible, Rules.countVisible, if_neg Bool.false_ne_true, hSame]

theorem kept_of_state (hState : p.mgr.factions index = some state) : p.kept index = ⟨state, p.needSave index⟩ := by
  rw [PlayerReputations.kept, hState, Option.getD_some]

section Put

variable (k : Kept) (shown : Bool)

theorem state_put : ((p.put index k).countVisible shown).mgr.factions index = some k.state :=
  Function.update_self _ _ _

theorem needSave_put : ((p.put index k).countVisible shown).needSave index = k.needSave := Function.update_self _ _ _

variable {other : Int} (hNe : other ≠ index)

include hNe

theorem state_put_other : ((p.put index k).countVisible shown).mgr.factions other = p.mgr.factions other :=
  Function.update_of_ne hNe _ _

theorem needSave_put_other : ((p.put index k).countVisible shown).needSave other = p.needSave other :=
  Function.update_of_ne hNe _ _

end Put

theorem mgr_put (k : Kept) (shown : Bool) (rank : Nat) :
    ((p.put f.reputationIndex k).countVisible shown).mgr = replaceState p.mgr f k.state shown rank rank :=
  (updateRankCounters_self _ rank).symm

/-! ## What is kept -/

/-- The manager counts right and has no marks, the flags are regular, and a state that
need not be saved has its row. -/
structure Sound (r : Rules) (rows : List ReputationRow) (p : PlayerReputations) : Prop where
  counted : Counted r r.store.entries p.mgr
  clear : ∀ index state, p.mgr.factions index = some state → state.changed = false
  regular : ∀ f ∈ r.store.entries, f.canHaveReputation = true → ∀ state,
    p.mgr.factions f.reputationIndex = some state → Regular (r.newFaction f) state
  synced : ∀ index state, p.mgr.factions index = some state → p.needSave index = false → state.toRow ∈ rows

variable {rows : List ReputationRow}

theorem Sound.entry (h : Sound r rows p) (hState : p.mgr.factions index = some state) :
    ∃ f ∈ r.store.entries, f.canHaveReputation = true ∧ f.reputationIndex = index := h.counted.listed index state hState

theorem toRow_congr {new : FactionState} (hId : new.id = state.id) (hStanding : new.standing = state.standing)
    (hFlags : new.flags = state.flags) : new.toRow = state.toRow := by
  rw [FactionState.toRow, FactionState.toRow, hId, hStanding, hFlags]

theorem Sound.put (h : Sound r rows p) (hState : p.mgr.factions index = some state)
    {set : FactionState → FactionState} (hSet : IsSetter set) {shown : Bool}
    (hShown : (set state).has flagVisible = (state.has flagVisible || shown))
    (hHidden : shown = true → state.has flagVisible = false) :
    Sound r rows ((p.put index ((p.kept index).change set)).countVisible shown) := by
  obtain ⟨f, hf, hHas, rfl⟩ := h.entry hState
  have hKept := kept_of_state hState
  have hChanged := (hSet.changed state).trans (h.clear _ _ hState)
  have hRegular := h.regular f hf hHas state hState
  have hId := (hSet.regular hRegular).id.trans hRegular.id.symm
  constructor
  · rw [mgr_put _ _ (reputationToRank (state.standing + r.baseReputation f)), hKept]
    have hBounds : WithinBounds r f (set state) := fun hTrue => absurd (hChanged.symm.trans hTrue) Bool.false_ne_true
    have hCounted := h.counted.replaceState r.store.distinct hf hHas hState hShown hHidden hBounds
    rwa [hSet.standing] at hCounted
  · intro other found hFound
    obtain rfl | hNe := eq_or_ne other f.reputationIndex
    · obtain rfl := Option.some.inj ((state_put _ shown).symm.trans hFound)
      rw [hKept]
      exact hChanged
    · exact h.clear other found ((state_put_other _ shown hNe).symm.trans hFound)
  · intro g hg hgHas found hFound
    obtain rfl | hNe := eq_or_ne g f
    · obtain rfl := Option.some.inj ((state_put _ shown).symm.trans hFound)
      rw [hKept]
      exact hSet.regular hRegular
    · refine h.regular g hg hgHas found ((state_put_other _ shown ?_).symm.trans hFound)
      exact r.store.distinct.index_ne hf hg hHas hgHas hNe
  · intro other found hFound hSaved
    obtain rfl | hNe := eq_or_ne other f.reputationIndex
    · obtain rfl := Option.some.inj ((state_put _ shown).symm.trans hFound)
      have hMark := (needSave_put _ shown).symm.trans hSaved
      rw [hKept, Kept.change, Bool.or_eq_false_iff, decide_eq_false_iff_not, not_not] at hMark
      rw [hKept, Kept.change, toRow_congr hId (hSet.standing state) hMark.2]
      exact h.synced _ state hState hMark.1
    · exact h.synced other found ((state_put_other _ shown hNe).symm.trans hFound)
        ((needSave_put_other _ shown hNe).symm.trans hSaved)

theorem Sound.put_same (h : Sound r rows p) (hState : p.mgr.factions index = some state)
    {set : FactionState → FactionState} (hSet : IsSetter set)
    (hShown : (set state).has flagVisible = state.has flagVisible) :
    Sound r rows (p.put index ((p.kept index).change set)) := by
  rw [← countVisible_false (p.put _ _)]
  refine h.put hState hSet ?_ fun hFalse => absurd hFalse Bool.false_ne_true
  rw [hShown, Bool.or_false]

theorem Sound.setEntryVisible (h : Sound r rows p) (f : FactionEntry) : Sound r rows (Rules.setEntryVisible p f) := by
  rw [Rules.setEntryVisible]
  split
  · split
    · exact h
    · rename_i state hState
      exact h.put hState isSetter_setVisible has_setVisible not_visible_of_becomes
  · exact h

theorem Sound.setAtWar (h : Sound r rows p) (index : Int) (atWar : Bool) :
    Sound r rows (Rules.setAtWar p index atWar) := by
  rw [Rules.setAtWar]
  split
  · exact h
  · rename_i state hState
    split
    · exact h
    · exact h.put_same hState (isSetter_setAtWar atWar) (FactionState.setAtWar_other (by decide) atWar)

theorem Sound.setInactive (h : Sound r rows p) (index : Int) (inactive : Bool) :
    Sound r rows (Rules.setInactive p index inactive) := by
  rw [Rules.setInactive]
  split
  · exact h
  · rename_i state hState
    exact h.put_same hState (isSetter_setInactive inactive) (FactionState.setInactive_other (by decide) inactive)

/-! ## Changes of standing -/

/-- What a change of standings leaves of the states it started from. -/
structure Changing (r : Rules) (start m : ReputationMgr) : Prop where
  counted : Counted r r.store.entries m
  regular : ∀ f ∈ r.store.entries, f.canHaveReputation = true → ∀ state,
    m.factions f.reputationIndex = some state → Regular (r.newFaction f) state
  same : ∀ index state, m.factions index = some state → state.changed = false → start.factions index = some state

theorem changeState_changed (reputation : Int) : (r.changeState f state reputation).changed = true := by
  rw [Rules.changeState]
  split
  · exact (setAtWar_frame true).2.trans setVisible_frame.2
  · exact setVisible_frame.2

theorem changeState_regular {default : FactionState} (h : Regular default state) (reputation : Int) :
    Regular default (r.changeState f state reputation) := by
  have hWritten : Regular default { state with standing := reputation - r.baseReputation f, changed := true } :=
    h.of_flags rfl rfl
  rw [Rules.changeState]
  split
  · exact hWritten.setVisible.setAtWar true
  · exact hWritten.setVisible

section Applied

variable {m : ReputationMgr} (reputation : Int)

theorem state_applyChange : (r.applyChange m f state reputation).factions f.reputationIndex =
    some (r.changeState f state reputation) := Function.update_self _ _ _

theorem state_applyChange_other {other : Int} (hNe : other ≠ f.reputationIndex) :
    (r.applyChange m f state reputation).factions other = m.factions other := Function.update_of_ne hNe _ _

end Applied

variable {m : ReputationMgr}

theorem Changing.setOneFactionReputation {start : ReputationMgr} (h : Changing r start m)
    (hf : f ∈ r.store.entries) (standing : Int) (incremental : Bool) :
    Changing r start (r.setOneFactionReputation m f standing incremental).1 := by
  have hCounted := h.counted.setOneFactionReputation hf standing incremental
  rw [Rules.setOneFactionReputation] at hCounted ⊢
  split
  · exact h
  · rename_i state hState
    rw [hState] at hCounted
    obtain ⟨g, -, hOwn, hIndex⟩ := h.counted.listed _ state hState
    have hHas : f.canHaveReputation = true := by
      rw [FactionEntry.canHaveReputation, ← hIndex]
      exact hOwn
    refine ⟨hCounted, ?_, ?_⟩
    · intro g hg hgHas found hFound
      obtain rfl | hNe := eq_or_ne g f
      · obtain rfl := Option.some.inj ((state_applyChange _).symm.trans hFound)
        exact changeState_regular (h.regular g hg hHas state hState) _
      · refine h.regular g hg hgHas found ((state_applyChange_other _ ?_).symm.trans hFound)
        exact r.store.distinct.index_ne hf hg hHas hgHas hNe
    · intro other found hFound hSame
      obtain rfl | hNe := eq_or_ne other f.reputationIndex
      · obtain rfl := Option.some.inj ((state_applyChange _).symm.trans hFound)
        exact absurd ((changeState_changed _).symm.trans hSame) Bool.false_ne_true.symm
      · exact h.same other found ((state_applyChange_other _ hNe).symm.trans hFound) hSame

theorem Sound.changing (h : Sound r rows p) (call : Rules.Call) : Changing r p.mgr (r.step p.mgr call) :=
  step_of_changes (P := Changing r p.mgr) (fun _ _ standing incremental hf hm =>
    hm.setOneFactionReputation hf standing incremental) call ⟨h.counted, h.regular, fun _ _ hState _ => hState⟩

theorem factions_unmarked (h : m.unmarked.factions index = some state) :
    ∃ found, m.factions index = some found ∧ state = { found with changed := false } := by
  obtain ⟨found, hFound, hEq⟩ := Option.map_eq_some_iff.mp h
  exact ⟨found, hFound, hEq.symm⟩

theorem getReputation_unmarked (m : ReputationMgr) (f : FactionEntry) :
    r.getReputation m.unmarked f = r.getReputation m f ∧ isVisible m.unmarked f = isVisible m f := by
  have hState : Rules.getState m.unmarked f =
      (Rules.getState m f).map fun state => { state with changed := false } := by
    rw [Rules.getState, Rules.getState]
    split <;> rfl
  rw [Rules.getReputation, Rules.getReputation, isVisible, isVisible, hState]
  cases Rules.getState m f <;> exact ⟨rfl, rfl⟩

theorem Counted.unmarked (h : Counted r l m) : Counted r l m.unmarked := by
  have hAtLeast : ∀ threshold, atLeast r threshold m.unmarked = atLeast r threshold m := by
    intro threshold
    funext f
    rw [atLeast, atLeast, Rules.getRank, Rules.getRank, (getReputation_unmarked m f).1]
  have hVisible : isVisible m.unmarked = isVisible m := funext fun f => (getReputation_unmarked (r := r) m f).2
  constructor
  · intro f hf hHas
    obtain ⟨state, hState⟩ := h.stored f hf hHas
    exact ⟨_, Option.map_eq_some_iff.mpr ⟨state, hState, rfl⟩⟩
  · intro index state hState
    obtain ⟨found, hFound, -⟩ := factions_unmarked hState
    exact h.listed index found hFound
  · rw [hAtLeast]
    exact h.honored
  · rw [hAtLeast]
    exact h.revered
  · rw [hAtLeast]
    exact h.exalted
  · rw [hVisible]
    exact h.visible
  · intro f hf state hState hChanged
    rw [Rules.getState] at hState
    split at hState
    · obtain ⟨found, -, rfl⟩ := factions_unmarked hState
      exact absurd hChanged Bool.false_ne_true
    · cases hState

theorem Sound.callReputation (h : Sound r rows p) (call : Rules.Call) : Sound r rows (r.callReputation p call) := by
  have hChanging := h.changing call
  constructor
  · exact hChanging.counted.unmarked
  · intro index state hState
    obtain ⟨found, -, rfl⟩ := factions_unmarked hState
    rfl
  · intro f hf hHas state hState
    obtain ⟨found, hFound, rfl⟩ := factions_unmarked hState
    exact (hChanging.regular f hf hHas found hFound).of_flags rfl rfl
  · intro index state hState hSaved
    obtain ⟨found, hFound, rfl⟩ := factions_unmarked hState
    obtain ⟨hBefore, hWritten⟩ := Bool.or_eq_false_iff.mp hSaved
    rw [ReputationMgr.written, hFound] at hWritten
    exact h.synced index found (hChanging.same index found hFound hWritten) hBefore

theorem Sound.request (h : Sound r rows p) (call : ReputationCall) : Sound r rows (r.request p call) := by
  cases call with
  | setReputation call => exact h.callReputation call
  | setTemplateVisible faction =>
    rw [Rules.request]
    split
    · split
      · exact h
      · exact h.setEntryVisible _
    · exact h
  | setVisible faction =>
    rw [Rules.request]
    split
    · exact h.setEntryVisible _
    · exact h
  | setAtWar index atWar => exact h.setAtWar index atWar
  | setInactive index inactive => exact h.setInactive index inactive

/-! ## Marks -/

def PlayerReputations.flags (p : PlayerReputations) (index : Int) : Option UInt8 :=
  (p.mgr.factions index).map FactionState.flags

def Rules.Touches (r : Rules) (index : Int) (p : PlayerReputations) (call : ReputationCall) : Prop :=
  (∃ change, call = .setReputation change ∧ (r.step p.mgr change).written index = true) ∨
    (r.request p call).flags index ≠ p.flags index

def Marks (p new : PlayerReputations) : Prop :=
  ∀ index, new.needSave index = true ↔ p.needSave index = true ∨ new.flags index ≠ p.flags index

theorem marks_self (p : PlayerReputations) : Marks p p :=
  fun _ => (or_iff_left fun hNe => hNe rfl).symm

theorem marks_put (hState : p.mgr.factions index = some state) (set : FactionState → FactionState) (shown : Bool) :
    Marks p ((p.put index ((p.kept index).change set)).countVisible shown) := by
  intro other
  obtain rfl | hNe := eq_or_ne other index
  · have hNew : ((p.put other ((p.kept other).change set)).countVisible shown).flags other =
        some (set state).flags := by
      rw [PlayerReputations.flags, state_put, kept_of_state hState]
      rfl
    have hOld : p.flags other = some state.flags := by rw [PlayerReputations.flags, hState, Option.map_some]
    rw [hNew, hOld, needSave_put, kept_of_state hState, ne_eq, Option.some.injEq]
    exact (Bool.or_eq_true _ _).to_iff.trans (or_congr_right decide_eq_true_iff)
  · rw [needSave_put_other _ _ hNe, PlayerReputations.flags, PlayerReputations.flags, state_put_other _ _ hNe]
    exact (or_iff_left fun hDiffer => hDiffer rfl).symm

theorem marks_put_same (hState : p.mgr.factions index = some state) (set : FactionState → FactionState) :
    Marks p (p.put index ((p.kept index).change set)) := by
  rw [← countVisible_false (p.put _ _)]
  exact marks_put hState set false

theorem marks_setEntryVisible (p : PlayerReputations) (f : FactionEntry) : Marks p (Rules.setEntryVisible p f) := by
  rw [Rules.setEntryVisible]
  split
  · split
    · exact marks_self p
    · rename_i state hState
      exact marks_put hState _ _
  · exact marks_self p

theorem marks_setAtWar (p : PlayerReputations) (index : Int) (atWar : Bool) :
    Marks p (Rules.setAtWar p index atWar) := by
  rw [Rules.setAtWar]
  split
  · exact marks_self p
  · rename_i state hState
    split
    · exact marks_self p
    · exact marks_put_same hState _

theorem marks_setInactive (p : PlayerReputations) (index : Int) (inactive : Bool) :
    Marks p (Rules.setInactive p index inactive) := by
  rw [Rules.setInactive]
  split
  · exact marks_self p
  · rename_i state hState
    exact marks_put_same hState _

theorem Sound.written_of_flags (h : Sound r rows p) {call : Rules.Call}
    (hDiffer : (r.callReputation p call).flags index ≠ p.flags index) : (r.step p.mgr call).written index = true := by
  by_contra hClear
  refine hDiffer ?_
  have hFlags : (r.callReputation p call).flags index =
      ((r.step p.mgr call).factions index).map FactionState.flags := Option.map_map _ _ _
  rw [hFlags, PlayerReputations.flags]
  cases hState : (r.step p.mgr call).factions index with
  | some state =>
    rw [ReputationMgr.written, hState] at hClear
    rw [(h.changing call).same index state hState (Bool.eq_false_iff.mpr hClear)]
  | none =>
    cases hBefore : p.mgr.factions index with
    | none => rfl
    | some state =>
      obtain ⟨f, hf, hHas, rfl⟩ := h.entry hBefore
      obtain ⟨found, hFound⟩ := (h.changing call).counted.stored f hf hHas
      rw [hState] at hFound
      cases hFound

theorem Sound.request_needSave (h : Sound r rows p) (call : ReputationCall) :
    (r.request p call).needSave index = true ↔ p.needSave index = true ∨ r.Touches index p call := by
  have hFlags : (∀ change, call ≠ .setReputation change) →
      (r.Touches index p call ↔ (r.request p call).flags index ≠ p.flags index) :=
    fun hNo => or_iff_right fun ⟨change, hCall, _⟩ => hNo change hCall
  cases call with
  | setReputation call =>
    have hTouches : r.Touches index p (.setReputation call) ↔ (r.step p.mgr call).written index = true := by
      constructor
      · rintro (⟨change, hCall, hWritten⟩ | hDiffer)
        · cases hCall
          exact hWritten
        · exact h.written_of_flags hDiffer
      · exact fun hWritten => Or.inl ⟨call, rfl, hWritten⟩
    rw [hTouches]
    exact (Bool.or_eq_true _ _).to_iff
  | setTemplateVisible faction =>
    rw [hFlags fun _ => nofun, Rules.request]
    split
    · split
      · exact marks_self p index
      · exact marks_setEntryVisible p _ index
    · exact marks_self p index
  | setVisible faction =>
    rw [hFlags fun _ => nofun, Rules.request]
    split
    · exact marks_setEntryVisible p _ index
    · exact marks_self p index
  | setAtWar other atWar =>
    rw [hFlags fun _ => nofun]
    exact marks_setAtWar p other atWar index
  | setInactive other inactive =>
    rw [hFlags fun _ => nofun]
    exact marks_setInactive p other inactive index

theorem Sound.run (h : Sound r rows p) (calls : List ReputationCall) : Sound r rows (run r.request p calls) :=
  invariant (fun _ call hp => hp.request call) h calls

theorem Sound.run_needSave (h : Sound r rows p) (calls : List ReputationCall) :
    (Transition.run r.request p calls).needSave index = true ↔
      p.needSave index = true ∨ ¬ Along r.request (fun p call => ¬ r.Touches index p call) p calls :=
  mark_iff (M := fun p => p.needSave index = true) (fun _ call hp => hp.request call)
    (fun _ call hp => hp.request_needSave call) h calls

end AshamaneCore.Reputations
