import AshamaneCore.Game.Reputation

/-!
# Runs of changes

Every call is a row of changes of single factions, so what a change keeps is kept by all
runs. Whether the counters are the numbers of factions depends on the table alone: it
must not have more factions with a reputation than eight bits count.
-/

namespace AshamaneCore.Reputations

open Library Library.Transition Library.Tally

variable (r : Rules)

/-! ## Initialisation -/

theorem Distinct.init {l : List FactionEntry} {f : FactionEntry} (h : Distinct (l ++ [f])) : Distinct l := by
  constructor
  · exact (List.nodup_append'.mp h.nodup).1
  · have hIndices := h.indices
    rw [List.filter_append, List.map_append] at hIndices
    exact (List.nodup_append'.mp hIndices).1

theorem Distinct.not_mem {l : List FactionEntry} {f : FactionEntry} (h : Distinct (l ++ [f])) : f ∉ l := by
  intro hf
  exact (List.nodup_append'.mp h.nodup).2.2 hf (List.mem_singleton_self f)

variable {r} {l : List FactionEntry} {m : ReputationMgr} {f : FactionEntry}

theorem classes_of_hasNot (hHas : f.canHaveReputation = false) :
    atLeast r repHonored m f = false ∧ atLeast r repRevered m f = false ∧
    atLeast r repExalted m f = false ∧ isVisible m f = false := by
  have hNone := getState_of_hasNot (m := m) hHas
  have hRank : r.getRank m f = reputationToRank 0 := by
    rw [Rules.getRank, Rules.getReputation, hNone]
  refine ⟨?_, ?_, ?_, ?_⟩
  · rw [atLeast, hRank]
    decide
  · rw [atLeast, hRank]
    decide
  · rw [atLeast, hRank]
    decide
  · rw [isVisible, hNone]

theorem Counted.addFaction_hasNot (h : Counted r l m) (hHas : f.canHaveReputation = false) :
    Counted r (l ++ [f]) m := by
  obtain ⟨hHonored, hRevered, hExalted, hVisible⟩ := classes_of_hasNot (r := r) (m := m) hHas
  constructor
  · intro g hg hgHas
    rcases List.mem_append.mp hg with hOld | hNew
    · exact h.stored g hOld hgHas
    · rw [List.mem_singleton.mp hNew, hHas] at hgHas
      cases hgHas
  · intro index state hState
    obtain ⟨g, hg, hRest⟩ := h.listed index state hState
    exact ⟨g, List.mem_append_left _ hg, hRest⟩
  · rw [h.honored, countP_concat, weight, hHonored]
    rfl
  · rw [h.revered, countP_concat, weight, hRevered]
    rfl
  · rw [h.exalted, countP_concat, weight, hExalted]
    rfl
  · rw [h.visible, countP_concat, weight, hVisible]
    rfl
  · intro g hg state hState
    rcases List.mem_append.mp hg with hOld | hNew
    · exact h.bounds g hOld state hState
    · rw [List.mem_singleton.mp hNew, getState_of_hasNot hHas] at hState
      cases hState

theorem getState_addFaction (hDistinct : Distinct (l ++ [f])) (hHas : f.canHaveReputation = true) :
    Rules.getState (r.addFaction m f) f = some (r.newFaction f) ∧
    ∀ g ∈ l, Rules.getState (r.addFaction m f) g = Rules.getState m g := by
  rw [Rules.addFaction, if_pos hHas]
  constructor
  · rw [getState_of_has hHas]
    exact Function.update_self _ _ _
  · intro g hg
    have hNe : g ≠ f := fun hEq => hDistinct.not_mem (hEq ▸ hg)
    cases hgHas : g.canHaveReputation with
    | false => rw [getState_of_hasNot hgHas, getState_of_hasNot hgHas]
    | true =>
      rw [getState_of_has hgHas, getState_of_has hgHas]
      exact Function.update_of_ne (hDistinct.index_ne (List.mem_append_right _ (List.mem_singleton_self f))
        (List.mem_append_left _ hg) hHas hgHas hNe) _ _

theorem countP_addFaction (hDistinct : Distinct (l ++ [f])) (hHas : f.canHaveReputation = true)
    {threshold : Nat} (hThreshold : repHostile < threshold) :
    (l ++ [f]).countP (atLeast r threshold (r.addFaction m f)) +
        (if threshold ≤ repHostile then 1 else 0) =
      l.countP (atLeast r threshold m) + if threshold ≤ r.baseRank f then 1 else 0 := by
  obtain ⟨hNew, hOld⟩ := getState_addFaction (r := r) (m := m) hDistinct hHas
  have hSame : l.countP (atLeast r threshold (r.addFaction m f)) = l.countP (atLeast r threshold m) :=
    List.countP_congr fun g hg => by rw [(classes_congr (r := r) (hOld g hg) threshold).1]
  have hBase : (r.newFaction f).standing + r.baseReputation f = r.baseReputation f := Int.zero_add _
  rw [countP_concat, hSame, weight, atLeast_of_state hNew, hBase, Rules.baseRank, if_neg (Nat.not_le.mpr hThreshold)]
  simp only [decide_eq_true_eq, Nat.add_zero]

theorem Counted.addFaction (h : Counted r l m) (hDistinct : Distinct (l ++ [f])) :
    Counted r (l ++ [f]) (r.addFaction m f) := by
  cases hHas : f.canHaveReputation with
  | false =>
    rw [Rules.addFaction, hHas, if_neg Bool.false_ne_true]
    exact h.addFaction_hasNot hHas
  | true =>
    obtain ⟨hNew, hOld⟩ := getState_addFaction (r := r) (m := m) hDistinct hHas
    have hAdded : r.addFaction m f = Rules.putState
        (Rules.updateRankCounters (Rules.countVisible m ((r.newFaction f).has flagVisible)) repHostile (r.baseRank f))
        f.reputationIndex (r.newFaction f) := if_pos hHas
    constructor
    · intro g hg hgHas
      rcases List.mem_append.mp hg with hMem | hSelf
      · obtain ⟨state, hState⟩ := h.stored g hMem hgHas
        refine ⟨state, (getState_of_has hgHas).symm.trans ((hOld g hMem).trans ?_)⟩
        exact (getState_of_has hgHas).trans hState
      · rw [List.mem_singleton.mp hSelf]
        exact ⟨_, (getState_of_has hHas).symm.trans hNew⟩
    · intro index state hState
      rw [hAdded] at hState
      by_cases hSelf : index = f.reputationIndex
      · exact ⟨f, List.mem_append_right _ (List.mem_singleton_self f), hHas, hSelf.symm⟩
      · obtain ⟨g, hg, hRest⟩ := h.listed index state ((Function.update_of_ne hSelf _ _).symm.trans hState)
        exact ⟨g, List.mem_append_left _ hg, hRest⟩
    · refine (congrArg ReputationMgr.honoredFactionCount hAdded).trans ?_
      exact (congrArg (Rules.countRank _ _ _) h.honored).trans
        (countRank_eq (countP_addFaction hDistinct hHas (by decide)))
    · refine (congrArg ReputationMgr.reveredFactionCount hAdded).trans ?_
      exact (congrArg (Rules.countRank _ _ _) h.revered).trans
        (countRank_eq (countP_addFaction hDistinct hHas (by decide)))
    · refine (congrArg ReputationMgr.exaltedFactionCount hAdded).trans ?_
      exact (congrArg (Rules.countRank _ _ _) h.exalted).trans
        (countRank_eq (countP_addFaction hDistinct hHas (by decide)))
    · have hSame : l.countP (isVisible (r.addFaction m f)) = l.countP (isVisible m) :=
        List.countP_congr fun g hg => by rw [(classes_congr (r := r) (hOld g hg) 0).2]
      rw [countP_concat, hSame, weight, isVisible_of_state hNew, UInt8.ofNat_add, ← h.visible, hAdded]
      refine congrArg (m.visibleFactionCount + ·) ?_
      split <;> rfl
    · intro g hg state hState
      rcases List.mem_append.mp hg with hMem | hSelf
      · exact h.bounds g hMem state ((hOld g hMem).symm.trans hState)
      · rw [List.mem_singleton.mp hSelf, hNew] at hState
        obtain rfl := Option.some.inj hState
        exact fun hChanged => absurd hChanged Bool.false_ne_true

variable (r) in
theorem counted_initializeFactions : Counted r r.store.entries r.initializeFactions := by
  have hAll : ∀ l, Distinct l → Counted r l (l.foldl r.addFaction ⟨fun _ => none, 0, 0, 0, 0⟩) := by
    intro l
    induction l using List.reverseRecOn with
    | nil =>
      intro _
      constructor
      · exact fun g hg => absurd hg List.not_mem_nil
      · exact fun index state hState => absurd hState (Option.some_ne_none state).symm
      · rfl
      · rfl
      · rfl
      · rfl
      · exact fun g hg => absurd hg List.not_mem_nil
    | append_singleton l f ih =>
      intro hDistinct
      rw [List.foldl_append]
      exact (ih hDistinct.init).addFaction hDistinct
  exact hAll r.store.entries r.store.distinct

/-! ## Calls -/

theorem mem_of_lookupEntry {id : Nat} (h : r.lookupEntry id = some f) : f ∈ r.store.entries :=
  List.mem_of_find?_eq_some h

section Calls

variable {P : ReputationMgr → Prop}
  (hOne : ∀ m f standing incremental, f ∈ r.store.entries → P m →
    P (r.setOneFactionReputation m f standing incremental).1)

include hOne

theorem spillByTable_of_changes (standing : Int) (incremental : Bool) (spill : SpilloverFaction) (hm : P m) :
    P (r.spillByTable standing incremental m spill) := by
  rw [Rules.spillByTable]
  split
  · split
    · rename_i g hLookup
      exact hOne m g _ incremental (mem_of_lookupEntry hLookup) hm
    · exact hm
  · exact hm

theorem spillToSister_of_changes (changed : FactionEntry) (amount : Rat) (incremental : Bool)
    {result : ReputationMgr × Bool} (sister : Nat) (hm : P result.1) :
    P (r.spillToSister changed amount incremental result sister).1 := by
  rw [Rules.spillToSister]
  split
  · exact hm
  · rename_i g hLookup
    split
    · exact hm
    · split
      · exact hOne result.1 g _ incremental (mem_of_lookupEntry hLookup) hm
      · exact hm

theorem spillToList_of_changes (changed : FactionEntry) (amount : Rat) (incremental : Bool)
    (list : Option (List Nat)) (hm : P m) : P (r.spillToList changed amount incremental m list).1 :=
  invariant (P := fun result : ReputationMgr × Bool => P result.1)
    (fun _ sister hResult => spillToSister_of_changes hOne changed amount incremental sister hResult) hm _

theorem spillByParent_of_changes (f : FactionEntry) (standing : Int) (incremental : Bool) (hm : P m) :
    P (r.spillByParent m f standing incremental).1 := by
  rw [Rules.spillByParent]
  split
  · exact spillToList_of_changes hOne f _ incremental _ hm
  · split
    · exact hm
    · rename_i parent hLookup
      split
      · exact hOne m parent _ incremental (mem_of_lookupEntry hLookup) hm
      · exact spillToList_of_changes hOne f _ incremental _ hm

theorem spill_of_changes (f : FactionEntry) (standing : Int) (incremental noSpillover : Bool) (hm : P m) :
    P (r.spill m f standing incremental noSpillover).1 := by
  rw [Rules.spill]
  split
  · exact hm
  · split
    · rename_i table _
      exact invariant (fun _ spill hState => spillByTable_of_changes hOne standing incremental spill hState) hm table
    · exact spillByParent_of_changes hOne f standing incremental hm

theorem step_of_changes (call : Rules.Call) (hm : P m) : P (r.step m call) := by
  rw [Rules.step]
  split
  · rename_i f hLookup
    have hSpilled := spill_of_changes hOne f call.standing call.incremental call.noSpillover hm
    rw [Rules.setReputation]
    split
    · exact hSpilled
    · exact hOne _ f call.standing call.incremental (mem_of_lookupEntry hLookup) hSpilled
  · exact hm

end Calls

theorem Counted.setOneFactionReputation (h : Counted r r.store.entries m) (hf : f ∈ r.store.entries)
    (standing : Int) (incremental : Bool) :
    Counted r r.store.entries (r.setOneFactionReputation m f standing incremental).1 := by
  rw [Rules.setOneFactionReputation]
  split
  · exact h
  · rename_i state hState
    obtain ⟨g, hg, hHas, hIndex⟩ := h.listed _ state hState
    have hOwn : f.canHaveReputation = true := by
      rw [FactionEntry.canHaveReputation, ← hIndex]
      exact hHas
    exact h.applyChange r.store.distinct hf hOwn hState _

theorem counted_run (calls : List Rules.Call) :
    Counted r r.store.entries (run r.step r.initializeFactions calls) :=
  invariant (fun _ call hm => step_of_changes (fun _ _ standing incremental hf hm =>
    hm.setOneFactionReputation hf standing incremental) call hm) (counted_initializeFactions r) calls

/-! ## What the counters say -/

/-- The four counters are the numbers of factions in their classes, and what was changed
lies within bounds. -/
structure Accounted (r : Rules) (m : ReputationMgr) : Prop where
  honored : m.honoredFactionCount.toNat = r.store.entries.countP (atLeast r repHonored m)
  revered : m.reveredFactionCount.toNat = r.store.entries.countP (atLeast r repRevered m)
  exalted : m.exaltedFactionCount.toNat = r.store.entries.countP (atLeast r repExalted m)
  visible : m.visibleFactionCount.toNat = r.store.entries.countP (isVisible m)
  bounds : ∀ f ∈ r.store.entries, ∀ state, Rules.getState m f = some state → WithinBounds r f state

def Rules.reputationFactions (r : Rules) : List FactionEntry := r.store.entries.filter FactionEntry.canHaveReputation

theorem Counted.accounted (h : Counted r r.store.entries m) (hFew : r.reputationFactions.length < 256) :
    Accounted r m := by
  have hSmall : ∀ p : FactionEntry → Bool, (∀ f, f.canHaveReputation = false → p f = false) →
      (UInt8.ofNat (r.store.entries.countP p)).toNat = r.store.entries.countP p := by
    intro p hp
    apply UInt8.toNat_ofNat_of_lt'
    refine lt_of_le_of_lt ?_ hFew
    rw [Rules.reputationFactions, ← List.countP_eq_length_filter]
    refine List.countP_mono_left fun f _ hIn => ?_
    by_contra hHas
    rw [hp f (Bool.eq_false_iff.mpr hHas)] at hIn
    cases hIn
  constructor
  · rw [h.honored, hSmall _ fun f hHas => (classes_of_hasNot hHas).1]
  · rw [h.revered, hSmall _ fun f hHas => (classes_of_hasNot hHas).2.1]
  · rw [h.exalted, hSmall _ fun f hHas => (classes_of_hasNot hHas).2.2.1]
  · rw [h.visible, hSmall _ fun f hHas => (classes_of_hasNot (r := r) hHas).2.2.2]
  · exact h.bounds

/-! ## Tables with too many factions -/

def exalt (f : FactionEntry) : Rules.Call := ⟨f.id, reputationCap, false, true⟩

theorem lookupEntry_of_mem (hf : f ∈ r.store.entries) : r.lookupEntry f.id = some f := by
  cases hFind : r.lookupEntry f.id with
  | none =>
    have hNone := List.find?_eq_none.mp hFind f hf
    simp at hNone
  | some g =>
    have hId : g.id = f.id := by simpa using List.find?_some hFind
    rw [List.inj_on_of_nodup_map r.store.ids (mem_of_lookupEntry hFind) hf hId]

theorem step_exalt (h : Counted r r.store.entries m) (hf : f ∈ r.store.entries)
    (hHas : f.canHaveReputation = true) :
    ∃ state, m.factions f.reputationIndex = some state ∧
      r.step m (exalt f) = r.applyChange m f state reputationCap := by
  obtain ⟨state, hState⟩ := h.stored f hf hHas
  refine ⟨state, hState, ?_⟩
  simp only [Rules.step, exalt, lookupEntry_of_mem hf, Rules.setReputation, Rules.spill, if_true, hState,
    Rules.setOneFactionReputation, Rules.newReputation, Bool.false_eq_true, if_false]
  rfl

theorem exalted_run {l : List FactionEntry} (hl : ∀ f ∈ l, f ∈ r.store.entries ∧ f.canHaveReputation = true) :
    ∀ f ∈ l, atLeast r repExalted (run r.step r.initializeFactions (l.map exalt)) f = true := by
  induction l using List.reverseRecOn with
  | nil => exact fun f hf => absurd hf List.not_mem_nil
  | append_singleton l f ih =>
    intro g hg
    obtain ⟨hf, hHas⟩ := hl f (List.mem_append_right _ (List.mem_singleton_self f))
    obtain ⟨state, -, hStep⟩ := step_exalt (counted_run (r := r) (l.map exalt)) hf hHas
    obtain ⟨hNew, hOther⟩ := getState_applyChange (r := r)
      (run r.step r.initializeFactions (l.map exalt)) state r.store.distinct hf hHas reputationCap
    rw [List.map_append, run_append, List.map_singleton, run_cons, run_nil, hStep]
    obtain rfl | hNe := eq_or_ne g f
    · rw [atLeast_of_state hNew, (changeState_spec r g reputationCap).1, Int.sub_add_cancel]
      decide
    · have hBefore : g ∈ l := (List.mem_append.mp hg).resolve_right fun hSelf => hNe (List.mem_singleton.mp hSelf)
      rw [(classes_congr (r := r) (hOther g (hl g hg).1 hNe) repExalted).1]
      exact ih (fun f hf => hl f (List.mem_append_left _ hf)) g hBefore

/-- The counters are the numbers of factions in every run exactly if the table has fewer
than 256 factions with a reputation. -/
theorem counters_exact_iff (r : Rules) :
    (∀ calls, Accounted r (run r.step r.initializeFactions calls)) ↔ r.reputationFactions.length < 256 := by
  constructor
  · intro h
    have hAll := (h (r.reputationFactions.map exalt)).exalted
    have hExalted := exalted_run (r := r) (l := r.reputationFactions) fun f hf => List.mem_filter.mp hf
    have hCount : r.reputationFactions.length ≤
        r.store.entries.countP (atLeast r repExalted
          (run r.step r.initializeFactions (r.reputationFactions.map exalt))) := by
      rw [Rules.reputationFactions, ← List.countP_eq_length_filter]
      exact List.countP_mono_left fun f hf hHas => hExalted f (List.mem_filter.mpr ⟨hf, hHas⟩)
    have hByte := UInt8.toNat_lt (run r.step r.initializeFactions
      (r.reputationFactions.map exalt)).exaltedFactionCount
    omega
  · exact fun hFew calls => (counted_run calls).accounted hFew

/-- Faction i of a table in which everyone starts exalted with every faction. -/
def beloved (i : Nat) : FactionEntry := ⟨i, fun _ => 1, fun _ => 0, fun _ => 42000, fun _ => 0x11, fun _ => 0, 0, 0, i⟩

def belovedStore (n : Nat) : FactionStore where
  entries := (List.range n).map beloved
  ids := by
    rw [List.map_map]
    exact List.Nodup.map (fun _ _ h => h) List.nodup_range
  indices := by
    refine List.Nodup.map_on ?_ ((List.Nodup.map (fun i j h => congrArg FactionEntry.id h) List.nodup_range).filter _)
    intro f hf g hg hIndex
    obtain ⟨i, -, rfl⟩ := List.mem_map.mp (List.mem_of_mem_filter hf)
    obtain ⟨j, -, rfl⟩ := List.mem_map.mp (List.mem_of_mem_filter hg)
    exact congrArg beloved (Int.ofNat_inj.mp hIndex)

def belovedRules : Rules := ⟨belovedStore 256, 1, 1, fun _ => none, 1⟩

/-- With 256 factions all counters start at zero while every faction is exalted. -/
theorem all_exalted_counts_zero :
    belovedRules.initializeFactions.exaltedFactionCount = 0 ∧
    belovedRules.store.entries.countP (atLeast belovedRules repExalted belovedRules.initializeFactions) = 256 ∧
    ¬ ∀ calls, Accounted belovedRules (run belovedRules.step belovedRules.initializeFactions calls) := by
  have hZero : belovedRules.initializeFactions.exaltedFactionCount = 0 := by decide +kernel
  have hAll : belovedRules.store.entries.countP
      (atLeast belovedRules repExalted belovedRules.initializeFactions) = 256 := by decide +kernel
  refine ⟨hZero, hAll, fun h => ?_⟩
  have hExalted := (h []).exalted
  rw [run_nil, hAll, hZero] at hExalted
  exact absurd hExalted (by decide)

end AshamaneCore.Reputations
