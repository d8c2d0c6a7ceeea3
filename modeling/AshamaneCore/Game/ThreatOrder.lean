import AshamaneCore.Game.ThreatReferences

/-!
# The order of the online container

The container is sorted when a victim is chosen, but only if it has been marked dirty.
Which changes mark it depends on their sign and on the current victim, not on the
neighbours of the reference in the list, so a change can leave the list out of order.
-/

namespace AshamaneCore.ThreatManager

open Library.Transition

def Sorted (s : ThreatManager) : Prop :=
  s.iThreatContainer.Pairwise fun a b => s.getThreat b ≤ s.getThreat a

def Ordered (s : ThreatManager) : Prop := s.iDirty = false → Sorted s

/-- With this threat the reference would still stand between its neighbours. -/
def Between (s : ThreatManager) (r : Nat) (threat : ℚ) : Prop :=
  ∀ before after, s.iThreatContainer = before ++ r :: after →
    (∀ x ∈ before, threat ≤ s.getThreat x) ∧ ∀ x ∈ after, s.getThreat x ≤ threat

/-- The change marks the list, or it does not move anything past a neighbour. -/
def Keeps (s : ThreatManager) : Change → Prop
  | .addReference victim =>
    (∀ r ∈ s.listed, s.unitOf r ≠ victim) → ∀ x ∈ s.iThreatContainer, 0 ≤ s.getThreat x
  | .addThreat r modThreat => s.disturbs r modThreat = true ∨ Between s r (s.getThreat r + modThreat)
  | .addTempThreat r threat => s.disturbs r threat = true ∨ Between s r (s.getThreat r + threat)
  | .setOnlineOfflineState r true => r ∈ s.iThreatOfflineContainer →
    s.outranks r = true ∨ ∀ x ∈ s.iThreatContainer, s.getThreat r ≤ s.getThreat x
  | _ => True

variable {s t : ThreatManager}

theorem Sorted.congr (hContainer : t.iThreatContainer = s.iThreatContainer)
    (hThreat : ∀ x ∈ s.iThreatContainer, t.getThreat x = s.getThreat x) : Sorted t ↔ Sorted s := by
  unfold Sorted
  rw [hContainer]
  refine List.Pairwise.iff_of_mem fun {a b} ha hb => ?_
  rw [hThreat a ha, hThreat b hb]

variable {r : Nat}

theorem sorted_iff_between {threat : ℚ} (hSorted : Sorted s)
    (hNodup : s.iThreatContainer.Nodup) (hContainer : t.iThreatContainer = s.iThreatContainer)
    (hThreat : ∀ x, t.getThreat x = if x = r then threat else s.getThreat x) :
    Sorted t ↔ Between s r threat := by
  have hOther : ∀ x, x ≠ r → t.getThreat x = s.getThreat x := fun x hx => (hThreat x).trans (if_neg hx)
  have hSame : t.getThreat r = threat := (hThreat r).trans (if_pos rfl)
  constructor
  · intro hAfter before after hSplit
    unfold Sorted at hAfter
    rw [hContainer, hSplit] at hAfter
    rw [hSplit] at hNodup
    obtain ⟨-, hTail, hAcross⟩ := List.pairwise_append.mp hAfter
    obtain ⟨hHead, -⟩ := List.pairwise_cons.mp hTail
    obtain ⟨-, hRest, hApart⟩ := List.nodup_append.mp hNodup
    constructor
    · intro x hx
      have hNe : x ≠ r := hApart x hx r List.mem_cons_self
      have hLe := hAcross x hx r List.mem_cons_self
      rwa [hSame, hOther x hNe] at hLe
    · intro x hx
      have hNe : x ≠ r := fun hEq => (List.nodup_cons.mp hRest).1 (hEq ▸ hx)
      have hLe := hHead x hx
      rwa [hSame, hOther x hNe] at hLe
  · intro hBetween
    obtain hIn | hOut := Classical.em (r ∈ s.iThreatContainer)
    · obtain ⟨before, after, hSplit⟩ := List.append_of_mem hIn
      obtain ⟨hBefore, hAfter⟩ := hBetween before after hSplit
      unfold Sorted at hSorted ⊢
      rw [hSplit] at hSorted hNodup
      rw [hContainer, hSplit]
      obtain ⟨hFirst, hTail, hAcross⟩ := List.pairwise_append.mp hSorted
      obtain ⟨-, hLast⟩ := List.pairwise_cons.mp hTail
      obtain ⟨-, hRest, hApart⟩ := List.nodup_append.mp hNodup
      have hBeforeNe : ∀ x ∈ before, x ≠ r := fun x hx => hApart x hx r List.mem_cons_self
      have hAfterNe : ∀ x ∈ after, x ≠ r :=
        fun x hx hEq => (List.nodup_cons.mp hRest).1 (hEq ▸ hx)
      refine List.pairwise_append.mpr ⟨hFirst.imp_of_mem fun {a b} ha hb hLe => ?_,
        List.pairwise_cons.mpr ⟨fun x hx => ?_, hLast.imp_of_mem fun {a b} ha hb hLe => ?_⟩,
        fun x hx y hy => ?_⟩
      · rwa [hOther a (hBeforeNe a ha), hOther b (hBeforeNe b hb)]
      · rw [hSame, hOther x (hAfterNe x hx)]
        exact hAfter x hx
      · rwa [hOther a (hAfterNe a ha), hOther b (hAfterNe b hb)]
      · rw [hOther x (hBeforeNe x hx)]
        obtain rfl | hy := List.mem_cons.mp hy
        · rw [hSame]
          exact hBefore x hx
        · rw [hOther y (hAfterNe y hy)]
          exact hAcross x hx y (List.mem_cons_of_mem _ hy)
    · refine (Sorted.congr hContainer fun x hx => hOther x ?_).mpr hSorted
      rintro rfl
      exact hOut hx

/-! ## One change -/

theorem ordered_of_dirty (h : t.iDirty = true) : Ordered t := fun hClean =>
  Bool.noConfusion (h.symm.trans hClean)

theorem Ordered.sublist (h : Ordered s) (hSub : t.iThreatContainer.Sublist s.iThreatContainer)
    (hThreat : t.getThreat = s.getThreat) (hDirty : t.iDirty = false → s.iDirty = false) : Ordered t := by
  intro hClean
  unfold Sorted
  rw [hThreat]
  exact (h (hDirty hClean)).sublist hSub

theorem threatChange_ordered_iff {value : ℚ} (hClean : s.iDirty = false) (hSorted : Sorted s)
    (hNodup : s.iThreatContainer.Nodup) (hDirty : t.iDirty = s.iDirty)
    (hVictim : t.iCurrentVictim = s.iCurrentVictim) (hContainer : t.iThreatContainer = s.iThreatContainer)
    (hThreat : ∀ x, t.getThreat x = if x = r then s.getThreat r + value else s.getThreat x) :
    Ordered (t.processThreatEvent r (.threatChange value)) ↔
      s.disturbs r value = true ∨ Between s r (s.getThreat r + value) := by
  have hDisturbs : t.disturbs r value = s.disturbs r value := by
    unfold disturbs
    rw [hVictim]
  have hFits := sorted_iff_between hSorted hNodup hContainer hThreat
  unfold processThreatEvent
  dsimp only
  rw [hDisturbs]
  cases hMark : s.disturbs r value with
  | true => exact ⟨fun _ => Or.inl rfl, fun _ => ordered_of_dirty rfl⟩
  | false =>
    rw [if_neg Bool.false_ne_true]
    constructor
    · exact fun hOrdered => Or.inr (hFits.mp (hOrdered (hDirty.trans hClean)))
    · rintro (hFalse | hBetween)
      · cases hFalse
      · exact fun _ => hFits.mpr hBetween

theorem getThreat_alterRef (s : ThreatManager) (r : Nat) {f : HostileReference → HostileReference}
    {value : ℚ} (h : ∀ ref, (f ref).iThreat + (f ref).iTempThreatModifier =
      ref.iThreat + ref.iTempThreatModifier + value) (x : Nat) :
    (s.alterRef r f).getThreat x = if x = r then s.getThreat r + value else s.getThreat x := by
  unfold getThreat
  rw [refs_alterRef]
  split
  · rename_i hx
    rw [hx]
    exact h _
  · rfl

theorem update_sorted (h : Ordered s) : Sorted s.update := by
  have hSort : ∀ l : List Nat, (l.insertionSort fun a b => s.getThreat b ≤ s.getThreat a).Pairwise
      fun a b => s.getThreat b ≤ s.getThreat a := by
    intro l
    have : Std.Total fun a b : Nat => s.getThreat b ≤ s.getThreat a := ⟨fun a b => le_total _ _⟩
    have : IsTrans Nat fun a b => s.getThreat b ≤ s.getThreat a := ⟨fun _ _ _ hab hbc => hbc.trans hab⟩
    exact List.pairwise_insertionSort _ l
  show s.update.iThreatContainer.Pairwise fun a b => s.getThreat b ≤ s.getThreat a
  unfold update
  dsimp only
  cases hDirty : s.iDirty with
  | false => exact h hDirty
  | true =>
    split
    · exact hSort _
    · rename_i hShort
      have hLength : s.iThreatContainer.length ≤ 1 := by simpa using hShort
      obtain hZero | hOne := Nat.le_one_iff_eq_zero_or_eq_one.mp hLength
      · rw [List.length_eq_zero_iff.mp hZero]
        exact List.Pairwise.nil
      · obtain ⟨x, hx⟩ := List.length_eq_one_iff.mp hOne
        rw [hx]
        exact List.pairwise_singleton _ _

theorem addReference_ordered_iff (h : Consistent s) (hClean : s.iDirty = false) (hSorted : Sorted s)
    (victim : ObjectGuid) :
    Ordered (s.addReference victim) ↔ ∀ x ∈ s.iThreatContainer, 0 ≤ s.getThreat x := by
  have hOld : ∀ x ∈ s.iThreatContainer, (s.addReference victim).getThreat x = s.getThreat x := by
    intro x hx
    unfold getThreat
    rw [refs_addReference s victim (h.known x (List.mem_append_left _ hx))]
  have hNew : (s.addReference victim).getThreat s.next = 0 := by
    unfold getThreat
    rw [refs_addReference_next]
    exact add_zero 0
  have hSplit : Sorted (s.addReference victim) ↔ ∀ x ∈ s.iThreatContainer, 0 ≤ s.getThreat x := by
    have hContainer : (s.addReference victim).iThreatContainer = s.iThreatContainer ++ [s.next] := rfl
    unfold Sorted
    rw [hContainer, List.pairwise_append]
    constructor
    · rintro ⟨-, -, hAcross⟩ x hx
      have hLe := hAcross x hx s.next (List.mem_singleton_self _)
      rwa [hNew, hOld x hx] at hLe
    · intro hPositive
      refine ⟨hSorted.imp_of_mem fun {a b} ha hb hLe => ?_, List.pairwise_singleton _ _, fun x hx y hy => ?_⟩
      · rwa [hOld a ha, hOld b hb]
      · rw [List.mem_singleton.mp hy, hNew, hOld x hx]
        exact hPositive x hx
  exact ⟨fun hOrdered => hSplit.mp (hOrdered hClean), fun hPositive _ => hSplit.mpr hPositive⟩

theorem goOnline_ordered_iff (h : Consistent s) (hClean : s.iDirty = false) (hSorted : Sorted s)
    (hr : r ∈ s.iThreatOfflineContainer) : Ordered (s.setOnlineOfflineState r true) ↔
      s.outranks r = true ∨ ∀ x ∈ s.iThreatContainer, s.getThreat r ≤ s.getThreat x := by
  have hMove : s.isOnline r ≠ true := by
    rw [h.offline r hr]
    decide
  have hMoved := setOnlineOfflineState_moved hMove
  generalize s.setOnlineOfflineState r true = t at hMoved
  have hDirty : t.iDirty = s.outranks r := by
    rw [hMoved.dirty, hClean]
    rfl
  have hSplit : Sorted t ↔ ∀ x ∈ s.iThreatContainer, s.getThreat r ≤ s.getThreat x := by
    have hContainer : t.iThreatContainer = s.iThreatContainer ++ [r] := hMoved.container
    unfold Sorted
    rw [hContainer, hMoved.getThreat, List.pairwise_append]
    constructor
    · rintro ⟨-, -, hAcross⟩ x hx
      exact hAcross x hx r (List.mem_singleton_self _)
    · intro hLeast
      refine ⟨hSorted, List.pairwise_singleton _ _, fun x hx y hy => ?_⟩
      rw [List.mem_singleton.mp hy]
      exact hLeast x hx
  cases hAbove : s.outranks r with
  | true => exact ⟨fun _ => Or.inl rfl, fun _ => ordered_of_dirty (hDirty.trans hAbove)⟩
  | false =>
    constructor
    · exact fun hOrdered => Or.inr (hSplit.mp (hOrdered (hDirty.trans hAbove)))
    · rintro (hFalse | hLeast)
      · cases hFalse
      · exact fun _ => hSplit.mpr hLeast

theorem dropReference_ordered (h : Ordered s) (r : Nat) :
    Ordered (s.processThreatEvent r .removeFromList) := by
  have hDrop : Ordered (s.dropVictim r) ∧ (s.dropVictim r).getThreat = s.getThreat := by
    unfold dropVictim
    split
    · exact ⟨ordered_of_dirty rfl, rfl⟩
    · exact ⟨h, rfl⟩
  unfold processThreatEvent
  dsimp only
  split
  · exact hDrop.1.sublist List.filter_sublist rfl id
  · exact hDrop.1.sublist (List.Sublist.refl _) rfl id

theorem threatChange_dirty (h : s.iDirty = true) (r : Nat) (value : ℚ) :
    (s.processThreatEvent r (.threatChange value)).iDirty = true := by
  unfold processThreatEvent
  dsimp only
  split
  · rfl
  · exact h

theorem dirty_dropVictim (h : s.iDirty = true) (r : Nat) : (s.dropVictim r).iDirty = true := by
  unfold dropVictim
  split
  · rfl
  · exact h

theorem setOnlineOfflineState_dirty (h : s.iDirty = true) (r : Nat) (isOnline : Bool) :
    (s.setOnlineOfflineState r isOnline).iDirty = true := by
  obtain hSame | hMove := eq_or_ne (s.isOnline r) isOnline
  · have hStay : s.setOnlineOfflineState r isOnline = s := if_neg (not_not.mpr hSame)
    rw [hStay]
    exact h
  · rw [(setOnlineOfflineState_moved hMove).dirty, h, Bool.true_or]

theorem change_dirty (h : s.iDirty = true) (c : Change) :
    (s.change c).iDirty = true ∨ s.change c = s.update := by
  cases c with
  | addReference victim =>
    rw [change]
    split
    · exact Or.inl h
    · exact Or.inl h
  | addThreat r modThreat =>
    rw [change]
    split
    · refine Or.inl (threatChange_dirty ?_ r modThreat)
      exact h
    · exact Or.inl h
  | signal r modThreat => exact Or.inl (threatChange_dirty h r modThreat)
  | addTempThreat r threat =>
    rw [change, addTempThreat]
    split
    · exact Or.inl h
    · refine Or.inl (threatChange_dirty ?_ r threat)
      exact h
  | link r valid => exact Or.inl h
  | setAccessibleState r isAccessible =>
    rw [change, setAccessibleState_eq]
    exact Or.inl h
  | setOnlineOfflineState r isOnline =>
    rw [change]
    split
    · exact Or.inl (setOnlineOfflineState_dirty h r isOnline)
    · exact Or.inl h
  | dropReference r =>
    rw [change]
    unfold processThreatEvent
    dsimp only
    split
    · exact Or.inl (dirty_dropVictim h r)
    · exact Or.inl (dirty_dropVictim h r)
  | setCurrentVictim victim =>
    rw [change]
    split
    · exact Or.inl h
    · exact Or.inl h
  | update => exact Or.inr rfl
  | clearReferences => exact Or.inl h

theorem between_of_sorted (h : Consistent s) (hSorted : Sorted s) (r : Nat) :
    Between s r (s.getThreat r + 0) := by
  refine (sorted_iff_between hSorted h.nodup_online rfl fun x => ?_).mp hSorted
  split
  · rename_i hx
    rw [hx, add_zero]
  · rfl

theorem addThreat_ordered_iff (h : Consistent s) (hDirty : s.iDirty = false) (hSorted : Sorted s) (r : Nat)
    (modThreat : ℚ) : Ordered (s.change (.addThreat r modThreat)) ↔ Keeps s (.addThreat r modThreat) := by
  have hThreat := getThreat_alterRef s r
    (f := fun ref => { ref with iThreat := ref.iThreat + modThreat }) fun ref => add_right_comm _ _ _
  have hFlag : (s.alterRef r fun ref => { ref with iThreat := ref.iThreat + modThreat }).isOnline r =
      s.isOnline r := alterRef_field s r
        (f := fun ref => { ref with iThreat := ref.iThreat + modThreat })
        HostileReference.iOnline (fun _ => rfl) r
  rw [change, Keeps]
  split
  · exact threatChange_ordered_iff hDirty hSorted h.nodup_online rfl rfl rfl hThreat
  · rename_i hOffline
    have hOut : r ∉ s.iThreatContainer := fun hIn =>
      hOffline (hFlag.trans (h.online r hIn))
    refine ⟨fun _ => Or.inr fun before after hSplit => absurd ?_ hOut, fun _ _ => ?_⟩
    · rw [hSplit]
      exact List.mem_append_right _ List.mem_cons_self
    · have hCongr : Sorted (s.alterRef r fun ref => { ref with iThreat := ref.iThreat + modThreat }) ↔
          Sorted s := by
        refine Sorted.congr rfl fun x hx => (hThreat x).trans (if_neg ?_)
        rintro rfl
        exact hOut hx
      exact hCongr.mpr hSorted

theorem setOnlineOfflineState_ordered_iff (h : Consistent s) (hDirty : s.iDirty = false) (hSorted : Sorted s)
    (r : Nat) (isOnline : Bool) :
    Ordered (s.change (.setOnlineOfflineState r isOnline)) ↔ Keeps s (.setOnlineOfflineState r isOnline) := by
  have hOrdered : Ordered s := fun _ => hSorted
  rw [change]
  split
  · rename_i hr
    cases isOnline with
    | true =>
      rw [Keeps]
      obtain hIn | hOut := Classical.em (r ∈ s.iThreatOfflineContainer)
      · rw [goOnline_ordered_iff h hDirty hSorted hIn]
        exact ⟨fun hKeeps _ => hKeeps, fun hKeeps => hKeeps hIn⟩
      · have hOnline : s.isOnline r = true :=
          h.online r ((List.mem_append.mp hr).resolve_right hOut)
        have hStay : s.setOnlineOfflineState r true = s := if_neg (not_not.mpr hOnline)
        rw [hStay]
        exact ⟨fun _ hIn => absurd hIn hOut, fun _ => hOrdered⟩
    | false =>
      refine ⟨fun _ => trivial, fun _ => ?_⟩
      obtain hSame | hMove := eq_or_ne (s.isOnline r) false
      · have hStay : s.setOnlineOfflineState r false = s := if_neg (not_not.mpr hSame)
        rw [hStay]
        exact hOrdered
      · have hMoved := setOnlineOfflineState_moved hMove
        refine hOrdered.sublist ?_ hMoved.getThreat fun _ => hDirty
        rw [hMoved.container]
        exact List.filter_sublist
  · rename_i hr
    cases isOnline with
    | true => exact ⟨fun _ hIn => absurd (List.mem_append_right _ hIn) hr, fun _ => hOrdered⟩
    | false => exact ⟨fun _ => trivial, fun _ => hOrdered⟩

theorem change_ordered_iff (h : Consistent s) (hOrdered : Ordered s) (c : Change) :
    Ordered (s.change c) ↔ s.iDirty = true ∨ Keeps s c := by
  cases hDirty : s.iDirty with
  | true =>
    refine ⟨fun _ => Or.inl rfl, fun _ => ?_⟩
    obtain hMarked | hUpdate := change_dirty hDirty c
    · exact ordered_of_dirty hMarked
    · exact fun _ => hUpdate ▸ update_sorted hOrdered
  | false =>
    have hSorted := hOrdered hDirty
    rw [or_iff_right Bool.false_ne_true]
    cases c with
    | addReference victim =>
      rw [change, Keeps]
      split
      · rename_i hAny
        obtain ⟨r, hr, hUnit⟩ := List.any_eq_true.mp hAny
        exact ⟨fun _ hNone => absurd (of_decide_eq_true hUnit) (hNone r hr), fun _ => hOrdered⟩
      · rename_i hNone
        rw [addReference_ordered_iff h hDirty hSorted]
        refine ⟨fun hPositive _ => hPositive, fun hKeeps => hKeeps fun r hr hUnit => hNone ?_⟩
        exact List.any_eq_true.mpr ⟨r, hr, decide_eq_true hUnit⟩
    | addThreat r modThreat => exact addThreat_ordered_iff h hDirty hSorted r modThreat
    | signal r modThreat =>
      refine ⟨fun _ => trivial, fun _ => ?_⟩
      rw [change, processThreatEvent]
      split
      · exact ordered_of_dirty rfl
      · exact hOrdered
    | addTempThreat r threat =>
      have hThreat := getThreat_alterRef s r
        (f := fun ref => { ref with iTempThreatModifier := ref.iTempThreatModifier + threat })
        fun ref => (add_assoc _ _ _).symm
      rw [change, Keeps, addTempThreat]
      split
      · rename_i hZero
        rw [hZero]
        exact ⟨fun _ => Or.inr (between_of_sorted h hSorted r), fun _ => hOrdered⟩
      · exact threatChange_ordered_iff hDirty hSorted h.nodup_online rfl rfl rfl hThreat
    | link r valid =>
      refine ⟨fun _ => trivial, fun _ => ?_⟩
      exact hOrdered.sublist (List.Sublist.refl _)
        (alterRef_getThreat s r (f := fun ref => { ref with valid := valid }) (fun _ => rfl) fun _ => rfl) id
    | setAccessibleState r isAccessible =>
      refine ⟨fun _ => trivial, fun _ => ?_⟩
      rw [change, setAccessibleState_eq]
      exact hOrdered.sublist (List.Sublist.refl _) (alterRef_getThreat s r
        (f := fun ref => { ref with iAccessible := isAccessible }) (fun _ => rfl) fun _ => rfl) id
    | setOnlineOfflineState r isOnline =>
      exact setOnlineOfflineState_ordered_iff h hDirty hSorted r isOnline
    | dropReference r => exact ⟨fun _ => trivial, fun _ => dropReference_ordered hOrdered r⟩
    | setCurrentVictim victim =>
      refine ⟨fun _ => trivial, fun _ => ?_⟩
      rw [change]
      split
      · exact hOrdered
      · exact hOrdered
    | update => exact ⟨fun _ => trivial, fun _ _ => update_sorted hOrdered⟩
    | clearReferences => exact ⟨fun _ => trivial, fun _ _ => List.Pairwise.nil⟩

/-! ## Runs -/

theorem ordered_empty : Ordered empty := fun _ => List.Pairwise.nil

/-- Along a run of changes the list is in order whenever it is not marked exactly if every
change finds it marked or keeps it. -/
theorem ordered_iff_keeps (changes : List Change) :
    (∀ first, first <+: changes → Ordered (run change empty first)) ↔
      Along change (fun s c => s.iDirty = true ∨ Keeps s c) empty changes := by
  refine reached_iff_along (I := fun s => Consistent s ∧ Ordered s) ?_ (fun s h => h.2) ?_
    ⟨consistent_empty, ordered_empty⟩ changes
  · rintro s c ⟨hConsistent, hOrdered⟩ hKeeps
    exact ⟨change_consistent hConsistent c, (change_ordered_iff hConsistent hOrdered c).mpr hKeeps⟩
  · rintro s c ⟨hConsistent, hOrdered⟩ hNext
    exact (change_ordered_iff hConsistent hOrdered c).mp hNext

def openField : Surroundings where
  isValidProcess _ := true
  threatModifier _ := 1
  redirectThreatPercent _ := 0
  redirectThreatTarget _ := none
  isGameMaster _ := false
  charmerOrOwner _ := none
  found _ := true
  reachable _ := true
  accessible _ := true
  withinCombatRange _ := true
  secondChoice _ := false
  canCreatureAttack _ := true
  withinMeleeRange _ := true

/-- The second of three falls behind the third after the first has become the victim. -/
theorem loses_order : ¬ ∀ ops, Ordered (run operate empty ops) := by
  intro h
  have hOrdered := h [(openField, .addThreat ⟨1, 0⟩ 100), (openField, .addThreat ⟨2, 0⟩ 50),
    (openField, .addThreat ⟨3, 0⟩ 30), (openField, .getHostilTarget),
    (openField, .modifyThreatPercent ⟨2, 0⟩ (-80))]
  have hSorted := hOrdered (by decide +kernel)
  unfold Sorted at hSorted
  revert hSorted
  decide +kernel

end AshamaneCore.ThreatManager
