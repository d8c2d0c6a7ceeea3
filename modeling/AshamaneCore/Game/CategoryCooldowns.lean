import AshamaneCore.Game.SpellHistory

/-!
# Cooldowns of categories

A category is on cooldown for the spell that took it last. Erasing the cooldown of a
spell forgets its category, whoever holds it by then, so a category stays on cooldown
exactly as long as nothing of this category is erased. A duel copies the cooldowns and
gives them back. Loaded cooldowns are added like those of casts.
-/

namespace AshamaneCore.SpellHistory

open Library Library.Transition

/-- An effect of an item, with cooldowns of its own for the spell. -/
structure ItemEffect where
  spellId : UInt32
  coolDownMSec : Int32
  spellCategoryId : UInt32
  categoryCoolDownMSec : Int32
  deriving DecidableEq

/-- The category of GetCooldownDurations, with the effects of the item if there is one. -/
def getCooldownCategory (spellInfo : SpellInfo) (effects : List ItemEffect) : UInt32 :=
  match effects.find? fun effect => effect.spellId = spellInfo.id with
  | some effect =>
    if effect.coolDownMSec < 0 ∧ effect.categoryCoolDownMSec < 0 then spellInfo.category
    else effect.spellCategoryId
  | none => spellInfo.category

def hasCooldown (s : SpellHistory) (spellInfo : SpellInfo) (effects : List ItemEffect)
    (ignoreCategoryCooldown : Bool) : Bool :=
  if (s.spellCooldowns.find? spellInfo.id.toNat).isSome then true
  else if ignoreCategoryCooldown then false
  else
    let category := getCooldownCategory spellInfo effects
    if category = 0 then false else (s.categoryCooldowns category).isSome

/-! ## Duels -/

structure DuelHistory where
  history : SpellHistory
  beforeDuel : KeyedSet fun e : CooldownEntry => e.spellId.toNat

inductive HistoryOperation
  | operation (o : Operation)
  | saveCooldownStateBeforeDuel
  | restoreCooldownStateAfterDuel (recoversLong : UInt32 → Bool)

/-- The time of a step stands beside it, as not every step reads the clock. -/
structure TimedOperation where
  operation : HistoryOperation
  time : Int

/-- An entry is overwritten in place, unless it is on hold or was. -/
def restoreEntry (before : KeyedSet fun e : CooldownEntry => e.spellId.toNat) (e : CooldownEntry) :
    CooldownEntry :=
  match before.find? e.spellId.toNat with
  | some old => if !old.onHold && !e.onHold then { old with address := e.address } else e
  | none => e

theorem restoreEntry_spellId (before : KeyedSet fun e : CooldownEntry => e.spellId.toNat)
    (e : CooldownEntry) : (restoreEntry before e).spellId.toNat = e.spellId.toNat := by
  rw [restoreEntry]
  split
  · rename_i hFind
    split
    · exact (KeyedSet.find?_eq_some_iff.mp hFind).2
    · rfl
  · rfl

theorem restoreEntry_address (before : KeyedSet fun e : CooldownEntry => e.spellId.toNat)
    (e : CooldownEntry) : (restoreEntry before e).address = e.address := by
  rw [restoreEntry]
  split
  · split
    · rfl
    · rfl
  · rfl

def restoreCooldownStateAfterDuel (s : DuelHistory) (recoversLong : UInt32 → Bool) : DuelHistory :=
  let before := s.history.spellCooldowns.entries.foldl
    (fun before e => if recoversLong e.spellId then before.assign e else before) s.beforeDuel
  { history := { s.history with
      spellCooldowns :=
        s.history.spellCooldowns.map (restoreEntry before) (restoreEntry_spellId before) }
    beforeDuel := before }

def timedStep (s : DuelHistory) (t : TimedOperation) : DuelHistory :=
  match t.operation with
  | .operation o => { s with history := step s.history o }
  | .saveCooldownStateBeforeDuel => { s with beforeDuel := s.history.spellCooldowns }
  | .restoreCooldownStateAfterDuel recoversLong => restoreCooldownStateAfterDuel s recoversLong

def start : DuelHistory := ⟨.empty, .empty⟩

/-! ## Held categories -/

structure Holds (s : SpellHistory) (c : UInt32) (e : CooldownEntry) : Prop where
  stored : e ∈ s.spellCooldowns.entries
  category : e.categoryId = c
  nonzero : c ≠ 0
  index : s.categoryCooldowns c = some e.address

def erasesAt (t : TimedOperation) (e : CooldownEntry) : Bool :=
  match t.operation with
  | .operation o => erases o e
  | _ => false

/-- The category of the entry has not ended at the time of the step. -/
def Unexpired (t : TimedOperation) (e : CooldownEntry) : Prop :=
  t.time ≤ e.categoryEnd ∧
    match t.operation with
    | .operation o => drops o e = false
    | _ => True

def takes (t : TimedOperation) (c : UInt32) : Prop :=
  match t.operation with
  | .operation (.addCooldown _ _ _ categoryId _ _) => categoryId = c
  | _ => False

/-- A step that is not about the cooldown of this spell or about its category:
the entry stays as it is, and no spell is put on cooldown for the category. -/
structure Leaves (c : UInt32) (e : CooldownEntry) (s : DuelHistory) (t : TimedOperation) : Prop where
  stays : e ∈ (timedStep s t).history.spellCooldowns.entries
  unexpired : Unexpired t e
  free : ¬ takes t c

/-- What is erased does not have a category that another spell holds, unless that has expired. -/
def Separate (s : DuelHistory) (t : TimedOperation) : Prop :=
  ∀ a ∈ s.history.spellCooldowns.entries, erasesAt t a = true →
    ∀ e, Holds s.history a.categoryId e → erasesAt t e = false → ¬ Unexpired t e

/-! ## One step -/

variable {s : SpellHistory}

theorem stored_step (h : Stored s) (o : Operation) : Stored (step s o) := by
  cases o with
  | addCooldown spellId itemId cooldownEnd categoryId categoryEnd onHold =>
    exact stored_addCooldown h _ _ _ _ _ _
  | lockSpellSchool knownSpells schoolMask lockoutTime now reading =>
    exact stored_lockSpellSchool h _ _ _ _ _
  | modifyCooldown spellId offset now =>
    rcases modifyCooldown_cases s spellId offset now with hErased | ⟨hEq, -⟩
    · exact hErased.stored h
    · rw [step, hEq]
      exact stored_prolonged h spellId offset
  | resetCooldown spellId => exact (resetCooldown_spec s spellId).stored h
  | resetCooldowns predicate => exact (resetCooldowns_spec s predicate).stored h
  | resetAllCooldowns => exact h.of_subset (fun _ he => absurd he List.not_mem_nil) le_rfl
  | update now =>
    have hDropped : Stored (s.dropCategories now) := ⟨h.distinct, h.allocated⟩
    exact (resetCooldowns_spec (s.dropCategories now) _).stored hDropped

theorem stored_timedStep {s : DuelHistory} (h : Stored s.history) (t : TimedOperation) :
    Stored (timedStep s t).history := by
  rw [timedStep]
  split
  · exact stored_step h _
  · exact h
  · apply h.of_kept
    · intro e he
      obtain ⟨f, hf, rfl⟩ := List.mem_map.mp he
      exact ⟨f, hf, (UInt32.toNat_inj.mp (restoreEntry_spellId _ f)).symm,
        (restoreEntry_address _ f).symm⟩
    · exact le_rfl

theorem categoryCooldowns_lockSpellSchool (s : SpellHistory) (knownSpells : List SpellInfo)
    (schoolMask lockoutTime : UInt32) (now : Int) (reading : UInt32 → Int) :
    (s.lockSpellSchool knownSpells schoolMask lockoutTime now reading).categoryCooldowns =
      s.categoryCooldowns := by
  apply lockSpellSchool_keeps (P := fun t => t.categoryCooldowns = s.categoryCooldowns) rfl
  · exact fun _ _ ht => ht
  · exact fun _ _ _ _ ht => ht

variable {o : Operation} {c : UInt32} {e : CooldownEntry}

theorem index_step_iff (h : Stored s) (hHolds : Holds s c e) (hStays : e ∈ (step s o).spellCooldowns.entries)
    (hKept : drops o e = false)
    (hFree : ∀ spellId itemId cooldownEnd categoryId categoryEnd onHold,
      o = .addCooldown spellId itemId cooldownEnd categoryId categoryEnd onHold → categoryId ≠ c) :
    (step s o).categoryCooldowns c = some e.address ↔
      ∀ a ∈ s.spellCooldowns.entries, erases o a = true → a.categoryId ≠ c := by
  have hNothing : (∀ a ∈ s.spellCooldowns.entries, erases o a = false) →
      (step s o).categoryCooldowns c = s.categoryCooldowns c →
        ((step s o).categoryCooldowns c = some e.address ↔
          ∀ a ∈ s.spellCooldowns.entries, erases o a = true → a.categoryId ≠ c) := by
    intro hNone hSame
    rw [hSame]
    refine iff_of_true hHolds.index fun a ha hErased => ?_
    rw [hNone a ha] at hErased
    cases hErased
  cases o with
  | addCooldown spellId itemId cooldownEnd categoryId categoryEnd onHold =>
    refine hNothing (fun _ _ => rfl) ?_
    simp only [step, addCooldown]
    split
    · exact Function.update_of_ne (hFree _ _ _ _ _ _ rfl).symm _ _
    · rfl
  | lockSpellSchool knownSpells schoolMask lockoutTime now reading =>
    refine hNothing (fun _ _ => rfl) ?_
    rw [step, categoryCooldowns_lockSpellSchool]
  | modifyCooldown spellId offset now =>
    rcases modifyCooldown_cases s spellId offset now with hErased | ⟨hEq, hNone⟩
    · rw [step, hErased.index]
      exact and_iff_right hHolds.index
    · refine hNothing hNone ?_
      rw [step, hEq]
      rfl
  | resetCooldown spellId =>
    rw [step, (resetCooldown_spec s spellId).index]
    exact and_iff_right hHolds.index
  | resetCooldowns predicate =>
    rw [step, (resetCooldowns_spec s predicate).index]
    exact and_iff_right hHolds.index
  | resetAllCooldowns => exact absurd hStays List.not_mem_nil
  | update now =>
    have hIndex : (s.dropCategories now).categoryCooldowns c = some e.address := by
      rw [dropCategories, Option.filter_eq_some_iff, categoryExpired, h.deref_eq hHolds.stored]
      exact ⟨hHolds.index, by simpa [drops] using hKept⟩
    rw [step, update, (resetCooldowns_spec (s.dropCategories now) _).index]
    exact and_iff_right hIndex

theorem erasing_step {a : CooldownEntry}
    (ha : a ∈ s.spellCooldowns.entries) (hErased : erases o a = true) :
    ∃ t, t.spellCooldowns = s.spellCooldowns ∧ Erased t (step s o) (erases o) := by
  cases o with
  | addCooldown => cases hErased
  | lockSpellSchool => cases hErased
  | modifyCooldown spellId offset now =>
    rcases modifyCooldown_cases s spellId offset now with hAll | ⟨-, hNone⟩
    · exact ⟨s, rfl, hAll⟩
    · rw [hNone a ha] at hErased
      cases hErased
  | resetCooldown spellId => exact ⟨s, rfl, resetCooldown_spec s spellId⟩
  | resetCooldowns predicate => exact ⟨s, rfl, resetCooldowns_spec s predicate⟩
  | resetAllCooldowns => cases hErased
  | update now => exact ⟨s.dropCategories now, rfl, resetCooldowns_spec _ _⟩

theorem erases_of_stays (he : e ∈ s.spellCooldowns.entries) (hStays : e ∈ (step s o).spellCooldowns.entries) :
    erases o e = false := by
  rw [Bool.eq_false_iff]
  intro hErased
  obtain ⟨t, -, hAll⟩ := erasing_step he hErased
  rw [((hAll.entries e).mp hStays).2] at hErased
  cases hErased

/-! ## Runs -/

theorem Holds.hasCooldown (h : Holds s c e)
    {third : SpellInfo} {effects : List ItemEffect} (hThird : getCooldownCategory third effects = c) :
    s.hasCooldown third effects false = true := by
  rw [SpellHistory.hasCooldown, hThird]
  split
  · rfl
  · rw [if_neg (by simp), if_neg h.nonzero, h.index]
    rfl

theorem Holds.timedStep {s : DuelHistory} (hStored : Stored s.history) {t : TimedOperation} (h : Holds s.history c e)
    (hLeaves : Leaves c e s t)
    (hSeparate : Separate s t) : Holds (timedStep s t).history c e := by
  refine ⟨hLeaves.stays, h.category, h.nonzero, ?_⟩
  obtain ⟨operation, time⟩ := t
  cases operation with
  | operation o =>
    refine (index_step_iff hStored h hLeaves.stays hLeaves.unexpired.2 ?_).mpr ?_
    · rintro spellId itemId cooldownEnd categoryId categoryEnd onHold rfl
      exact hLeaves.free
    · rintro a ha hErased rfl
      exact hSeparate a ha hErased e h (erases_of_stays h.stored hLeaves.stays) hLeaves.unexpired
  | saveCooldownStateBeforeDuel => exact h.index
  | restoreCooldownStateAfterDuel recoversLong => exact h.index

theorem separate_of_hasCooldown {s : DuelHistory} {t : TimedOperation}
    (h : ∀ c e, Holds s.history c e → Leaves c e s t → ∀ third effects,
      getCooldownCategory third effects = c →
        (timedStep s t).history.hasCooldown third effects false = true) : Separate s t := by
  intro a ha hErased e hHolds hNot hUnexpired
  obtain ⟨operation, time⟩ := t
  cases operation with
  | saveCooldownStateBeforeDuel => cases hErased
  | restoreCooldownStateAfterDuel recoversLong => cases hErased
  | operation o =>
    obtain ⟨before, hSame, hAll⟩ := erasing_step ha hErased
    have hLeaves : Leaves a.categoryId e s ⟨.operation o, time⟩ := by
      refine ⟨(hAll.entries e).mpr ⟨hSame ▸ hHolds.stored, hNot⟩, hUnexpired, ?_⟩
      cases o with
      | addCooldown => cases hErased
      | _ => exact fun hTakes => hTakes
    have hCooldown := h a.categoryId e hHolds hLeaves ⟨a.spellId, a.categoryId, 0, 0, false⟩ [] rfl
    have hGone : (step s.history o).spellCooldowns.find? a.spellId.toNat = none := by
      rw [KeyedSet.find?_eq_none_iff]
      intro f hf hKey
      obtain ⟨hBefore, hKept⟩ := (hAll.entries f).mp hf
      rw [hSame] at hBefore
      rw [spellId_inj hBefore ha (UInt32.toNat_inj.mp hKey)] at hKept
      exact absurd hErased (Bool.eq_false_iff.mp hKept)
    have hCategory : ((step s.history o).categoryCooldowns a.categoryId).isSome = true := by
      simpa [timedStep, hasCooldown, getCooldownCategory, hGone, hHolds.nonzero] using hCooldown
    obtain ⟨address, hIndex⟩ := Option.isSome_iff_exists.mp hCategory
    exact ((hAll.index _ _).mp hIndex).2 a (hSame ▸ ha) hErased rfl

/-- In every run a held category keeps all its spells on cooldown through the steps that
leave it until it ends, exactly if no step erases a spell that has it too. -/
theorem hasCooldown_iff_separate (operations : List TimedOperation) :
    (∀ first more, first ++ more <+: operations → ∀ c e, Holds (run timedStep start first).history c e →
      Along timedStep (Leaves c e) (run timedStep start first) more →
        ∀ third effects, getCooldownCategory third effects = c →
          (run timedStep start (first ++ more)).history.hasCooldown third effects false = true) ↔
      Along timedStep Separate start operations := by
  have hStored : ∀ first, Stored (run timedStep start first).history := fun first =>
    invariant (P := fun s : DuelHistory => Stored s.history) (fun _ t h => stored_timedStep h t)
      sound_empty.toStored first
  constructor
  · intro h
    rw [along_iff_forall]
    intro first t hPrefix
    apply separate_of_hasCooldown
    intro c e hHolds hLeaves third effects hThird
    have hRun := h first [t] hPrefix c e hHolds ⟨hLeaves, trivial⟩ third effects hThird
    rwa [run_append] at hRun
  · intro h first more hPrefix c e hHolds hLeaves third effects hThird
    have hSeparate := (along_append.mp (h.of_prefix hPrefix)).2
    have hKept : ∀ (more : List TimedOperation) (s : DuelHistory), Stored s.history →
        Holds s.history c e → Along timedStep (Leaves c e) s more → Along timedStep Separate s more →
          Holds (run timedStep s more).history c e := by
      intro more
      induction more with
      | nil => exact fun _ _ h _ _ => h
      | cons t more ih =>
        rintro s hs hHolds ⟨hLeave, hLeaves⟩ ⟨hFirst, hRest⟩
        exact ih _ (stored_timedStep hs t) (hHolds.timedStep hs hLeave hFirst) hLeaves hRest
    rw [run_append]
    exact (hKept more _ (hStored first) hHolds hLeaves hSeparate).hasCooldown hThird

/-- Spell 100 takes category 7 for one second, and after that spell 200 takes it until nine
seconds. When spell 100 is reset, a third spell of the category is ready. -/
theorem retaken_ready : ¬ ∀ first more c e, Holds (run timedStep start first).history c e →
    Along timedStep (Leaves c e) (run timedStep start first) more →
      ∀ third effects, getCooldownCategory third effects = c →
        (run timedStep start (first ++ more)).history.hasCooldown third effects false = true := by
  intro h
  have hThird := h
    [⟨.operation (.addCooldown 100 0 9000000000 7 1000000000 false), 0⟩,
      ⟨.operation (.update 2000000000), 2000000000⟩,
      ⟨.operation (.addCooldown 200 0 9000000000 7 9000000000 false), 2000000000⟩]
    [⟨.operation (.resetCooldown 100), 3000000000⟩] 7 ⟨200, 9000000000, 0, 7, 9000000000, false, 1⟩
    ⟨by decide, rfl, by decide, by decide⟩
    ⟨⟨by decide, ⟨by decide, rfl⟩, fun hTakes => hTakes⟩, trivial⟩
    ⟨300, 7, 1, 1, false⟩ [] rfl
  have hReady : (run timedStep start
      [⟨.operation (.addCooldown 100 0 9000000000 7 1000000000 false), 0⟩,
        ⟨.operation (.update 2000000000), 2000000000⟩,
        ⟨.operation (.addCooldown 200 0 9000000000 7 9000000000 false), 2000000000⟩,
        ⟨.operation (.resetCooldown 100), 3000000000⟩]).history.hasCooldown
      ⟨300, 7, 1, 1, false⟩ [] false = false := by decide
  exact Bool.false_ne_true (hReady.symm.trans hThird)

end AshamaneCore.SpellHistory
