import Mathlib.Data.Set.Card
import Mathlib.Logic.Function.Basic
import Mathlib.Logic.Relation

/-!
# Cycles of links

Everything has at most one link, to what stands above it. The links above one thing
form a chain, so a chain that comes back to one of its members is a cycle, and all
of the cycle is found from each of its members. Cutting one link of every cycle
leaves no cycle.
-/

namespace Library.LinkCycles

universe u

variable {α : Type u}

def Link (next : α → Option α) (a b : α) : Prop := next a = some b

def Reaches (next : α → Option α) : α → α → Prop := Relation.ReflTransGen (Link next)

def OnCycle (next : α → Option α) (a : α) : Prop := Relation.TransGen (Link next) a a

def Acyclic (next : α → Option α) : Prop := ∀ a, ¬ OnCycle next a

def Clear (next : α → Option α) (a : α) : Prop := ∀ b, Reaches next a b → ¬ OnCycle next b

section Cycles

variable {next : α → Option α}

theorem link_unique : Relator.RightUnique (Link next) := by
  intro a b c hb hc
  exact Option.some.inj (hb.symm.trans hc)

variable {a b c : α}

theorem Reaches.total (hb : Reaches next a b) (hc : Reaches next a c) :
    Reaches next b c ∨ Reaches next c b :=
  Relation.ReflTransGen.total_of_right_unique link_unique hb hc

theorem Reaches.of_link (hLink : next a = some b) (h : Reaches next a c) :
    c = a ∨ Reaches next b c := by
  rcases Relation.ReflTransGen.cases_head h with rfl | ⟨d, hStep, hRest⟩
  · exact Or.inl rfl
  · obtain rfl := link_unique hLink hStep
    exact Or.inr hRest

theorem Reaches.eq_of_end (hEnd : next a = none) (h : Reaches next a c) : c = a := by
  rcases Relation.ReflTransGen.cases_head h with rfl | ⟨d, hStep, -⟩
  · rfl
  · exact nomatch hEnd.symm.trans hStep

theorem OnCycle.of_link (hLink : next a = some b) (h : Reaches next b a) :
    OnCycle next a :=
  have hStep : Link next a b := hLink
  Relation.TransGen.head' hStep h

theorem OnCycle.exists_link (h : OnCycle next a) : ∃ b, next a = some b := by
  obtain ⟨b, hStep, -⟩ := Relation.TransGen.head'_iff.mp h
  exact ⟨b, hStep⟩

theorem OnCycle.back (hCycle : OnCycle next a) (h : Reaches next a b) :
    Reaches next b a := by
  induction h with
  | refl => exact Relation.ReflTransGen.refl
  | tail _ hStep ih =>
    rcases Reaches.of_link hStep ih with rfl | hRest
    · obtain ⟨d, hFirst, hBack⟩ := Relation.TransGen.head'_iff.mp hCycle
      obtain rfl := link_unique hStep hFirst
      exact hBack
    · exact hRest

theorem OnCycle.of_reaches (hCycle : OnCycle next a) (h : Reaches next a b) :
    OnCycle next b :=
  (Relation.TransGen.trans_right (hCycle.back h) hCycle).trans_left h

theorem Clear.of_end (hEnd : next a = none) : Clear next a := by
  intro b hReach hCycle
  obtain rfl := hReach.eq_of_end hEnd
  obtain ⟨c, hLink⟩ := hCycle.exists_link
  exact nomatch hEnd.symm.trans hLink

theorem Clear.of_link (hLink : next a = some b) (h : Clear next b) : Clear next a := by
  intro c hReach hCycle
  have hOut : Reaches next a b := Relation.ReflTransGen.single hLink
  rcases hReach.of_link hLink with rfl | hRest
  · exact h b Relation.ReflTransGen.refl (hCycle.of_reaches hOut)
  · exact h c hRest hCycle

theorem Acyclic.exists_rank [Finite α] (h : Acyclic next) :
    ∃ rank : α → Nat, ∀ a b, next a = some b → rank a < rank b := by
  refine ⟨fun b => Set.ncard {a | Relation.TransGen (Link next) a b}, fun a b hLink => ?_⟩
  apply Set.ncard_lt_ncard
  · refine ⟨fun c hc => hc.tail hLink, fun hSub => ?_⟩
    have hMem : a ∈ {c | Relation.TransGen (Link next) c b} := Relation.TransGen.single hLink
    exact h a (hSub hMem)
  · exact Set.toFinite _

end Cycles

section Fewer

def Within (next orig : α → Option α) : Prop := ∀ a b, next a = some b → orig a = some b

variable {next orig : α → Option α}

theorem Within.trans {new : α → Option α} (h : Within new next) (hOrig : Within next orig) :
    Within new orig := fun a b hLink => hOrig a b (h a b hLink)

variable {a : α}

theorem Within.reaches (h : Within next orig) {b : α} (hReach : Reaches next a b) :
    Reaches orig a b := Relation.ReflTransGen.mono h _ _ hReach

theorem Within.onCycle (h : Within next orig) (hCycle : OnCycle next a) : OnCycle orig a :=
  Relation.TransGen.mono h _ _ hCycle

theorem Within.clear (h : Within next orig) (hClear : Clear orig a) : Clear next a :=
  fun b hReach hCycle => hClear b (h.reaches hReach) (h.onCycle hCycle)

theorem Within.of_reaches (h : Within next orig) {b : α} (hCycle : OnCycle next a)
    (hReach : Reaches orig a b) : OnCycle next b := by
  induction hReach with
  | refl => exact hCycle
  | tail _ hStep ih =>
    obtain ⟨d, hLink⟩ := ih.exists_link
    obtain rfl := link_unique hStep (h _ _ hLink)
    exact ih.of_reaches (Relation.ReflTransGen.single hLink)

theorem Within.onCycle_of_kept (h : Within next orig) (hCycle : OnCycle orig a)
    (hKept : ∀ b, Reaches orig a b → next b ≠ none) : OnCycle next a := by
  have hLift : ∀ b, Relation.TransGen (Link orig) a b → Relation.TransGen (Link next) a b := by
    intro b hPath
    have hLink : ∀ c d, Reaches orig a c → Link orig c d → Link next c d := by
      intro c d hReach hStep
      obtain ⟨e, hNext⟩ := Option.ne_none_iff_exists'.mp (hKept c hReach)
      obtain rfl := link_unique hStep (h _ _ hNext)
      exact hNext
    induction hPath with
    | single hStep => exact Relation.TransGen.single (hLink _ _ Relation.ReflTransGen.refl hStep)
    | tail hInit hStep ih => exact ih.tail (hLink _ _ hInit.to_reflTransGen hStep)
  exact hLift a hCycle

structure Broken (orig next : α → Option α) : Prop where
  within : Within next orig
  onCycle : ∀ a, orig a ≠ none → next a = none → OnCycle orig a
  once : ∀ a b, orig a ≠ none → next a = none → orig b ≠ none → next b = none →
    Reaches orig a b → a = b

theorem Broken.refl (orig : α → Option α) : Broken orig orig where
  within := fun _ _ h => h
  onCycle := fun _ hSome hNone => absurd hNone hSome
  once := fun _ _ hSome hNone => absurd hNone hSome

theorem Broken.existsUnique (h : Broken orig next) (hAcyclic : Acyclic next)
    (hCycle : OnCycle orig a) : ∃! b, Reaches orig a b ∧ next b = none := by
  have hLinked : ∀ b, Reaches orig a b → orig b ≠ none := by
    intro b hReach
    obtain ⟨c, hLink⟩ := (hCycle.of_reaches hReach).exists_link
    exact Option.ne_none_iff_exists'.mpr ⟨c, hLink⟩
  have hExists : ∃ b, Reaches orig a b ∧ next b = none := by
    by_contra hNone
    push Not at hNone
    exact hAcyclic a (h.within.onCycle_of_kept hCycle hNone)
  obtain ⟨b, hReach, hGone⟩ := hExists
  refine ⟨b, ⟨hReach, hGone⟩, ?_⟩
  rintro c ⟨hReachC, hGoneC⟩
  have hOnward : Reaches orig c b := (hCycle.back hReachC).trans hReach
  exact h.once c b (hLinked c hReachC) hGoneC (hLinked b hReach) hGone hOnward

end Fewer

section Cutting

variable [DecidableEq α] {next orig : α → Option α}

def cut (next : α → Option α) (c : α) : α → Option α := Function.update next c none

variable {c : α}

theorem cut_eq_some_iff {a b : α} : cut next c a = some b ↔ a ≠ c ∧ next a = some b := by
  rw [cut, Function.update_apply]
  split
  · rename_i h
    simp [h]
  · rename_i h
    simp [h]

theorem within_cut (next : α → Option α) (c : α) : Within (cut next c) next :=
  fun _ _ h => (cut_eq_some_iff.mp h).2

/-- After the cut of a link of the cycle that a chain runs into, the chain ends. -/
theorem clear_cut {a : α} (hReach : Reaches next a c) (hCycle : OnCycle next c) :
    Clear (cut next c) a := by
  intro b hb hCut
  have hWithin := within_cut next c
  have hNext := hWithin.reaches hb
  have hBack : Reaches next b c := by
    rcases hNext.total hReach with h | h
    · exact h
    · exact hCycle.back h
  obtain ⟨d, hLink⟩ := (hWithin.of_reaches hCut hBack).exists_link
  exact (cut_eq_some_iff.mp hLink).1 rfl

theorem Broken.cut (h : Broken orig next) (hCycle : OnCycle next c) :
    Broken orig (cut next c) := by
  have hOrig := h.within.onCycle hCycle
  have hCases : ∀ a, LinkCycles.cut next c a = none → a = c ∨ next a = none := by
    intro a hNone
    rcases eq_or_ne a c with hEq | hNe
    · exact Or.inl hEq
    · rw [LinkCycles.cut, Function.update_of_ne hNe] at hNone
      exact Or.inr hNone
  -- A link that is gone already is not on the cycle of the one to be cut.
  have hApart : ∀ a, Reaches orig c a → next a ≠ none := by
    intro a hReach hNone
    obtain ⟨b, hLink⟩ := (h.within.of_reaches hCycle hReach).exists_link
    exact nomatch hNone.symm.trans hLink
  refine ⟨(within_cut next c).trans h.within, fun a hSome hNone => ?_, ?_⟩
  · rcases hCases a hNone with rfl | hGone
    · exact hOrig
    · exact h.onCycle a hSome hGone
  · intro a b hA hCutA hB hCutB hReach
    rcases hCases a hCutA with rfl | hGoneA
    · rcases hCases b hCutB with rfl | hGoneB
      · rfl
      · exact absurd hGoneB (hApart b hReach)
    · rcases hCases b hCutB with rfl | hGoneB
      · exact absurd hGoneA (hApart a ((h.onCycle a hA hGoneA).back hReach))
      · exact h.once a b hA hGoneA hB hGoneB hReach

end Cutting

end Library.LinkCycles
