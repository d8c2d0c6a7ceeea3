import Mathlib.Data.List.Infix

/-!
# Runs of state machines

A machine is a step function on a state type. Runs are left folds over the
labels, and every run-level fact below comes from a fact about one step.
Partial machines refuse a label by returning none; a refused run has no state.
-/

namespace Library.Transition

universe u v

variable {σ : Type u} {α : Type v}

section Total

variable (step : σ → α → σ)

def run (s : σ) (labels : List α) : σ := labels.foldl step s

@[simp] theorem run_nil (s : σ) : run step s [] = s := rfl

@[simp] theorem run_cons (s : σ) (a : α) (labels : List α) :
    run step s (a :: labels) = run step (step s a) labels := rfl

theorem run_append (s : σ) (first second : List α) :
    run step s (first ++ second) = run step (run step s first) second := List.foldl_append

/-- Every step of the run meets the condition, which sees the state before the step. -/
def Along (C : σ → α → Prop) : σ → List α → Prop
  | _, [] => True
  | s, a :: labels => C s a ∧ Along C (step s a) labels

variable {step}

instance Along.decidable {C : σ → α → Prop} [∀ s a, Decidable (C s a)] :
    (s : σ) → (labels : List α) → Decidable (Along step C s labels)
  | _, [] => inferInstanceAs (Decidable True)
  | s, a :: labels =>
    have : Decidable (Along step C (step s a) labels) := Along.decidable (step s a) labels
    inferInstanceAs (Decidable (C s a ∧ Along step C (step s a) labels))

variable {P : σ → Prop} {s : σ}

theorem invariant (hStep : ∀ s a, P s → P (step s a)) (hs : P s)
    (labels : List α) : P (run step s labels) := by
  induction labels generalizing s with
  | nil => exact hs
  | cons a labels ih => exact ih (hStep s a hs)

variable {C : σ → α → Prop} {labels : List α}

theorem invariant_along (hStep : ∀ s a, P s → C s a → P (step s a)) (hs : P s)
    (h : Along step C s labels) : P (run step s labels) := by
  induction labels generalizing s with
  | nil => exact hs
  | cons a labels ih => exact ih (hStep s a hs h.1) h.2

theorem along_all (h : ∀ s a, C s a) (s : σ) (labels : List α) :
    Along step C s labels := by
  induction labels generalizing s with
  | nil => trivial
  | cons a labels ih => exact ⟨h s a, ih _⟩

theorem Along.of_prefix {first : List α}
    (hPrefix : first <+: labels) (h : Along step C s labels) : Along step C s first := by
  obtain ⟨second, rfl⟩ := hPrefix
  induction first generalizing s with
  | nil => trivial
  | cons a first ih => exact ⟨h.1, ih h.2⟩

theorem along_append {first second : List α} :
    Along step C s (first ++ second) ↔ Along step C s first ∧ Along step C (run step s first) second := by
  induction first generalizing s with
  | nil => exact (iff_of_eq (true_and _)).symm
  | cons a first ih =>
    rw [List.cons_append, Along, Along, ih, and_assoc]
    rfl

variable {A B : σ → α → Prop}

theorem along_and :
    Along step (fun s a => A s a ∧ B s a) s labels ↔ Along step A s labels ∧ Along step B s labels := by
  induction labels generalizing s with
  | nil => exact (and_self_iff (a := True)).symm
  | cons a labels ih =>
    rw [Along, Along, Along, ih]
    exact and_and_and_comm

theorem along_iff_forall :
    Along step C s labels ↔
      ∀ first a, first ++ [a] <+: labels → C (run step s first) a := by
  induction labels generalizing s with
  | nil =>
    constructor
    · rintro - first a hPrefix
      have hEmpty := List.prefix_nil.mp hPrefix
      simp at hEmpty
    · exact fun _ => trivial
  | cons b labels ih =>
    constructor
    · rintro ⟨hFirst, hRest⟩ first a hPrefix
      cases first with
      | nil =>
        obtain ⟨rfl, -⟩ := List.cons_prefix_cons.mp hPrefix
        exact hFirst
      | cons c first =>
        obtain ⟨rfl, hTail⟩ := List.cons_prefix_cons.mp hPrefix
        exact ih.mp hRest first a hTail
    · intro h
      refine ⟨h [] b (List.cons_prefix_cons.mpr ⟨rfl, List.nil_prefix⟩), ih.mpr ?_⟩
      intro first a hPrefix
      exact h (b :: first) a (List.cons_prefix_cons.mpr ⟨rfl, hPrefix⟩)

variable {I : σ → Prop}

theorem Along.judge {P : σ → α → Prop}
    (hStep : ∀ s a, I s → C s a → P s a ∧ I (step s a)) (hs : I s)
    (h : Along step C s labels) : Along step P s labels := by
  induction labels generalizing s with
  | nil => trivial
  | cons a labels ih =>
    obtain ⟨hGood, hNext⟩ := hStep s a hs h.1
    exact ⟨hGood, ih hNext h.2⟩

/-- What a step does is judged in the states of an invariant, which the judged steps keep. -/
theorem along_congr (hIff : ∀ s a, I s → (A s a ↔ B s a))
    (hKeep : ∀ s a, I s → B s a → I (step s a)) (hs : I s) (labels : List α) :
    Along step A s labels ↔ Along step B s labels := by
  induction labels generalizing s with
  | nil => exact Iff.rfl
  | cons a labels ih =>
    constructor
    · rintro ⟨hFirst, hRest⟩
      have hGood := (hIff s a hs).mp hFirst
      exact ⟨hGood, (ih (hKeep s a hs hGood)).mp hRest⟩
    · rintro ⟨hGood, hRest⟩
      exact ⟨(hIff s a hs).mpr hGood, (ih (hKeep s a hs hGood)).mpr hRest⟩

/-- A mark that is never taken away was there at first or was set by a step. -/
theorem mark_iff {M : σ → Prop} {T : σ → α → Prop} (hKeep : ∀ s a, I s → I (step s a))
    (hMark : ∀ s a, I s → (M (step s a) ↔ M s ∨ T s a)) (hs : I s) (labels : List α) :
    M (run step s labels) ↔ M s ∨ ¬ Along step (fun s a => ¬ T s a) s labels := by
  induction labels generalizing s with
  | nil =>
    rw [run_nil, Along, not_true_eq_false, or_false]
  | cons a labels ih =>
    rw [run_cons, ih (hKeep s a hs), hMark s a hs, Along, not_and_or, not_not, or_assoc]

/-- A property of all reached states is one of the first state and of what each step leads to. -/
theorem reached_iff_steps :
    (∀ first, first <+: labels → P (run step s first)) ↔
      P s ∧ Along step (fun s a => P (step s a)) s labels := by
  induction labels generalizing s with
  | nil =>
    constructor
    · exact fun h => ⟨h [] List.nil_prefix, trivial⟩
    · rintro ⟨hs, -⟩ first hPrefix
      rw [List.prefix_nil.mp hPrefix]
      exact hs
  | cons a labels ih =>
    constructor
    · intro h
      obtain ⟨hNext, hRest⟩ := ih.mp fun first hPrefix => h (a :: first) (List.cons_prefix_cons.mpr ⟨rfl, hPrefix⟩)
      exact ⟨h [] List.nil_prefix, hNext, hRest⟩
    · rintro ⟨hs, hNext, hRest⟩ first hPrefix
      cases first with
      | nil => exact hs
      | cons b first =>
        obtain ⟨rfl, hTail⟩ := List.cons_prefix_cons.mp hPrefix
        exact ih.mpr ⟨hNext, hRest⟩ first hTail

/-- A property of all reached states is exactly a condition on the steps, once an
invariant of the good steps implies the property and every bad step breaks it. -/
theorem reached_iff_along (hGood : ∀ s a, I s → C s a → I (step s a)) (hSafe : ∀ s, I s → P s)
    (hBad : ∀ s a, I s → P (step s a) → C s a) (hs : I s) (labels : List α) :
    (∀ first, first <+: labels → P (run step s first)) ↔ Along step C s labels := by
  constructor
  · intro h
    induction labels generalizing s with
    | nil => trivial
    | cons a labels ih =>
      have hC : C s a := hBad s a hs (h [a] ⟨labels, rfl⟩)
      refine ⟨hC, ih (hGood s a hs hC) ?_⟩
      rintro first ⟨second, rfl⟩
      exact h (a :: first) ⟨second, rfl⟩
  · intro h first hPrefix
    exact hSafe _ (invariant_along hGood hs (h.of_prefix hPrefix))

/-- Steps choose within what their keys leave open. What follows of a condition on all
choices of a step follows of it along all runs over the same keys. -/
theorem along_choices {κ : Type*} {key : α → κ} {K : κ → Prop}
    (hStep : ∀ s k, K k → (∀ a, key a = k → A s a) → ∀ a, key a = k → B s a) {keys : List κ}
    (hKeys : ∀ k ∈ keys, K k)
    (h : ∀ labels : List α, labels.map key = keys → Along step A s labels) :
    ∀ labels : List α, labels.map key = keys → Along step B s labels := by
  induction keys generalizing s with
  | nil =>
    intro labels hLabels
    obtain rfl := List.map_eq_nil_iff.mp hLabels
    trivial
  | cons k keys ih =>
    intro labels hLabels
    obtain ⟨a, rest, rfl, hKey, hRest⟩ := List.map_eq_cons_iff.mp hLabels
    constructor
    · refine hStep s k (hKeys k List.mem_cons_self) (fun b hb => ?_) a hKey
      exact (h (b :: rest) (by rw [List.map_cons, hb, hRest])).1
    · refine ih (fun l hl => hKeys l (List.mem_cons_of_mem _ hl)) (fun later hLater => ?_) rest hRest
      exact (h (a :: later) (by rw [List.map_cons, hKey, hLater])).2

variable (step) in
def amount (f : σ → α → Nat) : σ → List α → Nat
  | _, [] => 0
  | s, a :: labels => f s a + amount f (step s a) labels

/-- A run stays within a limit that bounds, in every state of the invariant, what was used
so far. -/
theorem amount_le {I : σ → Prop} {C : σ → α → Prop} {used : σ → Nat} {f : σ → α → Nat} {limit : Nat}
    (hStep : ∀ s a, I s → C s a → I (step s a) ∧ used (step s a) = used s + f s a)
    (hLimit : ∀ s, I s → used s ≤ limit) {s : σ} (hs : I s) {labels : List α}
    (h : Along step C s labels) : used s + amount step f s labels ≤ limit := by
  induction labels generalizing s with
  | nil => exact hLimit s hs
  | cons a labels ih =>
    obtain ⟨hNext, hUsed⟩ := hStep s a hs h.1
    have hRest := ih hNext h.2
    rw [hUsed, Nat.add_assoc] at hRest
    exact hRest

theorem run_fixed (h : ∀ a ∈ labels, step s a = s) :
    labels.foldl step s = s := by
  induction labels with
  | nil => rfl
  | cons a labels ih =>
    rw [List.foldl_cons, h a List.mem_cons_self]
    exact ih fun b hb => h b (List.mem_cons_of_mem _ hb)

end Total

section Partial

variable (step : σ → α → Option σ)

/-- The labels lead from the first state to the last with no label refused. -/
def Leads : σ → List α → σ → Prop
  | s, [], t => s = t
  | s, a :: labels, t => ∃ next, step s a = some next ∧ Leads next labels t

variable {step}

variable {s : σ} {labels : List α}

theorem Leads.invariant {P : σ → Prop} (hStep : ∀ s a t, P s → step s a = some t → P t) {t : σ}
    (h : Leads step s labels t) (hs : P s) : P t := by
  induction labels generalizing s with
  | nil => exact h ▸ hs
  | cons a labels ih =>
    obtain ⟨next, hNext, hRest⟩ := h
    exact ih hRest (hStep s a next hs hNext)

theorem foldlM_invariant {P : σ → Prop} (hStep : ∀ s a t, P s → step s a = some t → P t) {t : σ}
    (h : labels.foldlM step s = some t) (hs : P s) : P t := by
  induction labels generalizing s with
  | nil => exact Option.some.inj h ▸ hs
  | cons a labels ih =>
    rw [List.foldlM_cons] at h
    obtain ⟨next, hNext, hRest⟩ := Option.bind_eq_some_iff.mp h
    exact ih hRest (hStep s a next hs hNext)

theorem foldlM_kept {P : σ → Prop} (hStep : ∀ s a, P s → ∃ t, step s a = some t ∧ P t) (hs : P s)
    (labels : List α) : ∃ t, labels.foldlM step s = some t ∧ P t := by
  induction labels generalizing s with
  | nil => exact ⟨s, rfl, hs⟩
  | cons a labels ih =>
    obtain ⟨next, hNext, hP⟩ := hStep s a hs
    rw [List.foldlM_cons, hNext]
    exact ih hP

theorem foldlM_eq_some_foldl {next : σ → α → σ}
    (h : ∀ s, ∀ a ∈ labels, step s a = some (next s a)) (s : σ) :
    labels.foldlM step s = some (labels.foldl next s) := by
  induction labels generalizing s with
  | nil => rfl
  | cons a labels ih =>
    rw [List.foldlM_cons, h s a List.mem_cons_self]
    exact ih (fun t b hb => h t b (List.mem_cons_of_mem _ hb)) _

theorem foldlM_isSome (h : ∀ s, ∀ a ∈ labels, (step s a).isSome) (s : σ) :
    (labels.foldlM step s).isSome := by
  have hAll : ∀ t, ∀ a ∈ labels, step t a = some ((step t a).getD t) := by
    intro t a ha
    obtain ⟨u, hu⟩ := Option.isSome_iff_exists.mp (h t a ha)
    rw [hu]
    rfl
  rw [foldlM_eq_some_foldl hAll]
  rfl

theorem foldlM_fixed (h : ∀ a ∈ labels, step s a = some s) :
    labels.foldlM step s = some s := by
  induction labels with
  | nil => rfl
  | cons a labels ih =>
    rw [List.foldlM_cons, h a List.mem_cons_self]
    exact ih fun b hb => h b (List.mem_cons_of_mem _ hb)

end Partial

end Library.Transition
