import Mathlib.Data.Set.Card
import Mathlib.Logic.Relation

/-!
# Recursions that end

A recursion is unfolded to a depth. It ends at some depth where no cycle of calls
is in reach, and at none where every call on a cycle is really made. What is known
of all answers may be used at each call.
-/

namespace Library.BoundedRecursion

universe u v w

variable {α : Type u} {σ : Type v} {τ : Type w}

def unfolded (body : (α → σ → Option τ) → α → σ → Option τ) : Nat → α → σ → Option τ
  | 0, _, _ => none
  | depth + 1, a, s => body (unfolded body depth) a s

/-- From some depth on there is an answer, whatever the argument. -/
def Ends (body : (α → σ → Option τ) → α → σ → Option τ) (a : α) : Prop :=
  ∃ depth, ∀ n, depth ≤ n → ∀ s, (unfolded body n a s).isSome = true

def Endless (calls : α → α → Prop) (a : α) : Prop :=
  ∃ b, Relation.ReflTransGen calls a b ∧ Relation.TransGen calls b b

section Graph

variable {calls : α → α → Prop} {a b : α}

theorem Endless.exists_call (h : Endless calls a) : ∃ b, calls a b ∧ Endless calls b := by
  obtain ⟨c, hReach, hCycle⟩ := h
  rcases Relation.ReflTransGen.cases_head hReach with rfl | ⟨b, hCall, hRest⟩
  · obtain ⟨b, hCall, hBack⟩ := Relation.TransGen.head'_iff.mp hCycle
    exact ⟨b, hCall, a, hBack, hCycle⟩
  · exact ⟨b, hCall, c, hRest, hCycle⟩

theorem Endless.of_call (hCall : calls a b) (h : Endless calls b) : Endless calls a := by
  obtain ⟨c, hReach, hCycle⟩ := h
  exact ⟨c, hReach.head hCall, hCycle⟩

theorem ncard_reach_lt (hFinite : {b | ∃ a, calls a b}.Finite) (h : ¬ Endless calls a) (hCall : calls a b) :
    {c | Relation.TransGen calls b c}.ncard < {c | Relation.TransGen calls a c}.ncard := by
  apply Set.ncard_lt_ncard
  · refine ⟨fun c hReach => Relation.TransGen.head hCall hReach, fun hSub => ?_⟩
    have hSelf : Relation.TransGen calls b b := hSub (Relation.TransGen.single hCall)
    exact h ⟨b, Relation.ReflTransGen.single hCall, hSelf⟩
  · refine hFinite.subset fun c hReach => ?_
    obtain ⟨d, -, hLast⟩ := Relation.TransGen.tail'_iff.mp hReach
    exact ⟨d, hLast⟩

end Graph

section Recursion

variable {body : (α → σ → Option τ) → α → σ → Option τ} {calls : α → α → Prop} {P : α → σ → τ → Prop}

def Good (P : α → σ → τ → Prop) (f : α → σ → Option τ) : Prop := ∀ a s v, f a s = some v → P a s v

theorem unfolded_good (hGood : ∀ f, Good P f → Good P (body f)) (n : Nat) : Good P (unfolded body n) := by
  induction n with
  | zero =>
    intro a s v h
    cases h
  | succ n ih => exact hGood _ ih

variable {a : α}

theorem ends_of_not_endless (hFinite : {b | ∃ a, calls a b}.Finite) (hGood : ∀ f, Good P f → Good P (body f))
    (hStep : ∀ f a, Good P f → (∀ b, calls a b → ∀ s, (f b s).isSome = true) → ∀ s, (body f a s).isSome = true)
    (h : ¬ Endless calls a) : Ends body a := by
  have hDeep : ∀ n a, ¬ Endless calls a → {c | Relation.TransGen calls a c}.ncard < n →
      ∀ s, (unfolded body n a s).isSome = true := by
    intro n
    induction n with
    | zero => exact fun a _ hLt => absurd hLt (Nat.not_lt_zero _)
    | succ n ih =>
      intro a hEnd hLt
      refine hStep _ a (unfolded_good hGood n) fun b hCall => ih b ?_ ?_
      · exact fun hEndless => hEnd (hEndless.of_call hCall)
      · exact (ncard_reach_lt hFinite hEnd hCall).trans_le (Nat.le_of_lt_succ hLt)
  exact ⟨_, fun n hn => hDeep n a h hn⟩

/-- Where no cycle is in reach, a recursion whose rounds answer well once their calls do answers well. -/
theorem answers_of_not_endless (body : (α → σ → Option τ) → α → σ → Option τ) {I : α → Prop}
    (hFinite : {b | ∃ a, calls a b}.Finite)
    (hClosed : ∀ a b, I a → calls a b → I b)
    (hStep : ∀ f a, I a → (∀ b, calls a b → ∀ s, ∃ v, f b s = some v ∧ P b s v) →
      ∀ s, ∃ v, body f a s = some v ∧ P a s v) (ha : I a) (h : ¬ Endless calls a) :
    ∃ depth, ∀ n, depth ≤ n → ∀ s, ∃ v, unfolded body n a s = some v ∧ P a s v := by
  have hDeep : ∀ n a, I a → ¬ Endless calls a → {c | Relation.TransGen calls a c}.ncard < n →
      ∀ s, ∃ v, unfolded body n a s = some v ∧ P a s v := by
    intro n
    induction n with
    | zero => exact fun a _ _ hLt => absurd hLt (Nat.not_lt_zero _)
    | succ n ih =>
      intro a ha hEnd hLt
      refine hStep _ a ha fun b hCall => ih b (hClosed a b ha hCall) ?_ ?_
      · exact fun hEndless => hEnd (hEndless.of_call hCall)
      · exact (ncard_reach_lt hFinite hEnd hCall).trans_le (Nat.le_of_lt_succ hLt)
  exact ⟨_, fun n hn => hDeep n a ha h hn⟩

theorem unfolded_eq_none (hGood : ∀ f, Good P f → Good P (body f))
    (hStop : ∀ f a b, Good P f → calls a b → (∀ s, f b s = none) → ∀ s, body f a s = none) (h : Endless calls a)
    (n : Nat) : ∀ s, unfolded body n a s = none := by
  induction n generalizing a with
  | zero => exact fun s => rfl
  | succ n ih =>
    obtain ⟨b, hCall, hEndless⟩ := h.exists_call
    exact hStop _ a b (unfolded_good hGood n) hCall (ih hEndless)

end Recursion

/-! ## Recursions along ranks -/

/-- Two recursions that agree wherever their calls do are equal at every depth above the rank. -/
theorem eq_of_rank {β : Type w} {rank : α → Nat} {calls : α → List α} (hRank : ∀ a, ∀ b ∈ calls a, rank b < rank a)
    {run run' : Nat → α → β}
    (hStep : ∀ n m a, (∀ b ∈ calls a, rank b < n ∧ rank b < m ∧ run n b = run' m b) →
      run (n + 1) a = run' (m + 1) a) {n : Nat} :
    ∀ {m : Nat} {a : α}, rank a < n → rank a < m → run n a = run' m a := by
  induction n with
  | zero => exact fun h => absurd h (Nat.not_lt_zero _)
  | succ n ih =>
    intro m a hn hm
    cases m with
    | zero => exact absurd hm (Nat.not_lt_zero _)
    | succ m =>
      refine hStep n m a fun b hb => ?_
      have hLower := hRank a b hb
      have hLeft : rank b < n := by omega
      have hRight : rank b < m := by omega
      exact ⟨hLeft, hRight, ih hLeft hRight⟩

/-! ## Loops whose rounds may not end -/

section Loops

variable {β : Type w}

variable {f : β → α → Option β} {l : List α}

theorem foldlM_isSome (h : ∀ a ∈ l, ∀ s, (f s a).isSome = true) (s : β) :
    (l.foldlM f s).isSome = true := by
  induction l generalizing s with
  | nil => rfl
  | cons a l ih =>
    obtain ⟨next, hNext⟩ := Option.isSome_iff_exists.mp (h a List.mem_cons_self s)
    rw [List.foldlM_cons, hNext]
    exact ih (fun b hb => h b (List.mem_cons_of_mem _ hb)) next

theorem foldlM_preserves {good : β → Prop} {s t : β}
    (h : ∀ a ∈ l, ∀ s t, good s → f s a = some t → good t) (hs : good s) (hRun : l.foldlM f s = some t) : good t := by
  induction l generalizing s with
  | nil =>
    obtain rfl := Option.some.inj hRun
    exact hs
  | cons a l ih =>
    rw [List.foldlM_cons] at hRun
    obtain ⟨next, hNext, hRest⟩ := Option.bind_eq_some_iff.mp hRun
    exact ih (fun b hb => h b (List.mem_cons_of_mem _ hb)) (h a List.mem_cons_self s next hs hNext) hRest

theorem foldlM_eq_none {a : α} (ha : a ∈ l) (h : ∀ s, f s a = none) (s : β) :
    l.foldlM f s = none := by
  induction l generalizing s with
  | nil => exact absurd ha List.not_mem_nil
  | cons b l ih =>
    rw [List.foldlM_cons]
    rcases List.mem_cons.mp ha with rfl | hRest
    · rw [h s]
      rfl
    · cases f s b with
      | none => rfl
      | some next => exact ih hRest next

variable {p : α → Option Bool} {Q : α → Prop}

theorem anyM_eq_some (hAnswer : ∀ a v, p a = some v → (v = true ↔ Q a)) {v : Bool}
    (h : l.anyM p = some v) : v = true ↔ ∃ a ∈ l, Q a := by
  induction l with
  | nil =>
    obtain rfl := Option.some.inj h
    simp
  | cons a l ih =>
    rw [List.exists_mem_cons_iff]
    rw [List.anyM_cons] at h
    obtain ⟨first, hFirst, hRest⟩ := Option.bind_eq_some_iff.mp h
    cases first with
    | true =>
      obtain rfl := Option.some.inj hRest
      exact iff_of_true rfl (Or.inl ((hAnswer a true hFirst).mp rfl))
    | false =>
      have hNot : ¬ Q a := fun hQ => Bool.false_ne_true ((hAnswer a false hFirst).mpr hQ)
      rw [or_iff_right hNot]
      exact ih hRest

theorem anyM_isSome (hAnswer : ∀ a v, p a = some v → (v = true ↔ Q a))
    (h : ∀ before a after, l = before ++ a :: after → (∀ b ∈ before, ¬ Q b) → (p a).isSome = true) :
    (l.anyM p).isSome = true := by
  induction l with
  | nil => rfl
  | cons a l ih =>
    obtain ⟨first, hFirst⟩ := Option.isSome_iff_exists.mp (h [] a l rfl fun b hb => absurd hb List.not_mem_nil)
    rw [List.anyM_cons, hFirst]
    cases first with
    | true => rfl
    | false =>
      have hNot : ¬ Q a := fun hQ => Bool.false_ne_true ((hAnswer a false hFirst).mpr hQ)
      refine ih fun before b after hSplit hBefore => h (a :: before) b after (by rw [hSplit]; rfl) ?_
      exact List.forall_mem_cons.mpr ⟨hNot, hBefore⟩

theorem anyM_eq_none (hAnswer : ∀ a v, p a = some v → (v = true ↔ Q a)) {before after : List α} {a : α}
    (hBefore : ∀ b ∈ before, ¬ Q b) (h : p a = none) : (before ++ a :: after).anyM p = none := by
  induction before with
  | nil =>
    rw [List.nil_append, List.anyM_cons, h]
    rfl
  | cons b before ih =>
    obtain ⟨hNot, hRest⟩ := List.forall_mem_cons.mp hBefore
    rw [List.cons_append, List.anyM_cons]
    cases hFirst : p b with
    | none => rfl
    | some first =>
      cases first with
      | true => exact absurd ((hAnswer b true hFirst).mp rfl) hNot
      | false => exact ih hRest

end Loops

end Library.BoundedRecursion
