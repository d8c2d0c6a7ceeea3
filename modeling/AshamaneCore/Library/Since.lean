import AshamaneCore.Library.Transition

/-!
# What has not changed since a mark

A flag that only a marked step raises, and that every step which touches the
view lowers, tells that the view is still what it was at the mark.
-/

namespace Library.Transition

variable {σ α β : Type*} (step : σ → α → σ)

/-- A marked step of the run, behind which the view was always what it is at the end. -/
def UnchangedSince (Mark : σ → α → Prop) (view : σ → β) (s : σ) (labels : List α) : Prop :=
  ∃ early a late, labels = early ++ a :: late ∧ Mark (run step s early) a ∧
    ∀ first, first <+: late → view (run step s (early ++ a :: first)) = view (run step s labels)

variable {step} {Mark : σ → α → Prop} {view : σ → β} {s : σ} {labels : List α} {a : α}

theorem unchangedSince_mark (h : Mark (run step s labels) a) :
    UnchangedSince step Mark view s (labels ++ [a]) := by
  refine ⟨labels, a, [], rfl, h, fun first hPrefix => ?_⟩
  rw [List.prefix_nil.mp hPrefix]

theorem UnchangedSince.extend (h : UnchangedSince step Mark view s labels)
    (hView : view (run step s (labels ++ [a])) = view (run step s labels)) :
    UnchangedSince step Mark view s (labels ++ [a]) := by
  obtain ⟨early, b, late, rfl, hMark, hSame⟩ := h
  refine ⟨early, b, late ++ [a], by simp, hMark, fun first hPrefix => ?_⟩
  rcases List.prefix_concat_iff.mp hPrefix with rfl | hShort
  · rw [List.append_assoc, List.cons_append]
  · rw [hView]
    exact hSame first hShort

theorem unchangedSince_of_flag {flag : σ → Prop} {C : σ → α → Prop}
    (hStep : ∀ s a, C s a → flag (step s a) → Mark s a ∨ flag s ∧ view (step s a) = view s)
    (hStart : ¬ flag s) (h : Along step C s labels) (hFlag : flag (run step s labels)) :
    UnchangedSince step Mark view s labels := by
  induction labels using List.reverseRecOn with
  | nil => exact absurd hFlag hStart
  | append_singleton labels a ih =>
    have hBefore := h.of_prefix (List.prefix_append labels [a])
    have hLast : C (run step s labels) a := along_iff_forall.mp h labels a (List.prefix_refl _)
    rw [run_append] at hFlag
    rcases hStep _ a hLast hFlag with hMark | ⟨hOld, hView⟩
    · exact unchangedSince_mark hMark
    · exact (ih hBefore hOld).extend (by rw [run_append]; exact hView)

end Library.Transition
