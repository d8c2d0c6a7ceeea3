import AshamaneCore.Library.KeyedSet

/-!
# Meets by groups

The values of a list are met group by group, and a group whose meet cannot
change any more takes no further values. A test that respects meets holds of a
group exactly when it holds of all its values.
-/

namespace Library.GroupedMeets

universe u v w

variable {κ : Type u} [LinearOrder κ] {α : Type v} {β : Type w}

structure Group (κ : Type u) (β : Type w) where
  key : κ
  value : β

structure Combine (β : Type w) where
  top : β
  meet : β → β → β
  exhausted : β → Bool

abbrev Groups (κ : Type u) [LinearOrder κ] (β : Type w) := KeyedSet (Group.key : Group κ β → κ)

section

variable (combine : Combine β) (key : α → κ) (value : α → Option β)

def met (groups : Groups κ β) (k : κ) : β := ((groups.find? k).map Group.value).getD combine.top

def step (groups : Groups κ β) (a : α) : Option (Groups κ β) :=
  if (groups.find? (key a)).any fun group => combine.exhausted group.value then some groups
  else (value a).map fun b => groups.assign ⟨key a, combine.meet (met combine groups (key a)) b⟩

def collect (list : List α) : Option (Groups κ β) := list.foldlM (step combine key value) KeyedSet.empty

end

structure Test (combine : Combine β) where
  test : β → Bool
  top : test combine.top = true
  meet : ∀ a b, test (combine.meet a b) = (test a && test b)
  exhausted : ∀ a, combine.exhausted a = true → test a = false

section

variable {combine : Combine β} {key : α → κ} {value : α → Option β} (t : Test combine)

def Passes (value : α → Option β) (a : α) : Prop := ∃ b, value a = some b ∧ t.test b = true

variable {groups : Groups κ β}

theorem step_spec {groups' : Groups κ β} {a : α} (h : step combine key value groups a = some groups') (k : κ) :
    (t.test (met combine groups' k) = true ↔
      t.test (met combine groups k) = true ∧ (key a = k → Passes t value a)) ∧
    ((groups'.find? k).isSome ↔ (groups.find? k).isSome ∨ key a = k) := by
  rw [step] at h
  split at h
  · rename_i hExhausted
    obtain rfl := Option.some.inj h
    obtain ⟨group, hFind, hGroup⟩ := (Option.any_eq_true _ _).mp hExhausted
    constructor
    · refine ⟨fun hTest => ⟨hTest, fun hKey => ?_⟩, And.left⟩
      have hMet : met combine groups k = group.value := by
        rw [met, ← hKey, hFind]
        rfl
      rw [hMet, t.exhausted _ hGroup] at hTest
      cases hTest
    · refine ⟨Or.inl, fun hOr => hOr.elim id fun hKey => ?_⟩
      rw [← hKey, hFind]
      rfl
  · obtain ⟨b, hValue, hGroups⟩ := Option.map_eq_some_iff.mp h
    have hFind : groups'.find? k =
        if k = key a then some ⟨key a, combine.meet (met combine groups (key a)) b⟩ else groups.find? k := by
      rw [← hGroups]
      exact KeyedSet.find?_assign_eq _ _ _
    have hPasses : Passes t value a ↔ t.test b = true := by
      constructor
      · rintro ⟨b', hValue', hTest⟩
        rwa [Option.some.inj (hValue.symm.trans hValue')]
      · exact fun hTest => ⟨b, hValue, hTest⟩
    by_cases hKey : k = key a
    · rw [if_pos hKey] at hFind
      have hMet : met combine groups' k = combine.meet (met combine groups k) b := by
        rw [met, hFind, hKey]
        rfl
      constructor
      · rw [hMet, t.meet, Bool.and_eq_true, hPasses]
        exact and_congr_right fun _ => ⟨fun hTest _ => hTest, fun hTest => hTest hKey.symm⟩
      · rw [hFind]
        exact ⟨fun _ => Or.inr hKey.symm, fun _ => rfl⟩
    · rw [if_neg hKey] at hFind
      have hMet : met combine groups' k = met combine groups k := by
        rw [met, hFind]
        rfl
      constructor
      · rw [hMet]
        exact ⟨fun hTest => ⟨hTest, fun hEq => absurd hEq.symm hKey⟩, And.left⟩
      · rw [hFind]
        exact ⟨Or.inl, fun hOr => hOr.resolve_right fun hEq => hKey hEq.symm⟩

variable {list : List α}

theorem foldlM_spec {groups' : Groups κ β}
    (h : list.foldlM (step combine key value) groups = some groups') (k : κ) :
    (t.test (met combine groups' k) = true ↔
      t.test (met combine groups k) = true ∧ ∀ a ∈ list, key a = k → Passes t value a) ∧
    ((groups'.find? k).isSome ↔ (groups.find? k).isSome ∨ ∃ a ∈ list, key a = k) := by
  induction list generalizing groups with
  | nil =>
    obtain rfl := Option.some.inj h
    simp
  | cons a list ih =>
    rw [List.foldlM_cons] at h
    obtain ⟨next, hNext, hRest⟩ := Option.bind_eq_some_iff.mp h
    obtain ⟨hTest, hFind⟩ := step_spec t hNext k
    obtain ⟨hTests, hFinds⟩ := ih hRest
    constructor
    · rw [hTests, hTest, List.forall_mem_cons, and_assoc]
    · rw [hFinds, hFind, or_assoc]
      simp only [List.mem_cons, exists_eq_or_imp]

/-- The test holds of some group exactly when it holds of all values with one key. -/
theorem collect_spec (h : collect combine key value list = some groups) :
    (groups.entries.any fun group => t.test group.value) = true ↔
      ∃ k, (∃ a ∈ list, key a = k) ∧ ∀ a ∈ list, key a = k → Passes t value a := by
  have hSpec := foldlM_spec t h
  have hEmpty : ∀ k, t.test (met combine (KeyedSet.empty : Groups κ β) k) = true := fun k => t.top
  have hNothing : ∀ k, ((KeyedSet.empty : Groups κ β).find? k).isSome = false := fun k => rfl
  rw [List.any_eq_true]
  constructor
  · rintro ⟨group, hGroup, hTest⟩
    have hFind : groups.find? group.key = some group := KeyedSet.find?_eq_some_iff.mpr ⟨hGroup, rfl⟩
    obtain ⟨hMet, hSome⟩ := hSpec group.key
    refine ⟨group.key, ?_, ?_⟩
    · rw [hFind, hNothing] at hSome
      exact (hSome.mp rfl).resolve_left Bool.false_ne_true
    · rw [met, hFind] at hMet
      exact (hMet.mp hTest).2
  · rintro ⟨k, hExists, hAll⟩
    obtain ⟨hMet, hSome⟩ := hSpec k
    obtain ⟨group, hFind⟩ := Option.isSome_iff_exists.mp (hSome.mpr (Or.inr hExists))
    have hTest := hMet.mpr ⟨hEmpty k, hAll⟩
    rw [met, hFind] at hTest
    exact ⟨group, (KeyedSet.find?_eq_some_iff.mp hFind).1, hTest⟩

theorem foldlM_isSome (combine : Combine β) (key : α → κ) (h : ∀ a ∈ list, (value a).isSome) (groups : Groups κ β) :
    (list.foldlM (step combine key value) groups).isSome := by
  induction list generalizing groups with
  | nil => rfl
  | cons a list ih =>
    obtain ⟨hFirst, hRest⟩ := List.forall_mem_cons.mp h
    have hNext : (step combine key value groups a).isSome := by
      rw [step]
      split
      · rfl
      · rw [Option.isSome_map]
        exact hFirst
    obtain ⟨next, hNext⟩ := Option.isSome_iff_exists.mp hNext
    rw [List.foldlM_cons, hNext]
    exact ih hRest next

end

end Library.GroupedMeets
