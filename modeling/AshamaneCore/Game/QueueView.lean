import AshamaneCore.Game.BattlegroundQueue
import Mathlib.Data.Set.Basic

/-!
# What the battleground queue stands for

The lists, the faction and the players of each group, and the group of each player. A
group joins a list, moves to another one, loses a player or is disbanded; each of these
keeps the structure of the queue.
-/

namespace AshamaneCore.Battlegrounds

structure QueueView where
  lists : ListId → List Nat
  groups : Nat → Option (Team × Set ObjectGuid)
  groupOf : ObjectGuid → Option Nat

namespace QueueView

/-- Every group stands in one list of its faction and has players, and players and groups
know each other. -/
structure Structured (v : QueueView) (nextGroup : Nat) : Prop where
  nodup : ∀ list, (v.lists list).Nodup
  apart : ∀ list other id, id ∈ v.lists list → id ∈ v.lists other → list = other
  listed : ∀ list id, id ∈ v.lists list → ∃ players, v.groups id = some (list.team, players)
  placed : ∀ id g, v.groups id = some g → ∃ list, id ∈ v.lists list
  nonempty : ∀ id g, v.groups id = some g → g.2.Nonempty
  members : ∀ id g, v.groups id = some g → ∀ guid ∈ g.2, v.groupOf guid = some id
  points : ∀ guid id, v.groupOf guid = some id → ∃ g, v.groups id = some g ∧ guid ∈ g.2
  known : ∀ id g, v.groups id = some g → id < nextGroup

def empty : QueueView := ⟨fun _ => [], fun _ => none, fun _ => none⟩

theorem structured_empty (nextGroup : Nat) : Structured empty nextGroup :=
  ⟨fun _ => List.nodup_nil, fun _ _ _ h => absurd h List.not_mem_nil,
    fun _ _ h => absurd h List.not_mem_nil, fun _ _ h => absurd h.symm (Option.some_ne_none _),
    fun _ _ h => absurd h.symm (Option.some_ne_none _), fun _ _ h => absurd h.symm (Option.some_ne_none _),
    fun _ _ h => absurd h.symm (Option.some_ne_none _), fun _ _ h => absurd h.symm (Option.some_ne_none _)⟩

variable {v : QueueView} {nextGroup : Nat}

/-! ## Moves between the lists -/

/-- A group goes to the front of another list, and to its faction. -/
def move (v : QueueView) (src dest : ListId) (id : Nat) : QueueView where
  lists := Function.update (Function.update v.lists dest (id :: v.lists dest)) src ((v.lists src).erase id)
  groups := Function.update v.groups id ((v.groups id).map fun g => (dest.team, g.2))
  groupOf := v.groupOf

variable {src dest list : ListId} {id other : Nat}

theorem Structured.mem_move (h : Structured v nextGroup)
    (hMem : id ∈ v.lists src) (hOther : src ≠ dest) :
    other ∈ (v.move src dest id).lists list ↔
      other = id ∧ list = dest ∨ other ≠ id ∧ other ∈ v.lists list := by
  unfold move
  simp only
  by_cases hSrc : list = src
  · subst hSrc
    rw [Function.update_self, (h.nodup list).mem_erase_iff]
    constructor
    · exact Or.inr
    · rintro (⟨-, hDest⟩ | hKept)
      · exact absurd hDest hOther
      · exact hKept
  · rw [Function.update_of_ne hSrc]
    by_cases hDest : list = dest
    · subst hDest
      rw [Function.update_self, List.mem_cons]
      constructor
      · rintro (rfl | hIn)
        · exact Or.inl ⟨rfl, rfl⟩
        · by_cases hSame : other = id
          · exact Or.inl ⟨hSame, rfl⟩
          · exact Or.inr ⟨hSame, hIn⟩
      · rintro (⟨hSame, -⟩ | ⟨-, hIn⟩)
        · exact Or.inl hSame
        · exact Or.inr hIn
    · rw [Function.update_of_ne hDest]
      constructor
      · intro hIn
        refine Or.inr ⟨?_, hIn⟩
        rintro rfl
        exact hSrc (h.apart _ _ _ hIn hMem)
      · rintro (⟨-, hAt⟩ | ⟨-, hIn⟩)
        · exact absurd hAt hDest
        · exact hIn

theorem Structured.nodup_move (h : Structured v nextGroup)
    (hMem : id ∈ v.lists src) (hOther : src ≠ dest) (list : ListId) :
    ((v.move src dest id).lists list).Nodup := by
  unfold move
  simp only
  by_cases hSrc : list = src
  · subst hSrc
    rw [Function.update_self]
    exact (h.nodup list).erase id
  · rw [Function.update_of_ne hSrc]
    by_cases hDest : list = dest
    · subst hDest
      rw [Function.update_self, List.nodup_cons]
      exact ⟨fun hIn => hOther (h.apart _ _ _ hMem hIn), h.nodup list⟩
    · rw [Function.update_of_ne hDest]
      exact h.nodup list

variable {g : Team × Set ObjectGuid}

theorem groups_update {α : Type} (part : Team × Set ObjectGuid → α) (f : Team × Set ObjectGuid → Team × Set ObjectGuid)
    (hPart : ∀ g, part (f g) = part g) {groups : Nat → Option (Team × Set ObjectGuid)}
    (h : Function.update groups id ((groups id).map f) other = some g) :
    ∃ old, groups other = some old ∧ part old = part g ∧ (other = id → g = f old) ∧ (other ≠ id → old = g) := by
  by_cases hSame : other = id
  · subst hSame
    rw [Function.update_self] at h
    obtain ⟨old, hOld, rfl⟩ := Option.map_eq_some_iff.mp h
    exact ⟨old, hOld, (hPart old).symm, fun _ => rfl, fun hNe => absurd rfl hNe⟩
  · rw [Function.update_of_ne hSame] at h
    exact ⟨g, h, rfl, fun hEq => absurd hEq hSame, fun _ => rfl⟩

theorem groups_move (v : QueueView) (src dest : ListId) (h : (v.move src dest id).groups other = some g) :
    ∃ old, v.groups other = some old ∧ old.2 = g.2 ∧ (other = id → g.1 = dest.team) ∧
      (other ≠ id → old = g) := by
  obtain ⟨old, hOld, hPlayers, hNew, hElse⟩ := groups_update Prod.snd (fun g => (dest.team, g.2)) (fun _ => rfl) h
  exact ⟨old, hOld, hPlayers, fun hSame => congrArg Prod.fst (hNew hSame), hElse⟩

theorem Structured.move (h : Structured v nextGroup)
    (hMem : id ∈ v.lists src) (hOther : src ≠ dest) : Structured (v.move src dest id) nextGroup where
  nodup := h.nodup_move hMem hOther
  apart list other k hFirst hSecond := by
    rw [h.mem_move hMem hOther] at hFirst hSecond
    obtain ⟨hSame, rfl⟩ | ⟨hNe, hIn⟩ := hFirst
    · obtain ⟨-, rfl⟩ | ⟨hNot, -⟩ := hSecond
      · rfl
      · exact absurd hSame hNot
    · obtain ⟨hSame, -⟩ | ⟨-, hThere⟩ := hSecond
      · exact absurd hSame hNe
      · exact h.apart _ _ _ hIn hThere
  listed list k hIn := by
    rw [h.mem_move hMem hOther] at hIn
    obtain ⟨rfl, rfl⟩ | ⟨hNe, hIn⟩ := hIn
    · obtain ⟨players, hGroup⟩ := h.listed _ _ hMem
      refine ⟨players, ?_⟩
      unfold QueueView.move
      simp only [Function.update_self, hGroup, Option.map_some]
    · obtain ⟨players, hGroup⟩ := h.listed _ _ hIn
      exact ⟨players, (Function.update_of_ne hNe _ _).trans hGroup⟩
  placed k g hGroup := by
    obtain ⟨old, hOld, -⟩ := groups_move v src dest hGroup
    by_cases hSame : k = id
    · exact ⟨dest, (h.mem_move hMem hOther).mpr (Or.inl ⟨hSame, rfl⟩)⟩
    · obtain ⟨list, hIn⟩ := h.placed k old hOld
      exact ⟨list, (h.mem_move hMem hOther).mpr (Or.inr ⟨hSame, hIn⟩)⟩
  nonempty k g hGroup := by
    obtain ⟨old, hOld, hPlayers, -⟩ := groups_move v src dest hGroup
    rw [← hPlayers]
    exact h.nonempty k old hOld
  members k g hGroup guid hGuid := by
    obtain ⟨old, hOld, hPlayers, -⟩ := groups_move v src dest hGroup
    rw [← hPlayers] at hGuid
    exact h.members k old hOld guid hGuid
  points guid k hOf := by
    obtain ⟨old, hOld, hGuid⟩ := h.points guid k hOf
    by_cases hSame : k = id
    · subst hSame
      refine ⟨(dest.team, old.2), ?_, hGuid⟩
      unfold QueueView.move
      simp only [Function.update_self, hOld, Option.map_some]
    · exact ⟨old, (Function.update_of_ne hSame _ _).trans hOld, hGuid⟩
  known k g hGroup := by
    obtain ⟨old, hOld, -⟩ := groups_move v src dest hGroup
    exact h.known k old hOld

/-! ## Leaving -/

def leave (v : QueueView) (guid : ObjectGuid) (id : Nat) : QueueView where
  lists := v.lists
  groups := Function.update v.groups id ((v.groups id).map fun g => (g.1, g.2 \ {guid}))
  groupOf := Function.update v.groupOf guid none

theorem groups_leave (v : QueueView) (guid : ObjectGuid)
    (h : (v.leave guid id).groups other = some g) :
    ∃ old, v.groups other = some old ∧ g.1 = old.1 ∧ (other = id → g.2 = old.2 \ {guid}) ∧
      (other ≠ id → old = g) := by
  obtain ⟨old, hOld, hTeam, hNew, hElse⟩ := groups_update Prod.fst (fun g => (g.1, g.2 \ {guid})) (fun _ => rfl) h
  exact ⟨old, hOld, hTeam.symm, fun hSame => congrArg Prod.snd (hNew hSame), hElse⟩

theorem Structured.leave (h : Structured v nextGroup) {guid : ObjectGuid}
    (hOf : v.groupOf guid = some id) (hLeft : ∀ g, v.groups id = some g → (g.2 \ {guid}).Nonempty) :
    Structured (v.leave guid id) nextGroup where
  nodup := h.nodup
  apart := h.apart
  listed list k hIn := by
    obtain ⟨players, hGroup⟩ := h.listed list k hIn
    unfold QueueView.leave
    simp only
    by_cases hSame : k = id
    · subst hSame
      rw [Function.update_self, hGroup]
      exact ⟨players \ {guid}, rfl⟩
    · rw [Function.update_of_ne hSame]
      exact ⟨players, hGroup⟩
  placed k g hGroup := by
    obtain ⟨old, hOld, -⟩ := groups_leave v guid hGroup
    exact h.placed k old hOld
  nonempty k g hGroup := by
    obtain ⟨old, hOld, -, hPlayers, hSame⟩ := groups_leave v guid hGroup
    by_cases hId : k = id
    · rw [hPlayers hId]
      exact hLeft old (hId ▸ hOld)
    · rw [← hSame hId]
      exact h.nonempty k old hOld
  members k g hGroup x hx := by
    obtain ⟨old, hOld, -, hPlayers, hSame⟩ := groups_leave v guid hGroup
    by_cases hId : k = id
    · rw [hPlayers hId] at hx
      exact (Function.update_of_ne hx.2 _ _).trans (h.members k old hOld x hx.1)
    · rw [← hSame hId] at hx
      have hOther : x ≠ guid := by
        rintro rfl
        exact hId (Option.some.inj ((h.members k old hOld x hx).symm.trans hOf))
      exact (Function.update_of_ne hOther _ _).trans (h.members k old hOld x hx)
  points x k hx := by
    unfold QueueView.leave at hx ⊢
    simp only at hx ⊢
    have hOther : x ≠ guid := by
      rintro rfl
      rw [Function.update_self] at hx
      cases hx
    rw [Function.update_of_ne hOther] at hx
    obtain ⟨g, hGroup, hIn⟩ := h.points x k hx
    by_cases hSame : k = id
    · subst hSame
      rw [Function.update_self, hGroup]
      exact ⟨(g.1, g.2 \ {guid}), rfl, hIn, hOther⟩
    · rw [Function.update_of_ne hSame]
      exact ⟨g, hGroup, hIn⟩
  known k g hGroup := by
    obtain ⟨old, hOld, -⟩ := groups_leave v guid hGroup
    exact h.known k old hOld

def disband (v : QueueView) (list : ListId) (guid : ObjectGuid) (id : Nat) : QueueView where
  lists := Function.update v.lists list ((v.lists list).erase id)
  groups := Function.update v.groups id none
  groupOf := Function.update v.groupOf guid none

theorem Structured.mem_disband (h : Structured v nextGroup)
    (hMem : id ∈ v.lists list) (guid : ObjectGuid) {l : ListId} :
    other ∈ (v.disband list guid id).lists l ↔ other ≠ id ∧ other ∈ v.lists l := by
  unfold disband
  simp only
  by_cases hList : l = list
  · subst hList
    rw [Function.update_self, (h.nodup l).mem_erase_iff]
  · rw [Function.update_of_ne hList]
    constructor
    · intro hIn
      refine ⟨?_, hIn⟩
      rintro rfl
      exact hList (h.apart _ _ _ hIn hMem)
    · exact And.right

theorem groups_disband (v : QueueView) (list : ListId) (guid : ObjectGuid)
    (h : (v.disband list guid id).groups other = some g) :
    other ≠ id ∧ v.groups other = some g := by
  unfold disband at h
  simp only at h
  by_cases hSame : other = id
  · rw [hSame, Function.update_self] at h
    cases h
  · rw [Function.update_of_ne hSame] at h
    exact ⟨hSame, h⟩

theorem Structured.disband (h : Structured v nextGroup) {guid : ObjectGuid}
    (hMem : id ∈ v.lists list) (hOf : v.groupOf guid = some id)
    (hLast : ∀ g, v.groups id = some g → g.2 ⊆ {guid}) :
    Structured (v.disband list guid id) nextGroup where
  nodup l := by
    unfold QueueView.disband
    simp only
    by_cases hList : l = list
    · subst hList
      rw [Function.update_self]
      exact (h.nodup l).erase id
    · rw [Function.update_of_ne hList]
      exact h.nodup l
  apart l other k hFirst hSecond :=
    h.apart l other k ((h.mem_disband hMem guid).mp hFirst).2 ((h.mem_disband hMem guid).mp hSecond).2
  listed l k hIn := by
    obtain ⟨hOther, hIn⟩ := (h.mem_disband hMem guid).mp hIn
    obtain ⟨players, hGroup⟩ := h.listed l k hIn
    exact ⟨players, (Function.update_of_ne hOther _ _).trans hGroup⟩
  placed k g hGroup := by
    obtain ⟨hOther, hOld⟩ := groups_disband v list guid hGroup
    obtain ⟨l, hIn⟩ := h.placed k g hOld
    exact ⟨l, (h.mem_disband hMem guid).mpr ⟨hOther, hIn⟩⟩
  nonempty k g hGroup := h.nonempty k g (groups_disband v list guid hGroup).2
  members k g hGroup x hx := by
    obtain ⟨hOther, hOld⟩ := groups_disband v list guid hGroup
    have hNot : x ≠ guid := by
      rintro rfl
      exact hOther (Option.some.inj ((h.members k g hOld x hx).symm.trans hOf))
    exact (Function.update_of_ne hNot _ _).trans (h.members k g hOld x hx)
  points x k hx := by
    unfold QueueView.disband at hx ⊢
    simp only at hx ⊢
    have hNot : x ≠ guid := by
      rintro rfl
      rw [Function.update_self] at hx
      cases hx
    rw [Function.update_of_ne hNot] at hx
    obtain ⟨g, hGroup, hIn⟩ := h.points x k hx
    have hOther : k ≠ id := by
      rintro rfl
      exact hNot (hLast g hGroup hIn)
    exact ⟨g, (Function.update_of_ne hOther _ _).trans hGroup, hIn⟩
  known k g hGroup := h.known k g (groups_disband v list guid hGroup).2

/-! ## Joining -/

def join (v : QueueView) (list : ListId) (id : Nat) (members : List ObjectGuid) : QueueView where
  lists := Function.update v.lists list (v.lists list ++ [id])
  groups := Function.update v.groups id (some (list.team, {guid | guid ∈ members}))
  groupOf := fun guid => if guid ∈ members then some id else v.groupOf guid

theorem mem_join (v : QueueView) (list : ListId) (id : Nat) (members : List ObjectGuid) {l : ListId} :
    other ∈ (v.join list id members).lists l ↔
      other ∈ v.lists l ∨ other = id ∧ l = list := by
  unfold join
  simp only
  by_cases hList : l = list
  · subst hList
    rw [Function.update_self, List.mem_append, List.mem_singleton]
    exact or_congr_right (and_iff_left rfl).symm
  · rw [Function.update_of_ne hList]
    exact (or_iff_left fun hAt => hList hAt.2).symm

theorem groups_join (v : QueueView) (list : ListId) (id : Nat) (members : List ObjectGuid)
    (h : (v.join list id members).groups other = some g) :
    other = id ∧ g = (list.team, {guid | guid ∈ members}) ∨ other ≠ id ∧ v.groups other = some g := by
  unfold join at h
  simp only at h
  by_cases hSame : other = id
  · rw [hSame, Function.update_self, Option.some_inj] at h
    exact Or.inl ⟨hSame, h.symm⟩
  · rw [Function.update_of_ne hSame] at h
    exact Or.inr ⟨hSame, h⟩

theorem Structured.join (h : Structured v nextGroup) (list : ListId) {members : List ObjectGuid}
    (hSome : members ≠ []) (hFresh : ∀ guid ∈ members, v.groupOf guid = none) :
    Structured (v.join list nextGroup members) (nextGroup + 1) := by
  have hNew : ∀ l, nextGroup ∉ v.lists l := by
    intro l hIn
    obtain ⟨players, hGroup⟩ := h.listed l _ hIn
    exact Nat.lt_irrefl _ (h.known _ _ hGroup)
  have hOld : ∀ l k, k ∈ v.lists l → k ≠ nextGroup := by
    rintro l k hIn rfl
    exact hNew l hIn
  refine ⟨?_, ?_, ?_, ?_, ?_, ?_, ?_, ?_⟩
  · intro l
    unfold QueueView.join
    simp only
    by_cases hList : l = list
    · subst hList
      rw [Function.update_self, List.nodup_append]
      refine ⟨h.nodup l, List.nodup_singleton _, fun a ha b hb => ?_⟩
      rw [List.mem_singleton.mp hb]
      exact hOld l a ha
    · rw [Function.update_of_ne hList]
      exact h.nodup l
  · intro l other k hFirst hSecond
    rw [mem_join] at hFirst hSecond
    obtain hIn | ⟨hSame, rfl⟩ := hFirst
    · obtain hThere | ⟨hSame, -⟩ := hSecond
      · exact h.apart _ _ _ hIn hThere
      · exact absurd hSame (hOld l k hIn)
    · obtain hThere | ⟨-, rfl⟩ := hSecond
      · exact absurd hSame (hOld other k hThere)
      · rfl
  · intro l k hIn
    rw [mem_join] at hIn
    obtain hIn | ⟨rfl, rfl⟩ := hIn
    · obtain ⟨players, hGroup⟩ := h.listed l k hIn
      exact ⟨players, (Function.update_of_ne (hOld l k hIn) _ _).trans hGroup⟩
    · exact ⟨_, Function.update_self _ _ _⟩
  · intro k g hGroup
    obtain ⟨rfl, -⟩ | ⟨-, hGroup⟩ := groups_join v list nextGroup members hGroup
    · exact ⟨list, (mem_join v list _ members).mpr (Or.inr ⟨rfl, rfl⟩)⟩
    · obtain ⟨l, hIn⟩ := h.placed k g hGroup
      exact ⟨l, (mem_join v list _ members).mpr (Or.inl hIn)⟩
  · intro k g hGroup
    obtain ⟨-, rfl⟩ | ⟨-, hGroup⟩ := groups_join v list nextGroup members hGroup
    · exact List.exists_mem_of_ne_nil members hSome
    · exact h.nonempty k g hGroup
  · intro k g hGroup x hx
    obtain ⟨rfl, rfl⟩ | ⟨-, hGroup⟩ := groups_join v list nextGroup members hGroup
    · exact if_pos hx
    · have hOf := h.members k g hGroup x hx
      have hNot : x ∉ members := by
        intro hIn
        rw [hFresh x hIn] at hOf
        cases hOf
      exact (if_neg hNot).trans hOf
  · intro x k hx
    unfold QueueView.join at hx ⊢
    simp only at hx ⊢
    split at hx
    · rename_i hIn
      obtain rfl := Option.some.inj hx
      exact ⟨_, Function.update_self _ _ _, hIn⟩
    · obtain ⟨g, hGroup, hIn⟩ := h.points x k hx
      have hOther : k ≠ nextGroup := Nat.ne_of_lt (h.known k g hGroup)
      exact ⟨g, (Function.update_of_ne hOther _ _).trans hGroup, hIn⟩
  · intro k g hGroup
    obtain ⟨rfl, -⟩ | ⟨-, hGroup⟩ := groups_join v list nextGroup members hGroup
    · exact Nat.lt_succ_self _
    · exact (h.known k g hGroup).trans (Nat.lt_succ_self _)

end QueueView

end AshamaneCore.Battlegrounds
