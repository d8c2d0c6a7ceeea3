import AshamaneCore.Game.QueueStructure

/-!
# Matches

An update of the queue moves a premade group that has waited too long, the second team of
a skirmish, and a rated team that has to play for the other faction. Each of these is a
move between two lists, which the team of the group follows.
-/

namespace AshamaneCore.Battlegrounds

open Library

namespace BattlegroundQueue

variable {q : BattlegroundQueue} {id : Nat}

theorem Structured.moved {next : BattlegroundQueue} (h : q.Structured) {src dest : ListId}
    (hMem : id ∈ q.queuedGroups src) (hOther : src ≠ dest)
    (hLists : next.queuedGroups = (q.view.move src dest id).lists)
    (hGroups : next.view.groups = (q.view.move src dest id).groups)
    (hPlayers : next.queuedPlayers = q.queuedPlayers) (hNext : next.nextGroup = q.nextGroup) :
    next.Structured := by
  have hView : next.view = q.view.move src dest id := by
    have hOf : next.view.groupOf = q.view.groupOf := by
      unfold view
      rw [hPlayers]
    exact congr (congrArg₂ QueueView.mk hLists hGroups) hOf
  unfold Structured
  rw [hView, hNext]
  exact QueueView.Structured.move h hMem hOther

theorem Structured.groups_move (h : q.Structured) {src dest : ListId}
    (hMem : id ∈ q.queuedGroups src) (hTeam : src.team = dest.team) :
    (q.view.move src dest id).groups = q.view.groups := by
  obtain ⟨players, hGroup⟩ := h.listed src id hMem
  have hSame : (q.view.groups id).map (fun g => (dest.team, g.2)) = q.view.groups id := by
    rw [hGroup, Option.map_some, hTeam]
  unfold QueueView.move
  simp only
  rw [hSame, Function.update_eq_self]

variable {team : Team}

theorem groups_alter {f : GroupQueueInfo → GroupQueueInfo}
    (hKey : ∀ ginfo, (f ginfo).id = ginfo.id)
    (hTeam : ∀ ginfo, (f ginfo).players = ginfo.players ∧ (f ginfo).team = team) :
    ({ q with groups := q.groups.alter id f hKey } : BattlegroundQueue).view.groups =
      Function.update q.view.groups id ((q.view.groups id).map fun g => (team, g.2)) := by
  funext other
  unfold view
  simp only [group_alter]
  by_cases hSame : other = id
  · subst hSame
    rw [if_pos rfl, Function.update_self, Option.map_map, Option.map_map]
    apply congrArg (fun f => Option.map f _)
    funext ginfo
    simp only [Function.comp_apply, hTeam]
  · rw [if_neg hSame, Function.update_of_ne hSame]

/-! ## Premade matches -/

theorem Structured.moveOutdated (h : q.Structured) (bracket : BracketId)
    (timeBefore : UInt32) (minPlayersPerTeam : Nat) (team : Team) :
    (q.moveOutdated bracket timeBefore minPlayersPerTeam team).Structured := by
  rw [BattlegroundQueue.moveOutdated]
  split
  · exact h
  rename_i first rest hList
  split
  · have hMem : first ∈ q.queuedGroups (premade bracket team) := hList ▸ List.mem_cons_self
    have hOther : premade bracket team ≠ normal bracket team := by
      intro hSame
      cases (ListId.mk.inj hSame).2.1
    have hRest : rest = (q.queuedGroups (premade bracket team)).erase first := by
      rw [hList, List.erase_cons_head]
    refine h.moved hMem hOther ?_ (h.groups_move hMem rfl).symm rfl rfl
    rw [hRest]
    rfl
  · exact h

theorem Structured.checkPremadeMatch (h : q.Structured) (bracket : BracketId)
    (timeBefore : UInt32) (minPlayersPerTeam maxPlayersPerTeam : Nat) :
    (q.checkPremadeMatch bracket timeBefore minPlayersPerTeam maxPlayersPerTeam).2.Structured := by
  rw [BattlegroundQueue.checkPremadeMatch]
  split
  · exact h
  · exact (h.moveOutdated bracket timeBefore minPlayersPerTeam .alliance).moveOutdated bracket timeBefore
      minPlayersPerTeam .horde

/-! ## Skirmishes -/

theorem fill_selected (q : BattlegroundQueue) (desiredCount : Nat) (pool : SelectionPool) (ids : List Nat) :
    ∃ picked, picked.Sublist ids ∧
      (q.fill desiredCount pool ids).selectedGroups = pool.selectedGroups ++ picked := by
  induction ids generalizing pool with
  | nil => exact ⟨[], List.nil_sublist _, (List.append_nil _).symm⟩
  | cons id rest ih =>
    rw [fill]
    split
    · obtain ⟨picked, hPicked, hEq⟩ := ih pool
      exact ⟨picked, hPicked.cons id, hEq⟩
    · rename_i ginfo hFound
      have hId : ginfo.id = id := id_of_group (Option.filter_eq_some_iff.mp hFound).1
      split
      · obtain ⟨picked, hPicked, hEq⟩ := ih (pool.addGroup ginfo desiredCount).2
        rw [hEq, SelectionPool.addGroup]
        split
        · refine ⟨id :: picked, hPicked.cons_cons id, ?_⟩
          rw [List.append_assoc, hId, List.singleton_append]
        · exact ⟨picked, hPicked.cons id, rfl⟩
      · exact ⟨[], List.nil_sublist _, (List.append_nil _).symm⟩

variable {s t : List Nat} {last : Nat}

theorem takeWhile_split (h : last ∉ s) :
    (s ++ last :: t).takeWhile (· ≠ last) = s ∧ (s ++ last :: t).dropWhile (· ≠ last) = last :: t := by
  have hAll : ∀ a ∈ s, decide (a ≠ last) = true := by
    intro a ha
    rw [decide_eq_true_iff]
    rintro rfl
    exact h ha
  have hLast : decide (last ≠ last) = false := decide_eq_false fun hNe => hNe rfl
  constructor
  · rw [List.takeWhile_append_of_pos hAll, List.takeWhile_cons, hLast]
    exact List.append_nil s
  · rw [List.dropWhile_append_of_pos hAll, List.dropWhile_cons, hLast]
    rfl

theorem normal_ne_other (bracket : BracketId) (team : Team) :
    normal bracket team ≠ normal bracket team.other := by
  intro hSame
  have hTeam := (ListId.mk.inj hSame).2.2
  cases team <;> cases hTeam

variable {bracket : BracketId}

theorem Structured.changeFaction (h : q.Structured)
    (hList : q.queuedGroups (normal bracket team) = s ++ last :: t) (hFront : last ∉ s) (hBehind : id ∈ t) :
    (changeFaction bracket team last q id).Structured ∧
      (changeFaction bracket team last q id).queuedGroups (normal bracket team) = s ++ last :: t.erase id := by
  have hNodup := h.nodup (normal bracket team)
  have hMem : id ∈ q.queuedGroups (normal bracket team) := by
    rw [hList]
    exact List.mem_append_right s (List.mem_cons_of_mem last hBehind)
  have hErase : (s ++ last :: t).erase id = s ++ last :: t.erase id := by
    change (q.queuedGroups (normal bracket team)).Nodup at hNodup
    rw [hList, List.nodup_append] at hNodup
    obtain ⟨-, hTail, hApart⟩ := hNodup
    have hNotFront : id ∉ s := fun hIn => hApart id hIn id (List.mem_cons_of_mem last hBehind) rfl
    have hNotLast : last ≠ id := by
      rintro rfl
      exact (List.nodup_cons.mp hTail).1 hBehind
    rw [List.erase_append_right _ hNotFront, List.erase_cons_tail]
    exact fun hEq => hNotLast (beq_iff_eq.mp hEq)
  obtain ⟨hTake, hDrop⟩ := takeWhile_split (t := t) hFront
  have hLists : (BattlegroundQueue.changeFaction bracket team last q id).queuedGroups =
      (q.view.move (normal bracket team) (normal bracket team.other) id).lists := by
    unfold BattlegroundQueue.changeFaction QueueView.move
    dsimp only [setList, view]
    rw [hList, hTake, hDrop, List.tail_cons, hErase]
  refine ⟨h.moved hMem (normal_ne_other bracket team) hLists ?_ rfl rfl, ?_⟩
  · exact groups_alter (GroupQueueInfo.id_setTeam _) fun ginfo => ⟨rfl, rfl⟩
  · rw [hLists]
    unfold QueueView.move
    simp only [Function.update_self]
    exact (congrArg (List.erase · id) hList).trans hErase

theorem Structured.changeFactions (h : q.Structured) {ids : List Nat}
    (hList : q.queuedGroups (normal bracket team) = s ++ last :: t) (hFront : last ∉ s)
    (hBehind : ids ⊆ t) (hNodup : ids.Nodup) :
    (ids.foldl (BattlegroundQueue.changeFaction bracket team last) q).Structured := by
  induction ids generalizing q t with
  | nil => exact h
  | cons id ids ih =>
    obtain ⟨hNext, hNextList⟩ := h.changeFaction hList hFront (hBehind List.mem_cons_self)
    obtain ⟨hNot, hRest⟩ := List.nodup_cons.mp hNodup
    refine ih hNext hNextList (fun other hOther => ?_) hRest
    have hNe : other ≠ id := by
      rintro rfl
      exact hNot hOther
    exact (List.mem_erase_of_ne hNe).mpr (hBehind (List.mem_cons_of_mem id hOther))

theorem Structured.checkSkirmish (h : q.Structured) (bracket : BracketId)
    (minPlayersPerTeam : Nat) (pools : SelectionPools) :
    (q.checkSkirmishForSameFaction bracket minPlayersPerTeam pools).2.2.Structured := by
  rw [checkSkirmishForSameFaction]
  split
  · exact h
  dsimp only
  generalize (if pools.horde.playerCount = minPlayersPerTeam then Team.horde else Team.alliance) = team
  split
  · exact h
  rename_i last hLast
  split
  · rename_i hIn
    obtain ⟨s, t, hList, hFront⟩ := List.eq_append_cons_of_mem hIn
    obtain ⟨-, hDrop⟩ := takeWhile_split (t := t) hFront
    have hTail : ((q.queuedGroups (normal bracket team)).dropWhile (· ≠ last)).tail = t := by
      rw [hList, hDrop, List.tail_cons]
    rw [hTail]
    split
    · obtain ⟨picked, hPicked, hEq⟩ := fill_selected q minPlayersPerTeam .init t
      have hNodup := h.nodup (normal bracket team)
      change (q.queuedGroups (normal bracket team)).Nodup at hNodup
      rw [hList, List.nodup_append, List.nodup_cons] at hNodup
      have hSelected : (q.fill minPlayersPerTeam .init t).selectedGroups = picked := hEq
      rw [hSelected]
      exact h.changeFactions hList hFront hPicked.subset (hPicked.nodup hNodup.2.1.2)
    · exact h
  · exact h

/-! ## Rated matches -/

theorem premade_ne_other (bracket : BracketId) (side : Team) :
    premade bracket side.other ≠ premade bracket side := by
  intro hSame
  have hTeam := (ListId.mk.inj hSame).2.2
  cases side <;> cases hTeam

theorem findOpponent_spec {range : RatingRange} {list : ListId} {first : Nat}
    (h : q.findOpponent range list first = some id) : id ∈ q.queuedGroups list ∧ first ≠ id := by
  rw [findOpponent] at h
  refine ⟨(List.dropWhile_sublist _).subset (List.mem_of_find?_eq_some h), ?_⟩
  rintro rfl
  have hPlays := List.find?_some h
  cases hGroup : q.group first with
  | none =>
    rw [hGroup] at hPlays
    cases hPlays
  | some ginfo =>
    rw [hGroup, Option.any_some, Option.any_some, Bool.and_eq_true, decide_eq_true_iff] at hPlays
    exact hPlays.2 rfl

theorem Structured.findTeams (h : q.Structured) {range : RatingRange} {aTeam hTeam : Nat}
    (hFound : q.findTeams range bracket = some (aTeam, hTeam)) :
    aTeam ≠ hTeam ∧ (∃ team, aTeam ∈ q.queuedGroups (premade bracket team)) ∧
      ∃ team, hTeam ∈ q.queuedGroups (premade bracket team) := by
  have hList : ∀ {team id}, q.findTeam range (q.queuedGroups (premade bracket team)) = some id →
      id ∈ q.queuedGroups (premade bracket team) := fun hFind => List.mem_of_find?_eq_some hFind
  rw [BattlegroundQueue.findTeams] at hFound
  split at hFound
  · rename_i hAli hHorde
    obtain ⟨rfl, rfl⟩ := Prod.mk.inj (Option.some.inj hFound)
    refine ⟨?_, ⟨_, hList hAli⟩, ⟨_, hList hHorde⟩⟩
    rintro rfl
    exact premade_ne_other bracket .horde (h.apart _ _ _ (hList hAli) (hList hHorde))
  · rename_i hFirst hNone
    obtain ⟨other, hOther, hEq⟩ := Option.map_eq_some_iff.mp hFound
    obtain ⟨rfl, rfl⟩ := Prod.mk.inj hEq
    obtain ⟨hIn, hNe⟩ := findOpponent_spec hOther
    exact ⟨hNe, ⟨_, hList hFirst⟩, ⟨_, hIn⟩⟩
  · rename_i hNone hFirst
    obtain ⟨other, hOther, hEq⟩ := Option.map_eq_some_iff.mp hFound
    obtain ⟨rfl, rfl⟩ := Prod.mk.inj hEq
    obtain ⟨hIn, hNe⟩ := findOpponent_spec hOther
    exact ⟨hNe, ⟨_, hList hFirst⟩, ⟨_, hIn⟩⟩
  · cases hFound

theorem Structured.setOpponents (h : q.Structured) (id opponents : Nat) :
    (q.setOpponents id opponents).Structured ∧
      (q.setOpponents id opponents).queuedGroups = q.queuedGroups := by
  rw [BattlegroundQueue.setOpponents]
  split
  · exact ⟨h.of_view ⟨view_alter _ fun _ _ => ⟨rfl, rfl⟩, rfl⟩, rfl⟩
  · exact ⟨h, rfl⟩

theorem group_invite_other (q : BattlegroundQueue) (instanceId now : UInt32) (side : Team) {other : Nat}
    (h : other ≠ id) : (q.inviteGroupToBG instanceId now side id).group other = q.group other :=
  (group_alter q id other (GroupQueueInfo.id_invite instanceId now side)).trans (if_neg h)

theorem moveTeam_invite (q : BattlegroundQueue) (bracket : BracketId) (instanceId now : UInt32)
    (side other : Team) {another : Nat} (h : another ≠ id) :
    (q.moveTeam bracket other another).inviteGroupToBG instanceId now side id =
      (q.inviteGroupToBG instanceId now side id).moveTeam bracket other another := by
  rw [moveTeam, moveTeam, group_invite_other q instanceId now side h]
  split <;> rfl

theorem Structured.enlist (h : q.Structured) (hIn : id ∈ q.queuedGroups (premade bracket team))
    (instanceId now : UInt32) (side : Team) :
    ((q.moveTeam bracket side id).inviteGroupToBG instanceId now side id).Structured := by
  have hInvite : ∀ ginfo, (GroupQueueInfo.invite instanceId now side ginfo).players = ginfo.players ∧
      (GroupQueueInfo.invite instanceId now side ginfo).team = side := invite_players instanceId now side
  obtain ⟨players, hView⟩ := h.listed _ id hIn
  obtain ⟨ginfo, hGroup, hEq⟩ := group_some_iff.mp hView
  have hTeam : team = ginfo.team := (Prod.mk.inj hEq).1
  rw [moveTeam, hGroup, Option.any_some]
  by_cases hSide : ginfo.team = side
  · rw [if_neg (by rw [decide_eq_true_iff]; exact fun hNe => hNe hSide)]
    refine h.of_view ⟨view_alter _ fun found hFound => ?_, rfl⟩
    obtain rfl := Option.some.inj (hGroup.symm.trans hFound)
    rw [(hInvite ginfo).1, (hInvite ginfo).2, hSide]
    exact ⟨rfl, rfl⟩
  · have hOther : team = side.other := by
      rw [hTeam]
      cases hThere : ginfo.team <;> cases side <;> first | rfl | exact absurd hThere hSide
    rw [if_pos (decide_eq_true hSide)]
    rw [hOther] at hIn
    exact h.moved hIn (premade_ne_other bracket side) rfl
      (groups_alter (GroupQueueInfo.id_invite instanceId now side) hInvite) rfl rfl

theorem mem_moveTeam {side : Team} {other : Nat}
    (h : other ≠ id) (hIn : other ∈ q.queuedGroups (premade bracket team)) :
    other ∈ (q.moveTeam bracket side id).queuedGroups (premade bracket team) := by
  rw [moveTeam]
  split
  · dsimp only [setList]
    by_cases hSrc : team = side.other
    · rw [hSrc, Function.update_self]
      rw [hSrc] at hIn
      exact (List.mem_erase_of_ne h).mpr hIn
    · have hDest : team = side := by
        cases team <;> cases side <;> first | rfl | exact absurd rfl hSrc
      rw [hDest, Function.update_of_ne (premade_ne_other bracket side).symm, Function.update_self]
      rw [hDest] at hIn
      exact List.mem_cons_of_mem id hIn
  · exact hIn

theorem Structured.startRatedMatch (h : q.Structured)
    {aTeam hTeam : Nat} (hNe : aTeam ≠ hTeam)
    (hFirst : ∃ team, aTeam ∈ q.queuedGroups (premade bracket team))
    (hSecond : ∃ team, hTeam ∈ q.queuedGroups (premade bracket team)) (instanceId now : UInt32) :
    (q.startRatedMatch bracket instanceId now aTeam hTeam).Structured := by
  obtain ⟨hOne, hOneLists⟩ := h.setOpponents aTeam hTeam
  obtain ⟨hBoth, hBothLists⟩ := hOne.setOpponents hTeam aTeam
  rw [BattlegroundQueue.startRatedMatch]
  rw [← hOneLists, ← hBothLists] at hFirst hSecond
  generalize (q.setOpponents aTeam hTeam).setOpponents hTeam aTeam = set at hBoth hFirst hSecond ⊢
  obtain ⟨team, hIn⟩ := hFirst
  obtain ⟨other, hThere⟩ := hSecond
  rw [moveTeam_invite _ _ _ _ _ _ hNe.symm]
  exact (hBoth.enlist hIn instanceId now .alliance).enlist (mem_moveTeam hNe.symm hThere) instanceId now .horde

end BattlegroundQueue

end AshamaneCore.Battlegrounds
