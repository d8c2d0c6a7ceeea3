import AshamaneCore.Game.QueueView
import AshamaneCore.Library.Transition

/-!
# The structure of the battleground queue

Whatever the queue does, its groups stay in one list of their faction each, with players
that know them. Then a rated group that is not yet invited leaves as a whole.
-/

namespace AshamaneCore.Battlegrounds

open Library

namespace BattlegroundQueue

def view (q : BattlegroundQueue) : QueueView where
  lists := q.queuedGroups
  groups id := (q.group id).map fun ginfo => (ginfo.team, {guid | guid ∈ ginfo.players.entries})
  groupOf guid := (q.queuedPlayers.find? guid.toNat).map Prod.snd

def Structured (q : BattlegroundQueue) : Prop := q.view.Structured q.nextGroup

variable {q : BattlegroundQueue} {id : Nat}

theorem group_some_iff {g : Team × Set ObjectGuid} :
    q.view.groups id = some g ↔
      ∃ ginfo, q.group id = some ginfo ∧ g = (ginfo.team, {guid | guid ∈ ginfo.players.entries}) := by
  unfold view
  rw [Option.map_eq_some_iff]
  simp only [eq_comm]

variable {ginfo : GroupQueueInfo}

theorem id_of_group (h : q.group id = some ginfo) :
    ginfo.id = id := (KeyedSet.find?_eq_some_iff.mp h).2

variable {guid : ObjectGuid}

theorem groupOf_some_iff :
    q.view.groupOf guid = some id ↔ q.queuedPlayers.find? guid.toNat = some (guid, id) := by
  unfold view
  rw [Option.map_eq_some_iff]
  constructor
  · rintro ⟨⟨other, found⟩, hFound, rfl⟩
    have hKey : other.toNat = guid.toNat := (KeyedSet.find?_eq_some_iff.mp hFound).2
    rw [hFound, ObjectGuid.toNat_injective hKey]
  · exact fun hFound => ⟨(guid, id), hFound, rfl⟩

/-! ## Changes of groups -/

theorem group_alter (q : BattlegroundQueue) (id other : Nat) {f : GroupQueueInfo → GroupQueueInfo}
    (hKey : ∀ ginfo, (f ginfo).id = ginfo.id) :
    ({ q with groups := q.groups.alter id f hKey } : BattlegroundQueue).group other =
      if other = id then (q.group other).map f else q.group other :=
  KeyedSet.find?_alter_eq q.groups id f hKey other

theorem view_alter {f : GroupQueueInfo → GroupQueueInfo}
    (hKey : ∀ ginfo, (f ginfo).id = ginfo.id)
    (hSame : ∀ ginfo, q.group id = some ginfo →
      (f ginfo).team = ginfo.team ∧ (f ginfo).players = ginfo.players) :
    ({ q with groups := q.groups.alter id f hKey } : BattlegroundQueue).view = q.view := by
  have hGroups : ({ q with groups := q.groups.alter id f hKey } : BattlegroundQueue).view.groups =
      q.view.groups := by
    funext other
    unfold view
    simp only [group_alter]
    split
    · rename_i hId
      subst hId
      cases hGroup : q.group other with
      | none => rfl
      | some ginfo =>
        obtain ⟨hTeam, hPlayers⟩ := hSame ginfo hGroup
        simp only [Option.map_some, hTeam, hPlayers]
    · rfl
  exact congrArg (fun groups => (⟨q.queuedGroups, groups, q.view.groupOf⟩ : QueueView)) hGroups

theorem invite_players (instanceId now : UInt32) (side : Team) (ginfo : GroupQueueInfo) :
    (ginfo.invite instanceId now side).players = ginfo.players ∧
      (ginfo.invite instanceId now side).team = side := by
  rw [GroupQueueInfo.invite]
  split <;> exact ⟨rfl, rfl⟩

theorem view_inviteSelected (q : BattlegroundQueue) (instanceId now : UInt32) (ids : List Nat) :
    (q.inviteSelected instanceId now ids).view = q.view ∧
      (q.inviteSelected instanceId now ids).nextGroup = q.nextGroup := by
  rw [inviteSelected]
  apply List.foldlRecOn (motive := fun r : BattlegroundQueue => r.view = q.view ∧ r.nextGroup = q.nextGroup) _ _
    ⟨rfl, rfl⟩
  rintro r ⟨hView, hNext⟩ id _
  split
  · rename_i ginfo hGroup
    refine ⟨?_, hNext⟩
    rw [← hView]
    apply view_alter
    intro found hFound
    obtain rfl := Option.some.inj (hGroup.symm.trans hFound)
    exact (invite_players instanceId now ginfo.team ginfo).symm
  · exact ⟨hView, hNext⟩

theorem Structured.of_view {next : BattlegroundQueue} (h : q.Structured)
    (hSame : next.view = q.view ∧ next.nextGroup = q.nextGroup) : next.Structured := by
  unfold Structured
  rw [hSame.1, hSame.2]
  exact h

theorem Structured.inviteSelected (h : q.Structured) (instanceId now : UInt32)
    (ids : List Nat) : (q.inviteSelected instanceId now ids).Structured :=
  h.of_view (view_inviteSelected q instanceId now ids)

/-! ## Joining -/

theorem mem_foldl_emplace (members : List ObjectGuid) (s : KeyedSet ObjectGuid.toNat) (guid : ObjectGuid) :
    guid ∈ (members.foldl KeyedSet.emplace s).entries ↔ guid ∈ s.entries ∨ guid ∈ members := by
  induction members generalizing s with
  | nil => simp only [List.foldl_nil, List.not_mem_nil, or_false]
  | cons first rest ih =>
    have hFirst : guid ∈ (s.emplace first).entries ↔ guid ∈ s.entries ∨ guid = first := by
      rw [KeyedSet.mem_emplace]
      constructor
      · rintro (hIn | ⟨hEq, -⟩)
        · exact Or.inl hIn
        · exact Or.inr hEq
      · rintro (hIn | rfl)
        · exact Or.inl hIn
        · cases hThere : s.contains guid.toNat with
          | false => exact Or.inr ⟨rfl, rfl⟩
          | true =>
            obtain ⟨other, hOther, hKey⟩ := KeyedSet.contains_iff.mp hThere
            exact Or.inl (ObjectGuid.toNat_injective hKey ▸ hOther)
    rw [List.foldl_cons, ih, hFirst, List.mem_cons, or_assoc]

theorem find?_foldl_assign (members : List ObjectGuid) (id : Nat) (entries : KeyedSet QueuedPlayer.key)
    (guid : ObjectGuid) :
    (members.foldl (fun entries guid => entries.assign (guid, id)) entries).find? guid.toNat =
      if guid ∈ members then some (guid, id) else entries.find? guid.toNat := by
  induction members generalizing entries with
  | nil => rfl
  | cons first rest ih =>
    have hKey : guid.toNat = QueuedPlayer.key (first, id) ↔ guid = first := ObjectGuid.toNat_injective.eq_iff
    rw [List.foldl_cons, ih, KeyedSet.find?_assign_eq]
    by_cases hRest : guid ∈ rest
    · rw [if_pos hRest, if_pos (List.mem_cons_of_mem _ hRest)]
    · rw [if_neg hRest]
      by_cases hFirst : guid = first
      · subst hFirst
        rw [if_pos (hKey.mpr rfl), if_pos List.mem_cons_self]
      · rw [if_neg (mt hKey.mp hFirst), if_neg]
        rw [List.mem_cons, not_or]
        exact ⟨hFirst, hRest⟩

theorem view_addGroup (hFresh : q.group q.nextGroup = none) (spec : GroupSpec)
    (members : List ObjectGuid) :
    (q.addGroup spec members).view = q.view.join spec.listId q.nextGroup members := by
  have hGroups : (q.addGroup spec members).view.groups =
      (q.view.join spec.listId q.nextGroup members).groups := by
    funext id
    unfold view QueueView.join
    simp only [group, addGroup, KeyedSet.find?_emplace_eq]
    by_cases hId : id = q.nextGroup
    · subst hId
      have hNone : q.groups.find? q.nextGroup = none := hFresh
      have hPlayers : {guid | guid ∈ (spec.ginfo q.nextGroup members).players.entries} = {guid | guid ∈ members} := by
        ext guid
        exact (mem_foldl_emplace members _ guid).trans (or_iff_right List.not_mem_nil)
      have hGinfo : (spec.ginfo q.nextGroup members).id = q.nextGroup := rfl
      rw [hGinfo, if_pos rfl, hNone, Function.update_self, Option.getD_none, Option.map_some, hPlayers]
      rfl
    · rw [Function.update_of_ne hId]
      exact congrArg _ (if_neg hId)
  have hOf : (q.addGroup spec members).view.groupOf =
      (q.view.join spec.listId q.nextGroup members).groupOf := by
    funext guid
    unfold view QueueView.join
    simp only [addGroup]
    rw [find?_foldl_assign]
    split <;> rfl
  exact congrArg₂ (fun groups groupOf =>
    (⟨(q.addGroup spec members).queuedGroups, groups, groupOf⟩ : QueueView)) hGroups hOf

theorem Structured.addGroup (h : q.Structured) (spec : GroupSpec)
    {members : List ObjectGuid} (hSome : members ≠ [])
    (hFresh : ∀ guid ∈ members, q.queuedPlayers.find? guid.toNat = none) :
    (q.addGroup spec members).Structured := by
  have hNew : q.group q.nextGroup = none := by
    cases hGroup : q.group q.nextGroup with
    | none => rfl
    | some ginfo =>
      exact absurd (h.known _ _ (group_some_iff.mpr ⟨ginfo, hGroup, rfl⟩)) (Nat.lt_irrefl _)
  unfold Structured
  rw [view_addGroup hNew]
  exact QueueView.Structured.join h spec.listId hSome fun guid hGuid =>
    congrArg (Option.map Prod.snd) (hFresh guid hGuid)

/-! ## Leaving -/

theorem Structured.findList (h : q.Structured)
    (hGroup : q.group id = some ginfo) :
    ∃ list, q.findList ginfo = some list ∧ id ∈ q.queuedGroups list := by
  obtain rfl := id_of_group hGroup
  obtain ⟨list, hIn⟩ := h.placed _ _ (group_some_iff.mpr ⟨ginfo, hGroup, rfl⟩)
  obtain ⟨players, hListed⟩ := h.listed list _ hIn
  obtain ⟨found, hFound, hEq⟩ := group_some_iff.mp hListed
  obtain rfl := Option.some.inj (hGroup.symm.trans hFound)
  have hTeam : list.team = ginfo.team := (Prod.mk.inj hEq).1
  cases hFind : q.findList ginfo with
  | none =>
    rw [BattlegroundQueue.findList, List.findSome?_eq_none_iff] at hFind
    have hBracket := hFind list.bracket (List.mem_reverse.mpr (List.mem_finRange _))
    split at hBracket
    · cases hBracket
    rename_i hNotNormal
    split at hBracket
    · cases hBracket
    rename_i hNotPremade
    obtain ⟨bracket, normal, team⟩ := list
    obtain rfl : team = ginfo.team := hTeam
    cases normal with
    | true => exact absurd hIn hNotNormal
    | false => exact absurd hIn hNotPremade
  | some other =>
    rw [BattlegroundQueue.findList] at hFind
    obtain ⟨bracket, -, hBracket⟩ := List.exists_of_findSome?_eq_some hFind
    split at hBracket
    · rename_i hNormal
      obtain rfl := Option.some.inj hBracket
      exact ⟨_, rfl, hNormal⟩
    split at hBracket
    · rename_i hPremade
      obtain rfl := Option.some.inj hBracket
      exact ⟨_, rfl, hPremade⟩
    · cases hBracket

theorem mem_erase_players {x : ObjectGuid} :
    x ∈ (ginfo.erasePlayer guid).players.entries ↔ x ∈ ginfo.players.entries ∧ x ≠ guid := by
  rw [GroupQueueInfo.erasePlayer, KeyedSet.mem_erase]
  exact and_congr_right fun _ => ObjectGuid.toNat_injective.ne_iff

theorem groupOf_erase (q : BattlegroundQueue) (guid : ObjectGuid) :
    (fun x : ObjectGuid => ((q.queuedPlayers.erase guid.toNat).find? x.toNat).map Prod.snd) =
      Function.update q.view.groupOf guid none := by
  funext x
  rw [KeyedSet.find?_erase_eq]
  by_cases hSame : x = guid
  · subst hSame
    rw [if_pos rfl, Function.update_self]
    rfl
  · rw [if_neg (mt (fun hKey => ObjectGuid.toNat_injective hKey) hSame), Function.update_of_ne hSame]
    rfl

theorem view_takePlayer (q : BattlegroundQueue) (guid : ObjectGuid) (id : Nat) :
    (q.takePlayer guid id).view = q.view.leave guid id := by
  have hGroups : (q.takePlayer guid id).view.groups = (q.view.leave guid id).groups := by
    funext other
    unfold view QueueView.leave takePlayer
    simp only [group, KeyedSet.find?_alter_eq]
    by_cases hSame : other = id
    · subst hSame
      rw [if_pos rfl, Function.update_self, Option.map_map, Option.map_map]
      apply congrArg (fun f => Option.map f _)
      funext ginfo
      simp only [Function.comp_apply]
      apply congrArg (Prod.mk ginfo.team)
      ext x
      exact mem_erase_players
    · rw [if_neg hSame, Function.update_of_ne hSame]
  exact congrArg₂ (fun groups groupOf => (⟨q.queuedGroups, groups, groupOf⟩ : QueueView)) hGroups
    (groupOf_erase q guid)

theorem view_dropGroup (q : BattlegroundQueue) (guid : ObjectGuid) (list : ListId) (id : Nat) :
    ((q.takePlayer guid id).dropGroup list id).view = q.view.disband list guid id := by
  have hGroups : ((q.takePlayer guid id).dropGroup list id).view.groups =
      (q.view.disband list guid id).groups := by
    funext other
    unfold view QueueView.disband dropGroup takePlayer
    simp only [group, KeyedSet.find?_erase_eq, KeyedSet.find?_alter_eq]
    by_cases hSame : other = id
    · subst hSame
      rw [if_pos rfl, Function.update_self]
      rfl
    · rw [if_neg hSame, if_neg hSame, Function.update_of_ne hSame]
  exact congrArg₂ (fun groups groupOf =>
    (⟨((q.takePlayer guid id).dropGroup list id).queuedGroups, groups, groupOf⟩ : QueueView)) hGroups
    (groupOf_erase q guid)

theorem removeOne_absent (h : q.queuedPlayers.find? guid.toNat = none) : q.removeOne guid = none := by
  rw [removeOne, h, Option.bind_none]

theorem Structured.removeOne_cases (h : q.Structured) (hOf : q.queuedPlayers.find? guid.toNat = some (guid, id))
    (hGroup : q.group id = some ginfo) :
    (∃ list, id ∈ q.queuedGroups list ∧ (ginfo.erasePlayer guid).players.entries = [] ∧
      q.removeOne guid = some ((q.takePlayer guid id).dropGroup list id, none)) ∨
    ∃ next rest, (ginfo.erasePlayer guid).players.entries = next :: rest ∧
      q.removeOne guid = some (q.takePlayer guid id,
        if ginfo.isInvitedToBGInstanceGUID = 0 ∧ ginfo.isRated then some next else none) := by
  obtain ⟨list, hList, hIn⟩ := h.findList hGroup
  obtain rfl := id_of_group hGroup
  rw [removeOne, hOf, Option.bind_some, hGroup, Option.bind_some, hList, Option.map_some]
  cases hPlayers : (ginfo.erasePlayer guid).players.entries with
  | nil => exact Or.inl ⟨list, hIn, rfl, rfl⟩
  | cons next rest => exact Or.inr ⟨next, rest, rfl, rfl⟩

theorem Structured.removeOne {left : BattlegroundQueue} (h : q.Structured)
    {next : Option ObjectGuid} (hOne : q.removeOne guid = some (left, next)) :
    left.Structured ∧ left.queuedPlayers = q.queuedPlayers.erase guid.toNat ∧
      (q.queuedPlayers.find? guid.toNat).isSome := by
  cases hFind : q.queuedPlayers.find? guid.toNat with
  | none =>
    rw [removeOne_absent hFind] at hOne
    cases hOne
  | some entry =>
    have hKey : entry.1.toNat = guid.toNat := (KeyedSet.find?_eq_some_iff.mp hFind).2
    obtain ⟨other, id⟩ := entry
    obtain rfl : other = guid := ObjectGuid.toNat_injective hKey
    have hOf := groupOf_some_iff.mpr hFind
    obtain ⟨g, hView, hGuid⟩ := h.points _ _ hOf
    obtain ⟨ginfo, hGroup, rfl⟩ := group_some_iff.mp hView
    obtain ⟨list, hIn, hLast, hEq⟩ | ⟨first, rest, hMore, hEq⟩ := h.removeOne_cases hFind hGroup
    · obtain ⟨rfl, -⟩ := Prod.mk.inj (Option.some.inj (hOne.symm.trans hEq))
      refine ⟨?_, rfl, rfl⟩
      unfold BattlegroundQueue.Structured
      rw [view_dropGroup]
      apply QueueView.Structured.disband h hIn hOf
      intro found hFound x hx
      obtain rfl := Option.some.inj (hView.symm.trans hFound)
      by_contra hOther
      have hLeft := mem_erase_players.mpr ⟨hx, hOther⟩
      rw [hLast] at hLeft
      cases hLeft
    · obtain ⟨rfl, -⟩ := Prod.mk.inj (Option.some.inj (hOne.symm.trans hEq))
      refine ⟨?_, rfl, rfl⟩
      unfold BattlegroundQueue.Structured
      rw [view_takePlayer]
      apply QueueView.Structured.leave h hOf
      intro found hFound
      obtain rfl := Option.some.inj (hView.symm.trans hFound)
      have hFirst : first ∈ (ginfo.erasePlayer other).players.entries := hMore ▸ List.mem_cons_self
      exact ⟨first, mem_erase_players.mp hFirst⟩

theorem Structured.removePlayers (h : q.Structured) (fuel : Nat)
    (guid : ObjectGuid) : (BattlegroundQueue.removePlayers fuel q guid).Structured := by
  induction fuel generalizing q guid with
  | zero => exact h
  | succ fuel ih =>
    rw [BattlegroundQueue.removePlayers]
    split
    · exact h
    · rename_i hOne
      exact (h.removeOne hOne).1
    · rename_i hOne
      exact ih (h.removeOne hOne).1 _

theorem Structured.removePlayers_absent (h : q.Structured) (fuel : Nat)
    (guid : ObjectGuid) {x : ObjectGuid} (hAbsent : q.queuedPlayers.find? x.toNat = none) :
    (BattlegroundQueue.removePlayers fuel q guid).queuedPlayers.find? x.toNat = none := by
  induction fuel generalizing q guid with
  | zero => exact hAbsent
  | succ fuel ih =>
    have hLeft : ∀ left next, q.removeOne guid = some (left, next) →
        left.Structured ∧ left.queuedPlayers.find? x.toNat = none := by
      intro left next hOne
      obtain ⟨hStructured, hPlayers, -⟩ := h.removeOne hOne
      rw [hPlayers, KeyedSet.find?_erase_eq, hAbsent, ite_self]
      exact ⟨hStructured, rfl⟩
    rw [BattlegroundQueue.removePlayers]
    split
    · exact hAbsent
    · rename_i hOne
      exact (hLeft _ _ hOne).2
    · rename_i hOne
      exact ih (hLeft _ _ hOne).1 _ (hLeft _ _ hOne).2

/-- The group is removed and stands in no list, and none of its players is queued. -/
structure Gone (q : BattlegroundQueue) (id : Nat) (ginfo : GroupQueueInfo) : Prop where
  group : q.group id = none
  unlisted : ∀ list, id ∉ q.queuedGroups list
  players : ∀ guid ∈ ginfo.players.entries, q.queuedPlayers.find? guid.toNat = none

theorem Structured.removePlayers_whole (h : q.Structured) {fuel : Nat}
    (hOf : q.queuedPlayers.find? guid.toNat = some (guid, id))
    (hGroup : q.group id = some ginfo) (hRated : ginfo.isRated)
    (hUninvited : ginfo.isInvitedToBGInstanceGUID = 0) (hFuel : ginfo.players.entries.length ≤ fuel) :
    (BattlegroundQueue.removePlayers fuel q guid).group id = none ∧
      ∀ x ∈ ginfo.players.entries,
        (BattlegroundQueue.removePlayers fuel q guid).queuedPlayers.find? x.toNat = none := by
  induction fuel generalizing q guid ginfo with
  | zero =>
    obtain ⟨x, hx⟩ := h.nonempty _ _ (group_some_iff.mpr ⟨ginfo, hGroup, rfl⟩)
    rw [List.length_eq_zero_iff.mp (Nat.le_zero.mp hFuel)] at hx
    cases hx
  | succ fuel ih =>
    have hErased : ∀ x ∈ ginfo.players.entries, x ≠ guid → x ∈ (ginfo.erasePlayer guid).players.entries :=
      fun x hx hOther => mem_erase_players.mpr ⟨hx, hOther⟩
    have hNone : (q.queuedPlayers.erase guid.toNat).find? guid.toNat = none := by
      rw [KeyedSet.find?_erase_eq, if_pos rfl]
    obtain ⟨list, hIn, hLast, hEq⟩ | ⟨next, rest, hMore, hEq⟩ := h.removeOne_cases hOf hGroup
    · rw [BattlegroundQueue.removePlayers, hEq]
      constructor
      · exact (KeyedSet.find?_erase_eq ..).trans (if_pos rfl)
      · intro x hx
        by_cases hSame : x = guid
        · rw [hSame]
          exact hNone
        · have hLeft := hErased x hx hSame
          rw [hLast] at hLeft
          cases hLeft
    · rw [if_pos ⟨hUninvited, hRated⟩] at hEq
      obtain ⟨hLeft, -⟩ := h.removeOne hEq
      have hGroupLeft : (q.takePlayer guid id).group id = some (ginfo.erasePlayer guid) :=
        KeyedSet.find?_alter hGroup _ (GroupQueueInfo.id_erasePlayer guid)
      have hNext : next ∈ (ginfo.erasePlayer guid).players.entries := hMore ▸ List.mem_cons_self
      have hOfNext := groupOf_some_iff.mp
        (hLeft.members _ _ (group_some_iff.mpr ⟨_, hGroupLeft, rfl⟩) next hNext)
      have hGuid : guid ∈ ginfo.players.entries := by
        obtain ⟨g, hView, hIn⟩ := h.points _ _ (groupOf_some_iff.mpr hOf)
        obtain ⟨found, hFound, rfl⟩ := group_some_iff.mp hView
        obtain rfl := Option.some.inj (hGroup.symm.trans hFound)
        exact hIn
      have hLength : (ginfo.erasePlayer guid).players.entries.length ≤ fuel := by
        have hPerm := (KeyedSet.erase_perm hGuid).length_eq
        rw [List.length_cons] at hPerm
        change (ginfo.players.erase guid.toNat).entries.length ≤ fuel
        omega
      obtain ⟨hRemoved, hPlayers⟩ := ih hLeft hOfNext hGroupLeft hRated hUninvited hLength
      rw [BattlegroundQueue.removePlayers, hEq]
      refine ⟨hRemoved, fun x hx => ?_⟩
      by_cases hSame : x = guid
      · rw [hSame]
        exact hLeft.removePlayers_absent fuel next hNone
      · exact hPlayers x (hErased x hx hSame)

theorem Structured.players_length (h : q.Structured) (hGroup : q.group id = some ginfo) :
    ginfo.players.entries.length ≤ q.queuedPlayers.entries.length := by
  have hNodup : (ginfo.players.entries.map fun guid => (guid, id)).Nodup :=
    (ginfo.players.nodup_keys.of_map _).map fun _ _ hSame => (Prod.mk.inj hSame).1
  have hSubset : (ginfo.players.entries.map fun guid => (guid, id)) ⊆ q.queuedPlayers.entries := by
    intro entry hIn
    obtain ⟨guid, hGuid, rfl⟩ := List.mem_map.mp hIn
    have hOf := h.members _ _ (group_some_iff.mpr ⟨ginfo, hGroup, rfl⟩) guid hGuid
    exact (KeyedSet.find?_eq_some_iff.mp (groupOf_some_iff.mp hOf)).1
  have hLength := (List.subperm_of_subset hNodup hSubset).length_le
  rw [List.length_map] at hLength
  exact hLength

theorem Structured.removePlayer (h : q.Structured) (guid : ObjectGuid) :
    (q.removePlayer guid).Structured :=
  h.removePlayers _ guid

theorem Structured.removePlayer_whole (h : q.Structured) (hOf : q.queuedPlayers.find? guid.toNat = some (guid, id))
    (hGroup : q.group id = some ginfo) (hRated : ginfo.isRated)
    (hUninvited : ginfo.isInvitedToBGInstanceGUID = 0) : Gone (q.removePlayer guid) id ginfo := by
  obtain ⟨hRemoved, hPlayers⟩ := h.removePlayers_whole hOf hGroup hRated hUninvited
    ((h.players_length hGroup).trans (Nat.le_succ _))
  refine ⟨hRemoved, fun list hIn => ?_, hPlayers⟩
  obtain ⟨players, hView⟩ := (h.removePlayer guid).listed list id hIn
  obtain ⟨found, hFound, -⟩ := group_some_iff.mp hView
  cases hFound.symm.trans hRemoved

end BattlegroundQueue

end AshamaneCore.Battlegrounds
