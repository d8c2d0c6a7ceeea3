import AshamaneCore.Game.GuildRankTable

/-!
# Authority of guild ranks

A member who is no guild master may change only members of lower rank than his own, and
may not raise anyone to it. The smaller the rank id, the higher the rank.
-/

namespace AshamaneCore.Guilds

open Library

/-- Who sends a request to change the rank or the membership of another member. -/
def RankAction.sender : RankAction → Option ObjectGuid
  | .updateMemberRank player _ _ => some player
  | .setMemberRank player _ _ => some player
  | .removeMember _ player _ => some player
  | _ => none

/-- What the sender may do to a member whose rank or membership changes. -/
structure Subordinate (me : Member) (target : ObjectGuid) (before after : Option Member) : Prop where
  other : target ≠ me.guid
  lower : ∃ member, before = some member ∧ me.rankId < member.rankId
  staysLower : ∀ member, after = some member → me.rankId < member.rankId

def memberAfter (s : GuildState) (action : RankAction) (target : ObjectGuid) : Option Member :=
  (s.act action).bind fun t => t.guild.getMember target

def KeepsAuthority (s : GuildState) (action : RankAction) : Prop :=
  ∀ player me, action.sender = some player → s.guild.isLeader player = false →
    s.guild.getMember player = some me →
    ∀ target, (s.guild.getMember target).map Member.rankId ≠
        (memberAfter s action target).map Member.rankId →
      Subordinate me target (s.guild.getMember target) (memberAfter s action target)

/-- The requests that respect authority: a rank that is set compares the sender's rank with
the old and the new one, and a leader is removed only where another guild master follows. -/
def Lawful (s : GuildState) : RankAction → Prop
  | .setMemberRank player target rank =>
    ∀ me member, s.guild.isLeader player = false → s.guild.getMember player = some me →
      s.guild.getMember target = some member →
      s.guild.hasRankRight player (GuildState.rightToSet rank member) = false ∨ member.guid = player ∨
        member.rankId = rank.toUInt8 ∨
        me.rankId < member.rankId ∧ me.rankId < rank.toUInt8
  | .removeMember _ player guid =>
    ∀ me member, s.guild.isLeader player = false → s.guild.getMember player = some me →
      s.guild.getMember guid = some member →
      s.guild.hasRankRight player grRightRemove = false ∨ member.rankId ≤ me.rankId ∨
        guid ≠ s.guild.leaderGuid ∨
        ∃ other ∈ s.guild.members.entries, other.guid ≠ guid ∧ other.rankId = grGuildmaster
  | _ => True

variable {s : GuildState} {action : RankAction}

theorem keepsAuthority_unchanged (h : s.act action = some s) :
    KeepsAuthority s action := by
  intro player me _ _ _ target hChanged
  rw [memberAfter, h] at hChanged
  exact absurd rfl hChanged

variable {player guid : ObjectGuid} {member me : Member}

theorem keepsAuthority_changeRank_iff {newRank : UInt8} (hSender : action.sender = some player)
    (hLeader : s.guild.isLeader player = false) (hMe : s.guild.getMember player = some me)
    (hMember : s.guild.getMember guid = some member) (hOther : member.guid ≠ player)
    (hAct : s.act action = some { s with guild := s.guild.changeRank guid newRank }) :
    KeepsAuthority s action ↔
      member.rankId = newRank ∨ me.rankId < member.rankId ∧ me.rankId < newRank := by
  have hAfter : ∀ target, memberAfter s action target =
      if target = guid then (s.guild.getMember target).map (·.changeRank newRank)
      else s.guild.getMember target := by
    intro target
    rw [memberAfter, hAct, Option.bind_some, getMember_changeRank]
  have hGuid := (getMember_some hMember).2
  have hMyGuid := (getMember_some hMe).2
  constructor
  · intro hKeeps
    by_cases hSame : member.rankId = newRank
    · exact Or.inl hSame
    have hTarget := hKeeps player me hSender hLeader hMe guid
    rw [hAfter, if_pos rfl, hMember] at hTarget
    obtain ⟨-, ⟨before, hBefore, hLower⟩, hStays⟩ := hTarget fun hEq => hSame (Option.some.inj hEq)
    obtain rfl := Option.some.inj hBefore
    exact Or.inr ⟨hLower, hStays _ rfl⟩
  · intro hAllowed sender mine hSends _ hMine target hChanged
    obtain rfl := Option.some.inj (hSender.symm.trans hSends)
    obtain rfl := Option.some.inj (hMe.symm.trans hMine)
    rw [hAfter] at hChanged ⊢
    by_cases hTarget : target = guid
    · rw [if_pos hTarget, hTarget, hMember] at hChanged ⊢
      obtain hSame | ⟨hBefore, hNew⟩ := hAllowed
      · exact absurd (congrArg some hSame) hChanged
      · refine ⟨?_, ⟨member, rfl, hBefore⟩, ?_⟩
        · rw [hMyGuid, ← hGuid]
          exact hOther
        · intro after hEq
          obtain rfl := Option.some.inj hEq
          exact hNew
    · rw [if_neg hTarget] at hChanged
      exact absurd rfl hChanged

theorem rank_of_right {g : Guild} {right : UInt32}
    (hMember : g.getMember player = some member) (hRight : g.hasRankRight player right = true) :
    member.rankId < g.getRanksSize := by
  by_contra hOutside
  rw [Guild.hasRankRight, hMember] at hRight
  have hNone : g.getRankRights member.rankId = 0 := by
    rw [Guild.getRankRights, Guild.getRankInfo, if_neg hOutside]
    rfl
  simp only [hNone, UInt32.zero_and, grRightNone] at hRight
  exact absurd hRight (by decide)

theorem keepsAuthority_of_master (hSender : action.sender = some player)
    (h : ∀ me, s.guild.isLeader player = false → s.guild.getMember player = some me → False) :
    KeepsAuthority s action := by
  intro sender me hSends hLeader hMe
  obtain rfl := Option.some.inj (hSender.symm.trans hSends)
  exact (h me hLeader hMe).elim

theorem updateMemberRank_keepsAuthority (s : GuildState) (player guid : ObjectGuid) (demote : Bool) :
    KeepsAuthority s (.updateMemberRank player guid demote) := by
  obtain hSame | ⟨member, memberMe, newRank, hMember, hMe, hRight, hOther, hNew, hEq⟩ :=
    handleUpdateMemberRank_cases s player guid demote
  · exact keepsAuthority_unchanged (congrArg some hSame)
  cases hLeader : s.guild.isLeader player with
  | true => exact keepsAuthority_of_master rfl fun me hNot => by rw [hLeader] at hNot; cases hNot
  | false =>
    have hAct : s.act (.updateMemberRank player guid demote) =
        some { s with guild := s.guild.changeRank guid newRank } := congrArg some hEq
    apply (keepsAuthority_changeRank_iff rfl hLeader hMe hMember hOther hAct).mpr
    apply Or.inr
    have hMine := UInt8.lt_iff_toNat_lt.mp (rank_of_right hMe hRight)
    have hSize := s.guild.getRanksSize.toNat_lt
    simp only [UInt8.lt_iff_toNat_lt] at hNew ⊢
    obtain ⟨hBelow, hLowest, rfl⟩ | ⟨hBelow, rfl⟩ := hNew
    · have hLast := s.guild.getLowestRankId.toNat_lt
      rw [UInt8.toNat_add, UInt8.toNat_one, Nat.mod_eq_of_lt (by omega)]
      omega
    · rw [UInt8.toNat_add, UInt8.toNat_one, Nat.mod_eq_of_lt (by omega)] at hBelow
      have hOne : (1 : UInt8) ≤ member.rankId := by
        rw [UInt8.le_iff_toNat_le, UInt8.toNat_one]
        omega
      rw [UInt8.toNat_sub_of_le _ _ hOne, UInt8.toNat_one]
      omega

theorem setMemberRank_keepsAuthority_iff (s : GuildState) (player target : ObjectGuid) (rank : UInt32) :
    KeepsAuthority s (.setMemberRank player target rank) ↔ Lawful s (.setMemberRank player target rank) := by
  obtain ⟨hRefused, hSame⟩ | ⟨member, hMember, hRight, hOther, hEq⟩ :=
    handleSetMemberRank_cases s player target rank
  · refine iff_of_true (keepsAuthority_unchanged (congrArg some hSame)) ?_
    intro me member _ _ hMember
    obtain hNoRight | hSelf := hRefused member hMember
    · exact Or.inl hNoRight
    · exact Or.inr (Or.inl hSelf)
  · have hCondition : ∀ me, s.guild.isLeader player = false → s.guild.getMember player = some me →
        (KeepsAuthority s (.setMemberRank player target rank) ↔
          member.rankId = rank.toUInt8 ∨ me.rankId < member.rankId ∧ me.rankId < rank.toUInt8) :=
      fun me hLeader hMe =>
        keepsAuthority_changeRank_iff rfl hLeader hMe hMember hOther (congrArg some hEq)
    constructor
    · intro hKeeps me found hLeader hMe hFound
      obtain rfl := Option.some.inj (hMember.symm.trans hFound)
      exact Or.inr (Or.inr ((hCondition me hLeader hMe).mp hKeeps))
    · intro hLawful player' me hSends hLeader hMe
      obtain rfl := Option.some.inj hSends
      obtain hNoRight | hSelf | hAllowed := hLawful me member hLeader hMe hMember
      · rw [hRight] at hNoRight
        cases hNoRight
      · exact absurd hSelf hOther
      · exact (hCondition me hLeader hMe).mpr hAllowed player me rfl hLeader hMe

theorem getMember_eraseMember (g : Guild) (guid target : ObjectGuid) :
    (g.eraseMember guid).getMember target = if target = guid then none else g.getMember target := by
  have hGuid : target.toNat = guid.toNat ↔ target = guid := ObjectGuid.toNat_injective.eq_iff
  rw [Guild.getMember, Guild.eraseMember, KeyedSet.find?_erase_eq]
  simp only [hGuid, Guild.getMember]

theorem getMember_deleteMember (s : GuildState) (walk : Walk) (guid : ObjectGuid)
    (hMe : me ∈ s.guild.members.entries) (hOther : me.guid ≠ guid) :
    (s.guild.leaderGuid ≠ guid ∧ ∀ target, (s.deleteMember walk guid).bind (·.guild.getMember target) =
        if target = guid then none else s.guild.getMember target) ∨
      ∃ heir, s.guild.leaderGuid = guid ∧ Inherits guid s.guild.members.entries heir ∧
        ∀ target, (s.deleteMember walk guid).bind (·.guild.getMember target) =
          if target = guid then none
          else if target = heir.guid then (s.guild.getMember target).map (·.changeRank grGuildmaster)
          else s.guild.getMember target := by
  rw [GuildState.deleteMember]
  by_cases hLeader : s.guild.leaderGuid = guid
  · cases hHeir : s.guild.newLeader walk guid with
    | none =>
      have hIn := (walk.perm s.guild.members.entries).mem_iff.mpr hMe
      exact absurd ((heir_spec guid _).2 hHeir me hIn) hOther
    | some heir =>
      refine Or.inr ⟨heir, hLeader, newLeader_spec hHeir, fun target => ?_⟩
      rw [if_pos hLeader, Option.map_some, Option.bind_some, getMember_eraseMember,
        getMember_setLeaderGUID]
  · refine Or.inl ⟨hLeader, fun target => ?_⟩
    rw [if_neg hLeader, Option.bind_some, getMember_eraseMember]

theorem guid_ne_of_lower (hMe : s.guild.getMember player = some me) (hMember : s.guild.getMember guid = some member)
    (hBelow : me.rankId < member.rankId) : me.guid ≠ guid := by
  rintro rfl
  rw [(getMember_some hMe).2, hMe, Option.some_inj] at hMember
  rw [hMember] at hBelow
  exact UInt8.lt_irrefl _ hBelow

theorem removal_keepsAuthority {walk : Walk}
    (hMe : s.guild.getMember player = some me) (hMember : s.guild.getMember guid = some member)
    (hBelow : me.rankId < member.rankId)
    (hGone : memberAfter s (.removeMember walk player guid) guid = none)
    (hKept : ∀ target, target ≠ guid →
      (memberAfter s (.removeMember walk player guid) target).map Member.rankId =
        (s.guild.getMember target).map Member.rankId) :
    KeepsAuthority s (.removeMember walk player guid) := by
  intro sender mine hSends _ hFound target hChanged
  obtain rfl : player = sender := Option.some.inj hSends
  obtain rfl := Option.some.inj (hMe.symm.trans hFound)
  by_cases hTarget : target = guid
  · rw [hTarget, hMember, hGone]
    refine ⟨(guid_ne_of_lower hMe hMember hBelow).symm, ⟨member, rfl, hBelow⟩, fun after hAfter => ?_⟩
    cases hAfter
  · exact absurd (hKept target hTarget).symm hChanged

theorem removeMember_keepsAuthority_iff (s : GuildState) (walk : Walk) (player guid : ObjectGuid) :
    KeepsAuthority s (.removeMember walk player guid) ↔ Lawful s (.removeMember walk player guid) := by
  obtain ⟨hRefused, hSame⟩ | ⟨member, me, hMember, hMe, hRight, hBelow, hEq⟩ :=
    handleRemoveMember_cases s walk player guid
  · refine iff_of_true (keepsAuthority_unchanged hSame) ?_
    intro me member _ hMe hMember
    obtain hNoRight | hNotBelow := hRefused member me hMember hMe
    · exact Or.inl hNoRight
    · exact Or.inr (Or.inl hNotBelow)
  cases hLeader : s.guild.isLeader player with
  | true =>
    refine iff_of_true (keepsAuthority_of_master rfl fun me hNot => ?_) fun me member hNot => ?_
    · rw [hLeader] at hNot
      cases hNot
    · rw [hLeader] at hNot
      cases hNot
  | false =>
    have hOther := guid_ne_of_lower hMe hMember hBelow
    have hResult : ∀ target, memberAfter s (.removeMember walk player guid) target =
        (s.deleteMember walk guid).bind (·.guild.getMember target) := by
      intro target
      rw [memberAfter, GuildState.act, hEq]
    obtain ⟨hNotLeader, hAfter⟩ | ⟨heir, hLeads, hInherits, hAfter⟩ :=
      getMember_deleteMember s walk guid (getMember_some hMe).1 hOther
    · refine iff_of_true (removal_keepsAuthority hMe hMember hBelow ?_ fun target hTarget => ?_) ?_
      · rw [hResult, hAfter, if_pos rfl]
      · rw [hResult, hAfter, if_neg hTarget]
      · intro _ _ _ _ _
        exact Or.inr (Or.inr (Or.inl hNotLeader.symm))
    · have hHeir : s.guild.getMember heir.guid = some heir :=
        KeyedSet.find?_eq_some_iff.mpr ⟨hInherits.mem, rfl⟩
      by_cases hFirst : heir.rankId = grGuildmaster
      · refine iff_of_true (removal_keepsAuthority hMe hMember hBelow ?_ fun target hTarget => ?_) ?_
        · rw [hResult, hAfter, if_pos rfl]
        · rw [hResult, hAfter, if_neg hTarget]
          by_cases hIsHeir : target = heir.guid
          · rw [if_pos hIsHeir, hIsHeir, hHeir]
            exact congrArg some hFirst.symm
          · rw [if_neg hIsHeir]
        · intro _ _ _ _ _
          exact Or.inr (Or.inr (Or.inr ⟨heir, hInherits.mem, hInherits.other, hFirst⟩))
      · refine iff_of_false (fun hKept => ?_) fun hLawful => ?_
        · have hStays := (hKept player me rfl hLeader hMe heir.guid)
          rw [hResult, hAfter, if_neg hInherits.other, if_pos rfl, hHeir] at hStays
          have hLow := (hStays fun hEq => hFirst (Option.some.inj hEq)).staysLower _ rfl
          exact absurd (UInt8.lt_iff_toNat_lt.mp hLow) (Nat.not_lt_zero _)
        · obtain hNoRight | hNotBelow | hNotLeader | ⟨other, hIn, hNe, hMaster⟩ :=
            hLawful me member hLeader hMe hMember
          · rw [hRight] at hNoRight
            cases hNoRight
          · exact absurd hNotBelow (UInt8.not_le.mpr hBelow)
          · exact hNotLeader hLeads.symm
          · have hHighest := hInherits.highest other hIn hNe
            rw [hMaster] at hHighest
            exact hFirst (UInt8.toNat.inj (Nat.le_zero.mp (UInt8.le_iff_toNat_le.mp hHighest)))

theorem keepsAuthority_iff (s : GuildState) (action : RankAction) :
    KeepsAuthority s action ↔ Lawful s action := by
  have hNoSender : action.sender = none → KeepsAuthority s action := by
    intro hNone player me hSender
    rw [hNone] at hSender
    cases hSender
  cases action with
  | updateMemberRank player guid demote =>
    exact iff_of_true (updateMemberRank_keepsAuthority s player guid demote) trivial
  | setMemberRank player target rank => exact setMemberRank_keepsAuthority_iff s player target rank
  | removeMember walk player guid => exact removeMember_keepsAuthority_iff s walk player guid
  | addNewRank player name => exact iff_of_true (hNoSender rfl) trivial
  | removeRank player rankId => exact iff_of_true (hNoSender rfl) trivial
  | setNewGuildMaster player newMaster => exact iff_of_true (hNoSender rfl) trivial
  | changeMemberRank guid newRank => exact iff_of_true (hNoSender rfl) trivial
  | addMember guid noGuild => exact iff_of_true (hNoSender rfl) trivial
  | deleteMember walk guid => exact iff_of_true (hNoSender rfl) trivial

/-- In every run of any guild the senders keep to their authority exactly when all their
requests are lawful. -/
theorem authority_iff_lawful (state : Option GuildState) (actions : List RankAction) :
    Transition.Along rankStep (fun state action => ∀ s, state = some s → KeepsAuthority s action)
        state actions ↔
      Transition.Along rankStep (fun state action => ∀ s, state = some s → Lawful s action)
        state actions := by
  apply Transition.along_congr (I := fun _ => True)
  · intro state action _
    exact forall₂_congr fun s _ => keepsAuthority_iff s action
  · exact fun _ _ _ _ => trivial
  · trivial

/-- A new guild in which the second of three members has been made an officer. -/
def withOfficer : Option GuildState :=
  Transition.run rankStep (Origin.created ⟨1, 0⟩ defaultNames .empty).state
    [.addMember ⟨2, 0⟩ true, .addMember ⟨3, 0⟩ true, .changeMemberRank ⟨2, 0⟩ grOfficer]

set_option maxRecDepth 20000 in
theorem officer_makes_master :
    ¬ Transition.Along rankStep (fun state action => ∀ s, state = some s → KeepsAuthority s action)
      withOfficer [.setMemberRank ⟨2, 0⟩ ⟨3, 0⟩ 0] := by
  rintro ⟨hKeeps, -⟩
  have hLeader : (withOfficer.map fun s => s.guild.isLeader ⟨2, 0⟩) = some false := by decide
  have hRight : (withOfficer.map fun s => s.guild.hasRankRight ⟨2, 0⟩ grRightPromote) = some true := by
    decide
  have hMe : (withOfficer.bind fun s => (s.guild.getMember ⟨2, 0⟩).map Member.rankId) = some 1 := by
    decide
  have hTarget : (withOfficer.bind fun s => (s.guild.getMember ⟨3, 0⟩).map Member.rankId) = some 4 := by
    decide
  obtain ⟨s, hState, hFound⟩ := Option.bind_eq_some_iff.mp hMe
  obtain ⟨me, hMe, hOfficer⟩ := Option.map_eq_some_iff.mp hFound
  rw [hState] at hLeader hRight hTarget
  obtain ⟨member, hMember, hInitiate⟩ := Option.map_eq_some_iff.mp hTarget
  have hLawful := (keepsAuthority_iff s _).mp (hKeeps s hState)
  obtain hNoRight | hSelf | hSame | ⟨-, hAbove⟩ :=
    hLawful me member (Option.some.inj hLeader) hMe hMember
  · have hPromotes : s.guild.hasRankRight ⟨2, 0⟩ grRightPromote = true := Option.some.inj hRight
    rw [GuildState.rightToSet, hInitiate, if_neg (by decide), hPromotes] at hNoRight
    cases hNoRight
  · exact absurd ((getMember_some hMember).2.symm.trans hSelf) (by decide)
  · rw [hInitiate] at hSame
    exact absurd hSame (by decide)
  · exact absurd (UInt8.lt_iff_toNat_lt.mp hAbove) (Nat.not_lt_zero _)

end AshamaneCore.Guilds
