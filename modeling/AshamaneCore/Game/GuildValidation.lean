import AshamaneCore.Game.GuildRankTable

/-!
# Guilds that pass their validation

A loaded guild is repaired or disbanded. The check of the members' ranks lets the number
behind the last rank through, and a guild without members is disbanded where its leader is
replaced and once more behind that.
-/

namespace AshamaneCore.Guilds

open Library

/-- A guild under validation, and how often it has been disbanded. -/
structure Validation where
  state : GuildState
  disbands : Nat

namespace Validation

def disband (v : Validation) : Validation where
  state :=
    { guild := { v.state.guild with members := KeyedSet.empty, bankTabs := .empty }
      tables := .empty }
  disbands := v.disbands + 1

def deleteMember (v : Validation) (walk : Walk) (guid : ObjectGuid) : Validation :=
  match v.state.deleteMember walk guid with
  | some s => { v with state := s }
  | none => v.disband

end Validation

namespace GuildState

/-- The answer of the validation, and what has become of the guild. -/
def validateGuild (s : GuildState) (names : DefaultRankNames) (walk : Walk)
    (allowMultipleGuildMaster : Bool) : Bool × Validation :=
  let s := (s.validateRanks names).validateMembers
  match s.guild.getMember s.guild.leaderGuid with
  | none =>
    let v := (Validation.mk s 0).deleteMember walk s.guild.leaderGuid
    if v.state.guild.members.entries.isEmpty then (false, v.disband)
    else (true, { v with state := v.state.validateMasters allowMultipleGuildMaster })
  | some leader =>
    let s := if leader.rankId = grGuildmaster then s else { s with guild := s.guild.setLeaderGUID leader.guid }
    (true, ⟨s.validateMasters allowMultipleGuildMaster, 0⟩)

end GuildState

structure Valid (g : Guild) (allowMultipleGuildMaster : Bool) : Prop where
  ids : g.ranks.map (fun info => info.rankId.toNat) = List.range g.ranks.length
  atLeast : guildRanksMinCount.toNat ≤ g.ranks.length
  atMost : g.ranks.length ≤ guildRanksMaxCount.toNat
  members : ∀ member ∈ g.members.entries, member.rankId.toNat < g.ranks.length
  leader : ∃ member, g.getMember g.leaderGuid = some member ∧ member.rankId = grGuildmaster
  only : allowMultipleGuildMaster = false →
    ∀ member ∈ g.members.entries, member.rankId = grGuildmaster → member.guid = g.leaderGuid

def Validated (allowMultipleGuildMaster : Bool) (outcome : Bool × Validation) : Prop :=
  if outcome.1 then Valid outcome.2.state.guild allowMultipleGuildMaster else outcome.2.disbands = 1

def RankTables.rankCount (tables : RankTables) : Nat :=
  let ids := tables.ranks.entries.map RankRow.key
  if 2 ≤ ids.length ∧ ids.length ≤ 10 ∧ ids = List.range ids.length then ids.length else 5

/-! ## Ranks and members -/

theorem loadRanks_ids (tables : RankTables) (tabs : UInt8) :
    (loadRanks tables tabs).map (fun info => info.rankId.toNat) = tables.ranks.entries.map RankRow.key := by
  have hRows := congrArg (List.map RankRow.key) (loadRanks_rows tables tabs)
  rw [List.map_map, List.map_map] at hRows
  exact hRows

theorem ranksBroken_load_iff (leader : ObjectGuid) (members : Members) (bankTabs : BankTabs) (bankMoney : UInt64)
    (tables : RankTables) :
    GuildState.ranksBroken (GuildState.load leader members bankTabs bankMoney tables).guild = false ↔
      2 ≤ (tables.ranks.entries.map RankRow.key).length ∧ (tables.ranks.entries.map RankRow.key).length ≤ 10 ∧
        tables.ranks.entries.map RankRow.key = List.range (tables.ranks.entries.map RankRow.key).length := by
  have hIds := loadRanks_ids tables (UInt8.ofNat bankTabs.purchased)
  have hLength : (loadRanks tables (UInt8.ofNat bankTabs.purchased)).length =
      (tables.ranks.entries.map RankRow.key).length := by
    rw [← hIds, List.length_map]
  have hIff := ranksBroken_eq_false_iff (g := (GuildState.load leader members bankTabs bankMoney tables).guild)
    (length_loadRanks tables (UInt8.ofNat bankTabs.purchased))
  rw [GuildState.load] at hIff ⊢
  rwa [hLength, hIds] at hIff

theorem length_validateRanks (leader : ObjectGuid) (members : Members) (bankTabs : BankTabs) (bankMoney : UInt64)
    (tables : RankTables) (names : DefaultRankNames) :
    ((GuildState.load leader members bankTabs bankMoney tables).validateRanks names).guild.ranks.length =
      tables.rankCount := by
  have hIff := ranksBroken_load_iff leader members bankTabs bankMoney tables
  cases hBroken : GuildState.ranksBroken (GuildState.load leader members bankTabs bankMoney tables).guild with
  | true =>
    rw [hBroken] at hIff
    rw [GuildState.validateRanks, if_pos hBroken, RankTables.rankCount, if_neg fun hRange => ?_]
    · obtain ⟨created, kept, hCreate, -, hCount⟩ := createDefaultGuildRanks_table
        (s := ⟨⟨leader, members, [], bankTabs, bankMoney⟩, tables⟩) rfl names
      exact (congrArg (fun s => s.guild.ranks.length) hCreate).trans hCount
    · exact Bool.noConfusion (hIff.mpr hRange)
  | false =>
    rw [GuildState.validateRanks, if_neg (by rw [hBroken]; exact Bool.false_ne_true), RankTables.rankCount,
      if_pos (hIff.mp hBroken), ← loadRanks_ids tables (UInt8.ofNat bankTabs.purchased), List.length_map, List.length_map]
    rfl

namespace GuildState

theorem mem_validateMembers {s : GuildState} (hTable : RankTable s) (hAtLeast : 2 ≤ s.guild.ranks.length)
    {member : Member} (h : member ∈ s.validateMembers.guild.members.entries) :
    member.rankId.toNat ≤ s.guild.ranks.length := by
  obtain ⟨old, -, rfl⟩ := List.mem_map.mp h
  rw [repairRank]
  split
  · change (Guild.getLowestRankId _).toNat ≤ _
    rw [getLowestRankId_toNat hTable.atMost (Nat.lt_of_lt_of_le Nat.two_pos hAtLeast)]
    exact Nat.sub_le _ _
  · rename_i hWithin
    have hRank := UInt8.le_iff_toNat_le.mp (UInt8.not_lt.mp hWithin)
    rwa [getRanksSize_toNat hTable.atMost] at hRank

theorem rank_repairRank_iff {s : GuildState} (hTable : RankTable s) (hAtLeast : 2 ≤ s.guild.ranks.length)
    (member : Member) :
    (repairRank s.guild member).rankId.toNat = s.guild.ranks.length ↔ member.rankId.toNat = s.guild.ranks.length := by
  have hLowest := getLowestRankId_toNat hTable.atMost (Nat.lt_of_lt_of_le Nat.two_pos hAtLeast)
  have hSize := getRanksSize_toNat hTable.atMost
  rw [repairRank]
  split
  · rename_i hBeyond
    rw [gt_iff_lt, UInt8.lt_iff_toNat_lt, hSize] at hBeyond
    change (Guild.getLowestRankId _).toNat = _ ↔ _
    rw [hLowest]
    omega
  · exact Iff.rfl

theorem key_repairRank_inj (g : Guild) (member : Member) : (repairRank g member).guid = member.guid := by
  rw [repairRank]
  split <;> rfl

/-! ## The leader -/

/-- What the repair of the leader leaves: a chief of the first rank, and all the others as they were. -/
structure Led (s t : GuildState) (chief : Member) : Prop where
  mem : chief ∈ s.guild.members.entries
  leader : t.guild.leaderGuid = chief.guid
  ranks : t.guild.ranks = s.guild.ranks
  tables : t.tables = s.tables
  first : ∃ member, t.guild.getMember chief.guid = some member ∧ member.rankId = grGuildmaster
  others : ∀ member, member.guid ≠ chief.guid →
    (member ∈ t.guild.members.entries ↔ member ∈ s.guild.members.entries)
  /-- A leader that is a member stays, and any other is followed by a member of the highest rank. -/
  choice : chief.guid = s.guild.leaderGuid ∨
    s.guild.getMember s.guild.leaderGuid = none ∧ ∀ member ∈ s.guild.members.entries, chief.rankId ≤ member.rankId

theorem mem_setLeaderGUID {g : Guild} {guid : ObjectGuid} {member : Member} (h : member.guid ≠ guid) :
    member ∈ (g.setLeaderGUID guid).members.entries ↔ member ∈ g.members.entries := by
  rw [Guild.setLeaderGUID, Guild.changeRank]
  refine (KeyedSet.mem_alter (Member.key_changeRank grGuildmaster)).trans ?_
  constructor
  · rintro (⟨old, -, hKey, rfl⟩ | ⟨hOld, -⟩)
    · exact absurd (ObjectGuid.toNat_injective hKey) h
    · exact hOld
  · exact fun hOld => Or.inr ⟨hOld, fun hKey => h (ObjectGuid.toNat_injective hKey)⟩

theorem led_setLeader {s : GuildState} {chief : Member} (hMem : chief ∈ s.guild.members.entries)
    (hChoice : chief.guid = s.guild.leaderGuid ∨
      s.guild.getMember s.guild.leaderGuid = none ∧ ∀ member ∈ s.guild.members.entries, chief.rankId ≤ member.rankId) :
    Led s { s with guild := s.guild.setLeaderGUID chief.guid } chief := by
  refine ⟨hMem, rfl, rfl, rfl, ⟨chief.changeRank grGuildmaster, ?_, rfl⟩, fun member h => mem_setLeaderGUID h, hChoice⟩
  change (s.guild.setLeaderGUID chief.guid).getMember chief.guid = _
  have hFound : s.guild.getMember chief.guid = some chief := KeyedSet.find?_eq_some_iff.mpr ⟨hMem, rfl⟩
  rw [getMember_setLeaderGUID, if_pos rfl, hFound]
  rfl

theorem Led.eraseMember {s t : GuildState} {chief : Member} (h : Led s t chief) {guid : ObjectGuid}
    (hGone : s.guild.getMember guid = none) : Led s { t with guild := t.guild.eraseMember guid } chief := by
  have hNotChief : chief.guid ≠ guid := by
    rintro rfl
    exact KeyedSet.find?_eq_none_iff.mp hGone chief h.mem rfl
  refine ⟨h.mem, h.leader, h.ranks, h.tables, ?_, fun member hOther => ?_, h.choice⟩
  · obtain ⟨member, hFound, hFirst⟩ := h.first
    refine ⟨member, ?_, hFirst⟩
    change (t.guild.members.erase guid.toNat).find? chief.guid.toNat = _
    rw [KeyedSet.find?_erase_eq, if_neg (ObjectGuid.toNat_injective.ne hNotChief)]
    exact hFound
  · change member ∈ (t.guild.members.erase guid.toNat).entries ↔ _
    rw [KeyedSet.mem_erase, h.others member hOther]
    refine and_iff_left_of_imp fun hMember => ?_
    exact KeyedSet.find?_eq_none_iff.mp hGone member hMember

theorem exists_heir {s : GuildState} (walk : Walk) (hSome : s.guild.members.entries ≠ [])
    (hGone : s.guild.getMember s.guild.leaderGuid = none) :
    ∃ heir, s.guild.newLeader walk s.guild.leaderGuid = some heir ∧
      Inherits s.guild.leaderGuid s.guild.members.entries heir := by
  cases hHeir : s.guild.newLeader walk s.guild.leaderGuid with
  | some heir => exact ⟨heir, rfl, newLeader_spec hHeir⟩
  | none =>
    obtain ⟨member, hMember⟩ := List.exists_mem_of_ne_nil _ hSome
    have hGuid := (heir_spec s.guild.leaderGuid _).2 hHeir member ((walk.perm _).mem_iff.mpr hMember)
    exact absurd (congrArg ObjectGuid.toNat hGuid) (KeyedSet.find?_eq_none_iff.mp hGone member hMember)

/-! ## The outcome -/

variable {names : DefaultRankNames} {allow : Bool}

theorem validateGuild_members (walk : Walk) (allow : Bool) {s : GuildState}
    (hSome : (s.validateRanks names).validateMembers.guild.members.entries ≠ []) :
    ∃ t chief, Led (s.validateRanks names).validateMembers t chief ∧
      s.validateGuild names walk allow = (true, ⟨t.validateMasters allow, 0⟩) ∧
      s.validate names walk allow = some (t.validateMasters allow) := by
  rw [validateGuild, validate, validateLeader]
  generalize (s.validateRanks names).validateMembers = r at hSome
  cases hLeads : r.guild.getMember r.guild.leaderGuid with
  | none =>
    obtain ⟨heir, hHeir, hInherits⟩ := exists_heir walk hSome hLeads
    have hHighest : ∀ member ∈ r.guild.members.entries, heir.rankId ≤ member.rankId := fun member hMember =>
      hInherits.highest member hMember fun hGuid =>
        KeyedSet.find?_eq_none_iff.mp hLeads member hMember (congrArg ObjectGuid.toNat hGuid)
    have hLed := (led_setLeader hInherits.mem (Or.inr ⟨hLeads, hHighest⟩)).eraseMember hLeads
    have hDelete : r.deleteMember walk r.guild.leaderGuid =
        some { r with guild := (r.guild.setLeaderGUID heir.guid).eraseMember r.guild.leaderGuid } := by
      rw [deleteMember, if_pos rfl, hHeir]
      rfl
    have hKept : ((r.guild.setLeaderGUID heir.guid).eraseMember r.guild.leaderGuid).members.entries.isEmpty = false := by
      obtain ⟨member, hFound, -⟩ := hLed.first
      exact List.isEmpty_eq_false_iff.mpr (List.ne_nil_of_mem (getMember_some hFound).1)
    refine ⟨_, heir, hLed, ?_⟩
    simp only [Validation.deleteMember, hDelete, hKept]
    exact ⟨rfl, rfl⟩
  | some leader =>
    obtain ⟨hMem, hGuid⟩ := getMember_some hLeads
    by_cases hFirst : leader.rankId = grGuildmaster
    · refine ⟨r, leader, ⟨hMem, hGuid.symm, rfl, rfl, ⟨leader, hGuid ▸ hLeads, hFirst⟩, fun _ _ => Iff.rfl,
        Or.inl hGuid⟩, ?_⟩
      simp only [hFirst, if_true]
      exact ⟨trivial, rfl⟩
    · refine ⟨_, leader, led_setLeader hMem (Or.inl hGuid), ?_⟩
      simp only [hFirst, if_false]
      exact ⟨trivial, rfl⟩

theorem validateGuild_empty (walk : Walk) (allow : Bool) {s : GuildState}
    (hNone : (s.validateRanks names).validateMembers.guild.members.entries = []) :
    (s.validateGuild names walk allow).1 = false ∧ (s.validateGuild names walk allow).2.disbands = 2 ∧
      s.validate names walk allow = none := by
  rw [validateGuild, validate, validateLeader]
  generalize (s.validateRanks names).validateMembers = r at hNone
  have hLeads : r.guild.getMember r.guild.leaderGuid = none := by
    rw [Guild.getMember, KeyedSet.find?, hNone]
    rfl
  have hHeir : r.guild.newLeader walk r.guild.leaderGuid = none := by
    rw [Guild.newLeader, hNone, List.perm_nil.mp (walk.perm [])]
    rfl
  have hDelete : r.deleteMember walk r.guild.leaderGuid = none := by
    rw [deleteMember, if_pos rfl, hHeir]
    rfl
  simp only [hLeads, Validation.deleteMember, hDelete]
  exact ⟨rfl, rfl, rfl⟩

theorem mem_validateMasters {s : GuildState} {member : Member} (h : member.rankId ≠ grGuildmaster) :
    member ∈ s.guild.members.entries → member ∈ (s.validateMasters allow).guild.members.entries := by
  intro hMember
  rw [validateMasters]
  split
  · exact hMember
  · refine List.mem_map.mpr ⟨member, hMember, ?_⟩
    rw [demoteSecondMaster, if_neg]
    rw [Bool.and_eq_true, decide_eq_true_iff]
    exact fun hFirst => h hFirst.1

theorem Led.valid_iff {s t : GuildState} {chief : Member} (h : Led s t chief) (hTable : RankTable s)
    (hAtLeast : 2 ≤ s.guild.ranks.length) (hWithin : ∀ member ∈ s.guild.members.entries,
      member.rankId.toNat ≤ s.guild.ranks.length) :
    Valid (t.validateMasters allow).guild allow ↔
      ∀ member ∈ s.guild.members.entries, member.guid ≠ chief.guid →
        member.rankId.toNat ≠ s.guild.ranks.length := by
  have hRanks : (t.validateMasters allow).guild.ranks = s.guild.ranks :=
    (validateMasters_ranks t allow).1.trans h.ranks
  constructor
  · intro hValid member hMember hOther hBehind
    have hNotFirst : member.rankId ≠ grGuildmaster := by
      intro hFirst
      rw [hFirst] at hBehind
      exact absurd hBehind (Nat.ne_of_lt (Nat.lt_of_lt_of_le Nat.two_pos hAtLeast))
    have hLt := hValid.members member (mem_validateMasters hNotFirst ((h.others member hOther).mpr hMember))
    rw [hRanks] at hLt
    exact absurd hBehind hLt.ne
  · intro hNone
    obtain ⟨leader, hFound, hFirst⟩ := h.first
    obtain ⟨hLeader, hLeaderGuid⟩ := getMember_some hFound
    have hMembers : ∀ member ∈ t.guild.members.entries, member.rankId.toNat < s.guild.ranks.length := by
      intro member hMember
      by_cases hChief : member.guid = chief.guid
      · have hSame : member = leader :=
          t.guild.members.key_injective hMember hLeader (congrArg ObjectGuid.toNat (hChief.trans hLeaderGuid.symm))
        rw [hSame, hFirst]
        exact Nat.lt_of_lt_of_le Nat.two_pos hAtLeast
      · have hOld := (h.others member hChief).mp hMember
        exact Nat.lt_of_le_of_ne (hWithin member hOld) (hNone member hOld hChief)
    have hSound : Sound t := by
      refine ⟨⟨?_, ?_, ?_⟩, ?_, ?_, ⟨leader, h.leader ▸ hFound, hFirst⟩⟩ <;> simp only [h.ranks, h.tables]
      · exact hTable.ids
      · exact hTable.atMost
      · exact hTable.rows
      · exact hAtLeast
      · exact hMembers
    have hAfter := hSound.validateMasters allow
    refine ⟨hAfter.ids, hAfter.atLeast, hAfter.atMost, hAfter.members, hAfter.leader, fun hOnly member hMember hMaster => ?_⟩
    subst hOnly
    obtain ⟨old, hOld, rfl⟩ := List.mem_map.mp hMember
    rw [demoteSecondMaster] at hMaster ⊢
    split at hMaster
    · cases hMaster
    · rename_i hKept
      rw [if_neg hKept]
      rw [Bool.and_eq_true, decide_eq_true_iff, decide_eq_true_iff] at hKept
      exact not_not.mp fun hOther => hKept ⟨hMaster, hOther⟩

theorem Led.behind_iff {s t : GuildState} {chief : Member} (h : Led s.validateMembers t chief)
    (hTable : RankTable s) (hAtLeast : 2 ≤ s.guild.ranks.length) :
    (∀ member ∈ s.validateMembers.guild.members.entries, member.guid ≠ chief.guid →
        member.rankId.toNat ≠ s.guild.ranks.length) ↔
      ∀ member ∈ s.guild.members.entries, member.rankId.toNat = s.guild.ranks.length →
        member.guid = s.guild.leaderGuid ∨ s.guild.members.entries = [member] := by
  constructor
  · intro hNone member hMember hBehind
    by_contra hOther
    rw [not_or] at hOther
    have hRepaired : repairRank s.guild member ∈ s.validateMembers.guild.members.entries := List.mem_map_of_mem hMember
    have hRank := (rank_repairRank_iff hTable hAtLeast member).mpr hBehind
    by_cases hChief : member.guid = chief.guid
    · -- The chief has the rank behind the last one, so everybody else has it too.
      have hSame : repairRank s.guild member = chief :=
        s.validateMembers.guild.members.key_injective hRepaired h.mem
          (congrArg ObjectGuid.toNat ((key_repairRank_inj s.guild member).trans hChief))
      obtain hLeader | ⟨-, hHighest⟩ := h.choice
      · exact hOther.1 (hChief.trans hLeader)
      · obtain ⟨second, hSecond, hDiffers⟩ : ∃ second ∈ s.guild.members.entries, second ≠ member := by
          by_contra hAlone
          push Not at hAlone
          exact hOther.2 (s.guild.members.eq_singleton hMember hAlone)
        have hSecondGuid : second.guid ≠ chief.guid := fun hGuid =>
          hDiffers (s.guild.members.key_injective hSecond hMember (congrArg ObjectGuid.toNat (hGuid.trans hChief.symm)))
        have hIn : repairRank s.guild second ∈ s.validateMembers.guild.members.entries := List.mem_map_of_mem hSecond
        refine hNone _ hIn (by rwa [key_repairRank_inj]) (Nat.le_antisymm ?_ ?_)
        · exact mem_validateMembers hTable hAtLeast hIn
        · rw [← hRank, hSame]
          exact UInt8.le_iff_toNat_le.mp (hHighest _ hIn)
    · exact hNone _ hRepaired (by rwa [key_repairRank_inj]) hRank
  · intro hKnown member hMember hOther hBehind
    obtain ⟨old, hOld, rfl⟩ := List.mem_map.mp hMember
    rw [key_repairRank_inj] at hOther
    obtain hLeader | hAlone := hKnown old hOld ((rank_repairRank_iff hTable hAtLeast old).mp hBehind)
    · obtain hChief | ⟨hGone, -⟩ := h.choice
      · exact hOther (hLeader.trans hChief.symm)
      · refine KeyedSet.find?_eq_none_iff.mp hGone _ hMember ?_
        exact congrArg ObjectGuid.toNat ((key_repairRank_inj s.guild old).trans hLeader)
    · have hChief : chief ∈ s.validateMembers.guild.members.entries := h.mem
      change chief ∈ s.guild.members.entries.map (repairRank s.guild) at hChief
      rw [hAlone, List.map_singleton, List.mem_singleton] at hChief
      exact hOther (by rw [hChief, key_repairRank_inj])

end GuildState

/-- A guild is kept and valid, or disbanded once, exactly when it has members and only the leader, or
the only member, has the rank behind the last one. -/
theorem validateGuild_iff (leader : ObjectGuid) (members : Members) (bankTabs : BankTabs) (bankMoney : UInt64)
    (tables : RankTables) (names : DefaultRankNames) (walk : Walk) (allow : Bool) :
    Validated allow ((GuildState.load leader members bankTabs bankMoney tables).validateGuild names walk allow) ↔
      members.entries ≠ [] ∧ ∀ member ∈ members.entries, member.rankId.toNat = tables.rankCount →
        member.guid = leader ∨ members.entries = [member] := by
  obtain ⟨ranks, kept, hRanks, hTable, hAtLeast⟩ :=
    validateRanks_table leader members bankTabs bankMoney tables names
  have hCount := length_validateRanks leader members bankTabs bankMoney tables names
  rw [hRanks] at hCount
  by_cases hEmpty : members.entries = []
  · have hNone : ((GuildState.load leader members bankTabs bankMoney tables).validateRanks
        names).validateMembers.guild.members.entries = [] := by
      rw [hRanks]
      exact List.map_eq_nil_iff.mpr hEmpty
    obtain ⟨hFalse, hTwice, -⟩ := GuildState.validateGuild_empty walk allow hNone
    rw [Validated, hFalse, hTwice]
    exact iff_of_false (Nat.succ_ne_self 1) fun hSome => hSome.1 hEmpty
  · have hSome : ((GuildState.load leader members bankTabs bankMoney tables).validateRanks
        names).validateMembers.guild.members.entries ≠ [] := by
      rw [hRanks]
      exact fun hNil => hEmpty (List.map_eq_nil_iff.mp hNil)
    obtain ⟨t, chief, hLed, hOutcome, -⟩ := GuildState.validateGuild_members walk allow hSome
    rw [hRanks] at hLed
    rw [Validated, hOutcome, if_pos rfl, and_iff_right hEmpty, ← hCount]
    refine (hLed.valid_iff ⟨hTable.ids, hTable.atMost, hTable.rows⟩ hAtLeast fun member hMember => ?_).trans
      (hLed.behind_iff hTable hAtLeast)
    exact GuildState.mem_validateMembers hTable hAtLeast hMember

def twoRanks : RankTables where
  ranks := ⟨[⟨0, "Guild Master", grRightAll, 0⟩, ⟨1, "Officer", grRightAll, 0⟩], by decide⟩
  bankRights := fun _ _ => none

def twoMembers : Members :=
  ⟨[⟨⟨1, 0⟩, 0, fun _ => 0, 0⟩, ⟨⟨2, 0⟩, 2, fun _ => 0, 0⟩], by decide⟩

def inOrder : Walk := ⟨id, fun members => List.Perm.refl members⟩

theorem rank_behind_kept : ¬ Validated false
    ((GuildState.load ⟨1, 0⟩ twoMembers .empty 0 twoRanks).validateGuild defaultNames inOrder false) := by
  have hOutcome : ((GuildState.load ⟨1, 0⟩ twoMembers .empty 0 twoRanks).validateGuild defaultNames inOrder false).1 =
      true := by decide
  have hRanks : ((GuildState.load ⟨1, 0⟩ twoMembers .empty 0 twoRanks).validateGuild defaultNames inOrder
      false).2.state.guild.ranks.length = 2 := by decide
  have hMembers : ((GuildState.load ⟨1, 0⟩ twoMembers .empty 0 twoRanks).validateGuild defaultNames inOrder
      false).2.state.guild.members.entries.map (fun member => member.rankId.toNat) = [0, 2] := by decide
  intro hValidated
  rw [Validated, if_pos hOutcome] at hValidated
  obtain ⟨member, hMember, hRank⟩ := List.mem_map.mp (hMembers ▸ (by decide : 2 ∈ [0, 2]))
  have hLt := hValidated.members member hMember
  rw [hRanks, hRank] at hLt
  exact absurd hLt (by decide)

end AshamaneCore.Guilds
