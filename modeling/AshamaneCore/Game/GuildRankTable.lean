import AshamaneCore.Game.GuildRanks
import Mathlib.Data.List.Induction

/-!
# The rank table of a guild

The ids of the ranks are their positions, every member's rank is in the table, the
leader is guild master and the rows of the table are read back as they were: what
every request that keeps these facts does, and which requests break them.
-/

namespace AshamaneCore.Guilds

open Library

structure Consistent (s : GuildState) : Prop where
  ids : ∀ i, ∀ info : RankInfo, s.guild.ranks[i]? = some info → info.rankId.toNat = i
  members : ∀ member ∈ s.guild.members.entries, member.rankId.toNat < s.guild.ranks.length
  leader : ∃ member, s.guild.getMember s.guild.leaderGuid = some member ∧ member.rankId = grGuildmaster
  reload : ∀ leader members bankMoney names walk allowMultipleGuildMaster loaded,
    (GuildState.load leader members s.guild.bankTabs bankMoney s.tables).validate names walk
      allowMultipleGuildMaster = some loaded →
    loaded.guild.ranks.map RankInfo.toRankRow = s.guild.ranks.map RankInfo.toRankRow

def RankRow.loaded (row : RankRow) : RankRow := row.loadFromDB.toRankRow

structure RankTable (s : GuildState) : Prop where
  ids : s.guild.ranks.map (fun info => info.rankId.toNat) = List.range s.guild.ranks.length
  atMost : s.guild.ranks.length ≤ 10
  rows : s.tables.ranks.entries.map RankRow.loaded = s.guild.ranks.map RankInfo.toRankRow

variable {g : Guild}

theorem getRanksSize_toNat (h : g.ranks.length ≤ 10) :
    g.getRanksSize.toNat = g.ranks.length := by
  have hFits : g.ranks.length < UInt8.size := by
    rw [UInt8.size]
    omega
  exact UInt8.toNat_ofNat_of_lt' hFits

theorem getLowestRankId_toNat (h : g.ranks.length ≤ 10) (hPos : 0 < g.ranks.length) :
    g.getLowestRankId.toNat = g.ranks.length - 1 := by
  have hSize := getRanksSize_toNat h
  rw [Guild.getRanksSize] at hSize
  rw [Guild.getLowestRankId, UInt8.toNat_sub_of_le, hSize]
  · rfl
  · rw [UInt8.le_iff_toNat_le, hSize]
    exact hPos

variable {s : GuildState}

theorem RankTable.row_lt (h : RankTable s) {row : RankRow}
    (hRow : row ∈ s.tables.ranks.entries) : row.rankId.toNat < s.guild.ranks.length := by
  have hLoaded : row.loaded ∈ s.guild.ranks.map RankInfo.toRankRow :=
    h.rows ▸ List.mem_map_of_mem hRow
  obtain ⟨info, hInfo, hEq⟩ := List.mem_map.mp hLoaded
  have hId : info.rankId.toNat ∈ List.range s.guild.ranks.length :=
    h.ids ▸ List.mem_map_of_mem (f := fun info : RankInfo => info.rankId.toNat) hInfo
  have hSame : info.rankId = row.loaded.rankId := congrArg RankRow.rankId hEq
  rw [hSame] at hId
  exact List.mem_range.mp hId

theorem RankTable.createRank (h : RankTable s) (name : String) (rights : UInt32)
    (hRoom : s.guild.ranks.length < 10)
    (hMaster : s.guild.ranks.length = 0 → rights ||| grRightAll = rights) :
    ∃ info tables, s.createRank name rights = some ⟨s.guild.pushRank info, tables⟩ ∧
      RankTable ⟨s.guild.pushRank info, tables⟩ := by
  have hSize := getRanksSize_toNat h.atMost
  let info : RankInfo := ⟨⟨s.guild.getRanksSize, name, rights, 0⟩, fun _ => .undefined⟩
  have hLast : ∀ row ∈ s.tables.ranks.entries, RankRow.key row < RankRow.key info.toRankRow :=
    fun row hRow => (h.row_lt hRow).trans_eq hSize.symm
  have hFree : s.tables.ranks.contains info.rankId.toNat = false := by
    rw [Bool.eq_false_iff, Ne, KeyedSet.contains_iff]
    rintro ⟨row, hRow, hKey⟩
    exact absurd hKey (hLast row hRow).ne
  refine ⟨info, s.tables.insertRank info s.guild.getPurchasedTabsSize, ?_, ?_, ?_, ?_⟩
  · have hSmall : ¬ s.guild.getRanksSize ≥ guildRanksMaxCount := by
      rw [ge_iff_le, UInt8.le_iff_toNat_le, hSize]
      exact Nat.not_le.mpr hRoom
    rw [GuildState.createRank, if_neg hSmall]
  · rw [Guild.pushRank, List.map_append, h.ids, List.length_append, List.length_singleton,
      List.range_succ, List.map_singleton, hSize]
  · rw [Guild.pushRank, List.length_append, List.length_singleton]
    exact hRoom
  · have hLoaded : info.toRankRow.loaded = info.toRankRow := by
      by_cases hZero : info.rankId = grGuildmaster
      · have hEmpty : s.guild.ranks.length = 0 := hSize.symm.trans (congrArg UInt8.toNat hZero)
        rw [RankRow.loaded, RankRow.loadFromDB, if_pos hZero, hMaster hEmpty]
      · rw [RankRow.loaded, RankRow.loadFromDB, if_neg hZero]
    rw [RankTables.insertRank, if_neg (by rw [hFree]; exact Bool.false_ne_true)]
    rw [KeyedSet.emplace_last hLast, Guild.pushRank, List.map_append, List.map_append, h.rows,
      List.map_singleton, List.map_singleton, hLoaded]

variable {rankId : UInt8}

theorem RankTable.removeLast (h : RankTable s)
    (hLast : rankId.toNat + 1 = s.guild.ranks.length) :
    RankTable ⟨{ s.guild with ranks := s.guild.ranks.eraseIdx rankId.toNat },
      s.tables.deleteRank rankId⟩ := by
  obtain ⟨ranks, last, hRanks⟩ := (List.eq_nil_or_concat' s.guild.ranks).resolve_left
    (List.ne_nil_of_length_pos (by omega))
  have hLength : rankId.toNat = ranks.length := by
    rw [hRanks, List.length_append, List.length_singleton] at hLast
    exact Nat.succ.inj hLast
  have hErase : s.guild.ranks.eraseIdx rankId.toNat = ranks := by
    rw [hRanks, hLength, List.eraseIdx_append_of_length_le (Nat.le_refl _), Nat.sub_self,
      List.eraseIdx_cons_zero, List.append_nil]
  have hIds := h.ids
  rw [hRanks, List.map_append, List.length_append, List.length_singleton, List.range_succ] at hIds
  obtain ⟨hFront, hId⟩ := List.append_inj' hIds rfl
  have hRows := h.rows
  rw [hRanks, List.map_append] at hRows
  obtain ⟨rows, lastRows, hEntries, hKept, hSingle⟩ := List.map_eq_append_iff.mp hRows
  obtain ⟨row, rfl, hRow⟩ := List.map_eq_singleton_iff.mp hSingle
  have hKey : RankRow.key row = rankId.toNat := by
    have hSame : row.loaded.rankId = last.rankId := congrArg RankRow.rankId hRow
    rw [hLength, ← List.singleton_inj.mp hId]
    exact congrArg UInt8.toNat hSame
  refine ⟨?_, ?_, ?_⟩
  · change (s.guild.ranks.eraseIdx rankId.toNat).map _ =
      List.range (s.guild.ranks.eraseIdx rankId.toNat).length
    rw [hErase]
    exact hFront
  · change (s.guild.ranks.eraseIdx rankId.toNat).length ≤ 10
    have hAtMost := h.atMost
    rw [hErase]
    omega
  · change (s.tables.ranks.erase rankId.toNat).entries.map _ =
      (s.guild.ranks.eraseIdx rankId.toNat).map _
    rw [hErase, ← hKey, KeyedSet.erase_last hEntries]
    exact hKept

theorem createMissingTabs_rows (ranks : List RankInfo) (tabs : UInt8) :
    (ranks.map (·.createMissingTabsIfNeeded tabs)).map RankInfo.toRankRow =
      ranks.map RankInfo.toRankRow := by
  rw [List.map_map]
  rfl

theorem loadRanks_rows (tables : RankTables) (tabs : UInt8) :
    (loadRanks tables tabs).map RankInfo.toRankRow = tables.ranks.entries.map RankRow.loaded := by
  apply List.ext_getElem?
  intro i
  rw [loadRanks, List.getElem?_map, List.getElem?_mapIdx, List.getElem?_map, List.getElem?_map]
  cases tables.ranks.entries[i]? with
  | none => rfl
  | some row => rfl

theorem insertMissingTabs_ranks (ranks : List RankInfo) (tabs : UInt8) (tables : RankTables) :
    (ranks.foldl (fun tables info => tables.insertMissingTabs info tabs) tables).ranks =
      tables.ranks := by
  induction ranks generalizing tables with
  | nil => rfl
  | cons info ranks ih => exact ih (tables.insertMissingTabs info tabs)

/-! ## Validation -/

theorem rank_at_iff {ranks : List RankInfo} {i : Nat} (h : i < ranks.length) (hSmall : i < 256) :
    (ranks[i]?.map fun info => info.rankId) = some (UInt8.ofNat i) ↔ ranks[i].rankId.toNat = i := by
  have hId : (UInt8.ofNat i).toNat = i := UInt8.toNat_ofNat_of_lt' hSmall
  rw [List.getElem?_eq_getElem h, Option.map_some, Option.some_inj, ← UInt8.toNat_inj, hId]

theorem ranksBroken_eq_false_iff (h : g.ranks.length ≤ 256) :
    GuildState.ranksBroken g = false ↔
      2 ≤ g.ranks.length ∧ g.ranks.length ≤ 10 ∧
        g.ranks.map (fun info => info.rankId.toNat) = List.range g.ranks.length := by
  have hSize : g.getRanksSize.toNat = g.ranks.length % 256 := UInt8.toNat_ofNat'
  have hMin : guildRanksMinCount.toNat = 2 := rfl
  have hMax : guildRanksMaxCount.toNat = 10 := rfl
  rw [GuildState.ranksBroken, Bool.or_eq_false_iff, Bool.or_eq_false_iff, decide_eq_false_iff_not,
    decide_eq_false_iff_not, UInt8.lt_iff_toNat_lt, gt_iff_lt, UInt8.lt_iff_toNat_lt, hSize, hMin,
    hMax, List.any_eq_false, and_assoc]
  constructor
  · rintro ⟨hLower, hUpper, hAll⟩
    have hMod : g.ranks.length % 256 = g.ranks.length := by omega
    rw [hMod] at hLower hUpper hAll
    refine ⟨by omega, by omega, List.ext_getElem (by simp) fun i hi _ => ?_⟩
    rw [List.length_map] at hi
    have hId := hAll i (List.mem_range.mpr hi)
    rw [decide_eq_true_iff, not_not, rank_at_iff hi (by omega)] at hId
    rw [List.getElem_map, List.getElem_range, hId]
  · rintro ⟨hLower, hUpper, hIds⟩
    have hMod : g.ranks.length % 256 = g.ranks.length := by omega
    rw [hMod]
    refine ⟨by omega, by omega, fun i hi => ?_⟩
    rw [List.mem_range] at hi
    rw [decide_eq_true_iff, not_not, rank_at_iff hi (by omega)]
    have hId := List.getElem_of_eq hIds (show i < _ by rwa [List.length_map])
    rwa [List.getElem_map, List.getElem_range] at hId

theorem length_loadRanks (tables : RankTables) (tabs : UInt8) :
    (loadRanks tables tabs).length ≤ 256 := by
  have hLength := congrArg List.length (loadRanks_rows tables tabs)
  rw [List.length_map, List.length_map] at hLength
  rw [hLength, ← @List.length_map _ _ tables.ranks.entries RankRow.key,
    ← List.length_range (n := 256)]
  apply List.Subperm.length_le
  apply List.subperm_of_subset tables.ranks.nodup_keys
  intro k hk
  obtain ⟨row, -, rfl⟩ := List.mem_map.mp hk
  exact List.mem_range.mpr row.rankId.toNat_lt

theorem RankTable.createRanks (h : RankTable s) (ranks : List (String × UInt32))
    (hRoom : s.guild.ranks.length + ranks.length ≤ 10)
    (hMaster : s.guild.ranks.length = 0 → ∀ rank ∈ ranks.head?, rank.2 ||| grRightAll = rank.2) :
    ∃ created tables,
      ranks.foldl (fun s rank => (s.createRank rank.1 rank.2).getD s) s =
        ⟨{ s.guild with ranks := created }, tables⟩ ∧
      RankTable ⟨{ s.guild with ranks := created }, tables⟩ ∧
      created.length = s.guild.ranks.length + ranks.length := by
  induction ranks generalizing s with
  | nil => exact ⟨s.guild.ranks, s.tables, rfl, h, rfl⟩
  | cons rank ranks ih =>
    rw [List.length_cons] at hRoom
    obtain ⟨info, tables, hCreate, hTable⟩ := h.createRank rank.1 rank.2
      (by omega) fun hEmpty => hMaster hEmpty rank rfl
    have hLength : (s.guild.pushRank info).ranks.length = s.guild.ranks.length + 1 :=
      List.length_append
    obtain ⟨created, last, hFold, hCreated, hCount⟩ := ih hTable (by rw [hLength]; omega)
      fun hEmpty => absurd hEmpty (by rw [hLength]; exact Nat.succ_ne_zero _)
    refine ⟨created, last, ?_, hCreated, ?_⟩
    · rw [List.foldl_cons, hCreate]
      exact hFold
    · rw [hCount, hLength, List.length_cons]
      omega

theorem createDefaultGuildRanks_table (h : s.guild.ranks = [])
    (names : DefaultRankNames) :
    ∃ created tables,
      s.createDefaultGuildRanks names = ⟨{ s.guild with ranks := created }, tables⟩ ∧
      RankTable ⟨{ s.guild with ranks := created }, tables⟩ ∧ created.length = 5 := by
  have hEmpty : RankTable { s with tables := .empty } := by
    refine ⟨?_, ?_, ?_⟩ <;> simp only [h]
    · rfl
    · exact Nat.zero_le _
    · rfl
  have hNone : s.guild.ranks.length = 0 := List.length_eq_zero_iff.mpr h
  obtain ⟨created, tables, hFold, hTable, hCount⟩ := hEmpty.createRanks
    [(names.master, grRightAll), (names.officer, grRightAll),
      (names.veteran, grRightGchatlisten ||| grRightGchatspeak),
      (names.member, grRightGchatlisten ||| grRightGchatspeak),
      (names.initiate, grRightGchatlisten ||| grRightGchatspeak)]
    (by rw [hNone]; exact Nat.le_of_ble_eq_true rfl) (fun _ rank hRank => by
      obtain rfl := Option.some.inj hRank
      exact UInt32.or_self)
  refine ⟨created, tables, hFold, hTable, ?_⟩
  rw [hCount, hNone]
  rfl

theorem validateRanks_table (leader : ObjectGuid) (members : Members) (bankTabs : BankTabs)
    (bankMoney : UInt64) (tables : RankTables) (names : DefaultRankNames) :
    ∃ ranks kept,
      (GuildState.load leader members bankTabs bankMoney tables).validateRanks names =
        ⟨⟨leader, members, ranks, bankTabs, bankMoney⟩, kept⟩ ∧
      RankTable ⟨⟨leader, members, ranks, bankTabs, bankMoney⟩, kept⟩ ∧ 2 ≤ ranks.length := by
  cases hBroken :
    GuildState.ranksBroken (GuildState.load leader members bankTabs bankMoney tables).guild with
  | true =>
    rw [GuildState.validateRanks, if_pos hBroken]
    obtain ⟨created, kept, hCreate, hTable, hCount⟩ := createDefaultGuildRanks_table
      (s := ⟨⟨leader, members, [], bankTabs, bankMoney⟩, tables⟩) rfl names
    exact ⟨created, kept, hCreate, hTable, by omega⟩
  | false =>
    have hUnbroken : ¬ GuildState.ranksBroken
        (GuildState.load leader members bankTabs bankMoney tables).guild = true := by
      rw [hBroken]
      exact Bool.false_ne_true
    rw [GuildState.validateRanks, if_neg hUnbroken]
    obtain ⟨hAtLeast, hAtMost, hIds⟩ :=
      (ranksBroken_eq_false_iff (length_loadRanks tables _)).mp hBroken
    refine ⟨_, _, rfl, ⟨?_, ?_, ?_⟩, ?_⟩
    · rw [List.map_map, List.length_map]
      exact hIds
    · rw [List.length_map]
      exact hAtMost
    · rw [createMissingTabs_rows, insertMissingTabs_ranks]
      exact (loadRanks_rows tables _).symm
    · rw [List.length_map]
      exact hAtLeast

variable {t : GuildState} {walk : Walk} {guid : ObjectGuid}

theorem deleteMember_ranks (h : s.deleteMember walk guid = some t) :
    t.guild.ranks = s.guild.ranks ∧ t.tables = s.tables := by
  rw [GuildState.deleteMember] at h
  split at h
  · obtain ⟨newLeader, -, rfl⟩ := Option.map_eq_some_iff.mp h
    exact ⟨rfl, rfl⟩
  · obtain rfl := Option.some.inj h
    exact ⟨rfl, rfl⟩

theorem validateLeader_ranks (h : s.validateLeader walk = some t) :
    t.guild.ranks = s.guild.ranks ∧ t.tables = s.tables := by
  rw [GuildState.validateLeader] at h
  split at h
  · exact deleteMember_ranks h
  · split at h
    · obtain rfl := Option.some.inj h
      exact ⟨rfl, rfl⟩
    · obtain rfl := Option.some.inj h
      exact ⟨rfl, rfl⟩

theorem validateMasters_ranks (s : GuildState) (allow : Bool) :
    (s.validateMasters allow).guild.ranks = s.guild.ranks ∧
      (s.validateMasters allow).tables = s.tables := by
  rw [GuildState.validateMasters]
  split <;> exact ⟨rfl, rfl⟩

theorem RankTable.reload (h : RankTable s) (hAtLeast : 2 ≤ s.guild.ranks.length)
    {leader : ObjectGuid} {members : Members} {bankTabs : BankTabs} {bankMoney : UInt64}
    {names : DefaultRankNames} {allow : Bool} {loaded : GuildState}
    (hLoaded : (GuildState.load leader members bankTabs bankMoney s.tables).validate names walk allow =
      some loaded) :
    loaded.guild.ranks.map RankInfo.toRankRow = s.guild.ranks.map RankInfo.toRankRow := by
  have hRows := (loadRanks_rows s.tables (UInt8.ofNat bankTabs.purchased)).trans h.rows
  have hLength : (loadRanks s.tables (UInt8.ofNat bankTabs.purchased)).length =
      s.guild.ranks.length := by
    simpa only [List.length_map] using congrArg List.length hRows
  have hIds : (loadRanks s.tables (UInt8.ofNat bankTabs.purchased)).map
      (fun info => info.rankId.toNat) = List.range s.guild.ranks.length := by
    have hMap := congrArg (List.map fun row : RankRow => row.rankId.toNat) hRows
    rw [List.map_map, List.map_map] at hMap
    exact hMap.trans h.ids
  have hUnbroken : ¬ GuildState.ranksBroken
      (GuildState.load leader members bankTabs bankMoney s.tables).guild = true := by
    rw [(ranksBroken_eq_false_iff (length_loadRanks s.tables _)).mpr
      ⟨hLength ▸ hAtLeast, hLength ▸ h.atMost, hLength ▸ hIds⟩]
    exact Bool.false_ne_true
  rw [GuildState.validate, GuildState.validateRanks, if_neg hUnbroken] at hLoaded
  obtain ⟨repaired, hRepaired, rfl⟩ := Option.map_eq_some_iff.mp hLoaded
  rw [(validateMasters_ranks repaired allow).1, (validateLeader_ranks hRepaired).1]
  exact (createMissingTabs_rows _ _).trans hRows

/-! ## Members -/

/-- A table in order, of which every member has a rank and the leader the first. -/
structure Sound (s : GuildState) : Prop extends RankTable s where
  atLeast : 2 ≤ s.guild.ranks.length
  members : ∀ member ∈ s.guild.members.entries, member.rankId.toNat < s.guild.ranks.length
  leader : ∃ member, s.guild.getMember s.guild.leaderGuid = some member ∧ member.rankId = grGuildmaster

theorem RankTable.id_at (h : RankTable s) {i : Nat} {info : RankInfo}
    (hInfo : s.guild.ranks[i]? = some info) : info.rankId.toNat = i := by
  obtain ⟨hi, rfl⟩ := List.getElem?_eq_some_iff.mp hInfo
  have hId := List.getElem_of_eq h.ids (show i < _ by rwa [List.length_map])
  rwa [List.getElem_map, List.getElem_range] at hId

theorem Sound.consistent (h : Sound s) : Consistent s := by
  refine ⟨fun i info => h.toRankTable.id_at, h.members, h.leader, ?_⟩
  intro leader members bankMoney names walk allow loaded hLoaded
  exact h.toRankTable.reload h.atLeast hLoaded

variable {member : Member}

theorem getMember_some (h : g.getMember guid = some member) : member ∈ g.members.entries ∧ member.guid = guid := by
  obtain ⟨hMem, hKey⟩ := KeyedSet.find?_eq_some_iff.mp h
  exact ⟨hMem, ObjectGuid.toNat_injective hKey⟩

theorem getMember_changeRank (g : Guild) (guid other : ObjectGuid) (rankId : UInt8) :
    (g.changeRank guid rankId).getMember other =
      if other = guid then (g.getMember other).map (·.changeRank rankId) else g.getMember other :=
  getMember_alter g guid other (Member.key_changeRank rankId)

theorem getMember_setLeaderGUID (g : Guild) (leader other : ObjectGuid) :
    (g.setLeaderGUID leader).getMember other =
      if other = leader then (g.getMember other).map (·.changeRank grGuildmaster)
      else g.getMember other :=
  getMember_changeRank { g with leaderGuid := leader } leader other grGuildmaster

theorem mem_changeRank (h : member ∈ (g.changeRank guid rankId).members.entries) :
    member.rankId = rankId ∨ member ∈ g.members.entries ∧ member.guid ≠ guid := by
  obtain ⟨old, -, -, rfl⟩ | ⟨hOld, hKey⟩ := (KeyedSet.mem_alter (Member.key_changeRank rankId)).mp h
  · exact Or.inl rfl
  · exact Or.inr ⟨hOld, fun hGuid => hKey (congrArg ObjectGuid.toNat hGuid)⟩

theorem RankTable.sound (h : RankTable s) (hAtLeast : 2 ≤ s.guild.ranks.length) (hRanks : g.ranks = s.guild.ranks)
    (hMembers : ∀ member ∈ g.members.entries, member.rankId.toNat < s.guild.ranks.length)
    (hLeader : ∃ member, g.getMember g.leaderGuid = some member ∧ member.rankId = grGuildmaster) :
    Sound { s with guild := g } := by
  refine ⟨⟨?_, ?_, ?_⟩, ?_, ?_, hLeader⟩ <;> simp only [hRanks]
  · exact h.ids
  · exact h.atMost
  · exact h.rows
  · exact hAtLeast
  · exact hMembers

theorem Sound.changeRank (h : Sound s)
    (hRank : rankId.toNat < s.guild.ranks.length) (hLeader : guid = s.guild.leaderGuid → rankId = 0) :
    Sound { s with guild := s.guild.changeRank guid rankId } := by
  refine h.toRankTable.sound h.atLeast rfl ?_ ?_
  · intro member hMember
    obtain hNew | ⟨hOld, -⟩ := mem_changeRank hMember
    · rw [hNew]
      exact hRank
    · exact h.members member hOld
  · obtain ⟨leader, hLeads, hFirst⟩ := h.leader
    change ∃ member, (s.guild.changeRank guid rankId).getMember s.guild.leaderGuid = _ ∧ _
    rw [getMember_changeRank, hLeads]
    split
    · rename_i hSame
      exact ⟨_, rfl, hLeader hSame.symm⟩
    · exact ⟨leader, rfl, hFirst⟩

theorem RankTable.setLeader (h : RankTable s) (hAtLeast : 2 ≤ s.guild.ranks.length)
    (hMember : s.guild.getMember guid = some member)
    (hOthers : ∀ other ∈ s.guild.members.entries, other.guid ≠ guid →
      other.rankId.toNat < s.guild.ranks.length) :
    Sound { s with guild := s.guild.setLeaderGUID guid } := by
  refine h.sound hAtLeast rfl ?_ ?_
  · intro other hOther
    obtain hNew | ⟨hOld, hGuid⟩ := mem_changeRank hOther
    · rw [hNew]
      exact Nat.lt_of_lt_of_le Nat.two_pos hAtLeast
    · exact hOthers other hOld hGuid
  · refine ⟨member.changeRank grGuildmaster, ?_, rfl⟩
    change (s.guild.setLeaderGUID guid).getMember guid = _
    rw [getMember_setLeaderGUID, if_pos rfl, hMember]
    rfl

theorem Sound.setLeader (h : Sound s)
    (hMember : s.guild.getMember guid = some member) :
    Sound { s with guild := s.guild.setLeaderGUID guid } :=
  h.toRankTable.setLeader h.atLeast hMember fun other hOther _ => h.members other hOther

theorem Sound.eraseMember (h : Sound s)
    (hLeader : s.guild.leaderGuid ≠ guid) : Sound { s with guild := s.guild.eraseMember guid } := by
  refine h.toRankTable.sound h.atLeast rfl ?_ ?_
  · exact fun member hMember => h.members member (KeyedSet.mem_erase.mp hMember).1
  · obtain ⟨leader, hLeads, hFirst⟩ := h.leader
    refine ⟨leader, ?_, hFirst⟩
    change (s.guild.members.erase guid.toNat).find? s.guild.leaderGuid.toNat = _
    rw [KeyedSet.find?_erase_eq, if_neg fun hSame => hLeader (ObjectGuid.toNat_injective hSame)]
    exact hLeads

theorem Sound.addMember (h : Sound s) (guid : ObjectGuid) (noGuild : Bool) :
    Sound (s.addMember guid noGuild guildRankNone) := by
  rw [GuildState.addMember]
  split
  · exact h
  · rename_i hNew
    have hAbsent : s.guild.getMember guid = none := by
      rw [Bool.or_eq_true, not_or] at hNew
      simpa using hNew.2
    have hLowest := getLowestRankId_toNat h.atMost (Nat.lt_of_lt_of_le Nat.two_pos h.atLeast)
    refine h.toRankTable.sound h.atLeast rfl ?_ ?_
    · intro member hMember
      obtain rfl | ⟨hOld, -⟩ := KeyedSet.mem_assign.mp hMember
      · have hAtLeast := h.atLeast
        change s.guild.getLowestRankId.toNat < s.guild.ranks.length
        omega
      · exact h.members member hOld
    · obtain ⟨leader, hLeads, hFirst⟩ := h.leader
      refine ⟨leader, KeyedSet.find?_eq_some_iff.mpr ⟨?_, ?_⟩, hFirst⟩
      · refine KeyedSet.mem_assign.mpr (Or.inr ⟨(getMember_some hLeads).1, fun hSame => ?_⟩)
        have hGuid : leader.guid = guid := ObjectGuid.toNat_injective hSame
        rw [← hGuid, (getMember_some hLeads).2, hLeads] at hAbsent
        cases hAbsent
      · exact (KeyedSet.find?_eq_some_iff.mp hLeads).2

/-- The heir among the members walked so far, of whom none other has a higher rank. -/
structure Inherits (guid : ObjectGuid) (members : List Member) (heir : Member) : Prop where
  mem : heir ∈ members
  other : heir.guid ≠ guid
  highest : ∀ member ∈ members, member.guid ≠ guid → heir.rankId ≤ member.rankId

theorem heir_spec (guid : ObjectGuid) (members : List Member) :
    (∀ heir, members.foldl (Guild.heir guid) none = some heir → Inherits guid members heir) ∧
      (members.foldl (Guild.heir guid) none = none → ∀ member ∈ members, member.guid = guid) := by
  induction members using List.reverseRecOn with
  | nil =>
    constructor
    · intro heir hHeir
      cases hHeir
    · exact fun _ member h => absurd h List.not_mem_nil
  | append_singleton members member ih =>
    rw [List.foldl_concat, Guild.heir]
    split
    · rename_i hGuid
      constructor
      · intro heir hHeir
        obtain ⟨hMem, hOther, hHighest⟩ := ih.1 heir hHeir
        refine ⟨List.mem_append_left _ hMem, hOther, fun m hm hNe => ?_⟩
        obtain hOld | hNew := List.mem_append.mp hm
        · exact hHighest m hOld hNe
        · exact absurd (List.mem_singleton.mp hNew ▸ hGuid) hNe
      · intro hNone m hm
        obtain hOld | hNew := List.mem_append.mp hm
        · exact ih.2 hNone m hOld
        · exact List.mem_singleton.mp hNew ▸ hGuid
    · rename_i hGuid
      have hBehind : ∀ heir : Member, (∀ m ∈ members, m.guid ≠ guid → heir.rankId ≤ m.rankId) →
          heir.rankId ≤ member.rankId →
          ∀ m ∈ members ++ [member], m.guid ≠ guid → heir.rankId ≤ m.rankId := by
        intro heir hMembers hMember m hm hNe
        obtain hOld | hNew := List.mem_append.mp hm
        · exact hMembers m hOld hNe
        · exact List.mem_singleton.mp hNew ▸ hMember
      have hLast : member ∈ members ++ [member] := List.mem_append_right _ (List.mem_singleton_self _)
      constructor
      · intro heir hHeir
        obtain rfl := Option.some.inj hHeir
        cases hBest : members.foldl (Guild.heir guid) none with
        | none =>
          exact ⟨hLast, hGuid, hBehind member (fun m hm hNe => absurd (ih.2 hBest m hm) hNe)
            (UInt8.le_refl _)⟩
        | some best =>
          obtain ⟨hMem, hOther, hHighest⟩ := ih.1 best hBest
          rw [Option.elim_some]
          split
          · rename_i hHigher
            exact ⟨hLast, hGuid, hBehind member
              (fun m hm hNe => UInt8.le_of_lt (UInt8.lt_of_lt_of_le hHigher (hHighest m hm hNe)))
              (UInt8.le_refl _)⟩
          · rename_i hNotHigher
            exact ⟨List.mem_append_left _ hMem, hOther,
              hBehind best hHighest (UInt8.not_lt.mp hNotHigher)⟩
      · intro hNone
        cases hNone

theorem newLeader_spec {heir : Member}
    (h : g.newLeader walk guid = some heir) : Inherits guid g.members.entries heir := by
  have hPerm := walk.perm g.members.entries
  obtain ⟨hMem, hOther, hHighest⟩ := (heir_spec guid _).1 heir h
  exact ⟨hPerm.mem_iff.mp hMem, hOther, fun member hm => hHighest member (hPerm.mem_iff.mpr hm)⟩

theorem Sound.deleteMember (h : Sound s)
    (hDelete : s.deleteMember walk guid = some t) : Sound t := by
  rw [GuildState.deleteMember] at hDelete
  split at hDelete
  · obtain ⟨heir, hHeir, rfl⟩ := Option.map_eq_some_iff.mp hDelete
    have hInherits := newLeader_spec hHeir
    have hFound : s.guild.getMember heir.guid = some heir :=
      KeyedSet.find?_eq_some_iff.mpr ⟨hInherits.mem, rfl⟩
    exact (h.setLeader hFound).eraseMember hInherits.other
  · rename_i hLeader
    obtain rfl := Option.some.inj hDelete
    exact h.eraseMember hLeader

/-! ## Requests -/

/-- The requests that leave the ranks in order. The others remove a rank that is not the
last or still has members, set a rank outside the table, or take the first rank from the
leader. -/
def Careful (s : GuildState) : RankAction → Prop
  | .removeRank player rankId =>
    s.guild.getRanksSize ≤ guildRanksMinCount ∨ rankId ≥ s.guild.getRanksSize ∨
      s.guild.isLeader player = false ∨
      rankId.toNat + 1 = s.guild.ranks.length ∧ ∀ member ∈ s.guild.members.entries, member.rankId ≠ rankId
  | .setMemberRank player target rank =>
    ∀ member, s.guild.getMember target = some member →
      s.guild.hasRankRight player (GuildState.rightToSet rank member) = false ∨ member.guid = player ∨
      rank.toUInt8.toNat < s.guild.ranks.length ∧ (target = s.guild.leaderGuid → rank.toUInt8 = 0)
  | .setNewGuildMaster player newMaster =>
    s.guild.isLeader player = false ∨ s.guild.getMember player = none ∨
      s.guild.getMember newMaster = none ∨
      player ≠ newMaster ∧ grInitiate.toNat < s.guild.ranks.length
  | .changeMemberRank guid newRank =>
    s.guild.getLowestRankId < newRank ∨ guid ≠ s.guild.leaderGuid ∨ newRank = 0
  | _ => True

theorem Sound.addNewRank (h : Sound s) (player : ObjectGuid) (name : String) :
    Sound (s.handleAddNewRank player name) := by
  rw [GuildState.handleAddNewRank]
  split
  · exact h
  · rename_i hRoom
    split
    · have hSize := getRanksSize_toNat h.atMost
      have hLength : s.guild.ranks.length < 10 := by
        rw [ge_iff_le, UInt8.le_iff_toNat_le, hSize] at hRoom
        exact Nat.not_le.mp hRoom
      have hAtLeast := h.atLeast
      obtain ⟨info, tables, hCreate, hTable⟩ := h.toRankTable.createRank name
        (grRightGchatlisten ||| grRightGchatspeak) hLength (fun hEmpty => by omega)
      have hGrown : (s.guild.pushRank info).ranks.length = s.guild.ranks.length + 1 :=
        List.length_append
      rw [hCreate, Option.getD_some]
      refine ⟨hTable, ?_, fun member hMember => ?_, h.leader⟩
      · rw [hGrown]
        omega
      · rw [hGrown]
        exact Nat.lt_succ_of_lt (h.members member hMember)
    · exact h

theorem removeRank_refused_iff (s : GuildState) (player : ObjectGuid) (rankId : UInt8) :
    (s.guild.getRanksSize ≤ guildRanksMinCount || rankId ≥ s.guild.getRanksSize ||
      !s.guild.isLeader player) = true ↔
      s.guild.getRanksSize ≤ guildRanksMinCount ∨ rankId ≥ s.guild.getRanksSize ∨
        s.guild.isLeader player = false := by
  rw [Bool.or_eq_true, Bool.or_eq_true, decide_eq_true_iff, decide_eq_true_iff, Bool.not_eq_true',
    or_assoc]

variable {player : ObjectGuid}

theorem Sound.removeRank (h : Sound s)
    (hCareful : Careful s (.removeRank player rankId)) :
    Sound (s.handleRemoveRank player rankId) := by
  rw [GuildState.handleRemoveRank]
  split
  · exact h
  · rename_i hAccepted
    have hSize := getRanksSize_toNat h.atMost
    have hRefused := mt (removeRank_refused_iff s player rankId).mpr hAccepted
    rw [not_or, not_or, UInt8.le_iff_toNat_le, hSize] at hRefused
    obtain hMin | hMax | hLeader | ⟨hLast, hUnused⟩ := hCareful
    · rw [UInt8.le_iff_toNat_le, hSize] at hMin
      exact absurd hMin hRefused.1
    · exact absurd hMax hRefused.2.1
    · exact absurd hLeader hRefused.2.2
    · have hErased := List.length_eraseIdx_of_lt (l := s.guild.ranks) (i := rankId.toNat) (by omega)
      have hMin : ¬ s.guild.ranks.length ≤ 2 := hRefused.1
      refine ⟨h.toRankTable.removeLast hLast, ?_, fun member hMember => ?_, h.leader⟩
      · change 2 ≤ (s.guild.ranks.eraseIdx rankId.toNat).length
        omega
      · change member.rankId.toNat < (s.guild.ranks.eraseIdx rankId.toNat).length
        have hRank := h.members member hMember
        have hOther : member.rankId.toNat ≠ rankId.toNat := fun hSame =>
          hUnused member hMember (UInt8.toNat.inj hSame)
        omega

theorem Sound.careful_removeRank (h : Sound s)
    (hAfter : Consistent (s.handleRemoveRank player rankId)) :
    Careful s (.removeRank player rankId) := by
  rw [GuildState.handleRemoveRank] at hAfter
  split at hAfter
  · rename_i hRefused
    rw [removeRank_refused_iff] at hRefused
    obtain hMin | hMax | hLeader := hRefused
    · exact Or.inl hMin
    · exact Or.inr (Or.inl hMax)
    · exact Or.inr (Or.inr (Or.inl hLeader))
  · rename_i hAccepted
    have hSize := getRanksSize_toNat h.atMost
    have hRefused := mt (removeRank_refused_iff s player rankId).mpr hAccepted
    rw [not_or, not_or] at hRefused
    have hIn : rankId.toNat < s.guild.ranks.length := by
      have hBelow := UInt8.not_le.mp hRefused.2.1
      rwa [UInt8.lt_iff_toNat_lt, hSize] at hBelow
    have hErased := List.length_eraseIdx_of_lt hIn
    have hLast : rankId.toNat + 1 = s.guild.ranks.length := by
      by_contra hMiddle
      have hNext : rankId.toNat + 1 < s.guild.ranks.length := by omega
      have hShift : (s.guild.ranks.eraseIdx rankId.toNat)[rankId.toNat]? =
          some s.guild.ranks[rankId.toNat + 1] := by
        rw [List.getElem?_eraseIdx_of_ge (Nat.le_refl _), List.getElem?_eq_getElem hNext]
      have hOld := h.toRankTable.id_at (List.getElem?_eq_getElem hNext)
      have hNew := hAfter.ids rankId.toNat _ hShift
      omega
    refine Or.inr (Or.inr (Or.inr ⟨hLast, fun member hMember hSame => ?_⟩))
    have hRank : member.rankId.toNat < (s.guild.ranks.eraseIdx rankId.toNat).length :=
      hAfter.members member hMember
    rw [hSame] at hRank
    omega

theorem handleUpdateMemberRank_cases (s : GuildState) (player guid : ObjectGuid) (demote : Bool) :
    s.handleUpdateMemberRank player guid demote = s ∨
      ∃ member memberMe newRank,
        s.guild.getMember guid = some member ∧ s.guild.getMember player = some memberMe ∧
        s.guild.hasRankRight player (if demote then grRightDemote else grRightPromote) = true ∧
        member.guid ≠ player ∧
        (memberMe.rankId < member.rankId ∧ member.rankId < s.guild.getLowestRankId ∧
            newRank = member.rankId + 1 ∨
          memberMe.rankId + 1 < member.rankId ∧ newRank = member.rankId - 1) ∧
        s.handleUpdateMemberRank player guid demote =
          { s with guild := s.guild.changeRank guid newRank } := by
  rw [GuildState.handleUpdateMemberRank]
  by_cases hRight :
    s.guild.hasRankRight player (if demote then grRightDemote else grRightPromote) = true
  · rw [hRight, Bool.not_true, if_neg Bool.false_ne_true]
    split
    · rename_i member memberMe hMember hMe
      by_cases hSelf : member.guid = player
      · exact Or.inl (if_pos hSelf)
      rw [if_neg hSelf]
      by_cases hDemote : demote = true
      · rw [if_pos hDemote]
        by_cases hBelow : member.rankId ≤ memberMe.rankId
        · exact Or.inl (if_pos hBelow)
        rw [if_neg hBelow]
        by_cases hLowest : member.rankId ≥ s.guild.getLowestRankId
        · exact Or.inl (if_pos hLowest)
        rw [if_neg hLowest]
        refine Or.inr ⟨member, memberMe, _, hMember, hMe, rfl, hSelf, Or.inl ⟨?_, ?_, rfl⟩, rfl⟩
        · exact UInt8.not_le.mp hBelow
        · exact UInt8.not_le.mp hLowest
      · rw [if_neg hDemote]
        by_cases hBelow : member.rankId ≤ memberMe.rankId + 1
        · exact Or.inl (if_pos hBelow)
        rw [if_neg hBelow]
        refine Or.inr ⟨member, memberMe, _, hMember, hMe, rfl, hSelf, Or.inr ⟨?_, rfl⟩, rfl⟩
        exact UInt8.not_le.mp hBelow
    · exact Or.inl rfl
  · rw [Bool.eq_false_of_not_eq_true hRight, Bool.not_false, if_pos rfl]
    exact Or.inl rfl

theorem Sound.updateMemberRank (h : Sound s) (player guid : ObjectGuid) (demote : Bool) :
    Sound (s.handleUpdateMemberRank player guid demote) := by
  obtain hSame | ⟨member, memberMe, newRank, hMember, -, -, -, hNew, hEq⟩ :=
    handleUpdateMemberRank_cases s player guid demote
  · rw [hSame]
    exact h
  rw [hEq]
  have hRank := h.members member (getMember_some hMember).1
  have hLowest := getLowestRankId_toNat h.atMost (Nat.zero_lt_of_lt hRank)
  have hAtMost := h.atMost
  have hNotFirst : 0 < member.rankId.toNat := by
    obtain ⟨hBelow, -⟩ | ⟨hBelow, -⟩ := hNew
    · exact Nat.zero_lt_of_lt (UInt8.lt_iff_toNat_lt.mp hBelow)
    · exact Nat.zero_lt_of_lt (UInt8.lt_iff_toNat_lt.mp hBelow)
  apply h.changeRank
  · obtain ⟨-, hBelow, rfl⟩ | ⟨-, rfl⟩ := hNew
    · rw [UInt8.lt_iff_toNat_lt, hLowest] at hBelow
      rw [UInt8.toNat_add, UInt8.toNat_one, Nat.mod_eq_of_lt] <;> omega
    · have hOne : (1 : UInt8) ≤ member.rankId := UInt8.le_iff_toNat_le.mpr hNotFirst
      rw [UInt8.toNat_sub_of_le _ _ hOne, UInt8.toNat_one]
      omega
  · rintro rfl
    obtain ⟨leader, hLeads, hFirst⟩ := h.leader
    rw [hMember, Option.some_inj] at hLeads
    rw [hLeads, hFirst] at hNotFirst
    exact absurd hNotFirst (Nat.lt_irrefl 0)

theorem handleSetMemberRank_cases (s : GuildState) (player target : ObjectGuid) (rank : UInt32) :
    (∀ member, s.guild.getMember target = some member →
      (s.guild.hasRankRight player (GuildState.rightToSet rank member) = false ∨
        member.guid = player)) ∧ s.handleSetMemberRank player target rank = s ∨
      ∃ member, s.guild.getMember target = some member ∧
        s.guild.hasRankRight player (GuildState.rightToSet rank member) = true ∧
        member.guid ≠ player ∧
        s.handleSetMemberRank player target rank =
          { s with guild := s.guild.changeRank target rank.toUInt8 } := by
  rw [GuildState.handleSetMemberRank]
  split
  · rename_i hNone
    refine Or.inl ⟨fun member hMember => ?_, rfl⟩
    rw [hNone] at hMember
    cases hMember
  · rename_i member hMember
    have hOnly : ∀ other, s.guild.getMember target = some other → other = member :=
      fun other hOther => Option.some.inj (hOther.symm.trans hMember)
    by_cases hRight : s.guild.hasRankRight player (GuildState.rightToSet rank member) = true
    · rw [hRight, Bool.not_true, if_neg Bool.false_ne_true]
      by_cases hSelf : member.guid = player
      · refine Or.inl ⟨fun other hOther => Or.inr ?_, if_pos hSelf⟩
        rw [hOnly other hOther]
        exact hSelf
      · exact Or.inr ⟨member, hMember, hRight, hSelf, if_neg hSelf⟩
    · rw [Bool.not_eq_true] at hRight
      refine Or.inl ⟨fun other hOther => Or.inl ?_, ?_⟩
      · rw [hOnly other hOther]
        exact hRight
      · rw [hRight, Bool.not_false, if_pos rfl]

theorem Sound.setMemberRank (h : Sound s) {target : ObjectGuid} {rank : UInt32}
    (hCareful : Careful s (.setMemberRank player target rank)) :
    Sound (s.handleSetMemberRank player target rank) := by
  obtain ⟨-, hSame⟩ | ⟨member, hMember, hRight, hSelf, hEq⟩ :=
    handleSetMemberRank_cases s player target rank
  · rw [hSame]
    exact h
  · rw [hEq]
    obtain hNoRight | hSame | ⟨hRank, hLeader⟩ := hCareful member hMember
    · rw [hRight] at hNoRight
      cases hNoRight
    · exact absurd hSame hSelf
    · exact h.changeRank hRank hLeader

theorem consistent_changeRank (hMember : s.guild.getMember guid = some member)
    (hAfter : Consistent { s with guild := s.guild.changeRank guid rankId }) :
    rankId.toNat < s.guild.ranks.length ∧ (guid = s.guild.leaderGuid → rankId = 0) := by
  have hFound : (s.guild.changeRank guid rankId).getMember guid = some (member.changeRank rankId) := by
    rw [getMember_changeRank, if_pos rfl, hMember]
    rfl
  constructor
  · exact hAfter.members _ (getMember_some hFound).1
  · rintro rfl
    obtain ⟨leader, hLeads, hFirst⟩ := hAfter.leader
    have hSame : member.changeRank rankId = leader := Option.some.inj (hFound.symm.trans hLeads)
    rw [← hSame] at hFirst
    exact hFirst

theorem careful_setMemberRank {target : ObjectGuid} {rank : UInt32}
    (hAfter : Consistent (s.handleSetMemberRank player target rank)) :
    Careful s (.setMemberRank player target rank) := by
  obtain ⟨hRefused, -⟩ | ⟨member, hMember, -, -, hEq⟩ :=
    handleSetMemberRank_cases s player target rank
  · intro member hMember
    obtain hNoRight | hSelf := hRefused member hMember
    · exact Or.inl hNoRight
    · exact Or.inr (Or.inl hSelf)
  · rw [hEq] at hAfter
    intro other hOther
    exact Or.inr (Or.inr (consistent_changeRank hMember hAfter))

theorem Sound.setNewGuildMaster (h : Sound s) {newMaster : ObjectGuid}
    (hCareful : Careful s (.setNewGuildMaster player newMaster)) :
    Sound (s.handleSetNewGuildMaster player newMaster) := by
  rw [GuildState.handleSetNewGuildMaster]
  split
  · exact h
  rename_i hLeads
  split
  · rename_i old new hOld hNew
    obtain hLeader | hNone | hNone | ⟨hOther, hRank⟩ := hCareful
    · rw [hLeader] at hLeads
      exact absurd rfl hLeads
    · rw [hNone] at hOld
      cases hOld
    · rw [hNone] at hNew
      cases hNew
    · exact (h.setLeader hNew).changeRank hRank fun hSame => absurd hSame hOther
  · exact h

theorem careful_setNewGuildMaster {newMaster : ObjectGuid}
    (hAfter : Consistent (s.handleSetNewGuildMaster player newMaster)) :
    Careful s (.setNewGuildMaster player newMaster) := by
  cases hLeader : s.guild.isLeader player with
  | false => exact Or.inl hLeader
  | true =>
    cases hOld : s.guild.getMember player with
    | none => exact Or.inr (Or.inl hOld)
    | some old =>
      cases hNew : s.guild.getMember newMaster with
      | none => exact Or.inr (Or.inr (Or.inl hNew))
      | some new =>
        rw [GuildState.handleSetNewGuildMaster, hLeader, Bool.not_true, if_neg Bool.false_ne_true,
          hOld, hNew] at hAfter
        refine Or.inr (Or.inr (Or.inr ?_))
        have hFound : ∃ member, (s.guild.setLeaderGUID newMaster).getMember player = some member := by
          rw [getMember_setLeaderGUID, hOld]
          split
          · exact ⟨_, rfl⟩
          · exact ⟨_, rfl⟩
        obtain ⟨member, hMember⟩ := hFound
        obtain ⟨hRank, hFirst⟩ := consistent_changeRank
          (s := { s with guild := s.guild.setLeaderGUID newMaster }) hMember hAfter
        refine ⟨fun hSame => ?_, hRank⟩
        exact absurd (hFirst hSame) (by decide)

theorem Sound.changeMemberRank (h : Sound s) {newRank : UInt8}
    (hCareful : Careful s (.changeMemberRank guid newRank)) : Sound (s.changeMemberRank guid newRank) := by
  rw [GuildState.changeMemberRank]
  split
  · rename_i hRank
    have hAtLeast := h.atLeast
    have hLowest := getLowestRankId_toNat h.atMost (by omega)
    have hBelow := UInt8.le_iff_toNat_le.mp hRank
    apply h.changeRank (by omega)
    intro hLeader
    obtain hTooLow | hOther | hFirst := hCareful
    · exact absurd hTooLow (UInt8.not_lt.mpr hRank)
    · exact absurd hLeader hOther
    · exact hFirst
  · exact h

theorem Sound.careful_changeMemberRank (h : Sound s)
    {newRank : UInt8} (hAfter : Consistent (s.changeMemberRank guid newRank)) :
    Careful s (.changeMemberRank guid newRank) := by
  by_cases hRank : newRank ≤ s.guild.getLowestRankId
  · rw [GuildState.changeMemberRank, if_pos hRank] at hAfter
    by_cases hLeader : guid = s.guild.leaderGuid
    · obtain ⟨leader, hLeads, -⟩ := h.leader
      rw [← hLeader] at hLeads
      exact Or.inr (Or.inr ((consistent_changeRank hLeads hAfter).2 hLeader))
    · exact Or.inr (Or.inl hLeader)
  · exact Or.inl (UInt8.not_le.mp hRank)

theorem handleRemoveMember_cases (s : GuildState) (walk : Walk) (player guid : ObjectGuid) :
    (∀ member memberMe, s.guild.getMember guid = some member →
      s.guild.getMember player = some memberMe →
      s.guild.hasRankRight player grRightRemove = false ∨ member.rankId ≤ memberMe.rankId) ∧
      s.handleRemoveMember walk player guid = some s ∨
      ∃ member memberMe,
        s.guild.getMember guid = some member ∧ s.guild.getMember player = some memberMe ∧
        s.guild.hasRankRight player grRightRemove = true ∧ memberMe.rankId < member.rankId ∧
        s.handleRemoveMember walk player guid = s.deleteMember walk guid := by
  rw [GuildState.handleRemoveMember]
  by_cases hRight : s.guild.hasRankRight player grRightRemove = true
  · rw [hRight, Bool.not_true, if_neg Bool.false_ne_true]
    split
    · rename_i member memberMe hMember hMe
      have hOnly : ∀ other otherMe, s.guild.getMember guid = some other →
          s.guild.getMember player = some otherMe → other = member ∧ otherMe = memberMe :=
        fun other otherMe hOther hOtherMe => ⟨Option.some.inj (hOther.symm.trans hMember),
          Option.some.inj (hOtherMe.symm.trans hMe)⟩
      by_cases hBelow : member.rankId ≤ memberMe.rankId
      · refine Or.inl ⟨fun other otherMe hOther hOtherMe => Or.inr ?_, ?_⟩
        · obtain ⟨rfl, rfl⟩ := hOnly other otherMe hOther hOtherMe
          exact hBelow
        · rw [if_pos hBelow, ite_self]
      · have hAbove := UInt8.not_le.mp hBelow
        have hNotFirst : member.rankId ≠ grGuildmaster := by
          intro hFirst
          rw [hFirst] at hAbove
          exact absurd (UInt8.lt_iff_toNat_lt.mp hAbove) (Nat.not_lt_zero _)
        refine Or.inr ⟨member, memberMe, hMember, hMe, rfl, hAbove, ?_⟩
        rw [if_neg hNotFirst, if_neg hBelow]
    · rename_i hNone
      exact Or.inl ⟨fun member memberMe hMember hMe => (hNone member memberMe hMember hMe).elim, rfl⟩
  · rw [Bool.not_eq_true] at hRight
    refine Or.inl ⟨fun _ _ _ _ => Or.inl hRight, ?_⟩
    rw [hRight, Bool.not_false, if_pos rfl]

/-! ## Runs -/

theorem Sound.act (h : Sound s) {action : RankAction} (hCareful : Careful s action)
    (hAct : s.act action = some t) : Sound t := by
  cases action with
  | addNewRank player name =>
    obtain rfl := Option.some.inj hAct
    exact h.addNewRank player name
  | removeRank player rankId =>
    obtain rfl := Option.some.inj hAct
    exact h.removeRank hCareful
  | updateMemberRank player guid demote =>
    obtain rfl := Option.some.inj hAct
    exact h.updateMemberRank player guid demote
  | setMemberRank player target rank =>
    obtain rfl := Option.some.inj hAct
    exact h.setMemberRank hCareful
  | setNewGuildMaster player newMaster =>
    obtain rfl := Option.some.inj hAct
    exact h.setNewGuildMaster hCareful
  | removeMember walk player guid =>
    rw [GuildState.act] at hAct
    obtain ⟨-, hSame⟩ | ⟨-, -, -, -, -, -, hDelete⟩ := handleRemoveMember_cases s walk player guid
    · obtain rfl := Option.some.inj (hSame.symm.trans hAct)
      exact h
    · exact h.deleteMember (hDelete.symm.trans hAct)
  | changeMemberRank guid newRank =>
    obtain rfl := Option.some.inj hAct
    exact h.changeMemberRank hCareful
  | addMember guid noGuild =>
    obtain rfl := Option.some.inj hAct
    exact h.addMember guid noGuild
  | deleteMember walk guid => exact h.deleteMember hAct

theorem Sound.careful (h : Sound s) {action : RankAction}
    (hAfter : ∀ t, s.act action = some t → Consistent t) : Careful s action := by
  cases action with
  | removeRank player rankId => exact h.careful_removeRank (hAfter _ rfl)
  | setMemberRank player target rank => exact careful_setMemberRank (hAfter _ rfl)
  | setNewGuildMaster player newMaster => exact careful_setNewGuildMaster (hAfter _ rfl)
  | changeMemberRank guid newRank => exact h.careful_changeMemberRank (hAfter _ rfl)
  | addNewRank player name => trivial
  | updateMemberRank player guid demote => trivial
  | removeMember walk player guid => trivial
  | addMember guid noGuild => trivial
  | deleteMember walk guid => trivial

/-- Where a run starts: a new guild, or one that was loaded and accepted by its validation. -/
inductive Origin
  | created (leader : ObjectGuid) (names : DefaultRankNames) (tables : RankTables)
  | validated (leader : ObjectGuid) (members : Members) (bankTabs : BankTabs) (bankMoney : UInt64)
      (tables : RankTables) (names : DefaultRankNames) (walk : Walk) (allowMultipleGuildMaster : Bool)

def Origin.state : Origin → Option GuildState
  | created leader names tables => some (create leader names tables)
  | validated leader members bankTabs bankMoney tables names walk allowMultipleGuildMaster =>
    (GuildState.load leader members bankTabs bankMoney tables).validate names walk
      allowMultipleGuildMaster

/-- No member but the leader is loaded with the rank just behind the last one. -/
def Origin.Careful : Origin → Prop
  | created _ _ _ => True
  | validated leader members bankTabs bankMoney tables names _ _ =>
    ∀ member ∈ members.entries, member.guid ≠ leader →
      member.rankId ≠
        ((GuildState.load leader members bankTabs bankMoney tables).validateRanks names).guild.getRanksSize

theorem create_sound (leader : ObjectGuid) (names : DefaultRankNames) (tables : RankTables) :
    Sound (create leader names tables) := by
  obtain ⟨created, kept, hCreate, hTable, hCount⟩ := createDefaultGuildRanks_table
    (s := ⟨⟨leader, KeyedSet.empty, [], .empty, 0⟩, tables⟩) rfl names
  rw [create, hCreate, GuildState.addMember, if_neg (by exact Bool.false_ne_true)]
  have hAtLeast : 2 ≤ created.length := by omega
  refine hTable.sound hAtLeast rfl ?_ ?_
  · intro member hMember
    obtain rfl | ⟨hOld, -⟩ := KeyedSet.mem_assign.mp hMember
    · exact Nat.lt_of_lt_of_le Nat.two_pos hAtLeast
    · cases hOld
  · exact ⟨_, KeyedSet.find?_eq_some_iff.mpr ⟨KeyedSet.mem_assign.mpr (Or.inl rfl), rfl⟩, rfl⟩

theorem RankTable.validateLeader (h : RankTable s)
    (hAtLeast : 2 ≤ s.guild.ranks.length)
    (hOthers : ∀ member ∈ s.guild.members.entries, member.guid ≠ s.guild.leaderGuid →
      member.rankId.toNat < s.guild.ranks.length)
    (hValid : s.validateLeader walk = some t) : Sound t := by
  rw [GuildState.validateLeader] at hValid
  split at hValid
  · rename_i hNone
    have hNotLeader : ∀ member ∈ s.guild.members.entries, member.guid ≠ s.guild.leaderGuid := by
      intro member hMember hGuid
      exact KeyedSet.find?_eq_none_iff.mp hNone member hMember (congrArg ObjectGuid.toNat hGuid)
    rw [GuildState.deleteMember, if_pos rfl] at hValid
    obtain ⟨heir, hHeir, rfl⟩ := Option.map_eq_some_iff.mp hValid
    have hInherits := newLeader_spec hHeir
    have hFound : s.guild.getMember heir.guid = some heir :=
      KeyedSet.find?_eq_some_iff.mpr ⟨hInherits.mem, rfl⟩
    have hSet := h.setLeader hAtLeast hFound
      fun other hOther _ => hOthers other hOther (hNotLeader other hOther)
    exact hSet.eraseMember hInherits.other
  · rename_i leader hLeads
    have hGuid := (getMember_some hLeads).2
    split at hValid
    · rename_i hFirst
      obtain rfl := Option.some.inj hValid
      refine h.sound hAtLeast rfl (fun member hMember => ?_) ⟨leader, hLeads, hFirst⟩
      by_cases hLeader : member.guid = s.guild.leaderGuid
      · have hSame : s.guild.getMember member.guid = some member :=
          KeyedSet.find?_eq_some_iff.mpr ⟨hMember, rfl⟩
        rw [hLeader, hLeads, Option.some_inj] at hSame
        rw [← hSame, hFirst]
        exact Nat.lt_of_lt_of_le Nat.two_pos hAtLeast
      · exact hOthers member hMember hLeader
    · obtain rfl := Option.some.inj hValid
      rw [hGuid]
      exact h.setLeader hAtLeast hLeads hOthers

theorem Sound.validateMasters (h : Sound s) (allow : Bool) :
    Sound (s.validateMasters allow) := by
  rw [GuildState.validateMasters]
  split
  · exact h
  · refine h.toRankTable.sound h.atLeast rfl ?_ ?_
    · intro member hMember
      obtain ⟨old, hOld, rfl⟩ := List.mem_map.mp hMember
      rw [GuildState.demoteSecondMaster]
      split
      · exact h.atLeast
      · exact h.members old hOld
    · obtain ⟨leader, hLeads, hFirst⟩ := h.leader
      obtain ⟨hMem, hGuid⟩ := getMember_some hLeads
      have hSame : GuildState.demoteSecondMaster s.guild leader = leader := by
        rw [GuildState.demoteSecondMaster, if_neg]
        rw [Bool.and_eq_true, decide_eq_true_iff, decide_eq_true_iff]
        exact fun hOther => hOther.2 hGuid
      refine ⟨leader, KeyedSet.find?_eq_some_iff.mpr ⟨?_, congrArg ObjectGuid.toNat hGuid⟩, hFirst⟩
      exact List.mem_map.mpr ⟨leader, hMem, hSame⟩

theorem Origin.sound {origin : Origin} (hCareful : origin.Careful)
    (h : origin.state = some s) : Sound s := by
  cases origin with
  | created leader names tables =>
    obtain rfl := Option.some.inj h
    exact create_sound leader names tables
  | validated leader members bankTabs bankMoney tables names walk allow =>
    rw [Origin.state, GuildState.validate] at h
    rw [Origin.Careful] at hCareful
    obtain ⟨ranks, kept, hRanks, hTable, hAtLeast⟩ :=
      validateRanks_table leader members bankTabs bankMoney tables names
    rw [hRanks] at h hCareful
    obtain ⟨t, hValid, rfl⟩ := Option.map_eq_some_iff.mp h
    have hSize := getRanksSize_toNat hTable.atMost
    refine Sound.validateMasters ?_ allow
    have hMembers : RankTable
        (GuildState.validateMembers ⟨⟨leader, members, ranks, bankTabs, bankMoney⟩, kept⟩) :=
      ⟨hTable.ids, hTable.atMost, hTable.rows⟩
    refine hMembers.validateLeader hAtLeast (fun member hMember hGuid => ?_) hValid
    obtain ⟨old, hOld, rfl⟩ := List.mem_map.mp hMember
    change (GuildState.repairRank _ old).guid ≠ leader at hGuid
    rw [GuildState.repairRank] at hGuid ⊢
    split
    · rename_i hBeyond
      have hLowest := getLowestRankId_toNat hTable.atMost (Nat.lt_of_lt_of_le Nat.two_pos hAtLeast)
      change (Guild.getLowestRankId _).toNat < ranks.length
      rw [hLowest]
      exact Nat.sub_lt (Nat.lt_of_lt_of_le Nat.two_pos hAtLeast) Nat.one_pos
    · rename_i hWithin
      rw [if_neg hWithin] at hGuid
      have hRank := UInt8.le_iff_toNat_le.mp (UInt8.not_lt.mp hWithin)
      have hOther : old.rankId.toNat ≠ ranks.length := fun hSame =>
        hCareful old hOld hGuid (UInt8.toNat.inj (hSame.trans hSize.symm))
      rw [hSize] at hRank
      exact Nat.lt_of_le_of_ne hRank hOther

/-- The promises hold in every state of a run exactly when its requests are careful. -/
theorem consistent_iff_careful (origin : Origin) (hCareful : origin.Careful)
    (actions : List RankAction) :
    (∀ first, first <+: actions →
      ∀ s, Transition.run rankStep origin.state first = some s → Consistent s) ↔
      Transition.Along rankStep (fun state action => ∀ s, state = some s → Careful s action)
        origin.state actions := by
  apply Transition.reached_iff_along (I := fun state => ∀ s, state = some s → Sound s)
    (P := fun state => ∀ s, state = some s → Consistent s)
  · intro state action hSound hActs t hStep
    obtain ⟨s, hState, hAct⟩ := Option.bind_eq_some_iff.mp hStep
    exact (hSound s hState).act (hActs s hState) hAct
  · exact fun state hSound s hState => (hSound s hState).consistent
  · intro state action hSound hAfter s hState
    refine (hSound s hState).careful fun t hAct => hAfter t ?_
    rw [hState]
    exact hAct
  · exact fun s hState => Origin.sound hCareful hState

theorem Sound.names_himself (h : Sound s) :
    ¬ Consistent (s.handleSetNewGuildMaster s.guild.leaderGuid s.guild.leaderGuid) := by
  intro hAfter
  obtain ⟨leader, hLeads, -⟩ := h.leader
  obtain hLeader | hNone | hNone | ⟨hOther, -⟩ := careful_setNewGuildMaster hAfter
  · rw [Guild.isLeader, decide_eq_true rfl, Bool.true_or] at hLeader
    cases hLeader
  · rw [hLeads] at hNone
    cases hNone
  · rw [hLeads] at hNone
    cases hNone
  · exact hOther rfl

theorem create_leaderGuid (leader : ObjectGuid) (names : DefaultRankNames) (tables : RankTables) :
    (create leader names tables).guild.leaderGuid = leader := by
  obtain ⟨created, kept, hCreate, -⟩ := createDefaultGuildRanks_table
    (s := ⟨⟨leader, KeyedSet.empty, [], .empty, 0⟩, tables⟩) rfl names
  rw [create, hCreate, GuildState.addMember]
  split <;> rfl

def defaultNames : DefaultRankNames := ⟨"Guild Master", "Officer", "Veteran", "Member", "Initiate"⟩

theorem new_master_himself :
    ∃ s, Transition.run rankStep (Origin.created ⟨1, 0⟩ defaultNames .empty).state
        [.setNewGuildMaster ⟨1, 0⟩ ⟨1, 0⟩] = some s ∧ ¬ Consistent s := by
  have hLeader := create_leaderGuid ⟨1, 0⟩ defaultNames .empty
  refine ⟨_, rfl, ?_⟩
  have hBroken := (create_sound ⟨1, 0⟩ defaultNames .empty).names_himself
  rwa [hLeader] at hBroken

theorem consistent_iff_careful_created :
    (∀ first, first <+: [RankAction.addNewRank ⟨1, 0⟩ "Recruit"] →
      ∀ s, Transition.run rankStep (Origin.created ⟨1, 0⟩ defaultNames .empty).state first = some s →
        Consistent s) ↔
      Transition.Along rankStep (fun state action => ∀ s, state = some s → Careful s action)
        (Origin.created ⟨1, 0⟩ defaultNames .empty).state [RankAction.addNewRank ⟨1, 0⟩ "Recruit"] :=
  consistent_iff_careful (Origin.created ⟨1, 0⟩ defaultNames .empty) trivial _

end AshamaneCore.Guilds
