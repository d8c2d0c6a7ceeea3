import AshamaneCore.Game.LfgSearch
import Mathlib.Data.List.Pairwise

/-!
# What makes a match

A list that passes all checks is a full party of players that are apart from each other:
no player stands in it twice, and none of them ignores another. Everything a round of the
search adds to the proposals was made of such a list.
-/

namespace AshamaneCore.Lfg

open Library Containers

variable {m : LfgStores} {store : QueueDataStore}

/-! ## Counting -/

variable {check : List ObjectGuid}

theorem countUp_ok {c c' : Count} (h : countUp m store check c = .ok c')
    (hGroups : c'.numLfgGroups ≤ 1) (hPlayers : c'.numPlayers ≤ maxGroupSize) :
    (entriesOf store check).map (·.guid) = check ∧
      c' = (entriesOf store check).foldl (Count.add m) c := by
  induction check generalizing c with
  | nil => exact ⟨rfl, (Except.ok.inj h).symm⟩
  | cons guid rest ih =>
    rw [countUp] at h
    split at h
    · obtain rfl := Except.ok.inj h
      omega
    · split at h
      · cases h
      · rename_i data hData
        obtain ⟨hGuids, hCount⟩ := ih h
        have hGuid := (KeyedSet.find?_eq_some_iff.mp hData).2
        simp only [entriesOf, List.filterMap_cons, hData, List.map_cons, List.foldl_cons]
        exact ⟨congrArg₂ _ (ObjectGuid.toNat_injective hGuid) hGuids, hCount⟩

theorem foldl_add_numPlayers (entries : List LfgQueueData) (c : Count) :
    (entries.foldl (Count.add m) c).numPlayers =
      c.numPlayers + (entries.flatMap (·.roles.entries)).length := by
  induction entries generalizing c with
  | nil => rfl
  | cons data rest ih =>
    rw [List.foldl_cons, ih, List.flatMap_cons, List.length_append, ← Nat.add_assoc]
    rfl

theorem foldl_add_numLfgGroups (entries : List LfgQueueData) (c : Count) :
    (entries.foldl (Count.add m) c).numLfgGroups =
      c.numLfgGroups + (entries.map (·.guid)).countP (m.isLfgGroup ·) := by
  induction entries generalizing c with
  | nil => rfl
  | cons data rest ih =>
    rw [List.foldl_cons, ih, List.map_cons, List.countP_cons, Count.add]
    dsimp only
    split <;> omega

/-! ## Merging -/

def Apart (m : LfgStores) (p q : PlayerRole) : Prop :=
  p.guid ≠ q.guid ∧ m.hasIgnore p.guid q.guid = false

theorem Apart.symm {p q : PlayerRole} (h : Apart m p q) : Apart m q p :=
  ⟨h.1.symm, (m.hasIgnore_comm q.guid p.guid).trans h.2⟩

theorem addRole_cases (merged : RolesMap) (p : PlayerRole) :
    (addRole m merged p).entries.length = merged.entries.length ∨
      (addRole m merged p).entries.Perm (p :: merged.entries) ∧ ∀ q ∈ merged.entries, Apart m p q := by
  unfold addRole
  split
  · exact Or.inl rfl
  · rename_i hNone
    cases hIn : merged.contains p.guid.toNat with
    | true => exact Or.inl (KeyedSet.length_assign hIn)
    | false =>
      refine Or.inr ⟨KeyedSet.assign_perm hIn, fun q hq => ?_⟩
      have hOther : q.guid ≠ p.guid := by
        intro hEq
        rw [KeyedSet.contains_iff.mpr ⟨q, hq, congrArg _ hEq⟩] at hIn
        cases hIn
      refine ⟨hOther.symm, Bool.eq_false_iff.mpr fun hIgnore => hNone ?_⟩
      exact List.any_eq_true.mpr ⟨q, hq, by simp [hOther, hIgnore]⟩

theorem foldl_addRole_length_le (l : List PlayerRole) (merged : RolesMap) :
    (l.foldl (addRole m) merged).entries.length ≤ merged.entries.length + l.length := by
  induction l generalizing merged with
  | nil => exact Nat.le_refl _
  | cons p l ih =>
    have hStep : (addRole m merged p).entries.length ≤ merged.entries.length + 1 := by
      obtain hSame | ⟨hPerm, -⟩ := addRole_cases (m := m) merged p
      · omega
      · exact hPerm.length_eq.le
    rw [List.foldl_cons, List.length_cons]
    exact (ih _).trans (by omega)

theorem foldl_addRole_full {l : List PlayerRole} {merged : RolesMap}
    (h : (l.foldl (addRole m) merged).entries.length = merged.entries.length + l.length) :
    (l.foldl (addRole m) merged).entries.Perm (l ++ merged.entries) ∧ l.Pairwise (Apart m) ∧
      ∀ p ∈ l, ∀ q ∈ merged.entries, Apart m p q := by
  induction l generalizing merged with
  | nil => exact ⟨List.Perm.refl _, List.Pairwise.nil, fun p hp => nomatch hp⟩
  | cons p l ih =>
    rw [List.foldl_cons, List.length_cons] at h
    have hRest := foldl_addRole_length_le (m := m) l (addRole m merged p)
    obtain hSame | ⟨hPerm, hApart⟩ := addRole_cases (m := m) merged p
    · omega
    · have hFull : (l.foldl (addRole m) (addRole m merged p)).entries.length =
          (addRole m merged p).entries.length + l.length := by
        rw [h, hPerm.length_eq, List.length_cons]
        omega
      obtain ⟨hAll, hPairwise, hOthers⟩ := ih hFull
      rw [List.foldl_cons]
      refine ⟨hAll.trans ((hPerm.append_left l).trans List.perm_middle), ?_, ?_⟩
      · refine List.pairwise_cons.mpr ⟨fun q hq => ?_, hPairwise⟩
        exact (hOthers q hq p (hPerm.mem_iff.mpr List.mem_cons_self)).symm
      · intro q hq r hr
        obtain rfl | hq := List.mem_cons.mp hq
        · exact hApart r hr
        · exact hOthers q hq r (hPerm.mem_iff.mpr (List.mem_cons_of_mem _ hr))

theorem mergeRoles_eq (entries : List LfgQueueData) :
    mergeRoles m entries = (entries.flatMap (·.roles.entries)).foldl (addRole m) KeyedSet.empty := by
  have hFold : ∀ merged : RolesMap,
      entries.foldl (fun merged data => data.roles.entries.foldl (addRole m) merged) merged =
        (entries.flatMap (·.roles.entries)).foldl (addRole m) merged := by
    induction entries with
    | nil => exact fun _ => rfl
    | cons data rest ih =>
      intro merged
      rw [List.foldl_cons, ih, List.flatMap_cons, List.foldl_append]
  exact hFold KeyedSet.empty

theorem mem_commonDungeons {entries : List LfgQueueData} {dungeon : UInt32}
    (h : dungeon ∈ (commonDungeons entries).entries) :
    ∀ data ∈ entries, dungeon ∈ data.dungeons.entries := by
  have hFold : ∀ (rest : List LfgQueueData) (common : LfgDungeonSet),
      dungeon ∈ (rest.foldl (fun common data =>
        common.filter fun d => data.dungeons.contains d.toNat) common).entries →
      dungeon ∈ common.entries ∧ ∀ data ∈ rest, dungeon ∈ data.dungeons.entries := by
    intro rest
    induction rest with
    | nil => exact fun common hIn => ⟨hIn, fun data hData => nomatch hData⟩
    | cons data rest ih =>
      intro common hIn
      obtain ⟨hFilter, hRest⟩ := ih _ hIn
      obtain ⟨hCommon, hHas⟩ := List.mem_filter.mp hFilter
      refine ⟨hCommon, List.forall_mem_cons.mpr ⟨?_, hRest⟩⟩
      obtain ⟨d, hd, hEq⟩ := KeyedSet.contains_iff.mp hHas
      exact UInt32.toNat_inj.mp hEq ▸ hd
  cases entries with
  | nil => exact fun data hData => nomatch hData
  | cons data rest => exact List.forall_mem_cons.mpr (hFold rest data.dungeons h)

/-! ## Full parties -/

/-- What a full party is made of: a group on its own, or several that go together. -/
structure Party (m : LfgStores) (store : QueueDataStore) (check : List ObjectGuid) (draft : Draft) :
    Prop where
  guids : (entriesOf store check).map (·.guid) = check
  count : draft.count = (entriesOf store check).foldl (Count.add m) .zero
  players : draft.count.numPlayers = maxGroupSize
  lfgGroups : draft.count.numLfgGroups ≤ 1
  made : (∃ data, entriesOf store check = [data] ∧ draft.dungeons = data.dungeons ∧
      draft.roles = (checkGroupRoles data.roles).getD data.roles) ∨
    (∃ merged, checkGroupRoles merged = some draft.roles ∧
      merged.entries.Perm ((entriesOf store check).flatMap (·.roles.entries)) ∧
      ((entriesOf store check).flatMap (·.roles.entries)).Pairwise (Apart m) ∧
      draft.dungeons = commonDungeons (entriesOf store check) ∧ draft.dungeons.entries ≠ [])

variable {draft : Draft}

theorem draft_of_verdict {full : Draft} (h : draft.verdict = .full full) :
    draft = full ∧ draft.count.numPlayers = maxGroupSize := by
  unfold Draft.verdict at h
  split at h
  · cases h
  · rename_i hSize
    exact ⟨Verdict.full.inj h, not_not.mp hSize⟩

theorem judge_full (h : judge m store check = .full draft) :
    Party m store check draft := by
  unfold judge at h
  split at h
  · cases h
  · rename_i count hCount
    split at h
    · cases h
    · split at h
      · cases h
      · rename_i hGroups
        split at h
        · cases h
        · rename_i hPlayers
          obtain ⟨hGuids, hFold⟩ := countUp_ok hCount (not_lt.mp hGroups) (not_lt.mp hPlayers)
          unfold judgeEntries at h
          split at h
          · rename_i data hData
            obtain ⟨rfl, hFull⟩ := draft_of_verdict h
            exact ⟨hGuids, hFold, hFull, not_lt.mp hGroups, Or.inl ⟨data, hData, rfl, rfl⟩⟩
          · dsimp only at h
            split at h
            · cases h
            · rename_i hSize
              split at h
              · cases h
              · rename_i roles hRoles
                split at h
                · cases h
                · rename_i hSome
                  obtain ⟨rfl, hFull⟩ := draft_of_verdict h
                  rw [not_not, hFold, foldl_add_numPlayers, mergeRoles_eq] at hSize
                  obtain ⟨hPerm, hApart, -⟩ := foldl_addRole_full hSize.symm
                  rw [← mergeRoles_eq, show (KeyedSet.empty : RolesMap).entries = [] from rfl,
                    List.append_nil] at hPerm
                  refine ⟨hGuids, hFold, hFull, not_lt.mp hGroups, Or.inr ⟨_, hRoles, hPerm, hApart, rfl, ?_⟩⟩
                  simpa using hSome

namespace Party

variable {check : List ObjectGuid} {draft : Draft}

theorem length_players (h : Party m store check draft) :
    ((entriesOf store check).flatMap (·.roles.entries)).length = maxGroupSize := by
  have hPlayers := h.players
  rw [h.count, foldl_add_numPlayers] at hPlayers
  exact (Nat.zero_add _).symm.trans hPlayers

theorem guids_perm (h : Party m store check draft) :
    (draft.roles.entries.map (·.guid)).Perm
      (((entriesOf store check).flatMap (·.roles.entries)).map (·.guid)) := by
  obtain ⟨data, hData, -, hRoles⟩ | ⟨merged, hRoles, hPerm, -⟩ := h.made
  · rw [hData, List.flatMap_singleton, hRoles]
    cases hCheck : checkGroupRoles data.roles with
    | none => exact List.Perm.refl _
    | some roles =>
      rw [Option.getD_some, checkGroupRoles_guids hCheck]
  · rw [checkGroupRoles_guids hRoles]
    exact hPerm.map _

theorem length_roles (h : Party m store check draft) :
    draft.roles.entries.length = maxGroupSize := by
  have hLength := h.guids_perm.length_eq
  rwa [List.length_map, List.length_map, h.length_players] at hLength

theorem lfgGroups_le (h : Party m store check draft) : check.countP (m.isLfgGroup ·) ≤ 1 := by
  have hGroups := h.lfgGroups
  rw [h.count, foldl_add_numLfgGroups, h.guids] at hGroups
  exact (Nat.zero_add _).symm.trans_le hGroups

theorem apart (h : Party m store check draft) {a b : LfgQueueData} (ha : a ∈ entriesOf store check)
    (hb : b ∈ entriesOf store check) (hOther : a.guid ≠ b.guid) {p q : PlayerRole}
    (hp : p ∈ a.roles.entries) (hq : q ∈ b.roles.entries) : Apart m p q := by
  obtain ⟨data, hData, -⟩ | ⟨-, -, -, hApart, -⟩ := h.made
  · rw [hData, List.mem_singleton] at ha hb
    exact absurd (congrArg _ (ha.trans hb.symm)) hOther
  · have hAcross := (List.pairwise_flatMap.mp hApart).2
    have : Std.Symm fun a b : LfgQueueData =>
        ∀ p ∈ a.roles.entries, ∀ q ∈ b.roles.entries, Apart m p q :=
      ⟨fun a b hab q hq p hp => (hab p hp q hq).symm⟩
    exact hAcross.forall ha hb (fun hEq => hOther (congrArg _ hEq)) p hp q hq

end Party

/-- Entries that may be queued: their own roles passed the check, for some dungeon. -/
structure Admitted (data : LfgQueueData) : Prop where
  roles : (checkGroupRoles data.roles).isSome = true
  dungeons : data.dungeons.entries ≠ []

theorem fits_of_party {size : Nat} (h : size = maxGroupSize) : Fits size := by
  rw [h]
  exact Or.inl (by decide)

theorem Party.settles (h : Party m store check draft)
    (hAdmitted : ∀ data ∈ store.entries, Admitted data) :
    ∃ offers, Settles draft.roles.entries offers ∧
      offers.Perm ((entriesOf store check).flatMap (·.roles.entries)) := by
  obtain ⟨data, hData, -, hRoles⟩ | ⟨merged, hRoles, hPerm, -⟩ := h.made
  · have hMem : data ∈ entriesOf store check := hData ▸ List.mem_singleton_self data
    obtain ⟨guid, -, hFind⟩ := List.mem_filterMap.mp hMem
    obtain ⟨roles, hCheck⟩ := Option.isSome_iff_exists.mp
      (hAdmitted data (KeyedSet.find?_eq_some_iff.mp hFind).1).roles
    have hSize := h.length_players
    rw [hData, List.flatMap_singleton] at hSize ⊢
    rw [hRoles, hCheck, Option.getD_some]
    exact ⟨_, checkGroupRoles_settles (fits_of_party hSize) hCheck, List.Perm.refl _⟩
  · have hSize := hPerm.length_eq.trans h.length_players
    exact ⟨_, checkGroupRoles_settles (fits_of_party hSize) hRoles, hPerm⟩

theorem Party.dungeons (h : Party m store check draft)
    (hAdmitted : ∀ data ∈ store.entries, Admitted data) : draft.dungeons.entries ≠ [] ∧
      ∀ dungeon ∈ draft.dungeons.entries, ∀ data ∈ entriesOf store check,
        dungeon ∈ data.dungeons.entries := by
  obtain ⟨data, hData, hDungeons, -⟩ | ⟨-, -, -, -, hDungeons, hSome⟩ := h.made
  · have hMem : data ∈ entriesOf store check := hData ▸ List.mem_singleton_self data
    obtain ⟨guid, -, hFind⟩ := List.mem_filterMap.mp hMem
    rw [hDungeons, hData]
    refine ⟨(hAdmitted data (KeyedSet.find?_eq_some_iff.mp hFind).1).dungeons, ?_⟩
    exact fun dungeon hIn other hOther => List.mem_singleton.mp hOther ▸ hIn
  · refine ⟨hSome, fun dungeon hIn => ?_⟩
    rw [hDungeons] at hIn
    exact mem_commonDungeons hIn

/-! ## Proposals -/

structure Sound (m : LfgStores) (store : QueueDataStore) (proposal : LfgProposal) : Prop where
  size : proposal.players.entries.length = maxGroupSize
  distinct : (proposal.players.entries.map (·.guid)).Nodup
  tank : (proposal.players.entries.countP fun p => p.role &&& ~~~playerRoleLeader = playerRoleTank) =
    lfgTanksNeeded
  healer : (proposal.players.entries.countP
    fun p => p.role &&& ~~~playerRoleLeader = playerRoleHealer) = lfgHealersNeeded
  damage : (proposal.players.entries.countP
    fun p => p.role &&& ~~~playerRoleLeader = playerRoleDamage) = lfgDpsNeeded
  queued : (entriesOf store proposal.queues).map (·.guid) = proposal.queues
  offered : ∀ p ∈ proposal.players.entries, ∃ data ∈ entriesOf store proposal.queues,
    ∃ q ∈ data.roles.entries, p.guid = q.guid ∧ p.role &&& q.roles = p.role
  lfgGroups : proposal.queues.countP (m.isLfgGroup ·) ≤ 1
  noIgnores : ∀ a ∈ entriesOf store proposal.queues, ∀ b ∈ entriesOf store proposal.queues,
    a.guid ≠ b.guid → ∀ p ∈ a.roles.entries, ∀ q ∈ b.roles.entries, m.hasIgnore p.guid q.guid = false
  dungeon : ∀ data ∈ entriesOf store proposal.queues, proposal.dungeonId ∈ data.dungeons.entries

theorem nodup_guids (players : LfgProposalPlayers) : (players.entries.map (·.guid)).Nodup := by
  refine List.Nodup.of_map ObjectGuid.toNat ?_
  rw [List.map_map]
  exact players.nodup_keys

theorem makeProposal_sound (now : Nat) (picks : Nat → Nat)
    (h : Party m store check draft) (hAdmitted : ∀ data ∈ store.entries, Admitted data) (id drawn : Nat) :
    Sound m store { (makeProposal m now picks check draft drawn).1 with id := id } := by
  obtain ⟨offers, hSettles, hPerm⟩ := h.settles hAdmitted
  obtain ⟨hSome, hCommon⟩ := h.dungeons hAdmitted
  obtain ⟨hTank, hHealer, hDamage⟩ := hSettles.full h.length_roles
  obtain ⟨dungeon, hDungeon⟩ := exists_selected hSome (picks drawn)
  refine ⟨?_, ?_, ?_, ?_, ?_, h.guids, ?_, h.lfgGroups_le, ?_, ?_⟩
  · exact (List.length_map _).trans h.length_roles
  · exact nodup_guids _
  · exact List.countP_map.trans hTank
  · exact List.countP_map.trans hHealer
  · exact List.countP_map.trans hDamage
  · intro player hPlayer
    obtain ⟨p, hp, rfl⟩ := List.mem_map.mp hPlayer
    obtain ⟨q, hq, hNarrows⟩ := exists_of_forall₂ hSettles.narrows hp
    obtain ⟨data, hData, hIn⟩ := List.mem_flatMap.mp (hPerm.mem_iff.mp hq)
    exact ⟨data, hData, q, hIn, hNarrows⟩
  · exact fun a ha b hb hOther p hp q hq => (h.apart ha hb hOther hp hq).2
  · intro data hData
    simp only [makeProposal, hDungeon, Option.getD_some]
    exact hCommon dungeon (mem_of_selected hDungeon) data hData

/-! ## Rounds of the search -/

section Rule

variable (m) (now : Nat) (picks : Nat → Nat)

structure SearchRule (P : LfgSearch → Prop) : Prop where
  cache : ∀ s check c, P s → P (s.setCompatibles check c)
  drop : ∀ (s : LfgSearch) guid, s.queue.queueDataStore.find? guid.toNat = none → P s →
    P { s with queue := s.queue.removeFromQueue guid }
  create : ∀ (s : LfgSearch) check draft, judge m s.queue.queueDataStore check = .full draft →
    m.allQueued check = true → P s → P (s.createProposal m now picks check draft)
  lists : ∀ (s : LfgSearch) current new, P s →
    P { s with queue := { s.queue with currentQueueStore := current, newToQueueStore := new } }

variable {m now picks} {P : LfgSearch → Prop}

namespace SearchRule

variable {s : LfgSearch}

theorem settle (hRule : SearchRule m now picks P) (h : P s) (check : List ObjectGuid) :
    P (s.settle m now picks check (judge m s.queue.queueDataStore check)).2 := by
  cases hVerdict : judge m s.queue.queueDataStore check with
  | missing guid => exact hRule.drop s guid (judge_missing hVerdict) h
  | incompatible c => exact hRule.cache s check c h
  | lessPlayers => exact hRule.cache s check _ h
  | full draft =>
    rw [LfgSearch.settle]
    split
    · rename_i hAll
      exact hRule.cache _ _ _ (hRule.create s check draft hVerdict hAll h)
    · exact hRule.cache s check _ h

theorem checkCompatibility (hRule : SearchRule m now picks P) (h : P s)
    (check : List ObjectGuid) : P (s.checkCompatibility m now picks check).2 := by
  induction check with
  | nil => exact h
  | cons guid rest ih =>
    rw [LfgSearch.checkCompatibility]
    split
    · exact h
    · split
      · exact hRule.settle h _
      · dsimp only
        split
        · exact hRule.cache _ _ _ ih
        · exact hRule.settle ih _

theorem findCompatibles (hRule : SearchRule m now picks P) (h : P s)
    (check : List ObjectGuid) : P (s.findCompatibles m now picks check).2 := by
  have hChecked := hRule.checkCompatibility h check
  unfold LfgSearch.findCompatibles
  dsimp only
  split
  · split
    · exact hRule.cache _ _ _ hChecked
    · exact hChecked
  · split
    · exact hRule.cache _ _ _ h
    · exact h

theorem matchQueued {find : LfgSearch → List ObjectGuid → List ObjectGuid → LfgSearch.Found}
    (hFind : ∀ s check all, P s → P (find s check all).search) (h : P s)
    (check : List ObjectGuid) (n : Nat) (all : List ObjectGuid) :
    P (LfgSearch.matchQueued find check n s all).search := by
  induction n generalizing s all with
  | zero => exact h
  | succ n ih =>
    cases all with
    | nil => exact h
    | cons guid all =>
      rw [LfgSearch.matchQueued]
      split
      · exact hFind _ _ _ h
      · exact ih (hFind _ _ _ h) _

theorem findNewGroupsIn (hRule : SearchRule m now picks P) (h : P s) (n : Nat)
    (check all : List ObjectGuid) : P (s.findNewGroupsIn m now picks n check all).search := by
  induction n generalizing s check all with
  | zero => exact h
  | succ n ih =>
    have hFound := hRule.findCompatibles h check
    rw [LfgSearch.findNewGroupsIn]
    dsimp only
    split
    · exact hFound
    · exact matchQueued (P := P) (fun t check all ht => ih ht check all) hFound _ _ _

theorem findNew (hRule : SearchRule m now picks P) (h : P s) (front : ObjectGuid) :
    P (s.findNew m now picks front) := by
  have hTaken : P { s with queue := s.queue.removeFromNewQueue front } := hRule.lists s _ _ h
  have hFound := hRule.findNewGroupsIn hTaken
  rw [LfgSearch.findNew]
  dsimp only
  split
  · exact hFound _ _ _
  · exact hRule.lists _ _ _ (hFound _ _ _)

theorem findGroups (hRule : SearchRule m now picks P) (h : P s) :
    P (s.findGroups m now picks) := by
  have hAll : ∀ (n : Nat) (s : LfgSearch), P s → P (s.findGroupsIn m now picks n) := by
    intro n
    induction n with
    | zero => exact fun _ hs => hs
    | succ n ih =>
      intro s hs
      rw [LfgSearch.findGroupsIn]
      split
      · exact hs
      · exact ih _ (hRule.findNew hs _)
  exact hAll _ s h

end SearchRule

end Rule

theorem mem_addProposal {s : LfgProposals} {proposal p : LfgProposal}
    (h : p ∈ (s.addProposal proposal).proposalsStore.entries) :
    p ∈ s.proposalsStore.entries ∨ p = { proposal with id := s.lfgProposalId + 1 } := by
  obtain hNew | ⟨hOld, -⟩ := KeyedSet.mem_assign.mp h
  · exact Or.inr hNew
  · exact Or.inl hOld

theorem sound_rule (s : LfgSearch) (now : Nat) (picks : Nat → Nat)
    (hAdmitted : ∀ data ∈ s.queue.queueDataStore.entries, Admitted data) :
    SearchRule m now picks fun t => t.queue.queueDataStore = s.queue.queueDataStore ∧
      ∀ p ∈ t.proposals.proposalsStore.entries,
        p ∈ s.proposals.proposalsStore.entries ∨ Sound m s.queue.queueDataStore p := by
  constructor
  · exact fun _ _ _ h => h
  · intro t guid hNone h
    exact ⟨(KeyedSet.erase_of_absent hNone).trans h.1, h.2⟩
  · rintro t check draft hFull - ⟨hStore, hProposals⟩
    refine ⟨(t.createProposal_queue m now picks check draft).1.trans hStore, fun p hp => ?_⟩
    obtain hOld | rfl := mem_addProposal hp
    · exact hProposals p hOld
    · rw [hStore] at hFull
      exact Or.inr (makeProposal_sound now picks (judge_full hFull) hAdmitted _ _)
  · exact fun _ _ _ h => h

theorem findGroups_sound (s : LfgSearch) (now : Nat) (picks : Nat → Nat)
    (hAdmitted : ∀ data ∈ s.queue.queueDataStore.entries, Admitted data) :
    ∀ p ∈ (s.findGroups m now picks).proposals.proposalsStore.entries,
      p ∈ s.proposals.proposalsStore.entries ∨ Sound m s.queue.queueDataStore p :=
  ((sound_rule s now picks hAdmitted).findGroups ⟨rfl, fun _ hp => Or.inl hp⟩).2

section AlmostFull

open LfgSearch

def almostFull : LfgSearch where
  queue := { deadEnd.queue with currentQueueStore := [someParty], newToQueueStore := [someone 1] }
  proposals := deadEnd.proposals
  drawn := 0

theorem almostFull_admitted : ∀ data ∈ almostFull.queue.queueDataStore.entries, Admitted data := by
  have hAll : (almostFull.queue.queueDataStore.entries.all fun data =>
      (checkGroupRoles data.roles).isSome && !data.dungeons.entries.isEmpty) = true := by
    decide +kernel
  intro data hData
  obtain ⟨hRoles, hDungeons⟩ := Bool.and_eq_true_iff.mp (List.all_eq_true.mp hAll data hData)
  exact ⟨hRoles, by simpa using hDungeons⟩

theorem almostFull_sound :
    (almostFull.findGroups allInQueue 0 id).proposals.proposalsStore.entries.length = 1 ∧
      ∀ p ∈ (almostFull.findGroups allInQueue 0 id).proposals.proposalsStore.entries,
        p ∈ almostFull.proposals.proposalsStore.entries ∨
          Sound allInQueue almostFull.queue.queueDataStore p :=
  ⟨by decide +kernel, findGroups_sound almostFull 0 id almostFull_admitted⟩

end AlmostFull

end AshamaneCore.Lfg
