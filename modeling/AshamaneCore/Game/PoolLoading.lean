import AshamaneCore.Game.PoolMgr
import AshamaneCore.Library.KeyedSet
import AshamaneCore.Library.LinkCycles

/-!
# Loading the pools of pools

Every row of the table puts a child pool into the group of its mother pool and links
the two. Then the links are followed up from every pool, and a link that closes a
circle is removed from the map and from the group. Chances are exact. A missing pool
has an empty group.
-/

namespace AshamaneCore

open Library LinkCycles

structure PoolTemplateData where
  entry : UInt32
  maxLimit : UInt32
  deriving DecidableEq

structure PoolPoolRow where
  poolId : UInt32
  motherPool : UInt32
  chance : Rat
  deriving DecidableEq

structure PoolLink where
  child : UInt64
  mother : UInt64
  deriving DecidableEq

/-- The groups of child pools and the mother of every child pool. -/
structure LoadedPools where
  group : UInt64 → PoolGroup
  searchMap : KeyedSet fun link : PoolLink => link.child.toNat

namespace PoolGroup

def addEntry (group : PoolGroup) (poolitem : PoolObject) (chance : Rat) (maxentries : UInt32) :
    PoolGroup :=
  if chance ≠ 0 ∧ maxentries = 1 then
    { group with explicitlyChanced := group.explicitlyChanced ++ [poolitem] }
  else { group with equalChanced := group.equalChanced ++ [poolitem] }

def removeOneRelation (group : PoolGroup) (childPoolId : UInt64) : PoolGroup :=
  ⟨group.explicitlyChanced.eraseP fun o => o.guid = childPoolId,
    group.equalChanced.eraseP fun o => o.guid = childPoolId⟩

theorem guids_addEntry (group : PoolGroup) (obj : PoolObject) (chance : Rat) (limit : UInt32) :
    (group.addEntry obj chance limit).guids.Perm (obj.guid :: group.guids) := by
  rw [addEntry]
  split
  · rw [guids, guids, List.map_append, List.map_singleton, ← List.append_assoc]
    exact List.perm_append_singleton _ _
  · rw [guids, guids, List.map_append, List.map_singleton, List.append_assoc, List.singleton_append]
    exact List.perm_middle

theorem map_eraseP_guid (l : List PoolObject) (child : UInt64) :
    (l.eraseP fun o => o.guid = child).map (·.guid) = (l.map (·.guid)).erase child := by
  rw [List.erase_eq_eraseP, List.eraseP_map]
  have hSame : ((fun guid => child == guid) ∘ fun o : PoolObject => o.guid) =
      fun o => decide (o.guid = child) := by
    funext o
    rw [Function.comp_apply, Bool.beq_eq_decide_eq, decide_eq_decide]
    exact eq_comm
  rw [hSame]

theorem guids_removeOneRelation {group : PoolGroup} (h : group.guids.Nodup) (child : UInt64) :
    (group.removeOneRelation child).guids = group.guids.erase child := by
  rw [guids, guids, removeOneRelation, map_eraseP_guid, map_eraseP_guid, List.erase_append]
  split
  · rename_i hMem
    have hApart := List.disjoint_of_nodup_append h hMem
    rw [List.erase_of_not_mem hApart]
  · rename_i hNot
    rw [List.erase_of_not_mem hNot]

end PoolGroup

namespace LoadedPools

def empty : LoadedPools := ⟨fun _ => .empty, .empty⟩

def findTemplate (templates : List PoolTemplateData) (poolId : UInt32) : Option PoolTemplateData :=
  templates.find? fun t => t.entry = poolId

/-- A row is skipped if a pool has no template, if a pool includes itself, or for an invalid chance. -/
def loadRow (templates : List PoolTemplateData) (s : LoadedPools) (row : PoolPoolRow) : LoadedPools :=
  match findTemplate templates row.motherPool with
  | none => s
  | some motherTemplate =>
    if findTemplate templates row.poolId = none then s
    else if row.motherPool = row.poolId then s
    else if row.chance < 0 ∨ row.chance > 100 then s
    else
      let child := row.poolId.toUInt64
      let mother := row.motherPool.toUInt64
      ⟨Function.update s.group mother
          ((s.group mother).addEntry ⟨child⟩ row.chance motherTemplate.maxLimit),
        s.searchMap.emplace ⟨child, mother⟩⟩

def loadRows (templates : List PoolTemplateData) (rows : List PoolPoolRow) : LoadedPools :=
  rows.foldl (loadRow templates) empty

def motherOf (searchMap : KeyedSet fun link : PoolLink => link.child.toNat) (poolId : UInt64) :
    Option UInt64 := (searchMap.find? poolId.toNat).map (·.mother)

section Walk

variable {searchMap : KeyedSet fun link : PoolLink => link.child.toNat}

theorem find?_eq_some_iff {poolId : UInt64} {link : PoolLink} :
    searchMap.find? poolId.toNat = some link ↔ link ∈ searchMap.entries ∧ link.child = poolId := by
  rw [KeyedSet.find?_eq_some_iff, UInt64.toNat_inj]

theorem length_unchecked_lt {checkedPools : List UInt64} {link : PoolLink}
    (hMem : link ∈ searchMap.entries) (hNew : link.child ∉ checkedPools) :
    (searchMap.entries.filter fun l => l.child ∉ link.child :: checkedPools).length <
      (searchMap.entries.filter fun l => l.child ∉ checkedPools).length := by
  have hSplit : (searchMap.entries.filter fun l => l.child ∉ link.child :: checkedPools) =
      (searchMap.entries.filter fun l => l.child ∉ checkedPools).filter
        fun l => l.child ≠ link.child := by
    rw [List.filter_filter]
    apply List.filter_congr
    simp
  have hUnchecked : link ∈ searchMap.entries.filter fun l => l.child ∉ checkedPools :=
    List.mem_filter.mpr ⟨hMem, decide_eq_true hNew⟩
  rw [hSplit, List.length_filter_lt_length_iff_exists]
  exact ⟨link, hUnchecked, by simp⟩

end Walk

/-- The walk up the links, with the pools it checked before: the link that closes a circle. -/
def closingLink (searchMap : KeyedSet fun link : PoolLink => link.child.toNat)
    (checkedPools : List UInt64) (poolId : UInt64) (_hNew : poolId ∉ checkedPools) :
    Option PoolLink :=
  match _hFind : searchMap.find? poolId.toNat with
  | none => none
  | some link =>
    if hOld : link.mother ∈ link.child :: checkedPools then some link
    else closingLink searchMap (link.child :: checkedPools) link.mother hOld
termination_by (searchMap.entries.filter fun link => link.child ∉ checkedPools).length
decreasing_by
  obtain ⟨hMem, rfl⟩ := find?_eq_some_iff.mp _hFind
  exact length_unchecked_lt hMem _hNew

/-- The link that closes a circle is removed, in the group of its mother and in the map. -/
def removeCircle (s : LoadedPools) (poolId : UInt64) : LoadedPools :=
  match closingLink s.searchMap [] poolId List.not_mem_nil with
  | none => s
  | some link =>
    ⟨Function.update s.group link.mother ((s.group link.mother).removeOneRelation link.child),
      s.searchMap.erase link.child.toNat⟩

/-- The check for circular references starts from every template. -/
def removeCircles (templates : List PoolTemplateData) (s : LoadedPools) : LoadedPools :=
  templates.foldl (fun s template => s.removeCircle template.entry.toUInt64) s

def loadPools (templates : List PoolTemplateData) (rows : List PoolPoolRow) : LoadedPools :=
  removeCircles templates (loadRows templates rows)

/-! ## The walk -/

section Walk

variable {searchMap : KeyedSet fun link : PoolLink => link.child.toNat}

variable {poolId : UInt64}

theorem motherOf_of_find? {link : PoolLink}
    (h : searchMap.find? poolId.toNat = some link) :
    link.child = poolId ∧ Link (motherOf searchMap) poolId link.mother :=
  ⟨(find?_eq_some_iff.mp h).2, by rw [Link, motherOf, h, Option.map_some]⟩

theorem closingLink_some {checkedPools : List UInt64}
    {hNew : poolId ∉ checkedPools} {link : PoolLink}
    (hChecked : ∀ c ∈ checkedPools, Reaches (motherOf searchMap) c poolId)
    (h : closingLink searchMap checkedPools poolId hNew = some link) :
    motherOf searchMap link.child = some link.mother ∧
      OnCycle (motherOf searchMap) link.child ∧ Reaches (motherOf searchMap) poolId link.child := by
  fun_induction closingLink searchMap checkedPools poolId hNew with
  | case1 => cases h
  | case2 checkedPools poolId hNew found hFind hOld =>
    obtain rfl := Option.some.inj h
    obtain ⟨rfl, hLink⟩ := motherOf_of_find? hFind
    refine ⟨hLink, ?_, Relation.ReflTransGen.refl⟩
    apply OnCycle.of_link hLink
    rcases List.mem_cons.mp hOld with hSelf | hMem
    · rw [hSelf]
      exact Relation.ReflTransGen.refl
    · exact hChecked found.mother hMem
  | case3 checkedPools poolId hNew found hFind hFresh ih =>
    obtain ⟨rfl, hLink⟩ := motherOf_of_find? hFind
    have hHigher : ∀ c ∈ found.child :: checkedPools, Reaches (motherOf searchMap) c found.mother := by
      intro c hc
      rcases List.mem_cons.mp hc with rfl | hMem
      · exact Relation.ReflTransGen.single hLink
      · exact (hChecked c hMem).tail hLink
    obtain ⟨hFound, hCycle, hReach⟩ := ih hHigher h
    exact ⟨hFound, hCycle, hReach.head hLink⟩

theorem closingLink_none {checkedPools : List UInt64}
    {hNew : poolId ∉ checkedPools} (h : closingLink searchMap checkedPools poolId hNew = none) :
    Clear (motherOf searchMap) poolId := by
  fun_induction closingLink searchMap checkedPools poolId hNew with
  | case1 checkedPools poolId hNew hFind =>
    apply Clear.of_end
    rw [motherOf, hFind, Option.map_none]
  | case2 => cases h
  | case3 checkedPools poolId hNew found hFind hFresh ih =>
    exact (ih h).of_link (motherOf_of_find? hFind).2

theorem motherOf_erase (child : UInt64) :
    motherOf (searchMap.erase child.toNat) = cut (motherOf searchMap) child := by
  funext poolId
  rw [motherOf, KeyedSet.find?_erase_eq]
  rcases eq_or_ne poolId child with rfl | hNe
  · rw [if_pos rfl, cut, Function.update_self, Option.map_none]
  · have hKey : poolId.toNat ≠ child.toNat := fun hEq => hNe (UInt64.toNat_inj.mp hEq)
    rw [if_neg hKey, cut, Function.update_of_ne hNe, motherOf]

end Walk

/-! ## The groups beside the map -/

/-- The group of a mother pool lists the children of the map, each of them once. -/
structure Listed (s : LoadedPools) : Prop where
  nodup : ∀ p, (s.group p).guids.Nodup
  mem_iff : ∀ p child, child ∈ (s.group p).guids ↔ motherOf s.searchMap child = some p

theorem listed_empty : Listed empty where
  nodup := fun _ => List.nodup_nil
  mem_iff := fun _ _ => ⟨fun h => (nomatch h), fun h => (nomatch h)⟩

variable {s : LoadedPools}

theorem Listed.update (h : Listed s) (child : UInt64) {p : UInt64} {group : PoolGroup}
    {searchMap : KeyedSet fun link : PoolLink => link.child.toNat}
    (hNodup : group.guids.Nodup)
    (hGroup : ∀ c, c ∈ group.guids ↔ motherOf searchMap c = some p)
    (hOther : ∀ q, q ≠ p → motherOf searchMap child ≠ some q ∧ motherOf s.searchMap child ≠ some q)
    (hMap : ∀ c, c ≠ child → motherOf searchMap c = motherOf s.searchMap c) :
    Listed ⟨Function.update s.group p group, searchMap⟩ where
  nodup := by
    intro q
    dsimp only
    rw [Function.update_apply]
    split
    · exact hNodup
    · exact h.nodup q
  mem_iff := by
    intro q c
    dsimp only
    rw [Function.update_apply]
    split
    · rename_i hEq
      rw [hGroup, hEq]
    · rename_i hNe
      rw [h.mem_iff]
      rcases eq_or_ne c child with rfl | hChild
      · exact iff_of_false (hOther q hNe).2 (hOther q hNe).1
      · rw [hMap c hChild]

theorem Listed.removeCircle (h : Listed s) (poolId : UInt64) :
    Listed (s.removeCircle poolId) := by
  rw [LoadedPools.removeCircle]
  split
  · exact h
  · rename_i link hFound
    obtain ⟨hLink, -, -⟩ := closingLink_some (fun _ hc => absurd hc List.not_mem_nil) hFound
    have hCut : ∀ c, motherOf (s.searchMap.erase link.child.toNat) c =
        cut (motherOf s.searchMap) link.child c := fun c => congrFun (motherOf_erase link.child) c
    have hRemoved := PoolGroup.guids_removeOneRelation (h.nodup link.mother) link.child
    apply h.update link.child
    · rw [hRemoved]
      exact (h.nodup link.mother).erase _
    · intro c
      rw [hRemoved, (h.nodup link.mother).mem_erase_iff, h.mem_iff, hCut, cut_eq_some_iff]
    · intro q hNe
      rw [hCut, hLink, Ne, cut_eq_some_iff]
      exact ⟨fun hBoth => hBoth.1 rfl, fun hEq => hNe (Option.some.inj hEq).symm⟩
    · intro c hNe
      rw [hCut, cut, Function.update_of_ne hNe]

/-! ## The rows -/

def Accepted (templates : List PoolTemplateData) (row : PoolPoolRow) : Prop :=
  findTemplate templates row.motherPool ≠ none ∧ findTemplate templates row.poolId ≠ none ∧
    row.motherPool ≠ row.poolId ∧ ¬ (row.chance < 0 ∨ row.chance > 100)

variable {templates : List PoolTemplateData} {row : PoolPoolRow}

theorem loadRow_rejected (h : ¬ Accepted templates row) (s : LoadedPools) : loadRow templates s row = s := by
  rw [loadRow]
  split
  · rfl
  · rename_i template hMother
    split
    · rfl
    · rename_i hChild
      split
      · rfl
      · rename_i hSelf
        split
        · rfl
        · rename_i hChance
          exact absurd ⟨by simp [hMother], hChild, hSelf, hChance⟩ h

theorem loadRow_accepted (h : Accepted templates row) (s : LoadedPools) : ∃ maxLimit, loadRow templates s row =
      ⟨Function.update s.group row.motherPool.toUInt64
          ((s.group row.motherPool.toUInt64).addEntry ⟨row.poolId.toUInt64⟩ row.chance maxLimit),
        s.searchMap.emplace ⟨row.poolId.toUInt64, row.motherPool.toUInt64⟩⟩ := by
  obtain ⟨hMother, hChild, hSelf, hChance⟩ := h
  obtain ⟨template, hTemplate⟩ := Option.ne_none_iff_exists'.mp hMother
  refine ⟨template.maxLimit, ?_⟩
  rw [loadRow, hTemplate]
  dsimp only
  rw [if_neg hChild, if_neg hSelf, if_neg hChance]

theorem motherOf_emplace {searchMap : KeyedSet fun link : PoolLink => link.child.toNat}
    (link : PoolLink) (hNew : motherOf searchMap link.child = none) (poolId : UInt64) :
    motherOf (searchMap.emplace link) poolId =
      if poolId = link.child then some link.mother else motherOf searchMap poolId := by
  rw [motherOf, KeyedSet.find?_emplace_eq]
  rcases eq_or_ne poolId link.child with rfl | hNe
  · rw [motherOf, Option.map_eq_none_iff] at hNew
    rw [if_pos rfl, if_pos rfl, hNew, Option.getD_none, Option.map_some]
  · have hKey : poolId.toNat ≠ link.child.toNat := fun hEq => hNe (UInt64.toNat_inj.mp hEq)
    rw [if_neg hKey, if_neg hNe, motherOf]

theorem Listed.loadRow (h : Listed s)
    (hNew : motherOf s.searchMap row.poolId.toUInt64 = none) (templates : List PoolTemplateData) :
    Listed (s.loadRow templates row) := by
  by_cases hRow : Accepted templates row
  · obtain ⟨maxLimit, hLoad⟩ := loadRow_accepted hRow s
    rw [hLoad]
    have hPerm := PoolGroup.guids_addEntry (s.group row.motherPool.toUInt64)
      ⟨row.poolId.toUInt64⟩ row.chance maxLimit
    have hMother := motherOf_emplace ⟨row.poolId.toUInt64, row.motherPool.toUInt64⟩ hNew
    have hAbsent : row.poolId.toUInt64 ∉ (s.group row.motherPool.toUInt64).guids := by
      rw [h.mem_iff, hNew]
      exact fun hNone => nomatch hNone
    apply h.update row.poolId.toUInt64
    · rw [hPerm.nodup_iff]
      exact List.nodup_cons.mpr ⟨hAbsent, h.nodup _⟩
    · intro c
      rw [hPerm.mem_iff, List.mem_cons, h.mem_iff, hMother]
      dsimp only
      split
      · rename_i hEq
        simp [hEq]
      · rename_i hNe
        simp [hNe]
    · intro q hNe
      rw [hMother, if_pos rfl, hNew]
      exact ⟨fun hEq => hNe (Option.some.inj hEq).symm, fun hNone => nomatch hNone⟩
    · intro c hNe
      rw [hMother, if_neg hNe]
  · rw [loadRow_rejected hRow]
    exact h

structure Loaded (templates : List PoolTemplateData) (rows : List PoolPoolRow) (s : LoadedPools) :
    Prop where
  listed : Listed s
  mother_iff : ∀ child mother, motherOf s.searchMap child = some mother ↔
    ∃ row ∈ rows, Accepted templates row ∧ row.poolId.toUInt64 = child ∧
      row.motherPool.toUInt64 = mother

theorem Loaded.loadRow {rows : List PoolPoolRow} (h : Loaded templates rows s)
    (hNew : row.poolId ∉ rows.map (·.poolId)) :
    Loaded templates (rows ++ [row]) (s.loadRow templates row) := by
  have hFree : motherOf s.searchMap row.poolId.toUInt64 = none := by
    rw [Option.eq_none_iff_forall_ne_some]
    intro mother hMother
    obtain ⟨old, hMem, -, hChild, -⟩ := (h.mother_iff _ _).mp hMother
    have hSame : old.poolId = row.poolId := UInt32.toUInt64_inj.mp hChild
    exact hNew (hSame ▸ List.mem_map_of_mem hMem)
  refine ⟨h.listed.loadRow hFree templates, fun child mother => ?_⟩
  by_cases hRow : Accepted templates row
  · obtain ⟨maxLimit, hLoad⟩ := loadRow_accepted hRow s
    rw [hLoad, motherOf_emplace _ hFree]
    simp only [List.mem_append, List.mem_singleton, or_and_right, exists_or, exists_eq_left]
    rw [← h.mother_iff]
    split
    · rename_i hEq
      simp [hEq, hFree, hRow]
    · rename_i hNe
      simp [Ne.symm hNe]
  · rw [loadRow_rejected hRow, h.mother_iff]
    simp [or_and_right, exists_or, hRow]

theorem loaded_loadRows (templates : List PoolTemplateData) {rows : List PoolPoolRow}
    (h : (rows.map (·.poolId)).Nodup) : Loaded templates rows (loadRows templates rows) := by
  induction rows using List.reverseRecOn with
  | nil => exact ⟨listed_empty, fun child mother => by simp [loadRows, motherOf, empty, KeyedSet.find?,
      KeyedSet.empty]⟩
  | append_singleton rows row ih =>
    rw [List.map_append, List.map_singleton, List.nodup_append_comm, List.singleton_append,
      List.nodup_cons] at h
    rw [loadRows, List.foldl_append]
    exact (ih h.2).loadRow h.1

/-! ## The check for circular references -/

structure Checked (orig : UInt64 → Option UInt64) (pools : List UInt64) (s : LoadedPools) : Prop where
  listed : Listed s
  broken : Broken orig (motherOf s.searchMap)
  clear : ∀ p ∈ pools, Clear (motherOf s.searchMap) p

theorem Checked.removeCircle {orig : UInt64 → Option UInt64} {pools : List UInt64} (h : Checked orig pools s)
    (poolId : UInt64) :
    Checked orig (poolId :: pools) (s.removeCircle poolId) := by
  have hListed := h.listed.removeCircle poolId
  rw [LoadedPools.removeCircle] at hListed ⊢
  split at hListed
  · rename_i hEnd
    exact ⟨hListed, h.broken, List.forall_mem_cons.mpr ⟨closingLink_none hEnd, h.clear⟩⟩
  · rename_i link hFound
    obtain ⟨-, hCycle, hReach⟩ := closingLink_some (fun _ hc => absurd hc List.not_mem_nil) hFound
    refine ⟨hListed, ?_, ?_⟩
    · dsimp only
      rw [motherOf_erase]
      exact h.broken.cut hCycle
    · dsimp only
      rw [motherOf_erase]
      exact List.forall_mem_cons.mpr ⟨clear_cut hReach hCycle,
        fun p hp => (within_cut _ _).clear (h.clear p hp)⟩

theorem Checked.removeCircles {orig : UInt64 → Option UInt64} (templates : List PoolTemplateData) :
    ∀ {pools : List UInt64} {s : LoadedPools}, Checked orig pools s →
      ∃ checked, Checked orig checked (s.removeCircles templates) ∧ pools ⊆ checked ∧
        ∀ template ∈ templates, template.entry.toUInt64 ∈ checked := by
  induction templates with
  | nil => exact fun {pools} _ h => ⟨pools, h, List.Subset.refl _, by simp⟩
  | cons template templates ih =>
    intro pools s h
    obtain ⟨checked, hChecked, hSub, hAll⟩ := ih (h.removeCircle template.entry.toUInt64)
    refine ⟨checked, hChecked, List.Subset.trans (List.subset_cons_self _ _) hSub, ?_⟩
    rw [List.forall_mem_cons]
    exact ⟨hSub List.mem_cons_self, hAll⟩

end LoadedPools

end AshamaneCore
