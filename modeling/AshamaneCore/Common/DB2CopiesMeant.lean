import AshamaneCore.Common.DB2RecordCopies

/-!
# What copies mean

A copy means the structure of its source under its own identifier, and its
source may be a copy. The copies of a table are made as they are meant exactly
when each stands behind its source, has an identifier of its own, and is named
where the structures have their identifiers.
-/

namespace AshamaneCore.DB2

open Library.Bytes Library.Transition

/-- The structures that records and copies mean under an identifier. -/
inductive Meant (info : Meta) (before : Produced) (copies : List RecordCopy) : Nat → List UInt8 → Prop
  | record {id : Nat} {row : List UInt8} (h : before.struct? info id = some row) : Meant info before copies id row
  | copy {copy : RecordCopy} {row : List UInt8} (hMem : copy ∈ copies)
      (h : Meant info before copies copy.sourceRowId.toNat row) :
      Meant info before copies copy.newRowId.toNat (renamed info row copy.newRowId)

/-- The source of a copy exists. -/
def Sourced (info : Meta) (before : Produced) (copies : List RecordCopy) (copy : RecordCopy) : Prop :=
  ∃ row, Meant info before copies copy.sourceRowId.toNat row

/-- A later state of the tables has all structures of an earlier one, where they were. -/
structure Kept (before after : Produced) : Prop where
  data : before.dataTable <+: after.dataTable
  index : ∀ id place, before.indexTable id = some place → after.indexTable id = some place

/-- Copying changes no structure that is in the table, and every copy whose source exists is indexed under its
identifier, with a structure of its own that repeats the source under that identifier. -/
structure Served (t : Table) (info : Meta) (copies : List RecordCopy) (before after : Produced) : Prop where
  kept : ∀ first, first <+: copies → ∀ mid, autoProduceRecordCopies t info first before = some mid → Kept mid after
  own : ∀ first copy last, copies = first ++ copy :: last →
    ∀ row, after.struct? info copy.sourceRowId.toNat = some row →
      ∃ place, after.indexTable copy.newRowId.toNat = some place ∧ t.recordCount * info.getRecordSize ≤ place ∧
        structAt info after.dataTable place = renamed info row copy.newRowId ∧
        ∀ other ∈ first, after.struct? info other.sourceRowId.toNat ≠ none →
          after.indexTable other.newRowId.toNat ≠ some place

open Classical in
/-- The room that the copies of existing sources take. -/
noncomputable def copiesSize (info : Meta) (before : Produced) (copies first : List RecordCopy) : Nat :=
  first.countP (fun other => Sourced info before copies other) * info.getRecordSize

/-- A copy of an existing source can be made at its place in the table of copies. -/
structure Ready (t : Table) (info : Meta) (before : Produced) (copies first : List RecordCopy) (offset : Nat)
    (copy : RecordCopy) (row : List UInt8) : Prop where
  source : copy.sourceRowId ≠ 0
  behind : before.indexTable copy.sourceRowId.toNat ≠ none ∨
    ∃ other ∈ first, Sourced info before copies other ∧ other.newRowId = copy.sourceRowId
  unused : before.indexTable copy.newRowId.toNat = none
  unique : ∀ other ∈ first, Sourced info before copies other → other.newRowId ≠ copy.newRowId
  /-- The offset in the file is the place in structures, or the two overlap and the bytes agree. -/
  place : offset = info.idPlace ∨ (offset < info.idPlace + 4 ∧ info.idPlace < offset + 4 ∧
    written row offset (leBytes 4 copy.newRowId.toNat) = renamed info row copy.newRowId)
  room : t.recordCount * info.getRecordSize + copiesSize info before copies first +
    max info.getRecordSize (offset + 4) ≤ dataTableSize t info

def Copyable (t : Table) (info : Meta) (copies : List RecordCopy) (before : Produced) : Prop :=
  ∀ offset, idFieldOffset t info = some offset → ∀ first copy last, copies = first ++ copy :: last →
    ∀ row, Meant info before copies copy.sourceRowId.toNat row → Ready t info before copies first offset copy row

variable {t : Table} {info : Meta} {before produced next after : Produced} {copies first last : List RecordCopy}
  {copy : RecordCopy} {offset : Nat}

/-! ## One copy -/

variable {place : Nat}

theorem sourcePlace_some (h : produced.sourcePlace copy = some place) :
    copy.sourceRowId ≠ 0 ∧ produced.indexTable copy.sourceRowId.toNat = some place := by
  rw [Produced.sourcePlace] at h
  split at h
  · rename_i hIn
    exact ⟨hIn.1, h⟩
  · cases h

theorem copyRecord_cases (h : copyRecord t info offset produced copy = some next) :
    (produced.sourcePlace copy = none ∧ next = produced) ∨
      ∃ place, produced.sourcePlace copy = some place ∧ copy.newRowId ≠ copy.sourceRowId ∧
        produced.dataTable.length + info.getRecordSize ≤ dataTableSize t info ∧
        (produced.dataTable.length + offset) % 2 ^ 32 + 4 ≤ dataTableSize t info ∧
        next = produced.withCopy info offset copy place := by
  rw [copyRecord] at h
  cases hPlace : produced.sourcePlace copy with
  | none =>
    rw [hPlace] at h
    exact Or.inl ⟨rfl, (Option.some.inj h).symm⟩
  | some place =>
    rw [hPlace] at h
    dsimp only at h
    split at h
    · rename_i hFits
      exact Or.inr ⟨place, rfl, hFits.1, hFits.2.1, hFits.2.2, (Option.some.inj h).symm⟩
    · cases h

def Inside (info : Meta) (produced : Produced) : Prop :=
  ∀ id place, produced.indexTable id = some place → place + info.getRecordSize ≤ produced.dataTable.length

theorem length_structAt {dataTable : List UInt8} (h : place + info.getRecordSize ≤ dataTable.length) :
    (structAt info dataTable place).length = info.getRecordSize := by
  rw [structAt, List.length_take, List.length_drop]
  omega

theorem length_withCopy (h : place + info.getRecordSize ≤ produced.dataTable.length) :
    (produced.withCopy info offset copy place).dataTable.length = produced.dataTable.length + info.getRecordSize := by
  rw [Produced.withCopy, length_written, List.length_append, length_structAt h]

theorem withCopy_index (id : Nat) : (produced.withCopy info offset copy place).indexTable id =
    if id = copy.newRowId.toNat then some produced.dataTable.length else produced.indexTable id :=
  Function.update_apply ..

theorem copyRecord_inside (h : Inside info produced) (hNext : copyRecord t info offset produced copy = some next) :
    Inside info next := by
  rcases copyRecord_cases hNext with ⟨-, rfl⟩ | ⟨place, hPlace, -, -, -, rfl⟩
  · exact h
  · intro id found hFound
    rw [length_withCopy (h _ _ (sourcePlace_some hPlace).2)]
    rw [withCopy_index] at hFound
    split at hFound
    · exact (Option.some.inj hFound) ▸ le_rfl
    · exact (h id found hFound).trans (Nat.le_add_right ..)

theorem withCopy_dataTable (info : Meta) (copy : RecordCopy) (place : Nat)
    (h : produced.dataTable.length + offset < 2 ^ 32) :
    (produced.withCopy info offset copy place).dataTable = produced.dataTable ++
      written (structAt info produced.dataTable place) offset (leBytes 4 copy.newRowId.toNat) := by
  rw [Produced.withCopy, Nat.mod_eq_of_lt h, written_append]

/-! ## Runs -/

theorem run_split {step : Produced → RecordCopy → Option Produced}
    (h : (first ++ copy :: last).foldlM step produced = some after) :
    ∃ mid next, first.foldlM step produced = some mid ∧ step mid copy = some next ∧
      last.foldlM step next = some after := by
  rw [List.foldlM_append] at h
  obtain ⟨mid, hMid, hRest⟩ := Option.bind_eq_some_iff.mp h
  rw [List.foldlM_cons] at hRest
  obtain ⟨next, hNext, hLast⟩ := Option.bind_eq_some_iff.mp hRest
  exact ⟨mid, next, hMid, hNext, hLast⟩

theorem Kept.refl (produced : Produced) : Kept produced produced := ⟨List.prefix_rfl, fun _ _ h => h⟩

theorem Kept.trans {first second third : Produced} (h : Kept first second) (hNext : Kept second third) :
    Kept first third :=
  ⟨h.data.trans hNext.data, fun id place hAt => hNext.index id place (h.index id place hAt)⟩

theorem Kept.structAt (h : Kept before after) (hInside : place + info.getRecordSize ≤ before.dataTable.length) :
    structAt info after.dataTable place = structAt info before.dataTable place := by
  obtain ⟨rest, hRest⟩ := h.data
  rw [← hRest, structAt_append hInside]

variable {id : Nat} {row : List UInt8}

theorem Kept.struct? (h : Kept before after) (hInside : Inside info before)
    (hRow : before.struct? info id = some row) : after.struct? info id = some row := by
  obtain ⟨place, hPlace, rfl⟩ := Option.map_eq_some_iff.mp hRow
  rw [Produced.struct?, h.index id place hPlace, Option.map_some, h.structAt (hInside id place hPlace)]

/-! ## Copies that are made as they are meant -/

theorem copiesSize_concat (first : List RecordCopy) (copy : RecordCopy) :
    (Sourced info before copies copy →
      copiesSize info before copies (first ++ [copy]) = copiesSize info before copies first + info.getRecordSize) ∧
    (¬ Sourced info before copies copy →
      copiesSize info before copies (first ++ [copy]) = copiesSize info before copies first) := by
  classical
  constructor
  · intro hSourced
    rw [copiesSize, copiesSize, List.countP_append, List.countP_singleton, if_pos (decide_eq_true hSourced), Nat.succ_mul]
  · intro hNot
    rw [copiesSize, copiesSize, List.countP_append, List.countP_singleton, if_neg (by simpa using hNot), Nat.add_zero]

theorem exists_sourced_concat (first : List RecordCopy) (copy : RecordCopy) (id : Nat) :
    (∃ other ∈ first ++ [copy], Sourced info before copies other ∧ other.newRowId.toNat = id) ↔
      (∃ other ∈ first, Sourced info before copies other ∧ other.newRowId.toNat = id) ∨
        Sourced info before copies copy ∧ copy.newRowId.toNat = id := by
  simp only [List.mem_append, List.mem_singleton, or_and_right, exists_or, exists_eq_left]

structure Reached (t : Table) (info : Meta) (before : Produced) (copies first : List RecordCopy)
    (produced : Produced) : Prop where
  records : produced.records = before.records
  length : produced.dataTable.length = t.recordCount * info.getRecordSize + copiesSize info before copies first
  inside : Inside info produced
  meant : ∀ id row, produced.struct? info id = some row → Meant info before copies id row
  indexed : ∀ id, produced.indexTable id ≠ none ↔ before.indexTable id ≠ none ∨
    ∃ other ∈ first, Sourced info before copies other ∧ other.newRowId.toNat = id

theorem Started.reached (h : Started t info before) (copies : List RecordCopy) :
    Reached t info before copies [] before where
  records := rfl
  length := by rw [h.length, copiesSize, List.countP_nil, Nat.zero_mul, Nat.add_zero]
  inside := h.inside
  meant _ _ hRow := .record hRow
  indexed _ := by simp

theorem Meant.record_exists (h : Meant info before copies id row) :
    ∃ id place, before.indexTable id = some place := by
  induction h with
  | record hRow =>
    obtain ⟨place, hPlace, -⟩ := Option.map_eq_some_iff.mp hRow
    exact ⟨_, place, hPlace⟩
  | copy _ _ ih => exact ih

theorem Meant.id_lt (hStarted : Started t info before) (hIds : ∀ copy ∈ copies, copy.newRowId.toNat ∈ t.newRowIds)
    (h : Meant info before copies id row) : id < before.records := by
  cases h with
  | record hRow =>
    obtain ⟨place, hPlace, -⟩ := Option.map_eq_some_iff.mp hRow
    exact hStarted.ids id place hPlace
  | copy hMem hSource => exact hStarted.newRowIds hSource.record_exists _ (hIds _ hMem)

theorem Reached.skip (h : Reached t info before copies first produced) (offset : Nat)
    (hNot : ¬ Sourced info before copies copy) :
    copyRecord t info offset produced copy = some produced ∧
      Reached t info before copies (first ++ [copy]) produced := by
  have hNone : produced.sourcePlace copy = none := by
    by_contra hSome
    obtain ⟨place, hPlace⟩ := Option.ne_none_iff_exists'.mp hSome
    refine hNot ⟨structAt info produced.dataTable place, h.meant _ _ ?_⟩
    rw [Produced.struct?, (sourcePlace_some hPlace).2, Option.map_some]
  refine ⟨by rw [copyRecord, hNone], h.records, ?_, h.inside, h.meant, fun id => (h.indexed id).trans ?_⟩
  · rw [(copiesSize_concat first copy).2 hNot]
    exact h.length
  · rw [exists_sourced_concat]
    exact or_congr_right (or_iff_left fun hCopy => hNot hCopy.1).symm

theorem withCopy_kept (hInside : place + info.getRecordSize ≤ produced.dataTable.length)
    (hUnused : produced.indexTable copy.newRowId.toNat = none) (hSmall : produced.dataTable.length + offset < 2 ^ 32)
    (hWritten : written (structAt info produced.dataTable place) offset (leBytes 4 copy.newRowId.toNat) =
      renamed info (structAt info produced.dataTable place) copy.newRowId) :
    Kept produced (produced.withCopy info offset copy place) ∧
      structAt info (produced.withCopy info offset copy place).dataTable produced.dataTable.length =
        renamed info (structAt info produced.dataTable place) copy.newRowId := by
  have hData := withCopy_dataTable info copy place hSmall
  rw [hWritten] at hData
  refine ⟨⟨⟨_, hData.symm⟩, fun id found hFound => ?_⟩, ?_⟩
  · rw [withCopy_index, if_neg, hFound]
    rintro rfl
    exact absurd (hFound.symm.trans hUnused) (Option.some_ne_none _)
  · rw [hData, structAt_last]
    rw [renamed, length_written, length_structAt hInside]

theorem Reached.source_place (h : Reached t info before copies first produced) (hStarted : Started t info before)
    (hIds : ∀ copy ∈ copies, copy.newRowId.toNat ∈ t.newRowIds) (hMem : copy ∈ copies)
    (hMeant : Meant info before copies copy.sourceRowId.toNat row)
    (hReady : Ready t info before copies first offset copy row) :
    ∃ place, produced.indexTable copy.sourceRowId.toNat = some place ∧ produced.sourcePlace copy = some place := by
  have hSource : produced.indexTable copy.sourceRowId.toNat ≠ none := by
    refine (h.indexed _).mpr (hReady.behind.imp_right ?_)
    rintro ⟨other, hOther, hFound, hSame⟩
    exact ⟨other, hOther, hFound, congrArg UInt32.toNat hSame⟩
  obtain ⟨place, hPlace⟩ := Option.ne_none_iff_exists'.mp hSource
  refine ⟨place, hPlace, ?_⟩
  rw [Produced.sourcePlace, h.records, if_pos, hPlace]
  exact ⟨hReady.source, hMeant.id_lt hStarted hIds, hStarted.newRowIds hMeant.record_exists _ (hIds _ hMem)⟩

theorem Reached.unused (h : Reached t info before copies first produced)
    (hReady : Ready t info before copies first offset copy row) : produced.indexTable copy.newRowId.toNat = none := by
  by_contra hUsed
  rcases (h.indexed _).mp hUsed with hRecord | ⟨other, hFirst, hFound, hEq⟩
  · exact hRecord hReady.unused
  · exact hReady.unique other hFirst hFound (UInt32.toNat_inj.mp hEq)

theorem Reached.withCopy (h : Reached t info before copies first produced) (hMem : copy ∈ copies)
    (hPlace : produced.indexTable copy.sourceRowId.toNat = some place)
    (hKept : Kept produced (produced.withCopy info offset copy place))
    (hLast : structAt info (produced.withCopy info offset copy place).dataTable produced.dataTable.length =
      renamed info (structAt info produced.dataTable place) copy.newRowId)
    (hInside : Inside info (produced.withCopy info offset copy place)) :
    Reached t info before copies (first ++ [copy]) (produced.withCopy info offset copy place) := by
  have hMeant : Meant info before copies copy.sourceRowId.toNat (structAt info produced.dataTable place) := by
    refine h.meant _ _ ?_
    rw [Produced.struct?, hPlace, Option.map_some]
  refine ⟨h.records, ?_, hInside, fun id row hAt => ?_, fun id => ?_⟩
  · rw [length_withCopy (h.inside _ _ hPlace), h.length, (copiesSize_concat first copy).1 ⟨_, hMeant⟩, Nat.add_assoc]
  · obtain ⟨found, hFound, rfl⟩ := Option.map_eq_some_iff.mp hAt
    rw [withCopy_index] at hFound
    split at hFound
    · rename_i hSame
      obtain rfl := Option.some.inj hFound
      rw [hSame, hLast]
      exact .copy hMem hMeant
    · refine h.meant id _ ?_
      rw [Produced.struct?, hFound, Option.map_some, hKept.structAt (h.inside id found hFound)]
  · rw [withCopy_index, exists_sourced_concat]
    split
    · rename_i hSame
      exact iff_of_true (Option.some_ne_none _) (Or.inr (Or.inr ⟨⟨_, hMeant⟩, hSame.symm⟩))
    · rename_i hNe
      exact (h.indexed id).trans (or_congr_right (or_iff_left fun hCopy => hNe hCopy.2.symm).symm)

theorem Reached.serve (h : Reached t info before copies first produced) (hStarted : Started t info before)
    (hIds : ∀ copy ∈ copies, copy.newRowId.toNat ∈ t.newRowIds) (hMem : copy ∈ copies)
    (hSourced : Sourced info before copies copy)
    (hReady : ∀ row, Meant info before copies copy.sourceRowId.toNat row →
      Ready t info before copies first offset copy row) :
    ∃ row next, produced.struct? info copy.sourceRowId.toNat = some row ∧
      copyRecord t info offset produced copy = some next ∧ Reached t info before copies (first ++ [copy]) next ∧
      Kept produced next ∧ next.indexTable copy.newRowId.toNat = some produced.dataTable.length ∧
      structAt info next.dataTable produced.dataTable.length = renamed info row copy.newRowId := by
  obtain ⟨meantRow, hMeantRow⟩ := hSourced
  obtain ⟨place, hPlace, hServed⟩ := h.source_place hStarted hIds hMem hMeantRow (hReady _ hMeantRow)
  have hRow : produced.struct? info copy.sourceRowId.toNat = some (structAt info produced.dataTable place) := by
    rw [Produced.struct?, hPlace, Option.map_some]
  have hCopy := hReady _ (h.meant _ _ hRow)
  have hUnused := h.unused hCopy
  have hOther : copy.newRowId ≠ copy.sourceRowId := by
    intro hSame
    rw [hSame, hPlace] at hUnused
    cases hUnused
  have hRoom := hCopy.room
  rw [← h.length] at hRoom
  have hSize : dataTableSize t info < 2 ^ 32 := Nat.mod_lt _ (by decide)
  have hSmall : produced.dataTable.length + offset < 2 ^ 32 := by omega
  have hNext : copyRecord t info offset produced copy = some (produced.withCopy info offset copy place) := by
    rw [copyRecord, hServed]
    dsimp only
    rw [if_pos ⟨hOther, by omega, by rw [Nat.mod_eq_of_lt hSmall]; omega⟩]
  have hWritten : written (structAt info produced.dataTable place) offset (leBytes 4 copy.newRowId.toNat) =
      renamed info (structAt info produced.dataTable place) copy.newRowId := by
    rcases hCopy.place with rfl | ⟨-, -, hAgree⟩
    · rfl
    · exact hAgree
  obtain ⟨hKept, hLast⟩ := withCopy_kept (h.inside _ place hPlace) hUnused hSmall hWritten
  refine ⟨_, _, hRow, hNext, h.withCopy hMem hPlace hKept hLast (copyRecord_inside h.inside hNext), hKept, ?_, hLast⟩
  rw [withCopy_index, if_pos rfl]

/-! ## Runs over copies that can be made -/

theorem Reached.step (h : Reached t info before copies first produced) (hStarted : Started t info before)
    (hIds : ∀ copy ∈ copies, copy.newRowId.toNat ∈ t.newRowIds) (hMem : copy ∈ copies)
    (hReady : ∀ row, Meant info before copies copy.sourceRowId.toNat row →
      Ready t info before copies first offset copy row) :
    ∃ next, copyRecord t info offset produced copy = some next ∧ Reached t info before copies (first ++ [copy]) next ∧
      Kept produced next := by
  rcases Classical.em (Sourced info before copies copy) with hSourced | hNot
  · obtain ⟨row, next, -, hNext, hReached, hKept, -⟩ := h.serve hStarted hIds hMem hSourced hReady
    exact ⟨next, hNext, hReached, hKept⟩
  · obtain ⟨hNext, hReached⟩ := h.skip offset hNot
    exact ⟨produced, hNext, hReached, Kept.refl produced⟩

theorem Reached.run (h : Reached t info before copies first produced) (hStarted : Started t info before)
    (hIds : ∀ copy ∈ copies, copy.newRowId.toNat ∈ t.newRowIds)
    (hReady : ∀ first copy last, copies = first ++ copy :: last →
      ∀ row, Meant info before copies copy.sourceRowId.toNat row → Ready t info before copies first offset copy row)
    (middle last : List RecordCopy) (hSplit : copies = first ++ middle ++ last) :
    ∃ after, middle.foldlM (copyRecord t info offset) produced = some after ∧
      Reached t info before copies (first ++ middle) after ∧ Kept produced after := by
  induction middle generalizing first produced with
  | nil => exact ⟨produced, rfl, (List.append_nil first).symm ▸ h, Kept.refl produced⟩
  | cons copy middle ih =>
    have hHere : copies = first ++ copy :: (middle ++ last) := by rw [hSplit, List.append_assoc]; rfl
    have hMem : copy ∈ copies := hHere ▸ List.mem_append_right _ List.mem_cons_self
    obtain ⟨next, hNext, hReached, hKept⟩ := h.step hStarted hIds hMem (hReady _ _ _ hHere)
    obtain ⟨after, hAfter, hReachedAfter, hKeptAfter⟩ := ih hReached (by rw [hSplit]; simp)
    refine ⟨after, ?_, ?_, hKept.trans hKeptAfter⟩
    · rw [List.foldlM_cons, hNext]
      exact hAfter
    · simpa using hReachedAfter

theorem Copyable.served (h : Copyable t info copies before) (hIdentified : Identified t info)
    (hStarted : Started t info before) (hIds : ∀ copy ∈ copies, copy.newRowId.toNat ∈ t.newRowIds) :
    ∃ after, autoProduceRecordCopies t info copies before = some after ∧ Served t info copies before after := by
  obtain ⟨offset, hOffset, -⟩ := hIdentified.idFieldOffset_some
  have hReady := h offset hOffset
  have hStart := hStarted.reached copies
  obtain ⟨after, hAfter, hReached, -⟩ := hStart.run hStarted hIds hReady copies [] (List.append_nil _).symm
  refine ⟨after, ?_, fun first hPrefix mid hMid => ?_, fun first copy last hSplit row hRow => ?_⟩
  · rw [autoProduceRecordCopies, hOffset]
    exact hAfter
  · obtain ⟨last, hLast⟩ := hPrefix
    rw [autoProduceRecordCopies, hOffset, Option.bind_some] at hMid
    obtain ⟨same, hSame, hReachedMid, -⟩ := hStart.run hStarted hIds hReady first last hLast.symm
    obtain rfl := Option.some.inj (hMid.symm.trans hSame)
    obtain ⟨ending, hEnd, -, hKept⟩ := hReachedMid.run hStarted hIds hReady last []
      (by simpa using hLast.symm)
    rw [← hLast, List.foldlM_append, hMid] at hAfter
    obtain rfl := Option.some.inj (hEnd.symm.trans hAfter)
    exact hKept
  · have hSourced : Sourced info before copies copy := ⟨row, hReached.meant _ _ hRow⟩
    have hMem : copy ∈ copies := hSplit ▸ List.mem_append_right _ List.mem_cons_self
    obtain ⟨mid, hMid, hReachedMid, -⟩ := hStart.run hStarted hIds hReady first _ hSplit
    obtain ⟨source, next, hSource, hNext, hReachedNext, hKept, hIndex, hLast⟩ :=
      hReachedMid.serve hStarted hIds hMem hSourced (hReady _ _ _ hSplit)
    obtain ⟨ending, hEnd, -, hKeptEnd⟩ := hReachedNext.run hStarted hIds hReady last []
      (by rw [hSplit]; simp)
    have hSame : ending = after := by
      rw [hSplit, List.foldlM_append] at hAfter
      have hMidSome : List.foldlM (copyRecord t info offset) before first = some mid := hMid
      rw [hMidSome, Option.bind_eq_bind, Option.bind_some, List.foldlM_cons, hNext] at hAfter
      exact Option.some.inj (hEnd.symm.trans hAfter)
    subst hSame
    obtain rfl := Option.some.inj (((hKept.trans hKeptEnd).struct? hReachedMid.inside hSource).symm.trans hRow)
    have hRoom := hReachedNext.inside _ _ hIndex
    have hSize := hIdentified.place_inside
    refine ⟨_, hKeptEnd.index _ _ hIndex, ?_, ?_, fun other hOther hFound hAt => ?_⟩
    · rw [hReachedMid.length]
      exact Nat.le_add_right ..
    · rw [hKeptEnd.structAt hRoom, hLast]
    · obtain ⟨found, hRowFound⟩ := Option.ne_none_iff_exists'.mp hFound
      have hIndexed := (hReachedMid.indexed _).mpr
        (Or.inr ⟨other, hOther, ⟨found, hReached.meant _ _ hRowFound⟩, rfl⟩)
      obtain ⟨place, hPlace⟩ := Option.ne_none_iff_exists'.mp hIndexed
      have hInside := hReachedMid.inside _ _ hPlace
      obtain rfl := Option.some.inj (((hKept.trans hKeptEnd).index _ _ hPlace).symm.trans hAt)
      omega

/-! ## Copies that are served can be made -/

theorem run_index (hRun : copies.foldlM (copyRecord t info offset) produced = some after)
    (hAt : after.indexTable id = some place) : produced.indexTable id = some place ∨
      ∃ first copy last mid, copies = first ++ copy :: last ∧ copy.newRowId.toNat = id ∧
        first.foldlM (copyRecord t info offset) produced = some mid ∧ mid.sourcePlace copy ≠ none := by
  induction copies generalizing produced with
  | nil =>
    obtain rfl := Option.some.inj hRun
    exact Or.inl hAt
  | cons copy copies ih =>
    rw [List.foldlM_cons] at hRun
    obtain ⟨next, hNext, hRest⟩ := Option.bind_eq_some_iff.mp hRun
    rcases ih hRest with hOld | ⟨first, other, last, mid, rfl, hId, hMid, hServed⟩
    · rcases copyRecord_cases hNext with ⟨-, rfl⟩ | ⟨source, hSource, -, -, -, rfl⟩
      · exact Or.inl hOld
      · rw [withCopy_index] at hOld
        split at hOld
        · rename_i hSame
          exact Or.inr ⟨[], copy, copies, produced, rfl, hSame.symm, rfl, hSource ▸ Option.some_ne_none _⟩
        · exact Or.inl hOld
    · refine Or.inr ⟨copy :: first, other, last, mid, rfl, hId, ?_, hServed⟩
      rw [List.foldlM_cons, hNext]
      exact hMid

theorem Served.kept_of_run (h : Served t info copies before after) (hOffset : idFieldOffset t info = some offset)
    (first last : List RecordCopy) (hSplit : copies = first ++ last)
    (hRun : first.foldlM (copyRecord t info offset) before = some produced) : Kept produced after :=
  h.kept first ⟨last, hSplit.symm⟩ produced (by rw [autoProduceRecordCopies, hOffset]; exact hRun)

theorem Served.struct_of_meant (h : Served t info copies before after) (hKept : Kept before after)
    (hInside : Inside info before) (hMeant : Meant info before copies id row) :
    after.struct? info id = some row := by
  induction hMeant with
  | record hRow => exact hKept.struct? hInside hRow
  | copy hMem _ ih =>
    obtain ⟨first, last, hSplit⟩ := List.append_of_mem hMem
    obtain ⟨place, hPlace, -, hRow, -⟩ := h.own first _ last hSplit _ ih
    rw [Produced.struct?, hPlace, Option.map_some, hRow]

theorem indexed_meant (hMem : ∀ copy ∈ first, copy ∈ copies)
    (hRun : first.foldlM (copyRecord t info offset) before = some produced)
    (hAt : produced.indexTable id ≠ none) : ∃ row, Meant info before copies id row := by
  induction first using List.reverseRecOn generalizing produced id with
  | nil =>
    obtain rfl := Option.some.inj hRun
    obtain ⟨place, hPlace⟩ := Option.ne_none_iff_exists'.mp hAt
    exact ⟨_, .record (by rw [Produced.struct?, hPlace, Option.map_some])⟩
  | append_singleton first copy ih =>
    obtain ⟨mid, next, hMid, hNext, hLast⟩ := run_split hRun
    obtain rfl := Option.some.inj hLast
    have hFirst : ∀ copy ∈ first, copy ∈ copies := fun other hOther => hMem other (List.mem_append_left _ hOther)
    rcases copyRecord_cases hNext with ⟨-, rfl⟩ | ⟨place, hPlace, -, -, -, rfl⟩
    · exact ih hFirst hMid hAt
    · rw [withCopy_index] at hAt
      split at hAt
      · rename_i hSame
        obtain ⟨row, hRow⟩ := ih hFirst hMid ((sourcePlace_some hPlace).2 ▸ Option.some_ne_none _)
        exact hSame ▸ ⟨_, .copy (hMem copy (List.mem_append_right _ List.mem_cons_self)) hRow⟩
      · exact ih hFirst hMid hAt

theorem idAt_renamed (hLength : info.idPlace + 4 ≤ row.length) (id : UInt32) :
    idAt info (renamed info row id) = leBytes 4 id.toNat := by
  have hSame := written_same (show info.idPlace + (leBytes 4 id.toNat).length ≤ row.length by rwa [leBytes_length])
  rwa [leBytes_length] at hSame

theorem Meant.named (hIdentified : Identified t info) (hEntered : Entered info before)
    (h : Meant info before copies id row) : row.length = info.getRecordSize ∧ idAt info row = leBytes 4 id := by
  have hSize := hIdentified.place_inside
  induction h with
  | record hRow =>
    obtain ⟨place, hPlace, rfl⟩ := Option.map_eq_some_iff.mp hRow
    exact ⟨length_structAt (hEntered.inside _ _ hPlace), hEntered.named _ _ hPlace⟩
  | @copy copy row _ _ ih =>
    exact ⟨(length_written ..).trans ih.1, idAt_renamed (ih.1 ▸ hSize) copy.newRowId⟩

theorem Kept.source_struct (h : Kept produced after) (info : Meta) (hServed : produced.sourcePlace copy ≠ none) :
    ∃ row, after.struct? info copy.sourceRowId.toNat = some row := by
  obtain ⟨place, hPlace⟩ := Option.ne_none_iff_exists'.mp hServed
  refine ⟨DB2.structAt info after.dataTable place, ?_⟩
  rw [Produced.struct?, h.index _ _ (sourcePlace_some hPlace).2, Option.map_some]

theorem Served.behind (h : Served t info copies before after) (hOffset : idFieldOffset t info = some offset)
    (hSplit : copies = first ++ copy :: last) {mid : Produced}
    (hMid : first.foldlM (copyRecord t info offset) before = some mid)
    (hPlace : mid.indexTable copy.sourceRowId.toNat = some place) :
    before.indexTable copy.sourceRowId.toNat ≠ none ∨
      ∃ other ∈ first, Sourced info before copies other ∧ other.newRowId = copy.sourceRowId := by
  rcases run_index hMid hPlace with hRecord | ⟨front, other, back, earlier, rfl, hId, hEarlier, hServed⟩
  · exact Or.inl (hRecord ▸ Option.some_ne_none _)
  · have hKept := h.kept_of_run hOffset front (other :: back ++ copy :: last)
      (by rw [hSplit, List.append_assoc]) hEarlier
    obtain ⟨source, hSource⟩ := Option.ne_none_iff_exists'.mp hServed
    refine Or.inr ⟨other, List.mem_append_right _ List.mem_cons_self, ?_, UInt32.toNat_inj.mp hId⟩
    refine indexed_meant (fun any hAny => ?_) hEarlier ((sourcePlace_some hSource).2 ▸ Option.some_ne_none _)
    exact hSplit ▸ List.mem_append_left _ (List.mem_append_left _ hAny)

theorem leBytes_injective {first second : UInt32} (h : leBytes 4 first.toNat = leBytes 4 second.toNat) :
    first = second := by
  have hValue := congrArg leNat h
  have hFirst : first.toNat < 256 ^ 4 := first.toNat_lt
  have hSecond : second.toNat < 256 ^ 4 := second.toNat_lt
  rw [leNat_leBytes, leNat_leBytes, Nat.mod_eq_of_lt hFirst, Nat.mod_eq_of_lt hSecond] at hValue
  exact UInt32.toNat_inj.mp hValue

theorem place_of_renamed (hIdentified : Identified t info) {dataTable : List UInt8}
    (hRow : row.length = info.getRecordSize) (hNamed : idAt info row = leBytes 4 copy.sourceRowId.toNat)
    (hOther : copy.newRowId ≠ copy.sourceRowId) (hOffset : offset < 2 ^ 16)
    (hSmall : dataTable.length + info.getRecordSize < 2 ^ 32)
    (hRenamed : structAt info (written (dataTable ++ row) ((dataTable.length + offset) % 2 ^ 32)
      (leBytes 4 copy.newRowId.toNat)) dataTable.length = renamed info row copy.newRowId) :
    offset < info.idPlace + 4 ∧ info.idPlace < offset + 4 ∧
      written row offset (leBytes 4 copy.newRowId.toNat) = renamed info row copy.newRowId := by
  have hSize := hIdentified.place_inside
  have hNear : offset < info.idPlace + 4 ∧ info.idPlace < offset + 4 := by
    by_contra hFar
    refine hOther (leBytes_injective ?_)
    have hIds := congrArg (idAt info) hRenamed
    rw [idAt_renamed (hRow ▸ hSize), idAt_structAt hIdentified, written_apart] at hIds
    · rw [← hIds, ← hNamed, idAt, ← List.drop_drop, List.drop_left]
    · rw [leBytes_length]
      -- a sum that leaves the word comes back far before the copy
      rcases Nat.lt_or_ge (dataTable.length + offset) (2 ^ 32) with hWord | hWraps
      · rw [Nat.mod_eq_of_lt hWord]
        omega
      · rw [Nat.mod_eq_sub_mod hWraps, Nat.mod_eq_of_lt (by omega)]
        omega
  refine ⟨hNear.1, hNear.2, ?_⟩
  rwa [Nat.mod_eq_of_lt (by omega), written_append, structAt_last _ ((length_written ..).trans hRow)] at hRenamed

section

variable (h : Served t info copies before after) (hStarted : Started t info before)
  (hIdentified : Identified t info) (hOffset : idFieldOffset t info = some offset)
  (hRun : copies.foldlM (copyRecord t info offset) before = some after)
include h hStarted hIdentified hOffset hRun

theorem Served.made (hSplit : copies = first ++ copy :: last) (hSourced : Sourced info before copies copy)
    {mid : Produced} (hMid : first.foldlM (copyRecord t info offset) before = some mid) :
    mid.sourcePlace copy ≠ none := by
  intro hNone
  have hKept : Kept before after := h.kept_of_run hOffset [] copies (List.nil_append _).symm rfl
  obtain ⟨row, hMeant⟩ := hSourced
  have hRow := h.struct_of_meant hKept hStarted.inside hMeant
  obtain ⟨place, hPlace, hBehind, -, hOwn⟩ := h.own first copy last hSplit row hRow
  obtain ⟨same, next, hSame, hNext, hLast⟩ := run_split (hSplit ▸ hRun)
  obtain rfl := Option.some.inj (hMid.symm.trans hSame)
  obtain rfl : next = mid := by
    rcases copyRecord_cases hNext with ⟨-, hSkip⟩ | ⟨source, hSource, -⟩
    · exact hSkip
    · cases hNone.symm.trans hSource
  rcases run_index hLast hPlace with hOld | ⟨middle, other, rest, later, hRest, hId, hLater, hServed⟩
  · rcases run_index hMid hOld with hRecord | ⟨middle, other, rest, earlier, rfl, hId, hEarlier, hServed⟩
    · have hInside := hStarted.inside _ _ hRecord
      have hSize := hIdentified.place_inside
      rw [hStarted.length] at hInside
      omega
    · have hKeptEarlier := h.kept_of_run hOffset middle (other :: rest ++ copy :: last)
        (by rw [hSplit, List.append_assoc]) hEarlier
      obtain ⟨found, hFound⟩ := hKeptEarlier.source_struct info hServed
      refine hOwn other (List.mem_append_right _ List.mem_cons_self) (hFound ▸ Option.some_ne_none _) ?_
      rw [hId, hPlace]
  · have hHere : copies = (first ++ copy :: middle) ++ other :: rest := by rw [hSplit, hRest]; simp
    have hLaterRun : (first ++ copy :: middle).foldlM (copyRecord t info offset) before = some later := by
      rw [List.foldlM_append, hMid, Option.bind_eq_bind, Option.bind_some, List.foldlM_cons, hNext]
      exact hLater
    obtain ⟨found, hFound⟩ := (h.kept_of_run hOffset _ _ hHere hLaterRun).source_struct info hServed
    obtain ⟨otherPlace, hOtherPlace, -, -, hOtherOwn⟩ := h.own _ other rest hHere found hFound
    refine hOtherOwn copy (List.mem_append_right _ List.mem_cons_self) (hRow ▸ Option.some_ne_none _) ?_
    rw [← hOtherPlace, hId]

theorem Served.run_length (hSplit : copies = first ++ last) {mid : Produced}
    (hMid : first.foldlM (copyRecord t info offset) before = some mid) :
    mid.dataTable.length = t.recordCount * info.getRecordSize + copiesSize info before copies first := by
  induction first using List.reverseRecOn generalizing last mid with
  | nil =>
    obtain rfl := Option.some.inj hMid
    exact (hStarted.reached copies).length
  | append_singleton first copy ih =>
    have hHere : copies = first ++ copy :: last := by rw [hSplit, List.append_assoc]; rfl
    obtain ⟨earlier, next, hEarlier, hNext, hLast⟩ := run_split hMid
    obtain rfl := Option.some.inj hLast
    have hLength := ih hHere hEarlier
    have hMem : ∀ other ∈ first, other ∈ copies := fun other hOther => hHere ▸ List.mem_append_left _ hOther
    rcases copyRecord_cases hNext with ⟨hNone, rfl⟩ | ⟨place, hPlace, -, -, -, rfl⟩
    · have hNot : ¬ Sourced info before copies copy := fun hSourced =>
        h.made hStarted hIdentified hOffset hRun hHere hSourced hEarlier hNone
      rw [(copiesSize_concat first copy).2 hNot, hLength]
    · have hAt := (sourcePlace_some hPlace).2
      have hSourced : Sourced info before copies copy := indexed_meant hMem hEarlier (hAt ▸ Option.some_ne_none _)
      have hInside : Inside info earlier := foldlM_invariant
        (fun _ _ _ hInside hNext => copyRecord_inside hInside hNext) hEarlier hStarted.inside
      rw [(copiesSize_concat first copy).1 hSourced, length_withCopy (hInside _ _ hAt), hLength, Nat.add_assoc]

theorem Served.copied (hSplit : copies = first ++ copy :: last) (hSourced : Sourced info before copies copy) :
    ∃ mid place, first.foldlM (copyRecord t info offset) before = some mid ∧ mid.sourcePlace copy = some place ∧
      copy.newRowId ≠ copy.sourceRowId ∧ mid.dataTable.length + info.getRecordSize ≤ dataTableSize t info ∧
      (mid.dataTable.length + offset) % 2 ^ 32 + 4 ≤ dataTableSize t info ∧ Kept mid after ∧
      Kept (mid.withCopy info offset copy place) after := by
  obtain ⟨mid, next, hMid, hNext, -⟩ := run_split (hSplit ▸ hRun)
  have hMade := h.made hStarted hIdentified hOffset hRun hSplit hSourced hMid
  rcases copyRecord_cases hNext with ⟨hNone, -⟩ | ⟨place, hPlace, hOther, hFits, hIdFits, rfl⟩
  · exact absurd hNone hMade
  · refine ⟨mid, place, hMid, hPlace, hOther, hFits, hIdFits, h.kept_of_run hOffset _ _ hSplit hMid, ?_⟩
    refine h.kept_of_run hOffset (first ++ [copy]) last (by rw [hSplit]; simp) ?_
    rw [List.foldlM_append, hMid, Option.bind_eq_bind, Option.bind_some, List.foldlM_cons, hNext]
    rfl

theorem Served.ready (hWord : offset < 2 ^ 16) (hSplit : copies = first ++ copy :: last) {row : List UInt8}
    (hMeant : Meant info before copies copy.sourceRowId.toNat row) :
    Ready t info before copies first offset copy row := by
  have hKept : Kept before after := h.kept_of_run hOffset [] copies (List.nil_append _).symm rfl
  have hRow := h.struct_of_meant hKept hStarted.inside hMeant
  have hSize := hIdentified.place_inside
  have hTable : dataTableSize t info < 2 ^ 32 := Nat.mod_lt _ (by decide)
  obtain ⟨mid, source, hMid, hSource, hOther, hFits, hIdFits, hKeptMid, hKeptNext⟩ :=
    h.copied hStarted hIdentified hOffset hRun hSplit ⟨row, hMeant⟩
  obtain ⟨hZero, hAt⟩ := sourcePlace_some hSource
  have hInside : Inside info mid := foldlM_invariant
    (fun _ _ _ hInside hNext => copyRecord_inside hInside hNext) hMid hStarted.inside
  obtain ⟨place, hPlace, hBehind, hRenamed, hOwn⟩ := h.own first copy last hSplit row hRow
  have hIndex := hKeptNext.index copy.newRowId.toNat mid.dataTable.length (by rw [withCopy_index, if_pos rfl])
  obtain rfl := Option.some.inj (hIndex.symm.trans hPlace)
  have hSourceRow : structAt info mid.dataTable source = row := by
    refine Option.some.inj ((hKeptMid.struct? hInside ?_).symm.trans hRow)
    rw [Produced.struct?, hAt, Option.map_some]
  obtain ⟨hRowLength, hNamed⟩ := hMeant.named hIdentified hStarted.toEntered
  rw [hKeptNext.structAt (length_withCopy (hInside _ _ hAt)).ge, Produced.withCopy, hSourceRow] at hRenamed
  have hNear := place_of_renamed hIdentified hRowLength hNamed hOther hWord (by omega) hRenamed
  have hLength := h.run_length hStarted hIdentified hOffset hRun hSplit hMid
  refine ⟨hZero, h.behind hOffset hSplit hMid hAt, ?_, fun other hFirst hSourced hSame => ?_,
    Or.inr hNear, ?_⟩
  · by_contra hUsed
    obtain ⟨old, hOld⟩ := Option.ne_none_iff_exists'.mp hUsed
    obtain rfl := Option.some.inj ((hKept.index _ _ hOld).symm.trans hPlace)
    have hOldInside := hStarted.inside _ _ hOld
    rw [hStarted.length] at hOldInside
    omega
  · obtain ⟨otherRow, hOtherMeant⟩ := hSourced
    have hOtherRow := h.struct_of_meant hKept hStarted.inside hOtherMeant
    exact hOwn other hFirst (hOtherRow ▸ Option.some_ne_none _) (hSame ▸ hPlace)
  · rw [Nat.mod_eq_of_lt (by omega)] at hIdFits
    rw [← hLength]
    omega

end

/-- After the records of a table are produced, its copies are made as they are meant exactly when each copy whose
source exists can be made at its place in the table of copies. -/
theorem autoProduceRecordCopies_iff (t : Table) (info : Meta) (copies : List RecordCopy) (before : Produced)
    (hIdentified : Identified t info) (hBefore : autoProduceData (t.withCopies copies) info = some before) :
    (∃ after, autoProduceRecordCopies (t.withCopies copies) info copies before = some after ∧
      Served (t.withCopies copies) info copies before after) ↔ Copyable (t.withCopies copies) info copies before := by
  have hAll : Identified (t.withCopies copies) info := ⟨hIdentified.index, hIdentified.parent⟩
  have hStarted : Started (t.withCopies copies) info before := by
    refine hAll.started (fun id hMem => ?_) hBefore
    obtain ⟨copy, -, rfl⟩ := List.mem_map.mp hMem
    exact copy.newRowId.toNat_lt
  have hIds : ∀ copy ∈ copies, copy.newRowId.toNat ∈ (t.withCopies copies).newRowIds := fun copy hMem =>
    List.mem_map_of_mem hMem
  constructor
  · rintro ⟨after, hAfter, hServed⟩ offset hOffset first copy last hSplit row hMeant
    obtain ⟨same, hSame, hWord⟩ := hAll.idFieldOffset_some
    obtain rfl := Option.some.inj (hSame.symm.trans hOffset)
    rw [autoProduceRecordCopies, hOffset, Option.bind_some] at hAfter
    exact hServed.ready hStarted hAll hOffset hAfter hWord hSplit hMeant
  · exact fun hCopyable => hCopyable.served hAll hStarted hIds

/-! ### Tables with their identifiers in front and behind a string -/

def rankedMeta : Meta := ⟨[⟨.int, 1⟩, ⟨.byte, 1⟩], some 0, none⟩

def rankedTable : Table :=
  { recordCount := 1, fieldCount := 2, recordSize := 5, packedDataOffset := 5
    data := [5, 0, 0, 0, 9], idTable := [], newRowIds := []
    columnMeta := [⟨0, .none, [], fun _ => none⟩, ⟨32, .none, [], fun _ => none⟩], parentEntries := [] }

theorem copiesSize_le (info : Meta) (before : Produced) (copies first : List RecordCopy) :
    copiesSize info before copies first ≤ first.length * info.getRecordSize :=
  Nat.mul_le_mul_right _ List.countP_le_length

theorem autoProduceRecordCopies_of_copy : ∃ before,
    autoProduceData (rankedTable.withCopies [⟨7, 5⟩, ⟨8, 7⟩]) rankedMeta = some before ∧
    ∃ after, autoProduceRecordCopies (rankedTable.withCopies [⟨7, 5⟩, ⟨8, 7⟩]) rankedMeta [⟨7, 5⟩, ⟨8, 7⟩] before =
      some after ∧ Served (rankedTable.withCopies [⟨7, 5⟩, ⟨8, 7⟩]) rankedMeta [⟨7, 5⟩, ⟨8, 7⟩] before after := by
  have hIndex : (autoProduceData (rankedTable.withCopies [⟨7, 5⟩, ⟨8, 7⟩]) rankedMeta).map (fun produced =>
      (produced.indexTable 5, produced.indexTable 7, produced.indexTable 8)) = some (some 0, none, none) := by decide
  obtain ⟨before, hBefore, hPlaces⟩ := Option.map_eq_some_iff.mp hIndex
  obtain ⟨hFive, hRest⟩ := Prod.mk.inj hPlaces
  obtain ⟨hSeven, hEight⟩ := Prod.mk.inj hRest
  refine ⟨before, hBefore, (autoProduceRecordCopies_iff rankedTable rankedMeta [⟨7, 5⟩, ⟨8, 7⟩] before ⟨?_, ?_⟩
    hBefore).mpr fun offset hOffset first copy last hSplit row hMeant => ?_⟩
  · rintro x hField
    obtain rfl := Option.some.inj hField
    exact ⟨by decide, rfl, by decide⟩
  · rintro p f hNone
    cases hNone
  obtain rfl : 0 = offset := Option.some.inj hOffset
  have hSize := copiesSize_le rankedMeta before [⟨7, 5⟩, ⟨8, 7⟩] first
  have hRoom : ∀ size, size ≤ 5 → rankedTable.recordCount * rankedMeta.getRecordSize + size +
      max rankedMeta.getRecordSize (0 + 4) ≤ dataTableSize (rankedTable.withCopies [⟨7, 5⟩, ⟨8, 7⟩]) rankedMeta := by
    intro size hLe
    change 1 * 5 + size + 5 ≤ 15
    omega
  match first, hSplit with
  | [], hSplit =>
    obtain ⟨rfl, -⟩ := List.cons.inj hSplit
    exact ⟨by decide, Or.inl (hFive ▸ Option.some_ne_none _), hSeven, by simp, Or.inl rfl,
      hRoom _ (hSize.trans (by decide))⟩
  | [only], hSplit =>
    obtain ⟨rfl, hTail⟩ := List.cons.inj hSplit
    obtain ⟨rfl, -⟩ := List.cons.inj hTail
    have hSourced : Sourced rankedMeta before [⟨7, 5⟩, ⟨8, 7⟩] ⟨7, 5⟩ := by
      refine ⟨structAt rankedMeta before.dataTable 0, .record ?_⟩
      change before.struct? rankedMeta 5 = _
      rw [Produced.struct?, hFive, Option.map_some]
    refine ⟨by decide, Or.inr ⟨⟨7, 5⟩, List.mem_cons_self, hSourced, rfl⟩, hEight, fun other hOther _ => ?_, Or.inl rfl,
      hRoom _ (hSize.trans (by decide))⟩
    obtain rfl := List.mem_singleton.mp hOther
    decide
  | _ :: _ :: _, hSplit => simp at hSplit

def titledMeta : Meta := ⟨[⟨.string, 1⟩, ⟨.int, 1⟩], some 1, none⟩

/-- The string takes four bytes of the file, and eight of the structure. -/
def titledTable : Table :=
  { recordCount := 1, fieldCount := 2, recordSize := 8, packedDataOffset := 8
    data := [0, 0, 0, 0, 5, 0, 0, 0], idTable := [], newRowIds := []
    columnMeta := [⟨0, .none, [], fun _ => none⟩, ⟨32, .none, [], fun _ => none⟩], parentEntries := [] }

/-- The copy keeps the identifier of its source, and the pointer to its string is broken. -/
theorem titled_copy_keeps_id : Identified titledTable titledMeta ∧ ∃ before,
    autoProduceData (titledTable.withCopies [⟨7, 5⟩]) titledMeta = some before ∧
    ¬ ∃ after, autoProduceRecordCopies (titledTable.withCopies [⟨7, 5⟩]) titledMeta [⟨7, 5⟩] before = some after ∧
      Served (titledTable.withCopies [⟨7, 5⟩]) titledMeta [⟨7, 5⟩] before after := by
  refine ⟨⟨?_, ?_⟩, ?_⟩
  · rintro x hField
    obtain rfl := Option.some.inj hField
    exact ⟨by decide, rfl, by decide⟩
  · rintro p f hNone
    cases hNone
  · have hRun : (autoProduceData (titledTable.withCopies [⟨7, 5⟩]) titledMeta).bind (fun before =>
        (autoProduceRecordCopies (titledTable.withCopies [⟨7, 5⟩]) titledMeta [⟨7, 5⟩] before).map fun after =>
          (after.struct? titledMeta 5, after.struct? titledMeta 7)) =
        some (some [0, 0, 0, 0, 0, 0, 0, 0, 5, 0, 0, 0], some [0, 0, 0, 0, 7, 0, 0, 0, 5, 0, 0, 0]) := by decide
    obtain ⟨before, hBefore, hCopies⟩ := Option.bind_eq_some_iff.mp hRun
    refine ⟨before, hBefore, ?_⟩
    rintro ⟨after, hAfter, hServed⟩
    rw [hAfter, Option.map_some] at hCopies
    obtain ⟨hFive, hSeven⟩ := Prod.mk.inj (Option.some.inj hCopies)
    obtain ⟨place, hPlace, -, hRow, -⟩ := hServed.own [] ⟨7, 5⟩ [] rfl _ hFive
    have hPlaceSeven : after.indexTable 7 = some place := hPlace
    rw [Produced.struct?, hPlaceSeven, Option.map_some, hRow] at hSeven
    exact absurd (Option.some.inj hSeven) (by decide)

end AshamaneCore.DB2
