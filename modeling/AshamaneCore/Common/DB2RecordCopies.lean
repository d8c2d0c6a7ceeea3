import AshamaneCore.Common.DB2Tables

/-!
# Copies of records

A table of copies names new records that repeat others. Each copy is put
behind the structures that are already in the table of data, and its new
identifier is written at the place that the identifiers have in the file.
-/

namespace AshamaneCore.DB2

open Library.Bytes Library.Transition

variable {t : Table} {info : Meta}

structure RecordCopy where
  newRowId : UInt32
  sourceRowId : UInt32
  deriving DecidableEq

def Table.withCopies (t : Table) (copies : List RecordCopy) : Table :=
  { t with newRowIds := copies.map fun copy => copy.newRowId.toNat }

/-- Bytes that are written behind the end belong to no structure yet. -/
def written (bytes : List UInt8) (position : Nat) (value : List UInt8) : List UInt8 :=
  bytes.mapIdx fun i byte => if position ≤ i then value[i - position]?.getD byte else byte

def structAt (info : Meta) (dataTable : List UInt8) (place : Nat) : List UInt8 :=
  (dataTable.drop place).take info.getRecordSize

def Produced.struct? (info : Meta) (produced : Produced) (id : Nat) : Option (List UInt8) :=
  (produced.indexTable id).map (structAt info produced.dataTable)

section

variable (t : Table) (info : Meta)

/-- The offset of the identifier in a record of the file, which has sixteen bits. -/
def idFieldOffset : Option Nat :=
  match info.indexField with
  | some indexField =>
    if indexField < t.fieldCount then t.columnMeta[indexField]?.map fun column => getFieldOffset t column % 2 ^ 16
    else none
  | none => some 0

/-- Where the source of a copy lies, if the copy is made. -/
def Produced.sourcePlace (produced : Produced) (copy : RecordCopy) : Option Nat :=
  if copy.sourceRowId ≠ 0 ∧ copy.sourceRowId.toNat < produced.records ∧ copy.newRowId.toNat < produced.records then
    produced.indexTable copy.sourceRowId.toNat
  else none

def Produced.withCopy (produced : Produced) (idFieldOffset : Nat) (copy : RecordCopy) (place : Nat) : Produced :=
  { produced with
    indexTable := Function.update produced.indexTable copy.newRowId.toNat (some produced.dataTable.length)
    dataTable := written (produced.dataTable ++ structAt info produced.dataTable place)
      ((produced.dataTable.length + idFieldOffset) % 2 ^ 32) (leBytes 4 copy.newRowId.toNat) }

/-- The structures before fill the table up to the offset of the copy. A record that is copied to itself would be
copied from bytes that are not initialised. -/
def copyRecord (idFieldOffset : Nat) (produced : Produced) (copy : RecordCopy) : Option Produced :=
  match produced.sourcePlace copy with
  | none => some produced
  | some place =>
    if copy.newRowId ≠ copy.sourceRowId ∧ produced.dataTable.length + info.getRecordSize ≤ dataTableSize t info ∧
        (produced.dataTable.length + idFieldOffset) % 2 ^ 32 + 4 ≤ dataTableSize t info then
      some (produced.withCopy info idFieldOffset copy place)
    else none

def autoProduceRecordCopies (copies : List RecordCopy) (produced : Produced) : Option Produced :=
  (idFieldOffset t info).bind fun idFieldOffset => copies.foldlM (copyRecord t info idFieldOffset) produced

end

/-! ## Bytes that are written -/

section

variable (bytes value : List UInt8) (position : Nat)

@[simp] theorem length_written : (written bytes position value).length = bytes.length := List.length_mapIdx

theorem getElem?_written (i : Nat) : (written bytes position value)[i]? =
    bytes[i]?.map fun byte => if position ≤ i then value[i - position]?.getD byte else byte := List.getElem?_mapIdx

variable {bytes value position}

theorem getElem?_written_apart {i : Nat} (h : i < position ∨ position + value.length ≤ i) :
    (written bytes position value)[i]? = bytes[i]? := by
  have hSame : ∀ byte : UInt8, (if position ≤ i then value[i - position]?.getD byte else byte) = byte := fun byte => by
    split
    · rw [List.getElem?_eq_none (by omega), Option.getD_none]
    · rfl
  simp only [getElem?_written, hSame]
  exact Option.map_id_apply

theorem written_apart {start count : Nat} (h : start + count ≤ position ∨ position + value.length ≤ start) :
    ((written bytes position value).drop start).take count = (bytes.drop start).take count := by
  refine List.ext_getElem? fun i => ?_
  rw [getElem?_slice, getElem?_slice]
  split
  · exact getElem?_written_apart (by omega)
  · rfl

theorem written_same (h : position + value.length ≤ bytes.length) :
    ((written bytes position value).drop position).take value.length = value := by
  refine List.ext_getElem? fun i => ?_
  rw [getElem?_slice]
  split
  · rename_i hInside
    have hLt : position + i < bytes.length := by omega
    rw [getElem?_written, List.getElem?_eq_getElem hLt, Option.map_some, if_pos (Nat.le_add_right ..),
      Nat.add_sub_cancel_left, List.getElem?_eq_getElem hInside, Option.getD_some]
  · rw [List.getElem?_eq_none (by omega)]

theorem written_append (front row : List UInt8) (offset : Nat) :
    written (front ++ row) (front.length + offset) value = front ++ written row offset value := by
  refine List.ext_getElem? fun i => ?_
  rcases Nat.lt_or_ge i front.length with hFront | hRow
  · rw [getElem?_written_apart (Or.inl (by omega)), List.getElem?_append_left hFront, List.getElem?_append_left hFront]
  · obtain ⟨k, rfl⟩ := Nat.exists_eq_add_of_le hRow
    have hPlace : front.length + offset ≤ front.length + k ↔ offset ≤ k := Nat.add_le_add_iff_left
    rw [getElem?_written, List.getElem?_append_right hRow, List.getElem?_append_right hRow, Nat.add_sub_cancel_left,
      getElem?_written, Nat.add_sub_add_left]
    simp only [hPlace]

end

/-! ## Identifiers in structures -/

def Meta.idPlace (info : Meta) : Nat :=
  match info.indexField with
  | some indexField => info.getParentIndexFieldOffset indexField
  | none => 0

def idAt (info : Meta) (bytes : List UInt8) : List UInt8 := (bytes.drop info.idPlace).take 4

def renamed (info : Meta) (row : List UInt8) (id : UInt32) : List UInt8 := written row info.idPlace (leBytes 4 id.toNat)

/-- The field of identifiers is one integer of the file, and no parents are written to it. -/
structure Identified (t : Table) (info : Meta) : Prop where
  index : ∀ x, info.indexField = some x →
    x < t.fieldCount ∧ info.fields[x]? = some ⟨.int, 1⟩ ∧ x < t.columnMeta.length
  parent : ∀ p f, info.parentIndexField = some p → info.fields[p]? = some f → info.indexField ≠ some p ∧ 0 < f.arraySize

namespace Identified

theorem place_inside (h : Identified t info) : info.idPlace + 4 ≤ info.getRecordSize := by
  rw [Meta.idPlace]
  cases hIndex : info.indexField with
  | none =>
    have hSize : info.indexSize = 4 := by rw [Meta.indexSize, Meta.hasIndexFieldInData, hIndex]; rfl
    rw [Meta.getRecordSize, hSize]
    exact Nat.add_le_add_right (Nat.zero_le _) 4
  | some x =>
    obtain ⟨-, hField, -⟩ := h.index x hIndex
    have hInside := elementOffset_inside hField Nat.one_pos
    rwa [Meta.elementOffset, Nat.zero_mul, Nat.add_zero] at hInside

theorem idFieldOffset_some (h : Identified t info) :
    ∃ offset, idFieldOffset t info = some offset ∧ offset < 2 ^ 16 := by
  rw [idFieldOffset]
  cases hIndex : info.indexField with
  | none => exact ⟨0, rfl, by decide⟩
  | some x =>
    obtain ⟨hFile, -, hColumn⟩ := h.index x hIndex
    dsimp only
    rw [if_pos hFile, List.getElem?_eq_getElem hColumn]
    exact ⟨_, rfl, Nat.mod_lt _ (by decide)⟩

theorem parent_apart (h : Identified t info) {p : Nat} {f : Field} (hParent : info.parentIndexField = some p)
    (hField : info.fields[p]? = some f) (y z : Nat) :
    y * info.getRecordSize + info.idPlace + 4 ≤ z * info.getRecordSize + info.getParentIndexFieldOffset p ∨
      z * info.getRecordSize + info.getParentIndexFieldOffset p + f.type.size ≤ y * info.getRecordSize + info.idPlace := by
  obtain ⟨hOther, hElement⟩ := h.parent p f hParent hField
  cases hIndex : info.indexField with
  | none =>
    have hSize : info.indexSize = 4 := by rw [Meta.indexSize, Meta.hasIndexFieldInData, hIndex]; rfl
    have hInside := elementOffset_inside hField hElement
    rw [Meta.elementOffset, Nat.zero_mul, Nat.add_zero] at hInside
    rw [Meta.idPlace, hIndex]
    dsimp only
    have hFront : 4 ≤ info.getParentIndexFieldOffset p := by rw [Meta.getParentIndexFieldOffset, hSize]; omega
    rcases Nat.lt_or_ge z y with hLt | hLe
    · have hRow : (z + 1) * info.getRecordSize ≤ y * info.getRecordSize := Nat.mul_le_mul_right _ hLt
      rw [Nat.succ_mul] at hRow
      omega
    · have hRow : y * info.getRecordSize ≤ z * info.getRecordSize := Nat.mul_le_mul_right _ hLe
      omega
  | some x =>
    obtain ⟨-, hInt, -⟩ := h.index x hIndex
    have hNe : ¬ (y = z ∧ x = p ∧ 0 = 0) := by
      rintro ⟨-, rfl, -⟩
      exact hOther hIndex
    have hApart := places_apart hInt Nat.one_pos hField hElement hNe
    rw [Meta.elementOffset, Meta.elementOffset, Nat.zero_mul, Nat.zero_mul, Nat.add_zero, Nat.add_zero] at hApart
    rw [Meta.idPlace, hIndex]
    exact hApart

end Identified

theorem columnValue_of_none {size record field arrayIndex value : Nat}
    (h : columnValue t none size record field arrayIndex = some value) (id : Option Nat) :
    columnValue t id size record field arrayIndex = some value := by
  rw [columnValue] at h ⊢
  split at h
  · rename_i hField
    rw [if_pos hField]
    obtain ⟨column, hColumn, hValue⟩ := Option.bind_eq_some_iff.mp h
    rw [hColumn, Option.bind_some]
    cases hCompression : column.compression with
    | commonData common =>
      rw [hCompression] at hValue
      cases hValue
    | none | immediate | pallet | palletArray =>
      rw [hCompression] at hValue
      exact hValue
  · cases h

theorem Identified.idAt_recordData (h : Identified t info) {y id : Nat} {bytes : List UInt8}
    (hData : recordData t info y = some (id, bytes)) : idAt info bytes = leBytes 4 id := by
  cases hIndex : info.indexField with
  | none =>
    rw [recordData] at hData
    obtain ⟨found, -, hRest⟩ := Option.bind_eq_some_iff.mp hData
    obtain ⟨cells, -, hPair⟩ := Option.map_eq_some_iff.mp hRest
    obtain ⟨rfl, rfl⟩ := Prod.mk.inj hPair
    rw [idAt, Meta.idPlace, hIndex, Meta.hasIndexFieldInData, hIndex]
    have hTake : ((leBytes 4 found ++ cells).take (leBytes 4 found).length) = leBytes 4 found := List.take_left
    rwa [leBytes_length] at hTake
  | some x =>
    obtain ⟨hFile, hInt, -⟩ := h.index x hIndex
    obtain ⟨stringFieldOffset, piece, hPiece, hAt⟩ := recordData_at hData hInt Nat.one_pos
    rw [recordData] at hData
    obtain ⟨found, hFound, hRest⟩ := Option.bind_eq_some_iff.mp hData
    obtain ⟨cells, -, hPair⟩ := Option.map_eq_some_iff.mp hRest
    obtain ⟨rfl, -⟩ := Prod.mk.inj hPair
    rw [recordGetId, hIndex] at hFound
    have hNumber : FieldType.int.isString = false := rfl
    rw [cellData, hNumber, if_neg Bool.false_ne_true, if_pos hFile, recordGetVarInt] at hPiece
    have hSame : ∀ id, columnValue t id FieldType.int.size (getRawRecordData t y) x 0 = some found :=
      columnValue_of_none hFound
    rw [hSame] at hPiece
    rw [Meta.elementOffset, Nat.zero_mul, Nat.add_zero] at hAt
    rw [idAt, Meta.idPlace, hIndex]
    exact hAt.trans (Option.some.inj hPiece).symm

/-! ## The table before the copies -/

theorem idAt_structAt (h : Identified t info) (dataTable : List UInt8) (place : Nat) :
    idAt info (structAt info dataTable place) = (dataTable.drop (place + info.idPlace)).take 4 := by
  have hInside := h.place_inside
  rw [idAt, structAt, List.drop_take, List.take_take, List.drop_drop, Nat.min_eq_left (by omega)]

variable {dataTable : List UInt8}

theorem structAt_append {place : Nat} (h : place + info.getRecordSize ≤ dataTable.length)
    (bytes : List UInt8) : structAt info (dataTable ++ bytes) place = structAt info dataTable place := by
  rw [structAt, structAt, List.drop_append_of_le_length (by omega), List.take_append_of_le_length]
  rw [List.length_drop]
  omega

theorem structAt_last (dataTable : List UInt8) {bytes : List UInt8} (h : bytes.length = info.getRecordSize) :
    structAt info (dataTable ++ bytes) dataTable.length = bytes := by
  rw [structAt, List.drop_left, ← h, List.take_length]

/-- The structures follow each other, and each of them is indexed under the identifier in it. -/
structure Entered (info : Meta) (produced : Produced) : Prop where
  rows : ∃ n, produced.dataTable.length = n * info.getRecordSize
  ids : ∀ id place, produced.indexTable id = some place → id < produced.records
  places : ∀ id place, produced.indexTable id = some place → ∃ y, place = y * info.getRecordSize
  inside : ∀ id place, produced.indexTable id = some place → place + info.getRecordSize ≤ produced.dataTable.length
  named : ∀ id place, produced.indexTable id = some place →
    idAt info (structAt info produced.dataTable place) = leBytes 4 id

theorem Identified.produceRecord_entered (hIdentified : Identified t info) {produced next : Produced} {y : Nat}
    (h : Entered info produced) (hNext : produceRecord t info produced y = some next) : Entered info next := by
  rw [produceRecord] at hNext
  obtain ⟨⟨id, bytes⟩, hData, hRest⟩ := Option.bind_eq_some_iff.mp hNext
  dsimp only at hRest
  split at hRest
  · rename_i hFits
    obtain rfl := Option.some.inj hRest
    obtain ⟨n, hRows⟩ := h.rows
    have hLength := recordData_length hData
    have hEntry : ∀ other place,
        Function.update produced.indexTable id (some produced.dataTable.length) other = some place →
          (other = id ∧ place = produced.dataTable.length) ∨ produced.indexTable other = some place := by
      intro other place hAt
      rcases Classical.em (other = id) with rfl | hOther
      · rw [Function.update_self] at hAt
        exact Or.inl ⟨rfl, (Option.some.inj hAt).symm⟩
      · rw [Function.update_of_ne hOther] at hAt
        exact Or.inr hAt
    refine ⟨⟨n + 1, ?_⟩, fun other place hAt => ?_, fun other place hAt => ?_, fun other place hAt => ?_,
      fun other place hAt => ?_⟩
    · rw [List.length_append, hRows, hLength, Nat.succ_mul]
    · rcases hEntry other place hAt with ⟨rfl, rfl⟩ | hOld
      · exact hFits.1
      · exact h.ids other place hOld
    · rcases hEntry other place hAt with ⟨rfl, rfl⟩ | hOld
      · exact ⟨n, hRows⟩
      · exact h.places other place hOld
    · rw [List.length_append]
      rcases hEntry other place hAt with ⟨rfl, rfl⟩ | hOld
      · rw [hLength]
      · exact (h.inside other place hOld).trans (Nat.le_add_right ..)
    · rcases hEntry other place hAt with ⟨rfl, rfl⟩ | hOld
      · rw [structAt_last _ hLength]
        exact hIdentified.idAt_recordData hData
      · rw [structAt_append (h.inside other place hOld)]
        exact h.named other place hOld
  · cases hRest

theorem fillParentLookup_length {last : List UInt8} (h : fillParentLookup t info dataTable = some last) :
    last.length = dataTable.length := by
  refine foldlM_invariant (P := fun bytes => bytes.length = dataTable.length) (fun bytes entry next hLength hNext => ?_)
    h rfl
  obtain ⟨p, -, hField⟩ := Option.bind_eq_some_iff.mp hNext
  obtain ⟨f, -, hWrite⟩ := Option.bind_eq_some_iff.mp hField
  split at hWrite
  · exact (overwrite_length hWrite).trans hLength
  · cases hWrite

theorem Identified.fillParentLookup_ids (hIdentified : Identified t info) {last : List UInt8}
    (h : fillParentLookup t info dataTable = some last) (y : Nat) :
    (last.drop (y * info.getRecordSize + info.idPlace)).take 4 =
      (dataTable.drop (y * info.getRecordSize + info.idPlace)).take 4 := by
  refine foldlM_invariant (P := fun bytes => (bytes.drop (y * info.getRecordSize + info.idPlace)).take 4 =
    (dataTable.drop (y * info.getRecordSize + info.idPlace)).take 4) (fun bytes entry next hSame hNext => ?_) h rfl
  obtain ⟨p, hParent, hRest⟩ := Option.bind_eq_some_iff.mp hNext
  obtain ⟨f, hField, hWrite⟩ := Option.bind_eq_some_iff.mp hRest
  split at hWrite
  · refine (overwrite_apart hWrite ?_).trans hSame
    rw [leBytes_length]
    exact hIdentified.parent_apart hParent hField y entry.2
  · cases hWrite

theorem getMaxId_lt_iff {maxId : Nat} (hMax : getMaxId t info = some maxId)
    (hIds : ∀ y < t.recordCount, ∃ id, recordGetId t info (getRawRecordData t y) y = some id) {bound : Nat}
    (hBound : 0 < bound) : maxId < bound ↔
      (∀ y < t.recordCount, ∀ id, recordGetId t info (getRawRecordData t y) y = some id → id < bound) ∧
        ∀ id ∈ t.newRowIds, id < bound := by
  let idOf : Nat → Nat := fun y => (recordGetId t info (getRawRecordData t y) y).getD 0
  have hFold : (List.range t.recordCount).foldlM
      (fun maxId row => (recordGetId t info (getRawRecordData t row) row).map (max maxId)) 0 =
        some ((List.range t.recordCount).foldl (fun most y => max most (idOf y)) 0) := by
    refine foldlM_eq_some_foldl (fun most y hMem => ?_) 0
    obtain ⟨id, hId⟩ := hIds y (List.mem_range.mp hMem)
    simp only [idOf, hId]
    rfl
  rw [getMaxId, hFold, Option.map_some] at hMax
  obtain rfl := Option.some.inj hMax
  rw [show (max : Nat → Nat → Nat) = fun most a => max most (id a) from rfl, foldl_max_lt, foldl_max_lt]
  refine and_congr ⟨fun hAll y hRecord id hId => ?_, fun hAll => ⟨hBound, fun y hMem => ?_⟩⟩ Iff.rfl
  · have hLt : idOf y < bound := hAll.2 y (List.mem_range.mpr hRecord)
    rwa [show idOf y = id from congrArg (Option.getD · 0) hId] at hLt
  · obtain ⟨id, hId⟩ := hIds y (List.mem_range.mp hMem)
    change idOf y < bound
    rw [show idOf y = id from congrArg (Option.getD · 0) hId]
    exact hAll y (List.mem_range.mp hMem) id hId

theorem newRowId_lt {maxId : Nat} {produced : Produced} (hMax : getMaxId t info = some maxId)
    (hLaid : Laid t info ((maxId + 1) % 2 ^ 32) t.recordCount produced) (hPos : 0 < t.recordCount)
    (hWords : ∀ id ∈ t.newRowIds, id < 2 ^ 32) : ∀ id ∈ t.newRowIds, id < (maxId + 1) % 2 ^ 32 := by
  have hIds : ∀ y < t.recordCount, ∃ id, recordGetId t info (getRawRecordData t y) y = some id ∧
      id < (maxId + 1) % 2 ^ 32 := by
    intro y hRecord
    obtain ⟨id, bytes, hData, hLt, -⟩ := hLaid.rows y hRecord
    rw [recordData] at hData
    obtain ⟨found, hFound, hRest⟩ := Option.bind_eq_some_iff.mp hData
    obtain ⟨cells, -, hPair⟩ := Option.map_eq_some_iff.mp hRest
    obtain ⟨rfl, -⟩ := Prod.mk.inj hPair
    exact ⟨found, hFound, hLt⟩
  have hBound : ∀ {bound : Nat}, 0 < bound → _ := getMaxId_lt_iff hMax fun y hRecord => (hIds y hRecord).imp fun _ h => h.1
  have hSmall : (maxId + 1) % 2 ^ 32 < 2 ^ 32 := Nat.mod_lt _ (by decide)
  obtain ⟨first, -, hFirst⟩ := hIds 0 hPos
  have hWord : maxId < 2 ^ 32 := by
    refine (hBound (by decide)).mpr ⟨fun y hRecord id hId => ?_, hWords⟩
    obtain ⟨same, hSame, hLt⟩ := hIds y hRecord
    obtain rfl := Option.some.inj (hSame.symm.trans hId)
    exact hLt.trans hSmall
  have hNext : (maxId + 1) % 2 ^ 32 = maxId + 1 := by
    -- an index table of no entries has no room for the first record
    omega
  rw [hNext]
  exact ((hBound (Nat.succ_pos maxId)).mp (Nat.lt_succ_self maxId)).2

structure Started (t : Table) (info : Meta) (before : Produced) : Prop extends Entered info before where
  length : before.dataTable.length = t.recordCount * info.getRecordSize
  newRowIds : (∃ id place, before.indexTable id = some place) → ∀ id ∈ t.newRowIds, id < before.records

theorem Identified.started (hIdentified : Identified t info) (hWords : ∀ id ∈ t.newRowIds, id < 2 ^ 32)
    {before : Produced} (h : autoProduceData t info = some before) : Started t info before := by
  obtain ⟨maxId, hMax, hRest⟩ := Option.bind_eq_some_iff.mp h
  obtain ⟨produced, hFold, hFill⟩ := Option.bind_eq_some_iff.mp hRest
  obtain ⟨last, hLast, rfl⟩ := Option.map_eq_some_iff.mp hFill
  have hLaid := laid_of_produced hFold
  have hLength := fillParentLookup_length hLast
  have hEntered : Entered info produced := by
    refine foldlM_invariant (fun s y next hEntered hNext => hIdentified.produceRecord_entered hEntered hNext) hFold
      ⟨⟨0, (Nat.zero_mul _).symm⟩, ?_, ?_, ?_, ?_⟩ <;>
    · intro id place hNone
      cases hNone
  refine ⟨⟨hLength ▸ hEntered.rows, hEntered.ids, hEntered.places, hLength ▸ hEntered.inside, fun id place hAt => ?_⟩,
    hLength.trans hLaid.length, ?_⟩
  · obtain ⟨y, rfl⟩ := hEntered.places id place hAt
    rw [← hEntered.named id _ hAt, idAt_structAt hIdentified, idAt_structAt hIdentified]
    exact hIdentified.fillParentLookup_ids hLast y
  · rintro ⟨id, place, hAt⟩
    have hInside := hEntered.inside id place hAt
    have hPlace := hIdentified.place_inside
    rw [hLaid.length] at hInside
    have hPos : 0 < t.recordCount := by
      refine Nat.pos_of_ne_zero fun hZero => ?_
      rw [hZero, Nat.zero_mul] at hInside
      omega
    rw [show produced.records = (maxId + 1) % 2 ^ 32 from hLaid.count]
    exact newRowId_lt hMax hLaid hPos hWords

end AshamaneCore.DB2
