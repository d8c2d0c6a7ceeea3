import AshamaneCore.Common.DB2Layout
import AshamaneCore.Library.Transition

/-!
# Loaded tables

A table is loaded with the values that its columns denote exactly when no
column is undefined for one of its records, no identifier is the last of all
words, and the loaded structures fit into the table of data.
-/

namespace AshamaneCore.DB2

open Library.Bytes Library.BitFields Library.Transition

variable {t : Table} {info : Meta}

/-- Every element of a column of the file that is no string has the value that it denotes. -/
def Stored (t : Table) (info : Meta) (dataTable : List UInt8) : Prop :=
  ∀ y x z f, y < t.recordCount → x < t.fieldCount → info.fields[x]? = some f → z < f.arraySize →
    f.type.isString = false → denoted t info f.type.size y x z = some (valueAt info dataTable y x z f)

structure Decodable (t : Table) (info : Meta) : Prop where
  columns : ∀ y < t.recordCount, ∀ x < t.fieldCount, ∀ f column, info.fields[x]? = some f →
    t.columnMeta[x]? = some column → f.type.isString = false → 0 < f.arraySize →
      Fits f.type.size column ∧ FindsId t info y column
  ids : ∀ y < t.recordCount, denotedId t info y ≠ some (2 ^ 32 - 1) ∧ ∀ id ∈ t.newRowIds, id ≠ 2 ^ 32 - 1
  room : t.recordCount * info.getRecordSize ≤ dataTableSize t info

/-! ## Values in their width -/

theorem toNat_emod_lt (value : Int) (size : Nat) : (value % 256 ^ size).toNat < 256 ^ size := by
  have hPos : (0 : Int) < 256 ^ size := pow_pos (by decide) size
  have hLt := Int.emod_lt_of_pos value hPos
  have hCast : ((256 ^ size : Nat) : Int) = 256 ^ size := Nat.cast_pow 256 size
  have hNonneg := Int.emod_nonneg value hPos.ne'
  omega

theorem leNat_take_lt (bytes : List UInt8) (size : Nat) : leNat (bytes.take size) < 256 ^ size :=
  lt_of_lt_of_le (leNat_lt _) (Nat.pow_le_pow_right (by decide) (List.length_take_le ..))

theorem denotedValue_some {f : Field} {column : ColumnMeta} {id : Option Nat} {x y z : Nat}
    (hColumn : t.columnMeta[x]? = some column) (hWell : ColumnWell t f column) (hRecord : y < t.recordCount)
    (hElement : z < f.arraySize) (hId : ∀ value, column.compression = .commonData value → id.isSome = true) :
    ∃ value, denotedValue t id f.type.size y x z = some value ∧ value < 256 ^ f.type.size := by
  have hMod : ∀ value, value % 256 ^ f.type.size < 256 ^ f.type.size := fun value =>
    Nat.mod_lt _ (Nat.pow_pos (by decide))
  rw [denotedValue, hColumn, Option.bind_some]
  rw [ColumnWell] at hWell
  cases hCompression : column.compression with
  | none => exact ⟨_, rfl, leNat_take_lt _ _⟩
  | immediate bitOffset bitWidth isSigned =>
    rw [hCompression] at hWell
    cases isSigned with
    | true => exact ⟨_, rfl, toNat_emod_lt _ _⟩
    | false =>
      refine ⟨_, rfl, lt_of_lt_of_le (field_lt ..) ?_⟩
      rw [← two_pow_eight_mul]
      exact Nat.pow_le_pow_right (by decide) hWell.2.1
  | commonData value =>
    obtain ⟨id, rfl⟩ := Option.isSome_iff_exists.mp (hId value hCompression)
    exact ⟨_, rfl, hMod _⟩
  | pallet bitOffset bitWidth =>
    rw [hCompression] at hWell
    dsimp only
    rw [List.getElem?_eq_getElem (hWell.2.2 y hRecord)]
    exact ⟨_, rfl, hMod _⟩
  | palletArray bitOffset bitWidth arraySize =>
    rw [hCompression] at hWell
    obtain ⟨rfl, -, -, hIndex⟩ := hWell
    have hRow := hIndex y hRecord
    rw [Nat.add_mul, Nat.one_mul] at hRow
    have hLt : packedBits t y bitOffset bitWidth * f.arraySize + z < column.palletValues.length := by omega
    dsimp only
    rw [List.getElem?_eq_getElem hLt]
    exact ⟨_, rfl, hMod _⟩

theorem WellFormed.denotedId_some (h : WellFormed t info) {y : Nat} (hRecord : y < t.recordCount) :
    ∃ id, denotedId t info y = some id ∧ id < 2 ^ 32 := by
  rw [denotedId]
  cases hInside : info.indexField with
  | none =>
    obtain ⟨hLength, -⟩ := h.idTable hInside
    have hLt : y < t.idTable.length := by omega
    refine ⟨t.idTable[y], List.getElem?_eq_getElem hLt, h.words _ ?_⟩
    exact List.mem_append_left _ (List.getElem_mem hLt)
  | some x =>
    obtain ⟨hField, hInt, hKind⟩ := h.index x hInside
    obtain ⟨f, column, hSame, hColumn, hWell⟩ := h.columns x hField
    obtain rfl := Option.some.inj (hInt.symm.trans hSame)
    have hNoCommon : ∀ value, column.compression = .commonData value → (none : Option Nat).isSome = true := by
      intro value hCommon
      rcases hKind column hColumn with hNone | ⟨_, _, _, hImmediate⟩
      · cases hNone.symm.trans hCommon
      · cases hImmediate.symm.trans hCommon
    obtain ⟨id, hId, hLt⟩ := denotedValue_some hColumn (hWell rfl) hRecord Nat.one_pos hNoCommon
    exact ⟨id, hId, lt_of_lt_of_le hLt (by decide)⟩

theorem WellFormed.denoted_some (h : WellFormed t info) {f : Field} {x y z : Nat} (hRecord : y < t.recordCount)
    (hField : x < t.fieldCount) (hAt : info.fields[x]? = some f) (hElement : z < f.arraySize)
    (hNumber : f.type.isString = false) :
    ∃ value, denoted t info f.type.size y x z = some value ∧ value < 256 ^ f.type.size := by
  obtain ⟨g, column, hSame, hColumn, hWell⟩ := h.columns x hField
  obtain rfl := Option.some.inj (hAt.symm.trans hSame)
  obtain ⟨id, hId, -⟩ := h.denotedId_some hRecord
  exact denotedValue_some hColumn (hWell hNumber) hRecord hElement fun _ _ => hId ▸ rfl

/-! ## Elements that are read -/

theorem mem_cells {cell : Cell} (h : cell ∈ info.cells) : ∃ f, info.fields[cell.field]? = some f ∧
    cell.arrayIndex < f.arraySize ∧ cell.type = f.type := by
  obtain ⟨⟨f, index⟩, hMem, hCell⟩ := List.mem_flatMap.mp h
  obtain ⟨arrayIndex, hRange, rfl⟩ := List.mem_map.mp hCell
  exact ⟨f, List.mem_zipIdx_iff_getElem?.mp hMem, List.mem_range.mp hRange, rfl⟩

theorem Decodable.indexFits (h : Decodable t info) (hWell : WellFormed t info) {y : Nat} (hRecord : y < t.recordCount) :
    IndexFits t info := by
  intro x column hInside hColumn
  obtain ⟨hField, hInt, -⟩ := hWell.index x hInside
  exact (h.columns y hRecord x hField ⟨.int, 1⟩ column hInt hColumn rfl Nat.one_pos).1

theorem Decodable.recordGetVarInt_eq (h : Decodable t info) (hWell : WellFormed t info) {f : Field} {x y z : Nat}
    (hRecord : y < t.recordCount) (hField : x < t.fieldCount) (hAt : info.fields[x]? = some f)
    (hElement : z < f.arraySize) (hNumber : f.type.isString = false) :
    recordGetVarInt t info f.type.size (getRawRecordData t y) x z = denoted t info f.type.size y x z := by
  obtain ⟨g, column, hSame, hColumn, hColumnWell⟩ := hWell.columns x hField
  obtain rfl := Option.some.inj (hAt.symm.trans hSame)
  obtain ⟨hFits, hFinds⟩ := h.columns y hRecord x hField f column hAt hColumn hNumber (Nat.zero_lt_of_lt hElement)
  exact hWell.recordGetVarInt_denoted (h.indexFits hWell hRecord) hField hColumn (hColumnWell hNumber) hRecord hElement
    hFits hFinds

theorem cellsData_some {y : Nat} {cells : List Cell}
    (h : ∀ cell ∈ cells, ∀ offset, ∃ bytes, cellData t info y offset cell = some bytes) (offset : Nat) :
    ∃ bytes, cellsData t info y offset cells = some bytes := by
  induction cells generalizing offset with
  | nil => exact ⟨[], rfl⟩
  | cons cell cells ih =>
    obtain ⟨bytes, hBytes⟩ := h cell List.mem_cons_self offset
    obtain ⟨rest, hRest⟩ := ih (fun other hMem => h other (List.mem_cons_of_mem _ hMem)) (offset + cell.type.holderSize)
    refine ⟨bytes ++ rest, ?_⟩
    rw [cellsData, hBytes, Option.bind_some, hRest, Option.map_some]

theorem Decodable.cellData_some (h : Decodable t info) (hWell : WellFormed t info) {y : Nat}
    (hRecord : y < t.recordCount) {cell : Cell} (hMem : cell ∈ info.cells) (offset : Nat) :
    ∃ bytes, cellData t info y offset cell = some bytes := by
  obtain ⟨f, hAt, hElement, hType⟩ := mem_cells hMem
  rw [cellData, hType]
  split
  · exact ⟨_, rfl⟩
  · rename_i hString
    split
    · rename_i hField
      have hNumber := (Bool.not_eq_true _).mp hString
      obtain ⟨value, hValue, -⟩ := hWell.denoted_some hRecord hField hAt hElement hNumber
      rw [h.recordGetVarInt_eq hWell hRecord hField hAt hElement hNumber, hValue]
      exact ⟨_, rfl⟩
    · exact ⟨_, rfl⟩

theorem Decodable.recordData_some (h : Decodable t info) (hWell : WellFormed t info) {y : Nat}
    (hRecord : y < t.recordCount) :
    ∃ id bytes, recordData t info y = some (id, bytes) ∧ denotedId t info y = some id := by
  obtain ⟨id, hId, -⟩ := hWell.denotedId_some hRecord
  have hGet := hWell.recordGetId_denoted (h.indexFits hWell hRecord) hRecord
  rw [← getRawRecordData_eq hWell hRecord, hId] at hGet
  obtain ⟨cells, hCells⟩ := cellsData_some (fun cell hMem offset => h.cellData_some hWell hRecord hMem offset) 0
  refine ⟨id, (if info.hasIndexFieldInData then [] else leBytes 4 id) ++ cells, ?_, hId⟩
  rw [recordData, hGet, Option.bind_some, hCells, Option.map_some]

/-! ## Identifiers -/

theorem foldl_max_lt {α : Type*} (value : α → Nat) (labels : List α) (start bound : Nat) :
    labels.foldl (fun most a => max most (value a)) start < bound ↔ start < bound ∧ ∀ a ∈ labels, value a < bound := by
  induction labels generalizing start with
  | nil => simp
  | cons a labels ih =>
    rw [List.foldl_cons, ih, Nat.max_lt, List.forall_mem_cons, and_assoc]

theorem WellFormed.getMaxId_some (h : WellFormed t info) (hIndex : 0 < t.recordCount → IndexFits t info) :
    ∃ maxId, getMaxId t info = some maxId ∧ ∀ bound, 0 < bound →
      (maxId < bound ↔ (∀ y < t.recordCount, ∀ id, denotedId t info y = some id → id < bound) ∧
        ∀ id ∈ t.newRowIds, id < bound) := by
  have hIds : ∀ y < t.recordCount, recordGetId t info (getRawRecordData t y) y =
      some ((denotedId t info y).getD 0) := fun y hRecord => by
    obtain ⟨id, hId, -⟩ := h.denotedId_some hRecord
    rw [getRawRecordData_eq h hRecord, h.recordGetId_denoted (hIndex (Nat.zero_lt_of_lt hRecord)) hRecord, hId]
    rfl
  have hFold : (List.range t.recordCount).foldlM
      (fun maxId row => (recordGetId t info (getRawRecordData t row) row).map (max maxId)) 0 =
        some ((List.range t.recordCount).foldl (fun most y => max most ((denotedId t info y).getD 0)) 0) := by
    refine foldlM_eq_some_foldl (fun most y hMem => ?_) 0
    rw [hIds y (List.mem_range.mp hMem)]
    rfl
  refine ⟨_, congrArg (Option.map _) hFold, fun bound hPos => ?_⟩
  dsimp only
  rw [show (max : Nat → Nat → Nat) = fun most a => max most (id a) from rfl, foldl_max_lt, foldl_max_lt]
  refine and_congr ⟨fun hAll y hRecord id hId => ?_, fun hAll => ⟨hPos, fun y hMem => ?_⟩⟩ Iff.rfl
  · have hLt := hAll.2 y (List.mem_range.mpr hRecord)
    rwa [hId, Option.getD_some] at hLt
  · obtain ⟨id, hId, -⟩ := h.denotedId_some (List.mem_range.mp hMem)
    rw [hId, Option.getD_some]
    exact hAll y (List.mem_range.mp hMem) id hId

/-! ## Parents -/

theorem WellFormed.fillParent_stored (h : WellFormed t info) {dataTable : List UInt8}
    (hLength : dataTable.length = t.recordCount * info.getRecordSize) (hStored : Stored t info dataTable)
    {entry : Nat × Nat} (hEntry : entry ∈ t.parentEntries) : ∃ next, fillParent info dataTable entry = some next ∧
      next.length = t.recordCount * info.getRecordSize ∧ Stored t info next := by
  obtain ⟨p, f, hParent, hField, hWell⟩ := h.parents entry hEntry
  have hPlace : entry.2 * info.getRecordSize + info.getParentIndexFieldOffset p =
      entry.2 * info.getRecordSize + info.elementOffset p 0 f := by rw [Meta.elementOffset, Nat.zero_mul, Nat.add_zero]
  have hInside := elementOffset_inside hField hWell.element
  have hRow : (entry.2 + 1) * info.getRecordSize ≤ t.recordCount * info.getRecordSize :=
    Nat.mul_le_mul_right _ hWell.record
  rw [Nat.succ_mul] at hRow
  have hSome : (fillParent info dataTable entry).isSome = true := by
    rw [fillParent, hParent, Option.bind_some, hField, Option.bind_some, if_pos hWell.type, hPlace, overwrite, if_pos]
    · rfl
    · rw [leBytes_length, hLength]
      omega
  obtain ⟨next, hNext⟩ := Option.isSome_iff_exists.mp hSome
  refine ⟨next, hNext, ?_⟩
  rw [fillParent, hParent, Option.bind_some, hField, Option.bind_some, if_pos hWell.type, hPlace] at hNext
  refine ⟨(overwrite_length hNext).trans hLength, fun y x z g hRecord hColumn hAt hElement hNumber => ?_⟩
  rcases Classical.em (y = entry.2 ∧ x = p ∧ z = 0) with ⟨rfl, rfl, rfl⟩ | hOther
  · obtain rfl := Option.some.inj (hAt.symm.trans hField)
    have hSame := overwrite_same hNext
    rw [leBytes_length] at hSame
    rw [hWell.repeats hColumn, valueAt, hSame, leNat_leBytes]
  · have hApart := places_apart hAt hElement hField hWell.element hOther
    rw [valueAt, overwrite_apart hNext (by rwa [leBytes_length])]
    exact hStored y x z g hRecord hColumn hAt hElement hNumber

theorem WellFormed.fillParents_stored (h : WellFormed t info) {entries : List (Nat × Nat)}
    (hEntries : ∀ entry ∈ entries, entry ∈ t.parentEntries) {dataTable : List UInt8}
    (hLength : dataTable.length = t.recordCount * info.getRecordSize) (hStored : Stored t info dataTable) :
    ∃ last, entries.foldlM (fillParent info) dataTable = some last ∧ Stored t info last := by
  induction entries generalizing dataTable with
  | nil => exact ⟨dataTable, rfl, hStored⟩
  | cons entry entries ih =>
    obtain ⟨hFirst, hRest⟩ := List.forall_mem_cons.mp hEntries
    obtain ⟨next, hNext, hNextLength, hNextStored⟩ := h.fillParent_stored hLength hStored hFirst
    obtain ⟨last, hLast, hLastStored⟩ := ih hRest hNextLength hNextStored
    refine ⟨last, ?_, hLastStored⟩
    rw [List.foldlM_cons, hNext]
    exact hLast

/-! ## The whole table -/

theorem Decodable.laid_stored (h : Decodable t info) (hWell : WellFormed t info) {records : Nat} {produced : Produced}
    (hLaid : Laid t info records t.recordCount produced) : Stored t info produced.dataTable := by
  intro y x z f hRecord hColumn hAt hElement hNumber
  obtain ⟨offset, piece, hPiece, hValue⟩ := hLaid.valueAt hRecord hAt hElement
  obtain ⟨value, hDenoted, hLt⟩ := hWell.denoted_some hRecord hColumn hAt hElement hNumber
  rw [cellData, hNumber, if_neg Bool.false_ne_true, if_pos hColumn,
    h.recordGetVarInt_eq hWell hRecord hColumn hAt hElement hNumber, hDenoted, Option.map_some] at hPiece
  rw [hValue, ← Option.some.inj hPiece, leNat_leBytes, Nat.mod_eq_of_lt hLt, hDenoted]

theorem WellFormed.columns_of_laid (h : WellFormed t info) {records : Nat} {produced : Produced}
    (hLaid : Laid t info records t.recordCount produced) : ∀ y < t.recordCount, ∀ x < t.fieldCount, ∀ f column,
      info.fields[x]? = some f → t.columnMeta[x]? = some column → f.type.isString = false → 0 < f.arraySize →
        Fits f.type.size column ∧ FindsId t info y column := by
  intro y hRecord x hColumn f column hAt hMeta hNumber hElement
  obtain ⟨offset, piece, hPiece, -⟩ := hLaid.valueAt hRecord hAt hElement
  rw [cellData, hNumber, if_neg Bool.false_ne_true, if_pos hColumn] at hPiece
  obtain ⟨value, hValue, -⟩ := Option.map_eq_some_iff.mp hPiece
  exact ⟨fits_of_columnValue hMeta hValue, h.findsId_of_recordGetVarInt hMeta hRecord hValue⟩

theorem WellFormed.decodable (h : WellFormed t info) {produced : Produced}
    (hProduced : autoProduceData t info = some produced) : Decodable t info := by
  obtain ⟨maxId, hMax, hRest⟩ := Option.bind_eq_some_iff.mp hProduced
  obtain ⟨before, hFold, -⟩ := Option.bind_eq_some_iff.mp hRest
  have hLaid := laid_of_produced hFold
  have hColumns := h.columns_of_laid hLaid
  refine ⟨hColumns, fun y hRecord => ?_, hLaid.room⟩
  have hIndex : IndexFits t info := fun x column hInside hColumn => by
    obtain ⟨hField, hInt, -⟩ := h.index x hInside
    exact (hColumns y hRecord x hField ⟨.int, 1⟩ column hInt hColumn rfl Nat.one_pos).1
  obtain ⟨most, hMost, hBound⟩ := h.getMaxId_some fun _ => hIndex
  obtain rfl := Option.some.inj (hMax.symm.trans hMost)
  have hWord : maxId < 2 ^ 32 := by
    rw [hBound _ (by decide)]
    refine ⟨fun z hLater id hId => ?_, fun id hMem => h.words id (List.mem_append_right _ hMem)⟩
    obtain ⟨other, hOther, hLt⟩ := h.denotedId_some hLater
    exact Option.some.inj (hOther.symm.trans hId) ▸ hLt
  obtain ⟨id, bytes, -, hLt, -⟩ := hLaid.rows y hRecord
  have hLast : maxId < 2 ^ 32 - 1 := by
    by_contra hNot
    have hWrap : maxId + 1 = 2 ^ 32 := by omega
    rw [hWrap, Nat.mod_self] at hLt
    exact Nat.not_lt_zero _ hLt
  obtain ⟨hIds, hCopies⟩ := (hBound _ (by decide)).mp hLast
  exact ⟨fun hId => Nat.lt_irrefl _ (hIds y hRecord _ hId), fun id hMem => (hCopies id hMem).ne⟩

theorem Decodable.id_lt (h : Decodable t info) (hWell : WellFormed t info) {maxId : Nat}
    (hBound : ∀ bound, 0 < bound → (maxId < bound ↔
      (∀ y < t.recordCount, ∀ id, denotedId t info y = some id → id < bound) ∧ ∀ id ∈ t.newRowIds, id < bound))
    {y id : Nat} (hRecord : y < t.recordCount) (hId : denotedId t info y = some id) : id < (maxId + 1) % 2 ^ 32 := by
  have hLe := ((hBound (maxId + 1) (Nat.succ_pos _)).mp (Nat.lt_succ_self _)).1 y hRecord id hId
  have hLast : maxId < 2 ^ 32 - 1 := by
    rw [hBound _ (by decide)]
    refine ⟨fun z hLater other hOther => ?_, fun other hMem => ?_⟩
    · obtain ⟨same, hSame, hLt⟩ := hWell.denotedId_some hLater
      obtain rfl := Option.some.inj (hSame.symm.trans hOther)
      have hNe : same ≠ 2 ^ 32 - 1 := fun hEq => (h.ids z hLater).1 (hEq ▸ hSame)
      omega
    · have hLt := hWell.words other (List.mem_append_right _ hMem)
      have hNe := (h.ids y hRecord).2 other hMem
      omega
  rw [Nat.mod_eq_of_lt (by omega)]
  exact hLe

theorem Decodable.produced (h : Decodable t info) (hWell : WellFormed t info) :
    ∃ produced, autoProduceData t info = some produced ∧ Stored t info produced.dataTable := by
  obtain ⟨maxId, hMax, hBound⟩ := hWell.getMaxId_some fun hPos => h.indexFits hWell hPos
  have hRows : ∀ y < t.recordCount, ∃ id bytes, recordData t info y = some (id, bytes) ∧ id < (maxId + 1) % 2 ^ 32 := by
    intro y hRecord
    obtain ⟨id, bytes, hData, hId⟩ := h.recordData_some hWell hRecord
    exact ⟨id, bytes, hData, h.id_lt hWell hBound hRecord hId⟩
  obtain ⟨produced, hFold⟩ := exists_produced hRows h.room
  have hLaid := laid_of_produced hFold
  obtain ⟨last, hLast, hStored⟩ := hWell.fillParents_stored (fun _ hMem => hMem) hLaid.length
    (h.laid_stored hWell hLaid)
  refine ⟨{ produced with dataTable := last }, ?_, hStored⟩
  rw [autoProduceData, hMax, Option.bind_some, hFold, Option.bind_some, fillParentLookup, hLast, Option.map_some]

/-- A table is loaded as it is denoted exactly when nothing in it is undefined. -/
theorem autoProduceData_stored_iff (t : Table) (info : Meta) (h : WellFormed t info) :
    (∃ produced, autoProduceData t info = some produced ∧ Stored t info produced.dataTable) ↔ Decodable t info :=
  ⟨fun ⟨_, hProduced, _⟩ => h.decodable hProduced, fun hDecodable => hDecodable.produced h⟩

/-! ### A table with a signed column and common values -/

def rankMeta : Meta := ⟨[⟨.byte, 1⟩, ⟨.int, 1⟩], none, none⟩

def rankColumns : List ColumnMeta :=
  [⟨3, .immediate 3 5 true, [], fun _ => none⟩, ⟨8, .commonData 7, [], fun id => if id = 9 then some 40 else none⟩]

/-- Records of one byte, with eight bytes of strings behind them. -/
def rankTable (ids : List Nat) : Table :=
  { recordCount := ids.length, fieldCount := 2, recordSize := 1, packedDataOffset := 0
    data := ids.map (fun _ => 0xF8) ++ List.replicate 8 0
    idTable := ids, newRowIds := [], columnMeta := rankColumns, parentEntries := [] }

example : (autoProduceData (rankTable [9]) rankMeta).map Produced.dataTable = some [9, 0, 0, 0, 255, 40, 0, 0, 0] := by
  decide +kernel

theorem rankTable_wellFormed {ids : List Nat} (hLength : ids.length ≤ 2) (hWords : ∀ id ∈ ids, id < 2 ^ 32) :
    WellFormed (rankTable ids) rankMeta where
  columns x hColumn := by
    have hTwo : x < 2 := hColumn
    obtain rfl | rfl : x = 0 ∨ x = 1 := by omega
    · have hWindow : 0 * 8 + 3 < 2 ^ 16 := by decide
      refine ⟨_, _, rfl, rfl, fun _ => ⟨le_rfl, by decide, ⟨fun y hRecord => ?_, hWindow⟩⟩⟩
      have hLt : y < ids.length := hRecord
      have hData : (rankTable ids).data.length = ids.length + 8 := by
        simp [rankTable]
      rw [hData]
      change y * 1 + (3 / 8 + 0) + 8 ≤ ids.length + 8
      omega
    · exact ⟨_, _, rfl, rfl, fun _ => trivial⟩
  idTable _ := ⟨rfl, by change 4 * ids.length < 2 ^ 32; omega⟩
  index _ hInside := by cases hInside
  words id hMem := hWords id (by rwa [← List.append_nil ids])
  size := by
    change ids.length * 1 < 2 ^ 32
    omega
  parents _ hMem := (List.not_mem_nil hMem).elim

theorem rankTable_nine : ∃ produced, autoProduceData (rankTable [9]) rankMeta = some produced ∧
    Stored (rankTable [9]) rankMeta produced.dataTable := by
  have hWell : WellFormed (rankTable [9]) rankMeta := rankTable_wellFormed (by decide) (by decide)
  refine (autoProduceData_stored_iff _ _ hWell).mpr ⟨fun y hRecord x hColumn f column hField hMeta _ _ => ?_,
    fun y hRecord => ?_, by decide⟩
  · have hTwo : x < 2 := hColumn
    obtain rfl | rfl : x = 0 ∨ x = 1 := by omega
    · obtain rfl := Option.some.inj hField
      obtain rfl := Option.some.inj hMeta
      have hFits : 0 < 5 ∧ 3 % 8 + 5 ≤ 64 := by decide
      exact ⟨hFits, fun value hCommon => by cases hCommon⟩
    · obtain rfl := Option.some.inj hField
      obtain rfl := Option.some.inj hMeta
      have hFits : 4 ≤ 4 := le_rfl
      exact ⟨hFits, fun value _ => ⟨Nat.one_pos, fun _ => Nat.lt_one_iff.mp hRecord⟩⟩
  · obtain rfl : y = 0 := Nat.lt_one_iff.mp hRecord
    exact ⟨by decide, fun id hMem => (List.not_mem_nil hMem).elim⟩

/-- The identifier of the second record is looked up far behind the table of identifiers. -/
theorem second_record_not_found : WellFormed (rankTable [5, 9]) rankMeta ∧
    ¬ ∃ produced, autoProduceData (rankTable [5, 9]) rankMeta = some produced ∧
      Stored (rankTable [5, 9]) rankMeta produced.dataTable := by
  refine ⟨rankTable_wellFormed (by decide) (by decide), ?_⟩
  rintro ⟨produced, hProduced, -⟩
  have hNone : autoProduceData (rankTable [5, 9]) rankMeta = none := by decide +kernel
  cases hNone.symm.trans hProduced

end AshamaneCore.DB2
