import AshamaneCore.Library.BitFields
import AshamaneCore.Library.Bytes
import Mathlib.Algebra.Ring.Int.Defs
import Mathlib.Logic.Function.Basic

/-!
# Loading of client tables

The records of a table are bytes, and the meta of each column tells how its
values are encoded. What C++ leaves undefined (reads and shifts out of range,
values that are not initialised, failed assertions) gives none here.
-/

namespace AshamaneCore.DB2

open Library.Bytes

/-! ## The description of a table -/

inductive FieldType
  | string
  | stringNotLocalized
  | float
  | int
  | byte
  | short
  | long
  deriving DecidableEq

def totalLocales : Nat := 12

namespace FieldType

def size : FieldType → Nat
  | string | stringNotLocalized | long => 8
  | float | int => 4
  | short => 2
  | byte => 1

def isString : FieldType → Bool
  | string | stringNotLocalized => true
  | _ => false

/-- The size of a holder of strings, one for each locale or one for all. -/
def holderSize : FieldType → Nat
  | string => totalLocales * 8
  | stringNotLocalized => 8
  | _ => 0

end FieldType

structure Field where
  type : FieldType
  arraySize : Nat
  deriving DecidableEq

/-- The description of a loaded structure, with its fields in the order of the file. -/
structure Meta where
  fields : List Field
  indexField : Option Nat
  parentIndexField : Option Nat

structure Cell where
  field : Nat
  arrayIndex : Nat
  type : FieldType

namespace Meta

variable (info : Meta)

def hasIndexFieldInData : Bool := info.indexField.isSome

def indexSize : Nat := if info.hasIndexFieldInData then 0 else 4

def sizeOf (fields : List Field) : Nat := (fields.map fun field => field.arraySize * field.type.size).sum

def getRecordSize : Nat := sizeOf info.fields + info.indexSize

def getParentIndexFieldOffset (parentIndexField : Nat) : Nat := info.indexSize + sizeOf (info.fields.take parentIndexField)

def fieldCells (field : Field) (index : Nat) : List Cell :=
  (List.range field.arraySize).map fun arrayIndex => ⟨index, arrayIndex, field.type⟩

def cells : List Cell := info.fields.zipIdx.flatMap fun p => fieldCells p.1 p.2

def stringHoldersRecordPoolSize : Nat := (info.cells.map fun cell => cell.type.holderSize).sum

end Meta

/-! ## A table as it was read -/

inductive Compression
  | none
  | immediate (bitOffset bitWidth : Nat) (signed : Bool)
  | commonData (value : Nat)
  | pallet (bitOffset bitWidth : Nat)
  | palletArray (bitOffset bitWidth arraySize : Nat)
  deriving DecidableEq

structure ColumnMeta where
  bitOffset : Nat
  compression : Compression
  palletValues : List Nat
  commonValues : Nat → Option Nat

structure Table where
  recordCount : Nat
  fieldCount : Nat
  recordSize : Nat
  packedDataOffset : Nat
  data : List UInt8
  idTable : List Nat
  newRowIds : List Nat
  columnMeta : List ColumnMeta
  /-- The identifiers of parents, each with the index of its record. -/
  parentEntries : List (Nat × Nat)

/-! ## Values of columns -/

section

variable (t : Table)

def Table.read (position size : Nat) : Option Nat :=
  if position + size ≤ t.data.length then some (leNat ((t.data.drop position).take size)) else none

/-- A window of eight bytes is shifted up and down; shifts by the size of the word or more are undefined. -/
def recordGetPackedValue (packedRecordData bitWidth bitOffset : Nat) : Option (BitVec 64) :=
  if 0 < bitWidth ∧ bitOffset % 8 + bitWidth ≤ 64 then
    (t.read packedRecordData 8).map fun word =>
      BitVec.ofNat 64 word <<< (64 - bitOffset % 8 - bitWidth) >>> (64 - bitWidth)
  else none

def getFieldOffset (column : ColumnMeta) : Nat :=
  match column.compression with
  | .none => column.bitOffset / 8
  | .immediate bitOffset _ _ => (bitOffset / 8 + t.packedDataOffset) % 2 ^ 16
  | .commonData _ => 0xFFFF
  | .pallet bitOffset _ => (bitOffset / 8 + t.packedDataOffset) % 2 ^ 16
  | .palletArray bitOffset _ _ => (bitOffset / 8 + t.packedDataOffset) % 2 ^ 16

def extendSign (bitWidth : Nat) (value : BitVec 64) : BitVec 64 :=
  (value ^^^ (1#64 <<< (bitWidth - 1))) - (1#64 <<< (bitWidth - 1))

/-- Four bytes are copied; the rest of a value of eight bytes is not initialised. -/
def copyWord (size value : Nat) : Option Nat := if size ≤ 4 then some (value % 256 ^ size) else none

def columnValue (id : Option Nat) (size record field arrayIndex : Nat) : Option Nat :=
  if field < t.fieldCount then
    t.columnMeta[field]?.bind fun column =>
      match column.compression with
      | .none => t.read (record + getFieldOffset t column + size * arrayIndex) size
      | .immediate bitOffset bitWidth signed =>
        if arrayIndex = 0 then
          (recordGetPackedValue t (record + getFieldOffset t column) bitWidth bitOffset).map fun value =>
            (if signed then extendSign bitWidth value else value).toNat % 256 ^ size
        else none
      | .commonData value => id.bind fun id => copyWord size ((column.commonValues id).getD value)
      | .pallet bitOffset bitWidth =>
        if arrayIndex = 0 then
          (recordGetPackedValue t (record + getFieldOffset t column) bitWidth bitOffset).bind fun index =>
            column.palletValues[index.toNat]?.bind (copyWord size)
        else none
      | .palletArray bitOffset bitWidth arraySize =>
        (recordGetPackedValue t (record + getFieldOffset t column) bitWidth bitOffset).bind fun index =>
          column.palletValues[(index.toNat * arraySize + arrayIndex) % 2 ^ 64]?.bind (copyWord size)
  else none

def getRawRecordData (recordNumber : Nat) : Nat := recordNumber * t.recordSize % 2 ^ 32

/-- The index of a record as it is computed from where the record lies: the data less the record, divided
by the size of records. -/
def recordIndex (record : Nat) : Option Nat :=
  if t.recordSize = 0 then none
  else some (Int.tdiv (-(record : Int)) t.recordSize % 2 ^ 32).toNat

variable (info : Meta)

def recordGetId (record recordIndex : Nat) : Option Nat :=
  match info.indexField with
  | some indexField => columnValue t none 4 record indexField 0
  | none => t.idTable[recordIndex]?

def recordGetVarInt (size record field arrayIndex : Nat) : Option Nat :=
  columnValue t ((recordIndex t record).bind (recordGetId t info record)) size record field arrayIndex

def getMaxId : Option Nat :=
  ((List.range t.recordCount).foldlM
    (fun maxId row => (recordGetId t info (getRawRecordData t row) row).map (max maxId)) 0).map fun maxId =>
      t.newRowIds.foldl max maxId

end

/-! ## The loaded structures -/

structure Produced where
  records : Nat
  indexTable : Nat → Option Nat
  dataTable : List UInt8

section

variable (t : Table) (info : Meta)

/-- An element of a record; fields behind those of the file are zero until their parents are looked up. -/
def cellData (y stringFieldOffset : Nat) (cell : Cell) : Option (List UInt8) :=
  if cell.type.isString then some (leBytes 8 (info.stringHoldersRecordPoolSize * y + stringFieldOffset))
  else if cell.field < t.fieldCount then
    (recordGetVarInt t info cell.type.size (getRawRecordData t y) cell.field cell.arrayIndex).map
      (leBytes cell.type.size)
  else some (leBytes cell.type.size 0)

def cellsData (y : Nat) : (stringFieldOffset : Nat) → List Cell → Option (List UInt8)
  | _, [] => some []
  | stringFieldOffset, cell :: cells =>
    (cellData t info y stringFieldOffset cell).bind fun bytes =>
      (cellsData y (stringFieldOffset + cell.type.holderSize) cells).map fun rest => bytes ++ rest

def recordData (y : Nat) : Option (Nat × List UInt8) :=
  (recordGetId t info (getRawRecordData t y) y).bind fun indexVal =>
    (cellsData t info y 0 info.cells).map fun bytes =>
      (indexVal, (if info.hasIndexFieldInData then [] else leBytes 4 indexVal) ++ bytes)

def dataTableSize : Nat := (t.recordCount + t.newRowIds.length) * info.getRecordSize % 2 ^ 32

def produceRecord (produced : Produced) (y : Nat) : Option Produced :=
  (recordData t info y).bind fun (indexVal, bytes) =>
    if indexVal < produced.records ∧ produced.dataTable.length + bytes.length ≤ dataTableSize t info then
      some { produced with
        indexTable := Function.update produced.indexTable indexVal (some produced.dataTable.length)
        dataTable := produced.dataTable ++ bytes }
    else none

def overwrite (bytes : List UInt8) (position : Nat) (value : List UInt8) : Option (List UInt8) :=
  if position + value.length ≤ bytes.length then
    some (bytes.take position ++ value ++ bytes.drop (position + value.length))
  else none

def fillParent (dataTable : List UInt8) (entry : Nat × Nat) : Option (List UInt8) :=
  info.parentIndexField.bind fun parentIndexField => info.fields[parentIndexField]?.bind fun field =>
    if field.type = .short ∨ field.type = .byte ∨ field.type = .int then
      overwrite dataTable (entry.2 * info.getRecordSize + info.getParentIndexFieldOffset parentIndexField)
        (leBytes field.type.size entry.1)
    else none

def fillParentLookup (dataTable : List UInt8) : Option (List UInt8) := t.parentEntries.foldlM (fillParent info) dataTable

def autoProduceData : Option Produced :=
  (getMaxId t info).bind fun maxId =>
    ((List.range t.recordCount).foldlM (produceRecord t info) ⟨(maxId + 1) % 2 ^ 32, fun _ => none, []⟩).bind
      fun produced => (fillParentLookup t info produced.dataTable).map fun dataTable =>
        { produced with dataTable := dataTable }

end

/-!
## What columns denote

The packed area of a record is one long number, and the column of a field is
some of its bits, an entry of a pallet at an index that is packed so, or a
value that many records have in common. The loader reads the same unless it
shifts too far, leaves half of a long value open, or misses the identifier.
-/

open Library.Bytes Library.BitFields

/-! ## Denotation -/

section

variable (t : Table) (info : Meta)

def packedBits (y bitOffset bitWidth : Nat) : Nat :=
  field (leNat (t.data.drop (y * t.recordSize + t.packedDataOffset))) bitOffset bitWidth

/-- The value of a record with some identifier, as the encoding of the column has it. -/
def denotedValue (id : Option Nat) (size y x z : Nat) : Option Nat :=
  t.columnMeta[x]?.bind fun column =>
    match column.compression with
    | .none => some (leNat ((t.data.drop (y * t.recordSize + column.bitOffset / 8 + size * z)).take size))
    | .immediate bitOffset bitWidth isSigned =>
      if isSigned then some (signed (packedBits t y bitOffset bitWidth) bitWidth % 256 ^ size).toNat
      else some (packedBits t y bitOffset bitWidth)
    | .commonData value => id.map fun id => (column.commonValues id).getD value % 256 ^ size
    | .pallet bitOffset bitWidth => column.palletValues[packedBits t y bitOffset bitWidth]?.map (· % 256 ^ size)
    | .palletArray bitOffset bitWidth arraySize =>
      column.palletValues[packedBits t y bitOffset bitWidth * arraySize + z]?.map (· % 256 ^ size)

def denotedId (y : Nat) : Option Nat :=
  match info.indexField with
  | some indexField => denotedValue t none 4 y indexField 0
  | none => t.idTable[y]?

def denoted (size y x z : Nat) : Option Nat := denotedValue t (denotedId t info y) size y x z

/-! ## Well-formed tables -/

/-- The windows of a packed column lie in the data, and its place in a record is counted in bits. -/
structure Window (bitOffset : Nat) : Prop where
  inside : ∀ y < t.recordCount, y * t.recordSize + (bitOffset / 8 + t.packedDataOffset) + 8 ≤ t.data.length
  place : t.packedDataOffset * 8 + bitOffset < 2 ^ 16

def ColumnWell (f : Field) (column : ColumnMeta) : Prop :=
  match column.compression with
  | .none => ∀ y < t.recordCount, ∀ z < f.arraySize,
      y * t.recordSize + column.bitOffset / 8 + f.type.size * z + f.type.size ≤ t.data.length
  | .immediate bitOffset bitWidth _ => f.arraySize ≤ 1 ∧ bitWidth ≤ 8 * f.type.size ∧ Window t bitOffset
  | .commonData _ => True
  | .pallet bitOffset bitWidth => f.arraySize ≤ 1 ∧ Window t bitOffset ∧
      ∀ y < t.recordCount, packedBits t y bitOffset bitWidth < column.palletValues.length
  | .palletArray bitOffset bitWidth arraySize => arraySize = f.arraySize ∧ Window t bitOffset ∧
      column.palletValues.length < 2 ^ 32 ∧
      ∀ y < t.recordCount, (packedBits t y bitOffset bitWidth + 1) * arraySize ≤ column.palletValues.length

/-- The lookup of a parent is for a record, and repeats the field when the field is in the file. -/
structure ParentWell (entry : Nat × Nat) (p : Nat) (f : Field) : Prop where
  record : entry.2 < t.recordCount
  element : 0 < f.arraySize
  type : f.type = .short ∨ f.type = .byte ∨ f.type = .int
  repeats : p < t.fieldCount → denoted t info f.type.size entry.2 p 0 = some (entry.1 % 256 ^ f.type.size)

structure WellFormed : Prop where
  columns : ∀ x < t.fieldCount, ∃ f column, info.fields[x]? = some f ∧ t.columnMeta[x]? = some column ∧
    (f.type.isString = false → ColumnWell t f column)
  idTable : info.indexField = none → t.idTable.length = t.recordCount ∧ 4 * t.recordCount < 2 ^ 32
  index : ∀ x, info.indexField = some x → x < t.fieldCount ∧ info.fields[x]? = some ⟨.int, 1⟩ ∧
    ∀ column, t.columnMeta[x]? = some column →
      column.compression = .none ∨ ∃ bitOffset bitWidth isSigned,
        column.compression = .immediate bitOffset bitWidth isSigned
  words : ∀ id ∈ t.idTable ++ t.newRowIds, id < 2 ^ 32
  size : t.recordCount * t.recordSize < 2 ^ 32
  parents : ∀ entry ∈ t.parentEntries, ∃ p f, info.parentIndexField = some p ∧ info.fields[p]? = some f ∧
    ParentWell t info entry p f

/-! ## Where the loader reads what is denoted -/

/-- The shifts stay in the word, and no more than four bytes are taken from a pallet or a common value. -/
def Fits (size : Nat) (column : ColumnMeta) : Prop :=
  match column.compression with
  | .none => True
  | .immediate bitOffset bitWidth _ => 0 < bitWidth ∧ bitOffset % 8 + bitWidth ≤ 64
  | .commonData _ => size ≤ 4
  | .pallet bitOffset bitWidth => 0 < bitWidth ∧ bitOffset % 8 + bitWidth ≤ 64 ∧ size ≤ 4
  | .palletArray bitOffset bitWidth _ => 0 < bitWidth ∧ bitOffset % 8 + bitWidth ≤ 64 ∧ size ≤ 4

/-- Common values find the identifier in the record, or that of the first record in the table. -/
def FindsId (y : Nat) (column : ColumnMeta) : Prop :=
  ∀ value, column.compression = .commonData value → 0 < t.recordSize ∧ (info.indexField = none → y = 0)

end

variable {t : Table} {info : Meta}

theorem two_pow_eight_mul (k : Nat) : 2 ^ (8 * k) = 256 ^ k := by rw [Nat.pow_mul]

variable {y bitOffset bitWidth : Nat}

theorem recordGetPackedValue_bits
    (hInside : y * t.recordSize + (bitOffset / 8 + t.packedDataOffset) + 8 ≤ t.data.length)
    (hPos : 0 < bitWidth) (hWidth : bitOffset % 8 + bitWidth ≤ 64) :
    ∃ value, recordGetPackedValue t (y * t.recordSize + (bitOffset / 8 + t.packedDataOffset)) bitWidth bitOffset =
      some value ∧ value.toNat = packedBits t y bitOffset bitWidth := by
  have hPlace : y * t.recordSize + (bitOffset / 8 + t.packedDataOffset) =
      y * t.recordSize + t.packedDataOffset + bitOffset / 8 := by omega
  rw [hPlace] at hInside ⊢
  rw [recordGetPackedValue, if_pos ⟨hPos, hWidth⟩, Table.read, if_pos hInside, Option.map_some]
  refine ⟨_, rfl, ?_⟩
  have hArea : bitOffset / 8 ≤ (t.data.drop (y * t.recordSize + t.packedDataOffset)).length := by
    rw [List.length_drop]
    omega
  have hWindow : 8 ≤ (t.data.drop (y * t.recordSize + t.packedDataOffset + bitOffset / 8)).length := by
    rw [List.length_drop]
    omega
  have hBits : 8 * (bitOffset / 8) + bitOffset % 8 = bitOffset := Nat.div_add_mod bitOffset 8
  rw [toNat_shift_pair _ hWidth, BitVec.toNat_ofNat, field_mod _ hWidth, leNat_take _ hWindow, ← two_pow_eight_mul,
    field_mod _ hWidth, ← List.drop_drop, leNat_drop _ hArea, ← two_pow_eight_mul, field_div, hBits, packedBits]

variable {column : ColumnMeta}

theorem getFieldOffset_packed (hWindow : Window t bitOffset)
    (h : getFieldOffset t column = (bitOffset / 8 + t.packedDataOffset) % 2 ^ 16) :
    getFieldOffset t column = bitOffset / 8 + t.packedDataOffset := by
  have hPlace := hWindow.place
  rw [h, Nat.mod_eq_of_lt]
  omega

variable {size : Nat}

theorem extendSign_toNat {value : BitVec 64} (hPos : 0 < bitWidth) (hWidth : bitWidth ≤ 64)
    (hSize : size ≤ 8) (h : value.toNat < 2 ^ bitWidth) :
    (extendSign bitWidth value).toNat % 256 ^ size = (signed value.toNat bitWidth % 256 ^ size).toNat := by
  have hExtend := toInt_extend value hPos hWidth h
  have hDvd : (256 ^ size : Int) ∣ 2 ^ 64 := by
    have hSplit : (2 : Int) ^ 64 = 256 ^ 8 := by norm_num
    rw [hSplit]
    exact pow_dvd_pow 256 hSize
  have hMod : ((extendSign bitWidth value).toNat : Int) % 256 ^ size = signed value.toNat bitWidth % 256 ^ size := by
    rw [extendSign, hExtend, Int.emod_emod_of_dvd _ hDvd]
  have hCast : ((256 ^ size : Nat) : Int) = 256 ^ size := Nat.cast_pow 256 size
  rw [← hMod, ← hCast, ← Int.natCast_emod, Int.toNat_natCast]

theorem type_size_le (type : FieldType) : type.size ≤ 8 := by cases type <;> decide

variable {x z : Nat}

theorem columnValue_denoted {f : Field} (id : Option Nat)
    (hField : x < t.fieldCount) (hColumn : t.columnMeta[x]? = some column) (hWell : ColumnWell t f column)
    (hRecord : y < t.recordCount) (hElement : z < f.arraySize) (hFits : Fits f.type.size column) :
    columnValue t id f.type.size (y * t.recordSize) x z = denotedValue t id f.type.size y x z := by
  rw [columnValue, if_pos hField, denotedValue, hColumn, Option.bind_some, Option.bind_some]
  rw [ColumnWell] at hWell
  rw [Fits] at hFits
  cases hCompression : column.compression with
  | none =>
    rw [hCompression] at hWell
    have hOffset : getFieldOffset t column = column.bitOffset / 8 := by rw [getFieldOffset, hCompression]
    dsimp only
    rw [hOffset, Table.read, if_pos (hWell y hRecord z hElement)]
  | immediate bitOffset bitWidth isSigned =>
    rw [hCompression] at hWell hFits
    obtain ⟨hSingle, hType, hWindow⟩ := hWell
    obtain rfl : z = 0 := by omega
    obtain ⟨value, hValue, hBits⟩ := recordGetPackedValue_bits (hWindow.inside y hRecord) hFits.1 hFits.2
    have hOffset : getFieldOffset t column = bitOffset / 8 + t.packedDataOffset :=
      getFieldOffset_packed hWindow (by rw [getFieldOffset, hCompression])
    have hLt : value.toNat < 2 ^ bitWidth := by
      rw [hBits]
      exact field_lt ..
    dsimp only
    rw [if_pos rfl, hOffset, hValue, Option.map_some]
    cases isSigned with
    | true =>
      rw [if_pos rfl, if_pos rfl, extendSign_toNat hFits.1 (by omega) (type_size_le f.type) hLt, hBits]
    | false =>
      have hSmall : value.toNat < 256 ^ f.type.size := by
        rw [← two_pow_eight_mul]
        exact lt_of_lt_of_le hLt (Nat.pow_le_pow_right (by decide) hType)
      rw [if_neg Bool.false_ne_true, if_neg Bool.false_ne_true, Nat.mod_eq_of_lt hSmall, hBits]
  | commonData value =>
    rw [hCompression] at hFits
    have hSize : f.type.size ≤ 4 := hFits
    dsimp only
    simp only [copyWord, if_pos hSize]
    cases id <;> rfl
  | pallet bitOffset bitWidth =>
    rw [hCompression] at hWell hFits
    obtain ⟨hSingle, hWindow, hIndex⟩ := hWell
    obtain rfl : z = 0 := by omega
    obtain ⟨value, hValue, hBits⟩ := recordGetPackedValue_bits (hWindow.inside y hRecord) hFits.1 hFits.2.1
    have hOffset : getFieldOffset t column = bitOffset / 8 + t.packedDataOffset :=
      getFieldOffset_packed hWindow (by rw [getFieldOffset, hCompression])
    dsimp only
    rw [if_pos rfl, hOffset, hValue, Option.bind_some, hBits, List.getElem?_eq_getElem (hIndex y hRecord),
      Option.bind_some, Option.map_some, copyWord, if_pos hFits.2.2]
  | palletArray bitOffset bitWidth arraySize =>
    rw [hCompression] at hWell hFits
    obtain ⟨rfl, hWindow, hLength, hIndex⟩ := hWell
    obtain ⟨value, hValue, hBits⟩ := recordGetPackedValue_bits (hWindow.inside y hRecord) hFits.1 hFits.2.1
    have hOffset : getFieldOffset t column = bitOffset / 8 + t.packedDataOffset :=
      getFieldOffset_packed hWindow (by rw [getFieldOffset, hCompression])
    have hLt : packedBits t y bitOffset bitWidth * f.arraySize + z < column.palletValues.length := by
      have hRow := hIndex y hRecord
      rw [Nat.add_mul, Nat.one_mul] at hRow
      omega
    dsimp only
    rw [hOffset, hValue, Option.bind_some, hBits, Nat.mod_eq_of_lt (by omega), List.getElem?_eq_getElem hLt,
      Option.bind_some, Option.map_some, copyWord, if_pos hFits.2.2]

theorem recordGetPackedValue_some {position : Nat} {value : BitVec 64}
    (h : recordGetPackedValue t position bitWidth bitOffset = some value) :
    0 < bitWidth ∧ bitOffset % 8 + bitWidth ≤ 64 := by
  rw [recordGetPackedValue] at h
  split at h
  · assumption
  · cases h

variable {value : Nat}

theorem copyWord_some {copied : Nat} (h : copyWord size value = some copied) : size ≤ 4 := by
  rw [copyWord] at h
  split at h
  · assumption
  · cases h

theorem fits_of_columnValue {id : Option Nat} {record : Nat}
    (hColumn : t.columnMeta[x]? = some column) (h : columnValue t id size record x z = some value) :
    Fits size column := by
  rw [columnValue, hColumn, Option.bind_some] at h
  split at h
  · rw [Fits]
    cases hCompression : column.compression with
    | none => trivial
    | immediate bitOffset bitWidth isSigned =>
      simp only [hCompression] at h
      split at h
      · obtain ⟨packed, hPacked, -⟩ := Option.map_eq_some_iff.mp h
        exact recordGetPackedValue_some hPacked
      · cases h
    | commonData common =>
      simp only [hCompression] at h
      obtain ⟨id, -, hCopy⟩ := Option.bind_eq_some_iff.mp h
      exact copyWord_some hCopy
    | pallet bitOffset bitWidth =>
      simp only [hCompression] at h
      split at h
      · obtain ⟨packed, hPacked, hEntry⟩ := Option.bind_eq_some_iff.mp h
        obtain ⟨entry, -, hCopy⟩ := Option.bind_eq_some_iff.mp hEntry
        obtain ⟨hPos, hWidth⟩ := recordGetPackedValue_some hPacked
        exact ⟨hPos, hWidth, copyWord_some hCopy⟩
      · cases h
    | palletArray bitOffset bitWidth arraySize =>
      simp only [hCompression] at h
      obtain ⟨packed, hPacked, hEntry⟩ := Option.bind_eq_some_iff.mp h
      obtain ⟨entry, -, hCopy⟩ := Option.bind_eq_some_iff.mp hEntry
      obtain ⟨hPos, hWidth⟩ := recordGetPackedValue_some hPacked
      exact ⟨hPos, hWidth, copyWord_some hCopy⟩
  · cases h

/-! ## Identifiers -/

theorem getRawRecordData_eq (h : WellFormed t info) (hRecord : y < t.recordCount) :
    getRawRecordData t y = y * t.recordSize := by
  have hLe : y * t.recordSize ≤ t.recordCount * t.recordSize := Nat.mul_le_mul_right _ hRecord.le
  exact Nat.mod_eq_of_lt (lt_of_le_of_lt hLe h.size)

theorem recordIndex_eq (hSize : 0 < t.recordSize) (hRecord : y < 2 ^ 32) :
    recordIndex t (y * t.recordSize) = some (if y = 0 then 0 else 2 ^ 32 - y) := by
  have hQuotient : Int.tdiv (-((y * t.recordSize : Nat) : Int)) t.recordSize = -(y : Int) := by
    rw [Int.neg_tdiv, Int.natCast_mul, Int.mul_tdiv_cancel _ (by omega)]
  rw [recordIndex, if_neg hSize.ne', hQuotient]
  refine congrArg some ?_
  split <;> omega

theorem recordGetId_external (hExternal : info.indexField = none) (record i : Nat) :
    recordGetId t info record i = t.idTable[i]? := by rw [recordGetId, hExternal]

theorem recordGetId_inside {indexField : Nat} (hInside : info.indexField = some indexField) (record i j : Nat) :
    recordGetId t info record i = recordGetId t info record j := by
  rw [recordGetId, recordGetId, hInside]

/-- The column of identifiers, if there is one, is read as it is meant. -/
def IndexFits (t : Table) (info : Meta) : Prop :=
  ∀ x column, info.indexField = some x → t.columnMeta[x]? = some column → Fits 4 column

theorem WellFormed.recordGetId_denoted (h : WellFormed t info) (hIndex : IndexFits t info)
    (hRecord : y < t.recordCount) : recordGetId t info (y * t.recordSize) y = denotedId t info y := by
  rw [recordGetId, denotedId]
  cases hInside : info.indexField with
  | none => rfl
  | some x =>
    obtain ⟨hField, hInt, -⟩ := h.index x hInside
    obtain ⟨f, column, hSame, hColumn, hWell⟩ := h.columns x hField
    obtain rfl := Option.some.inj (hInt.symm.trans hSame)
    exact columnValue_denoted (f := ⟨.int, 1⟩) none hField hColumn (hWell rfl) hRecord Nat.one_pos
      (hIndex x column hInside hColumn)

theorem denotedValue_id (hColumn : t.columnMeta[x]? = some column)
    (hNot : ∀ value, column.compression ≠ .commonData value) (first second : Option Nat) (size y z : Nat) :
    denotedValue t first size y x z = denotedValue t second size y x z := by
  rw [denotedValue, denotedValue, hColumn, Option.bind_some, Option.bind_some]
  cases hCompression : column.compression with
  | commonData value => exact absurd hCompression (hNot value)
  | none => rfl
  | immediate bitOffset bitWidth isSigned => rfl
  | pallet bitOffset bitWidth => rfl
  | palletArray bitOffset bitWidth arraySize => rfl

theorem WellFormed.recordGetVarInt_denoted (h : WellFormed t info) (hIndex : IndexFits t info) {f : Field}
    (hField : x < t.fieldCount) (hColumn : t.columnMeta[x]? = some column)
    (hWell : ColumnWell t f column) (hRecord : y < t.recordCount) (hElement : z < f.arraySize)
    (hFits : Fits f.type.size column) (hFinds : FindsId t info y column) :
    recordGetVarInt t info f.type.size (getRawRecordData t y) x z = denoted t info f.type.size y x z := by
  rw [getRawRecordData_eq h hRecord, recordGetVarInt,
    columnValue_denoted _ hField hColumn hWell hRecord hElement hFits, denoted]
  rcases Classical.em (∃ value, column.compression = .commonData value) with ⟨value, hCommon⟩ | hNot
  · obtain ⟨hSize, hFirst⟩ := hFinds value hCommon
    have hSmall : y < 2 ^ 32 := lt_of_lt_of_le hRecord (Nat.le_of_mul_le_mul_right
      (le_trans (Nat.le_of_lt h.size) (Nat.le_mul_of_pos_right _ hSize)) hSize)
    rw [recordIndex_eq hSize hSmall, Option.bind_some, ← h.recordGetId_denoted hIndex hRecord]
    cases hInside : info.indexField with
    | none =>
      obtain rfl := hFirst hInside
      rw [if_pos rfl]
    | some indexField => rw [recordGetId_inside hInside _ _ y]
  · exact denotedValue_id hColumn (fun value hCommon => hNot ⟨value, hCommon⟩) _ _ _ _ _

theorem WellFormed.findsId_of_recordGetVarInt (h : WellFormed t info)
    (hColumn : t.columnMeta[x]? = some column) (hRecord : y < t.recordCount)
    (hValue : recordGetVarInt t info size (getRawRecordData t y) x z = some value) : FindsId t info y column := by
  intro common hCommon
  rw [getRawRecordData_eq h hRecord, recordGetVarInt, columnValue, hColumn, Option.bind_some] at hValue
  split at hValue
  · simp only [hCommon] at hValue
    obtain ⟨id, hId, -⟩ := Option.bind_eq_some_iff.mp hValue
    obtain ⟨i, hPlace, hFound⟩ := Option.bind_eq_some_iff.mp hId
    have hSize : 0 < t.recordSize := by
      rw [recordIndex] at hPlace
      split at hPlace
      · cases hPlace
      · omega
    refine ⟨hSize, fun hExternal => ?_⟩
    obtain ⟨hLength, hSmall⟩ := h.idTable hExternal
    rw [recordIndex_eq hSize (by omega)] at hPlace
    rw [recordGetId_external hExternal] at hFound
    have hLt := (List.getElem?_eq_some_iff.mp hFound).1
    by_contra hLater
    rw [if_neg hLater] at hPlace
    have hBack := Option.some.inj hPlace
    omega
  · cases hValue

end AshamaneCore.DB2
