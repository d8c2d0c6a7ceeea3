import AshamaneCore.Common.DB2Layout
import AshamaneCore.Common.DB2Tables

/-!
# Loading of tables with an offset map

The records of such a table lie anywhere in the data, with their strings in
them, so that the offsets of fields are computed for each record. Reads and
writes out of range give none, as in the tables without an offset map.
-/

namespace AshamaneCore.DB2

open Library.Bytes

structure CatalogEntry where
  fileOffset : Nat
  recordSize : Nat
  deriving DecidableEq

def CatalogEntry.isPresent (entry : CatalogEntry) : Bool := entry.fileOffset != 0 && entry.recordSize != 0

structure SparseTable where
  fieldCount : Nat
  minId : UInt32
  maxId : UInt32
  locale : Nat
  dataStart : Nat
  data : List UInt8
  /-- The entries of all identifiers from the least to the greatest. -/
  catalog : List CatalogEntry
  unusedBits : List Int

/-- The description of a loaded structure, with the signs of its elements; that of an identifier in front comes first. -/
structure LoadInfo extends Meta where
  isSigned : List Bool

def readAt (data : List UInt8) (position size : Nat) : Option Nat :=
  if position + size ≤ data.length then some (leNat ((data.drop position).take size)) else none

def cString (data : List UInt8) (position : Nat) : Option (List UInt8) :=
  if ((data.drop position).takeWhile (· != 0)).length < (data.drop position).length then
    some ((data.drop position).takeWhile (· != 0))
  else none

inductive Element
  | number (bytes : List UInt8)
  | text (text : List UInt8)
  deriving DecidableEq

/-- The tables while they are filled. The holders of strings have positions in the table of strings, or point to the
empty string. -/
structure Loading where
  indexTable : Nat → Option Nat
  dataTable : List UInt8
  stringTable : List UInt8
  holders : Nat → Option Nat
  recordNum : Nat

namespace SparseTable

/-! ## Sizes of tables -/

section

variable (t : SparseTable) (info : LoadInfo)

def records : Nat := (t.catalog.filter CatalogEntry.isPresent).length

def expandedDataSize : Nat := ((t.catalog.filter CatalogEntry.isPresent).map CatalogEntry.recordSize).sum % 2 ^ 32

def dataTableSize : Nat := t.records * info.getRecordSize % 2 ^ 32

/-- What is left of the records without the numbers of the structures. A size below zero is more than all memory. -/
def stringTableSize : Option Nat :=
  let stringFields := (info.cells.filter fun cell => cell.type.isString).length
  let numbers := t.records * (info.getRecordSize - info.indexSize - stringFields * 8)
  if numbers ≤ t.expandedDataSize then some (t.expandedDataSize - numbers) else none

/-! ## Offsets of fields -/

def getFieldSize (field : Nat) : Option Nat :=
  t.unusedBits[field]?.map fun unusedBits => ((4 - unusedBits.tdiv 8) % 2 ^ 16).toNat

def elementSize (type : FieldType) (field position : Nat) : Option Nat :=
  match type with
  | .byte | .short | .int | .long => t.getFieldSize field
  | .float => some 4
  | .string | .stringNotLocalized => (cString t.data position).map fun text => text.length + 1

/-- The offsets of the elements of a field, and the offset behind them. -/
def arrayOffsets (rawRecord field : Nat) (type : FieldType) : (count offset : Nat) → Option (List Nat × Nat)
  | 0, offset => some ([], offset)
  | count + 1, offset => (t.elementSize type field (rawRecord + offset)).bind fun size =>
    (arrayOffsets rawRecord field type count (offset + size)).map fun (offsets, last) => (offset :: offsets, last)

/-- For each field where the offsets of its elements start, and all offsets. -/
def fieldOffsets (rawRecord : Nat) : (field offset combinedField : Nat) → List Field → Option (List Nat × List Nat)
  | _, _, _, [] => some ([], [])
  | field, offset, combinedField, f :: fields =>
    (t.arrayOffsets rawRecord field f.type f.arraySize offset).bind fun (offsets, last) =>
      (fieldOffsets rawRecord (field + 1) last (combinedField + f.arraySize) fields).map fun (starts, rest) =>
        (combinedField :: starts, offsets ++ rest)

def calculateAndStoreFieldOffsets (rawRecord : Nat) : Option (List Nat) :=
  (t.fieldOffsets rawRecord 0 0 info.fields.length info.fields).map fun (starts, offsets) => starts ++ offsets

def getFieldOffset (fieldAndArrayOffsets : List Nat) (field arrayIndex : Nat) : Option Nat :=
  fieldAndArrayOffsets[field]?.bind fun start => fieldAndArrayOffsets[start + arrayIndex]?.map fun offset => offset % 2 ^ 16

/-! ## Elements -/

/-- The stored bytes are copied to a word, which is shifted up and down. -/
def varInt (field position : Nat) (isSigned : Bool) : Option Nat :=
  t.unusedBits[field]?.bind fun unusedBits => (t.getFieldSize field).bind fun size =>
    if size ≤ 4 ∧ 0 ≤ unusedBits ∧ unusedBits < 32 then
      (readAt t.data position size).map fun val =>
        if isSigned then ((BitVec.ofNat 32 val <<< unusedBits.toNat).sshiftRight unusedBits.toNat).toNat
        else (BitVec.ofNat 32 val <<< unusedBits.toNat >>> unusedBits.toNat).toNat
    else none

def readElement (isSigned : Bool) (type : FieldType) (field position : Nat) : Option Element :=
  match type with
  | .int => (t.varInt field position isSigned).map fun value => .number (leBytes 4 value)
  | .float | .byte | .short | .long => (readAt t.data position type.size).map fun value => .number (leBytes type.size value)
  | .string | .stringNotLocalized => (cString t.data position).map .text

def recordGet (rawRecord : Nat) (offsets : List Nat) (isSigned : Bool) (cell : Cell) : Option Element :=
  (getFieldOffset offsets cell.field cell.arrayIndex).bind fun offset =>
    t.readElement isSigned cell.type cell.field (rawRecord + offset)

def recordGetId (rawRecord : Nat) (offsets : List Nat) (recordIndex : Nat) : Option Nat :=
  match info.indexField with
  | some indexField => (getFieldOffset offsets indexField 0).bind fun offset => t.varInt indexField (rawRecord + offset) false
  | none => some ((t.minId.toNat + recordIndex) % 2 ^ 32)

/-! ## Filling the tables -/

/-- The places in a holder that are set: that of each locale of the table, or the only one. -/
def slots (type : FieldType) : List Nat :=
  match type with
  | .string => ((List.range totalLocales).filter fun locale => t.locale.testBit locale).map fun locale => locale * 8
  | _ => [0]

def putNumber (loading : Loading) (bytes : List UInt8) : Option Loading :=
  if loading.dataTable.length + bytes.length ≤ t.dataTableSize info then
    some { loading with dataTable := loading.dataTable ++ bytes }
  else none

def putText (stringTableSize : Nat) (loading : Loading) (stringFieldOffset : Nat) (type : FieldType)
    (text : List UInt8) : Option Loading :=
  let holder := info.stringHoldersRecordPoolSize * loading.recordNum + stringFieldOffset
  if loading.stringTable.length + (text.length + 1) ≤ stringTableSize ∧
      holder + type.holderSize ≤ info.stringHoldersRecordPoolSize * t.records then
    t.putNumber info { loading with
      holders := fun place => if place ∈ (t.slots type).map (holder + ·) then some loading.stringTable.length
        else loading.holders place
      stringTable := loading.stringTable ++ text ++ [0] } (leBytes 8 holder)
  else none

def putElement (stringTableSize : Nat) (loading : Loading) (stringFieldOffset : Nat) (type : FieldType) :
    Element → Option Loading
  | .number bytes => t.putNumber info loading bytes
  | .text text => t.putText info stringTableSize loading stringFieldOffset type text

def fillCells (stringTableSize rawRecord : Nat) (offsets : List Nat) :
    (fieldIndex stringFieldOffset : Nat) → List Cell → Loading → Option Loading
  | _, _, [], loading => some loading
  | fieldIndex, stringFieldOffset, cell :: cells, loading =>
    (t.recordGet rawRecord offsets (info.isSigned.getD fieldIndex false) cell).bind fun element =>
      (t.putElement info stringTableSize loading stringFieldOffset cell.type element).bind fun next =>
        fillCells stringTableSize rawRecord offsets (fieldIndex + 1) (stringFieldOffset + cell.type.holderSize) cells next

def getRawRecordData (entry : CatalogEntry) : Option Nat :=
  if t.dataStart ≤ entry.fileOffset then some (entry.fileOffset - t.dataStart) else none

/-- The identifier in front of a structure is the first of its elements. -/
def fillRecord (stringTableSize : Nat) (loading : Loading) (p : CatalogEntry × Nat) : Option Loading :=
  if p.1.isPresent then
    (t.getRawRecordData p.1).bind fun rawRecord =>
      (t.calculateAndStoreFieldOffsets info rawRecord).bind fun offsets =>
        (t.recordGetId info rawRecord offsets p.2).bind fun indexVal =>
          if indexVal < (t.maxId + 1).toNat then
            (t.putNumber info
              { loading with
                indexTable := Function.update loading.indexTable indexVal (some loading.dataTable.length) }
              (if info.hasIndexFieldInData then [] else leBytes 4 indexVal)).bind fun next =>
                (t.fillCells info stringTableSize rawRecord offsets (if info.hasIndexFieldInData then 0 else 1) 0
                  info.cells next).map fun last => { last with recordNum := last.recordNum + 1 }
          else none
  else some loading

/-- Nothing is loaded when the table has other fields than the structure. -/
def autoProduceData : Option Loading :=
  if info.fields.length = t.fieldCount then
    (t.stringTableSize info).bind fun stringTableSize =>
      t.catalog.zipIdx.foldlM (t.fillRecord info stringTableSize) ⟨fun _ => none, [], [], fun _ => none, 0⟩
  else none

end

end SparseTable

/-!
## Where the elements of a record are

An element of a record with strings lies behind the elements before it. The
offsets that are computed for a record are the sums of their sizes, and a number
means its stored bytes, extended by its sign.
-/

namespace SparseTable

variable {t : SparseTable} {info : LoadInfo}

def placeAfter (t : SparseTable) : (position : Nat) → List Cell → Option Nat
  | position, [] => some position
  | position, cell :: cells =>
    (t.elementSize cell.type cell.field position).bind fun size => placeAfter t (position + size) cells

theorem placeAfter_append (position : Nat) (first last : List Cell) : t.placeAfter position (first ++ last) =
    (t.placeAfter position first).bind fun place => t.placeAfter place last := by
  induction first generalizing position with
  | nil => rfl
  | cons cell first ih =>
    rw [List.cons_append, placeAfter, placeAfter, Option.bind_assoc]
    exact congrArg _ (funext fun size => ih (position + size))

variable {position place : Nat} {cells : List Cell}

theorem le_of_placeAfter (h : t.placeAfter position cells = some place) :
    position ≤ place := by
  induction cells generalizing position with
  | nil => exact (Option.some.inj h).le
  | cons cell cells ih =>
    obtain ⟨size, -, hRest⟩ := Option.bind_eq_some_iff.mp h
    exact (Nat.le_add_right position size).trans (ih hRest)

variable {ending : Nat} {first last : List Cell} {cell : Cell}

theorem placeAfter_split (h : t.placeAfter position (first ++ cell :: last) = some ending) : ∃ place size,
      t.placeAfter position first = some place ∧ t.elementSize cell.type cell.field place = some size ∧
        t.placeAfter (place + size) last = some ending := by
  rw [placeAfter_append] at h
  obtain ⟨place, hPlace, hRest⟩ := Option.bind_eq_some_iff.mp h
  obtain ⟨size, hSize, hLast⟩ := Option.bind_eq_some_iff.mp hRest
  exact ⟨place, size, hPlace, hSize, hLast⟩

/-! ## Offsets -/

def cellOffsets (t : SparseTable) (rawRecord : Nat) : (offset : Nat) → List Cell → Option (List Nat)
  | _, [] => some []
  | offset, cell :: cells => (t.elementSize cell.type cell.field (rawRecord + offset)).bind fun size =>
    (cellOffsets t rawRecord (offset + size) cells).map fun offsets => offset :: offsets

variable {rawRecord : Nat}

theorem cellOffsets_some {offset : Nat}
    (h : t.placeAfter (rawRecord + offset) cells = some ending) :
    ∃ offsets, t.cellOffsets rawRecord offset cells = some offsets := by
  induction cells generalizing offset with
  | nil => exact ⟨[], rfl⟩
  | cons cell cells ih =>
    obtain ⟨size, hSize, hRest⟩ := Option.bind_eq_some_iff.mp h
    rw [Nat.add_assoc] at hRest
    obtain ⟨offsets, hOffsets⟩ := ih hRest
    refine ⟨offset :: offsets, ?_⟩
    rw [cellOffsets, hSize, Option.bind_some, hOffsets, Option.map_some]

theorem cellOffsets_at {offset : Nat} {offsets : List Nat}
    (h : t.cellOffsets rawRecord offset (first ++ cell :: last) = some offsets)
    (hPlace : t.placeAfter (rawRecord + offset) first = some place) :
    offsets[first.length]? = some (place - rawRecord) := by
  induction first generalizing offset offsets with
  | nil =>
    obtain rfl := Option.some.inj hPlace
    obtain ⟨size, -, hRest⟩ := Option.bind_eq_some_iff.mp h
    obtain ⟨rest, -, rfl⟩ := Option.map_eq_some_iff.mp hRest
    rw [Nat.add_sub_cancel_left]
    rfl
  | cons head first ih =>
    obtain ⟨size, hSize, hRest⟩ := Option.bind_eq_some_iff.mp h
    obtain ⟨rest, hOffsets, rfl⟩ := Option.map_eq_some_iff.mp hRest
    obtain ⟨same, hSame, hBehind⟩ := Option.bind_eq_some_iff.mp hPlace
    obtain rfl := Option.some.inj (hSize.symm.trans hSame)
    rw [Nat.add_assoc] at hBehind
    exact ih hOffsets hBehind

theorem cellOffsets_append (rawRecord offset : Nat) (first last : List Cell) :
    t.cellOffsets rawRecord offset (first ++ last) = (t.cellOffsets rawRecord offset first).bind fun offsets =>
      (t.placeAfter (rawRecord + offset) first).bind fun place =>
        (t.cellOffsets rawRecord (place - rawRecord) last).map fun rest => offsets ++ rest := by
  induction first generalizing offset with
  | nil =>
    rw [List.nil_append, cellOffsets, placeAfter, Option.bind_some, Option.bind_some, Nat.add_sub_cancel_left]
    exact (Option.map_id' (x := t.cellOffsets rawRecord offset last)).symm
  | cons cell first ih =>
    rw [List.cons_append, cellOffsets, cellOffsets, placeAfter]
    cases t.elementSize cell.type cell.field (rawRecord + offset) with
    | none => rfl
    | some size =>
      simp only [Option.bind_some, ih, Nat.add_assoc]
      cases t.cellOffsets rawRecord (offset + size) first with
      | none => rfl
      | some offsets =>
        cases t.placeAfter (rawRecord + (offset + size)) first with
        | none => rfl
        | some place =>
          simp only [Option.bind_some, Option.map_some, Option.map_map]
          rfl

theorem arrayOffsets_eq {field : Nat} {type : FieldType}
    (h : ∀ cell ∈ cells, cell.field = field ∧ cell.type = type) (offset : Nat) :
    t.arrayOffsets rawRecord field type cells.length offset = (t.cellOffsets rawRecord offset cells).bind fun offsets =>
      (t.placeAfter (rawRecord + offset) cells).map fun place => (offsets, place - rawRecord) := by
  induction cells generalizing offset with
  | nil =>
    rw [List.length_nil, arrayOffsets, cellOffsets, placeAfter, Option.bind_some, Option.map_some, Nat.add_sub_cancel_left]
  | cons cell cells ih =>
    obtain ⟨⟨rfl, rfl⟩, hRest⟩ := List.forall_mem_cons.mp h
    rw [List.length_cons, arrayOffsets, cellOffsets, placeAfter]
    cases t.elementSize cell.type cell.field (rawRecord + offset) with
    | none => rfl
    | some size =>
      simp only [Option.bind_some, ih hRest, Nat.add_assoc]
      cases t.cellOffsets rawRecord (offset + size) cells with
      | none => rfl
      | some offsets =>
        simp only [Option.bind_some, Option.map_some, Option.map_map]
        rfl

def fieldStarts : (combinedField : Nat) → List Field → List Nat
  | _, [] => []
  | combinedField, f :: fields => combinedField :: fieldStarts (combinedField + f.arraySize) fields

theorem fieldOffsets_eq (rawRecord field offset combinedField : Nat) (fields : List Field) :
    t.fieldOffsets rawRecord field offset combinedField fields =
      (t.cellOffsets rawRecord offset ((fields.zipIdx field).flatMap fun p => Meta.fieldCells p.1 p.2)).map fun offsets =>
        (fieldStarts combinedField fields, offsets) := by
  induction fields generalizing field offset combinedField with
  | nil => rfl
  | cons f fields ih =>
    have hCells : ∀ cell ∈ Meta.fieldCells f field, cell.field = field ∧ cell.type = f.type := by
      intro cell hMem
      obtain ⟨arrayIndex, -, rfl⟩ := List.mem_map.mp hMem
      exact ⟨rfl, rfl⟩
    have hLength : (Meta.fieldCells f field).length = f.arraySize := by
      rw [Meta.fieldCells.eq_def, List.length_map, List.length_range]
    rw [List.zipIdx_cons, List.flatMap_cons, cellOffsets_append, fieldOffsets, ← hLength, arrayOffsets_eq hCells, hLength]
    cases t.cellOffsets rawRecord offset (Meta.fieldCells f field) with
    | none => rfl
    | some offsets =>
      cases t.placeAfter (rawRecord + offset) (Meta.fieldCells f field) with
      | none => rfl
      | some place =>
        simp only [Option.bind_some, Option.map_some, ih, Option.map_map]
        rfl

theorem length_fieldStarts (combinedField : Nat) (fields : List Field) :
    (fieldStarts combinedField fields).length = fields.length := by
  induction fields generalizing combinedField with
  | nil => rfl
  | cons f fields ih => exact congrArg (· + 1) (ih _)

theorem fieldStarts_at {fields : List Field} {field : Nat}
    (h : ((fields.zipIdx field).flatMap fun p => Meta.fieldCells p.1 p.2) = first ++ cell :: last)
    (combinedField : Nat) :
    field ≤ cell.field ∧ ∃ start, (fieldStarts combinedField fields)[cell.field - field]? = some start ∧
      start + cell.arrayIndex = combinedField + first.length := by
  induction fields generalizing field first combinedField with
  | nil => simp at h
  | cons f fields ih =>
    have hLength : (Meta.fieldCells f field).length = f.arraySize := by
      rw [Meta.fieldCells.eq_def, List.length_map, List.length_range]
    rw [List.zipIdx_cons, List.flatMap_cons] at h
    rcases Nat.lt_or_ge first.length f.arraySize with hHere | hLater
    · have hCell : (Meta.fieldCells f field)[first.length]? = some cell := by
        rw [← List.getElem?_append_left (hLength ▸ hHere), h, List.getElem?_append_right le_rfl, Nat.sub_self]
        rfl
      rw [Meta.fieldCells.eq_def, List.getElem?_map, List.getElem?_range hHere] at hCell
      obtain rfl := Option.some.inj hCell
      refine ⟨le_rfl, combinedField, ?_, rfl⟩
      rw [Nat.sub_self]
      rfl
    · rcases List.append_eq_append_iff.mp h with ⟨rest, rfl, hRest⟩ | ⟨rest, hCells, hRest⟩
      · obtain ⟨hLe, start, hStart, hSum⟩ := ih hRest (combinedField + f.arraySize)
        refine ⟨by omega, start, ?_, ?_⟩
        · rw [show cell.field - field = cell.field - (field + 1) + 1 by omega]
          exact hStart
        · rw [List.length_append, hLength, hSum, Nat.add_assoc]
      · have hSum := congrArg List.length hCells
        rw [hLength, List.length_append] at hSum
        obtain rfl : rest = [] := List.length_eq_zero_iff.mp (by omega)
        obtain ⟨hLe, start, hStart, hStartSum⟩ := ih (show _ = [] ++ cell :: last from hRest.symm)
          (combinedField + f.arraySize)
        refine ⟨by omega, start, ?_, ?_⟩
        · rw [show cell.field - field = cell.field - (field + 1) + 1 by omega]
          exact hStart
        · rw [hStartSum, List.length_nil]
          omega

theorem calculateAndStoreFieldOffsets_at (h : t.placeAfter rawRecord info.cells = some ending) : ∃ offsets,
      t.calculateAndStoreFieldOffsets info rawRecord = some offsets ∧
        ∀ first cell last, info.cells = first ++ cell :: last → ∀ place, t.placeAfter rawRecord first = some place →
          getFieldOffset offsets cell.field cell.arrayIndex = some ((place - rawRecord) % 2 ^ 16) := by
  obtain ⟨offsets, hOffsets⟩ := cellOffsets_some (show t.placeAfter (rawRecord + 0) info.cells = some ending from h)
  refine ⟨fieldStarts info.fields.length info.fields ++ offsets, ?_, fun first cell last hSplit place hPlace => ?_⟩
  · rw [calculateAndStoreFieldOffsets, fieldOffsets_eq]
    change Option.map _ (Option.map _ (t.cellOffsets rawRecord 0 info.cells)) = _
    rw [hOffsets]
    rfl
  · obtain ⟨-, start, hStart, hSum⟩ := fieldStarts_at hSplit info.fields.length
    rw [Nat.sub_zero] at hStart
    rw [hSplit] at hOffsets
    have hAt := cellOffsets_at hOffsets hPlace
    have hLength := length_fieldStarts info.fields.length info.fields
    have hField : cell.field < (fieldStarts info.fields.length info.fields).length :=
      (List.getElem?_eq_some_iff.mp hStart).1
    rw [getFieldOffset, List.getElem?_append_left hField, hStart, Option.bind_some, hSum,
      List.getElem?_append_right (by omega), hLength, Nat.add_sub_cancel_left, hAt, Option.map_some]

/-! ## Values -/

def extended (isSigned : Bool) (size value : Nat) : Int :=
  if isSigned ∧ 256 ^ size ≤ 2 * value then (value : Int) - 256 ^ size else value

def denotedElement (t : SparseTable) (isSigned : Bool) (type : FieldType) (field place : Nat) : Option Element :=
  match type with
  | .string | .stringNotLocalized => (cString t.data place).map .text
  | .byte | .short | .int | .long | .float => (t.elementSize type field place).bind fun size =>
    (readAt t.data place size).map fun value =>
      .number (leBytes type.size ((extended isSigned size value % 256 ^ type.size).toNat))

/-- The widths that integers can be stored in; eight bytes are stored as they are. -/
def UnusedWell (type : FieldType) (unusedBits : Int) : Prop :=
  unusedBits = 0 ∨ unusedBits = 8 ∨ unusedBits = 16 ∨ unusedBits = 24 ∨ (type = .long ∧ unusedBits = -32)

variable {size width : Nat}

theorem extended_emod (isSigned : Bool) (h : width ≤ size) (value : Nat) :
    (extended isSigned size value % 256 ^ width).toNat = value % 256 ^ width := by
  have hPlain : ((value : Int) % 256 ^ width).toNat = value % 256 ^ width := by
    rw [show ((256 : Int) ^ width) = ((256 ^ width : Nat) : Int) by norm_num, ← Int.natCast_mod, Int.toNat_natCast]
  rw [extended]
  split
  · obtain ⟨rest, hRest⟩ := pow_dvd_pow (256 : Int) h
    rw [hRest, Int.sub_mul_emod_self_left, hPlain]
  · exact hPlain

theorem shifted_eq {unusedBits : Nat} (h : unusedBits = 0 ∨ unusedBits = 8 ∨ unusedBits = 16 ∨ unusedBits = 24)
    (isSigned : Bool) {value : Nat} (hValue : value < 256 ^ (4 - unusedBits / 8)) :
    (if isSigned then ((BitVec.ofNat 32 value <<< unusedBits).sshiftRight unusedBits).toNat
      else (BitVec.ofNat 32 value <<< unusedBits >>> unusedBits).toNat) =
      (extended isSigned (4 - unusedBits / 8) value % 256 ^ 4).toNat := by
  cases isSigned with
  | false =>
    rw [extended]
    simp only [Bool.false_eq_true, false_and, if_false, BitVec.toNat_ushiftRight, BitVec.toNat_shiftLeft,
      BitVec.toNat_ofNat, Nat.shiftRight_eq_div_pow, Nat.shiftLeft_eq]
    rcases h with rfl | rfl | rfl | rfl <;> norm_num at hValue ⊢ <;> omega
  | true =>
    have hNat : ∀ word : BitVec 32, word.toNat = (word.toInt % 2 ^ 32).toNat := by
      intro word
      have hLt := word.isLt
      rw [BitVec.toInt_eq_toNat_cond]
      split <;> omega
    rw [extended, if_pos rfl, hNat, BitVec.toInt_sshiftRight, BitVec.toInt_eq_toNat_cond, Int.shiftRight_eq_div_pow]
    simp only [BitVec.toNat_shiftLeft, BitVec.toNat_ofNat, Nat.shiftLeft_eq, true_and]
    rcases h with rfl | rfl | rfl | rfl <;> norm_num at hValue ⊢ <;> split <;> split <;> omega

theorem readAt_some {data : List UInt8} (h : position + size ≤ data.length) :
    ∃ value, readAt data position size = some value ∧ value < 256 ^ size := by
  refine ⟨_, if_pos h, ?_⟩
  have hLt := leNat_lt ((data.drop position).take size)
  rwa [List.length_take_of_le (by rw [List.length_drop]; omega)] at hLt

theorem readAt_narrow {data : List UInt8} {value : Nat} (h : readAt data position size = some value)
    (hWidth : width ≤ size) : readAt data position width = some (value % 256 ^ width) := by
  rw [readAt] at h ⊢
  split at h
  · rename_i hRoom
    obtain rfl := Option.some.inj h
    rw [if_pos (by omega), ← leNat_take, List.take_take, Nat.min_eq_left hWidth]
    rw [List.length_take_of_le (by rw [List.length_drop]; omega)]
    exact hWidth
  · cases h

/-! ## Tables that are well formed -/

structure RecordWell (t : SparseTable) (info : LoadInfo) (entry : CatalogEntry) : Prop where
  start : t.dataStart ≤ entry.fileOffset
  size : entry.recordSize < 2 ^ 16
  elements : t.placeAfter (entry.fileOffset - t.dataStart) info.cells =
    some (entry.fileOffset - t.dataStart + entry.recordSize)
  inside : entry.fileOffset - t.dataStart + entry.recordSize ≤ t.data.length
  id : ∀ x first last place, info.indexField = some x → info.cells = first ++ ⟨x, 0, .int⟩ :: last →
    t.placeAfter (entry.fileOffset - t.dataStart) first = some place →
      ∃ value, t.varInt x place false = some value ∧ value ≤ t.maxId.toNat

structure WellFormed (t : SparseTable) (info : LoadInfo) : Prop where
  fields : info.fields.length = t.fieldCount
  unusedBits : ∀ (x : Nat) (f : Field), info.fields[x]? = some f → f.type = .byte ∨ f.type = .short ∨ f.type = .int ∨ f.type = .long →
    ∃ unusedBits, t.unusedBits[x]? = some unusedBits ∧ UnusedWell f.type unusedBits
  catalog : t.minId.toNat + t.catalog.length = t.maxId.toNat + 1
  index : ∀ x, info.indexField = some x → info.fields[x]? = some ⟨.int, 1⟩
  records : ∀ entry ∈ t.catalog, entry.isPresent = true → RecordWell t info entry

theorem unusedWell_size {type : FieldType} {unusedBits : Int} (h : UnusedWell type unusedBits) (hType : type ≠ .long) :
    ∃ bits : Nat, unusedBits = bits ∧ (bits = 0 ∨ bits = 8 ∨ bits = 16 ∨ bits = 24) ∧
      ((4 - unusedBits.tdiv 8) % 2 ^ 16).toNat = 4 - bits / 8 := by
  rcases h with rfl | rfl | rfl | rfl | ⟨hLong, -⟩
  · exact ⟨0, rfl, by decide, by decide⟩
  · exact ⟨8, rfl, by decide, by decide⟩
  · exact ⟨16, rfl, by decide, by decide⟩
  · exact ⟨24, rfl, by decide, by decide⟩
  · exact absurd hLong hType

theorem varInt_eq {x : Nat} {unusedBits : Int} (hBits : t.unusedBits[x]? = some unusedBits)
    (hWell : UnusedWell .int unusedBits) (hSize : t.getFieldSize x = some size)
    (hRoom : position + size ≤ t.data.length) (isSigned : Bool) : ∃ value, readAt t.data position size = some value ∧
      t.varInt x position isSigned = some ((extended isSigned size value % 256 ^ 4).toNat) := by
  obtain ⟨bits, rfl, hCases, hBytes⟩ := unusedWell_size hWell (by decide)
  rw [getFieldSize, hBits, Option.map_some, hBytes] at hSize
  obtain rfl := Option.some.inj hSize
  obtain ⟨value, hValue, hLt⟩ := readAt_some hRoom
  refine ⟨value, hValue, ?_⟩
  have hFits : 4 - bits / 8 ≤ 4 ∧ (0 : Int) ≤ bits ∧ (bits : Int) < 32 := by omega
  rw [varInt, hBits, Option.bind_some, getFieldSize, hBits, Option.map_some, hBytes, Option.bind_some, if_pos hFits, hValue,
    Option.map_some, Int.toNat_natCast, ← shifted_eq hCases isSigned hLt]

theorem readAt_denoted (hRoom : position + size ≤ t.data.length) (hWidth : width ≤ size)
    (isSigned : Bool) : (readAt t.data position width).map (fun value => Element.number (leBytes width value)) =
      (readAt t.data position size).map fun value =>
        .number (leBytes width ((extended isSigned size value % 256 ^ width).toNat)) := by
  obtain ⟨value, hValue, -⟩ := readAt_some hRoom
  rw [hValue, readAt_narrow hValue hWidth, Option.map_some, Option.map_some, extended_emod isSigned hWidth]

theorem WellFormed.readElement_eq (h : WellFormed t info) (hMem : cell ∈ info.cells) (isSigned : Bool)
    (hSize : t.elementSize cell.type cell.field place = some size)
    (hRoom : place + size ≤ t.data.length)
    (hWidth : cell.type = .short ∨ cell.type = .long → cell.type.size ≤ size) :
    t.readElement isSigned cell.type cell.field place = t.denotedElement isSigned cell.type cell.field place := by
  obtain ⟨f, hField, -, hType⟩ := mem_cells hMem
  obtain ⟨field, arrayIndex, type⟩ := cell
  dsimp only at hField hType hSize hWidth ⊢
  have hBits := h.unusedBits field f hField
  rw [← hType] at hBits
  cases type with
  | string | stringNotLocalized => rfl
  | float =>
    obtain rfl := Option.some.inj hSize
    exact readAt_denoted hRoom le_rfl isSigned
  | int =>
    obtain ⟨unusedBits, hUnused, hWell⟩ := hBits (by simp)
    obtain ⟨value, hValue, hRead⟩ := varInt_eq hUnused hWell hSize hRoom isSigned
    rw [readElement, hRead, denotedElement, hSize, Option.bind_some, hValue]
    rfl
  | byte =>
    obtain ⟨unusedBits, hUnused, hWell⟩ := hBits (by simp)
    obtain ⟨bits, -, hCases, hBytes⟩ := unusedWell_size hWell (by decide)
    have hPos : 1 ≤ size := by
      change t.getFieldSize field = some size at hSize
      rw [getFieldSize, hUnused, Option.map_some, hBytes] at hSize
      obtain rfl := Option.some.inj hSize
      omega
    rw [readElement, denotedElement, hSize, Option.bind_some]
    exact readAt_denoted hRoom hPos isSigned
  | short =>
    rw [readElement, denotedElement, hSize, Option.bind_some]
    exact readAt_denoted hRoom (hWidth (Or.inl rfl)) isSigned
  | long =>
    rw [readElement, denotedElement, hSize, Option.bind_some]
    exact readAt_denoted hRoom (hWidth (Or.inr rfl)) isSigned

end SparseTable

end AshamaneCore.DB2
