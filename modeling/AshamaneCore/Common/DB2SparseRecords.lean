import AshamaneCore.Common.DB2SparseLoader

/-!
# Records of tables with an offset map

Each element that is read of a record stands in its structure, strings behind a
holder, and stays there while the other elements and records are filled in.
-/

namespace AshamaneCore.DB2

open Library.Bytes

namespace SparseTable

variable {t : SparseTable} {info : LoadInfo}

/-! ## What stands in the tables -/

def holdersSize (cells : List Cell) : Nat := (cells.map fun cell => cell.type.holderSize).sum

def structPlace (info : LoadInfo) (k : Nat) (first : List Cell) : Nat :=
  k * info.getRecordSize + (info.indexSize + cellsSize first)

def holderPlace (info : LoadInfo) (k : Nat) (first : List Cell) : Nat :=
  info.stringHoldersRecordPoolSize * k + holdersSize first

/-- An element of a record stands in its structure, or its structure points to a holder whose places point to it. -/
def Stands (t : SparseTable) (info : LoadInfo) (loading : Loading) (k : Nat) (first : List Cell) (cell : Cell) :
    Element → Prop
  | .number bytes => (loading.dataTable.drop (structPlace info k first)).take cell.type.size = bytes
  | .text text => (loading.dataTable.drop (structPlace info k first)).take 8 = leBytes 8 (holderPlace info k first) ∧
    ∃ position, (loading.stringTable.drop position).take (text.length + 1) = text ++ [0] ∧
      ∀ slot ∈ t.slots cell.type, loading.holders (holderPlace info k first + slot) = some position

/-- A later state of the tables, with the same holders up to a place. -/
structure Later (frontier : Nat) (before after : Loading) : Prop where
  data : before.dataTable <+: after.dataTable
  strings : before.stringTable <+: after.stringTable
  holders : ∀ place < frontier, after.holders place = before.holders place

theorem Later.refl (frontier : Nat) (loading : Loading) : Later frontier loading loading :=
  ⟨List.prefix_rfl, List.prefix_rfl, fun _ _ => rfl⟩

theorem Later.trans {frontier other : Nat} {first second third : Loading} (h : Later frontier first second)
    (hNext : Later other second third) (hLe : frontier ≤ other) : Later frontier first third :=
  ⟨h.data.trans hNext.data, h.strings.trans hNext.strings, fun place hLt =>
    (hNext.holders place (hLt.trans_le hLe)).trans (h.holders place hLt)⟩

def ElementOf (type : FieldType) : Element → Prop
  | .number bytes => type.isString = false ∧ bytes.length = type.size
  | .text _ => type.isString = true

variable {type : FieldType} {place : Nat} {element : Element}

theorem readElement_of {isSigned : Bool} {field : Nat}
    (h : t.readElement isSigned type field place = some element) : ElementOf type element := by
  cases type with
  | string | stringNotLocalized =>
    obtain ⟨text, -, rfl⟩ := Option.map_eq_some_iff.mp h
    exact rfl
  | float | int | byte | short | long =>
    obtain ⟨value, -, rfl⟩ := Option.map_eq_some_iff.mp h
    exact ⟨rfl, leBytes_length ..⟩

def textSize : Element → Nat
  | .number _ => 0
  | .text text => text.length + 1

theorem slot_lt (hString : type.isString = true) {slot : Nat} (h : slot ∈ t.slots type) :
    slot + 8 ≤ type.holderSize := by
  cases type with
  | string =>
    obtain ⟨locale, hLocale, rfl⟩ := List.mem_map.mp h
    have hLt : locale < totalLocales := List.mem_range.mp (List.mem_of_mem_filter hLocale)
    rw [totalLocales] at hLt
    rw [FieldType.holderSize, totalLocales]
    omega
  | stringNotLocalized =>
    obtain rfl := List.mem_singleton.mp h
    exact le_rfl
  | float | int | byte | short | long => cases hString

theorem size_of_isString (h : type.isString = true) : type.size = 8 := by
  cases type with
  | string | stringNotLocalized => rfl
  | float | int | byte | short | long => cases h

theorem take_of_later {before after : List UInt8} (h : before <+: after) {position count : Nat}
    (hRoom : position + count ≤ before.length) :
    (after.drop position).take count = (before.drop position).take count := by
  obtain ⟨rest, rfl⟩ := h
  rw [List.drop_append_of_le_length (by omega), List.take_append_of_le_length]
  rw [List.length_drop]
  omega

variable {first : List Cell} {cell : Cell}

theorem Stands.later {loading after : Loading} {k frontier : Nat}
    (h : Stands t info loading k first cell element) (hOf : ElementOf cell.type element)
    (hLater : Later frontier loading after)
    (hData : structPlace info k first + cell.type.size ≤ loading.dataTable.length)
    (hHolder : holderPlace info k first + cell.type.holderSize ≤ frontier) :
    Stands t info after k first cell element := by
  cases element with
  | number bytes => exact (take_of_later hLater.data hData).trans h
  | text text =>
    obtain ⟨hPointer, position, hText, hSlots⟩ := h
    have hString : cell.type.isString = true := hOf
    have hSize := size_of_isString hString
    have hRoom : position + (text.length + 1) ≤ loading.stringTable.length := by
      have hLength := congrArg List.length hText
      rw [List.length_take, List.length_drop, List.length_append, List.length_singleton] at hLength
      omega
    refine ⟨(take_of_later hLater.data (hSize ▸ hData)).trans hPointer, position,
      (take_of_later hLater.strings hRoom).trans hText, fun slot hSlot => ?_⟩
    have hLt := slot_lt hString hSlot
    rw [hLater.holders _ (by omega)]
    exact hSlots slot hSlot

/-! ## One element -/

theorem putNumber_some {loading next : Loading} {bytes : List UInt8} (h : t.putNumber info loading bytes = some next) :
    next = { loading with dataTable := loading.dataTable ++ bytes } ∧ next.dataTable.length ≤ t.dataTableSize info := by
  rw [putNumber] at h
  split at h
  · rename_i hFits
    obtain rfl := Option.some.inj h
    exact ⟨rfl, by rwa [List.length_append]⟩
  · cases h

structure Put (t : SparseTable) (info : LoadInfo) (stringTableSize k : Nat) (first : List Cell) (cell : Cell)
    (element : Element) (loading next : Loading) : Prop where
  number : next.recordNum = loading.recordNum
  data : next.dataTable.length = loading.dataTable.length + cell.type.size
  strings : next.stringTable.length = loading.stringTable.length + textSize element
  dataFits : next.dataTable.length ≤ t.dataTableSize info
  stringsFit : loading.stringTable.length ≤ stringTableSize → next.stringTable.length ≤ stringTableSize
  later : Later (holderPlace info k first) loading next
  stands : Stands t info next k first cell element

theorem putElement_put {stringTableSize k : Nat}
    {loading next : Loading} (hNumber : loading.recordNum = k)
    (hData : loading.dataTable.length = structPlace info k first) (hOf : ElementOf cell.type element)
    (h : t.putElement info stringTableSize loading (holdersSize first) cell.type element = some next) :
    Put t info stringTableSize k first cell element loading next := by
  cases element with
  | number bytes =>
    obtain ⟨-, hLength⟩ := hOf
    obtain ⟨rfl, hFits⟩ := putNumber_some h
    refine ⟨rfl, ?_, rfl, hFits, id, ⟨⟨bytes, rfl⟩, List.prefix_rfl, fun _ _ => rfl⟩, ?_⟩
    · rw [List.length_append, hLength]
    · change ((loading.dataTable ++ bytes).drop _).take _ = bytes
      rw [← hData, List.drop_left, ← hLength, List.take_length]
  | text text =>
    have hString : cell.type.isString = true := hOf
    have hSize := size_of_isString hString
    have hHolder : info.stringHoldersRecordPoolSize * loading.recordNum + holdersSize first = holderPlace info k first := by
      rw [hNumber, holderPlace]
    rw [putElement, putText] at h
    simp only [hHolder] at h
    split at h
    · rename_i hRoom
      obtain ⟨rfl, hFits⟩ := putNumber_some h
      refine ⟨rfl, ?_, ?_, hFits, fun _ => ?_, ⟨⟨_, rfl⟩, ⟨text ++ [0], (List.append_assoc ..).symm⟩, fun place hLt => ?_⟩,
        ?_, loading.stringTable.length, ?_, fun slot hSlot => ?_⟩
      · rw [List.length_append, leBytes_length, hSize]
      · simp only [List.length_append, List.length_singleton, textSize, Nat.add_assoc]
      · simp only [List.length_append, List.length_singleton]
        omega
      · refine if_neg fun hMem => ?_
        obtain ⟨slot, -, rfl⟩ := List.mem_map.mp hMem
        omega
      · change ((loading.dataTable ++ leBytes 8 _).drop _).take 8 = _
        rw [← hData, List.drop_left]
        exact List.take_of_length_le (leBytes_length ..).le
      · change ((loading.stringTable ++ text ++ [0]).drop _).take _ = _
        rw [List.append_assoc, List.drop_left]
        exact List.take_of_length_le (by rw [List.length_append, List.length_singleton])
      · exact if_pos (List.mem_map_of_mem hSlot)
    · cases h

theorem putElement_exists {k : Nat} (stringTableSize : Nat) (first : List Cell)
    {loading : Loading} (hNumber : loading.recordNum = k) (hOf : ElementOf cell.type element)
    (hData : loading.dataTable.length + cell.type.size ≤ t.dataTableSize info)
    (hStrings : loading.stringTable.length + textSize element ≤ stringTableSize)
    (hHolder : holderPlace info k first + cell.type.holderSize ≤ info.stringHoldersRecordPoolSize * t.records) :
    ∃ next, t.putElement info stringTableSize loading (holdersSize first) cell.type element = some next := by
  cases element with
  | number bytes =>
    obtain ⟨-, hLength⟩ := hOf
    exact ⟨_, if_pos (hLength ▸ hData)⟩
  | text text =>
    have hString : cell.type.isString = true := hOf
    have hSize := size_of_isString hString
    rw [holderPlace, ← hNumber] at hHolder
    refine ⟨_, (if_pos ⟨hStrings, hHolder⟩).trans (if_pos ?_)⟩
    rw [leBytes_length, ← hSize]
    exact hData

/-! ## The elements of a record -/

/-- The sign that is declared for the element behind some others. -/
def signOf (info : LoadInfo) (first : List Cell) : Bool :=
  info.isSigned.getD ((if info.hasIndexFieldInData then 0 else 1) + first.length) false

def read? (t : SparseTable) (info : LoadInfo) (rawRecord : Nat) (first : List Cell) (cell : Cell) : Option Element :=
  (t.placeAfter rawRecord first).bind fun place => t.readElement (signOf info first) cell.type cell.field place

/-- The size of the strings of elements that start at a position, with their ends. -/
def textsFrom (t : SparseTable) : (position : Nat) → List Cell → Nat
  | _, [] => 0
  | position, cell :: cells =>
    (if cell.type.isString then (t.elementSize cell.type cell.field position).getD 0 else 0) +
      textsFrom t (position + (t.elementSize cell.type cell.field position).getD 0) cells

theorem textSize_eq {isSigned : Bool} {field size : Nat}
    (hRead : t.readElement isSigned type field place = some element)
    (hSize : t.elementSize type field place = some size) :
    textSize element = if type.isString then size else 0 := by
  cases type with
  | string | stringNotLocalized =>
    obtain ⟨text, hText, rfl⟩ := Option.map_eq_some_iff.mp hRead
    rw [elementSize, hText] at hSize
    exact Option.some.inj hSize
  | float | int | byte | short | long =>
    obtain ⟨value, -, rfl⟩ := Option.map_eq_some_iff.mp hRead
    rfl

/-- Elements are read where they are, for the offsets of their record. -/
def ReadsAt (t : SparseTable) (info : LoadInfo) (rawRecord : Nat) (offsets : List Nat) : Prop :=
  ∀ first cell last, info.cells = first ++ cell :: last →
    t.recordGet rawRecord offsets (signOf info first) cell = t.read? info rawRecord first cell

structure CellsFilled (t : SparseTable) (info : LoadInfo) (stringTableSize rawRecord k : Nat) (first rest : List Cell)
    (loading last : Loading) : Prop where
  number : last.recordNum = loading.recordNum
  data : last.dataTable.length = structPlace info k (first ++ rest)
  strings : ∀ place, t.placeAfter rawRecord first = some place →
    last.stringTable.length = loading.stringTable.length + t.textsFrom place rest
  dataFits : loading.dataTable.length ≤ t.dataTableSize info → last.dataTable.length ≤ t.dataTableSize info
  stringsFit : loading.stringTable.length ≤ stringTableSize → last.stringTable.length ≤ stringTableSize
  later : Later (holderPlace info k first) loading last
  stands : ∀ front cell back, rest = front ++ cell :: back → ∃ element,
    t.read? info rawRecord (first ++ front) cell = some element ∧ ElementOf cell.type element ∧
      Stands t info last k (first ++ front) cell element

theorem structPlace_append (info : LoadInfo) (k : Nat) (first rest : List Cell) :
    structPlace info k (first ++ rest) = structPlace info k first + cellsSize rest := by
  rw [structPlace, structPlace, cellsSize_append, Nat.add_assoc, Nat.add_assoc]

theorem structPlace_concat (k : Nat) (first : List Cell) (cell : Cell) :
    structPlace info k (first ++ [cell]) = structPlace info k first + cell.type.size := structPlace_append ..

theorem holdersSize_append (first rest : List Cell) :
    holdersSize (first ++ rest) = holdersSize first + holdersSize rest := by
  rw [holdersSize, holdersSize, holdersSize, List.map_append, List.sum_append]

theorem holderPlace_append (k : Nat) (first rest : List Cell) :
    holderPlace info k (first ++ rest) = holderPlace info k first + holdersSize rest := by
  rw [holderPlace, holderPlace, holdersSize_append, Nat.add_assoc]

theorem holderPlace_concat (k : Nat) (first : List Cell) (cell : Cell) :
    holderPlace info k (first ++ [cell]) = holderPlace info k first + cell.type.holderSize := holderPlace_append ..

theorem holdersSize_concat (first : List Cell) (cell : Cell) :
    holdersSize first + cell.type.holderSize = holdersSize (first ++ [cell]) := (holdersSize_append first [cell]).symm

theorem fieldIndex_concat (info : LoadInfo) (first : List Cell) (cell : Cell) :
    (if info.hasIndexFieldInData then 0 else 1) + first.length + 1 =
      (if info.hasIndexFieldInData then 0 else 1) + (first ++ [cell]).length := by
  rw [List.length_append, List.length_singleton, Nat.add_assoc]

theorem fillCells_filled {stringTableSize rawRecord ending k : Nat} {offsets : List Nat}
    (hElements : t.placeAfter rawRecord info.cells = some ending) (hReads : ReadsAt t info rawRecord offsets)
    {rest : List Cell} (hCells : info.cells = first ++ rest) {loading last : Loading}
    (hNumber : loading.recordNum = k) (hData : loading.dataTable.length = structPlace info k first)
    (h : t.fillCells info stringTableSize rawRecord offsets ((if info.hasIndexFieldInData then 0 else 1) + first.length)
      (holdersSize first) rest loading = some last) :
    CellsFilled t info stringTableSize rawRecord k first rest loading last := by
  induction rest generalizing first loading with
  | nil =>
    obtain rfl := Option.some.inj h
    refine ⟨rfl, ?_, fun _ _ => rfl, id, id, Later.refl _ _, fun front cell back hSplit => ?_⟩
    · rw [List.append_nil, hData]
    · simp at hSplit
  | cons cell rest ih =>
    obtain ⟨element, hGet, hRest⟩ := Option.bind_eq_some_iff.mp h
    obtain ⟨next, hPut, hLast⟩ := Option.bind_eq_some_iff.mp hRest
    have hRead : t.read? info rawRecord first cell = some element := (hReads first cell rest hCells).symm.trans hGet
    obtain ⟨place, hPlace, hElement⟩ := Option.bind_eq_some_iff.mp hRead
    have hOf := readElement_of hElement
    have hHere := putElement_put hNumber hData hOf hPut
    have hConcat : info.cells = (first ++ [cell]) ++ rest := by rw [hCells, List.append_assoc]; rfl
    rw [fieldIndex_concat info first cell, holdersSize_concat] at hLast
    have hNextData : next.dataTable.length = structPlace info k (first ++ [cell]) := by
      rw [hHere.data, hData, structPlace_concat]
    have hFilled := ih hConcat (hHere.number.trans hNumber) hNextData hLast
    refine ⟨hFilled.number.trans hHere.number, ?_, fun found hFound => ?_, fun _ => hFilled.dataFits hHere.dataFits,
      fun hFits => hFilled.stringsFit (hHere.stringsFit hFits), ?_, fun front other back hSplit => ?_⟩
    · rw [hFilled.data, List.append_assoc]
      rfl
    · obtain rfl := Option.some.inj (hPlace.symm.trans hFound)
      obtain ⟨same, size, hSame, hSize, -⟩ := placeAfter_split (hCells ▸ hElements)
      obtain rfl := Option.some.inj (hPlace.symm.trans hSame)
      have hNextPlace : t.placeAfter rawRecord (first ++ [cell]) = some (place + size) := by
        rw [placeAfter_append, hPlace, Option.bind_some, placeAfter, hSize]
        rfl
      rw [hFilled.strings _ hNextPlace, hHere.strings, textsFrom, hSize, Option.getD_some, textSize_eq hElement hSize,
        Nat.add_assoc]
    · refine hHere.later.trans hFilled.later ?_
      rw [holderPlace_concat]
      exact Nat.le_add_right ..
    · cases front with
      | nil =>
        obtain ⟨rfl, rfl⟩ := List.cons.inj hSplit
        rw [List.append_nil]
        refine ⟨element, hRead, hOf, hHere.stands.later hOf hFilled.later ?_ (holderPlace_concat ..).ge⟩
        rw [hNextData, structPlace_concat]
      | cons head front =>
        obtain ⟨rfl, hTail⟩ := List.cons.inj hSplit
        have hStands := hFilled.stands front other back hTail
        rwa [List.append_assoc] at hStands

theorem fillCells_exists {stringTableSize rawRecord ending k : Nat} {offsets : List Nat}
    (hElements : t.placeAfter rawRecord info.cells = some ending) (hReads : ReadsAt t info rawRecord offsets)
    (hSome : ∀ first cell last, info.cells = first ++ cell :: last → ∃ element,
      t.read? info rawRecord first cell = some element)
    (hRoom : structPlace info k info.cells ≤ t.dataTableSize info)
    (hPool : holderPlace info k info.cells ≤ info.stringHoldersRecordPoolSize * t.records) {rest : List Cell}
    (hCells : info.cells = first ++ rest)
    (hPlace : t.placeAfter rawRecord first = some place) {loading : Loading} (hNumber : loading.recordNum = k)
    (hData : loading.dataTable.length = structPlace info k first)
    (hStrings : loading.stringTable.length + t.textsFrom place rest ≤ stringTableSize) :
    ∃ last, t.fillCells info stringTableSize rawRecord offsets
      ((if info.hasIndexFieldInData then 0 else 1) + first.length) (holdersSize first) rest loading = some last := by
  induction rest generalizing first loading place with
  | nil => exact ⟨loading, rfl⟩
  | cons cell rest ih =>
    obtain ⟨element, hRead⟩ := hSome first cell rest hCells
    have hGet : t.recordGet rawRecord offsets
        (info.isSigned.getD ((if info.hasIndexFieldInData then 0 else 1) + first.length) false) cell = some element :=
      (hReads first cell rest hCells).trans hRead
    obtain ⟨same, hSame, hElement⟩ := Option.bind_eq_some_iff.mp hRead
    obtain rfl := Option.some.inj (hPlace.symm.trans hSame)
    obtain ⟨other, size, hOther, hSize, -⟩ := placeAfter_split (hCells ▸ hElements)
    obtain rfl := Option.some.inj (hPlace.symm.trans hOther)
    have hOf := readElement_of hElement
    have hConcat : info.cells = (first ++ [cell]) ++ rest := by rw [hCells, List.append_assoc]; rfl
    rw [textsFrom, hSize, Option.getD_some, ← textSize_eq hElement hSize] at hStrings
    rw [hConcat, structPlace_append, structPlace_concat] at hRoom
    rw [hConcat, holderPlace_append, holderPlace_concat] at hPool
    obtain ⟨next, hNext⟩ : ∃ next, t.putElement info stringTableSize loading (holdersSize first) cell.type element =
        some next := putElement_exists stringTableSize first hNumber hOf (by omega) (by omega) (by omega)
    have hPut := putElement_put hNumber hData hOf hNext
    have hNextPlace : t.placeAfter rawRecord (first ++ [cell]) = some (place + size) := by
      rw [placeAfter_append, hPlace, Option.bind_some, placeAfter, hSize]
      rfl
    obtain ⟨last, hLast⟩ := ih hConcat hNextPlace (hPut.number.trans hNumber)
      (by rw [hPut.data, hData, structPlace_concat]) (by rw [hPut.strings]; omega)
    refine ⟨last, ?_⟩
    rw [fillCells, hGet, Option.bind_some, hNext, Option.bind_some, fieldIndex_concat info first cell, holdersSize_concat]
    exact hLast

/-! ## Records -/

def rawOf (t : SparseTable) (entry : CatalogEntry) : Nat := entry.fileOffset - t.dataStart

theorem WellFormed.offsets (h : WellFormed t info) {entry : CatalogEntry} (hEntry : entry ∈ t.catalog)
    (hPresent : entry.isPresent = true) : ∃ offsets,
      t.calculateAndStoreFieldOffsets info (t.rawOf entry) = some offsets ∧ ReadsAt t info (t.rawOf entry) offsets ∧
        ∀ first cell last, info.cells = first ++ cell :: last → ∀ place,
          t.placeAfter (t.rawOf entry) first = some place →
            getFieldOffset offsets cell.field cell.arrayIndex = some (place - t.rawOf entry) ∧ t.rawOf entry ≤ place := by
  have hRecord := h.records entry hEntry hPresent
  obtain ⟨offsets, hOffsets, hAt⟩ := calculateAndStoreFieldOffsets_at hRecord.elements
  have hPlaces : ∀ first cell last, info.cells = first ++ cell :: last → ∀ place,
      t.placeAfter (t.rawOf entry) first = some place →
        getFieldOffset offsets cell.field cell.arrayIndex = some (place - t.rawOf entry) ∧ t.rawOf entry ≤ place := by
    intro first cell last hSplit place hPlace
    obtain ⟨same, size, hSame, -, hRest⟩ := placeAfter_split (hSplit ▸ hRecord.elements)
    obtain rfl := Option.some.inj (hPlace.symm.trans hSame)
    have hEnd := le_of_placeAfter hRest
    have hSize := hRecord.size
    have hFrom := le_of_placeAfter hPlace
    refine ⟨?_, hFrom⟩
    have hOffset := hAt first cell last hSplit place hPlace
    rw [← rawOf] at hOffset hEnd
    rwa [Nat.mod_eq_of_lt (by omega)] at hOffset
  refine ⟨offsets, hOffsets, fun first cell last hSplit => ?_, hPlaces⟩
  obtain ⟨place, size, hPlace, -, -⟩ := placeAfter_split (hSplit ▸ hRecord.elements)
  obtain ⟨hOffset, hFrom⟩ := hPlaces first cell last hSplit place hPlace
  have hPlaceRaw : t.placeAfter (t.rawOf entry) first = some place := hPlace
  rw [recordGet, hOffset, Option.bind_some, read?, hPlaceRaw, Option.bind_some, Nat.add_sub_cancel' hFrom]

theorem WellFormed.recordGetId_some (h : WellFormed t info) {entry : CatalogEntry} {y : Nat}
    (hEntry : t.catalog[y]? = some entry) (hPresent : entry.isPresent = true) {offsets : List Nat}
    (hOffsets : t.calculateAndStoreFieldOffsets info (t.rawOf entry) = some offsets) :
    ∃ id, t.recordGetId info (t.rawOf entry) offsets y = some id ∧ id ≤ t.maxId.toNat ∧
      (info.indexField = none → id = t.minId.toNat + y) := by
  rw [recordGetId]
  cases hIndex : info.indexField with
  | none =>
    have hLt := (List.getElem?_eq_some_iff.mp hEntry).1
    have hIds := h.catalog
    have hMax := t.maxId.toNat_lt
    refine ⟨_, rfl, ?_, fun _ => Nat.mod_eq_of_lt (by omega)⟩
    rw [Nat.mod_eq_of_lt (by omega)]
    omega
  | some x =>
    have hMem := List.mem_of_getElem? hEntry
    have hRecord := h.records entry hMem hPresent
    obtain ⟨first, last, hCells, -⟩ := cells_split info.fields 0 (h.index x hIndex) Nat.one_pos
    rw [Nat.zero_add] at hCells
    have hSplit : info.cells = first ++ ⟨x, 0, .int⟩ :: last := hCells
    obtain ⟨place, size, hPlace, -, -⟩ := placeAfter_split (hSplit ▸ hRecord.elements)
    obtain ⟨value, hValue, hLe⟩ := hRecord.id x first last place hIndex hSplit hPlace
    obtain ⟨same, hSame, -, hPlaces⟩ := h.offsets hMem hPresent
    obtain rfl := Option.some.inj (hOffsets.symm.trans hSame)
    obtain ⟨hOffset, hFrom⟩ := hPlaces first _ last hSplit place hPlace
    dsimp only at hOffset ⊢
    refine ⟨value, ?_, hLe, fun hNone => by cases hNone⟩
    rw [hOffset, Option.bind_some, Nat.add_sub_cancel' hFrom, hValue]

def front (info : LoadInfo) (id : Nat) : List UInt8 := if info.hasIndexFieldInData then [] else leBytes 4 id

theorem length_front (info : LoadInfo) (id : Nat) : (front info id).length = info.indexSize := by
  rw [front, Meta.indexSize]
  split
  · rfl
  · exact leBytes_length ..

theorem structPlace_nil (info : LoadInfo) (k : Nat) :
    structPlace info k [] = k * info.getRecordSize + info.indexSize := rfl

theorem structPlace_cells (info : LoadInfo) (k : Nat) :
    structPlace info k info.cells = (k + 1) * info.getRecordSize := by
  rw [structPlace, Meta.cells, cellsSize_fields, Nat.succ_mul, Meta.getRecordSize, Nat.add_comm info.indexSize]

theorem holderPlace_cells (info : LoadInfo) (k : Nat) :
    holderPlace info k info.cells = info.stringHoldersRecordPoolSize * (k + 1) := Nat.mul_succ .. |>.symm

structure RecordFilled (t : SparseTable) (info : LoadInfo) (stringTableSize k : Nat) (p : CatalogEntry × Nat)
    (loading last : Loading) : Prop where
  number : last.recordNum = k + 1
  data : last.dataTable.length = (k + 1) * info.getRecordSize
  strings : last.stringTable.length = loading.stringTable.length + t.textsFrom (t.rawOf p.1) info.cells
  dataFits : last.dataTable.length ≤ t.dataTableSize info
  stringsFit : loading.stringTable.length ≤ stringTableSize → last.stringTable.length ≤ stringTableSize
  later : Later (info.stringHoldersRecordPoolSize * k) loading last
  index : t.maxId + 1 ≠ 0
  named : info.indexField = none →
    (last.dataTable.drop (k * info.getRecordSize)).take 4 = leBytes 4 (t.minId.toNat + p.2)
  stands : ∀ first cell rest, info.cells = first ++ cell :: rest → ∃ element,
    t.read? info (t.rawOf p.1) first cell = some element ∧ ElementOf cell.type element ∧
      Stands t info last k first cell element

theorem WellFormed.fillRecord_filled (h : WellFormed t info) {stringTableSize k : Nat} {p : CatalogEntry × Nat}
    (hEntry : t.catalog[p.2]? = some p.1) (hPresent : p.1.isPresent = true) {loading last : Loading}
    (hNumber : loading.recordNum = k) (hData : loading.dataTable.length = k * info.getRecordSize)
    (hLast : t.fillRecord info stringTableSize loading p = some last) :
    RecordFilled t info stringTableSize k p loading last := by
  have hMem := List.mem_of_getElem? hEntry
  have hRecord := h.records p.1 hMem hPresent
  obtain ⟨offsets, hOffsets, hReads, -⟩ := h.offsets hMem hPresent
  obtain ⟨id, hId, -, hExternal⟩ := h.recordGetId_some hEntry hPresent hOffsets
  rw [fillRecord, if_pos hPresent, getRawRecordData, if_pos hRecord.start, Option.bind_some, ← rawOf, hOffsets,
    Option.bind_some, hId, Option.bind_some] at hLast
  split at hLast
  · rename_i hIndex
    obtain ⟨next, hNext, hRest⟩ := Option.bind_eq_some_iff.mp hLast
    obtain ⟨final, hFinal, rfl⟩ := Option.map_eq_some_iff.mp hRest
    obtain ⟨rfl, hFits⟩ := putNumber_some hNext
    change (loading.dataTable ++ front info id).length ≤ t.dataTableSize info at hFits
    have hStart : (loading.dataTable ++ front info id).length = structPlace info k [] := by
      rw [List.length_append, hData, length_front, structPlace_nil]
    have hFilled := fillCells_filled (k := k) hRecord.elements hReads (List.nil_append _).symm (by exact hNumber)
      (by exact hStart) hFinal
    have hFront : Later (info.stringHoldersRecordPoolSize * k) loading final := by
      obtain ⟨hTable, hStrings, hHolders⟩ := hFilled.later
      exact ⟨(List.prefix_append _ _).trans hTable, hStrings, hHolders⟩
    refine ⟨congrArg (· + 1) (hFilled.number.trans hNumber), hFilled.data.trans (structPlace_cells ..),
      hFilled.strings _ rfl, hFilled.dataFits hFits, hFilled.stringsFit, ⟨hFront.data, hFront.strings, hFront.holders⟩,
      fun hZero => ?_, fun hNone => ?_, hFilled.stands⟩
    · rw [hZero] at hIndex
      exact Nat.not_lt_zero _ hIndex
    · have hInside : info.hasIndexFieldInData = false := by rw [Meta.hasIndexFieldInData, hNone]; rfl
      obtain ⟨rest, hTable⟩ := hFilled.later.data
      change loading.dataTable ++ front info id ++ rest = final.dataTable at hTable
      change (final.dataTable.drop _).take 4 = _
      rw [← hTable, List.append_assoc, ← hData, List.drop_left, front, hInside, if_neg Bool.false_ne_true,
        hExternal hNone]
      have hTake : (leBytes 4 (t.minId.toNat + p.2) ++ rest).take (leBytes 4 (t.minId.toNat + p.2)).length = _ :=
        List.take_left
      rwa [leBytes_length] at hTake
  · cases hLast

theorem WellFormed.fillRecord_exists (h : WellFormed t info) {stringTableSize k : Nat} {p : CatalogEntry × Nat}
    (hEntry : t.catalog[p.2]? = some p.1) (hPresent : p.1.isPresent = true) (hIndex : t.maxId + 1 ≠ 0)
    (hSome : ∀ first cell last, info.cells = first ++ cell :: last → ∃ element,
      t.read? info (t.rawOf p.1) first cell = some element)
    {loading : Loading} (hNumber : loading.recordNum = k) (hData : loading.dataTable.length = k * info.getRecordSize)
    (hLt : k < t.records) (hRoom : t.records * info.getRecordSize ≤ t.dataTableSize info)
    (hStrings : loading.stringTable.length + t.textsFrom (t.rawOf p.1) info.cells ≤ stringTableSize) :
    ∃ last, t.fillRecord info stringTableSize loading p = some last := by
  have hMem := List.mem_of_getElem? hEntry
  have hRecord := h.records p.1 hMem hPresent
  obtain ⟨offsets, hOffsets, hReads, -⟩ := h.offsets hMem hPresent
  obtain ⟨id, hId, hLe, -⟩ := h.recordGetId_some hEntry hPresent hOffsets
  have hRow : (k + 1) * info.getRecordSize ≤ t.records * info.getRecordSize := Nat.mul_le_mul_right _ hLt
  have hPool : info.stringHoldersRecordPoolSize * (k + 1) ≤ info.stringHoldersRecordPoolSize * t.records :=
    Nat.mul_le_mul_left _ hLt
  have hIdLt : id < (t.maxId + 1).toNat := by
    have hNext : (t.maxId + 1).toNat ≠ 0 := fun hZero => hIndex (UInt32.toNat_inj.mp hZero)
    rw [UInt32.toNat_add] at hNext ⊢
    have hMax := t.maxId.toNat_lt
    have hOne : (1 : UInt32).toNat = 1 := rfl
    omega
  have hStart : (loading.dataTable ++ front info id).length = structPlace info k [] := by
    rw [List.length_append, hData, length_front, structPlace_nil]
  have hFits : (loading.dataTable ++ front info id).length ≤ t.dataTableSize info := by
    have hCells := structPlace_cells info k
    have hFrom := structPlace_append info k [] info.cells
    rw [List.nil_append] at hFrom
    omega
  let next : Loading := { loading with
    indexTable := Function.update loading.indexTable id (some loading.dataTable.length)
    dataTable := loading.dataTable ++ front info id }
  obtain ⟨last, hLast⟩ : ∃ last, t.fillCells info stringTableSize (t.rawOf p.1) offsets
      ((if info.hasIndexFieldInData then 0 else 1) + ([] : List Cell).length) (holdersSize []) info.cells next = some last :=
    fillCells_exists hRecord.elements hReads hSome ((structPlace_cells info k).trans_le (hRow.trans hRoom))
      ((holderPlace_cells info k).trans_le hPool) (List.nil_append _).symm rfl hNumber hStart hStrings
  refine ⟨{ last with recordNum := last.recordNum + 1 }, ?_⟩
  have hPut : t.putNumber info
      { loading with indexTable := Function.update loading.indexTable id (some loading.dataTable.length) }
      (front info id) = some next := if_pos (by rwa [List.length_append] at hFits)
  rw [fillRecord, if_pos hPresent, getRawRecordData, if_pos hRecord.start, Option.bind_some, ← rawOf, hOffsets,
    Option.bind_some, hId, Option.bind_some, if_pos hIdLt, ← front, hPut, Option.bind_some]
  exact congrArg _ hLast

end SparseTable

end AshamaneCore.DB2
