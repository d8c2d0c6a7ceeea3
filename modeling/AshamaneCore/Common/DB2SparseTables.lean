import AshamaneCore.Common.DB2SparseRecords

/-!
# Loaded tables with an offset map

A table with an offset map is loaded as it is meant exactly when its narrow
numbers are followed by their extension, the structures fit into the table of
data, and the numbers take no less in the file than in the structures.
-/

namespace AshamaneCore.DB2

open Library.Bytes

namespace SparseTable

variable {t : SparseTable} {info : LoadInfo}

/-! ## The whole table -/

/-- The entries with a record, each with its number in the catalog. -/
def entries (t : SparseTable) : List (CatalogEntry × Nat) := t.catalog.zipIdx.filter fun p => p.1.isPresent

theorem mem_entries {p : CatalogEntry × Nat} (h : p ∈ t.entries) :
    t.catalog[p.2]? = some p.1 ∧ p.1.isPresent = true := by
  obtain ⟨hMem, hPresent⟩ := List.mem_filter.mp h
  exact ⟨List.mem_zipIdx_iff_getElem?.mp hMem, hPresent⟩

variable {entry : CatalogEntry}

theorem exists_entry (hMem : entry ∈ t.catalog) (hPresent : entry.isPresent = true) :
    ∃ k y : Nat, t.entries[k]? = some (entry, y) := by
  obtain ⟨y, hEntry⟩ := List.mem_iff_getElem?.mp hMem
  have hPair : (entry, y) ∈ t.entries :=
    List.mem_filter.mpr ⟨List.mem_zipIdx_iff_getElem?.mpr hEntry, hPresent⟩
  obtain ⟨k, hAt⟩ := List.mem_iff_getElem?.mp hPair
  exact ⟨k, y, hAt⟩

theorem length_entries (t : SparseTable) : t.entries.length = t.records := by
  have hMap : (t.catalog.zipIdx.map Prod.fst).filter CatalogEntry.isPresent = t.entries.map Prod.fst := List.filter_map
  rw [List.zipIdx_map_fst] at hMap
  rw [records, hMap, List.length_map]

theorem foldlM_skip {step : Loading → CatalogEntry × Nat → Option Loading} {f : CatalogEntry × Nat → Bool}
    (h : ∀ loading p, f p = false → step loading p = some loading) (list : List (CatalogEntry × Nat))
    (loading : Loading) :
    list.foldlM step loading = (list.filter f).foldlM step loading := by
  induction list generalizing loading with
  | nil => rfl
  | cons p list ih =>
    cases hKept : f p with
    | true =>
      rw [List.filter_cons_of_pos hKept, List.foldlM_cons, List.foldlM_cons]
      exact congrArg _ (funext ih)
    | false =>
      rw [List.filter_cons_of_neg (by rw [hKept]; decide), List.foldlM_cons, h loading p hKept]
      exact ih loading

def stringsSize (t : SparseTable) (info : LoadInfo) (list : List (CatalogEntry × Nat)) : Nat :=
  (list.map fun p => t.textsFrom (t.rawOf p.1) info.cells).sum

structure RecordsFilled (t : SparseTable) (info : LoadInfo) (stringTableSize : Nat) (list : List (CatalogEntry × Nat))
    (loading : Loading) : Prop where
  number : loading.recordNum = list.length
  data : loading.dataTable.length = list.length * info.getRecordSize
  strings : loading.stringTable.length = stringsSize t info list
  dataFits : loading.dataTable.length ≤ t.dataTableSize info
  stringsFit : loading.stringTable.length ≤ stringTableSize
  index : list ≠ [] → t.maxId + 1 ≠ 0
  named : ∀ k p, list[k]? = some p → info.indexField = none →
    (loading.dataTable.drop (k * info.getRecordSize)).take 4 = leBytes 4 (t.minId.toNat + p.2)
  stands : ∀ k p, list[k]? = some p → ∀ first cell rest, info.cells = first ++ cell :: rest → ∃ element,
    t.read? info (t.rawOf p.1) first cell = some element ∧ ElementOf cell.type element ∧
      Stands t info loading k first cell element

def start : Loading := ⟨fun _ => none, [], [], fun _ => none, 0⟩

theorem recordsFilled_start (t : SparseTable) (info : LoadInfo) (stringTableSize : Nat) :
    RecordsFilled t info stringTableSize [] start where
  number := rfl
  data := (Nat.zero_mul _).symm
  strings := rfl
  dataFits := Nat.zero_le _
  stringsFit := Nat.zero_le _
  index h := absurd rfl h
  named _ _ h := by cases h
  stands _ _ h := by cases h

variable {stringTableSize : Nat} {loading : Loading}

theorem RecordsFilled.concat {list : List (CatalogEntry × Nat)} {p : CatalogEntry × Nat} {next : Loading}
    (h : RecordsFilled t info stringTableSize list loading)
    (hNext : RecordFilled t info stringTableSize list.length p loading next) :
    RecordsFilled t info stringTableSize (list ++ [p]) next := by
  have hLength : (list ++ [p]).length = list.length + 1 := by rw [List.length_append, List.length_singleton]
  have hAt : ∀ (k : Nat) q, (list ++ [p])[k]? = some q → (k < list.length ∧ list[k]? = some q) ∨
      (k = list.length ∧ q = p) := by
    intro k q hQ
    rcases Nat.lt_or_ge k list.length with hLt | hGe
    · rw [List.getElem?_append_left hLt] at hQ
      exact Or.inl ⟨hLt, hQ⟩
    · rw [List.getElem?_append_right hGe, List.getElem?_singleton] at hQ
      split at hQ
      · exact Or.inr ⟨by omega, (Option.some.inj hQ).symm⟩
      · cases hQ
  refine ⟨hNext.number.trans hLength.symm, hLength ▸ hNext.data, ?_, hNext.dataFits, hNext.stringsFit h.stringsFit,
    fun _ => hNext.index, fun k q hQ hNone => ?_, fun k q hQ first cell rest hSplit => ?_⟩
  · rw [hNext.strings, h.strings, stringsSize, stringsSize, List.map_append, List.sum_append]
    rfl
  · rcases hAt k q hQ with ⟨hLt, hOld⟩ | ⟨rfl, rfl⟩
    · rw [take_of_later hNext.later.data]
      · exact h.named k q hOld hNone
      · have hRow : (k + 1) * info.getRecordSize ≤ list.length * info.getRecordSize := Nat.mul_le_mul_right _ hLt
        have hFour : info.indexSize = 4 := by rw [Meta.indexSize, Meta.hasIndexFieldInData, hNone]; rfl
        have hSize : info.indexSize ≤ info.getRecordSize := Nat.le_add_left ..
        rw [h.data]
        rw [Nat.succ_mul] at hRow
        omega
    · exact hNext.named hNone
  · rcases hAt k q hQ with ⟨hLt, hOld⟩ | ⟨rfl, rfl⟩
    · obtain ⟨element, hRead, hOf, hStands⟩ := h.stands k q hOld first cell rest hSplit
      refine ⟨element, hRead, hOf, hStands.later hOf hNext.later ?_ ?_⟩
      · have hRow : (k + 1) * info.getRecordSize ≤ list.length * info.getRecordSize := Nat.mul_le_mul_right _ hLt
        rw [← structPlace_cells, hSplit, structPlace_append, cellsSize, List.map_cons, List.sum_cons] at hRow
        rw [h.data]
        omega
      · have hPool : info.stringHoldersRecordPoolSize * (k + 1) ≤ info.stringHoldersRecordPoolSize * list.length :=
          Nat.mul_le_mul_left _ hLt
        rw [← holderPlace_cells, hSplit, holderPlace_append, holdersSize, List.map_cons, List.sum_cons] at hPool
        omega
    · exact hNext.stands first cell rest hSplit

theorem WellFormed.fill_filled (h : WellFormed t info) {list : List (CatalogEntry × Nat)}
    (hMem : ∀ p ∈ list, p ∈ t.entries) {last : Loading}
    (hLast : list.foldlM (t.fillRecord info stringTableSize) start = some last) :
    RecordsFilled t info stringTableSize list last := by
  induction list using List.reverseRecOn generalizing last with
  | nil =>
    obtain rfl := Option.some.inj hLast
    exact recordsFilled_start t info stringTableSize
  | append_singleton list p ih =>
    rw [List.foldlM_append] at hLast
    obtain ⟨loading, hLoading, hRest⟩ := Option.bind_eq_some_iff.mp hLast
    rw [List.foldlM_cons] at hRest
    obtain ⟨next, hNext, hEnd⟩ := Option.bind_eq_some_iff.mp hRest
    obtain rfl := Option.some.inj hEnd
    have hFilled := ih (fun q hQ => hMem q (List.mem_append_left _ hQ)) hLoading
    obtain ⟨hEntry, hPresent⟩ := mem_entries (hMem p (List.mem_append_right _ List.mem_cons_self))
    exact hFilled.concat (h.fillRecord_filled hEntry hPresent hFilled.number hFilled.data hNext)

theorem stringsSize_append (first rest : List (CatalogEntry × Nat)) :
    stringsSize t info (first ++ rest) = stringsSize t info first + stringsSize t info rest := by
  rw [stringsSize, stringsSize, stringsSize, List.map_append, List.sum_append]

theorem WellFormed.fill_exists (h : WellFormed t info) (hIndex : 0 < t.records → t.maxId + 1 ≠ 0)
    (hSome : ∀ p ∈ t.entries, ∀ first cell rest, info.cells = first ++ cell :: rest → ∃ element,
      t.read? info (t.rawOf p.1) first cell = some element)
    (hRoom : t.records * info.getRecordSize ≤ t.dataTableSize info)
    (hStrings : stringsSize t info t.entries ≤ stringTableSize) {first last : List (CatalogEntry × Nat)}
    (hSplit : t.entries = first ++ last) :
    ∃ loading, first.foldlM (t.fillRecord info stringTableSize) start = some loading := by
  induction first using List.reverseRecOn generalizing last with
  | nil => exact ⟨start, rfl⟩
  | append_singleton first p ih =>
    have hHere : t.entries = first ++ p :: last := by rw [hSplit, List.append_assoc]; rfl
    have hMem : ∀ q ∈ first, q ∈ t.entries := fun q hQ => hHere ▸ List.mem_append_left _ hQ
    have hIn : p ∈ t.entries := hHere ▸ List.mem_append_right _ List.mem_cons_self
    obtain ⟨loading, hLoading⟩ := ih hHere
    have hFilled := h.fill_filled hMem hLoading
    obtain ⟨hEntry, hPresent⟩ := mem_entries hIn
    have hLt : first.length < t.records := by
      rw [← length_entries, hHere, List.length_append, List.length_cons]
      omega
    have hText : loading.stringTable.length + t.textsFrom (t.rawOf p.1) info.cells ≤ stringTableSize := by
      rw [hHere, stringsSize_append, stringsSize, stringsSize, List.map_cons, List.sum_cons] at hStrings
      rw [hFilled.strings, stringsSize]
      omega
    obtain ⟨next, hNext⟩ := h.fillRecord_exists hEntry hPresent (hIndex (Nat.zero_lt_of_lt hLt)) (hSome p hIn)
      hFilled.number hFilled.data hLt hRoom hText
    refine ⟨next, ?_⟩
    rw [List.foldlM_append, hLoading, Option.bind_eq_bind, Option.bind_some, List.foldlM_cons, hNext]
    rfl

/-! ## Tables that are loaded as they are meant -/

def denoted? (t : SparseTable) (info : LoadInfo) (rawRecord : Nat) (first : List Cell) (cell : Cell) : Option Element :=
  (t.placeAfter rawRecord first).bind fun place => t.denotedElement (signOf info first) cell.type cell.field place

/-- Each element of each record is read at the sum of the sizes before it, and stands as it is meant in the structure of
its record; the structures fill the table. -/
structure Exact (t : SparseTable) (info : LoadInfo) (loading : Loading) : Prop where
  offsets : ∀ p ∈ t.entries, ∃ offsets, t.calculateAndStoreFieldOffsets info (t.rawOf p.1) = some offsets ∧
    ∀ first cell rest, info.cells = first ++ cell :: rest → ∃ place, t.placeAfter (t.rawOf p.1) first = some place ∧
      getFieldOffset offsets cell.field cell.arrayIndex = some (place - t.rawOf p.1)
  elements : ∀ k p, t.entries[k]? = some p → ∀ first cell rest, info.cells = first ++ cell :: rest → ∃ element,
    t.denoted? info (t.rawOf p.1) first cell = some element ∧ Stands t info loading k first cell element
  ids : ∀ k p, t.entries[k]? = some p → info.indexField = none →
    (loading.dataTable.drop (k * info.getRecordSize)).take 4 = leBytes 4 (t.minId.toNat + p.2)
  complete : loading.dataTable.length = t.records * info.getRecordSize

def numbersSize (info : LoadInfo) : Nat :=
  info.getRecordSize - info.indexSize - (info.cells.filter fun cell => cell.type.isString).length * 8

/-- The size of the numbers of some elements in the file, wherever they are. -/
def storedSize (t : SparseTable) : List Cell → Nat
  | [] => 0
  | cell :: cells => (if cell.type.isString then 0 else (t.elementSize cell.type cell.field 0).getD 0) + storedSize t cells

/-- The sizes of all records, before they are added up in a word. -/
def catalogSize (t : SparseTable) : Nat :=
  ((t.catalog.filter CatalogEntry.isPresent).map CatalogEntry.recordSize).sum

structure Loadable (t : SparseTable) (info : LoadInfo) : Prop where
  /-- A number that is wider in the structure than in the file is followed by its extension. -/
  words : ∀ entry ∈ t.catalog, entry.isPresent = true → ∀ first cell rest, info.cells = first ++ cell :: rest →
    cell.type = .short ∨ cell.type = .long → ∀ place size value, t.placeAfter (t.rawOf entry) first = some place →
      t.elementSize cell.type cell.field place = some size → size < cell.type.size →
        readAt t.data place size = some value → readAt t.data place cell.type.size =
          some ((extended (signOf info first) size value % 256 ^ cell.type.size).toNat)
  index : 0 < t.records → t.maxId + 1 ≠ 0
  structs : t.records * info.getRecordSize < 2 ^ 32
  /-- The numbers of all records take no less in the file than in the structures, and less what the sum of the sizes
  loses in a word. -/
  numbers : t.records * numbersSize info + t.catalogSize / 2 ^ 32 * 2 ^ 32 ≤ t.records * t.storedSize info.cells

theorem placeAfter_size {position ending : Nat} {cells : List Cell} (h : t.placeAfter position cells = some ending) :
    ending = position + (t.storedSize cells + t.textsFrom position cells) := by
  induction cells generalizing position with
  | nil => exact (Option.some.inj h).symm
  | cons cell cells ih =>
    obtain ⟨size, hSize, hRest⟩ := Option.bind_eq_some_iff.mp h
    rw [ih hRest, storedSize, textsFrom, hSize, Option.getD_some]
    split
    · omega
    · rename_i hNumber
      have hSame : t.elementSize cell.type cell.field 0 = some size := by
        rw [← hSize]
        cases hType : cell.type with
        | string | stringNotLocalized => rw [hType] at hNumber; exact absurd rfl hNumber
        | float | int | byte | short | long => rfl
      rw [hSame, Option.getD_some]
      omega

theorem sum_map_const_add {α : Type*} (c : Nat) (f : α → Nat) (list : List α) :
    (list.map fun a => c + f a).sum = list.length * c + (list.map f).sum := by
  induction list with
  | nil => exact (Nat.zero_mul c).symm
  | cons a list ih =>
    rw [List.map_cons, List.sum_cons, ih, List.map_cons, List.sum_cons, List.length_cons, Nat.succ_mul]
    omega

theorem WellFormed.catalogSize_eq (h : WellFormed t info) :
    t.catalogSize = t.records * t.storedSize info.cells + stringsSize t info t.entries := by
  have hMap : (t.catalog.zipIdx.map Prod.fst).filter CatalogEntry.isPresent = t.entries.map Prod.fst := List.filter_map
  rw [List.zipIdx_map_fst] at hMap
  rw [catalogSize, hMap, List.map_map, ← length_entries, stringsSize]
  have hSizes : ∀ p ∈ t.entries, (CatalogEntry.recordSize ∘ Prod.fst) p =
      t.storedSize info.cells + t.textsFrom (t.rawOf p.1) info.cells := by
    intro p hMem
    obtain ⟨hEntry, hPresent⟩ := mem_entries hMem
    have hSize := placeAfter_size (h.records p.1 (List.mem_of_getElem? hEntry) hPresent).elements
    exact Nat.add_left_cancel hSize
  rw [List.map_congr_left hSizes, sum_map_const_add]

theorem WellFormed.strings_fit_iff (h : WellFormed t info) :
    t.records * numbersSize info + stringsSize t info t.entries ≤ t.expandedDataSize ↔
      t.records * numbersSize info + t.catalogSize / 2 ^ 32 * 2 ^ 32 ≤ t.records * t.storedSize info.cells := by
  have hSize := h.catalogSize_eq
  have hSplit := Nat.div_add_mod t.catalogSize (2 ^ 32)
  rw [show t.expandedDataSize = t.catalogSize % 2 ^ 32 from rfl]
  omega

theorem stringTableSize_some {limit : Nat} : t.stringTableSize info = some limit ↔
    t.records * numbersSize info ≤ t.expandedDataSize ∧ t.expandedDataSize - t.records * numbersSize info = limit := by
  rw [stringTableSize, ← numbersSize]
  split
  · rename_i hLe
    rw [Option.some.injEq, and_iff_right hLe]
  · rename_i hNot
    exact iff_of_false (by simp) fun h => hNot h.1

theorem autoProduceData_some (hFields : info.fields.length = t.fieldCount) :
    t.autoProduceData info = some loading ↔ t.records * numbersSize info ≤ t.expandedDataSize ∧
      t.entries.foldlM (t.fillRecord info (t.expandedDataSize - t.records * numbersSize info)) start = some loading := by
  have hSkip : ∀ limit, t.catalog.zipIdx.foldlM (t.fillRecord info limit) start =
      t.entries.foldlM (t.fillRecord info limit) start := fun limit =>
    foldlM_skip (fun loading p hPresent => if_neg (by rw [hPresent]; decide)) _ _
  rw [autoProduceData, if_pos hFields, Option.bind_eq_some_iff]
  constructor
  · rintro ⟨limit, hLimit, hFold⟩
    obtain ⟨hLe, rfl⟩ := stringTableSize_some.mp hLimit
    exact ⟨hLe, (hSkip _).symm.trans hFold⟩
  · rintro ⟨hLe, hFold⟩
    exact ⟨_, stringTableSize_some.mpr ⟨hLe, rfl⟩, (hSkip _).trans hFold⟩

theorem denotedElement_some (isSigned : Bool) {type : FieldType} {field place size : Nat}
    (hSize : t.elementSize type field place = some size)
    (hRoom : type.isString = false → place + size ≤ t.data.length) :
    ∃ element, t.denotedElement isSigned type field place = some element := by
  cases type with
  | string | stringNotLocalized =>
    obtain ⟨text, hText, -⟩ := Option.map_eq_some_iff.mp hSize
    exact ⟨.text text, by rw [denotedElement, hText]; rfl⟩
  | float | int | byte | short | long =>
    obtain ⟨value, hValue, -⟩ := readAt_some (hRoom rfl)
    exact ⟨_, by rw [denotedElement, hSize, Option.bind_some, hValue]; rfl⟩

variable {first : List Cell} {cell : Cell}

theorem RecordWell.element (h : RecordWell t info entry) {rest : List Cell}
    (hSplit : info.cells = first ++ cell :: rest) : ∃ place size, t.placeAfter (t.rawOf entry) first = some place ∧
      t.elementSize cell.type cell.field place = some size ∧ place + size ≤ t.data.length := by
  obtain ⟨place, size, hPlace, hSize, hRest⟩ := placeAfter_split (hSplit ▸ h.elements)
  exact ⟨place, size, hPlace, hSize, (le_of_placeAfter hRest).trans h.inside⟩

theorem Loadable.read (h : Loadable t info) (hWell : WellFormed t info) (hMem : entry ∈ t.catalog)
    (hPresent : entry.isPresent = true) {rest : List Cell}
    (hSplit : info.cells = first ++ cell :: rest) : ∃ element,
      t.read? info (t.rawOf entry) first cell = some element ∧ t.denoted? info (t.rawOf entry) first cell = some element := by
  obtain ⟨place, size, hPlace, hSize, hRoom⟩ := (hWell.records entry hMem hPresent).element hSplit
  obtain ⟨element, hElement⟩ := denotedElement_some (signOf info first) hSize fun _ => hRoom
  have hCell : cell ∈ info.cells := hSplit ▸ List.mem_append_right _ List.mem_cons_self
  refine ⟨element, ?_, by rw [denoted?, hPlace, Option.bind_some, hElement]⟩
  rw [read?, hPlace, Option.bind_some, ← hElement]
  rcases Classical.em (cell.type = .short ∨ cell.type = .long → cell.type.size ≤ size) with hWidth | hNarrow
  · exact hWell.readElement_eq hCell _ hSize hRoom hWidth
  · obtain ⟨hType, hLt⟩ := Classical.not_imp.mp hNarrow
    obtain ⟨value, hValue, -⟩ := readAt_some hRoom
    have hWide := h.words entry hMem hPresent first cell rest hSplit hType place size value hPlace hSize
      (Nat.lt_of_not_le hLt) hValue
    rcases hType with hShort | hLong
    · rw [hShort] at hWide hSize ⊢
      rw [readElement, denotedElement, hSize, Option.bind_some, hValue, hWide]
      rfl
    · rw [hLong] at hWide hSize ⊢
      rw [readElement, denotedElement, hSize, Option.bind_some, hValue, hWide]
      rfl

theorem leBytes_inj {width first second : Nat} (hFirst : first < 256 ^ width) (hSecond : second < 256 ^ width)
    (h : leBytes width first = leBytes width second) : first = second := by
  have hValue := congrArg leNat h
  rwa [leNat_leBytes, leNat_leBytes, Nat.mod_eq_of_lt hFirst, Nat.mod_eq_of_lt hSecond] at hValue

theorem wide_of_stands {k : Nat} {isSigned : Bool}
    {place size value : Nat} {element other : Element} (hType : cell.type = .short ∨ cell.type = .long)
    (hSize : t.elementSize cell.type cell.field place = some size) (hValue : readAt t.data place size = some value)
    (hRead : t.readElement isSigned cell.type cell.field place = some element)
    (hStands : Stands t info loading k first cell element)
    (hDenoted : t.denotedElement isSigned cell.type cell.field place = some other)
    (hOther : Stands t info loading k first cell other) :
    readAt t.data place cell.type.size = some ((extended isSigned size value % 256 ^ cell.type.size).toNat) := by
  have hElement : (readAt t.data place cell.type.size).map (fun value => Element.number (leBytes cell.type.size value)) =
      some element := by
    rcases hType with hShort | hLong
    · rw [hShort] at hRead ⊢
      exact hRead
    · rw [hLong] at hRead ⊢
      exact hRead
  have hNumber : other = .number (leBytes cell.type.size ((extended isSigned size value % 256 ^ cell.type.size).toNat)) := by
    rcases hType with hShort | hLong
    · rw [hShort] at hSize hDenoted ⊢
      rw [denotedElement, hSize, Option.bind_some, hValue] at hDenoted
      exact (Option.some.inj hDenoted).symm
    · rw [hLong] at hSize hDenoted ⊢
      rw [denotedElement, hSize, Option.bind_some, hValue] at hDenoted
      exact (Option.some.inj hDenoted).symm
  obtain ⟨found, hFound, rfl⟩ := Option.map_eq_some_iff.mp hElement
  obtain rfl := hNumber
  have hBytes : leBytes cell.type.size found =
      leBytes cell.type.size ((extended isSigned size value % 256 ^ cell.type.size).toNat) := hStands.symm.trans hOther
  have hRoom : place + cell.type.size ≤ t.data.length := by
    rw [readAt] at hFound
    split at hFound
    · assumption
    · cases hFound
  obtain ⟨same, hSame, hLt⟩ := readAt_some hRoom
  obtain rfl := Option.some.inj (hFound.symm.trans hSame)
  rw [hFound, leBytes_inj hLt (toNat_emod_lt ..) hBytes]

/-- A well-formed table with an offset map is loaded as it is meant exactly when its narrow numbers are followed by their
extension, its structures are counted in a word, and its numbers take no less in the file than in the structures. -/
theorem autoProduceData_exact_iff (t : SparseTable) (info : LoadInfo) (h : WellFormed t info) :
    (∃ loading, t.autoProduceData info = some loading ∧ Exact t info loading) ↔ Loadable t info := by
  constructor
  · rintro ⟨loading, hLoading, hExact⟩
    obtain ⟨hNumbers, hFold⟩ := (autoProduceData_some h.fields).mp hLoading
    have hFilled := h.fill_filled (fun _ hMem => hMem) hFold
    refine ⟨fun entry hMem hPresent first cell rest hSplit hType place size value hPlace hSize _ hValue => ?_,
      fun hPos => hFilled.index fun hNil => ?_, ?_, ?_⟩
    · obtain ⟨k, y, hAt⟩ := exists_entry hMem hPresent
      obtain ⟨element, hRead, hOf, hStands⟩ := hFilled.stands k _ hAt first cell rest hSplit
      obtain ⟨other, hDenoted, hOther⟩ := hExact.elements k _ hAt first cell rest hSplit
      rw [read?, hPlace, Option.bind_some] at hRead
      rw [denoted?, hPlace, Option.bind_some] at hDenoted
      exact wide_of_stands hType hSize hValue hRead hStands hDenoted hOther
    · rw [← length_entries, hNil] at hPos
      exact Nat.lt_irrefl _ hPos
    · have hFits := hFilled.dataFits
      rw [hFilled.data, length_entries, dataTableSize] at hFits
      exact lt_of_le_of_lt hFits (Nat.mod_lt _ (by decide))
    · have hFits := hFilled.stringsFit
      rw [hFilled.strings] at hFits
      exact h.strings_fit_iff.mp (by omega)
  · intro hLoadable
    have hRoom : t.records * info.getRecordSize ≤ t.dataTableSize info := by
      rw [dataTableSize, Nat.mod_eq_of_lt hLoadable.structs]
    have hSome : ∀ p ∈ t.entries, ∀ first cell rest, info.cells = first ++ cell :: rest → ∃ element,
        t.read? info (t.rawOf p.1) first cell = some element ∧ t.denoted? info (t.rawOf p.1) first cell = some element := by
      intro p hMem first cell rest hSplit
      obtain ⟨hEntry, hPresent⟩ := mem_entries hMem
      exact hLoadable.read h (List.mem_of_getElem? hEntry) hPresent hSplit
    have hStrings := h.strings_fit_iff.mpr hLoadable.numbers
    obtain ⟨loading, hFold⟩ := h.fill_exists hLoadable.index
      (fun p hMem first cell rest hSplit => (hSome p hMem first cell rest hSplit).imp fun _ hBoth => hBoth.1) hRoom
      (show stringsSize t info t.entries ≤ t.expandedDataSize - t.records * numbersSize info by omega)
      (List.append_nil _).symm
    have hFilled := h.fill_filled (fun _ hMem => hMem) hFold
    refine ⟨loading, (autoProduceData_some h.fields).mpr ⟨by omega, hFold⟩, fun p hMem => ?_,
      fun k p hAt first cell rest hSplit => ?_, hFilled.named, ?_⟩
    · obtain ⟨hEntry, hPresent⟩ := mem_entries hMem
      have hIn := List.mem_of_getElem? hEntry
      obtain ⟨offsets, hOffsets, -, hPlaces⟩ := h.offsets hIn hPresent
      refine ⟨offsets, hOffsets, fun first cell rest hSplit => ?_⟩
      obtain ⟨place, size, hPlace, -, -⟩ := (h.records p.1 hIn hPresent).element hSplit
      exact ⟨place, hPlace, (hPlaces first cell rest hSplit place hPlace).1⟩
    · obtain ⟨element, hRead, -, hStands⟩ := hFilled.stands k p hAt first cell rest hSplit
      obtain ⟨same, hSame, hDenoted⟩ := hSome p (List.mem_of_getElem? hAt) first cell rest hSplit
      obtain rfl := Option.some.inj (hRead.symm.trans hSame)
      exact ⟨element, hDenoted, hStands⟩
    · rw [hFilled.data, length_entries]

/-! ### Tables whose integers are stored in one byte -/

def letterInfo : LoadInfo :=
  { fields := [⟨.int, 1⟩, ⟨.byte, 1⟩, ⟨.string, 1⟩], indexField := none, parentIndexField := none
    isSigned := [false, true, false, false] }

/-- Two records with a hole between them; the byte of a structure takes four in the file. -/
def letterTable : SparseTable :=
  { fieldCount := 3, minId := 3, maxId := 5, locale := 1, dataStart := 10
    data := [254, 7, 0, 0, 0, 97, 98, 0, 1, 9, 0, 0, 0, 99, 0], catalog := [⟨10, 8⟩, ⟨0, 0⟩, ⟨18, 7⟩]
    unusedBits := [24, 0, 0] }

example : (letterTable.autoProduceData letterInfo).map (fun loading => (loading.dataTable, loading.stringTable)) =
    some ([3, 0, 0, 0, 254, 255, 255, 255, 7, 0, 0, 0, 0, 0, 0, 0, 0,
      5, 0, 0, 0, 1, 0, 0, 0, 9, 96, 0, 0, 0, 0, 0, 0, 0], [97, 98, 0, 99, 0]) := by decide

theorem letterTable_wellFormed : WellFormed letterTable letterInfo where
  fields := rfl
  unusedBits x f hField hType := by
    match x, hField with
    | 0, hField => exact ⟨24, rfl, Or.inr (Or.inr (Or.inr (Or.inl rfl)))⟩
    | 1, hField => exact ⟨0, rfl, Or.inl rfl⟩
    | 2, hField =>
      obtain rfl := Option.some.inj hField
      rcases hType with h | h | h | h <;> cases h
  catalog := rfl
  index x h := by cases h
  records entry hMem hPresent := by
    have hCases : entry = ⟨10, 8⟩ ∨ entry = ⟨0, 0⟩ ∨ entry = ⟨18, 7⟩ := by simpa [letterTable] using hMem
    rcases hCases with rfl | rfl | rfl
    · exact ⟨by decide, by decide, by decide, by decide, fun _ _ _ _ hNone => by cases hNone⟩
    · cases hPresent
    · exact ⟨by decide, by decide, by decide, by decide, fun _ _ _ _ hNone => by cases hNone⟩

theorem letterTable_exact : ∃ loading, letterTable.autoProduceData letterInfo = some loading ∧
    Exact letterTable letterInfo loading := by
  refine (autoProduceData_exact_iff _ _ letterTable_wellFormed).mpr ⟨fun _ _ _ first cell rest hSplit hType => ?_,
    fun _ => by decide, by decide, by decide⟩
  have hMem : cell ∈ letterInfo.cells := hSplit ▸ List.mem_append_right _ List.mem_cons_self
  have hCases : cell = ⟨0, 0, .int⟩ ∨ cell = ⟨1, 0, .byte⟩ ∨ cell = ⟨2, 0, .string⟩ := by
    have hCells : letterInfo.cells = [⟨0, 0, .int⟩, ⟨1, 0, .byte⟩, ⟨2, 0, .string⟩] := rfl
    rw [hCells] at hMem
    simpa using hMem
  rcases hCases with rfl | rfl | rfl <;> rcases hType with h | h <;> cases h

def wordInfo : LoadInfo :=
  { fields := [⟨.int, 1⟩, ⟨.string, 1⟩], indexField := none, parentIndexField := none, isSigned := [false, false, false] }

/-- The number takes one byte of the record, and four are taken off for it. -/
def wordTable : SparseTable :=
  { fieldCount := 2, minId := 3, maxId := 3, locale := 1, dataStart := 10
    data := [5, 97, 98, 99, 0], catalog := [⟨10, 5⟩], unusedBits := [24, 0] }

/-- The string is written behind the end of a table of one byte. -/
theorem wordTable_not_loaded : WellFormed wordTable wordInfo ∧ wordTable.stringTableSize wordInfo = some 1 ∧
    ¬ ∃ loading, wordTable.autoProduceData wordInfo = some loading ∧ Exact wordTable wordInfo loading := by
  refine ⟨⟨rfl, fun x f hField hType => ?_, rfl, fun x h => (by cases h), fun entry hMem hPresent => ?_⟩, by decide, ?_⟩
  · match x, hField with
    | 0, hField => exact ⟨24, rfl, Or.inr (Or.inr (Or.inr (Or.inl rfl)))⟩
    | 1, hField =>
      obtain rfl := Option.some.inj hField
      rcases hType with h | h | h | h <;> cases h
  · obtain rfl := List.mem_singleton.mp hMem
    exact ⟨by decide, by decide, by decide, by decide, fun _ _ _ _ hNone => by cases hNone⟩
  · rintro ⟨loading, hLoading, -⟩
    have hNone : wordTable.autoProduceData wordInfo = none := by decide
    cases hNone.symm.trans hLoading

end SparseTable

end AshamaneCore.DB2
