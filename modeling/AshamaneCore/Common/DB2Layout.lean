import AshamaneCore.Common.DB2FileLoader

/-!
# The layout of loaded tables

The loaded structures follow each other, and in each of them the elements of
its fields. A parent is written over the element of one field and leaves all
others as they are.
-/

namespace AshamaneCore.DB2

open Library.Bytes

variable {t : Table} {info : Meta}

/-! ## Places -/

variable {x : Nat} {f : Field}

theorem sizeOf_take_succ {fields : List Field} (h : fields[x]? = some f) :
    Meta.sizeOf (fields.take (x + 1)) = Meta.sizeOf (fields.take x) + f.arraySize * f.type.size := by
  rw [List.take_add_one, h, Meta.sizeOf, Meta.sizeOf, List.map_append, List.sum_append]
  simp

variable {y : Nat}

theorem sizeOf_take_le (fields : List Field) (h : x ≤ y) :
    Meta.sizeOf (fields.take x) ≤ Meta.sizeOf (fields.take y) := by
  obtain ⟨k, rfl⟩ := Nat.exists_eq_add_of_le h
  rw [List.take_add, Meta.sizeOf, Meta.sizeOf, List.map_append, List.sum_append]
  exact Nat.le_add_right ..

theorem sizeOf_take_le_all (fields : List Field) (x : Nat) : Meta.sizeOf (fields.take x) ≤ Meta.sizeOf fields := by
  have hLe := sizeOf_take_le fields (Nat.le_add_right x fields.length)
  rwa [List.take_of_length_le (Nat.le_add_left ..)] at hLe

def Meta.elementOffset (info : Meta) (x z : Nat) (f : Field) : Nat :=
  info.getParentIndexFieldOffset x + z * f.type.size

section

variable {x z : Nat} {f : Field}

theorem elementOffset_end_le (hField : info.fields[x]? = some f) (hElement : z < f.arraySize) :
    info.elementOffset x z f + f.type.size ≤ info.getParentIndexFieldOffset (x + 1) := by
  have hRow : (z + 1) * f.type.size ≤ f.arraySize * f.type.size := Nat.mul_le_mul_right _ hElement
  rw [Nat.add_mul, Nat.one_mul] at hRow
  rw [Meta.elementOffset, Meta.getParentIndexFieldOffset, Meta.getParentIndexFieldOffset, sizeOf_take_succ hField]
  omega

theorem offset_le_recordSize (info : Meta) (x : Nat) : info.getParentIndexFieldOffset x ≤ info.getRecordSize := by
  have hLe := sizeOf_take_le_all info.fields x
  rw [Meta.getParentIndexFieldOffset, Meta.getRecordSize]
  omega

theorem elementOffset_inside (hField : info.fields[x]? = some f) (hElement : z < f.arraySize) :
    info.elementOffset x z f + f.type.size ≤ info.getRecordSize :=
  (elementOffset_end_le hField hElement).trans (offset_le_recordSize info _)

theorem elementOffset_apart {x' z' : Nat} {f' : Field} (hField : info.fields[x]? = some f) (hElement : z < f.arraySize)
    (hField' : info.fields[x']? = some f') (hElement' : z' < f'.arraySize) (hNe : ¬ (x = x' ∧ z = z')) :
    info.elementOffset x z f + f.type.size ≤ info.elementOffset x' z' f' ∨
      info.elementOffset x' z' f' + f'.type.size ≤ info.elementOffset x z f := by
  have hBefore : ∀ {a b c d : Nat} {g g' : Field}, info.fields[a]? = some g → c < g.arraySize → a < b →
      info.elementOffset a c g + g.type.size ≤ info.elementOffset b d g' := fun {a b _ _ _ _} hAt hIn hLt => by
    refine (elementOffset_end_le hAt hIn).trans ?_
    have hMono := sizeOf_take_le info.fields (show a + 1 ≤ b from hLt)
    rw [Meta.elementOffset, Meta.getParentIndexFieldOffset, Meta.getParentIndexFieldOffset]
    omega
  rcases lt_trichotomy x x' with hLt | rfl | hGt
  · exact Or.inl (hBefore hField hElement hLt)
  · obtain rfl := Option.some.inj (hField.symm.trans hField')
    have hOther : z ≠ z' := fun hSame => hNe ⟨rfl, hSame⟩
    rw [Meta.elementOffset, Meta.elementOffset]
    rcases Nat.lt_or_gt_of_ne hOther with hLt | hGt
    · have hRow : (z + 1) * f.type.size ≤ z' * f.type.size := Nat.mul_le_mul_right _ hLt
      rw [Nat.add_mul, Nat.one_mul] at hRow
      omega
    · have hRow : (z' + 1) * f.type.size ≤ z * f.type.size := Nat.mul_le_mul_right _ hGt
      rw [Nat.add_mul, Nat.one_mul] at hRow
      omega
  · exact Or.inr (hBefore hField' hElement' hGt)

end

/-! ## Elements of a record -/

def cellsSize (cells : List Cell) : Nat := (cells.map fun cell => cell.type.size).sum

theorem cellsSize_append (first second : List Cell) :
    cellsSize (first ++ second) = cellsSize first + cellsSize second := by
  rw [cellsSize, List.map_append, List.sum_append]
  rfl

theorem cellsSize_map (f : Field) (index : Nat) (list : List Nat) :
    cellsSize (list.map fun arrayIndex => ⟨index, arrayIndex, f.type⟩) = list.length * f.type.size := by
  induction list with
  | nil => exact (Nat.zero_mul _).symm
  | cons i list ih =>
    rw [List.length_cons, Nat.add_mul, Nat.one_mul, Nat.add_comm, ← ih]
    rfl

theorem cellsSize_fieldCells (f : Field) (index : Nat) :
    cellsSize (Meta.fieldCells f index) = f.arraySize * f.type.size := by
  rw [Meta.fieldCells.eq_def, cellsSize_map, List.length_range]

theorem cellsSize_fields (fields : List Field) (n : Nat) :
    cellsSize ((fields.zipIdx n).flatMap fun p => Meta.fieldCells p.1 p.2) = Meta.sizeOf fields := by
  induction fields generalizing n with
  | nil => rfl
  | cons f fields ih =>
    rw [List.zipIdx_cons, List.flatMap_cons, cellsSize_append, ih, cellsSize_fieldCells]
    rfl

variable {z n : Nat}

theorem range_split (h : z < n) : ∃ last, List.range n = List.range z ++ z :: last := by
  refine ⟨(List.range n).drop (z + 1), ?_⟩
  have hLt : z < (List.range n).length := by rwa [List.length_range]
  have hSplit := List.take_append_drop z (List.range n)
  rw [List.drop_eq_getElem_cons hLt, List.getElem_range, List.take_range, Nat.min_eq_left h.le] at hSplit
  exact hSplit.symm

theorem cells_split (fields : List Field) (n : Nat) (hField : fields[x]? = some f)
    (hElement : z < f.arraySize) : ∃ first last,
      ((fields.zipIdx n).flatMap fun p => Meta.fieldCells p.1 p.2) = first ++ ⟨n + x, z, f.type⟩ :: last ∧
      cellsSize first = Meta.sizeOf (fields.take x) + z * f.type.size := by
  induction fields generalizing n x with
  | nil => cases hField
  | cons g fields ih =>
    rw [List.zipIdx_cons, List.flatMap_cons]
    cases x with
    | zero =>
      obtain rfl := Option.some.inj hField
      obtain ⟨last, hRange⟩ := range_split hElement
      refine ⟨(List.range z).map fun arrayIndex => ⟨n, arrayIndex, g.type⟩,
        (last.map fun arrayIndex => ⟨n, arrayIndex, g.type⟩) ++
          (fields.zipIdx (n + 1)).flatMap fun p => Meta.fieldCells p.1 p.2, ?_, ?_⟩
      · rw [Meta.fieldCells.eq_def, hRange, List.map_append, List.map_cons, List.append_assoc, List.cons_append]
        rfl
      · rw [cellsSize_map, List.length_range, List.take_zero]
        exact (Nat.zero_add _).symm
    | succ x =>
      have hRest : fields[x]? = some f := hField
      obtain ⟨first, last, hSplit, hSize⟩ := ih (n + 1) hRest
      refine ⟨Meta.fieldCells g n ++ first, last, ?_, ?_⟩
      · rw [hSplit, List.append_assoc, Nat.add_assoc, Nat.add_comm 1 x]
      · rw [cellsSize_append, hSize, cellsSize_fieldCells, List.take_succ_cons, Meta.sizeOf, Meta.sizeOf,
          List.map_cons, List.sum_cons, Nat.add_assoc]

variable {offset : Nat} {bytes : List UInt8}

theorem cellData_length {cell : Cell}
    (h : cellData t info y offset cell = some bytes) : bytes.length = cell.type.size := by
  rw [cellData] at h
  split at h
  · rename_i hString
    obtain rfl := Option.some.inj h
    rw [leBytes_length]
    cases hType : cell.type with
    | string => rfl
    | stringNotLocalized => rfl
    | float | int | byte | short | long => rw [hType] at hString; cases hString
  · split at h
    · obtain ⟨value, -, rfl⟩ := Option.map_eq_some_iff.mp h
      exact leBytes_length ..
    · obtain rfl := Option.some.inj h
      exact leBytes_length ..

theorem cellsData_length {cells : List Cell}
    (h : cellsData t info y offset cells = some bytes) : bytes.length = cellsSize cells := by
  induction cells generalizing offset bytes with
  | nil =>
    obtain rfl := Option.some.inj h
    rfl
  | cons cell cells ih =>
    rw [cellsData] at h
    obtain ⟨piece, hPiece, hRest⟩ := Option.bind_eq_some_iff.mp h
    obtain ⟨rest, hCells, rfl⟩ := Option.map_eq_some_iff.mp hRest
    rw [List.length_append, cellData_length hPiece, ih hCells]
    rfl

theorem cellsData_at {first last : List Cell} {cell : Cell}
    (h : cellsData t info y offset (first ++ cell :: last) = some bytes) : ∃ stringFieldOffset piece,
      cellData t info y stringFieldOffset cell = some piece ∧
        (bytes.drop (cellsSize first)).take cell.type.size = piece := by
  induction first generalizing offset bytes with
  | nil =>
    rw [List.nil_append, cellsData] at h
    obtain ⟨piece, hPiece, hRest⟩ := Option.bind_eq_some_iff.mp h
    obtain ⟨rest, -, rfl⟩ := Option.map_eq_some_iff.mp hRest
    refine ⟨offset, piece, hPiece, ?_⟩
    rw [← cellData_length hPiece]
    exact List.take_left
  | cons head first ih =>
    rw [List.cons_append, cellsData] at h
    obtain ⟨piece, hPiece, hRest⟩ := Option.bind_eq_some_iff.mp h
    obtain ⟨rest, hCells, rfl⟩ := Option.map_eq_some_iff.mp hRest
    obtain ⟨stringFieldOffset, found, hFound, hAt⟩ := ih hCells
    refine ⟨stringFieldOffset, found, hFound, ?_⟩
    have hSize : cellsSize (head :: first) = piece.length + cellsSize first := by
      rw [cellData_length hPiece]
      rfl
    rw [hSize, ← List.drop_drop, List.drop_left]
    exact hAt

/-! ## Records -/

theorem recordData_length {id : Nat} (h : recordData t info y = some (id, bytes)) :
    bytes.length = info.getRecordSize := by
  rw [recordData] at h
  obtain ⟨indexVal, -, hRest⟩ := Option.bind_eq_some_iff.mp h
  obtain ⟨cells, hCells, hPair⟩ := Option.map_eq_some_iff.mp hRest
  obtain ⟨-, rfl⟩ := Prod.mk.inj hPair
  rw [List.length_append, cellsData_length hCells, Meta.cells, cellsSize_fields, Meta.getRecordSize, Meta.indexSize]
  split
  · exact Nat.zero_add _
  · rw [leBytes_length]
    exact Nat.add_comm ..

theorem recordData_at {id : Nat} (h : recordData t info y = some (id, bytes)) (hField : info.fields[x]? = some f)
    (hElement : z < f.arraySize) : ∃ stringFieldOffset piece,
      cellData t info y stringFieldOffset ⟨x, z, f.type⟩ = some piece ∧
        (bytes.drop (info.elementOffset x z f)).take f.type.size = piece := by
  rw [recordData] at h
  obtain ⟨indexVal, -, hRest⟩ := Option.bind_eq_some_iff.mp h
  obtain ⟨cells, hCells, hPair⟩ := Option.map_eq_some_iff.mp hRest
  obtain ⟨-, rfl⟩ := Prod.mk.inj hPair
  obtain ⟨first, last, hSplit, hSize⟩ := cells_split info.fields 0 hField hElement
  rw [Meta.cells, hSplit, Nat.zero_add] at hCells
  obtain ⟨stringFieldOffset, piece, hPiece, hAt⟩ := cellsData_at hCells
  refine ⟨stringFieldOffset, piece, hPiece, ?_⟩
  have hFront : (if info.hasIndexFieldInData then [] else leBytes 4 indexVal).length = info.indexSize := by
    rw [Meta.indexSize]
    split
    · rfl
    · exact leBytes_length ..
  rw [Meta.elementOffset, Meta.getParentIndexFieldOffset, Nat.add_assoc, ← hSize, ← hFront, ← List.drop_drop,
    List.drop_left]
  exact hAt

/-! ## The table of data -/

structure Laid (t : Table) (info : Meta) (records n : Nat) (produced : Produced) : Prop where
  count : produced.records = records
  length : produced.dataTable.length = n * info.getRecordSize
  rows : ∀ y < n, ∃ id bytes, recordData t info y = some (id, bytes) ∧ id < records ∧
    (produced.dataTable.drop (y * info.getRecordSize)).take info.getRecordSize = bytes
  room : n * info.getRecordSize ≤ dataTableSize t info

variable {records : Nat} {produced : Produced}

theorem Laid.next {next : Produced} (h : Laid t info records n produced)
    (hNext : produceRecord t info produced n = some next) : Laid t info records (n + 1) next := by
  rw [produceRecord] at hNext
  obtain ⟨⟨id, bytes⟩, hData, hRest⟩ := Option.bind_eq_some_iff.mp hNext
  dsimp only at hRest
  split at hRest
  · rename_i hFits
    obtain rfl := Option.some.inj hRest
    have hLength := recordData_length hData
    have hRow : (n + 1) * info.getRecordSize = n * info.getRecordSize + info.getRecordSize := Nat.succ_mul ..
    refine ⟨h.count, ?_, fun y hBefore => ?_, ?_⟩
    · rw [List.length_append, h.length, hLength, hRow]
    · rcases Nat.lt_succ_iff_lt_or_eq.mp hBefore with hLt | rfl
      · obtain ⟨id', bytes', hOld, hId, hAt⟩ := h.rows y hLt
        refine ⟨id', bytes', hOld, hId, ?_⟩
        have hEnd : (y + 1) * info.getRecordSize ≤ n * info.getRecordSize := Nat.mul_le_mul_right _ hLt
        rw [Nat.succ_mul, ← h.length] at hEnd
        dsimp only
        rw [List.drop_append_of_le_length (by omega), List.take_append_of_le_length, hAt]
        rw [List.length_drop]
        omega
      · refine ⟨id, bytes, hData, h.count ▸ hFits.1, ?_⟩
        dsimp only
        rw [← h.length, List.drop_left, ← hLength, List.take_length]
    · rw [hRow, ← h.length, ← hLength]
      exact hFits.2
  · cases hRest

theorem laid_of_produced
    (h : (List.range n).foldlM (produceRecord t info) ⟨records, fun _ => none, []⟩ = some produced) :
    Laid t info records n produced := by
  induction n generalizing produced with
  | zero =>
    obtain rfl := Option.some.inj h
    refine ⟨rfl, (Nat.zero_mul _).symm, fun y hLt => absurd hLt (Nat.not_lt_zero y), ?_⟩
    rw [Nat.zero_mul]
    exact Nat.zero_le _
  | succ n ih =>
    rw [List.range_succ, List.foldlM_append] at h
    obtain ⟨before, hBefore, hLast⟩ := Option.bind_eq_some_iff.mp h
    rw [List.foldlM_cons] at hLast
    obtain ⟨next, hNext, hEnd⟩ := Option.bind_eq_some_iff.mp hLast
    obtain rfl := Option.some.inj hEnd
    exact (ih hBefore).next hNext

theorem exists_produced (hRows : ∀ y < n, ∃ id bytes, recordData t info y = some (id, bytes) ∧ id < records)
    (hRoom : n * info.getRecordSize ≤ dataTableSize t info) :
    ∃ produced, (List.range n).foldlM (produceRecord t info) ⟨records, fun _ => none, []⟩ = some produced := by
  induction n with
  | zero => exact ⟨_, rfl⟩
  | succ n ih =>
    rw [Nat.succ_mul] at hRoom
    obtain ⟨before, hBefore⟩ := ih (fun y hLt => hRows y (Nat.lt_succ_of_lt hLt)) (by omega)
    obtain ⟨id, bytes, hData, hId⟩ := hRows n (Nat.lt_succ_self n)
    have hLaid := laid_of_produced hBefore
    have hFits : id < before.records ∧ before.dataTable.length + bytes.length ≤ dataTableSize t info := by
      rw [hLaid.count, hLaid.length, recordData_length hData]
      exact ⟨hId, hRoom⟩
    have hSome : (produceRecord t info before n).isSome = true := by
      rw [produceRecord, hData, Option.bind_some]
      dsimp only
      rw [if_pos hFits]
      rfl
    obtain ⟨next, hNext⟩ := Option.isSome_iff_exists.mp hSome
    refine ⟨next, ?_⟩
    rw [List.range_succ, List.foldlM_append, hBefore, Option.bind_eq_bind, Option.bind_some, List.foldlM_cons, hNext]
    rfl

/-! ## Parents -/

theorem getElem?_slice (bytes : List UInt8) (position count i : Nat) :
    ((bytes.drop position).take count)[i]? = if i < count then bytes[position + i]? else none := by
  rw [List.getElem?_take, List.getElem?_drop]

variable {next value : List UInt8} {position : Nat}

theorem getElem?_overwrite (h : overwrite bytes position value = some next) (i : Nat) :
    next[i]? = if position ≤ i ∧ i < position + value.length then value[i - position]? else bytes[i]? := by
  rw [overwrite] at h
  split at h
  · rename_i hRoom
    obtain rfl := Option.some.inj h
    have hTake : (bytes.take position).length = position := List.length_take_of_le (by omega)
    rcases Nat.lt_or_ge i position with hBefore | hFrom
    · rw [if_neg (by omega), List.append_assoc, List.getElem?_append_left (by omega), List.getElem?_take, if_pos hBefore]
    · rcases Nat.lt_or_ge i (position + value.length) with hInside | hBehind
      · rw [if_pos ⟨hFrom, hInside⟩, List.getElem?_append_left (by rw [List.length_append]; omega),
          List.getElem?_append_right (by omega), hTake]
      · rw [if_neg (by omega), List.getElem?_append_right (by rw [List.length_append]; omega), List.length_append,
          hTake, List.getElem?_drop]
        congr 1
        omega
  · cases h

theorem overwrite_length (h : overwrite bytes position value = some next) : next.length = bytes.length := by
  rw [overwrite] at h
  split at h
  · obtain rfl := Option.some.inj h
    simp only [List.length_append, List.length_take, List.length_drop]
    omega
  · cases h

theorem overwrite_same (h : overwrite bytes position value = some next) :
    (next.drop position).take value.length = value := by
  refine List.ext_getElem? fun i => ?_
  rw [getElem?_slice, getElem?_overwrite h]
  rcases Nat.lt_or_ge i value.length with hInside | hBehind
  · rw [if_pos hInside, if_pos (by omega), Nat.add_sub_cancel_left]
  · rw [if_neg (by omega), List.getElem?_eq_none hBehind]

theorem overwrite_apart (h : overwrite bytes position value = some next) {other count : Nat}
    (hApart : other + count ≤ position ∨ position + value.length ≤ other) :
    (next.drop other).take count = (bytes.drop other).take count := by
  refine List.ext_getElem? fun i => ?_
  rw [getElem?_slice, getElem?_slice]
  split
  · rw [getElem?_overwrite h, if_neg]
    omega
  · rfl

def valueAt (info : Meta) (dataTable : List UInt8) (y x z : Nat) (f : Field) : Nat :=
  leNat ((dataTable.drop (y * info.getRecordSize + info.elementOffset x z f)).take f.type.size)

theorem Laid.valueAt (h : Laid t info records n produced)
    (hRecord : y < n) (hField : info.fields[x]? = some f) (hElement : z < f.arraySize) :
    ∃ stringFieldOffset piece, cellData t info y stringFieldOffset ⟨x, z, f.type⟩ = some piece ∧
      valueAt info produced.dataTable y x z f = leNat piece := by
  obtain ⟨id, bytes, hData, -, hAt⟩ := h.rows y hRecord
  obtain ⟨stringFieldOffset, piece, hPiece, hPlace⟩ := recordData_at hData hField hElement
  refine ⟨stringFieldOffset, piece, hPiece, ?_⟩
  have hInside := elementOffset_inside hField hElement
  have hSame : (produced.dataTable.drop (y * info.getRecordSize + info.elementOffset x z f)).take f.type.size =
      (bytes.drop (info.elementOffset x z f)).take f.type.size := by
    rw [← hAt, List.drop_take, List.take_take, List.drop_drop, Nat.min_eq_left (by omega)]
  rw [DB2.valueAt, hSame, hPlace]

theorem places_apart {y' x' z' : Nat} {f' : Field} (hField : info.fields[x]? = some f)
    (hElement : z < f.arraySize) (hField' : info.fields[x']? = some f') (hElement' : z' < f'.arraySize)
    (hNe : ¬ (y = y' ∧ x = x' ∧ z = z')) :
    y * info.getRecordSize + info.elementOffset x z f + f.type.size ≤
        y' * info.getRecordSize + info.elementOffset x' z' f' ∨
      y' * info.getRecordSize + info.elementOffset x' z' f' + f'.type.size ≤
        y * info.getRecordSize + info.elementOffset x z f := by
  have hInside := elementOffset_inside hField hElement
  have hInside' := elementOffset_inside hField' hElement'
  rcases lt_trichotomy y y' with hLt | rfl | hGt
  · have hRow : (y + 1) * info.getRecordSize ≤ y' * info.getRecordSize := Nat.mul_le_mul_right _ hLt
    rw [Nat.succ_mul] at hRow
    omega
  · have hOther := elementOffset_apart hField hElement hField' hElement' fun hSame => hNe ⟨rfl, hSame⟩
    omega
  · have hRow : (y' + 1) * info.getRecordSize ≤ y * info.getRecordSize := Nat.mul_le_mul_right _ hGt
    rw [Nat.succ_mul] at hRow
    omega

end AshamaneCore.DB2
