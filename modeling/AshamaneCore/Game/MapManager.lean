import AshamaneCore.Library.LowestFree
import AshamaneCore.Library.Transition
import Mathlib.Algebra.Order.Ring.Int

/-!
# The instance ids of the map manager

A bitmap marks the ids in use, and the lowest free id is kept beside it. The
bitmap is sized in words of 32 bits and grows to its capacity before it
allocates again.
-/

namespace AshamaneCore.Maps

open Library Library.Transition LowestFree

/-- The bitmap with its allocated size, and the id that is given out next. -/
structure InstanceIds where
  ids : List Bool
  capacity : Nat
  nextInstanceId : Nat

def wordAligned (n : Nat) : Nat := (n / 32 * 32 + if 0 < n % 32 then 32 else 0) % 2 ^ 32

def resize (v : InstanceIds) (size slack : Nat) : InstanceIds :=
  { v with
    ids := v.ids.take size ++ List.replicate (size - v.ids.length) false
    capacity := if size ≤ v.capacity then v.capacity else size + slack }

def initInstanceIds (v : InstanceIds) (maxId : Option Nat) (slack : Nat) : InstanceIds :=
  match maxId with
  | none => { v with nextInstanceId := 1 }
  | some maxId => resize { v with nextInstanceId := 1 } (wordAligned maxId) slack

def registerInstanceId (v : InstanceIds) (instanceId : Nat) : InstanceIds :=
  { v with ids := v.ids.set instanceId true }

/-- One row of the query in `LoadResetTimes`, which is ordered by id. -/
def registerRow (v : InstanceIds) (instanceId : Nat) : InstanceIds :=
  registerInstanceId
    (if v.nextInstanceId = instanceId then { v with nextInstanceId := (instanceId + 1) % 2 ^ 32 } else v)
    instanceId

def isAvailable (ids : List Bool) (i : Nat) : Bool :=
  decide (i < ids.length) && !ids.getD i false || decide (ids.length ≤ i)

/-- The loop over the ids from `i` on that stops at the first available one. -/
def search (ids : List Bool) (i : Nat) : Nat → Option Nat
  | 0 => none
  | fuel + 1 => if isAvailable ids i then some i else search ids (i + 1) fuel

def overflow : Nat := 0xFFFFFFFF

def advance (v : InstanceIds) : Nat :=
  (search v.ids ((v.nextInstanceId + 1) % 2 ^ 32) (overflow - (v.nextInstanceId + 1) % 2 ^ 32)).getD
    ((v.nextInstanceId + 1) % 2 ^ 32)

/-- Space for the id: first up to the capacity, else up to the next word. -/
def makeRoom (v : InstanceIds) (newInstanceId slack : Nat) : InstanceIds :=
  if v.ids.length ≤ newInstanceId then
    resize v (if v.ids.length < v.capacity then v.capacity else wordAligned newInstanceId) slack
  else v

def generateInstanceId (v : InstanceIds) (slack : Nat) : InstanceIds × Nat :=
  (registerInstanceId (makeRoom { v with nextInstanceId := advance v } v.nextInstanceId slack)
    v.nextInstanceId, v.nextInstanceId)

def freeInstanceId (v : InstanceIds) (instanceId : Nat) : InstanceIds :=
  { v with
    nextInstanceId := if instanceId < v.nextInstanceId then instanceId else v.nextInstanceId
    ids := v.ids.set instanceId false }

/-! ## Operations in sequence -/

inductive Op
  | register (instanceId : Nat)
  | generate (slack : Nat)
  | free (instanceId : Nat)
deriving DecidableEq

/-- The map manager and the ids that are registered, or generated and not yet freed. -/
structure State where
  table : InstanceIds
  used : Finset Nat

def step (s : State) : Op → State
  | .register id => ⟨registerRow s.table id, insert id s.used⟩
  | .generate slack =>
    ⟨(generateInstanceId s.table slack).1, insert (generateInstanceId s.table slack).2 s.used⟩
  | .free id => ⟨freeInstanceId s.table id, s.used.erase id⟩

/-- The index that an operation writes, and the size of the bitmap it is written in. -/
def written (v : InstanceIds) : Op → Nat × Nat
  | .register id => (id, v.ids.length)
  | .generate slack => (v.nextInstanceId, (makeRoom v v.nextInstanceId slack).ids.length)
  | .free id => (id, v.ids.length)

/-- What `SELECT MAX(id)` finds: a maximum, which reads as zero in an empty table. -/
def maxId (dbIds : List Nat) : Nat := dbIds.foldr max 0

def start (capacity : Nat) (dbIds : List Nat) (slack : Nat) : State :=
  ⟨initInstanceIds ⟨[], capacity, 0⟩ (some (maxId dbIds)) slack, ∅⟩

/-! ## The bitmap -/

variable {ids : List Bool} {i : Nat}

theorem isAvailable_iff : isAvailable ids i = true ↔ ids.getD i false = false := by
  rw [isAvailable, Bool.or_eq_true, Bool.and_eq_true, decide_eq_true_iff, decide_eq_true_iff]
  rcases Nat.lt_or_ge i ids.length with hLt | hGe
  · simp [hLt]
  · simp [hGe]

theorem search_spec {j fuel : Nat} (h : search ids i fuel = some j) :
    i ≤ j ∧ j < i + fuel ∧ isAvailable ids j = true ∧ ∀ k, i ≤ k → k < j → isAvailable ids k = false := by
  induction fuel generalizing i with
  | zero => cases h
  | succ fuel ih =>
    rw [search] at h
    split at h
    · rename_i hHere
      obtain rfl := Option.some.inj h
      exact ⟨Nat.le_refl i, by omega, hHere, fun k hk hLt => absurd hk (Nat.not_le.mpr hLt)⟩
    · rename_i hTaken
      obtain ⟨hLe, hLt, hFree, hBetween⟩ := ih h
      refine ⟨by omega, by omega, hFree, fun k hk hkj => ?_⟩
      rcases Nat.eq_or_lt_of_le hk with rfl | hAbove
      · exact eq_false_of_ne_true hTaken
      · exact hBetween k hAbove hkj

theorem search_isSome {j fuel : Nat} (hLe : i ≤ j) (hLt : j < i + fuel)
    (hFree : isAvailable ids j = true) : (search ids i fuel).isSome = true := by
  induction fuel generalizing i with
  | zero => omega
  | succ fuel ih =>
    rw [search]
    split
    · rfl
    · rename_i hTaken
      have hNe : i ≠ j := fun hEq => hTaken (hEq ▸ hFree)
      exact ih (by omega) (by omega)

theorem getD_set {k : Nat} {b : Bool} (h : i < ids.length) :
    (ids.set i b).getD k false = if i = k then b else ids.getD k false := by
  rw [List.getD_eq_getElem?_getD, List.getElem?_set, List.getD_eq_getElem?_getD]
  split <;> rfl

theorem length_resize (v : InstanceIds) (size slack : Nat) : (resize v size slack).ids.length = size := by
  rw [resize, List.length_append, List.length_take, List.length_replicate]
  omega

variable {slack : Nat}

theorem getD_resize {v : InstanceIds} {size : Nat} (h : v.ids.length ≤ size) (k : Nat) :
    (resize v size slack).ids.getD k false = v.ids.getD k false := by
  rw [resize, List.take_of_length_le h, List.getD_eq_getElem?_getD, List.getD_eq_getElem?_getD]
  rcases Nat.lt_or_ge k v.ids.length with hLt | hGe
  · rw [List.getElem?_append_left hLt]
  · rw [List.getElem?_append_right hGe, List.getElem?_eq_none hGe, List.getElem?_replicate]
    split <;> rfl

theorem lt_wordAligned_iff {n : Nat} (h : n < 2 ^ 32) : n < wordAligned n ↔ n % 32 ≠ 0 ∧ n < 2 ^ 32 - 32 := by
  constructor
  · intro hLt
    rcases Nat.lt_or_ge n (2 ^ 32 - 32) with hSmall | hLarge
    · refine ⟨fun hBoundary => ?_, hSmall⟩
      rw [wordAligned, hBoundary, Nat.mod_eq_of_lt] at hLt
      · simp only [Nat.lt_irrefl, if_false] at hLt
        omega
      · simp only [Nat.lt_irrefl, if_false]
        omega
    · have hWord : n / 32 * 32 = 2 ^ 32 - 32 := by omega
      rw [wordAligned, hWord] at hLt
      split at hLt
      · omega
      · rename_i hAligned
        omega
  · rintro ⟨hInside, hSmall⟩
    rw [wordAligned, if_pos (Nat.pos_of_ne_zero hInside), Nat.mod_eq_of_lt]
    · omega
    · omega

/-!
## Instance ids over whole runs

The bitmap marks exactly the ids in use and the cached id is the lowest free
one, as long as no id falls on a boundary of the bitmap.
-/

structure Coherent (s : State) : Prop where
  marked : ∀ i, s.table.ids.getD i false = true ↔ i ∈ s.used
  least : IsLeast (free s.used) s.table.nextInstanceId

variable {s : State}

theorem Coherent.lt_length (h : Coherent s) (hUsed : i ∈ s.used) :
    i < s.table.ids.length := by
  have hMarked := (h.marked i).mpr hUsed
  rcases Nat.lt_or_ge i s.table.ids.length with hLt | hGe
  · exact hLt
  · rw [List.getD_eq_getElem?_getD, List.getElem?_eq_none hGe] at hMarked
    cases hMarked

theorem Coherent.isAvailable_iff (h : Coherent s) :
    isAvailable s.table.ids i = true ↔ i ∉ s.used := by
  rw [Maps.isAvailable_iff, ← h.marked i, Bool.not_eq_true]

/-- Rows come in ascending order before anything is generated, what is freed is in use, and
an id is generated while another one is left below the overflow. -/
def Valid (s : State) : Op → Prop
  | .register id => id < 2 ^ 32 - 1 ∧ ∀ i ∈ s.used, i < id
  | .generate _ => ∃ i, s.table.nextInstanceId < i ∧ i < overflow ∧ i ∉ s.used
  | .free id => id ∈ s.used

/-- The access is in range, an id that is given out is positive and new, and the cached id
is the lowest free one. -/
def Sound (s : State) (op : Op) : Prop :=
  (written s.table op).1 < (written s.table op).2 ∧
  (∀ slack, op = .generate slack →
    (generateInstanceId s.table slack).2 ≠ 0 ∧ (generateInstanceId s.table slack).2 ∉ s.used) ∧
  IsLeast (free (step s op).used) (step s op).table.nextInstanceId

/-- The id that is written does not stand at the end of the bitmap, and zero is not freed. -/
def Fits (s : State) : Op → Prop
  | .register id => id < s.table.ids.length
  | .generate _ =>
    s.table.nextInstanceId < s.table.ids.length ∨
    s.table.ids.length < s.table.capacity ∧ s.table.nextInstanceId < s.table.capacity ∨
    s.table.capacity ≤ s.table.ids.length ∧ s.table.nextInstanceId % 32 ≠ 0 ∧
      s.table.nextInstanceId < 2 ^ 32 - 32
  | .free id => id ≠ 0

/-! ## One operation -/

variable {id : Nat}

theorem Coherent.registerRow (h : Coherent s) (hValid : Valid s (.register id)) :
    IsLeast (free (step s (.register id)).used) (step s (.register id)).table.nextInstanceId := by
  obtain ⟨hSmall, hAscending⟩ := hValid
  rcases eq_or_ne s.table.nextInstanceId id with hEq | hNe
  · have hNext : (step s (.register id)).table.nextInstanceId = id + 1 := by
      rw [step, Maps.registerRow, if_pos hEq, registerInstanceId]
      exact Nat.mod_eq_of_lt (by omega)
    rw [hNext, step, ← hEq]
    apply isLeast_take h.least (Nat.lt_succ_self _)
    · intro hUsed
      exact absurd (hAscending _ hUsed) (by omega)
    · intro k hAbove hBelow
      omega
  · have hNext : (step s (.register id)).table.nextInstanceId = s.table.nextInstanceId := by
      rw [step, Maps.registerRow, if_neg hNe, registerInstanceId]
    rw [hNext, step]
    exact isLeast_insert h.least hNe.symm

theorem ids_registerRow (v : InstanceIds) (id : Nat) : (registerRow v id).ids = v.ids.set id true := by
  rw [registerRow, registerInstanceId]
  split <;> rfl

theorem marked_set {used : Finset Nat} (h : ∀ i, ids.getD i false = true ↔ i ∈ used)
    (hLt : id < ids.length) (i : Nat) : (ids.set id true).getD i false = true ↔ i ∈ insert id used := by
  rw [getD_set hLt, Finset.mem_insert]
  split
  · rename_i hEq
    exact iff_of_true rfl (Or.inl hEq.symm)
  · rename_i hNe
    rw [h i]
    exact (or_iff_right (Ne.symm hNe)).symm

theorem Coherent.advance (h : Coherent s) (hValid : Valid s (.generate slack)) :
    s.table.nextInstanceId < advance s.table ∧ advance s.table ∉ s.used ∧
      ∀ k, s.table.nextInstanceId < k → k < Maps.advance s.table → k ∈ s.used := by
  obtain ⟨i, hAbove, hBelow, hFree⟩ := hValid
  have hSucc : (s.table.nextInstanceId + 1) % 2 ^ 32 = s.table.nextInstanceId + 1 := by
    apply Nat.mod_eq_of_lt
    rw [overflow] at hBelow
    omega
  have hReach : i < s.table.nextInstanceId + 1 + (overflow - (s.table.nextInstanceId + 1)) := by omega
  have hSome := search_isSome hAbove hReach (h.isAvailable_iff.mpr hFree)
  obtain ⟨j, hSearch⟩ := Option.isSome_iff_exists.mp hSome
  have hAdvance : Maps.advance s.table = j := by
    rw [Maps.advance, hSucc, hSearch, Option.getD_some]
  obtain ⟨hLe, -, hAvailable, hBetween⟩ := search_spec hSearch
  rw [hAdvance]
  refine ⟨hLe, h.isAvailable_iff.mp hAvailable, fun k hk hkj => ?_⟩
  have hTaken := hBetween k hk hkj
  rcases Classical.em (k ∈ s.used) with hUsed | hNot
  · exact hUsed
  · rw [h.isAvailable_iff.mpr hNot] at hTaken
    cases hTaken

theorem makeRoom_ids_next (v : InstanceIds) (next id slack : Nat) :
    (makeRoom { v with nextInstanceId := next } id slack).ids = (makeRoom v id slack).ids := by
  rw [makeRoom, makeRoom]
  split <;> rfl

theorem makeRoom_next (v : InstanceIds) (id slack : Nat) :
    (makeRoom v id slack).nextInstanceId = v.nextInstanceId := by
  rw [makeRoom]
  split <;> rfl

theorem Coherent.next_generate (h : Coherent s) (hValid : Valid s (.generate slack)) :
    IsLeast (free (step s (.generate slack)).used) (step s (.generate slack)).table.nextInstanceId := by
  obtain ⟨hAbove, hFree, hBetween⟩ := h.advance hValid
  rw [step, generateInstanceId, registerInstanceId]
  simp only [makeRoom_next]
  exact isLeast_take h.least hAbove hFree hBetween

theorem Coherent.next_free (h : Coherent s) :
    IsLeast (free (step s (.free id)).used) (step s (.free id)).table.nextInstanceId ↔
      id ≠ 0 := by
  rw [step, freeInstanceId]
  constructor
  · rintro hLeast rfl
    have hPos : 0 < s.table.nextInstanceId := h.least.1.1
    rw [if_pos hPos] at hLeast
    exact Nat.lt_irrefl 0 hLeast.1.1
  · exact fun hNe => isLeast_erase h.least (Nat.pos_of_ne_zero hNe)

theorem lt_makeRoom_iff (hSmall : s.table.nextInstanceId < 2 ^ 32) :
    s.table.nextInstanceId < (makeRoom s.table s.table.nextInstanceId slack).ids.length ↔
      Fits s (.generate slack) := by
  rw [makeRoom, Fits]
  split
  · rename_i hLong
    rw [length_resize, or_iff_right (Nat.not_lt.mpr hLong)]
    split
    · rename_i hRoom
      rw [or_iff_left (fun hFull => absurd hFull.1 (Nat.not_le.mpr hRoom)), and_iff_right hRoom]
    · rename_i hFull
      rw [or_iff_right (fun hRoom => hFull hRoom.1), and_iff_right (Nat.le_of_not_lt hFull)]
      exact lt_wordAligned_iff hSmall
  · rename_i hShort
    exact iff_of_true (Nat.lt_of_not_le hShort) (Or.inl (Nat.lt_of_not_le hShort))

theorem length_le_of_fits (h : Fits s (.generate slack)) (hSmall : s.table.nextInstanceId < 2 ^ 32)
    (hLong : s.table.ids.length ≤ s.table.nextInstanceId) :
    s.table.ids.length ≤ (makeRoom s.table s.table.nextInstanceId slack).ids.length :=
  hLong.trans ((lt_makeRoom_iff hSmall).mpr h).le

theorem marked_makeRoom (h : Coherent s) (hFits : Fits s (.generate slack))
    (hSmall : s.table.nextInstanceId < 2 ^ 32) (i : Nat) :
    (makeRoom s.table s.table.nextInstanceId slack).ids.getD i false = true ↔ i ∈ s.used := by
  rw [← h.marked i]
  rcases Nat.lt_or_ge s.table.nextInstanceId s.table.ids.length with hShort | hLong
  · rw [makeRoom, if_neg (Nat.not_le.mpr hShort)]
  · have hGrown := length_le_of_fits hFits hSmall hLong
    rw [makeRoom, if_pos hLong] at hGrown ⊢
    rw [length_resize] at hGrown
    rw [getD_resize hGrown]

theorem Coherent.next_lt (hValid : Valid s (.generate slack)) :
    s.table.nextInstanceId < 2 ^ 32 := by
  obtain ⟨i, hAbove, hBelow, -⟩ := hValid
  rw [overflow] at hBelow
  omega

theorem sound_iff_fits (h : Coherent s) {op : Op} (hValid : Valid s op) :
    Sound s op ↔ Fits s op := by
  cases op with
  | register id =>
    constructor
    · exact fun hSound => hSound.1
    · refine fun hFits => ⟨hFits, fun slack hOp => Op.noConfusion hOp, h.registerRow hValid⟩
  | generate slack =>
    constructor
    · exact fun hSound => (lt_makeRoom_iff (Coherent.next_lt hValid)).mp hSound.1
    · intro hFits
      refine ⟨(lt_makeRoom_iff (Coherent.next_lt hValid)).mpr hFits, ?_, h.next_generate hValid⟩
      intro slack' hOp
      have hPos : 0 < s.table.nextInstanceId := h.least.1.1
      exact ⟨hPos.ne', h.least.1.2⟩
  | free id =>
    constructor
    · exact fun hSound => h.next_free.mp hSound.2.2
    · refine fun hFits => ⟨h.lt_length hValid, fun slack hOp => Op.noConfusion hOp, h.next_free.mpr hFits⟩

theorem coherent_step (h : Coherent s) {op : Op} (hValid : Valid s op) (hFits : Fits s op) :
    Coherent (step s op) := by
  have hSound := (sound_iff_fits h hValid).mpr hFits
  refine ⟨?_, hSound.2.2⟩
  cases op with
  | register id =>
    rw [step, ids_registerRow]
    exact marked_set h.marked hFits
  | generate slack =>
    rw [step, generateInstanceId, registerInstanceId]
    simp only [makeRoom_ids_next]
    exact marked_set (marked_makeRoom h hFits (Coherent.next_lt hValid)) hSound.1
  | free id =>
    intro i
    rw [step, freeInstanceId, getD_set (h.lt_length hValid), Finset.mem_erase]
    split
    · rename_i hEq
      exact iff_of_false Bool.false_ne_true fun hOther => hOther.1 hEq.symm
    · rename_i hNe
      rw [h.marked i]
      exact (and_iff_right (Ne.symm hNe)).symm

/-! ## Runs -/

variable {dbIds : List Nat}

theorem le_maxId (h : id ∈ dbIds) : id ≤ maxId dbIds := by
  induction dbIds with
  | nil => exact absurd h List.not_mem_nil
  | cons first dbIds ih =>
    rw [maxId, List.foldr_cons]
    rcases List.mem_cons.mp h with rfl | hRest
    · exact le_max_left ..
    · exact (ih hRest).trans (le_max_right ..)

theorem maxId_mem (h : dbIds ≠ []) : maxId dbIds ∈ dbIds := by
  induction dbIds with
  | nil => exact absurd rfl h
  | cons first dbIds ih =>
    rw [maxId, List.foldr_cons]
    rcases Nat.le_total (dbIds.foldr max 0) first with hLe | hGe
    · rw [max_eq_left hLe]
      exact List.mem_cons_self
    · rw [max_eq_right hGe]
      rcases eq_or_ne dbIds [] with rfl | hNe
      · rw [List.foldr_nil] at hGe ⊢
        rw [Nat.le_zero.mp hGe]
        exact List.mem_cons_self
      · exact List.mem_cons_of_mem first (ih hNe)

theorem length_register (s : State) (id : Nat) :
    (step s (.register id)).table.ids.length = s.table.ids.length := by
  rw [step, ids_registerRow, List.length_set]

theorem lt_of_sound (h : Along step Sound s (dbIds.map .register)) :
    ∀ id ∈ dbIds, id < s.table.ids.length := by
  induction dbIds generalizing s with
  | nil => exact fun _ hNil => absurd hNil List.not_mem_nil
  | cons first dbIds ih =>
    intro id hId
    rcases List.mem_cons.mp hId with rfl | hRest
    · exact h.1.1
    · have hLt := ih h.2 id hRest
      rwa [length_register] at hLt

theorem rows_sound (h : Coherent s) (hSorted : dbIds.Pairwise (· < ·))
    (hAbove : ∀ id ∈ dbIds, ∀ i ∈ s.used, i < id) (hSmall : ∀ id ∈ dbIds, id < 2 ^ 32 - 1)
    (hLength : ∀ id ∈ dbIds, id < s.table.ids.length) :
    Along step Sound s (dbIds.map .register) ∧ Coherent (run step s (dbIds.map .register)) := by
  induction dbIds generalizing s with
  | nil => exact ⟨trivial, h⟩
  | cons first dbIds ih =>
    obtain ⟨hFirst, hRest⟩ := List.pairwise_cons.mp hSorted
    have hMem := List.mem_cons_self (a := first) (l := dbIds)
    have hValid : Valid s (.register first) := ⟨hSmall first hMem, hAbove first hMem⟩
    have hFits : Fits s (.register first) := hLength first hMem
    obtain ⟨hSound, hEnd⟩ := ih (coherent_step h hValid hFits) hRest
      (fun id hId i hUsed => by
        rcases Finset.mem_insert.mp hUsed with rfl | hOld
        · exact hFirst id hId
        · exact hAbove id (List.mem_cons_of_mem first hId) i hOld)
      (fun id hId => hSmall id (List.mem_cons_of_mem first hId))
      (fun id hId => by
        rw [length_register]
        exact hLength id (List.mem_cons_of_mem first hId))
    exact ⟨⟨(sound_iff_fits h hValid).mpr hFits, hSound⟩, hEnd⟩

theorem coherent_start (capacity : Nat) (dbIds : List Nat) (slack : Nat) :
    Coherent (start capacity dbIds slack) := by
  constructor
  · intro i
    rw [start, initInstanceIds]
    simp only
    rw [getD_resize (Nat.zero_le _)]
    exact iff_of_false Bool.false_ne_true (Finset.notMem_empty i)
  · refine ⟨⟨Nat.le_refl 1, Finset.notMem_empty 1⟩, fun k hk => hk.1⟩

def loaded (capacity : Nat) (dbIds : List Nat) (slack : Nat) : State :=
  run step (start capacity dbIds slack) (dbIds.map .register)

theorem length_start (capacity : Nat) (dbIds : List Nat) (slack : Nat) :
    (start capacity dbIds slack).table.ids.length = wordAligned (maxId dbIds) := by
  rw [start, initInstanceIds]
  exact length_resize ..

theorem loaded_sound {capacity : Nat} (hSorted : dbIds.Pairwise (· < ·))
    (h : dbIds = [] ∨ maxId dbIds % 32 ≠ 0 ∧ maxId dbIds < 2 ^ 32 - 32) :
    Along step Sound (start capacity dbIds slack) (dbIds.map .register) ∧
      Coherent (loaded capacity dbIds slack) := by
  rcases h with rfl | ⟨hInside, hSmall⟩
  · exact ⟨trivial, coherent_start ..⟩
  · apply rows_sound (coherent_start ..) hSorted
    · exact fun _ _ i hUsed => absurd hUsed (Finset.notMem_empty i)
    · intro id hId
      have hLe := le_maxId hId
      omega
    · intro id hId
      rw [length_start]
      exact (le_maxId hId).trans_lt ((lt_wordAligned_iff (by omega)).mpr ⟨hInside, hSmall⟩)

theorem load_sound_iff {capacity : Nat} (hSorted : dbIds.Pairwise (· < ·))
    (hRange : ∀ id ∈ dbIds, id < 2 ^ 32) :
    Along step Sound (start capacity dbIds slack) (dbIds.map .register) ↔
      dbIds = [] ∨ maxId dbIds % 32 ≠ 0 ∧ maxId dbIds < 2 ^ 32 - 32 := by
  refine ⟨fun h => ?_, fun h => (loaded_sound hSorted h).1⟩
  rcases eq_or_ne dbIds [] with hEmpty | hNe
  · exact Or.inl hEmpty
  · have hLt := lt_of_sound h _ (maxId_mem hNe)
    rw [length_start, lt_wordAligned_iff (hRange _ (maxId_mem hNe))] at hLt
    exact Or.inr hLt

theorem run_sound_iff (h : Coherent s) {ops : List Op} (hValid : Along step Valid s ops) :
    Along step Sound s ops ↔ Along step Fits s ops := by
  have hCongr := along_congr (A := fun s op => Valid s op ∧ Sound s op)
    (B := fun s op => Valid s op ∧ Fits s op)
    (fun t op ht => and_congr_right fun hOp => sound_iff_fits ht hOp)
    (fun t op ht hOp => coherent_step ht hOp.1 hOp.2) h ops
  rw [along_and, along_and] at hCongr
  exact and_congr_right_iff.mp hCongr hValid

/-- After the ids of the database, ids are given out and freed soundly exactly while none is
written at the end of the bitmap. -/
theorem instance_ids_sound_iff {capacity slack : Nat} {dbIds : List Nat} (hSorted : dbIds.Pairwise (· < ·))
    (hRange : ∀ id ∈ dbIds, id < 2 ^ 32) {ops : List Op}
    (hValid : Along step Valid (loaded capacity dbIds slack) ops) :
    Along step Sound (start capacity dbIds slack) (dbIds.map .register ++ ops) ↔
      (dbIds = [] ∨ maxId dbIds % 32 ≠ 0 ∧ maxId dbIds < 2 ^ 32 - 32) ∧
        Along step Fits (loaded capacity dbIds slack) ops := by
  rw [along_append, load_sound_iff hSorted hRange]
  exact and_congr_right fun hRows => run_sound_iff (loaded_sound hSorted hRows).2 hValid

/-- The database holds one instance, with id 32: its bit lies behind the bitmap. -/
theorem boundary_row_out_of_range : ¬ Along step Sound (start 0 [32] 32) ([32].map .register ++ []) := by
  rintro ⟨⟨hRange, -⟩, -⟩
  have hNot : ¬ (written (start 0 [32] 32).table (.register 32)).1 <
      (written (start 0 [32] 32).table (.register 32)).2 := by decide
  exact hNot hRange

/-- Ids 1 and 3 are loaded, 2 and 4 are given out, 1 is freed and given out again. -/
theorem rows_and_requests_sound :
    Along step Sound (start 0 [1, 3] 32)
        ([1, 3].map .register ++ [.generate 0, .generate 0, .free 1, .generate 0]) ↔
      ([1, 3] = [] ∨ maxId [1, 3] % 32 ≠ 0 ∧ maxId [1, 3] < 2 ^ 32 - 32) ∧
        Along step Fits (loaded 0 [1, 3] 32) [.generate 0, .generate 0, .free 1, .generate 0] := by
  have hFreed : 1 ∈ (run step (loaded 0 [1, 3] 32) [.generate 0, .generate 0]).used := by decide
  refine instance_ids_sound_iff (by decide) (by decide) ⟨⟨4, ?_⟩, ⟨5, ?_⟩, hFreed, ⟨5, ?_⟩, trivial⟩
  all_goals decide

end AshamaneCore.Maps
