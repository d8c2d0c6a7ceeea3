import Mathlib.Algebra.Ring.Nat
import Mathlib.Data.List.Basic

/-!
# Truncated UTF-8

The text is converted to UTF-16 in a wide string that has room for its code points, cut
there and converted back. The conversions are those of the standard, and none is the
exception that they throw.
-/

namespace AshamaneCore.Utf8

/-! ## Conversions -/

def encode (text : List Char) : ByteArray := (String.ofList text).toByteArray

def distance (utf8str : ByteArray) : Option Nat := utf8str.utf8Decode?.map Array.size

def isLeadSurrogate (u : UInt16) : Bool := 0xd800 ≤ u && u ≤ 0xdbff

def isTrailSurrogate (u : UInt16) : Bool := 0xdc00 ≤ u && u ≤ 0xdfff

def units (c : Char) : List UInt16 :=
  if 0xffff < c.toNat then
    [UInt16.ofNat ((c.toNat - 0x10000) / 0x400 + 0xd800), UInt16.ofNat (c.toNat % 0x400 + 0xdc00)]
  else [UInt16.ofNat c.toNat]

def utf8to16 (utf8str : ByteArray) : Option (List UInt16) :=
  utf8str.utf8Decode?.map fun text => text.toList.flatMap units

def fromUnits : List UInt16 → Option (List Char)
  | [] => some []
  | [u] => if isLeadSurrogate u || isTrailSurrogate u then none else some [Char.ofNat u.toNat]
  | u :: v :: rest =>
    if isLeadSurrogate u then
      if isTrailSurrogate v then
        (fromUnits rest).map (Char.ofNat (0x10000 + (u.toNat - 0xd800) * 0x400 + (v.toNat - 0xdc00)) :: ·)
      else none
    else if isTrailSurrogate u then none
    else (fromUnits (v :: rest)).map (Char.ofNat u.toNat :: ·)

def utf16to8 (wstr : List UInt16) : Option ByteArray := (fromUnits wstr).map encode

/-! ## Truncation -/

/-- The text, and how much was written past the wide string. -/
structure Truncated where
  utf8str : ByteArray
  overrun : Nat

def utf8truncate (utf8str : ByteArray) (len : Nat) : Truncated :=
  match distance utf8str with
  | none => ⟨ByteArray.empty, 0⟩
  | some wlen =>
    if wlen ≤ len then ⟨utf8str, 0⟩
    else
      match utf8to16 utf8str with
      | none => ⟨ByteArray.empty, 0⟩
      | some written => ⟨(utf16to8 ((written.take wlen).take len)).getD ByteArray.empty, written.length - wlen⟩

/-- A valid text becomes its longest prefix of so many code points, and nothing is written past the wide string.
An invalid text becomes empty. -/
structure Right (utf8str : ByteArray) (len : Nat) : Prop where
  valid : ∀ text : List Char, utf8str = encode text →
    utf8truncate utf8str len = ⟨encode (text.take len), 0⟩
  invalid : ¬ utf8str.IsValidUTF8 → utf8truncate utf8str len = ⟨ByteArray.empty, 0⟩

/-! ## Code points of one unit -/

variable {c : Char} {text : List Char} {len : Nat}

theorem units_of_le (h : c.toNat ≤ 0xffff) : units c = [UInt16.ofNat c.toNat] := if_neg (Nat.not_lt.mpr h)

theorem one_le_length_units : 1 ≤ (units c).length := by
  rw [units]
  split
  · exact Nat.le_succ 1
  · exact Nat.le_refl 1

theorem length_units_le_one_iff : (units c).length ≤ 1 ↔ c.toNat ≤ 0xffff := by
  rw [units]
  split
  · rename_i hLarge
    exact iff_of_false (by simp) (Nat.not_le.mpr hLarge)
  · rename_i hSmall
    exact iff_of_true (Nat.le_refl 1) (Nat.not_lt.mp hSmall)

theorem toNat_unit (h : c.toNat ≤ 0xffff) : (UInt16.ofNat c.toNat).toNat = c.toNat :=
  Nat.mod_eq_of_lt (Nat.lt_succ_of_le h)

theorem not_surrogate (h : c.toNat ≤ 0xffff) :
    isLeadSurrogate (UInt16.ofNat c.toNat) = false ∧ isTrailSurrogate (UInt16.ofNat c.toNat) = false := by
  have hValid : c.toNat < 0xd800 ∨ 0xdfff < c.toNat := c.valid.imp id And.left
  simp only [isLeadSurrogate, isTrailSurrogate, UInt16.le_iff_toNat_le, toNat_unit h, Bool.and_eq_false_iff,
    decide_eq_false_iff_not]
  have hLow : (0xd800 : UInt16).toNat = 0xd800 := rfl
  have hMiddle : (0xdbff : UInt16).toNat = 0xdbff := rfl
  have hTrail : (0xdc00 : UInt16).toNat = 0xdc00 := rfl
  have hHigh : (0xdfff : UInt16).toNat = 0xdfff := rfl
  omega

theorem fromUnits_flatMap (h : ∀ c ∈ text, c.toNat ≤ 0xffff) : fromUnits (text.flatMap units) = some text := by
  induction text with
  | nil => rfl
  | cons c text ih =>
    have hc := h c List.mem_cons_self
    obtain ⟨hLead, hTrail⟩ := not_surrogate hc
    have hRest := ih fun d hd => h d (List.mem_cons_of_mem _ hd)
    have hChar : Char.ofNat (UInt16.ofNat c.toNat).toNat = c := by rw [toNat_unit hc, Char.ofNat_toNat]
    rw [List.flatMap_cons, units_of_le hc, List.singleton_append]
    generalize text.flatMap units = more at hRest
    cases more with
    | nil =>
      obtain rfl := Option.some.inj hRest
      rw [fromUnits, hLead, hTrail, hChar]
      rfl
    | cons v more =>
      rw [fromUnits, hLead, hTrail, hRest, hChar]
      rfl

theorem flatMap_units (h : ∀ c ∈ text, c.toNat ≤ 0xffff) :
    text.flatMap units = text.map fun c => UInt16.ofNat c.toNat := by
  induction text with
  | nil => rfl
  | cons c text ih =>
    rw [List.flatMap_cons, units_of_le (h c List.mem_cons_self), ih fun d hd => h d (List.mem_cons_of_mem _ hd)]
    rfl

theorem length_le_flatMap_units (text : List Char) : text.length ≤ (text.flatMap units).length := by
  induction text with
  | nil => exact Nat.le_refl 0
  | cons c text ih =>
    rw [List.flatMap_cons, List.length_append, List.length_cons, Nat.add_comm]
    exact Nat.add_le_add one_le_length_units ih

theorem length_flatMap_units_le_iff :
    (text.flatMap units).length ≤ text.length ↔ ∀ c ∈ text, c.toNat ≤ 0xffff := by
  induction text with
  | nil => simp
  | cons c text ih =>
    have hMany := length_le_flatMap_units text
    rw [List.flatMap_cons, List.length_append, List.length_cons, List.forall_mem_cons, ← ih, ← length_units_le_one_iff]
    have hOne := @one_le_length_units c
    omega

/-! ## Cutting -/

theorem utf8truncate_encode (text : List Char) (len : Nat) : utf8truncate (encode text) len =
    if text.length ≤ len then ⟨encode text, 0⟩
    else ⟨(utf16to8 (((text.flatMap units).take text.length).take len)).getD ByteArray.empty,
      (text.flatMap units).length - text.length⟩ := by
  simp [utf8truncate, distance, utf8to16, encode]

/-- The truncation is right exactly where the text is invalid, short enough or without code points of two units. -/
theorem truncated_right_iff (utf8str : ByteArray) (len : Nat) : Right utf8str len ↔
    ∀ text : List Char, utf8str = encode text → text.length ≤ len ∨ ∀ c ∈ text, c.toNat ≤ 0xffff := by
  constructor
  · rintro hRight text rfl
    refine or_iff_not_imp_left.mpr fun hLong => length_flatMap_units_le_iff.mp ?_
    have hSame := hRight.valid text rfl
    rw [utf8truncate_encode, if_neg hLong] at hSame
    exact Nat.sub_eq_zero_iff_le.mp (congrArg Truncated.overrun hSame)
  · intro h
    refine ⟨?_, fun hInvalid => ?_⟩
    · rintro text rfl
      rw [utf8truncate_encode]
      split
      · rename_i hShort
        rw [List.take_of_length_le hShort]
      · rename_i hLong
        have hSmall := (h text rfl).resolve_left hLong
        have hCut : ((text.flatMap units).take text.length).take len = (text.take len).flatMap units := by
          rw [flatMap_units hSmall, flatMap_units fun c hc => hSmall c (List.mem_of_mem_take hc), List.take_take,
            Nat.min_eq_left (Nat.le_of_not_le hLong), List.map_take]
        rw [hCut, utf16to8, fromUnits_flatMap fun c hc => hSmall c (List.mem_of_mem_take hc),
          Nat.sub_eq_zero_of_le (length_flatMap_units_le_iff.mpr hSmall)]
        rfl
    · have hNone : utf8str.utf8Decode? = none := by
        rw [← Option.not_isSome_iff_eq_none, ByteArray.isSome_utf8Decode?_iff]
        exact hInvalid
      rw [utf8truncate, distance, hNone]
      rfl

/-- The first code point has two units, and the cut is between them. -/
theorem pair_cut : utf8truncate (encode [Char.ofNat 0x1f600, 'a']) 1 = ⟨ByteArray.empty, 1⟩ ∧
    ¬ Right (encode [Char.ofNat 0x1f600, 'a']) 1 := by
  have hCut : utf8truncate (encode [Char.ofNat 0x1f600, 'a']) 1 = ⟨ByteArray.empty, 1⟩ := by
    rw [utf8truncate_encode]
    rfl
  refine ⟨hCut, fun hRight => ?_⟩
  have hSame := hCut.symm.trans (hRight.valid _ rfl)
  exact absurd (congrArg Truncated.overrun hSame) (by decide)

end AshamaneCore.Utf8
