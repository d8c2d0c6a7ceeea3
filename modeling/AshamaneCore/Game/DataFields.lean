import AshamaneCore.Common.Tokenizer

/-!
# Data fields stored as text

Explored zones, known titles, enchantments and the items of a corpse are written as
numbers behind each other and read back into the same fields. A write past the fields
is undefined and gives none.
-/

namespace AshamaneCore.DataFields

def loadFrom : List UInt32 → Nat → List (List Char) → Option (List UInt32)
  | values, _, [] => some values
  | values, index, token :: tokens =>
    if index < values.length then loadFrom (values.set index (atoul token).toUInt32) (index + 1) tokens else none

def loadIntoDataField (values : List UInt32) (data : List Char) (startOffset count : Nat) : Option (List UInt32) :=
  let tokens := Tokenizer data ' '
  if data.isEmpty || tokens.length ≠ count then some values else loadFrom values startOffset tokens

def saveDataField (values : List UInt32) (startOffset count : Nat) : List Char :=
  ((values.drop startOffset).take count).flatMap spaced

theorem loadFrom_numbers (numbers before : List UInt32) {old : List UInt32} (after : List UInt32)
    (hOld : old.length = numbers.length) :
    loadFrom (before ++ (old ++ after)) before.length (numbers.map fun n => Nat.toDigits 10 n.toNat) =
      some (before ++ (numbers ++ after)) := by
  induction numbers generalizing before old with
  | nil => rw [List.length_eq_zero_iff.mp hOld]; rfl
  | cons n numbers ih =>
    obtain ⟨first, old, rfl⟩ := List.exists_cons_of_length_eq_add_one hOld
    have hRest := ih (before ++ [n]) (Nat.succ.inj hOld)
    rw [List.length_append, List.append_assoc, List.append_assoc] at hRest
    rw [List.map_cons, loadFrom, if_pos (by simp), atoul_toDigits, UInt32.toUInt32_toUInt64]
    simpa using hRest

/-- What was saved is loaded back into its fields, and no other field changes. -/
theorem load_save {startOffset count more : Nat} (f g : Vector UInt32 (startOffset + (count + 1) + more)) :
    loadIntoDataField g.toList (saveDataField f.toList startOffset (count + 1)) startOffset (count + 1) =
      some (g.toList.take startOffset ++ ((f.toList.drop startOffset).take (count + 1) ++
        g.toList.drop (startOffset + (count + 1)))) := by
  have hLength : ∀ v : Vector UInt32 (startOffset + (count + 1) + more),
      ((v.toList.drop startOffset).take (count + 1)).length = count + 1 := fun v => by simp; omega
  have hLoad := loadFrom_numbers _ (g.toList.take startOffset) (g.toList.drop (startOffset + (count + 1)))
    ((hLength g).trans (hLength f).symm)
  rw [← List.drop_drop, List.take_append_drop, List.take_append_drop, List.length_take_of_le (by simp; omega),
    List.drop_drop] at hLoad
  have hText : (saveDataField f.toList startOffset (count + 1)).isEmpty = false := by
    obtain ⟨n, rest, hSaved⟩ := List.exists_cons_of_length_eq_add_one (hLength f)
    simp [saveDataField, hSaved, spaced]
  rw [saveDataField] at hText ⊢
  simpa only [loadIntoDataField, hText, tokens_spaced, List.length_map, hLength, ne_eq, not_true_eq_false,
    decide_false, Bool.or_self, Bool.false_eq_true, if_false] using hLoad

end AshamaneCore.DataFields
