import AshamaneCore.Common.Tokenizer

/-!
# Times as text

A time in seconds is written in days, hours, minutes and seconds, without the parts that
are zero. It is read back with 32-bit words that could wrap.
-/

namespace AshamaneCore.TimeStrings

/-! ## Writing -/

def shown (part : UInt64) (unit : String) : List Char := Nat.toDigits 10 part.toNat ++ unit.toList

def secsToTimeString (timeInSecs : UInt64) (shortText hoursOnly : Bool) : List Char :=
  let secs := timeInSecs % 60
  let minutes := timeInSecs % 3600 / 60
  let hours := timeInSecs % 86400 / 3600
  let days := timeInSecs / 86400
  (if days ≠ 0 then shown days (if shortText then "d" else " Day(s) ") else []) ++
  (if hours ≠ 0 ∨ hoursOnly then shown hours (if shortText then "h" else " Hour(s) ") else []) ++
  if hoursOnly then []
  else
    (if minutes ≠ 0 then shown minutes (if shortText then "m" else " Minute(s) ") else []) ++
    if secs ≠ 0 ∨ (days = 0 ∧ hours = 0 ∧ minutes = 0) then shown secs (if shortText then "s" else " Second(s).") else []

/-! ## Reading -/

structure Parse where
  secs : UInt32
  buffer : UInt32

def multiplier (c : Char) : Option UInt32 :=
  if c = 'd' then some 86400
  else if c = 'h' then some 3600
  else if c = 'm' then some 60
  else if c = 's' then some 1
  else none

def digit (c : Char) : Nat := c.toNat - '0'.toNat

namespace Parse

variable (p : Parse) (c : Char)

/-- One round of the loop, none for a bad format. -/
def read : Option Parse :=
  if c.isDigit then some ⟨p.secs, p.buffer * 10 + UInt32.ofNat (digit c)⟩
  else (multiplier c).map fun m => ⟨p.secs + p.buffer * m, 0⟩

/-- Neither the product nor the sum of the round wraps. -/
structure Exact : Prop where
  digit : c.isDigit = true → p.buffer.toNat * 10 + digit c < 2 ^ 32
  product : c.isDigit = false → ∀ m, multiplier c = some m → p.buffer.toNat * m.toNat < 2 ^ 32
  sum : c.isDigit = false → ∀ m, multiplier c = some m → p.secs.toNat + p.buffer.toNat * m.toNat < 2 ^ 32

end Parse

def timeStringToSecs (timestring : List Char) : UInt32 :=
  (timestring.foldlM Parse.read ⟨0, 0⟩).elim 0 Parse.secs

/-! ## Exact rounds -/

inductive Reads : Parse → List Char → Parse → Prop
  | nil {p : Parse} : Reads p [] p
  | cons {p q r : Parse} {c : Char} {rest : List Char} (hExact : p.Exact c) (hRead : p.read c = some q)
      (hRest : Reads q rest r) : Reads p (c :: rest) r

variable {p q r : Parse} {text rest : List Char}

theorem Reads.append (h : Reads p text q) (hRest : Reads q rest r) : Reads p (text ++ rest) r := by
  induction h with
  | nil => exact hRest
  | cons hExact hRead _ ih => exact .cons hExact hRead (ih hRest)

theorem Reads.foldlM_eq (h : Reads p text q) : text.foldlM Parse.read p = some q := by
  induction h with
  | nil => rfl
  | cons _ hRead _ ih => simp [hRead, ih]

theorem Reads.exact_at (h : Reads p text q) {before after : List Char} {c : Char}
    (hText : text = before ++ c :: after) :
    ∃ now, before.foldlM Parse.read p = some now ∧ now.Exact c := by
  induction h generalizing before with
  | nil => simp at hText
  | @cons p q r d rest hExact hRead _ ih =>
    cases before with
    | nil =>
      obtain ⟨rfl, -⟩ := List.cons.inj hText
      exact ⟨p, rfl, hExact⟩
    | cons e before =>
      obtain ⟨rfl, hAfter⟩ := List.cons.inj hText
      obtain ⟨now, hNow, hHere⟩ := ih hAfter
      exact ⟨now, by simp [hRead, hNow], hHere⟩

/-! ## Digits and units -/

theorem le_ofDigitChars (digits : List Char) (n : Nat) : n ≤ Nat.ofDigitChars 10 digits n := by
  induction digits generalizing n with
  | nil => simp
  | cons c digits ih =>
    rw [Nat.ofDigitChars_cons]
    exact le_trans (by omega) (ih _)

theorem reads_digits {digits : List Char} (hDigits : ∀ c ∈ digits, c.isDigit = true)
    (hSmall : Nat.ofDigitChars 10 digits p.buffer.toNat < 2 ^ 32) :
    Reads p digits ⟨p.secs, UInt32.ofNat (Nat.ofDigitChars 10 digits p.buffer.toNat)⟩ := by
  induction digits generalizing p with
  | nil => simpa using Reads.nil
  | cons c digits ih =>
    have hDigit := hDigits c List.mem_cons_self
    rw [Nat.ofDigitChars_cons, Nat.mul_comm] at hSmall ⊢
    have hHere : p.buffer.toNat * 10 + digit c < 2 ^ 32 := (le_ofDigitChars digits _).trans_lt hSmall
    have hBuffer : (p.buffer * 10 + UInt32.ofNat (digit c)).toNat = p.buffer.toNat * 10 + digit c := by
      have hFew : digit c < 2 ^ 32 := by omega
      have hTen : (10 : UInt32).toNat = 10 := rfl
      simp only [UInt32.toNat_add, UInt32.toNat_mul, UInt32.toNat_ofNat', hTen]
      omega
    have hRest := @ih ⟨p.secs, p.buffer * 10 + UInt32.ofNat (digit c)⟩
      (fun d hd => hDigits d (List.mem_cons_of_mem _ hd))
    rw [hBuffer] at hRest
    exact .cons ⟨fun _ => hHere, by simp [hDigit], by simp [hDigit]⟩ (if_pos hDigit) (hRest hSmall)

/-- A part that is left out is zero. -/
theorem reads_part {part : UInt64} {unit : String} {c : Char} {m : UInt32} {s next : Nat} {seen : Prop} [Decidable seen]
    (hUnit : unit.toList = [c]) (hLetter : c.isDigit = false) (hMultiplier : multiplier c = some m) (hPos : 0 < m.toNat)
    (hNext : next = s + part.toNat * m.toNat) (hSmall : next < 2 ^ 32) (hSeen : ¬ seen → part = 0) :
    Reads ⟨UInt32.ofNat s, 0⟩ (if seen then shown part unit else []) ⟨UInt32.ofNat next, 0⟩ := by
  subst hNext
  split
  · have hPart : part.toNat ≤ part.toNat * m.toNat := Nat.le_mul_of_pos_right _ hPos
    have hDigits := @reads_digits ⟨UInt32.ofNat s, 0⟩ (Nat.toDigits 10 part.toNat) (fun d hd => isDigit_of_mem hd)
    rw [UInt32.toNat_zero, Nat.ofDigitChars_ten_toDigits] at hDigits
    have hWord : (UInt32.ofNat part.toNat).toNat = part.toNat := Nat.mod_eq_of_lt (by omega)
    have hSecs : (UInt32.ofNat s).toNat = s := Nat.mod_eq_of_lt (by omega)
    rw [shown, hUnit]
    refine (hDigits (by omega)).append (.cons ⟨by simp [hLetter], fun _ m' hm => ?_, fun _ m' hm => ?_⟩ ?_ .nil)
    · obtain rfl := Option.some.inj (hMultiplier.symm.trans hm)
      rw [hWord]
      omega
    · obtain rfl := Option.some.inj (hMultiplier.symm.trans hm)
      rw [hWord, hSecs]
      exact hSmall
    · rw [Parse.read, hLetter, if_neg Bool.false_ne_true, hMultiplier, Option.map_some, UInt32.ofNat_add, UInt32.ofNat_mul,
        UInt32.ofNat_toNat]
  · rename_i hNot
    rw [hSeen hNot, UInt64.toNat_zero, Nat.zero_mul, Nat.add_zero]
    exact .nil

theorem reads_secsToTimeString {t : UInt64} (h : t.toNat < 2 ^ 32) :
    Reads ⟨0, 0⟩ (secsToTimeString t true false) ⟨UInt32.ofNat t.toNat, 0⟩ := by
  have hDays : (t / 86400).toNat = t.toNat / 86400 := UInt64.toNat_div ..
  have hHours : (t % 86400 / 3600).toNat = t.toNat % 86400 / 3600 := UInt64.toNat_div ..
  have hMinutes : (t % 3600 / 60).toNat = t.toNat % 3600 / 60 := UInt64.toNat_div ..
  have hSecs : (t % 60).toNat = t.toNat % 60 := UInt64.toNat_mod ..
  have hDay : (86400 : UInt32).toNat = 86400 := rfl
  have hHour : (3600 : UInt32).toNat = 3600 := rfl
  have hMinute : (60 : UInt32).toNat = 60 := rfl
  have hSecond : (1 : UInt32).toNat = 1 := rfl
  -- the parts before a unit are the time without the rest
  refine Reads.append (q := ⟨UInt32.ofNat (t.toNat - t.toNat % 3600), 0⟩)
    (Reads.append (q := ⟨UInt32.ofNat (t.toNat - t.toNat % 86400), 0⟩) ?_ ?_)
    (Reads.append (q := ⟨UInt32.ofNat (t.toNat - t.toNat % 60), 0⟩) ?_ ?_)
  · exact reads_part (s := 0) (c := 'd') rfl rfl rfl (by decide) (by rw [hDays, hDay]; omega) (by omega) not_not.mp
  · exact reads_part (c := 'h') rfl rfl rfl (by decide) (by rw [hHours, hHour]; omega) (by omega)
      fun hNot => not_not.mp (not_or.mp hNot).1
  · exact reads_part (c := 'm') rfl rfl rfl (by decide) (by rw [hMinutes, hMinute]; omega) (by omega) not_not.mp
  · exact reads_part (c := 's') rfl rfl rfl (by decide) (by rw [hSecs, hSecond]; omega) (by omega)
      fun hNot => not_not.mp (not_or.mp hNot).1

/-- What is written of a time below 2 ^ 32 is read back, and nothing wraps on the way. -/
theorem timeStringToSecs_secsToTimeString (t : UInt64) (h : t.toNat < 2 ^ 32) :
    timeStringToSecs (secsToTimeString t true false) = t.toUInt32 ∧
    ∀ before c after, secsToTimeString t true false = before ++ c :: after →
      ∃ p, before.foldlM Parse.read ⟨0, 0⟩ = some p ∧ p.Exact c := by
  have hReads := reads_secsToTimeString h
  refine ⟨?_, fun before c after hText => hReads.exact_at hText⟩
  rw [timeStringToSecs, hReads.foldlM_eq]
  rfl

theorem timeStringToSecs_dayHour : secsToTimeString 90000 true false = ['1', 'd', '1', 'h'] ∧
    timeStringToSecs (secsToTimeString 90000 true false) = 90000 :=
  ⟨by decide, (timeStringToSecs_secsToTimeString 90000 (by decide)).1⟩

end AshamaneCore.TimeStrings
