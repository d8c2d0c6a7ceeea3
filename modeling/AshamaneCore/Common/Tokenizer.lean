import Mathlib.Algebra.Ring.Nat
import Mathlib.Data.List.TakeWhile

/-!
# Tokens of a text

The tokenizer cuts a C string at a separator, and an empty piece at the end of
the string is no token. Numbers are read from the tokens with `strtoul` and are
written as decimal text.
-/

namespace AshamaneCore

/-- The rest of the string and the characters since `posold`. A separator is looked for before the end. -/
def Tokenizer.scan (sep : Char) (keepEmptyStrings : Bool) : List Char → List Char → List (List Char)
  | [], piece => if piece ≠ [] then [piece] else []
  | c :: rest, piece =>
    if c = sep then
      if keepEmptyStrings ∨ piece ≠ [] then piece :: Tokenizer.scan sep keepEmptyStrings rest []
      else Tokenizer.scan sep keepEmptyStrings rest []
    else if c = '\x00' then
      if piece ≠ [] then [piece] else []
    else Tokenizer.scan sep keepEmptyStrings rest (piece ++ [c])

/-- The tokens of `Tokenizer(src, sep)`, which keeps empty strings. -/
def Tokenizer (src : List Char) (sep : Char) : List (List Char) := Tokenizer.scan sep true src []

/-- With NUL as the separator the loop takes the end for one and leaves the buffer. -/
def Tokenizer.storage (src : List Char) (sep : Char) (keepEmptyStrings : Bool) : Option (List (List Char)) :=
  if sep = '\x00' then none else some (Tokenizer.scan sep keepEmptyStrings src [])

def isSpace (c : Char) : Bool := c = ' ' || ('\t' ≤ c && c ≤ '\r')

/-- A value past the range becomes the greatest one, with either sign. -/
def strtoul (str : List Char) : UInt64 :=
  let text := str.dropWhile isSpace
  let digits := if text.head? = some '-' ∨ text.head? = some '+' then text.tail else text
  let value := Nat.ofDigitChars 10 (digits.takeWhile Char.isDigit) 0
  if 2 ^ 64 ≤ value then UInt64.ofNat (2 ^ 64 - 1)
  else if text.head? = some '-' then 0 - UInt64.ofNat value
  else UInt64.ofNat value

def atoul (str : List Char) : UInt64 := strtoul str

def spaced (n : UInt32) : List Char := Nat.toDigits 10 n.toNat ++ [' ']

namespace Tokenizer

variable {sep : Char} {keep : Bool}

theorem scan_piece (rest : List Char) (piece token : List Char) (hSep : sep ∉ token) (hEnd : '\x00' ∉ token) :
    scan sep keep (token ++ sep :: rest) piece =
      if keep ∨ piece ++ token ≠ [] then (piece ++ token) :: scan sep keep rest [] else scan sep keep rest [] := by
  induction token generalizing piece with
  | nil => simp [scan]
  | cons c token ih =>
    obtain ⟨hc, hSep⟩ := not_or.mp (List.mem_cons.not.mp hSep)
    obtain ⟨hZero, hEnd⟩ := not_or.mp (List.mem_cons.not.mp hEnd)
    rw [List.cons_append, scan, if_neg (Ne.symm hc), if_neg (Ne.symm hZero), ih _ hSep hEnd]
    simp

theorem scan_last (piece token : List Char) (hSep : sep ∉ token) (hEnd : '\x00' ∉ token) :
    scan sep keep token piece = if piece ++ token ≠ [] then [piece ++ token] else [] := by
  induction token generalizing piece with
  | nil => simp [scan]
  | cons c token ih =>
    obtain ⟨hc, hSep⟩ := not_or.mp (List.mem_cons.not.mp hSep)
    obtain ⟨hZero, hEnd⟩ := not_or.mp (List.mem_cons.not.mp hEnd)
    rw [scan, if_neg (Ne.symm hc), if_neg (Ne.symm hZero), ih _ hSep hEnd]
    simp

theorem tokens_closed (pieces : List (List Char)) (hSep : ∀ piece ∈ pieces, sep ∉ piece)
    (hEnd : ∀ piece ∈ pieces, '\x00' ∉ piece) :
    Tokenizer (pieces.flatMap (fun piece => piece ++ [sep])) sep = pieces := by
  rw [Tokenizer]
  induction pieces with
  | nil => rfl
  | cons piece pieces ih =>
    have hRest := ih (fun p hp => hSep p (List.mem_cons_of_mem _ hp)) (fun p hp => hEnd p (List.mem_cons_of_mem _ hp))
    rw [List.flatMap_cons, List.append_assoc, List.singleton_append,
      scan_piece _ [] piece (hSep piece List.mem_cons_self) (hEnd piece List.mem_cons_self), hRest, if_pos (Or.inl rfl),
      List.nil_append]

/-! ## Joined tokens -/

variable {tokens : List (List Char)}

/-- The last of joined tokens is only kept if it is not empty, and the others if empty ones are kept. -/
theorem scan_joined (tokens : List (List Char)) (last : List Char) (hSep : ∀ token ∈ tokens ++ [last], sep ∉ token)
    (hEnd : ∀ token ∈ tokens ++ [last], '\x00' ∉ token) :
    scan sep keep ([sep].intercalate (tokens ++ [last])) [] =
      tokens.filter (fun token => keep ∨ token ≠ []) ++ if last ≠ [] then [last] else [] := by
  induction tokens with
  | nil => simpa using scan_last [] last (hSep last (by simp)) (hEnd last (by simp))
  | cons token tokens ih =>
    have hRest := ih (fun t ht => hSep t (List.mem_cons_of_mem _ ht)) (fun t ht => hEnd t (List.mem_cons_of_mem _ ht))
    have hPiece := @scan_piece sep keep ([sep].intercalate (tokens ++ [last])) [] token
      (hSep token List.mem_cons_self) (hEnd token List.mem_cons_self)
    rw [List.cons_append, List.intercalate_cons_of_ne_nil (by simp), List.append_assoc, List.singleton_append, hPiece,
      hRest, List.nil_append, List.filter_cons]
    split <;> simp_all

theorem intercalate_append_nil (hSome : tokens ≠ []) :
    [sep].intercalate (tokens ++ [[]]) = [sep].intercalate tokens ++ [sep] := by
  induction tokens with
  | nil => exact absurd rfl hSome
  | cons token tokens ih =>
    by_cases hNil : tokens = []
    · simp [hNil]
    · rw [List.cons_append, List.intercalate_cons_of_ne_nil (by simp), ih hNil, List.intercalate_cons_of_ne_nil hNil]
      simp

/-- Joined tokens are found again, the empty ones where they are kept and not the last. -/
theorem storage_joined (tokens : List (List Char)) (hNul : sep ≠ '\x00') (hSep : ∀ token ∈ tokens, sep ∉ token)
    (hEnd : ∀ token ∈ tokens, '\x00' ∉ token) :
    (tokens.getLast? ≠ some [] → storage ([sep].intercalate tokens) sep true = some tokens) ∧
    storage ([sep].intercalate tokens) sep false = some (tokens.filter (· ≠ [])) ∧
    ∀ keep, ∃ found, storage ([sep].intercalate tokens) sep keep = some found ∧ (∀ token ∈ found, sep ∉ token) ∧
      (keep = true ∨ [] ∉ tokens.dropLast → [sep].intercalate tokens = [sep].intercalate found ∨
        [sep].intercalate tokens = [sep].intercalate found ++ [sep]) := by
  obtain rfl | ⟨init, last, rfl⟩ := tokens.eq_nil_or_concat
  · simp [storage, hNul, scan]
  rw [List.concat_eq_append] at *
  simp only [storage, if_neg hNul, scan_joined init last hSep hEnd, List.getLast?_concat, List.dropLast_concat]
  refine ⟨fun hLast => ?_, ?_, fun keep => ⟨_, rfl, fun token hToken => hSep token ?_, fun hKept => ?_⟩⟩
  · have hSome : last ≠ [] := fun hNil => hLast (congrArg some hNil)
    simp [hSome]
  · by_cases hNil : last = [] <;> simp [hNil]
  · rw [List.mem_append] at hToken ⊢
    refine hToken.imp (fun hKept => (List.mem_filter.mp hKept).1) fun hToken => ?_
    split at hToken
    · exact hToken
    · cases hToken
  · have hInit : init.filter (fun token => keep ∨ token ≠ []) = init := by
      refine List.filter_eq_self.mpr fun token hToken => decide_eq_true (hKept.imp_right ?_)
      rintro hNone rfl
      exact hNone hToken
    rw [hInit]
    by_cases hNil : last = []
    · rw [if_neg (not_not.mpr hNil), List.append_nil, hNil]
      by_cases hEmpty : init = []
      · exact Or.inl (by simp [hEmpty])
      · exact Or.inr (intercalate_append_nil hEmpty)
    · exact Or.inl (by rw [if_pos hNil])

theorem storage_joined_names :
    storage [',', 'a', ',', ',', 'b'] ',' true = some [[], ['a'], [], ['b']] ∧
      storage [',', 'a', ',', ',', 'b'] ',' false = some [['a'], ['b']] :=
  have hJoined := storage_joined [[], ['a'], [], ['b']] (by decide : ',' ≠ '\x00') (by decide) (by decide)
  ⟨hJoined.1 (by decide), hJoined.2.1⟩

/-- Where empty tokens are dropped, their separators are missing. -/
theorem dropped_not_reproduced :
    storage ([','].intercalate [['a'], [], ['b']]) ',' false = some [['a'], ['b']] ∧
      [','].intercalate [['a'], [], ['b']] ≠ [','].intercalate [['a'], ['b']] ∧
      [','].intercalate [['a'], [], ['b']] ≠ [','].intercalate [['a'], ['b']] ++ [','] := by
  decide

end Tokenizer

/-! ## Decimal text -/

variable {c : Char}

theorem isDigit_of_mem {n : Nat} (h : c ∈ Nat.toDigits 10 n) : c.isDigit = true :=
  Nat.isDigit_of_mem_toDigits (by decide) (by decide) h

theorem not_mem_toDigits (hc : c.isDigit = false) (n : Nat) : c ∉ Nat.toDigits 10 n := by
  intro h
  rw [isDigit_of_mem h] at hc
  cases hc

theorem isSpace_of_isDigit (h : c.isDigit = true) : isSpace c = false := by
  have hDigit : 48 ≤ c.val ∧ c.val ≤ 57 := by simpa [Char.isDigit] using h
  have hBlank : c ≠ ' ' := by
    rintro rfl
    exact absurd hDigit.1 (by decide)
  have hControl : ¬ c ≤ '\r' := by
    intro hLast
    have hWrong : (48 : UInt32) ≤ '\r'.val := UInt32.le_trans hDigit.1 hLast
    exact absurd hWrong (by decide)
  simp [isSpace, hBlank, hControl]

theorem strtoul_toDigits {n : Nat} (hn : n < 2 ^ 64) : strtoul (Nat.toDigits 10 n) = UInt64.ofNat n := by
  obtain ⟨c, rest, hText⟩ := List.exists_cons_of_ne_nil (Nat.toDigits_ne_nil (n := n) (b := 10))
  have hDigits : ∀ d ∈ c :: rest, d.isDigit = true := fun d hd => isDigit_of_mem (hText ▸ hd)
  have hFirst : c.isDigit = true := hDigits c List.mem_cons_self
  have hSign : ∀ d, d.isDigit = false → c ≠ d := by
    rintro d hd rfl
    rw [hFirst] at hd
    cases hd
  have hSpaces : (c :: rest).dropWhile isSpace = c :: rest := by
    rw [List.dropWhile_cons_of_neg (by rw [isSpace_of_isDigit hFirst]; decide)]
  have hTaken : (c :: rest).takeWhile Char.isDigit = c :: rest := List.takeWhile_eq_self_iff.mpr hDigits
  have hValue : Nat.ofDigitChars 10 (c :: rest) 0 = n := by rw [← hText, Nat.ofDigitChars_ten_toDigits]
  rw [hText]
  simp only [strtoul, hSpaces, List.head?_cons, Option.some.injEq, hSign '-' (by decide), hSign '+' (by decide),
    or_self, if_false, hTaken, hValue, if_neg (Nat.not_le.mpr hn)]

@[simp] theorem atoul_toDigits (n : UInt32) : atoul (Nat.toDigits 10 n.toNat) = n.toUInt64 := by
  rw [atoul, strtoul_toDigits (n.toNat_lt.trans (by decide))]
  exact UInt64.toNat_inj.mp (by simp)

theorem tokens_spaced (numbers : List UInt32) :
    Tokenizer (numbers.flatMap spaced) ' ' = numbers.map (fun n => Nat.toDigits 10 n.toNat) := by
  have hPieces : numbers.flatMap spaced =
      (numbers.map (fun n => Nat.toDigits 10 n.toNat)).flatMap (fun piece => piece ++ [' ']) := by
    rw [List.flatMap_map]
    rfl
  rw [hPieces]
  refine Tokenizer.tokens_closed _ (fun piece hPiece => ?_) (fun piece hPiece => ?_)
  all_goals
    obtain ⟨n, -, rfl⟩ := List.mem_map.mp hPiece
    exact not_mem_toDigits (by decide) n.toNat

end AshamaneCore
