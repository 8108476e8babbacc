import Mathlib.Algebra.Order.Ring.Int
import Mathlib.Data.List.Basic
import Mathlib.Tactic.Common

/-!
# Sizes with units

`int64ToHumanStr` writes a number with the largest unit that divides it, and `strHumanToInt64`
reads it. The unit `E` is written, and `isValidHumanString` accepts it, but it is not read.
-/

namespace Fhgfs.UnitTk

open List

def UNITTK_SIZE_CONVERT_FACTOR : Int64 := 1024
def UNITTK_ONE_KIBIBYTE : Int64 := UNITTK_SIZE_CONVERT_FACTOR
def UNITTK_ONE_MEBIBYTE : Int64 := UNITTK_ONE_KIBIBYTE * UNITTK_SIZE_CONVERT_FACTOR
def UNITTK_ONE_GIBIBYTE : Int64 := UNITTK_ONE_MEBIBYTE * UNITTK_SIZE_CONVERT_FACTOR
def UNITTK_ONE_TEBIBYTE : Int64 := UNITTK_ONE_GIBIBYTE * UNITTK_SIZE_CONVERT_FACTOR
def UNITTK_ONE_PEBIBYTE : Int64 := UNITTK_ONE_TEBIBYTE * UNITTK_SIZE_CONVERT_FACTOR
def UNITTK_ONE_EXBIBYTE : Int64 := UNITTK_ONE_PEBIBYTE * UNITTK_SIZE_CONVERT_FACTOR

def isspace (c : Char) : Bool := c.toNat = 32 || 9 ≤ c.toNat && c.toNat ≤ 13

def digitsValue (s : List Char) : Nat := Nat.ofDigitChars 10 (s.takeWhile Char.isDigit) 0

/-- `atoll`, with the nearest number for one that is too large. -/
def strToInt64 (s : List Char) : Int64 :=
  match s.dropWhile isspace with
  | '-' :: rest => .ofIntClamp (-digitsValue rest)
  | '+' :: rest => .ofIntClamp (digitsValue rest)
  | rest => .ofIntClamp (digitsValue rest)

/-- The format `%qd`. -/
def int64ToStr (a : Int64) : List Char :=
  match a.toInt with
  | .ofNat n => Nat.toDigits 10 n
  | .negSucc n => '-' :: Nat.toDigits 10 (n + 1)

structure SizeUnit where
  letter : Char
  lower : Char
  one : Int64
  deriving DecidableEq

def exbibyte : SizeUnit := ⟨'E', 'e', UNITTK_ONE_EXBIBYTE⟩

/-- The `if`s of `int64ToHumanStr`, with the letter of each unit. -/
def units : List (SizeUnit) :=
  [exbibyte, ⟨'P', 'p', UNITTK_ONE_PEBIBYTE⟩, ⟨'T', 't', UNITTK_ONE_TEBIBYTE⟩,
    ⟨'G', 'g', UNITTK_ONE_GIBIBYTE⟩, ⟨'M', 'm', UNITTK_ONE_MEBIBYTE⟩,
    ⟨'K', 'k', UNITTK_ONE_KIBIBYTE⟩]

def IsLetter (c : Char) (unit : SizeUnit) : Bool := c ∈ [unit.letter, unit.lower]

/-- Each unit has its `if`, apart from `E`. -/
def strHumanToInt64 (s : List Char) : Int64 :=
  if s.length < 2 then strToInt64 s
  else
    match units.tail.find? fun unit => s.getLast?.any (IsLetter · unit) with
    | some unit => strToInt64 s.dropLast * unit.one
    | none => strToInt64 s

/-- `-a` wraps for the smallest number, which is written without a unit. -/
def IsMultiple (a one : Int64) : Bool := (a ≥ one || -a ≥ one) && a % one = 0

def int64ToHumanStr (a : Int64) : List Char :=
  match units.find? fun unit => IsMultiple a unit.one with
  | some unit => int64ToStr (a / unit.one) ++ [unit.letter]
  | none => int64ToStr a

def isNumeric (testString : List Char) : Bool :=
  !testString.isEmpty && testString.all Char.isDigit

def isValidHumanString (humanString : List Char) : Bool :=
  !humanString.isEmpty && (isNumeric humanString ||
    isNumeric humanString.dropLast && humanString.getLast?.any fun c => units.any (IsLetter c))

/-- The number in a valid string times its unit. -/
def humanValue (s : List Char) : Int :=
  digitsValue s * (units.find? fun unit => s.getLast?.any (IsLetter · unit)).elim 1 (·.one.toInt)

/-! ## Digits -/

variable {l : List Char} (rest : List Char)

theorem digitsValue_append (hDigits : ∀ c ∈ l, c.isDigit) (hRest : ∀ c ∈ rest.head?, ¬ c.isDigit) :
    digitsValue (l ++ rest) = Nat.ofDigitChars 10 l 0 := by
  have hNone : rest.takeWhile Char.isDigit = [] := by
    cases rest with
    | nil => rfl
    | cons c rest => exact takeWhile_cons_of_neg (hRest c rfl)
  rw [digitsValue, takeWhile_append_of_pos hDigits, hNone, append_nil]

theorem not_isspace {c : Char} (h : c.isDigit) : ¬ isspace c := by
  have hCode : 48 ≤ c.toNat := (Char.isDigit_iff_toNat.mp h).1
  simp only [isspace, Bool.or_eq_true, Bool.and_eq_true, decide_eq_true_eq]
  omega

theorem strToInt64_of_digits (hNil : l ≠ []) (hDigits : ∀ c ∈ l, c.isDigit) :
    strToInt64 (l ++ rest) = .ofIntClamp (digitsValue (l ++ rest)) := by
  obtain ⟨c, l, rfl⟩ := exists_cons_of_ne_nil hNil
  have hDigit := hDigits c mem_cons_self
  rw [strToInt64, cons_append, dropWhile_cons_of_neg (not_isspace hDigit)]
  split
  · rename_i hEq
    cases hEq
    cases hDigit
  · rename_i hEq
    cases hEq
    cases hDigit
  · rfl

theorem isDigit_toDigits (n : Nat) : ∀ c ∈ Nat.toDigits 10 n, c.isDigit := fun _ h =>
  Nat.isDigit_of_mem_toDigits (by decide) (by decide) h

/-- A number is read back, whatever follows its digits. -/
theorem strToInt64_int64ToStr (a : Int64) (hRest : ∀ c ∈ rest.head?, ¬ c.isDigit) :
    strToInt64 (int64ToStr a ++ rest) = a := by
  unfold int64ToStr
  cases hValue : a.toInt with
  | ofNat n =>
    dsimp only
    rw [strToInt64_of_digits _ Nat.toDigits_ne_nil (isDigit_toDigits n),
      digitsValue_append _ (isDigit_toDigits n) hRest, Nat.ofDigitChars_ten_toDigits,
      ← Int.ofNat_eq_natCast, ← hValue, Int64.ofIntClamp_toInt]
  | negSucc n =>
    dsimp only
    rw [cons_append, strToInt64, dropWhile_cons_of_neg (by decide)]
    change Int64.ofIntClamp (-digitsValue (Nat.toDigits 10 (n + 1) ++ rest)) = a
    rw [digitsValue_append _ (isDigit_toDigits _) hRest, Nat.ofDigitChars_ten_toDigits]
    change Int64.ofIntClamp (.negSucc n) = a
    rw [← hValue, Int64.ofIntClamp_toInt]

theorem int64ToStr_eq_concat (a : Int64) : ∃ v d, int64ToStr a = v ++ [d] ∧ d.isDigit := by
  have hLast (n : Nat) := (dropLast_append_getLast (Nat.toDigits_ne_nil (n := n) (b := 10))).symm
  have hDigit (n : Nat) := isDigit_toDigits n _ (getLast_mem Nat.toDigits_ne_nil)
  unfold int64ToStr
  cases a.toInt with
  | ofNat n => exact ⟨_, _, hLast n, hDigit n⟩
  | negSucc n => exact ⟨'-' :: _, _, congrArg ('-' :: ·) (hLast (n + 1)), hDigit (n + 1)⟩

theorem int64ToStr_ne_nil (a : Int64) : int64ToStr a ≠ [] := by
  obtain ⟨v, d, hEq, -⟩ := int64ToStr_eq_concat a
  simp [hEq]

/-! ## Units -/

variable {unit : SizeUnit} {c : Char}

theorem not_isLetter (h : c.isDigit) (hUnit : unit ∈ units) : ¬ IsLetter c unit := by
  intro hLetter
  simp only [units, mem_cons, not_mem_nil, or_false] at hUnit
  simp only [IsLetter, mem_cons, not_mem_nil, or_false, decide_eq_true_eq] at hLetter
  rcases hUnit with rfl | rfl | rfl | rfl | rfl | rfl <;> rcases hLetter with rfl | rfl <;> cases h

theorem find?_letter (hUnit : unit ∈ units) (hLetter : IsLetter c unit) :
    units.find? (IsLetter c) = some unit ∧
      units.tail.find? (IsLetter c) = if unit = exbibyte then none else some unit := by
  simp only [units, mem_cons, not_mem_nil, or_false] at hUnit
  simp only [IsLetter, mem_cons, not_mem_nil, or_false, decide_eq_true_eq] at hLetter
  rcases hUnit with rfl | rfl | rfl | rfl | rfl | rfl <;> rcases hLetter with rfl | rfl <;>
    exact ⟨rfl, rfl⟩

theorem strHumanToInt64_letter (hNil : l ≠ []) (hUnit : unit ∈ units) (hLetter : IsLetter c unit) :
    strHumanToInt64 (l ++ [c]) =
      if unit = exbibyte then strToInt64 (l ++ [c]) else strToInt64 l * unit.one := by
  have hLen : ¬ (l ++ [c]).length < 2 := by
    have := length_pos_iff.mpr hNil
    rw [length_append, length_singleton]
    omega
  rw [strHumanToInt64, if_neg hLen, getLast?_concat, dropLast_concat]
  simp only [Option.any_some, (find?_letter hUnit hLetter).2]
  split_ifs <;> rfl

theorem strHumanToInt64_digit (h : c.isDigit) :
    strHumanToInt64 (l ++ [c]) = strToInt64 (l ++ [c]) := by
  have hNone : units.tail.find? (IsLetter c) = none :=
    find?_eq_none.mpr fun unit hUnit => not_isLetter h (mem_of_mem_tail hUnit)
  unfold strHumanToInt64
  rw [getLast?_concat]
  simp only [Option.any_some, hNone, ite_self]

theorem one_le : ∀ unit ∈ units, 1 ≤ unit.one.toInt := by decide

theorem first_iff {a : Int64} (h : units.find? (fun unit => IsMultiple a unit.one) = some unit) :
    unit = exbibyte ↔ IsMultiple a exbibyte.one := by
  rw [units, find?_cons] at h
  cases hE : IsMultiple a exbibyte.one with
  | true =>
    rw [hE] at h
    exact iff_of_true (Option.some.inj h).symm rfl
  | false =>
    rw [hE] at h
    exact iff_of_false (ne_of_mem_of_not_mem (mem_of_find?_eq_some h) (by decide)) nofun

theorem div_mul {a : Int64} (hUnit : unit ∈ units) (h : IsMultiple a unit.one) :
    a / unit.one * unit.one = a := by
  have hNe : unit.one ≠ -1 := fun hEq => absurd (hEq ▸ one_le unit hUnit) (by decide)
  have hMod := congrArg Int64.toInt (of_decide_eq_true (Bool.and_eq_true_iff.mp h).2)
  rw [Int64.toInt_mod] at hMod
  rw [← Int64.toInt_inj, Int64.toInt_mul, Int64.toInt_div_of_ne_right _ _ hNe,
    Int.tdiv_mul_cancel (Int.dvd_of_tmod_eq_zero hMod), Int64.toInt_bmod_size]

/-- The quotient by a multiple of `E` is not the number itself. -/
theorem div_ne {a : Int64} (h : IsMultiple a exbibyte.one) : a / exbibyte.one ≠ a := by
  intro hSame
  have hAbs := congrArg (fun a => a.toInt.natAbs) hSame
  rw [Int64.toInt_div_of_ne_right _ _ (by decide), Int.natAbs_tdiv] at hAbs
  have hPos : a.toInt.natAbs ≠ 0 := by
    intro hZero
    obtain rfl : a = 0 := Int64.toInt_inj.mp (Int.natAbs_eq_zero.mp hZero)
    exact absurd h (by decide)
  exact (Nat.div_lt_self (Nat.pos_of_ne_zero hPos) (by decide)).ne hAbs

theorem inverse_iff (a : Int64) :
    strHumanToInt64 (int64ToHumanStr a) = a ↔ ¬ IsMultiple a exbibyte.one := by
  unfold int64ToHumanStr
  cases hFind : units.find? fun unit => IsMultiple a unit.one with
  | none =>
    obtain ⟨v, d, hEq, hDigit⟩ := int64ToStr_eq_concat a
    dsimp only
    rw [hEq, strHumanToInt64_digit hDigit, ← hEq, ← append_nil (int64ToStr a)]
    exact iff_of_true (strToInt64_int64ToStr [] a nofun)
      (find?_eq_none.mp hFind exbibyte mem_cons_self)
  | some unit =>
    have hUnit := mem_of_find?_eq_some hFind
    have hMultiple := List.find?_some hFind
    dsimp only
    rw [strHumanToInt64_letter (int64ToStr_ne_nil _) hUnit (by simp [IsLetter]), ← first_iff hFind]
    split_ifs with hE
    · subst hE
      rw [strToInt64_int64ToStr [exbibyte.letter] _ (by simp [exbibyte])]
      exact iff_of_false (div_ne hMultiple) (not_not.mpr rfl)
    · rw [← append_nil (int64ToStr _), strToInt64_int64ToStr [] _ nofun, div_mul hUnit hMultiple]
      exact iff_of_true rfl hE

theorem toInt_ofIntClamp {n : Nat} (h : (n : Int) < 2 ^ 63) : (Int64.ofIntClamp n).toInt = n :=
  Int64.toInt_ofIntClamp (by rw [Int64.toInt_minValue]; omega)
    (by rw [Int64.toInt_maxValue]; omega)

theorem value_iff {s : List Char} (h : isValidHumanString s) (hFits : humanValue s < 2 ^ 63) :
    (strHumanToInt64 s).toInt = humanValue s ↔
      humanValue s = 0 ∨ ¬ s.getLast?.any (IsLetter · exbibyte) := by
  simp only [isValidHumanString, isNumeric, Bool.and_eq_true, Bool.or_eq_true, Bool.not_eq_true',
    List.isEmpty_eq_false_iff, all_eq_true] at h
  obtain ⟨hNil, h⟩ := h
  obtain ⟨v, c, rfl⟩ := (eq_nil_or_concat' s).resolve_left hNil
  rw [dropLast_concat, getLast?_concat] at h
  rw [getLast?_concat]
  unfold humanValue at hFits ⊢
  rw [getLast?_concat] at hFits ⊢
  simp only [Option.any_some] at h hFits ⊢
  rcases h with ⟨-, hDigits⟩ | ⟨⟨hNil, hDigits⟩, hLetter⟩
  · have hDigit := hDigits c (by simp)
    have hNone : units.find? (IsLetter c) = none :=
      find?_eq_none.mpr fun unit hUnit => not_isLetter hDigit hUnit
    rw [hNone, Option.elim_none, mul_one] at hFits ⊢
    have hRead := strToInt64_of_digits [] hNil hDigits
    rw [append_nil] at hRead
    rw [strHumanToInt64_digit hDigit, hRead, toInt_ofIntClamp hFits]
    exact iff_of_true rfl (.inr (not_isLetter hDigit mem_cons_self))
  · obtain ⟨unit, hUnit, hLetter⟩ := any_eq_true.mp hLetter
    have hLetters := (find?_letter hUnit hLetter).1
    have hEnd := digitsValue_append [c] hDigits
      (by simpa using mt (not_isLetter · hUnit) (not_not.mpr hLetter))
    have hAll := digitsValue_append [] hDigits nofun
    rw [append_nil, ← hEnd] at hAll
    rw [hLetters, Option.elim_some] at hFits ⊢
    have hLe := le_mul_of_one_le_right (Int.natCast_nonneg (digitsValue (v ++ [c])))
      (one_le unit hUnit)
    have hLt := hLe.trans_lt hFits
    rw [strHumanToInt64_letter hNil hUnit hLetter]
    split_ifs with hE
    · subst hE
      rw [strToInt64_of_digits [c] hNil hDigits, toInt_ofIntClamp hLt,
        or_iff_left (not_not.mpr hLetter)]
      rw [show exbibyte.one.toInt = 2 ^ 60 by decide]
      omega
    · have hRead := strToInt64_of_digits [] hNil hDigits
      rw [append_nil, hAll] at hRead
      rw [Int64.toInt_mul, hRead, toInt_ofIntClamp hLt, Int.bmod_eq_of_le (by omega) (by omega)]
      exact iff_of_true rfl (.inr fun hFirst => hE (Option.some.inj
        (hLetters.symm.trans (find?_letter mem_cons_self hFirst).1)))

end Fhgfs.UnitTk
