import Fhgfs.Lib.OrderedMap
import Mathlib.Data.Char
import Mathlib.Data.List.Lex

/-!
# Maps of strings as text files

`MapTk` writes one line `key=value` for each element and reads them back, with the trimming of
`StringTk`. A key that is not `PlainKey` does not come back: it is a comment, or an empty line,
or it is cut at the first `=` or line break, or trimmed. `loadStringMap_saveStringMap` is the
round trip of the others.
-/

namespace Fhgfs

open List

abbrev Text := List Char

/-- Ordered as `std::map<std::string, std::string>`. -/
abbrev StringMap := OrderedMap Text Text

namespace StringTk

def isTrimmed (c : Char) : Bool := c == ' ' || c == '\n' || c == '\r' || c == '\t'

def trim (s : Text) : Text := ((s.dropWhile isTrimmed).reverse.dropWhile isTrimmed).reverse

def hexDigit (n : Nat) : Char :=
  if n < 10 then Char.ofNat (48 + n) else Char.ofNat (55 + n)

/-- The last `digits` digits of a number, without leading zeros. -/
def hexDigits : Nat → Nat → Text
  | 0, _ => []
  | digits + 1, n =>
    if n < 16 then [hexDigit n] else hexDigits digits (n / 16) ++ [hexDigit (n % 16)]

def uintToHexStr (a : Nat) : Text := hexDigits 8 (a % 2 ^ 32)

def hexVal (c : Char) : Option Nat :=
  if '0' ≤ c ∧ c ≤ '9' then some (c.toNat - 48)
  else if 'A' ≤ c ∧ c ≤ 'F' then some (c.toNat - 55)
  else if 'a' ≤ c ∧ c ≤ 'f' then some (c.toNat - 87)
  else none

/-- The value of the digits up to the first character that is none. -/
def hexPrefix (value : Nat) : Text → Nat
  | [] => value
  | c :: s =>
    match hexVal c with
    | none => value
    | some digit => hexPrefix (16 * value + digit) s

def isSpace (c : Char) : Bool := isTrimmed c || c == '\x0b' || c == '\x0c'

/-- Whether a minus sign comes first, and what follows the sign. -/
def takeSign : Text → Bool × Text
  | '-' :: s => (true, s)
  | '+' :: s => (false, s)
  | s => (false, s)

def skipHexPrefix : Text → Text
  | '0' :: 'x' :: s => s
  | '0' :: 'X' :: s => s
  | s => s

/-- `sscanf` of an `unsigned` with `%X`: spaces, a sign and `0x` may come first. The number is
read as `unsigned long`; without any digit the result stays 0. -/
def strHexToUInt (s : Text) : Nat :=
  let (negative, s) := takeSign (s.dropWhile isSpace)
  let value := min (hexPrefix 0 (skipHexPrefix s)) (2 ^ 64 - 1)
  (if negative then 2 ^ 64 - value else value) % 2 ^ 32

/-! ## Trimming and hexadecimal numbers -/

/-- Neither the first nor the last character is one that `trim` takes off. -/
structure Untrimmed (s : Text) : Prop where
  head : ∀ c ∈ s.head?, isTrimmed c = false
  last : ∀ c ∈ s.getLast?, isTrimmed c = false

variable {s : Text}

theorem dropWhile_eq_self {p : Char → Bool} (h : ∀ c ∈ s.head?, p c = false) :
    s.dropWhile p = s := by
  cases s with
  | nil => rfl
  | cons c s => rw [dropWhile_cons_of_neg (by simp [h c rfl])]

theorem Untrimmed.trim_eq (h : Untrimmed s) : trim s = s := by
  unfold trim
  rw [dropWhile_eq_self h.head, dropWhile_eq_self (by rw [head?_reverse]; exact h.last),
    reverse_reverse]

def AllHex (s : Text) : Prop := ∀ c ∈ s, (hexVal c).isSome

theorem hexVal_hexDigit {n : Nat} (h : n < 16) : hexVal (hexDigit n) = some n := by
  have hAll : ∀ k : Fin 16, hexVal (hexDigit k) = some k.val := by decide
  exact hAll ⟨n, h⟩

theorem hexPrefix_append (hHex : AllHex s) (value : Nat) {digit : Nat} (hDigit : digit < 16) :
    hexPrefix value (s ++ [hexDigit digit]) = 16 * hexPrefix value s + digit := by
  induction s generalizing value with
  | nil => simp [hexPrefix, hexVal_hexDigit hDigit]
  | cons c s ih =>
    obtain ⟨d, hd⟩ := Option.isSome_iff_exists.mp (hHex c mem_cons_self)
    simp only [cons_append, hexPrefix, hd]
    exact ih (fun x hx => hHex x (mem_cons_of_mem _ hx)) _

theorem hexDigits_spec (digits : Nat) {n : Nat} (hPos : 0 < digits) (h : n < 16 ^ digits) :
    AllHex (hexDigits digits n) ∧ hexDigits digits n ≠ [] ∧
      hexPrefix 0 (hexDigits digits n) = n := by
  induction digits generalizing n with
  | zero => exact absurd hPos (lt_irrefl 0)
  | succ digits ih =>
    unfold hexDigits
    split_ifs with hSmall
    · refine ⟨?_, cons_ne_nil _ _, by simp [hexPrefix, hexVal_hexDigit hSmall]⟩
      intro c hc
      rw [mem_singleton.mp hc, hexVal_hexDigit hSmall]
      rfl
    have hDigit : n % 16 < 16 := Nat.mod_lt _ (by decide)
    have hMore : 0 < digits := by
      rcases Nat.eq_zero_or_pos digits with rfl | hMore
      · exact absurd h (by omega)
      · exact hMore
    rw [pow_succ] at h
    obtain ⟨hHex, -, hValue⟩ := ih hMore (show n / 16 < 16 ^ digits by omega)
    refine ⟨?_, by simp, ?_⟩
    · intro c hc
      rcases mem_append.mp hc with hOld | hNew
      · exact hHex c hOld
      · rw [mem_singleton.mp hNew, hexVal_hexDigit hDigit]
        rfl
    · rw [hexPrefix_append hHex _ hDigit, hValue]
      omega

theorem hex_uintToHexStr (a : Nat) : AllHex (uintToHexStr a) :=
  (hexDigits_spec 8 (by decide) (Nat.mod_lt _ (by decide))).1

theorem AllHex.not_mem (h : AllHex s) {c : Char} (hc : hexVal c = none) : c ∉ s :=
  fun hIn => by simpa [hc] using h c hIn

theorem not_space_of_hex {c : Char} (h : (hexVal c).isSome) : isSpace c = false := by
  cases hSpace : isSpace c with
  | false => rfl
  | true =>
    simp only [isSpace, isTrimmed, Bool.or_eq_true, beq_iff_eq] at hSpace
    rcases hSpace with ((((rfl | rfl) | rfl) | rfl) | rfl) | rfl <;> exact absurd h (by decide)

theorem AllHex.untrimmed (h : AllHex s) : Untrimmed s := by
  have hChar : ∀ c ∈ s, isTrimmed c = false := by
    intro c hc
    have hSpace := not_space_of_hex (h c hc)
    simp only [isSpace, Bool.or_eq_false_iff] at hSpace
    exact hSpace.1.1
  exact ⟨fun c hc => hChar c (mem_of_mem_head? hc), fun c hc => hChar c (mem_of_mem_getLast? hc)⟩

theorem takeSign_of_hex (h : AllHex s) : takeSign s = (false, s) := by
  unfold takeSign
  split
  · exact absurd mem_cons_self (h.not_mem (show hexVal '-' = none by decide))
  · exact absurd mem_cons_self (h.not_mem (show hexVal '+' = none by decide))
  · rfl

theorem skipHexPrefix_of_hex (h : AllHex s) : skipHexPrefix s = s := by
  unfold skipHexPrefix
  split
  · exact absurd (mem_cons_of_mem _ mem_cons_self)
      (h.not_mem (show hexVal 'x' = none by decide))
  · exact absurd (mem_cons_of_mem _ mem_cons_self)
      (h.not_mem (show hexVal 'X' = none by decide))
  · rfl

theorem AllHex.strHexToUInt_eq (h : AllHex s) :
    strHexToUInt s = min (hexPrefix 0 s) (2 ^ 64 - 1) % 2 ^ 32 := by
  have hSpaces : s.dropWhile isSpace = s :=
    dropWhile_eq_self fun c hc => not_space_of_hex (h c (mem_of_mem_head? hc))
  unfold strHexToUInt
  rw [hSpaces, takeSign_of_hex h]
  dsimp only
  rw [skipHexPrefix_of_hex h]
  rfl

theorem strHexToUInt_uintToHexStr {a : Nat} (h : a < 2 ^ 32) :
    strHexToUInt (uintToHexStr a) = a := by
  obtain ⟨-, -, hValue⟩ := hexDigits_spec 8 (n := a % 2 ^ 32) (by decide)
    (Nat.mod_lt _ (by decide))
  rw [(hex_uintToHexStr a).strHexToUInt_eq, uintToHexStr, hValue]
  omega

theorem uintToHexStr_injective {a b : Nat} (ha : a < 2 ^ 32) (hb : b < 2 ^ 32)
    (h : uintToHexStr a = uintToHexStr b) : a = b := by
  rw [← strHexToUInt_uintToHexStr ha, h, strHexToUInt_uintToHexStr hb]

end StringTk

namespace MapTk

open StringTk

def STORAGETK_FILE_COMMENT_CHAR : Char := '#'

variable (map : StringMap)

/-- `stringMapRedefine` with the parts of a line. -/
def addLineToStringMap (line : Text) : StringMap :=
  match line.dropWhile (· ≠ '=') with
  | [] => map.put (trim line) []
  | _ :: value => map.put (trim (line.takeWhile (· ≠ '='))) (trim value)

/-- The body of the loop over the lines of a file. -/
def addTrimmedLine (line : Text) : StringMap :=
  match trim line with
  | [] => map
  | c :: rest =>
    if c = STORAGETK_FILE_COMMENT_CHAR then map else addLineToStringMap map (c :: rest)

def loadStringMap (file : Text) : StringMap :=
  (file.splitOn '\n').foldl addTrimmedLine OrderedSet.empty

/-- The line of an element. A comment or an empty key has no value. -/
def lineOf (p : Text × Text) : Text :=
  match p.1 with
  | [] => []
  | c :: _ => if c = STORAGETK_FILE_COMMENT_CHAR then p.1 else p.1 ++ '=' :: p.2

def saveStringMap : Text := map.elems.flatMap fun p => lineOf p ++ ['\n']

/-! ## Round trip -/

/-- A key whose line is read as it was written. -/
structure PlainKey (key : Text) : Prop extends Untrimmed key where
  nonempty : key ≠ []
  no_comment : key.head? ≠ some STORAGETK_FILE_COMMENT_CHAR
  no_division : '=' ∉ key
  no_break : '\n' ∉ key

structure PlainValue (value : Text) : Prop extends Untrimmed value where
  no_break : '\n' ∉ value

variable {key value : Text}

theorem lineOf_plain (hKey : PlainKey key) : lineOf (key, value) = key ++ '=' :: value := by
  obtain ⟨c, rest, rfl⟩ := exists_cons_of_ne_nil hKey.nonempty
  have hFirst : c ≠ STORAGETK_FILE_COMMENT_CHAR := fun h => hKey.no_comment (congrArg some h)
  unfold lineOf
  dsimp only
  rw [if_neg hFirst]

theorem untrimmed_line (hKey : PlainKey key) (hValue : PlainValue value) :
    Untrimmed (key ++ '=' :: value) where
  head := by
    intro c hc
    rw [head?_append_of_ne_nil _ hKey.nonempty] at hc
    exact hKey.head c hc
  last := by
    intro c hc
    rw [getLast?_append, getLast?_cons] at hc
    cases hLast : value.getLast? with
    | none =>
      rw [hLast] at hc
      cases hc
      rfl
    | some d =>
      rw [hLast] at hc
      cases hc
      exact hValue.last d hLast

theorem addTrimmedLine_plain (hKey : PlainKey key)
    (hValue : PlainValue value) : addTrimmedLine map (lineOf (key, value)) = map.put key value := by
  have hBefore : ∀ c ∈ key, decide (c ≠ '=') = true := by
    intro c hc
    exact decide_eq_true fun h => hKey.no_division (h ▸ hc)
  obtain ⟨c, rest, hCons⟩ := exists_cons_of_ne_nil hKey.nonempty
  have hFirst : c ≠ STORAGETK_FILE_COMMENT_CHAR := by
    intro h
    apply hKey.no_comment
    rw [hCons, head?_cons, h]
  rw [lineOf_plain hKey]
  unfold addTrimmedLine
  rw [(untrimmed_line hKey hValue).trim_eq]
  have hSplit : addLineToStringMap map (key ++ '=' :: value) = map.put key value := by
    unfold addLineToStringMap
    rw [dropWhile_append_of_pos hBefore, takeWhile_append_of_pos hBefore]
    rw [dropWhile_cons_of_neg (by simp), takeWhile_cons_of_neg (by simp), append_nil]
    dsimp only
    rw [hKey.trim_eq, hValue.trim_eq]
  rw [hCons] at hSplit ⊢
  rw [cons_append] at hSplit ⊢
  dsimp only
  rw [if_neg hFirst, hSplit]

theorem splitOn_saveStringMap {ps : List (Text × Text)}
    (h : ∀ p ∈ ps, PlainKey p.1 ∧ PlainValue p.2) :
    (ps.flatMap fun p => lineOf p ++ ['\n']).splitOn '\n' = ps.map lineOf ++ [[]] := by
  induction ps with
  | nil => rfl
  | cons p ps ih =>
    obtain ⟨hKey, hValue⟩ := h p mem_cons_self
    have hLine : ∀ c ∈ lineOf p, (c == '\n') = false := by
      intro c hc
      rw [show p = (p.1, p.2) from rfl, lineOf_plain hKey] at hc
      apply beq_false_of_ne
      rintro rfl
      rcases mem_append.mp hc with hIn | hIn
      · exact hKey.no_break hIn
      · rcases mem_cons.mp hIn with hEq | hIn
        · exact absurd hEq (by decide)
        · exact hValue.no_break hIn
    rw [flatMap_cons, append_assoc, singleton_append, splitOn_eq_splitOnP,
      splitOnP_append_cons_of_forall_mem hLine _ (by simp), ← splitOn_eq_splitOnP,
      ih fun q hq => h q (mem_cons_of_mem _ hq)]
    rfl

theorem loadStringMap_saveStringMap {map : StringMap}
    (h : ∀ p ∈ map, PlainKey p.1 ∧ PlainValue p.2) : loadStringMap (saveStringMap map) = map := by
  have hLines : ∀ (ps : List (Text × Text)), (∀ p ∈ ps, PlainKey p.1 ∧ PlainValue p.2) →
      ∀ m : StringMap, (ps.map lineOf).foldl addTrimmedLine m =
        ps.foldl (fun m p => OrderedMap.put m p.1 p.2) m := by
    intro ps hps
    induction ps with
    | nil => exact fun m => rfl
    | cons p ps ih =>
      intro m
      obtain ⟨hKey, hValue⟩ := hps p mem_cons_self
      rw [map_cons, foldl_cons, foldl_cons, ih fun q hq => hps q (mem_cons_of_mem _ hq)]
      rw [show p = (p.1, p.2) from rfl, addTrimmedLine_plain m hKey hValue]
  unfold loadStringMap saveStringMap
  rw [splitOn_saveStringMap h, foldl_append, hLines _ h]
  refine OrderedMap.ext_find fun k => ?_
  have hFind := OrderedMap.find_foldl_put id map k
  rwa [show (map.elems.map fun p => (p.1, id p.2)) = map.elems from map_id _,
    Option.map_id] at hFind

end MapTk

end Fhgfs
