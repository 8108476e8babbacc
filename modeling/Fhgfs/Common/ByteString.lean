import Fhgfs.Common.MapTk

/-!
# Strings of bytes

A `std::string` that is serialized is a list of bytes. Keys of a `std::map` are compared byte by
byte, and numbers are written as hexadecimal digits.
-/

namespace Fhgfs

open StringTk List

instance instLinearOrderByte : LinearOrder UInt8 where
  le_refl := fun _ => @le_refl ℕ _ _
  le_trans := fun _ _ _ => @le_trans ℕ _ _ _ _
  le_antisymm := fun _ _ h h' => UInt8.le_antisymm h h'
  lt_iff_le_not_ge := fun _ _ => @lt_iff_le_not_ge ℕ _ _ _
  le_total := fun _ _ => @le_total ℕ _ _ _
  min := fun a b => if a ≤ b then a else b
  max := fun a b => if a ≤ b then b else a
  toDecidableLE := inferInstance
  toDecidableEq := inferInstance
  toDecidableLT := inferInstance

abbrev ByteString := List UInt8

namespace ByteString

def ofText (s : Text) : ByteString := s.map Char.toUInt8

def toText (s : ByteString) : Text := s.map fun b => Char.ofNat b.toNat

def uintToHexStr (a : Nat) : ByteString := ofText (StringTk.uintToHexStr a)

def strHexToUInt (s : ByteString) : Nat := StringTk.strHexToUInt (toText s)

/-- The pieces between the delimiters, without the empty ones. -/
def explode (s : ByteString) (delimiter : UInt8) : List ByteString :=
  (s.splitOn delimiter).filter fun piece => !piece.isEmpty

/-! ## Hexadecimal numbers and pieces -/

theorem toUInt8_of_hex {c : Char} (h : (hexVal c).isSome) :
    c.toNat < 256 ∧ 48 ≤ c.toNat ∧ c.toNat ≠ 0x40 := by
  unfold hexVal at h
  have hBound : ∀ {lo hi : Char}, lo ≤ c ∧ c ≤ hi → lo.toNat ≤ c.toNat ∧ c.toNat ≤ hi.toNat :=
    fun hRange => ⟨hRange.1, hRange.2⟩
  split_ifs at h with hDigit hUpper hLower
  · have hRange := hBound hDigit
    simp only [Char.reduceToNat] at hRange
    omega
  · have hRange := hBound hUpper
    simp only [Char.reduceToNat] at hRange
    omega
  · have hRange := hBound hLower
    simp only [Char.reduceToNat] at hRange
    omega
  · exact absurd h (by simp)

theorem toText_ofText {s : Text} (h : ∀ c ∈ s, c.toNat < 256) : toText (ofText s) = s := by
  unfold toText ofText
  rw [map_map]
  refine (map_congr_left fun c hc => ?_).trans (map_id s)
  have hByte : (Char.toUInt8 c).toNat = c.toNat := by
    show c.toNat % 256 = c.toNat
    exact Nat.mod_eq_of_lt (h c hc)
  rw [Function.comp_apply, hByte, Char.ofNat_toNat]
  rfl

theorem uintToHexStr_ne_nil (a : Nat) : uintToHexStr a ≠ [] := by
  have h := (StringTk.hexDigits_spec 8 (n := a % 2 ^ 32) (by decide) (Nat.mod_lt _ (by decide))).2.1
  simpa [uintToHexStr, ofText, StringTk.uintToHexStr] using h

/-- The digits have none of the bytes before the first one, and not the delimiter of keys. -/
theorem mem_uintToHexStr {a : Nat} {b : UInt8} (h : b ∈ uintToHexStr a) :
    48 ≤ b.toNat ∧ b ≠ 0x40 := by
  obtain ⟨c, hc, rfl⟩ := mem_map.mp h
  obtain ⟨hLt, hMin, hAt⟩ := toUInt8_of_hex (hex_uintToHexStr a c hc)
  have hByte : (Char.toUInt8 c).toNat = c.toNat := by
    show c.toNat % 256 = c.toNat
    exact Nat.mod_eq_of_lt hLt
  constructor
  · rw [hByte]
    exact hMin
  · rintro hSame
    rw [hSame] at hByte
    exact hAt hByte.symm

theorem strHexToUInt_uintToHexStr {a : Nat} (h : a < 2 ^ 32) :
    strHexToUInt (uintToHexStr a) = a := by
  unfold strHexToUInt uintToHexStr
  rw [toText_ofText fun c hc => (toUInt8_of_hex (StringTk.hex_uintToHexStr a c hc)).1,
    StringTk.strHexToUInt_uintToHexStr h]

theorem length_hexDigits_le (digits n : Nat) : (hexDigits digits n).length ≤ digits := by
  induction digits generalizing n with
  | zero => exact le_refl 0
  | succ digits ih =>
    unfold hexDigits
    split
    · simp
    · have hMore := ih (n / 16)
      simp only [length_append, length_singleton]
      omega

theorem length_uintToHexStr_le (a : Nat) : (uintToHexStr a).length ≤ 8 := by
  unfold uintToHexStr ofText
  rw [length_map]
  exact length_hexDigits_le 8 _

theorem explode_append {s last : ByteString} {delimiter : UInt8} (hLast : last ≠ [])
    (hPiece : delimiter ∉ last) :
    explode (s ++ delimiter :: last) delimiter = explode s delimiter ++ [last] := by
  unfold explode
  rw [splitOn_append_cons_self, splitOn_eq_singleton hPiece, filter_append]
  congr 1
  simp [hLast]

end ByteString

end Fhgfs
