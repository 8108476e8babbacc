import Fhgfs.Common.DecodingBounds

/-!
# Serialization in the client

The client has its own functions for the encodings of the servers, written in C. They compute the
same lengths with the same types, so that they are the definitions of the servers with the values
that they are called with. Strings are zero-terminated and are copied one by one to a list.
-/

namespace Fhgfs.Client.Serialization

open Wire Fhgfs.Serialization

/-! ## Strings -/

def serialLenStr (strLen : Nat) : Nat := Fhgfs.Serialization.serialLenStr strLen

def serialLenStrAlign4 (strLen : Nat) : Nat := Fhgfs.Serialization.serialLenStrAlign4 strLen

/-- The string is left at its pointer, from where the caller copies it. -/
def strDecoder : Decoder StrSpan ByteString := Fhgfs.Serialization.strDecoder serialLenStr

def strAlign4Decoder : Decoder StrSpan ByteString :=
  Fhgfs.Serialization.strDecoder serialLenStrAlign4

/-! ## Lists of strings -/

def deserializeStrCpyListPreprocess : Wire.Cursor → Except ReadError VectorInfo :=
  deserializeStringsPreprocess 8

def deserializeStrCpyList : VectorInfo → Except ReadError (List ByteString) := deserializeStrings

def strCpyListDecoder : Decoder VectorInfo (List ByteString) where
  preprocess := deserializeStrCpyListPreprocess
  outLen := VectorInfo.vecBufLen
  deserialize := deserializeStrCpyList

def serialLenStrCpyList (list : List ByteString) : Nat := serialLenStringList list

/-- The length of an element is a `size_t`, and the elements end at their first zero byte. -/
def serializeStrCpyList (list : List ByteString) : Written :=
  let requiredLen := serialLenStrCpyList list
  ⟨(leBytes 4 requiredLen).map some ++ ((leBytes 4 (list.length % 2 ^ 32)).map some ++
    list.flatMap fun elem => (elem ++ [0]).map some), requiredLen⟩

/-! ## Lists of numbers -/

def intCpyListDecoder : Decoder VectorInfo (List Int32) where
  preprocess := deserializeVectorPreprocess 4
  outLen := VectorInfo.vecBufLen
  deserialize := deserializeElems deserializeInt

def uint16ListDecoder : Decoder VectorInfo (List UInt16) where
  preprocess := deserializeVectorPreprocess 2
  outLen := VectorInfo.vecBufLen
  deserialize := deserializeElems deserializeUInt16

/-! ## Lists of network interfaces -/

def nicListDecoder : Decoder VectorInfo (List NicAddress) where
  preprocess := deserializeNicListPreprocess
  outLen := VectorInfo.vecBufLen
  deserialize := deserializeNicList

/-! ## Lists of nodes -/

def serializeNodeList (nodeList : List Node) : Written :=
  Fhgfs.Serialization.serializeNodeList nodeList

def serialLenNodeList (nodeList : List Node) : Nat :=
  Fhgfs.Serialization.serialLenNodeList nodeList

def deserializeNodeListPreprocess : Wire.Cursor → Except ReadError VectorInfo :=
  Fhgfs.Serialization.deserializeNodeListPreprocess

def deserializeNodeList (malloc : Nat → UInt64) : VectorInfo → Except ReadError (List Node) :=
  Fhgfs.Serialization.deserializeNodeList malloc

end Fhgfs.Client.Serialization

/-!
## Decoding of messages in the client

Which buffers the decoders of the client stay inside of. The decoders of lists of strings and
numbers always do. A string or a list of network interfaces whose encoding has 2^32 bytes or more
announces a length that is computed too small.
-/

namespace Fhgfs.Client.Serialization

open Wire Fhgfs.Serialization

/-- No decoder reads outside of the buffer, and an accepted length is at most the one of the
buffer. -/
structure DecodersContained (buf : List UInt8) : Prop where
  str : strDecoder.Contained 0 buf
  strAlign4 : strAlign4Decoder.Contained 0 buf
  nicList : nicListDecoder.Contained 0 buf
  strCpyList : strCpyListDecoder.Contained 0 buf
  intCpyList : intCpyListDecoder.Contained 0 buf
  uint16List : uint16ListDecoder.Contained 0 buf

/-- The announced lengths for which each decoder stays inside of the buffer. -/
structure ContainedWhen (buf : List UInt8) : Prop where
  str : strDecoder.Contained 0 buf ↔ buf.length < 5 ∨ leAt 4 buf 0 < 2 ^ 32 - 5
  strAlign4 : strAlign4Decoder.Contained 0 buf ↔
    buf.length < 8 ∨ leAt 4 buf 0 < 2 ^ 32 - 8 ∨ 4 + leAt 4 buf 0 < buf.length
  nicList : nicListDecoder.Contained 0 buf ↔
    buf.length < 4 ∨ 4 + leAt 4 buf 0 * 24 < 2 ^ 32 ∨ buf.length < serialLenNicList (leAt 4 buf 0)
  strCpyList : strCpyListDecoder.Contained 0 buf
  intCpyList : intCpyListDecoder.Contained 0 buf
  uint16List : uint16ListDecoder.Contained 0 buf

theorem strAlign4_contained_iff {buf : List UInt8} (hBuf : buf.length < 2 ^ 32) :
    strAlign4Decoder.Contained 0 buf ↔
      buf.length < 8 ∨ leAt 4 buf 0 < 2 ^ 32 - 8 ∨ 4 + leAt 4 buf 0 < buf.length := by
  have hMin : serialLenStrAlign4 0 = 8 := rfl
  by_cases hShort : buf.length < 8
  · exact iff_of_true (str_contained_of_short (hMin ▸ hShort)) (.inl hShort)
  rw [strAlign4Decoder, str_contained_iff (by omega) (by omega)]
  have hLen := leAt_four_lt buf 0
  generalize leAt 4 buf 0 = strLen at hLen
  have hTerminator : (∃ terminator, buf[4 + strLen]? = some terminator ∧
      (terminator = 0 → 0 ≤ serialLenStrAlign4 strLen)) ↔ 4 + strLen < buf.length := by
    constructor
    · rintro ⟨terminator, hSome, -⟩
      exact (List.getElem?_eq_some_iff.mp hSome).1
    · intro hInside
      exact ⟨_, List.getElem?_eq_getElem hInside, fun _ => Nat.zero_le _⟩
  rw [hTerminator]
  by_cases hFits : strLen < 2 ^ 32 - 8
  · have hAligned : 4 + strLen + 1 ≤ serialLenStrAlign4 strLen ∧ _ :=
      serialLenStrAlign4_eq (by omega)
    omega
  · have hWrapped : serialLenStrAlign4 strLen = _ := serialLenStrAlign4_of_wrapped (by omega) hLen
    split at hWrapped <;> omega

/-- The same for the decoders of the client. -/
theorem clientDecoders_containedWhen (buf : List UInt8) (hBuf : buf.length < 2 ^ 32) :
    ContainedWhen buf where
  str := deserializeStr_contained_iff (Nat.zero_le 4) hBuf
  strAlign4 := strAlign4_contained_iff hBuf
  nicList := nicList_contained_iff (Nat.zero_le 4) hBuf
  strCpyList := (strings_contained rfl rfl (fun _ h => h) hBuf).of_le (Nat.zero_le 8)
  intCpyList := (vector_contained bounded_int hBuf).of_le (Nat.zero_le 8)
  uint16List := (vector_contained bounded_uint16 hBuf).of_le (Nat.zero_le 8)

/-- A string that announces 2^32 - 1 bytes, at the end of a buffer of 8 bytes. -/
def wrappedStr : List UInt8 := [0xff, 0xff, 0xff, 0xff, 0, 0, 0, 0]

/-- The second string is accepted. -/
theorem clientDecoders_containedWhen_twoStrs :
    ContainedWhen wrappedStr ∧ ContainedWhen [1, 0, 0, 0, 65, 0, 0, 0] :=
  ⟨clientDecoders_containedWhen _ (by decide), clientDecoders_containedWhen _ (by decide)⟩

/-- The terminator of the string is looked for 2^32 + 3 bytes behind the begin of the buffer. -/
theorem not_clientDecodersContained :
    ¬ ∀ buf : List UInt8, buf.length < 2 ^ 32 → DecodersContained buf := by
  intro h
  have hStr := (h wrappedStr (by decide)).str
  have hFits := (deserializeStr_contained_iff (Nat.zero_le 4) (by decide)).mp hStr
  revert hFits
  decide

end Fhgfs.Client.Serialization
