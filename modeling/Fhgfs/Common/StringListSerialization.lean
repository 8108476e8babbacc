import Fhgfs.Common.Serialization
import Fhgfs.Common.ByteString
import Fhgfs.Lib.Decoder

/-!
# Strings and lists of strings

A string is decoded to a pointer into the buffer, and copied from there. A list of strings has its
length and the number of its elements in front, and the elements as zero-terminated strings. The
same encoding is used for lists, vectors and sets. The length of an element is computed as an
`int` when it is written.
-/

namespace Fhgfs.Serialization

open Wire

/-! ## Strings in the buffer -/

structure StrSpan where
  strLen : Nat
  strStart : List UInt8
  outLen : Nat

/-- The string at a pointer. The terminating zero is looked for when the length was checked. -/
def deserializeStrSpan (serialLen : Nat → Nat) (c : Wire.Cursor) : Except ReadError StrSpan :=
  if c.bufLen < serialLen 0 then .error .rejected
  else
    match readLe 4 c with
    | .error e => .error e
    | .ok (strLen, strStart) =>
      if c.bufLen < serialLen strLen then .error .rejected
      else
        match strStart.mem[strLen]? with
        | none => .error .outOfBounds
        | some terminator =>
          if terminator ≠ 0 then .error .rejected
          else .ok ⟨strLen, strStart.mem, serialLen strLen⟩

def StrSpan.assign (span : StrSpan) : Except ReadError ByteString :=
  if span.strStart.length < span.strLen then .error .outOfBounds
  else .ok (span.strStart.take span.strLen)

def strDecoder (serialLen : Nat → Nat) : Decoder StrSpan ByteString where
  preprocess := deserializeStrSpan serialLen
  outLen := StrSpan.outLen
  deserialize := StrSpan.assign

def readSpan (serialLen : Nat → Nat) : Reader ByteString := fun c => do
  let span ← deserializeStrSpan serialLen c
  let str ← span.assign
  pure (str, c.advance span.outLen)

theorem readSpan_eq (serialLen : Nat → Nat) (c : Wire.Cursor) :
    readSpan serialLen c =
      if c.bufLen < serialLen 0 then .error .rejected
      else
        match readLe 4 c with
        | .error e => .error e
        | .ok (strLen, strStart) =>
          if c.bufLen < serialLen strLen then .error .rejected
          else
            match strStart.mem[strLen]? with
            | none => .error .outOfBounds
            | some terminator =>
              if terminator ≠ 0 then .error .rejected
              else .ok (strStart.mem.take strLen, c.advance (serialLen strLen)) := by
  unfold readSpan deserializeStrSpan
  by_cases hMin : c.bufLen < serialLen 0
  · rw [if_pos hMin, if_pos hMin]
    rfl
  rw [if_neg hMin, if_neg hMin]
  cases hRead : readLe 4 c with
  | error e => rfl
  | ok p =>
    obtain ⟨strLen, strStart⟩ := p
    dsimp only
    by_cases hLen : c.bufLen < serialLen strLen
    · rw [if_pos hLen, if_pos hLen]
      rfl
    rw [if_neg hLen, if_neg hLen]
    cases hTerminator : strStart.mem[strLen]? with
    | none => rfl
    | some terminator =>
      dsimp only
      by_cases hZero : terminator ≠ 0
      · rw [if_pos hZero, if_pos hZero]
        rfl
      have hInside := (List.getElem?_eq_some_iff.mp hTerminator).1
      rw [if_neg hZero, if_neg hZero]
      simp only [bind, Except.bind, StrSpan.assign, if_neg (not_lt.mpr hInside.le)]
      rfl

theorem deserializeStrAlign4_eq : deserializeStrAlign4 = readSpan serialLenStrAlign4 := by
  funext c
  rw [readSpan_eq]
  rfl

section Span

variable {serialLen : Nat → Nat} {buf : List UInt8}

theorem deserializeStrSpan_of_short (h : buf.length < serialLen 0) :
    deserializeStrSpan serialLen (.of buf) = .error .rejected := by
  rw [deserializeStrSpan, Cursor.of_bufLen, if_pos h]

theorem deserializeStrSpan_of (hMin : 4 ≤ serialLen 0) (h : serialLen 0 ≤ buf.length) :
    deserializeStrSpan serialLen (.of buf) =
      if buf.length < serialLen (leAt 4 buf 0) then .error .rejected
      else
        match buf[4 + leAt 4 buf 0]? with
        | none => .error .outOfBounds
        | some terminator =>
          if terminator ≠ 0 then .error .rejected
          else .ok ⟨leAt 4 buf 0, buf.drop 4, serialLen (leAt 4 buf 0)⟩ := by
  unfold deserializeStrSpan
  rw [Cursor.of_bufLen, if_neg (not_lt.mpr h), readLe_of (hMin.trans h)]
  simp only [Cursor.of_mem, List.getElem?_drop]

end Span

/-! ## Lists of strings -/

/-- The string at a pointer, as `strlen` finds its end. -/
def readCStr (mem : List UInt8) : Except ReadError ByteString :=
  if 0 ∈ mem then .ok (mem.takeWhile (· ≠ 0)) else .error .outOfBounds

/-- The first pass. `minLen` is the smallest length that is accepted. -/
def deserializeStringsPreprocess (minLen : Nat) (c : Wire.Cursor) : Except ReadError VectorInfo :=
  match readLe 4 c with
  | .error e => .error e
  | .ok (outLen, c') =>
    match readLe 4 c' with
    | .error e => .error e
    | .ok (outElemNum, listStart) =>
      if outLen > c.bufLen ∨ outLen < minLen then .error .rejected
      else if outElemNum = 0 then .ok ⟨outElemNum, listStart.mem, outLen⟩
      -- the byte before the end of the list, which is a byte before the buffer for an `outLen` of 0
      else if outLen = 0 then .error .outOfBounds
      else
        match c.mem[outLen - 1]? with
        | none => .error .outOfBounds
        | some last =>
          if last ≠ 0 then .error .rejected else .ok ⟨outElemNum, listStart.mem, outLen⟩

/-- The elements from a position on. The position of the last byte is `elemsBufLen - 1`. -/
def readStrings (elemsBufLen : Nat) : Nat → Nat → List UInt8 → Except ReadError (List ByteString)
  | 0, currentPos, _ => if currentPos < elemsBufLen then .error .rejected else .ok []
  | elemNum + 1, currentPos, mem =>
    if currentPos < elemsBufLen then do
      let currentElem ← readCStr mem
      let lastElemLen := (currentElem.length + 1) % 2 ^ 32
      let elems ← readStrings elemsBufLen elemNum (currentPos + lastElemLen) (mem.drop lastElemLen)
      pure (currentElem :: elems)
    else .error .rejected

/-- The second pass. The length of the elements is computed as `unsigned`. -/
def deserializeStrings (info : VectorInfo) : Except ReadError (List ByteString) :=
  readStrings ((info.vecBufLen + 2 ^ 32 - 8) % 2 ^ 32) info.elemNum 0 info.vecStart

def deserializeStringListPreprocess := deserializeStringsPreprocess 8

def deserializeStringList := deserializeStrings

def deserializeStringVecPreprocess := deserializeStringsPreprocess 0

def deserializeStringVec := deserializeStrings

def deserializeStringSetPreprocess := deserializeStringsPreprocess 8

def deserializeStringSet (info : VectorInfo) : Except ReadError (Finset ByteString) :=
  List.toFinset <$> deserializeStrings info

def stringListDecoder : Decoder VectorInfo (List ByteString) where
  preprocess := deserializeStringListPreprocess
  outLen := VectorInfo.vecBufLen
  deserialize := deserializeStringList

def stringVecDecoder : Decoder VectorInfo (List ByteString) where
  preprocess := deserializeStringVecPreprocess
  outLen := VectorInfo.vecBufLen
  deserialize := deserializeStringVec

def stringSetDecoder : Decoder VectorInfo (Finset ByteString) where
  preprocess := deserializeStringSetPreprocess
  outLen := VectorInfo.vecBufLen
  deserialize := deserializeStringSet

/-! ## Lists of strings are written -/

def serialLenStringList (list : List ByteString) : Nat :=
  list.foldl (fun requiredLen str => (requiredLen + (str.length + 1)) % 2 ^ 32) 8

def serialElemLen (str : ByteString) : Int := Int.bmod (str.length + 1) (2 ^ 32)

/-- `memcpy` of an element with its terminating zero. A length below zero is a `size_t` that no
buffer has. -/
def copyElem (str : ByteString) : Option Encoding :=
  if serialElemLen str < 0 then none
  else some (((str ++ [0]).take (serialElemLen str).toNat).map some)

/-- What is written, if `memcpy` is always called with a length that a buffer can have. -/
def serializeStringList (list : List ByteString) : Option Written :=
  let requiredLen := serialLenStringList list
  let listSize := list.length % 2 ^ 32
  (list.take listSize).mapM copyElem |>.map fun elems =>
    ⟨(leBytes 4 requiredLen).map some ++ ((leBytes 4 listSize).map some ++ elems.flatten),
      requiredLen⟩

end Fhgfs.Serialization
