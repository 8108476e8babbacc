import Fhgfs.Common.Serialization
import Fhgfs.Lib.Decoder

/-!
# Maps of quota data

The quota data of a target are encoded with their number in front, and those of all targets with
the length of the encoding and the number of targets. The first pass over the targets compares the
length with the one of the buffer. The second pass takes it for the length of what is behind the
two fields.

A map is a list of its keys and values. A value that is inserted for a key that exists is dropped.
-/

namespace Fhgfs.Serialization

open Wire

structure QuotaData where
  size : UInt64
  inodes : UInt64
  id : UInt32
  type : Int32
  valid : Bool
deriving DecidableEq

abbrev QuotaDataMap := List (UInt32 × QuotaData)

abbrev QuotaDataMapForTarget := List (UInt16 × QuotaDataMap)

def mapInsert {κ υ : Type} [DecidableEq κ] (m : List (κ × υ)) (key : κ) (value : υ) :
    List (κ × υ) :=
  if key ∈ m.map Prod.fst then m else m ++ [(key, value)]

def deserializeQuotaData : Reader QuotaData := do
  let size ← peekLe 8
  let inodes ← peekLe 8
  let id ← peekLe 4
  let type ← peekLe 4
  let valid ← peekLe 1
  pure ⟨UInt64.ofNat size, UInt64.ofNat inodes, UInt32.ofNat id, (UInt32.ofNat type).toInt32,
    valid ≠ 0⟩

/-- The size of the elements is computed as `unsigned`. -/
def deserializeQuotaDataMapPreprocess (c : Wire.Cursor) : Except ReadError VectorInfo :=
  match readLe 4 c with
  | .error e => .error e
  | .ok (elemNum, mapStart) =>
    let bufPos := 4 + elemNum * 25 % 2 ^ 32
    if bufPos > c.bufLen then .error .rejected
    else .ok ⟨elemNum, mapStart.mem, bufPos % 2 ^ 32⟩

def deserializeQuotaDataMap (info : VectorInfo) : Except ReadError QuotaDataMap :=
  (fun p => p.1.foldl (fun m quotaData => mapInsert m quotaData.id quotaData) []) <$>
    readMany deserializeQuotaData info.elemNum ⟨info.vecStart, 2 ^ 64 - 1⟩

def deserializeTargetQuota : Reader (UInt16 × QuotaDataMap) := do
  let targetNumID ← deserializeUInt16
  let c ← get
  let info ← deserializeQuotaDataMapPreprocess c
  let quotaDataMap ← deserializeQuotaDataMap info
  skip info.vecBufLen
  pure (targetNumID, quotaDataMap)

def deserializeQuotaDataMapForTargetPreprocess (c : Wire.Cursor) : Except ReadError VectorInfo :=
  match readLe 4 c with
  | .error e => .error e
  | .ok (outMapBufLen, c') =>
    match readLe 4 c' with
    | .error e => .error e
    | .ok (outElemNum, mapStart) =>
      if outMapBufLen > c.bufLen then .error .rejected
      else .ok ⟨outElemNum, mapStart.mem, outMapBufLen⟩

def deserializeQuotaDataMapForTarget (mapBufLen elemNum : Nat) (mapStart : List UInt8) :
    Except ReadError QuotaDataMapForTarget :=
  (fun p => p.1.foldl (fun m target => mapInsert m target.1 target.2) []) <$>
    readMany deserializeTargetQuota elemNum ⟨mapStart, mapBufLen⟩

/-- The length that the second pass is told: the one that the first pass reports, or the one of
the buffer, as in `loadQuotaDataMapForTargetFromFile`. Both start with the two fields in front of
the map. -/
inductive MapBufLen
  | ofOutLen
  | ofBuffer (bufLen : Nat)

def MapBufLen.get (info : VectorInfo) : MapBufLen → Nat
  | ofOutLen => info.vecBufLen
  | ofBuffer bufLen => bufLen

def quotaDataMapForTargetDecoder (mapBufLen : MapBufLen) :
    Decoder VectorInfo QuotaDataMapForTarget where
  preprocess := deserializeQuotaDataMapForTargetPreprocess
  outLen := VectorInfo.vecBufLen
  deserialize := fun info =>
    deserializeQuotaDataMapForTarget (mapBufLen.get info) info.elemNum info.vecStart

end Fhgfs.Serialization
