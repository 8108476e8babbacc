import Fhgfs.Common.StringListSerialization

/-!
# Lists of nodes

A node is encoded with its feature flags, its ID, its list of network interfaces and some numbers,
and padding to a multiple of 8 bytes. The first pass walks over all nodes to find out the length
of the list. The second pass does not check lengths any more.

The feature flags of a node are blocks of 64 bits, the first one in the store itself and the others
in memory that is allocated when the number of blocks changes. `malloc` gives what is in this
memory, which is not initialized.

The number of bits is an `unsigned`, a multiple of the size of a block. It is 0 for the largest
number of blocks.
-/

namespace Fhgfs

open Wire Serialization

structure BitStore where
  numBits : Nat
  lowerBits : UInt64
  higherBits : List UInt64
deriving DecidableEq

namespace BitStore

def calculateBitBlockCount (size : Nat) : Nat :=
  if size ≤ 64 then 1
  else if size % 64 ≠ 0 then size / 64 + 1
  else size / 64

def init : BitStore := ⟨64, 0, []⟩

variable (malloc : Nat → UInt64)

def setSize (newSize : Nat) (store : BitStore) : BitStore :=
  let oldBitBlockCount := calculateBitBlockCount store.numBits
  let newBitBlockCount := calculateBitBlockCount newSize
  if newBitBlockCount ≠ oldBitBlockCount then
    { store with
      higherBits := (List.range (newBitBlockCount - 1)).map malloc
      numBits := newBitBlockCount * 64 % 2 ^ 32 }
  else store

variable (store : BitStore)

def clearBits : BitStore :=
  { store with
    lowerBits := 0
    higherBits := store.higherBits.mapIdx fun index bits =>
      if index < calculateBitBlockCount store.numBits - 1 then 0 else bits }

/-- `BitStore(int size)`. The first block is not initialized before it is cleared. -/
def ofSize (size : Nat) : BitStore := (init.setSize malloc size).clearBits

def setBit (bitIndex : Nat) (isSet : Bool) (store : BitStore) : BitStore :=
  let index := bitIndex / 64
  let mask : UInt64 := 1 <<< UInt64.ofNat (bitIndex % 64)
  let change (bits : UInt64) := if isSet then bits ||| mask else bits &&& ~~~mask
  if store.numBits ≤ bitIndex then store
  else if index = 0 then { store with lowerBits := change store.lowerBits }
  else { store with higherBits := store.higherBits.modify (index - 1) change }

def copy (store other : BitStore) : BitStore :=
  let store := { store.setSize malloc other.numBits with lowerBits := other.lowerBits }
  if store.higherBits = [] then store
  else
    let blocks := calculateBitBlockCount store.numBits - 1
    { store with higherBits := other.higherBits.take blocks ++ store.higherBits.drop blocks }

def serialLen : Nat := 8 + calculateBitBlockCount store.numBits * 8

/-- The 4 bytes behind the number of bits are not written. -/
def serialize : Encoding :=
  (leBytes 4 store.numBits).map some ++ (List.replicate 4 none ++
    (serializeUInt64 store.lowerBits ++
    (store.higherBits.take (calculateBitBlockCount store.numBits - 1)).flatMap serializeUInt64))

def deserializePreprocess : Reader Unit := fun c =>
  match readLe 4 c with
  | .error e => .error e
  | .ok (tmpSize, _) =>
    let bufPos := 8 + 8 * calculateBitBlockCount tmpSize
    if bufPos > c.bufLen then .error .rejected else .ok ((), c.advance bufPos)

/-- The size was checked before, so that the lengths are not checked again. -/
def deserialize (store : BitStore) : Reader BitStore := do
  let bitCount ← peekLe 4
  skip 4
  let store := store.setSize malloc bitCount
  let lowerBits ← peekLe 8
  let blocks ← readMany (peekLe 8) (calculateBitBlockCount store.numBits - 1)
  pure { store with
    lowerBits := UInt64.ofNat lowerBits
    higherBits := blocks.map UInt64.ofNat ++ store.higherBits.drop blocks.length }

end BitStore

end Fhgfs

namespace Fhgfs.Serialization

open Wire

/-! ## Lists of network interfaces -/

/-- What is sent of an interface. The type is an enumeration that is sent as a `char`. -/
structure NicAddress where
  ipAddr : UInt32
  name : Vector UInt8 16
  nicType : UInt8
deriving DecidableEq

def serializeNic (nic : NicAddress) : Encoding :=
  serializeUInt nic.ipAddr ++ (nic.name.toList.map some ++
    (serializeUInt8 nic.nicType ++ List.replicate 3 none))

def serializeNicList (nicList : List NicAddress) : Encoding :=
  (leBytes 4 (nicList.length % 2 ^ 32)).map some ++
    (nicList.take (nicList.length % 2 ^ 32)).flatMap serializeNic

def serialLenNicList (elemNum : Nat) : Nat := (4 + elemNum * 24) % 2 ^ 32

def deserializeNicListPreprocess (c : Wire.Cursor) : Except ReadError VectorInfo :=
  match readLe 4 c with
  | .error e => .error e
  | .ok (elemNum, nicListStart) =>
    if c.bufLen < serialLenNicList elemNum then .error .rejected
    else .ok ⟨elemNum, nicListStart.mem, serialLenNicList elemNum⟩

def deserializeNic : Reader NicAddress := do
  let ipAddr ← peekLe 4
  let name ← peekBytes 16
  let nicType ← peekLe 1
  skip 3
  pure ⟨UInt32.ofNat ipAddr, (Vector.ofFn fun i => name.getD i 0).set 15 0, UInt8.ofNat nicType⟩

theorem ofFn_getD_toList (name : Vector UInt8 16) :
    (Vector.ofFn fun i : Fin 16 => name.toList.getD i 0) = name := by
  apply Vector.ext
  intro i hi
  simp

def deserializeNicList (info : VectorInfo) : Except ReadError (List NicAddress) :=
  Prod.fst <$> readMany deserializeNic info.elemNum ⟨info.vecStart, 2 ^ 64 - 1⟩

def nicListDecoder : Decoder VectorInfo (List NicAddress) where
  preprocess := deserializeNicListPreprocess
  outLen := VectorInfo.vecBufLen
  deserialize := deserializeNicList

/-! ## Nodes -/

/-- What is sent of a node. The type is an enumeration that is sent as a `char`. -/
structure Node where
  id : ByteString
  numID : UInt16
  nodeType : UInt8
  fhgfsVersion : UInt32
  nodeFeatureFlags : BitStore
  portUDP : UInt16
  portTCP : UInt16
  nicList : List NicAddress
deriving DecidableEq

/-- The padding is counted from the begin of the node. -/
def serializeNode (node : Node) : Written :=
  (Written.all [(Written.of node.nodeFeatureFlags.serialize).asUnsigned, writeStrAlign4 node.id,
    (Written.of (serializeNicList node.nicList)).asUnsigned,
    .of (serializeUInt node.fhgfsVersion), .of (serializeUInt16 node.numID),
    .of (serializeUInt16 node.portUDP), .of (serializeUInt16 node.portTCP),
    .of (serializeUInt8 node.nodeType)]).alignTo 8

/-- The 4 bytes behind the number of nodes are not written. -/
def serializeNodeList (nodeList : List Node) : Written :=
  let nodeListSize := nodeList.length % 2 ^ 32
  ((Written.of ((leBytes 4 nodeListSize).map some ++ List.replicate 4 none)).loop
    (nodeList.take nodeListSize) serializeNode).asUnsigned

/-- The position behind a node, as an `unsigned`. -/
def serialLenNode (bufPos : Nat) (node : Node) : Nat :=
  let nodeStartBufPos := bufPos
  let bufPos := (bufPos + node.nodeFeatureFlags.serialLen +
    serialLenStrAlign4 (node.id.length % 2 ^ 32) + serialLenNicList node.nicList.length +
    4 + 2 + 2 + 2 + 1) % 2 ^ 32
  let remainder := (bufPos + 2 ^ 32 - nodeStartBufPos) % 2 ^ 32 % 8
  if remainder ≠ 0 then (bufPos + (8 - remainder)) % 2 ^ 32 else bufPos

def serialLenNodeList (nodeList : List Node) : Nat :=
  (nodeList.take (nodeList.length % 2 ^ 32)).foldl serialLenNode 8

/-- Padding to a multiple of 8 bytes, counted from the begin of the node. -/
def alignNode (nodeStart : Wire.Cursor) : Reader Unit := fun c =>
  let remainder := nodeStart.moved c % 8
  if remainder ≠ 0 then .ok ((), c.advance (8 - remainder)) else .ok ((), c)

def skipNicList : Reader Unit := fun c =>
  match deserializeNicListPreprocess c with
  | .error e => .error e
  | .ok info => .ok ((), c.advance info.vecBufLen)

def checkNode : Reader Unit := do
  let nodeStart ← get
  BitStore.deserializePreprocess
  let _nodeID ← deserializeStrAlign4
  skipNicList
  let _fhgfsVersion ← readLe 4
  let _nodeNumID ← readLe 2
  let _portUDP ← readLe 2
  let _portTCP ← readLe 2
  let _nodeType ← readLe 1
  alignNode nodeStart

def checkNodes : Nat → Reader Unit
  | 0 => pure ()
  | elemNum + 1 => do
    checkNode
    checkNodes elemNum

def deserializeNodeListPreprocess (c : Wire.Cursor) : Except ReadError VectorInfo :=
  match readLe 4 c with
  | .error e => .error e
  | .ok (elemNum, padding) =>
    let nodeListStart := padding.advance 4
    match checkNodes elemNum nodeListStart with
    | .error e => .error e
    | .ok (_, behind) =>
      let bufPos := c.moved behind
      if c.bufLen < bufPos then .error .rejected
      else .ok ⟨elemNum, nodeListStart.mem, bufPos % 2 ^ 32⟩

/-- The told length is the largest one, and the result of the call is not looked at, so that only
the terminator is read. The pointer to the ID is used as a zero-terminated string later. -/
def peekStrAlign4 : Reader ByteString := fun c =>
  match peekLe 4 c with
  | .error e => .error e
  | .ok (strLen, strStart) =>
    match strStart.mem[strLen]? with
    | none => .error .outOfBounds
    | some _ =>
      match readCStr strStart.mem with
      | .error e => .error e
      | .ok nodeID => .ok (nodeID, c.advance (serialLenStrAlign4 strLen))

def peekNicList : Reader (List NicAddress) := fun c =>
  match peekLe 4 c with
  | .error e => .error e
  | .ok (elemNum, nicListStart) =>
    match readMany deserializeNic elemNum nicListStart with
    | .error e => .error e
    | .ok (nicList, _) => .ok (nicList, c.advance (serialLenNicList elemNum))

variable (malloc : Nat → UInt64)

def Node.construct (id : ByteString) (numID portUDP portTCP : UInt16)
    (nicList : List NicAddress) (nodeType : UInt8) (fhgfsVersion : UInt32)
    (nodeFeatureFlags : BitStore) : Node where
  id := id
  numID := numID
  nodeType := nodeType
  fhgfsVersion := fhgfsVersion
  nodeFeatureFlags := (BitStore.ofSize malloc 32).copy malloc nodeFeatureFlags
  portUDP := portUDP
  portTCP := portTCP
  nicList := nicList

def deserializeNode : Reader Node := do
  let nodeStart ← get
  let nodeFeatureFlags ← BitStore.init.deserialize malloc
  let nodeID ← peekStrAlign4
  let nicList ← peekNicList
  let fhgfsVersion ← peekLe 4
  let nodeNumID ← peekLe 2
  let portUDP ← peekLe 2
  let portTCP ← peekLe 2
  let nodeType ← peekLe 1
  alignNode nodeStart
  pure (Node.construct malloc nodeID (UInt16.ofNat nodeNumID) (UInt16.ofNat portUDP)
    (UInt16.ofNat portTCP) nicList (UInt8.ofNat nodeType) (UInt32.ofNat fhgfsVersion)
    nodeFeatureFlags)

def deserializeNodeList (info : VectorInfo) : Except ReadError (List Node) :=
  Prod.fst <$> readMany (deserializeNode malloc) info.elemNum ⟨info.vecStart, 2 ^ 64 - 1⟩

def nodeListDecoder : Decoder VectorInfo (List Node) where
  preprocess := deserializeNodeListPreprocess
  outLen := VectorInfo.vecBufLen
  deserialize := deserializeNodeList malloc

end Fhgfs.Serialization
