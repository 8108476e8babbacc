import Mathlib.Algebra.Order.Ring.Nat
import Fhgfs.Common.NodeListBounds
import Fhgfs.Common.StringListRoundTrip

/-!
# Lists of nodes are read back

A list of nodes is written with the length that is computed for it, the first pass accepts it with
this length, whatever is behind it, and the second pass gives the nodes back, on the servers and in
the client. A bit store that was resized to more than 2^32 - 64 bits says that it has 0 bits, and
is read as a store of 64 bits.

* `BitStore.Built`, `BitStore.Built.wellSized`: the stores that the operations build.
* `reads_node`, `reads_checkNode`: a node in the two passes.
* `nodeLists_agree_iff`: lists without such a store are read back.
-/

namespace Fhgfs

open Wire Serialization BitStore Reads Written Node Cursor List

/-! ## Bit stores -/

namespace BitStore

inductive Built : BitStore → Prop
  | init : Built init
  | setSize {store : BitStore} (malloc : Nat → UInt64) {newSize : Nat} (h : newSize < 2 ^ 32) :
    Built store → Built (store.setSize malloc newSize)
  | setBit {store : BitStore} (bitIndex : Nat) (isSet : Bool) :
    Built store → Built (store.setBit bitIndex isSet)
  | clearBits {store : BitStore} : Built store → Built store.clearBits
  | copy {store other : BitStore} (malloc : Nat → UInt64) :
    Built store → Built other → Built (store.copy malloc other)

/-- The number of bits is 0, or the one of the blocks. -/
def WellSized (store : BitStore) : Prop :=
  store.numBits = 0 ∨ ∃ blocks, 0 < blocks ∧ blocks < 2 ^ 26 ∧ store.numBits = blocks * 64 ∧
    store.higherBits.length = blocks - 1

theorem calculateBitBlockCount_mul {blocks : Nat} (h : 0 < blocks) :
    calculateBitBlockCount (blocks * 64) = blocks := by
  unfold calculateBitBlockCount
  split
  · omega
  · rw [if_neg (by omega), Nat.mul_div_cancel _ (by omega)]

theorem WellSized.init : WellSized init := .inr ⟨1, by omega, by omega, rfl, rfl⟩

theorem WellSized.setSize {store : BitStore} (h : store.WellSized) (malloc : Nat → UInt64)
    {newSize : Nat} (hSize : newSize < 2 ^ 32) : (store.setSize malloc newSize).WellSized := by
  have hBounds := bitBlockCount_bounds hSize
  unfold BitStore.setSize
  dsimp only
  split
  · by_cases hMax : calculateBitBlockCount newSize = 2 ^ 26
    · left
      rw [hMax]
      rfl
    · refine .inr ⟨calculateBitBlockCount newSize, by omega, by omega, ?_, ?_⟩
      · exact Nat.mod_eq_of_lt (by omega)
      · rw [length_map, length_range]
  · exact h

theorem blockCount_setSize_of_ne {store : BitStore} {malloc : Nat → UInt64} {newSize : Nat}
    (hSize : newSize < 2 ^ 32) (h : (store.setSize malloc newSize).numBits ≠ 0) :
    calculateBitBlockCount (store.setSize malloc newSize).numBits =
      calculateBitBlockCount newSize := by
  have hBounds := bitBlockCount_bounds hSize
  unfold setSize at h ⊢
  by_cases hChange : calculateBitBlockCount newSize ≠ calculateBitBlockCount store.numBits
  · rw [if_pos hChange] at h ⊢
    have hMax : calculateBitBlockCount newSize ≠ 2 ^ 26 := by
      intro hMax
      rw [hMax] at h
      exact h rfl
    rw [Nat.mod_eq_of_lt (by omega), calculateBitBlockCount_mul (by omega)]
  · rw [if_neg hChange]
    exact (not_not.mp hChange).symm

theorem WellSized.of_same {store store' : BitStore} (h : store.WellSized)
    (hBits : store'.numBits = store.numBits)
    (hBlocks : store'.higherBits.length = store.higherBits.length) : store'.WellSized := by
  unfold WellSized at h ⊢
  rwa [hBits, hBlocks]

theorem WellSized.setBit {store : BitStore} (h : store.WellSized) (bitIndex : Nat)
    (isSet : Bool) : (store.setBit bitIndex isSet).WellSized := by
  unfold BitStore.setBit
  dsimp only
  split
  · exact h
  · split
    · exact h.of_same rfl rfl
    · exact h.of_same rfl (length_modify _ _ _)

theorem WellSized.clearBits {store : BitStore} (h : store.WellSized) : store.clearBits.WellSized :=
  h.of_same rfl length_mapIdx

theorem WellSized.copy {store other : BitStore} (h : store.WellSized) (hOther : other.WellSized)
    (malloc : Nat → UInt64) : (store.copy malloc other).WellSized := by
  have hSize : other.numBits < 2 ^ 32 := by
    rcases hOther with hZero | ⟨blocks, -, hMax, hBits, -⟩ <;> omega
  have hSet := h.setSize malloc hSize
  unfold BitStore.copy
  dsimp only
  split
  · exact hSet.of_same rfl rfl
  rcases hSet with hZero | ⟨blocks, hPos, hMax, hBits, hBlocks⟩
  · exact .inl hZero
  refine .inr ⟨blocks, hPos, hMax, hBits, ?_⟩
  have hCount := @blockCount_setSize_of_ne store malloc _ hSize (by omega)
  rw [hBits, calculateBitBlockCount_mul hPos] at hCount
  have hOtherBlocks : blocks - 1 ≤ other.higherBits.length := by
    rcases hOther with hZero | ⟨blocks', hPos', -, hBits', hBlocks'⟩
    · rw [hZero] at hCount
      have hOne : calculateBitBlockCount 0 = 1 := rfl
      omega
    · rw [hBits', calculateBitBlockCount_mul hPos'] at hCount
      omega
  rw [hBits, calculateBitBlockCount_mul hPos, length_append, length_take,
    length_drop, hBlocks]
  omega

theorem Built.wellSized {store : BitStore} (h : store.Built) : store.WellSized := by
  induction h with
  | init => exact .init
  | setSize malloc hSize _ ih => exact ih.setSize malloc hSize
  | setBit bitIndex isSet _ ih => exact ih.setBit bitIndex isSet
  | clearBits _ ih => exact ih.clearBits
  | copy malloc _ _ ih ihOther => exact ih.copy ihOther malloc

/-! ### A store is read -/

def received (store : BitStore) : BitStore :=
  if store.numBits = 0 then ⟨64, store.lowerBits, []⟩ else store

section Reading

variable {store : BitStore}

section

variable (h : store.WellSized)
include h

theorem WellSized.count : calculateBitBlockCount store.numBits - 1 ≤ store.higherBits.length := by
  rcases h with hZero | ⟨blocks, hPos, -, hBits, hBlocks⟩
  · rw [hZero]
    exact Nat.zero_le _
  · rw [hBits, calculateBitBlockCount_mul hPos]
    omega

theorem WellSized.numBits_lt : store.numBits < 2 ^ 32 := by
  rcases h with hZero | ⟨blocks, -, hMax, hBits, -⟩ <;> omega

theorem WellSized.length_serialize :
    store.serialize.length = 8 + 8 * calculateBitBlockCount store.numBits := by
  have hBounds := bitBlockCount_bounds h.numBits_lt
  simp only [serialize, length_append, length_map, length_leBytes,
    length_replicate, length_serializeUInt64, length_flatMap_serialize length_serializeUInt64,
    length_take, min_eq_left h.count]
  omega

theorem WellSized.serialLen : store.serialLen = store.serialize.length := by
  rw [h.length_serialize, BitStore.serialLen, mul_comm]

theorem reads_bitStorePreprocess : Reads deserializePreprocess store.serialize () := by
  intro mem rest bufLen hFills hLen
  have hTotal := hFills.length_eq
  rw [h.length_serialize] at hTotal
  have hAdvance := advance_append rest hLen
  rw [hTotal] at hAdvance hLen ⊢
  obtain ⟨numBits, tail, rfl, hNumBits, -⟩ := fills_append hFills
  have hRead := readLe_leBytes 4 h.numBits_lt numBits (tail ++ rest) bufLen hNumBits (by
    rw [hNumBits.length_eq, length_map, length_leBytes]
    omega)
  rw [← append_assoc] at hRead
  unfold deserializePreprocess
  rw [hRead]
  dsimp only
  rw [if_neg (by omega), hAdvance]

end

variable (malloc : Nat → UInt64)

theorem init_setSize_blocks {blocks : Nat} (hPos : 0 < blocks) (hMax : blocks < 2 ^ 26) :
    (init.setSize malloc (blocks * 64)).numBits = blocks * 64 ∧
      (init.setSize malloc (blocks * 64)).higherBits.length = blocks - 1 := by
  have hInit : calculateBitBlockCount init.numBits = 1 := rfl
  unfold setSize
  rw [hInit, calculateBitBlockCount_mul hPos]
  by_cases hOne : blocks = 1
  · subst hOne
    exact ⟨rfl, rfl⟩
  · rw [if_pos hOne]
    refine ⟨Nat.mod_eq_of_lt (by omega), ?_⟩
    rw [length_map, length_range]

theorem reads_bitStore (h : store.WellSized) :
    Reads (init.deserialize malloc) store.serialize store.received := by
  apply (Reads.peekLe_leBytes 4 h.numBits_lt).bind
  apply (Reads.skip 4).bind
  apply (Reads.peekLe_leBytes 8 (by simpa using store.lowerBits.toNat_lt)).bind
  have hRead : Reads (readMany (peekLe 8) (calculateBitBlockCount store.numBits - 1))
      ((store.higherBits.take (calculateBitBlockCount store.numBits - 1)).flatMap serializeUInt64)
      ((store.higherBits.take (calculateBitBlockCount store.numBits - 1)).map UInt64.toNat) := by
    have hElem : ∀ bits : UInt64, Reads (peekLe 8) (serializeUInt64 bits) bits.toNat :=
      fun bits => Reads.peekLe_leBytes 8 (by simpa using bits.toNat_lt)
    have hMany := reads_readMany_map fun bits
      (_ : bits ∈ store.higherBits.take (calculateBitBlockCount store.numBits - 1)) => hElem bits
    rwa [length_take, min_eq_left h.count] at hMany
  have hCount : calculateBitBlockCount (init.setSize malloc store.numBits).numBits =
      calculateBitBlockCount store.numBits := by
    rcases h with hZero | ⟨blocks, hPos, hMax, hBits, -⟩
    · rw [hZero]
      rfl
    · rw [hBits, (init_setSize_blocks malloc hPos hMax).1]
  rw [hCount]
  apply hRead.bind_of_nil
  apply (Reads.pure _).of_eq
  have hOfNat : ((store.higherBits.take (calculateBitBlockCount store.numBits - 1)).map
      UInt64.toNat).map UInt64.ofNat =
      store.higherBits.take (calculateBitBlockCount store.numBits - 1) := by
    rw [map_map]
    exact (map_congr_left fun bits _ => UInt64.ofNat_toNat).trans (map_id _)
  rw [hOfNat, UInt64.ofNat_toNat, length_map, length_take, min_eq_left h.count,
    received]
  rcases h with hZero | ⟨blocks, hPos, hMax, hBits, hBlocks⟩
  · rw [if_pos hZero, hZero]
    rfl
  · obtain ⟨hSetBits, hSetBlocks⟩ := init_setSize_blocks malloc hPos hMax
    rw [if_neg (by omega), hBits, calculateBitBlockCount_mul hPos, ← hBlocks, take_length,
      drop_eq_nil_of_le (by omega), append_nil, hSetBits, ← hBits]

theorem copy_received (h : store.WellSized) :
    (ofSize malloc 32).copy malloc store.received = store.received := by
  have hNew : ofSize malloc 32 = init := rfl
  rw [hNew, received]
  rcases h with hZero | ⟨blocks, hPos, hMax, hBits, hBlocks⟩
  · rw [if_pos hZero]
    rfl
  obtain ⟨hSetBits, hSetBlocks⟩ := init_setSize_blocks malloc hPos hMax
  rw [if_neg (by omega)]
  unfold copy
  rw [hBits]
  dsimp only
  by_cases hNone : (init.setSize malloc (blocks * 64)).higherBits = []
  · rw [if_pos hNone]
    rw [hNone] at hSetBlocks
    have hEmpty : store.higherBits = [] :=
      length_eq_zero_iff.mp (hBlocks.trans hSetBlocks.symm)
    rw [hSetBits, hNone, ← hEmpty, ← hBits]
  · rw [if_neg hNone, hSetBits, calculateBitBlockCount_mul hPos, take_of_length_le (by omega),
      drop_eq_nil_of_le (by omega), append_nil, ← hBits]

end Reading

end BitStore

namespace Serialization

/-! ## Network interfaces -/

variable (nic : NicAddress)

theorem NicAddress.terminator_lt : 15 < 16 := Nat.lt_add_one 15

def NicAddress.terminated : NicAddress :=
  { nic with name := nic.name.set 15 0 NicAddress.terminator_lt }

theorem length_serializeNic : (serializeNic nic).length = 24 := by
  simp [serializeNic]

theorem reads_nic : Reads deserializeNic (serializeNic nic) nic.terminated := by
  apply (Reads.peekLe_leBytes 4 (by simpa using nic.ipAddr.toNat_lt)).bind
  apply (Reads.peekBytes (n := 16) (by simp)).bind
  apply (Reads.peekLe_leBytes 1 (by simpa using nic.nicType.toNat_lt)).bind
  apply (Reads.skip 3).bind_of_nil
  apply (Reads.pure _).of_eq
  rw [ofFn_getD_toList, UInt32.ofNat_toNat, UInt8.ofNat_toNat, NicAddress.terminated]

section NicList

variable {nicList : List NicAddress}

theorem serializeNicList_eq (h : 4 + nicList.length * 24 < 2 ^ 32) :
    serializeNicList nicList =
      (leBytes 4 nicList.length).map some ++ nicList.flatMap serializeNic := by
  have hNum : nicList.length % 2 ^ 32 = nicList.length := Nat.mod_eq_of_lt (by omega)
  rw [serializeNicList, hNum, take_length]

theorem length_serializeNicList (h : 4 + nicList.length * 24 < 2 ^ 32) :
    (serializeNicList nicList).length = 4 + nicList.length * 24 := by
  rw [serializeNicList_eq h, length_append, length_map, length_leBytes,
    length_flatMap_serialize length_serializeNic]

theorem serialLenNicList_eq {elemNum : Nat} (h : 4 + elemNum * 24 < 2 ^ 32) :
    serialLenNicList elemNum = 4 + elemNum * 24 := Nat.mod_eq_of_lt h

theorem reads_skipNicList (h : 4 + nicList.length * 24 < 2 ^ 32) :
    Reads skipNicList (serializeNicList nicList) () := by
  intro mem rest bufLen hFills hLen
  have hTotal := hFills.length_eq
  rw [length_serializeNicList h] at hTotal
  have hAdvance := advance_append rest hLen
  rw [hTotal] at hAdvance hLen ⊢
  rw [serializeNicList_eq h] at hFills
  obtain ⟨num, nics, rfl, hNum, -⟩ := fills_append hFills
  have hRead := readLe_leBytes 4 (by omega) num (nics ++ rest) bufLen hNum (by
    rw [hNum.length_eq, length_map, length_leBytes]
    omega)
  rw [← append_assoc] at hRead
  unfold skipNicList deserializeNicListPreprocess
  rw [hRead]
  dsimp only
  rw [serialLenNicList_eq h, if_neg (by omega)]
  dsimp only
  rw [hAdvance]

theorem reads_peekNicList (h : 4 + nicList.length * 24 < 2 ^ 32) :
    Reads peekNicList (serializeNicList nicList) (nicList.map NicAddress.terminated) := by
  intro mem rest bufLen hFills hLen
  have hTotal := hFills.length_eq
  rw [length_serializeNicList h] at hTotal
  have hAdvance := advance_append rest hLen
  rw [hTotal] at hAdvance hLen ⊢
  rw [serializeNicList_eq h] at hFills
  obtain ⟨num, nics, rfl, hNum, hNics⟩ := fills_append hFills
  rw [length_append] at hTotal
  have hRead := peekLe_leBytes 4 (by omega) num (nics ++ rest) bufLen hNum (by omega)
  have hReadNics := reads_readMany_map (fun nic _ => reads_nic nic) nics rest
    (bufLen - num.length) hNics (by omega)
  rw [← append_assoc] at hRead
  unfold peekNicList
  rw [hRead]
  dsimp only
  rw [hReadNics]
  rw [serialLenNicList_eq h, hAdvance]

end NicList

/-! ## Node IDs -/

theorem reads_peekStrAlign4 {str : ByteString} (hNul : 0 ∉ str) (h : str.length + 8 < 2 ^ 32) :
    Reads peekStrAlign4 (serializeStrAlign4 str) str := by
  intro mem rest bufLen hFills hLen
  have hTotal := hFills.length_eq
  rw [length_serializeStrAlign4 h] at hTotal
  have hMod : str.length % 2 ^ 32 = str.length := Nat.mod_eq_of_lt (by omega)
  have hAdvance := advance_append rest hLen
  rw [hTotal] at hAdvance ⊢
  simp only [serializeStrAlign4, hMod, take_length] at hFills
  obtain ⟨front, tail, rfl, hFront, hTail⟩ := fills_append hFills
  obtain ⟨body, pad, rfl, hBody, hPad⟩ := fills_append hTail
  obtain rfl := fills_map_some.mp hBody
  obtain ⟨padding, rfl⟩ : ∃ padding, pad = 0 :: padding := by
    cases hPad with
    | cons hHead _ => exact ⟨_, congrArg (· :: _) (hHead 0 rfl)⟩
  have hRead := peekLe_leBytes 4 (by omega) front (body ++ 0 :: padding ++ rest) bufLen
    hFront (by rw [length_append] at hLen; omega)
  have hStr : body ++ 0 :: padding ++ rest = body ++ 0 :: (padding ++ rest) := by
    rw [append_assoc, cons_append]
  have hTerminator : (body ++ 0 :: (padding ++ rest))[body.length]? = some 0 := by
    rw [getElem?_append_right (le_rfl), Nat.sub_self]
    rfl
  rw [← append_assoc, hStr] at hRead
  unfold peekStrAlign4
  rw [hRead]
  dsimp only
  rw [hTerminator]
  rw [readCStr_elem hNul]
  rw [hAdvance]

/-! ## Nodes -/

def padding (length : Nat) : Nat := if length % 8 ≠ 0 then 8 - length % 8 else 0

theorem add_padding (length : Nat) : length + padding length = (length + 7) / 8 * 8 := by
  unfold padding
  split <;> omega

theorem reads_aligned {α β : Type} {r : Reader α} {f : α → Reader β} {bytes : Encoding} {v : α}
    {w : β} (h : Reads r bytes v) (hLen : bytes.length < 2 ^ 64) (hEnd : Reads (f v) [] w) :
    Reads (get >>= fun nodeStart => r >>= fun v => alignNode nodeStart >>= fun _ => f v)
      (bytes ++ replicate (padding bytes.length) none) w := by
  intro mem rest bufLen hFills hTold
  obtain ⟨front, back, rfl, hFront, hBack⟩ := fills_append hFills
  have hFrontLen := hFront.length_eq
  have hBackLen := hBack.length_eq
  rw [length_replicate] at hBackLen
  rw [length_append] at hTold ⊢
  have hGet : (get : Reader Wire.Cursor) ⟨front ++ back ++ rest, bufLen⟩ =
      .ok (⟨front ++ back ++ rest, bufLen⟩, ⟨front ++ back ++ rest, bufLen⟩) := rfl
  have hAlign : alignNode ⟨front ++ back ++ rest, bufLen⟩ ⟨back ++ rest, bufLen - front.length⟩ =
      .ok ((), ⟨rest, bufLen - (front.length + back.length)⟩) := by
    have hMoved : moved ⟨front ++ back ++ rest, bufLen⟩
        ⟨back ++ rest, bufLen - front.length⟩ = bytes.length := by
      unfold moved
      dsimp only
      omega
    have hAdvance := advance_append rest (by omega : back.length ≤ bufLen - front.length)
    rw [hBackLen, padding] at hAdvance
    unfold alignNode
    rw [hMoved]
    by_cases hPadded : bytes.length % 8 ≠ 0
    · rw [if_pos hPadded] at hAdvance ⊢
      rw [hAdvance, hBackLen, padding, if_pos hPadded, Nat.sub_sub]
    · rw [if_neg hPadded]
      have hNone : back = [] := by
        apply length_eq_zero_iff.mp
        rw [hBackLen, padding, if_neg hPadded]
      rw [hNone, nil_append, length_nil, add_zero]
  rw [bind_of_ok hGet, append_assoc, h.bind_apply _ hFront (by omega), ← append_assoc,
    bind_of_ok hAlign]
  have hLast := hEnd [] rest (bufLen - (front.length + back.length)) .nil (Nat.zero_le _)
  exact hLast

/-- What is written of a node before its padding. -/
def nodeFields (node : Node) : Encoding :=
  node.nodeFeatureFlags.serialize ++ (serializeStrAlign4 node.id ++
    (serializeNicList node.nicList ++ (serializeUInt node.fhgfsVersion ++
      (serializeUInt16 node.numID ++ (serializeUInt16 node.portUDP ++
        (serializeUInt16 node.portTCP ++ serializeUInt8 node.nodeType))))))

def nodeBytes (node : Node) : Encoding :=
  nodeFields node ++ List.replicate (padding (nodeFields node).length) none

def nodeFieldsLen (node : Node) : Nat :=
  8 + 8 * BitStore.calculateBitBlockCount node.nodeFeatureFlags.numBits +
    (node.id.length + 8) / 4 * 4 + (4 + node.nicList.length * 24) + 11

def encodedNodeLen (node : Node) : Nat := (nodeFieldsLen node + 7) / 8 * 8

def nodeListLen (nodes : List Node) : Nat := 8 + (nodes.map encodedNodeLen).sum

def Node.received (node : Node) : Node :=
  { node with
    nodeFeatureFlags := node.nodeFeatureFlags.received
    nicList := node.nicList.map NicAddress.terminated }

def Node.terminated (node : Node) : Node :=
  { node with nicList := node.nicList.map NicAddress.terminated }

structure NodeFits (node : Node) : Prop where
  features : node.nodeFeatureFlags.WellSized
  nul : 0 ∉ node.id
  length : encodedNodeLen node < 2 ^ 32

namespace NodeFits

variable {node : Node} (h : NodeFits node)
include h

theorem fieldsLen : nodeFieldsLen node < 2 ^ 32 := by
  have hLength := h.length
  unfold encodedNodeLen at hLength
  omega

theorem idLen : node.id.length + 8 < 2 ^ 32 := by
  have hFields := h.fieldsLen
  unfold nodeFieldsLen at hFields
  omega

theorem nicListLen : 4 + node.nicList.length * 24 < 2 ^ 32 := by
  have hFields := h.fieldsLen
  unfold nodeFieldsLen at hFields
  omega

theorem length_fields : (nodeFields node).length = nodeFieldsLen node := by
  simp only [nodeFields, length_append, h.features.length_serialize,
    length_serializeStrAlign4 h.idLen, serialLenStrAlign4_of_lt h.idLen,
    length_serializeNicList h.nicListLen, length_serializeUInt, length_serializeUInt16,
    length_serializeUInt8, nodeFieldsLen]
  omega

theorem length_bytes : (nodeBytes node).length = encodedNodeLen node := by
  rw [nodeBytes, length_append, length_replicate, add_padding, h.length_fields,
    encodedNodeLen]

/-! ### Written -/

theorem serializeNode_eq : serializeNode node = .of (nodeBytes node) := by
  have hFields := h.fieldsLen
  have hFeatures : (of node.nodeFeatureFlags.serialize).asUnsigned =
      .of node.nodeFeatureFlags.serialize := by
    apply asUnsigned_of
    rw [h.features.length_serialize]
    unfold nodeFieldsLen at hFields
    omega
  have hNics : (of (serializeNicList node.nicList)).asUnsigned =
      .of (serializeNicList node.nicList) := by
    apply asUnsigned_of
    rw [length_serializeNicList h.nicListLen]
    exact h.nicListLen
  have hAll := all_of [node.nodeFeatureFlags.serialize, serializeStrAlign4 node.id,
    serializeNicList node.nicList, serializeUInt node.fhgfsVersion, serializeUInt16 node.numID,
    serializeUInt16 node.portUDP, serializeUInt16 node.portTCP, serializeUInt8 node.nodeType]
  simp only [map_cons, map_nil, flatten_cons, flatten_nil,
    append_nil] at hAll
  rw [serializeNode, hFeatures, writeStrAlign4_eq h.idLen, hNics, hAll, alignTo_of]
  rfl

theorem serialLenNode_eq {bufPos : Nat} (hPos : bufPos + encodedNodeLen node < 2 ^ 32) :
    serialLenNode bufPos node = bufPos + encodedNodeLen node := by
  have hIDLen := h.idLen
  have hFields : (bufPos + node.nodeFeatureFlags.serialLen +
      serialLenStrAlign4 (node.id.length % 2 ^ 32) + serialLenNicList node.nicList.length +
      4 + 2 + 2 + 2 + 1) = bufPos + nodeFieldsLen node := by
    rw [h.features.serialLen, h.features.length_serialize, Nat.mod_eq_of_lt (by omega),
      serialLenStrAlign4_of_lt hIDLen, serialLenNicList_eq h.nicListLen, nodeFieldsLen]
    omega
  unfold serialLenNode
  rw [hFields]
  unfold encodedNodeLen at hPos ⊢
  rw [Nat.mod_eq_of_lt (by omega : bufPos + nodeFieldsLen node < 2 ^ 32)]
  dsimp only
  split
  · rw [Nat.mod_eq_of_lt] <;> omega
  · omega

/-! ### Read -/

theorem reads_checkNode : Reads checkNode (nodeBytes node) () := by
  have hFields : Reads (do
      deserializePreprocess
      let _nodeID ← deserializeStrAlign4
      skipNicList
      let _fhgfsVersion ← readLe 4
      let _nodeNumID ← readLe 2
      let _portUDP ← readLe 2
      let _portTCP ← readLe 2
      readLe 1) (nodeFields node) node.nodeType.toNat := by
    apply (reads_bitStorePreprocess h.features).bind
    apply (reads_strAlign4 h.idLen).bind
    apply (reads_skipNicList h.nicListLen).bind
    apply (readLe_leBytes 4 (by simpa using node.fhgfsVersion.toNat_lt)).bind
    apply (readLe_leBytes 2 (by simpa using node.numID.toNat_lt)).bind
    apply (readLe_leBytes 2 (by simpa using node.portUDP.toNat_lt)).bind
    apply (readLe_leBytes 2 (by simpa using node.portTCP.toNat_lt)).bind
    exact readLe_leBytes 1 (by simpa using node.nodeType.toNat_lt)
  have hLen : (nodeFields node).length < 2 ^ 64 := by
    have hLt := h.fieldsLen
    rw [h.length_fields]
    omega
  have hAligned := reads_aligned (f := fun _ => pure ()) hFields hLen (.pure ())
  simpa only [checkNode, nodeBytes, bind_assoc, bind_pure_unit] using hAligned

theorem reads_node (malloc : Nat → UInt64) :
    Reads (deserializeNode malloc) (nodeBytes node) node.received := by
  have hFields : Reads (do
      let nodeFeatureFlags ← BitStore.init.deserialize malloc
      let nodeID ← peekStrAlign4
      let nicList ← peekNicList
      let fhgfsVersion ← peekLe 4
      let nodeNumID ← peekLe 2
      let portUDP ← peekLe 2
      let portTCP ← peekLe 2
      let nodeType ← peekLe 1
      pure (Node.construct malloc nodeID (UInt16.ofNat nodeNumID) (UInt16.ofNat portUDP)
        (UInt16.ofNat portTCP) nicList (UInt8.ofNat nodeType) (UInt32.ofNat fhgfsVersion)
        nodeFeatureFlags)) (nodeFields node) node.received := by
    apply (BitStore.reads_bitStore malloc h.features).bind
    apply (reads_peekStrAlign4 h.nul h.idLen).bind
    apply (reads_peekNicList h.nicListLen).bind
    apply (Reads.peekLe_leBytes 4 (by simpa using node.fhgfsVersion.toNat_lt)).bind
    apply (Reads.peekLe_leBytes 2 (by simpa using node.numID.toNat_lt)).bind
    apply (Reads.peekLe_leBytes 2 (by simpa using node.portUDP.toNat_lt)).bind
    apply (Reads.peekLe_leBytes 2 (by simpa using node.portTCP.toNat_lt)).bind
    apply (Reads.peekLe_leBytes 1 (by simpa using node.nodeType.toNat_lt)).bind_of_nil
    apply (Reads.pure _).of_eq
    rw [Node.construct, BitStore.copy_received malloc h.features, UInt16.ofNat_toNat,
      UInt16.ofNat_toNat, UInt16.ofNat_toNat, UInt8.ofNat_toNat, UInt32.ofNat_toNat,
      Node.received]
  have hLen : (nodeFields node).length < 2 ^ 64 := by
    have hLt := h.fieldsLen
    rw [h.length_fields]
    omega
  have hAligned := reads_aligned hFields hLen (.pure node.received)
  simpa only [deserializeNode, nodeBytes, bind_assoc, pure_bind] using hAligned

end NodeFits

/-! ## Lists of nodes -/

def nodeListBytes (nodes : List Node) : Encoding :=
  (leBytes 4 nodes.length).map some ++ (List.replicate 4 none ++ nodes.flatMap nodeBytes)

structure NodesFit (nodes : List Node) : Prop where
  each : ∀ node ∈ nodes, NodeFits node
  length : nodeListLen nodes < 2 ^ 32

theorem nodesFit {nodes : List Node} (hBuilt : ∀ node ∈ nodes, node.nodeFeatureFlags.Built)
    (hNul : ∀ node ∈ nodes, 0 ∉ node.id) (hFits : nodeListLen nodes < 2 ^ 32) :
    NodesFit nodes := by
  refine ⟨?_, hFits⟩
  intro node hNode
  refine ⟨(hBuilt node hNode).wellSized, hNul node hNode, ?_⟩
  have hLe := single_le_sum (fun _ _ => Nat.zero_le _) _
    (mem_map_of_mem (f := encodedNodeLen) hNode)
  unfold nodeListLen at hFits
  omega

namespace NodesFit

variable {nodes : List Node} (h : NodesFit nodes)
include h

theorem num_lt : nodes.length < 2 ^ 32 := by
  have hLength := h.length
  have hNum := length_le_sum_of_one_le (nodes.map encodedNodeLen) <| by
    intro n hn
    obtain ⟨node, -, rfl⟩ := mem_map.mp hn
    unfold encodedNodeLen nodeFieldsLen
    omega
  rw [length_map] at hNum
  unfold nodeListLen at hLength
  omega

theorem length_nodes : (nodes.flatMap nodeBytes).length = (nodes.map encodedNodeLen).sum := by
  rw [length_flatMap]
  congr 1
  apply map_congr_left
  intro node hNode
  exact (h.each node hNode).length_bytes

theorem length_bytes : (nodeListBytes nodes).length = nodeListLen nodes := by
  rw [nodeListBytes, length_append, length_append, length_map, length_leBytes,
    length_replicate, h.length_nodes, nodeListLen]
  omega

theorem serializeNodeList_eq : serializeNodeList nodes = .of (nodeListBytes nodes) := by
  have hNum : nodes.length % 2 ^ 32 = nodes.length := Nat.mod_eq_of_lt h.num_lt
  have hLoop := loop_of (fun node hNode => (h.each node hNode).serializeNode_eq)
    ((leBytes 4 nodes.length).map some ++ replicate 4 none)
  rw [append_assoc] at hLoop
  unfold serializeNodeList
  dsimp only
  rw [hNum, take_length, hLoop]
  apply asUnsigned_of
  exact h.length_bytes ▸ h.length

omit h in
theorem foldl_serialLenNode {bufPos : Nat} (hNodes : ∀ node ∈ nodes, NodeFits node)
    (hPos : bufPos + (nodes.map encodedNodeLen).sum < 2 ^ 32) :
    nodes.foldl serialLenNode bufPos = bufPos + (nodes.map encodedNodeLen).sum := by
  induction nodes generalizing bufPos with
  | nil => rfl
  | cons node nodes ih =>
    rw [map_cons, sum_cons] at hPos ⊢
    rw [foldl_cons, (hNodes node mem_cons_self).serialLenNode_eq (by omega),
      ih (fun node' hNode => hNodes node' (mem_cons_of_mem _ hNode)) (by omega)]
    omega

theorem serialLenNodeList_eq : serialLenNodeList nodes = nodeListLen nodes := by
  have hNum : nodes.length % 2 ^ 32 = nodes.length := Nat.mod_eq_of_lt h.num_lt
  rw [serialLenNodeList, hNum, take_length]
  exact foldl_serialLenNode h.each h.length

omit h in
theorem reads_checkNodes (hNodes : ∀ node ∈ nodes, NodeFits node) :
    Reads (checkNodes nodes.length) (nodes.flatMap nodeBytes) () := by
  induction nodes with
  | nil => exact .pure ()
  | cons node nodes ih =>
    apply (hNodes node mem_cons_self).reads_checkNode.bind
    exact ih fun node' hNode => hNodes node' (mem_cons_of_mem _ hNode)

theorem read {mem : List UInt8} (hFills : Fills (nodeListBytes nodes) mem) (rest : List UInt8)
    (malloc : Nat → UInt64) :
    ∃ info, deserializeNodeListPreprocess (.of (mem ++ rest)) = .ok info ∧
      info.vecBufLen = nodeListLen nodes ∧
      deserializeNodeList malloc info = .ok (nodes.map Node.received) := by
  have hTotal := hFills.length_eq
  have hLength := h.length
  rw [h.length_bytes] at hTotal
  obtain ⟨num, tail, rfl, hNum, hTail⟩ := fills_append hFills
  obtain ⟨hole, elems, rfl, hHole, hElems⟩ := fills_append hTail
  rw [length_append, length_append] at hTotal
  have hBufLen : (num ++ (hole ++ elems) ++ rest).length =
      num.length + (hole.length + elems.length) + rest.length := by
    rw [length_append, length_append, length_append]
  generalize hBuf : (num ++ (hole ++ elems) ++ rest).length = bufLen at hBufLen
  have hReadNum := Reads.readLe_leBytes 4 h.num_lt num (hole ++ elems ++ rest) bufLen hNum
    (by omega)
  have hSkip := Reads.skip 4 hole (elems ++ rest) (bufLen - num.length) hHole (by omega)
  have hCheck := reads_checkNodes h.each elems rest (bufLen - num.length - hole.length) hElems
    (by omega)
  have hRead := reads_readMany_map (fun node hNode => (h.each node hNode).reads_node malloc)
    elems rest (2 ^ 64 - 1) hElems (by omega)
  rw [← append_assoc] at hReadNum hSkip
  have hAdvance : Cursor.advance 4 ⟨hole ++ elems ++ rest, bufLen - num.length⟩ =
      ⟨elems ++ rest, bufLen - num.length - hole.length⟩ := congrArg Prod.snd (Except.ok.inj hSkip)
  have hMoved : Cursor.moved ⟨num ++ (hole ++ elems) ++ rest, bufLen⟩
      ⟨rest, bufLen - num.length - hole.length - elems.length⟩ = nodeListLen nodes := by
    unfold Cursor.moved
    dsimp only
    omega
  refine ⟨⟨nodes.length, elems ++ rest, nodeListLen nodes⟩, ?_, rfl, ?_⟩
  · unfold deserializeNodeListPreprocess Cursor.of
    rw [hBuf, hReadNum]
    dsimp only
    rw [hAdvance, hCheck]
    dsimp only
    rw [hMoved, if_neg (by omega), Nat.mod_eq_of_lt hLength]
  · unfold deserializeNodeList
    rw [hRead]
    rfl

end NodesFit

/-! ## Servers and clients -/

/-- What a server writes is read by servers and clients, and what a client writes by servers. -/
structure NodeListAgrees (nodes : List Node) : Prop where
  length : (serializeNodeList nodes).bytes.length = serialLenNodeList nodes ∧
    (serializeNodeList nodes).used = serialLenNodeList nodes
  fromServer : ∀ malloc mem rest, Fills (serializeNodeList nodes).bytes mem → ∃ info : VectorInfo,
    info.vecBufLen = serialLenNodeList nodes ∧
    deserializeNodeListPreprocess (.of (mem ++ rest)) = .ok info ∧
    deserializeNodeList malloc info = .ok (nodes.map Node.terminated) ∧
    Client.Serialization.deserializeNodeListPreprocess (.of (mem ++ rest)) = .ok info ∧
    Client.Serialization.deserializeNodeList malloc info = .ok (nodes.map Node.terminated)
  fromClient : ∀ malloc mem rest,
    Fills (Client.Serialization.serializeNodeList nodes).bytes mem → ∃ info : VectorInfo,
      info.vecBufLen = Client.Serialization.serialLenNodeList nodes ∧
      deserializeNodeListPreprocess (.of (mem ++ rest)) = .ok info ∧
      deserializeNodeList malloc info = .ok (nodes.map Node.terminated)

theorem received_eq_terminated_iff {node : Node} :
    node.received = node.terminated ↔ node.nodeFeatureFlags.numBits ≠ 0 := by
  constructor
  · intro hEq hZero
    have hBits := congrArg (fun node => node.nodeFeatureFlags.numBits) hEq
    dsimp only [Node.received, Node.terminated] at hBits
    rw [BitStore.received, if_pos hZero, hZero] at hBits
    cases hBits
  · intro hBits
    rw [Node.received, BitStore.received, if_neg hBits, Node.terminated]

theorem NodesFit.agrees_iff {nodes : List Node} (h : NodesFit nodes) :
    NodeListAgrees nodes ↔ ∀ node ∈ nodes, node.nodeFeatureFlags.numBits ≠ 0 := by
  have hBytes : (serializeNodeList nodes).bytes = nodeListBytes nodes := by
    rw [h.serializeNodeList_eq, Written.of]
  constructor
  · intro hAgrees node hNode
    have hFills := fills_fill (fun _ => 0) (nodeListBytes nodes)
    obtain ⟨info, -, hInfo, hList, -⟩ := hAgrees.fromServer (fun _ => 0)
      (fill (fun _ => 0) (nodeListBytes nodes)) [] (hBytes.symm ▸ hFills)
    obtain ⟨info', hInfo', -, hList'⟩ := h.read hFills [] (fun _ => 0)
    obtain rfl := Except.ok.inj (hInfo'.symm.trans hInfo)
    have hNodes := Except.ok.inj (hList'.symm.trans hList)
    exact received_eq_terminated_iff.mp (map_inj_left.mp hNodes node hNode)
  · intro hBits
    have hNodes : nodes.map Node.received = nodes.map Node.terminated :=
      map_congr_left fun node hNode => received_eq_terminated_iff.mpr (hBits node hNode)
    have hLen : (serializeNodeList nodes).bytes.length = serialLenNodeList nodes := by
      rw [hBytes, h.length_bytes, h.serialLenNodeList_eq]
    have hUsed : (serializeNodeList nodes).used = serialLenNodeList nodes := by
      rw [← hLen, h.serializeNodeList_eq, Written.of]
    have hRead : ∀ malloc mem rest, Fills (serializeNodeList nodes).bytes mem →
        ∃ info : VectorInfo, info.vecBufLen = serialLenNodeList nodes ∧
          deserializeNodeListPreprocess (.of (mem ++ rest)) = .ok info ∧
          deserializeNodeList malloc info = .ok (nodes.map Node.terminated) := by
      intro malloc mem rest hFills
      rw [hBytes] at hFills
      obtain ⟨info, hInfo, hInfoLen, hList⟩ := h.read hFills rest malloc
      exact ⟨info, hInfoLen.trans h.serialLenNodeList_eq.symm, hInfo, hNodes ▸ hList⟩
    refine ⟨⟨hLen, hUsed⟩, ?_, hRead⟩
    intro malloc mem rest hFills
    obtain ⟨info, hInfoLen, hInfo, hList⟩ := hRead malloc mem rest hFills
    exact ⟨info, hInfoLen, hInfo, hList, hInfo, hList⟩

/-- All sides agree on a list of nodes unless the feature bits of a node have length 0. -/
theorem nodeLists_agree_iff {nodes : List Node}
    (hBuilt : ∀ node ∈ nodes, node.nodeFeatureFlags.Built) (hNul : ∀ node ∈ nodes, 0 ∉ node.id)
    (hFits : nodeListLen nodes < 2 ^ 32) :
    NodeListAgrees nodes ↔ ∀ node ∈ nodes, node.nodeFeatureFlags.numBits ≠ 0 :=
  (nodesFit hBuilt hNul hFits).agrees_iff

def plainNode (id : ByteString) (nodeFeatureFlags : BitStore) : Node :=
  ⟨id, 1, 2, 7, nodeFeatureFlags, 8005, 8005, []⟩

/-- The second node has two interfaces. -/
def twoNodes : List Node :=
  [plainNode [109, 49] (BitStore.init.setBit 3 true),
    { plainNode [115] BitStore.init with
      nicList := [⟨1, .replicate 16 101, 0⟩, ⟨2, .replicate 16 105, 2⟩] }]

theorem nodeLists_agree_iff_twoNodes : NodeListAgrees twoNodes ↔
    ∀ node ∈ twoNodes, node.nodeFeatureFlags.numBits ≠ 0 := by
  apply nodeLists_agree_iff
  · exact forall_mem_cons.mpr ⟨.setBit 3 true .init, forall_mem_singleton.mpr .init⟩
  · decide
  · decide

theorem numBits_setSize_max (malloc : Nat → UInt64) :
    (init.setSize malloc (2 ^ 32 - 1)).numBits = 0 := by
  have hInit : calculateBitBlockCount init.numBits = 1 := rfl
  have hMax : calculateBitBlockCount (2 ^ 32 - 1) = 2 ^ 26 := rfl
  unfold setSize
  rw [hInit, hMax, if_pos (by omega)]
  exact Nat.mod_self _

/-- The feature flags are a store of 2^26 blocks, which says that it has 0 bits. -/
theorem not_nodeListsAgree :
    ¬ ∀ nodes : List Node, (∀ node ∈ nodes, node.nodeFeatureFlags.Built) →
      (∀ node ∈ nodes, 0 ∉ node.id) → nodeListLen nodes < 2 ^ 32 → NodeListAgrees nodes := by
  intro h
  have hZero := numBits_setSize_max fun _ => 0
  have hStore : (init.setSize (fun _ => 0) (2 ^ 32 - 1)).Built :=
    .setSize (fun _ => 0) (by omega) .init
  generalize init.setSize (fun _ => 0) (2 ^ 32 - 1) = store at hZero hStore
  have hBuilt : ∀ node ∈ [plainNode [109, 49] store], node.nodeFeatureFlags.Built := by
    intro node hNode
    rw [mem_singleton.mp hNode]
    exact hStore
  have hNul : ∀ node ∈ [plainNode [109, 49] store], 0 ∉ node.id := by
    intro node hNode
    rw [mem_singleton.mp hNode]
    exact (by decide : (0 : UInt8) ∉ ([109, 49] : ByteString))
  have hFits : nodeListLen [plainNode [109, 49] store] < 2 ^ 32 := by
    rw [nodeListLen, map_singleton, sum_singleton, encodedNodeLen, nodeFieldsLen,
      plainNode]
    dsimp only
    rw [hZero]
    decide
  exact (nodesFit hBuilt hNul hFits).agrees_iff.mp (h _ hBuilt hNul hFits) _
    mem_cons_self hZero

end Serialization

end Fhgfs
