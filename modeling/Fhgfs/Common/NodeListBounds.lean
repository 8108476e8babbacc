import Fhgfs.Common.DecodingBounds

/-!
# Bounds of the decoder of node lists

A suffix of the buffer that starts with a node has its parts at positions that the announced
lengths give. The first pass leaves the buffer at a node ID of nearly 2^32 bytes, and at a node
that begins behind the end of the buffer, since the padding of the node before is not checked. The
second pass leaves it at a list of network interfaces whose length was computed too small.

* `checkNode_cases`: the three outcomes of the check of a node.
* `nodeList_contained`, `nodeListFits_of_contained`: `NodeListFits` is enough for both passes, and
  needed as long as no bit store announces more than 2^32 - 64 bits. Such a store is set to 0 bits,
  and the second pass goes on in the middle of it.
-/

namespace Fhgfs.Serialization

open Wire Cursor List BitStore Moves

/-! ## The parts of a node -/

def nodeIDPos (node : List UInt8) : Nat := 8 + 8 * BitStore.calculateBitBlockCount (leAt 4 node 0)

def nodeIDLen (node : List UInt8) : Nat := leAt 4 node (nodeIDPos node)

def nicListPos (node : List UInt8) : Nat := nodeIDPos node + serialLenStrAlign4 (nodeIDLen node)

def nicNum (node : List UInt8) : Nat := leAt 4 node (nicListPos node)

/-- Behind the version, the numeric ID, the ports and the type. -/
def nodeEnd (node : List UInt8) : Nat := nicListPos node + serialLenNicList (nicNum node) + 11

def nodeLen (node : List UInt8) : Nat := (nodeEnd node + 7) / 8 * 8

/-- The check of a node accepts it. -/
structure NodeAccepted (node : List UInt8) : Prop where
  nodeID : nodeIDPos node + 8 ≤ node.length
  idLen : nodeIDLen node < 2 ^ 32 - 8
  inside : nodeEnd node ≤ node.length
  terminated : node[nodeIDPos node + 4 + nodeIDLen node]? = some 0

theorem bitBlockCount_bounds {size : Nat} (h : size < 2 ^ 32) :
    1 ≤ calculateBitBlockCount size ∧ calculateBitBlockCount size ≤ 2 ^ 26 := by
  unfold calculateBitBlockCount
  split
  · omega
  · split <;> omega

theorem nodeIDPos_bounds (node : List UInt8) :
    16 ≤ nodeIDPos node ∧ nodeIDPos node ≤ 8 + 2 ^ 29 := by
  have hBlocks := bitBlockCount_bounds (leAt_four_lt node 0)
  unfold nodeIDPos
  omega

theorem serialLenStrAlign4_lt (strLen : Nat) : serialLenStrAlign4 strLen < 2 ^ 32 := by
  unfold serialLenStrAlign4
  dsimp only
  split <;> omega

theorem nodeEnd_lt (node : List UInt8) : nodeEnd node < 2 ^ 34 := by
  have hPos := nodeIDPos_bounds node
  have hID := serialLenStrAlign4_lt (nodeIDLen node)
  have hNics : serialLenNicList (nicNum node) < 2 ^ 32 := Nat.mod_lt _ (by omega)
  unfold nodeEnd nicListPos
  omega

/-! ## The check of a node -/

section CheckNode

variable {node : List UInt8}

variable {nodeStart : Wire.Cursor}

theorem alignNode_of {pos : Nat} (hLen : nodeStart.bufLen < 2 ^ 64) (hPos : pos < 2 ^ 34) :
    alignNode nodeStart (nodeStart.advance pos) =
      .ok ((), nodeStart.advance ((pos + 7) / 8 * 8)) := by
  unfold alignNode
  rw [moved_advance hLen (by omega)]
  by_cases hAligned : pos % 8 = 0
  · have hSame : (pos + 7) / 8 * 8 = pos := by omega
    rw [if_neg (not_not.mpr hAligned), hSame]
  · have hPad : pos + (8 - pos % 8) = (pos + 7) / 8 * 8 := by omega
    rw [if_pos hAligned, advance_advance _ (by omega), hPad]

def readNumbers (nodeStart : Wire.Cursor) : Reader Unit := do
  let _fhgfsVersion ← readLe 4
  let _nodeNumID ← readLe 2
  let _portUDP ← readLe 2
  let _portTCP ← readLe 2
  let _nodeType ← readLe 1
  alignNode nodeStart

variable {buf : List UInt8}

theorem readLe_bind_of {α : Type} {width : Nat} {f : Nat → Reader α} (h : width ≤ buf.length) :
    (readLe width >>= f) (.of buf) = f (leAt width buf 0) (.of (buf.drop width)) :=
  bind_of_ok (readLe_of h)

theorem readNumbers_of_short (h : buf.length < 11) :
    readNumbers nodeStart (.of buf) = .error .rejected := by
  unfold readNumbers
  by_cases h4 : buf.length < 4
  · exact bind_of_error (readLe_of_short h4)
  rw [readLe_bind_of (by omega)]
  by_cases h6 : buf.length < 6
  · exact bind_of_error (readLe_of_short (by rw [length_drop]; omega))
  rw [readLe_bind_of (by rw [length_drop]; omega), drop_drop]
  by_cases h8 : buf.length < 8
  · exact bind_of_error (readLe_of_short (by rw [length_drop]; omega))
  rw [readLe_bind_of (by rw [length_drop]; omega), drop_drop]
  by_cases h10 : buf.length < 10
  · exact bind_of_error (readLe_of_short (by rw [length_drop]; omega))
  rw [readLe_bind_of (by rw [length_drop]; omega), drop_drop]
  exact bind_of_error (readLe_of_short (by rw [length_drop]; omega))

theorem readNumbers_of (h : 11 ≤ buf.length) :
    readNumbers nodeStart (.of buf) = alignNode nodeStart (.of (buf.drop 11)) := by
  unfold readNumbers
  rw [readLe_bind_of (by omega), readLe_bind_of (by rw [length_drop]; omega),
    drop_drop, readLe_bind_of (by rw [length_drop]; omega), drop_drop,
    readLe_bind_of (by rw [length_drop]; omega), drop_drop,
    readLe_bind_of (by rw [length_drop]; omega), drop_drop]

theorem bitStorePreprocess_of_short (h : node.length < nodeIDPos node) :
    deserializePreprocess (.of node) = .error .rejected := by
  unfold deserializePreprocess
  by_cases hFirst : node.length < 4
  · rw [readLe_of_short hFirst]
  · rw [readLe_of (by omega)]
    exact if_pos h

theorem bitStorePreprocess_of (h : nodeIDPos node ≤ node.length) :
    deserializePreprocess (.of node) = .ok ((), .of (node.drop (nodeIDPos node))) := by
  have hPos := nodeIDPos_bounds node
  unfold deserializePreprocess
  rw [readLe_of (by omega)]
  rw [← advance_of h]
  exact if_neg (not_lt.mpr h)

theorem strAlign4_of_short (h : buf.length < 8) :
    deserializeStrAlign4 (.of buf) = .error .rejected := by
  rw [deserializeStrAlign4_eq, readSpan_eq]
  exact if_pos h

theorem strAlign4_of_wrapped (h : 8 ≤ buf.length)
    (hBuf : buf.length < 2 ^ 32 - 4) (hLen : 2 ^ 32 - 8 ≤ leAt 4 buf 0) :
    deserializeStrAlign4 (.of buf) = .error .outOfBounds := by
  have hLt := leAt_four_lt buf 0
  have hWrapped := serialLenStrAlign4_of_wrapped hLen hLt
  have hShort : ¬ buf.length < serialLenStrAlign4 (leAt 4 buf 0) := by
    split at hWrapped <;> omega
  have hMin : ¬ buf.length < serialLenStrAlign4 0 := not_lt.mpr h
  rw [deserializeStrAlign4_eq, readSpan_eq, of_bufLen, if_neg hMin, readLe_of (by omega)]
  dsimp only
  rw [if_neg hShort, of_mem, getElem?_drop, getElem?_eq_none (by omega)]

theorem strAlign4_of_rejected (h : 8 ≤ buf.length) (hLen : leAt 4 buf 0 < 2 ^ 32 - 8)
    (hRejected : buf.length < serialLenStrAlign4 (leAt 4 buf 0) ∨ buf[4 + leAt 4 buf 0]? ≠ some 0) :
    deserializeStrAlign4 (.of buf) = .error .rejected := by
  have hAligned := @serialLenStrAlign4_eq (leAt 4 buf 0) (by omega)
  have hMin : ¬ buf.length < serialLenStrAlign4 0 := not_lt.mpr h
  rw [deserializeStrAlign4_eq, readSpan_eq, of_bufLen, if_neg hMin, readLe_of (by omega)]
  dsimp only
  by_cases hShort : buf.length < serialLenStrAlign4 (leAt 4 buf 0)
  · rw [if_pos hShort]
  have hTerminator := hRejected.resolve_left hShort
  rw [getElem?_eq_getElem (by omega)] at hTerminator
  rw [if_neg hShort, of_mem, getElem?_drop, getElem?_eq_getElem (by omega)]
  exact if_pos fun hZero => hTerminator (congrArg some hZero)

theorem strAlign4_of (h : 8 ≤ buf.length) (hLen : serialLenStrAlign4 (leAt 4 buf 0) ≤ buf.length)
    (hTerminator : buf[4 + leAt 4 buf 0]? = some 0) :
    deserializeStrAlign4 (.of buf) = .ok ((buf.drop 4).take (leAt 4 buf 0),
      .of (buf.drop (serialLenStrAlign4 (leAt 4 buf 0)))) := by
  have hMin : ¬ buf.length < serialLenStrAlign4 0 := not_lt.mpr h
  rw [deserializeStrAlign4_eq, readSpan_eq, of_bufLen, if_neg hMin, readLe_of (by omega)]
  dsimp only
  rw [if_neg (not_lt.mpr hLen), of_mem, getElem?_drop, hTerminator, ← advance_of hLen]
  exact if_neg (not_not.mpr rfl)

theorem skipNicList_of_rejected
    (h : buf.length < 4 ∨ buf.length < serialLenNicList (leAt 4 buf 0)) :
    skipNicList (.of buf) = .error .rejected := by
  unfold skipNicList
  by_cases hShort : buf.length < 4
  · unfold deserializeNicListPreprocess
    rw [readLe_of_short hShort]
  · rw [nicListPreprocess_of (by omega), if_pos (h.resolve_left hShort)]

theorem skipNicList_of (h : 4 ≤ buf.length) (hLen : serialLenNicList (leAt 4 buf 0) ≤ buf.length) :
    skipNicList (.of buf) = .ok ((), .of (buf.drop (serialLenNicList (leAt 4 buf 0)))) := by
  unfold skipNicList
  rw [nicListPreprocess_of h, if_neg (not_lt.mpr hLen), ← advance_of hLen]

theorem checkNode_cases (hNode : node.length < 2 ^ 32) :
    (checkNode (.of node) = .error .rejected ∧ ¬ NodeAccepted node ∧
      (nodeIDPos node + 8 ≤ node.length → nodeIDLen node < 2 ^ 32 - 8)) ∨
    (checkNode (.of node) = .error .outOfBounds ∧ nodeIDPos node + 8 ≤ node.length ∧
      2 ^ 32 - 8 ≤ nodeIDLen node) ∨
    (checkNode (.of node) = .ok ((), (of node).advance (nodeLen node)) ∧ NodeAccepted node) := by
  have hPos := nodeIDPos_bounds node
  have hGet : checkNode (.of node) = (do
      deserializePreprocess
      let _nodeID ← deserializeStrAlign4
      skipNicList
      readNumbers (.of node)) (.of node) := rfl
  rw [hGet]
  -- the bit store
  by_cases hBits : node.length < nodeIDPos node
  · refine .inl ⟨bind_of_error (bitStorePreprocess_of_short hBits), ?_, by omega⟩
    intro hAccepted
    have hInside := hAccepted.nodeID
    omega
  rw [bind_of_ok (bitStorePreprocess_of (Nat.le_of_not_lt hBits))]
  -- the ID
  have hIDBuf : (node.drop (nodeIDPos node)).length = node.length - nodeIDPos node := length_drop
  have hIDLen : leAt 4 (node.drop (nodeIDPos node)) 0 = nodeIDLen node := leAt_drop _ _ _ _
  have hIDEnd : (node.drop (nodeIDPos node))[4 + nodeIDLen node]? =
      node[nodeIDPos node + 4 + nodeIDLen node]? := by
    rw [getElem?_drop, add_assoc]
  by_cases hShort : node.length < nodeIDPos node + 8
  · refine .inl ⟨bind_of_error (strAlign4_of_short (by omega)), ?_, by omega⟩
    intro hAccepted
    have hInside := hAccepted.nodeID
    omega
  by_cases hWrapped : 2 ^ 32 - 8 ≤ nodeIDLen node
  · refine .inr (.inl ⟨bind_of_error ?_, by omega, hWrapped⟩)
    exact strAlign4_of_wrapped (by omega) (by omega) (hIDLen.symm ▸ hWrapped)
  have hIDFits : nodeIDPos node + 8 ≤ node.length → nodeIDLen node < 2 ^ 32 - 8 := by omega
  have hNicsPos : nicListPos node = nodeIDPos node + serialLenStrAlign4 (nodeIDLen node) := rfl
  by_cases hID : node.length < nicListPos node ∨ node[nodeIDPos node + 4 + nodeIDLen node]? ≠ some 0
  · refine .inl ⟨bind_of_error ?_, ?_, hIDFits⟩
    · apply strAlign4_of_rejected (by omega) (by omega)
      rw [hIDLen, hIDEnd, hIDBuf]
      exact hID.imp (by omega) id
    · intro hAccepted
      have hInside := hAccepted.inside
      have hEnd : nodeEnd node = nicListPos node + serialLenNicList (nicNum node) + 11 := rfl
      rcases hID with hID | hID
      · omega
      · exact hID hAccepted.terminated
  rw [not_or, not_not] at hID
  rw [bind_of_ok (strAlign4_of (by omega) (by rw [hIDLen]; omega) (by rw [hIDLen, hIDEnd, hID.2])),
    hIDLen, drop_drop, ← hNicsPos]
  -- the list of interfaces
  have hNicsBuf : (node.drop (nicListPos node)).length = node.length - nicListPos node :=
    length_drop
  have hNum : leAt 4 (node.drop (nicListPos node)) 0 = nicNum node := leAt_drop _ _ _ _
  have hEnd : nodeEnd node = nicListPos node + serialLenNicList (nicNum node) + 11 := rfl
  have hNotAccepted : node.length < nodeEnd node → ¬ NodeAccepted node := by
    intro hOutside hAccepted
    have hInside := hAccepted.inside
    omega
  by_cases hNics : node.length < nicListPos node + 4 ∨
      node.length < nicListPos node + serialLenNicList (nicNum node)
  · refine .inl ⟨bind_of_error (skipNicList_of_rejected ?_), hNotAccepted (by omega), hIDFits⟩
    rw [hNum]
    omega
  rw [bind_of_ok (skipNicList_of (by omega) (by rw [hNum]; omega)), hNum, drop_drop]
  -- the numbers
  have hNumbersBuf : (node.drop (nicListPos node + serialLenNicList (nicNum node))).length =
      node.length - (nicListPos node + serialLenNicList (nicNum node)) := length_drop
  by_cases hNumbers : node.length < nodeEnd node
  · exact .inl ⟨readNumbers_of_short (by omega), hNotAccepted hNumbers, hIDFits⟩
  refine .inr (.inr ⟨?_, by omega, by omega, by omega, hID.2⟩)
  rw [readNumbers_of (by omega), drop_drop, ← hEnd, ← advance_of (by omega)]
  exact alignNode_of (by rw [of_bufLen]; omega) (nodeEnd_lt node)

end CheckNode

/-! ## The first pass -/

/-- The check of the nodes stays inside of the buffer. -/
def NodesChecked : Nat → List UInt8 → Prop
  | 0, _ => True
  | elemNum + 1, node =>
    (nodeIDPos node + 8 ≤ node.length → nodeIDLen node < 2 ^ 32 - 8) ∧
      (NodeAccepted node → (elemNum = 0 ∨ nodeLen node ≤ node.length) ∧
        NodesChecked elemNum (node.drop (nodeLen node)))

def NodesAccepted : Nat → List UInt8 → Prop
  | 0, _ => True
  | elemNum + 1, node => NodeAccepted node ∧ nodeLen node ≤ node.length ∧
      NodesAccepted elemNum (node.drop (nodeLen node))

def AllNodes (P : List UInt8 → Prop) : Nat → List UInt8 → Prop
  | 0, _ => True
  | elemNum + 1, node => P node ∧ AllNodes P elemNum (node.drop (nodeLen node))

variable {elemNum : Nat}

theorem AllNodes.and {P Q : List UInt8 → Prop} {node : List UInt8}
    (hP : AllNodes P elemNum node) (hQ : AllNodes Q elemNum node) :
    AllNodes (fun node => P node ∧ Q node) elemNum node := by
  induction elemNum generalizing node with
  | zero => trivial
  | succ elemNum ih => exact ⟨⟨hP.1, hQ.1⟩, ih hP.2 hQ.2⟩

section

variable {c : Wire.Cursor} (hMem : c.mem = []) (hLen : 4 ≤ c.bufLen)
include hMem hLen

theorem checkNode_behind : checkNode c = .error .outOfBounds := by
  have hGet : checkNode c = (do
      deserializePreprocess
      let _nodeID ← deserializeStrAlign4
      skipNicList
      readNumbers c) c := rfl
  rw [hGet]
  apply bind_of_error
  have hRead : readLe 4 c = .error .outOfBounds := by
    rw [readLe, if_neg (not_lt.mpr hLen), hMem]
    exact if_pos (Nat.zero_lt_succ 3)
  unfold deserializePreprocess
  rw [hRead]

theorem checkNodes_behind (hNum : elemNum ≠ 0) : checkNodes elemNum c = .error .outOfBounds := by
  obtain ⟨elemNum, rfl⟩ := Nat.exists_eq_succ_of_ne_zero hNum
  exact bind_of_error (checkNode_behind hMem hLen)

end

variable {buf : List UInt8}

theorem advance_behind {n : Nat} (h : buf.length < n) (hLen : n ≤ 2 ^ 64 - 4) :
    ((of buf).advance n).mem = [] ∧ 4 ≤ ((of buf).advance n).bufLen := by
  refine ⟨drop_eq_nil_of_le (le_of_lt h), ?_⟩
  unfold advance
  rw [of_bufLen, if_neg (not_le.mpr h)]
  dsimp only
  omega

section

variable {node : List UInt8}

theorem nodeLen_bounds (h : NodeAccepted node) : nodeLen node ≤ node.length + 7 := by
  have hInside := h.inside
  unfold nodeLen
  omega

theorem checkNodes_inside_iff (elemNum : Nat) (hNode : node.length < 2 ^ 32) :
    checkNodes elemNum (.of node) ≠ .error .outOfBounds ↔ NodesChecked elemNum node := by
  induction elemNum generalizing node with
  | zero => exact iff_of_true nofun trivial
  | succ elemNum ih =>
    rw [checkNodes, NodesChecked]
    rcases checkNode_cases hNode with ⟨hRun, hRejected, hID⟩ | ⟨hRun, hInside, hID⟩ | ⟨hRun, hOk⟩
    · rw [bind_of_error hRun]
      exact iff_of_true nofun ⟨hID, fun h => absurd h hRejected⟩
    · rw [bind_of_error hRun]
      apply iff_of_false (fun h => h rfl)
      rintro ⟨hFits, -⟩
      omega
    rw [bind_of_ok hRun]
    have hLen := nodeLen_bounds hOk
    have hIDLen := hOk.idLen
    by_cases hEnd : nodeLen node ≤ node.length
    · rw [advance_of hEnd, ih (by rw [length_drop]; omega)]
      constructor
      · intro hChecked
        exact ⟨fun _ => hIDLen, fun _ => ⟨.inr hEnd, hChecked⟩⟩
      · rintro ⟨-, hChecked⟩
        exact (hChecked hOk).2
    by_cases hLast : elemNum = 0
    · subst hLast
      exact iff_of_true nofun ⟨fun _ => hIDLen, fun _ => ⟨.inl rfl, trivial⟩⟩
    · obtain ⟨hMem, hTold⟩ := advance_behind (Nat.lt_of_not_le hEnd) (by omega)
      rw [checkNodes_behind hMem hTold hLast]
      apply iff_of_false (fun h => h rfl)
      rintro ⟨-, hChecked⟩
      have hBegin := (hChecked hOk).1
      omega

theorem checkNodes_ok {c : Wire.Cursor} (hNode : node.length < 2 ^ 32)
    (h : checkNodes elemNum (.of node) = .ok ((), c)) :
    ∃ total ≤ node.length + 7, c = (of node).advance total ∧
      (total ≤ node.length → NodesAccepted elemNum node) := by
  induction elemNum generalizing node with
  | zero =>
    refine ⟨0, by omega, ?_, fun _ => trivial⟩
    rw [advance_of (Nat.zero_le _), drop_zero]
    exact (Prod.mk.inj (Except.ok.inj h)).2.symm
  | succ elemNum ih =>
    rw [checkNodes] at h
    rcases checkNode_cases hNode with ⟨hRun, -⟩ | ⟨hRun, -⟩ | ⟨hRun, hOk⟩
    · rw [bind_of_error hRun] at h
      cases h
    · rw [bind_of_error hRun] at h
      cases h
    rw [bind_of_ok hRun] at h
    have hLen := nodeLen_bounds hOk
    by_cases hEnd : nodeLen node ≤ node.length
    · rw [advance_of hEnd] at h
      obtain ⟨total, hTotal, hStop, hAccepted⟩ := ih (by rw [length_drop]; omega) h
      rw [length_drop] at hTotal hAccepted
      refine ⟨nodeLen node + total, by omega, ?_, ?_⟩
      · rw [hStop, ← advance_of hEnd, advance_advance _ (by omega)]
      · intro hInside
        exact ⟨hOk, hEnd, hAccepted (by omega)⟩
    by_cases hLast : elemNum = 0
    · subst hLast
      refine ⟨nodeLen node, hLen, ?_, fun hInside => absurd hInside hEnd⟩
      exact (Prod.mk.inj (Except.ok.inj h)).2.symm
    · obtain ⟨hMem, hTold⟩ := advance_behind (Nat.lt_of_not_le hEnd) (by omega)
      rw [checkNodes_behind hMem hTold hLast] at h
      cases h

theorem checkNodes_of_accepted (hNode : node.length < 2 ^ 32) (h : NodesAccepted elemNum node) :
    ∃ total ≤ node.length,
      checkNodes elemNum (.of node) = .ok ((), (of node).advance total) := by
  induction elemNum generalizing node with
  | zero => exact ⟨0, Nat.zero_le _, by rw [advance_zero]; rfl⟩
  | succ elemNum ih =>
    obtain ⟨hOk, hEnd, hRest⟩ := h
    obtain ⟨total, hTotal, hRun⟩ := ih (by rw [length_drop]; omega) hRest
    rw [length_drop] at hTotal
    refine ⟨nodeLen node + total, by omega, ?_⟩
    rcases checkNode_cases hNode with ⟨-, hRejected, -⟩ | ⟨-, -, hID⟩ | ⟨hCheck, -⟩
    · exact absurd hOk hRejected
    · have hFits := hOk.idLen
      omega
    · rw [← advance_of hEnd, advance_advance _ (by omega)] at hRun
      rw [checkNodes, bind_of_ok hCheck, advance_of hEnd, ← hRun, advance_of hEnd]

end

theorem nodeListPreprocess_eq (h : 4 ≤ buf.length) :
    deserializeNodeListPreprocess (.of buf) =
      match checkNodes (leAt 4 buf 0) ((of buf).advance 8) with
      | .error e => .error e
      | .ok (_, behind) =>
        if buf.length < (of buf).moved behind then .error .rejected
        else .ok ⟨leAt 4 buf 0, buf.drop 8, (of buf).moved behind % 2 ^ 32⟩ := by
  unfold deserializeNodeListPreprocess
  rw [readLe_of h, ← advance_of h]
  dsimp only
  rw [advance_advance _ (by omega)]
  rfl

theorem nodeListPreprocess_of_short (h : buf.length < 4) :
    deserializeNodeListPreprocess (.of buf) = .error .rejected := by
  unfold deserializeNodeListPreprocess
  rw [readLe_of_short h]

theorem nodeListPreprocess_ok {info : VectorInfo}
    (hBuf : buf.length < 2 ^ 32) (h : deserializeNodeListPreprocess (.of buf) = .ok info) :
    8 ≤ info.vecBufLen ∧ info.vecBufLen ≤ buf.length ∧ info.elemNum = leAt 4 buf 0 ∧
      info.vecStart = buf.drop 8 ∧ NodesAccepted (leAt 4 buf 0) (buf.drop 8) := by
  by_cases hShort : buf.length < 4
  · rw [nodeListPreprocess_of_short hShort] at h
    cases h
  rw [nodeListPreprocess_eq (by omega)] at h
  have hTold : (of buf).bufLen < 2 ^ 64 := by
    rw [of_bufLen]
    omega
  by_cases hStart : 8 ≤ buf.length
  · cases hRun : checkNodes (leAt 4 buf 0) ((of buf).advance 8) with
    | error e =>
      rw [hRun] at h
      cases h
    | ok p =>
      rw [hRun] at h
      rw [advance_of hStart] at hRun
      obtain ⟨total, hTotal, hStop, hAccepted⟩ := checkNodes_ok (by rw [length_drop]; omega) hRun
      rw [length_drop] at hTotal hAccepted
      have hMoved : (of buf).moved p.2 = 8 + total := by
        rw [hStop, ← advance_of hStart, advance_advance _ (by omega),
          moved_advance hTold (by omega)]
      dsimp only at h
      rw [hMoved] at h
      by_cases hInside : buf.length < 8 + total
      · rw [if_pos hInside] at h
        cases h
      rw [if_neg hInside] at h
      obtain rfl := Except.ok.inj h
      refine ⟨?_, ?_, rfl, rfl, hAccepted (by omega)⟩
      · dsimp only
        omega
      · dsimp only
        omega
  · by_cases hNone : leAt 4 buf 0 = 0
    · rw [hNone] at h
      have hMoved := moved_advance (n := 8) hTold (by omega)
      change (if buf.length < (of buf).moved ((of buf).advance 8) then _ else _) = _
        at h
      rw [hMoved, if_pos (by omega)] at h
      cases h
    · obtain ⟨hMem, hLen⟩ := @advance_behind buf 8 (by omega) (by omega)
      rw [checkNodes_behind hMem hLen hNone] at h
      cases h

theorem nodeListPreprocess_of_accepted (hBuf : buf.length < 2 ^ 32)
    (hStart : 8 ≤ buf.length) (h : NodesAccepted (leAt 4 buf 0) (buf.drop 8)) :
    ∃ outLen, deserializeNodeListPreprocess (.of buf) = .ok ⟨leAt 4 buf 0, buf.drop 8, outLen⟩ := by
  obtain ⟨total, hTotal, hRun⟩ := checkNodes_of_accepted (by rw [length_drop]; omega) h
  rw [length_drop] at hTotal
  rw [← advance_of hStart, advance_advance _ (by omega)] at hRun
  have hTold : (of buf).bufLen < 2 ^ 64 := by
    rw [of_bufLen]
    omega
  rw [nodeListPreprocess_eq (by omega), hRun]
  dsimp only
  rw [moved_advance hTold (by omega), if_neg (by omega)]
  exact ⟨_, rfl⟩

theorem nodeListPreprocess_inside_iff (hBuf : buf.length < 2 ^ 32) :
    deserializeNodeListPreprocess (.of buf) ≠ .error .outOfBounds ↔
      (4 ≤ buf.length → (leAt 4 buf 0 ≠ 0 → 8 ≤ buf.length) ∧
        NodesChecked (leAt 4 buf 0) (buf.drop 8)) := by
  by_cases hShort : buf.length < 4
  · rw [nodeListPreprocess_of_short hShort]
    exact iff_of_true nofun fun h => absurd h (not_le.mpr hShort)
  have hError : deserializeNodeListPreprocess (.of buf) ≠ .error .outOfBounds ↔
      checkNodes (leAt 4 buf 0) ((of buf).advance 8) ≠ .error .outOfBounds := by
    rw [nodeListPreprocess_eq (by omega)]
    cases checkNodes (leAt 4 buf 0) ((of buf).advance 8) with
    | error e =>
      refine not_congr ⟨?_, ?_⟩
      · rintro ⟨⟩
        rfl
      · rintro ⟨⟩
        rfl
    | ok p =>
      dsimp only
      apply iff_of_true _ nofun
      split <;> exact nofun
  rw [hError]
  by_cases hStart : 8 ≤ buf.length
  · rw [advance_of hStart, checkNodes_inside_iff _ (by rw [length_drop]; omega)]
    constructor
    · intro hChecked _
      exact ⟨fun _ => hStart, hChecked⟩
    · intro hFits
      exact (hFits (by omega)).2
  by_cases hNone : leAt 4 buf 0 = 0
  · rw [hNone]
    exact iff_of_true nofun fun _ => ⟨(absurd rfl ·), trivial⟩
  · obtain ⟨hMem, hLen⟩ := @advance_behind buf 8 (by omega) (by omega)
    rw [checkNodes_behind hMem hLen hNone]
    apply iff_of_false (fun h => h rfl)
    intro hFits
    exact hStart ((hFits (by omega)).1 hNone)

/-! ## The second pass -/

/-- The number of bits of a store that was set to this size is not 0. -/
def BitsFit (node : List UInt8) : Prop := leAt 4 node 0 ≤ 2 ^ 32 - 64

def NicsFit (node : List UInt8) : Prop := 4 + nicNum node * 24 < 2 ^ 32

theorem blockCount_setSize {malloc : Nat → UInt64} {size : Nat} (h : size ≤ 2 ^ 32 - 64) :
    calculateBitBlockCount (init.setSize malloc size).numBits = calculateBitBlockCount size := by
  have hInit : calculateBitBlockCount init.numBits = 1 := rfl
  unfold setSize
  rw [hInit]
  by_cases hOne : calculateBitBlockCount size = 1
  · rw [if_neg (not_not.mpr hOne), hOne]
    rfl
  rw [if_pos hOne]
  have hBounds := @bitBlockCount_bounds size (by omega)
  have hLt : calculateBitBlockCount size ≤ 2 ^ 26 - 1 := by
    unfold calculateBitBlockCount
    split
    · omega
    · split <;> omega
  dsimp only
  rw [Nat.mod_eq_of_lt (by omega), calculateBitBlockCount, if_neg (by omega),
    if_neg (by omega), Nat.mul_div_cancel _ (by omega)]

section SecondPass

variable {malloc : Nat → UInt64} {c : Wire.Cursor} {p : Nat}

theorem bitStore_moves (hBits : BitsFit c.mem) (hLen : nodeIDPos c.mem ≤ c.mem.length)
    (hMax : c.mem.length ≤ 2 ^ 64) :
    Moves (BitStore.init.deserialize malloc) c 0 (nodeIDPos c.mem) := by
  have hBounds := bitBlockCount_bounds (leAt_four_lt c.mem 0)
  have hPos : nodeIDPos c.mem =
      0 + 4 + 4 + 8 + 8 * (BitStore.calculateBitBlockCount (leAt 4 c.mem 0) - 1) := by
    unfold nodeIDPos
    omega
  rw [hPos] at hLen ⊢
  apply Moves.bind_of (Moves.peekLe_eq (by omega) (by omega))
  apply Moves.bind (.skip (by omega))
  intro _
  dsimp only
  rw [blockCount_setSize hBits]
  apply Moves.bind (.peekLe (by omega) (by omega))
  intro lowerBits
  apply Moves.bind (readMany_moves (fun _ => Moves.peekLe) (le_refl 8) _ hLen hMax)
  intro blocks
  exact .pure _

theorem peekStrAlign4_moves (hTerminator : c.mem[p + 4 + leAt 4 c.mem p]? = some 0)
    (hMax : p + 2 ^ 32 ≤ 2 ^ 64) :
    Moves peekStrAlign4 c p (p + serialLenStrAlign4 (leAt 4 c.mem p)) := by
  have hInside := (List.getElem?_eq_some_iff.mp hTerminator).1
  have hAligned := serialLenStrAlign4_lt (leAt 4 c.mem p)
  have hByte : (c.advance (p + 4)).mem[leAt 4 c.mem p]? = some 0 := by
    rw [← hTerminator]
    exact List.getElem?_drop
  unfold Moves peekStrAlign4
  have hStop : (c.advance p).advance (serialLenStrAlign4 (leAt 4 c.mem p)) =
      c.advance (p + serialLenStrAlign4 (leAt 4 c.mem p)) := c.advance_advance (by omega)
  rw [Moves.peekLe_eq (by omega) (by omega), ← hStop]
  dsimp only
  rw [hByte]
  rw [readCStr_of hByte]
  exact ⟨_, rfl⟩

theorem peekNicList_moves (hFits : 4 + leAt 4 c.mem p * 24 < 2 ^ 32)
    (hLen : p + serialLenNicList (leAt 4 c.mem p) ≤ c.mem.length)
    (hMax : c.mem.length ≤ 2 ^ 64) :
    Moves peekNicList c p (p + serialLenNicList (leAt 4 c.mem p)) := by
  have hSerialLen : serialLenNicList (leAt 4 c.mem p) = 4 + leAt 4 c.mem p * 24 :=
    Nat.mod_eq_of_lt hFits
  obtain ⟨nics, hNics⟩ := readNics_moves (p := p + 4) (leAt 4 c.mem p) (by omega) hMax
  unfold Moves peekNicList
  have hStop : (c.advance p).advance (serialLenNicList (leAt 4 c.mem p)) =
      c.advance (p + serialLenNicList (leAt 4 c.mem p)) := c.advance_advance (by omega)
  rw [peekLe_eq (by omega) (by omega), ← hStop]
  dsimp only
  rw [hNics]
  exact ⟨_, rfl⟩

theorem peekNicList_outOfBounds (hFits : ¬ 4 + leAt 4 c.mem p * 24 < 2 ^ 32)
    (hLen : p + 4 ≤ c.mem.length) (hMax : c.mem.length < 2 ^ 32) :
    peekNicList (c.advance p) = .error .outOfBounds := by
  unfold peekNicList
  rw [peekLe_eq (by omega) (by omega)]
  dsimp only
  rw [readNics_outOfBounds _ (by omega) hLen (by omega)]

section

variable (hAccepted : NodeAccepted c.mem) (hBits : BitsFit c.mem)
include hAccepted hBits

theorem deserializeNode_eq (hMax : c.mem.length ≤ 2 ^ 64 - 2 ^ 32) :
    ∃ nodeFeatureFlags nodeID, deserializeNode malloc c = (do
      let nicList ← peekNicList
      let fhgfsVersion ← peekLe 4
      let nodeNumID ← peekLe 2
      let portUDP ← peekLe 2
      let portTCP ← peekLe 2
      let nodeType ← peekLe 1
      alignNode c
      pure (Node.construct malloc nodeID (UInt16.ofNat nodeNumID) (UInt16.ofNat portUDP)
        (UInt16.ofNat portTCP) nicList (UInt8.ofNat nodeType) (UInt32.ofNat fhgfsVersion)
        nodeFeatureFlags)) (c.advance (nicListPos c.mem)) := by
  have hInside := hAccepted.nodeID
  obtain ⟨nodeFeatureFlags, hFlags⟩ := @bitStore_moves malloc _ hBits (by omega) (by omega)
  obtain ⟨nodeID, hNodeID⟩ :=
    peekStrAlign4_moves (p := nodeIDPos c.mem) hAccepted.terminated (by omega)
  refine ⟨nodeFeatureFlags, nodeID, ?_⟩
  rw [advance_zero] at hFlags
  have hGet : (get : Reader Wire.Cursor) c = .ok (c, c) := rfl
  unfold deserializeNode
  rw [bind_of_ok hGet, bind_of_ok hFlags, bind_of_ok hNodeID]
  rfl

theorem deserializeNode_moves
    (hNics : NicsFit c.mem) (hTold : c.bufLen < 2 ^ 64) (hMax : c.mem.length < 2 ^ 32) :
    Moves (deserializeNode malloc) c 0 (nodeLen c.mem) := by
  have hInside := hAccepted.inside
  have hEnd : nodeEnd c.mem =
      nicListPos c.mem + serialLenNicList (leAt 4 c.mem (nicListPos c.mem)) + 11 := rfl
  obtain ⟨nodeFeatureFlags, nodeID, hRun⟩ := @deserializeNode_eq malloc _ hAccepted hBits (by omega)
  unfold Moves
  rw [Cursor.advance_zero, hRun]
  apply Moves.bind (peekNicList_moves hNics (by omega) (by omega))
  intro nicList
  apply Moves.bind (.peekLe (by omega) (by omega))
  intro fhgfsVersion
  apply Moves.bind (.peekLe (by omega) (by omega))
  intro nodeNumID
  apply Moves.bind (.peekLe (by omega) (by omega))
  intro portUDP
  apply Moves.bind (.peekLe (by omega) (by omega))
  intro portTCP
  apply Moves.bind (.peekLe (by omega) (by omega))
  intro nodeType
  have hAlign := @alignNode_of _ (nodeEnd c.mem) hTold (nodeEnd_lt _)
  exact Moves.bind_of (q := nodeLen c.mem) hAlign (.pure _)

theorem deserializeNode_outOfBounds (hNics : ¬ NicsFit c.mem) (hMax : c.mem.length < 2 ^ 32) :
    deserializeNode malloc c = .error .outOfBounds := by
  have hInside := hAccepted.inside
  have hEnd : nodeEnd c.mem =
      nicListPos c.mem + serialLenNicList (leAt 4 c.mem (nicListPos c.mem)) + 11 := rfl
  obtain ⟨nodeFeatureFlags, nodeID, hRun⟩ := @deserializeNode_eq malloc _ hAccepted hBits (by omega)
  rw [hRun]
  exact bind_outOfBounds _ (peekNicList_outOfBounds hNics (by omega) hMax)

end

section

variable {elemNum : Nat} (hAccepted : NodesAccepted elemNum c.mem)
include hAccepted

theorem readNodes_inside (hFits : AllNodes (fun node => BitsFit node ∧ NicsFit node) elemNum c.mem)
    (hTold : c.bufLen < 2 ^ 64) (hMax : c.mem.length < 2 ^ 32) :
    readMany (deserializeNode malloc) elemNum c ≠ .error .outOfBounds := by
  induction elemNum generalizing c with
  | zero => exact nofun
  | succ elemNum ih =>
    obtain ⟨hNode, -, hRest⟩ := hAccepted
    obtain ⟨node, hRead⟩ := deserializeNode_moves hNode hFits.1.1 hFits.1.2 hTold hMax
    rw [Cursor.advance_zero] at hRead
    have hNodes := ih (c := c.advance (nodeLen c.mem)) hRest hFits.2
      (Cursor.bufLen_advance_lt _ hTold) (by rw [c.length_advance]; omega)
    rw [readMany, bind_of_ok hRead]
    cases hRun : readMany (deserializeNode malloc) elemNum (c.advance (nodeLen c.mem)) with
    | error e =>
      rw [bind_of_error hRun]
      rw [hRun] at hNodes
      rintro ⟨⟩
      exact hNodes rfl
    | ok res =>
      rw [bind_of_ok hRun]
      exact nofun

theorem readNodes_outOfBounds
    (hBits : AllNodes BitsFit elemNum c.mem) (hNics : ¬ AllNodes NicsFit elemNum c.mem)
    (hTold : c.bufLen < 2 ^ 64) (hMax : c.mem.length < 2 ^ 32) :
    readMany (deserializeNode malloc) elemNum c = .error .outOfBounds := by
  induction elemNum generalizing c with
  | zero => exact absurd trivial hNics
  | succ elemNum ih =>
    obtain ⟨hNode, -, hRest⟩ := hAccepted
    rw [readMany]
    by_cases hFits : NicsFit c.mem
    · obtain ⟨node, hRead⟩ := @deserializeNode_moves malloc _ hNode hBits.1 hFits hTold hMax
      rw [Cursor.advance_zero] at hRead
      rw [bind_of_ok hRead]
      apply bind_outOfBounds
      apply ih hRest hBits.2 _ (Cursor.bufLen_advance_lt _ hTold)
      · rw [c.length_advance]
        omega
      · exact fun hAll => hNics ⟨hFits, hAll⟩
    · exact bind_outOfBounds _ (deserializeNode_outOfBounds hNode hBits.1 hFits hMax)

end

end SecondPass

/-! ## Both passes -/

/-- The condition on a buffer: the nodes that the first pass goes through begin inside of it and
have no ID of nearly 2^32 bytes, and when they are all accepted, none has a list of interfaces of
2^32 bytes or a bit store of more than 2^32 - 64 bits. -/
structure NodeListFits (buf : List UInt8) : Prop where
  begin : 4 ≤ buf.length → leAt 4 buf 0 ≠ 0 → 8 ≤ buf.length
  checked : 4 ≤ buf.length → NodesChecked (leAt 4 buf 0) (buf.drop 8)
  read : 4 ≤ buf.length → NodesAccepted (leAt 4 buf 0) (buf.drop 8) →
    AllNodes (fun node => BitsFit node ∧ NicsFit node) (leAt 4 buf 0) (buf.drop 8)

theorem length_of_nodeListPreprocess {info : VectorInfo}
    (h : deserializeNodeListPreprocess (.of buf) = .ok info) : 4 ≤ buf.length := by
  by_contra hShort
  rw [nodeListPreprocess_of_short (by omega)] at h
  cases h

section

variable {malloc : Nat → UInt64} (hBuf : buf.length < 2 ^ 32)
include hBuf

theorem nodeList_contained (h : NodeListFits buf) : (nodeListDecoder malloc).Contained 8 buf := by
  constructor
  · apply (nodeListPreprocess_inside_iff hBuf).mpr
    intro hLen
    exact ⟨h.begin hLen, h.checked hLen⟩
  · intro info hInfo
    obtain ⟨hHeader, hInside, hNum, hStart, hAccepted⟩ := nodeListPreprocess_ok hBuf hInfo
    refine ⟨hHeader, hInside, ?_⟩
    have hFits := h.read (length_of_nodeListPreprocess hInfo) hAccepted
    rw [← hNum, ← hStart] at hFits hAccepted
    have hMax : info.vecStart.length < 2 ^ 32 := by
      rw [hStart, length_drop]
      omega
    have hRead := @readNodes_inside malloc ⟨info.vecStart, 2 ^ 64 - 1⟩ _ hAccepted
      hFits (by dsimp only; omega) hMax
    show deserializeNodeList malloc info ≠ _
    unfold deserializeNodeList
    cases hRun : readMany (deserializeNode malloc) info.elemNum ⟨info.vecStart, 2 ^ 64 - 1⟩ with
    | error e =>
      rw [hRun] at hRead
      rintro ⟨⟩
      exact hRead rfl
    | ok res => exact nofun

theorem nodeListFits_of_contained (h : (nodeListDecoder malloc).Contained 8 buf)
    (hBits : AllNodes BitsFit (leAt 4 buf 0) (buf.drop 8)) : NodeListFits buf := by
  have hChecked := (nodeListPreprocess_inside_iff hBuf).mp h.checked
  constructor
  · exact fun hLen => (hChecked hLen).1
  · exact fun hLen => (hChecked hLen).2
  · intro hLen hAccepted
    rcases Nat.eq_zero_or_pos (leAt 4 buf 0) with hNone | hSome
    · rw [hNone]
      trivial
    have hStart := (hChecked hLen).1 (by omega)
    obtain ⟨outLen, hInfo⟩ := nodeListPreprocess_of_accepted hBuf hStart hAccepted
    apply hBits.and
    by_contra hNics
    apply (h.read _ hInfo).2.2
    show deserializeNodeList malloc _ = _
    unfold deserializeNodeList
    rw [readNodes_outOfBounds (c := ⟨buf.drop 8, 2 ^ 64 - 1⟩) hAccepted hBits hNics
      (by dsimp only; omega) (by dsimp only; rw [length_drop]; omega)]
    rfl

end

end Fhgfs.Serialization
