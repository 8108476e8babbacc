import Fhgfs.Lib.Run
import Fhgfs.Lib.SparseFile
import Fhgfs.Lib.Wire

/-!
# DiskList

The list of malformed chunks in a file, as records of a length and an item. An item is appended
at the position of the descriptor, which a clear leaves alone, and a cursor has a position of its
own. All I/O succeeds.

* `walk_throughout`: the walks of a run that appends at the end of the file only.
-/

namespace Fhgfs.Fsck

open Wire Run List SparseFile

/-- The serialization of the items. -/
structure DiskItem (Data : Type) where
  serialize : Data → List UInt8
  deserialize : List UInt8 → Option Data
  size : ∀ data, (serialize data).length < 2 ^ 64
  inverse : ∀ data, deserialize (serialize data) = some data

/-- The file, and the position of the descriptor. -/
structure DiskList where
  content : SparseFile UInt8
  pos : Nat
deriving DecidableEq

inductive DiskListOp (Data : Type)
  | append (data : Data)
  | clear
  | reopen
  | walk

inductive DiskListStep (Data : Type)
  | ended
  | thrown
  | item (data : Data) (offset : Nat)

variable {Data : Type} (item : DiskItem Data)

namespace DiskListCursor

/-- `step` of a cursor at an offset, with the new offset. -/
def step (content : SparseFile UInt8) (offset : Nat) : DiskListStep Data :=
  let itemLen := content.pread 8 offset
  if itemLen.length = 0 then .ended
  else if itemLen.length < 8 then .thrown
  else
    let itemBuf := content.pread (ofLeBytes itemLen) (offset + 8)
    if itemBuf.length < ofLeBytes itemLen then .thrown
    else match item.deserialize itemBuf with
      | none => .thrown
      | some data => .item data (offset + (8 + ofLeBytes itemLen))

/-- The items up to the end, none if a step throws. -/
def walkFrom (content : SparseFile UInt8) : Nat → Nat → Option (List Data)
  | 0, _ => none
  | fuel + 1, offset =>
    match step item content offset with
    | .ended => some []
    | .thrown => none
    | .item data offset => (walkFrom content fuel offset).map (data :: ·)

end DiskListCursor

namespace DiskList

def create : DiskList := ⟨[], 0⟩

def append (data : Data) (l : DiskList) : DiskList :=
  let buffer := item.serialize data
  { content := (l.content.pwrite (leBytes 8 buffer.length) l.pos).pwrite buffer (l.pos + 8)
    pos := l.pos + (8 + buffer.length) }

def clear (l : DiskList) : DiskList := { l with content := l.content.ftruncate 0 }

def reopen (l : DiskList) : DiskList := { l with pos := 0 }

/-- A complete walk. A step needs 8 bytes or ends it. -/
def walk (l : DiskList) : Option (List Data) :=
  DiskListCursor.walkFrom item l.content (l.content.length + 1) 0

/-- A step, with the items that were appended since the last clear. -/
def step (s : DiskList × List Data) : DiskListOp Data → DiskList × List Data
  | .append data => (s.1.append item data, s.2 ++ [data])
  | .clear => (s.1.clear, [])
  | .reopen => (s.1.reopen, s.2)
  | .walk => s

def WalksItems (s : DiskList × List Data) : Prop := s.1.walk item = some s.2

/-- An append is at the end of the file. -/
def AtEnd (s : DiskList × List Data) : DiskListOp Data → Prop
  | .append _ => s.1.pos = s.1.content.length
  | _ => True

/-! ## Records -/

def record (data : Data) : List UInt8 :=
  leBytes 8 (item.serialize data).length ++ item.serialize data

def records (items : List Data) : List UInt8 := items.flatMap (record item)

theorem step_record {content : SparseFile UInt8} {offset : Nat} {data : Data} {rest : List UInt8}
    (h : content.drop offset = record item data ++ rest) :
    DiskListCursor.step item content offset = .item data (offset + (record item data).length) := by
  have hHead : content.pread 8 offset = leBytes 8 (item.serialize data).length := by
    rw [pread, h, record, append_assoc, take_left' (length_leBytes _ _)]
  have hLen : ofLeBytes (leBytes 8 (item.serialize data).length) = (item.serialize data).length :=
    ofLeBytes_leBytes (item.size data)
  have hBuf : content.pread (item.serialize data).length (offset + 8) = item.serialize data := by
    rw [pread, ← drop_drop, h, record, append_assoc, drop_left' (length_leBytes _ _), take_left]
  unfold DiskListCursor.step
  simp only [hHead, hLen, hBuf, length_leBytes, item.inverse, record, length_append,
    lt_irrefl, if_false]
  rfl

theorem walkFrom_records {content : SparseFile UInt8} {items : List Data} {fuel offset : Nat}
    (h : content.drop offset = records item items) (hFuel : (records item items).length < fuel) :
    DiskListCursor.walkFrom item content fuel offset = some items := by
  induction items generalizing fuel offset with
  | nil =>
    obtain ⟨fuel, rfl⟩ := Nat.exists_eq_add_one_of_ne_zero (Nat.ne_zero_of_lt hFuel)
    have hEnded : DiskListCursor.step item content offset = .ended := by
      unfold DiskListCursor.step
      rw [pread, h]
      rfl
    rw [DiskListCursor.walkFrom, hEnded]
  | cons data items ih =>
    obtain ⟨fuel, rfl⟩ := Nat.exists_eq_add_one_of_ne_zero (Nat.ne_zero_of_lt hFuel)
    have hRecords : records item (data :: items) = record item data ++ records item items := rfl
    rw [hRecords] at h hFuel
    have hSome : 0 < (record item data).length := by
      rw [record, length_append, length_leBytes]
      omega
    rw [DiskListCursor.walkFrom, step_record item h]
    dsimp only
    rw [ih]
    · rfl
    · rw [← drop_drop, h, drop_left]
    · rw [length_append] at hFuel
      omega

theorem walk_of_records {s : DiskList × List Data} (h : s.1.content = records item s.2) :
    WalksItems item s := by
  apply walkFrom_records
  · exact h
  · rw [h]
    exact Nat.lt_succ_self _

theorem content_append {l : DiskList} {data : Data} (h : l.pos = l.content.length) :
    (l.append item data).content = l.content ++ record item data := by
  have hBoth := pwrite_pwrite_next l.content (leBytes 8 (item.serialize data).length)
    l.content.length (item.serialize data)
  rw [length_leBytes, ← record] at hBoth
  have hSome : record item data ≠ [] := by
    intro hNone
    exact absurd (congrArg length hNone) (by simp [record])
  unfold append
  dsimp only
  rw [h, hBoth]
  obtain ⟨byte, bytes, hRecord⟩ := exists_cons_of_ne_nil hSome
  rw [hRecord, pwrite, ftruncate_length, drop_of_length_le (by omega), append_nil]

theorem step_records {s : DiskList × List Data} {op : DiskListOp Data}
    (h : s.1.content = records item s.2) (hAtEnd : AtEnd s op) :
    (step item s op).1.content = records item (step item s op).2 := by
  cases op with
  | append data =>
    show (s.1.append item data).content = records item (s.2 ++ [data])
    rw [content_append item hAtEnd, h, records, records, flatMap_append, flatMap_singleton]
  | clear =>
    show s.1.content.ftruncate 0 = []
    rw [ftruncate, take_zero, Nat.zero_sub]
    rfl
  | reopen => exact h
  | walk => exact h

/-- If all appends of a run are at the end of the file, then a walk gives in every state the items
that were appended since the last clear. -/
theorem walk_throughout (ops : List (DiskListOp Data))
    (h : EveryStep (step item) AtEnd (create, []) ops) :
    Throughout (step item) (WalksItems item) (create, []) ops :=
  throughout_of_invariant (step item) (fun _ => walk_of_records item)
    (fun _ _ => step_records item) rfl h

/-- Items of one byte. -/
def byteItem : DiskItem UInt8 where
  serialize byte := [byte]
  deserialize bytes := bytes.head?
  size _ := Nat.one_lt_two_pow (by decide)
  inverse _ := rfl

/-- A cleared file that is opened again before the next append. -/
theorem walk_throughout_cleared :
    Throughout (step byteItem) (WalksItems byteItem) (create, [])
      [.append 1, .append 2, .walk, .clear, .reopen, .append 3, .walk] :=
  walk_throughout byteItem _ ⟨rfl, rfl, trivial, trivial, trivial, rfl, trivial, trivial⟩

/-- The first append of the second time overwrites the item of the first time. -/
theorem not_walk_throughout :
    ¬ ∀ ops : List (DiskListOp UInt8),
      Throughout (step byteItem) (WalksItems byteItem) (create, []) ops := by
  intro h
  have hWalk : walk byteItem ⟨[1, 0, 0, 0, 0, 0, 0, 0, 2], 9⟩ = some [1, 2] :=
    (h [.append 1, .reopen, .append 2]).2.2.2
  exact absurd hWalk (by decide)

end DiskList

end Fhgfs.Fsck
