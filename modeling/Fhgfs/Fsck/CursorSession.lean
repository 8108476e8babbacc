import Fhgfs.Fsck.SharedCursor
import Fhgfs.Fsck.TableContent

/-!
# Calls on a table while cursors are open on it

`cursor()` sorts the three sets and keeps a pointer to the one fragment of each. A fragment is
found again by the name of its file, which a set uses for no other one until `clear()`:
`collapseChanges` clears `inserts`, so that the number of these clears is kept with a cursor.
An element of a cursor may point into the buffer of the fragment of `inserts`, where the row
is found until the window of the buffer is moved.
-/

namespace Fhgfs.Fsck

variable {Data κ : Type} [LinearOrder κ]

namespace SetFragment

def window (f : SetFragment Data κ) : Nat × List Data := (f.firstBufferedItem, f.buffer)

def InWindow (f : SetFragment Data κ) (row : Nat) : Prop :=
  f.firstBufferedItem ≤ row ∧ row < f.firstBufferedItem + f.buffer.length

instance (f : SetFragment Data κ) (row : Nat) : Decidable (f.InWindow row) :=
  inferInstanceAs (Decidable (_ ∧ _))

variable (T : ItemType Data κ)

def readRow (f : SetFragment Data κ) (row : Nat) : SetFragment Data κ :=
  if row < f.itemCount then (f.get T row).2 else f

def readRows (rows : List Nat) (f : SetFragment Data κ) : SetFragment Data κ :=
  rows.foldl (readRow T) f

end SetFragment

namespace FragmentSet

/-- `Set::getByKeyProjection`, on the fragment that a cursor would read. -/
def getByKeyProjection (T : ItemType Data κ) {κ' : Type} [LinearOrder κ'] (key : κ')
    (fn : κ → κ') (s : FragmentSet Data κ) : Option (Option Data × FragmentSet Data κ) := do
  let (file, fragment, s) ← s.cursorFragment T
  let (item, fragment) := fragment.getByKeyProjection T key fn
  some (item, s.updateFragment T file fun _ => fragment)

def windows (s : FragmentSet Data κ) : List (Nat × List Data) :=
  s.openFragments.elems.map fun p => p.2.window

end FragmentSet

namespace Table

variable (T : TableType Data κ)

/-- `getByKeyProjection`: the element that is found, and the table with its sets sorted as far
as they have been asked. -/
def getByKeyProjection {κ' : Type} [LinearOrder κ'] (key : κ') (fn : κ → κ')
    (t : Table Data κ) : Except TableError (Option Data × Table Data κ) := do
  let (insIdx, inserts) ← returns (t.inserts.getByKeyProjection T.item key fn)
  let t := { t with inserts }
  match insIdx with
  | some item => .ok (some item, t)
  | none =>
    let (baseIdx, base) ← returns (t.base.getByKeyProjection T.item key fn)
    let t := { t with base }
    match baseIdx with
    | none => .ok (none, t)
    | some item =>
      let (delIdx, deletes) ← returns (t.deletes.getByKeyProjection T.key (T.item.pkey item) id)
      .ok (if delIdx.isSome then none else some item, { t with deletes })

def sortSets (t : Table Data κ) : Except TableError (Table Data κ) := do
  let base ← returns (t.base.sort T.item)
  let deletes ← returns (t.deletes.sort T.key)
  let inserts ← returns (t.inserts.sort T.item)
  .ok { t with base, deletes, inserts }

def sortSetsFor : Nat → Table Data κ → Except TableError (Table Data κ)
  | 0, t => .ok t
  | n + 1, t => t.sortSets T >>= sortSetsFor n

/-- `if(deletesPending.size() )` in `collapseChanges`, which then clears `inserts`. -/
def clearsInserts (t : Table Data κ) : Prop :=
  ((t.resetDeleteBuffer T).resetInsertBuffer T).deletesPending.size ≠ 0

instance (t : Table Data κ) : Decidable (t.clearsInserts T) :=
  inferInstanceAs (Decidable (_ ≠ _))

end Table

/-! ## Open cursors -/

/-- Names of the files of the fragments, and how often `inserts` had been cleared. -/
structure FragmentPointers where
  base : List Nat
  deletes : List Nat
  inserts : List Nat
  clears : Nat

variable (T : TableType Data κ)

structure OpenCursor where
  {Row : Type}
  query : TableQuery Data κ Row
  fragments : FragmentPointers
  /-- The rows that were there when the cursor was opened. -/
  opened : View Data κ
  state : (query.shared T).State
  /-- The elements that have been delivered. -/
  out : List Row
  /-- The rows of `inserts` that are pointed to, each with its place in the buffer. -/
  pointers : List (Nat × Nat)

/-- The cursors in the order in which they were opened; `none` is one that is gone. -/
structure Session where
  table : Table Data κ
  clears : Nat
  cursors : List (Option (OpenCursor T))

/-- The rows that a step of a cursor reads, in order. -/
structure RowReads where
  base : List Nat
  deletes : List Nat
  inserts : List Nat

inductive SessionCall (Data κ : Type) : Type 1
  | insert (data : Data)
  | remove (key : κ)
  | commitChanges
  | getByKeyProjection {κ' : Type} [LinearOrder κ'] (key : κ') (fn : κ → κ')
  | openCursor {α : Type} (query : TableQuery Data κ α) (hOn : 0 < query.cursors)
  | step (id : Nat) (reads : RowReads)
  | close (id : Nat)

/-- What ends a run of calls: an exception of the table, a cursor that reads a fragment which
does not exist any more, or one whose composition reads a row that is not there. -/
inductive SessionError
  | table (e : TableError)
  | freed
  | noRow
  deriving DecidableEq

/-- What comes after a call on the table, unless it throws. -/
def afterTable {α : Type} {β : Type 1} (r : Except TableError α)
    (f : α → Except SessionError β) : Except SessionError β :=
  match r with
  | .error e => .error (.table e)
  | .ok a => f a

def View.whole (v : View Data κ) : Bool := v.base.isSome && v.deletes.isSome && v.inserts.isSome

namespace OpenCursor

variable {T} (c : OpenCursor T)

/-- `step` and, if there is a row, `get`: the cursor after them, and the rows of `inserts` that
it points to then. -/
def next (v : View Data κ) : Option (OpenCursor T × List Nat) :=
  match (c.query.shared T).step v c.state with
  | none => none
  | some (false, state) => some ({ c with state, pointers := [] }, [])
  | some (true, state) =>
    match (c.query.shared T).get v state with
    | none => none
    | some x =>
      some ({ c with state, out := c.out ++ [x] }, (c.query.shared T).pointers state)

end OpenCursor

namespace Session

variable {T}

def create : Session T := ⟨Table.create, 0, []⟩

variable (s : Session T)

def cursor (id : Nat) : Option (OpenCursor T) := s.cursors[id]?.join

def insertsFragment (p : FragmentPointers) : Option (SetFragment Data κ) :=
  if p.clears = s.clears then s.table.inserts.openFragments.find p.inserts else none

def view (p : FragmentPointers) : View Data κ where
  base := (s.table.base.openFragments.find p.base).map (SetFragment.items T.item)
  deletes := (s.table.deletes.openFragments.find p.deletes).map (SetFragment.items T.key)
  inserts := (s.insertsFragment p).map (SetFragment.items T.item)

def readRows (s : Session T) (p : FragmentPointers) (reads : RowReads) : Table Data κ :=
  { s.table with
    base := s.table.base.updateFragment T.item p.base (SetFragment.readRows T.item reads.base)
    deletes :=
      s.table.deletes.updateFragment T.key p.deletes (SetFragment.readRows T.key reads.deletes)
    inserts :=
      s.table.inserts.updateFragment T.item p.inserts
        (SetFragment.readRows T.item reads.inserts) }

/-- The step of a cursor. What it points to afterwards is read last. A composition of several
cursors may have kept a pointer of an earlier step, which is in this place if the window has
not been moved. -/
def stepCursor (id : Nat) (reads : RowReads) (s : Session T) : Except SessionError (Session T) :=
  match s.cursor id with
  | none => .error .noRow
  | some c =>
    if (s.view c.fragments).whole then
      match c.next (s.view c.fragments) with
      | none => .error .noRow
      | some (c, rows) =>
        let table := s.readRows c.fragments { reads with inserts := reads.inserts ++ rows }
        let first := (table.inserts.getFragment T.item c.fragments.inserts).firstBufferedItem
        .ok { s with
          table
          cursors :=
            s.cursors.set id (some { c with pointers := rows.map fun row => (row, row - first) }) }
    else
      .error .freed

/-- The cursor that `cursor()` and what is built over it make of the sorted sets. -/
def openOn {α : Type} (query : TableQuery Data κ α) (clears : Nat) (t : Table Data κ) :
    Except SessionError (OpenCursor T) :=
  match t.base.openFragments.elems.head?, t.deletes.openFragments.elems.head?,
      t.inserts.openFragments.elems.head? with
  | some base, some deletes, some inserts =>
    let opened : View Data κ := {
      base := some (base.2.items T.item)
      deletes := some (deletes.2.items T.key)
      inserts := some (inserts.2.items T.item) }
    match (query.shared T).init opened with
    | none => .error .noRow
    | some state => .ok {
        query, opened, state
        fragments := ⟨base.1, deletes.1, inserts.1, clears⟩
        out := []
        pointers := [] }
  | _, _, _ => .error (.table .stuck)

def openCursor {α : Type} (query : TableQuery Data κ α) (s : Session T) :
    Except SessionError (Session T) :=
  afterTable (s.table.sortSetsFor T query.cursors) fun table =>
    openOn query s.clears table >>= fun c =>
      .ok { s with table, cursors := s.cursors ++ [some c] }

def attempt : SessionCall Data κ → Except SessionError (Session T)
  | .insert data => afterTable (s.table.insert T data) fun table => .ok { s with table }
  | .remove key => afterTable (s.table.remove T key) fun table => .ok { s with table }
  | .commitChanges =>
    afterTable (s.table.commitChanges T) fun table => .ok { s with
      table
      clears := if s.table.clearsInserts T then s.clears + 1 else s.clears }
  | @SessionCall.getByKeyProjection _ _ _ _ key fn =>
    afterTable (s.table.getByKeyProjection T key fn) fun found =>
      .ok { s with table := found.2 }
  | .openCursor query _ => s.openCursor query
  | .step id reads => s.stepCursor id reads
  | .close id => .ok { s with cursors := s.cursors.set id none }

/-- A call in a run, which has ended with the first error. -/
def step (r : Except SessionError (Session T)) (call : SessionCall Data κ) :
    Except SessionError (Session T) :=
  r >>= fun s => s.attempt call

end Session

end Fhgfs.Fsck
