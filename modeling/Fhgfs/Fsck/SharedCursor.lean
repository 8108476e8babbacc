import Fhgfs.Fsck.Group
import Fhgfs.Fsck.Table

/-!
# Cursors over fragments that others use as well

A cursor holds bare pointers to the fragments of its table and looks at their rows anew in every
step. A `SharedCursor` has the steps of a `Cursor` for each `View` of the fragments, on states
that do not depend on the view. A fragment that does not exist any more has no rows in a view,
and what would read it has no result.

An element may be a pointer into the buffer of a fragment, or a pair with such a pointer. The
query of a table copies the rows of `base`, so that only rows of `inserts` are pointed to.
-/

namespace Fhgfs.Fsck

open List

/-- What is found behind the pointers to the fragments of `base`, `deletes` and `inserts`. -/
structure View (Data κ : Type) where
  base : Option (List Data)
  deletes : Option (List κ)
  inserts : Option (List Data)
  deriving DecidableEq

/-- A cursor over a view, with the rows of `inserts` that are pointed to in a state: that which
the element itself is, those in the element, and those in what later steps hand out again. -/
structure SharedCursor (V α : Type) where
  State : Type
  Marker : Type
  init : V → Option State
  step : V → State → Option (Bool × State)
  get : V → State → Option α
  mark : V → State → Marker
  restore : V → Marker → State → Option State
  bound : V → Nat
  location : State → List Nat
  inner : State → List Nat
  reused : State → List Nat

namespace SharedCursor

variable {V α β κ π γ : Type}

def on (c : SharedCursor V α) (v : V) : Cursor α where
  State := c.State
  Marker := c.Marker
  init := c.init v
  step := c.step v
  get := c.get v
  mark := c.mark v
  restore := c.restore v
  bound := c.bound v

def pointers (c : SharedCursor V α) (s : c.State) : List Nat :=
  c.location s ++ c.inner s ++ c.reused s

/-- `SetFragmentCursor`. Only `inserts` is `tracked`. -/
def fragment (rows : V → Option (List α)) (tracked : Bool) : SharedCursor V α where
  State := UInt64
  Marker := UInt64
  init v := rows v >>= fun items => (setFragmentCursor items).init
  step v s := rows v >>= fun items => (setFragmentCursor items).step s
  get v s := rows v >>= fun items => (setFragmentCursor items).get s
  mark _ s := s
  restore v m s := rows v >>= fun items => (setFragmentCursor items).restore m s
  bound v := ((rows v).getD []).length
  location s := if tracked then [s.toNat] else []
  inner _ := []
  reused _ := []

/-- A cursor that has nothing to do with the table. -/
def other (c : Cursor α) : SharedCursor V α where
  State := c.State
  Marker := c.Marker
  init _ := c.init
  step _ := c.step
  get _ := c.get
  mark _ := c.mark
  restore _ := c.restore
  bound _ := c.bound
  location _ := []
  inner _ := []
  reused _ := []

variable (source : SharedCursor V α)

def whereBy (pred : α → Bool) : SharedCursor V α where
  State := source.State
  Marker := source.Marker
  init v := (filter (source.on v) pred).init
  step v := (filter (source.on v) pred).step
  get v := (filter (source.on v) pred).get
  mark v := (filter (source.on v) pred).mark
  restore v := (filter (source.on v) pred).restore
  bound v := (filter (source.on v) pred).bound
  location := source.location
  inner := source.inner
  reused := source.reused

def selectBy (fn : α → β) : SharedCursor V β where
  State := SelectState β source.State
  Marker := source.Marker
  init v := (select (source.on v) fn).init
  step v := (select (source.on v) fn).step
  get v := (select (source.on v) fn).get
  mark v := (select (source.on v) fn).mark
  restore v := (select (source.on v) fn).restore
  bound v := (select (source.on v) fn).bound
  location _ := []
  inner _ := []
  reused s := source.reused s.source

/-- The element is a copy, and the source stands on the first row of the next group. -/
def groupBy [DecidableEq κ] (ops : GroupOps α κ π γ) : SharedCursor V (π × γ) where
  State := GroupState (π × γ) source.State source.Marker ops.State
  Marker := Option source.Marker
  init v := (group (source.on v) ops).init
  step v := (group (source.on v) ops).step
  get v := (group (source.on v) ops).get
  mark v := (group (source.on v) ops).mark
  restore v := (group (source.on v) ops).restore
  bound v := (group (source.on v) ops).bound
  location _ := []
  inner _ := []
  reused s := source.inner s.source ++ source.reused s.source

/-- One of the two elements is handed out, the other one waits. -/
def unionBy [LinearOrder κ] (keyExtract : α → κ) (left right : SharedCursor V α) :
    SharedCursor V α where
  State := UnionState left.State right.State
  Marker := UnionMark left.Marker right.Marker
  init v := (union (left.on v) (right.on v) keyExtract).init
  step v := (union (left.on v) (right.on v) keyExtract).step
  get v := (union (left.on v) (right.on v) keyExtract).get
  mark v := (union (left.on v) (right.on v) keyExtract).mark
  restore v := (union (left.on v) (right.on v) keyExtract).restore
  bound v := (union (left.on v) (right.on v) keyExtract).bound
  location s :=
    match s.currentAtLeft with
    | none => []
    | some true => left.location s.left
    | some false => right.location s.right
  inner s :=
    match s.currentAtLeft with
    | none => []
    | some true => left.inner s.left
    | some false => right.inner s.right
  reused s := left.inner s.left ++ left.reused s.left ++ right.inner s.right ++ right.reused s.right

/-- The element is a pair of a copy of the left element and a pointer to the right one. -/
def leftJoinBy [LinearOrder κ] (leftKey : α → κ) (rightKey : β → κ) (left : SharedCursor V α)
    (right : SharedCursor V β) : SharedCursor V (α × Option β) where
  State := LeftJoinState left.State right.State right.Marker (α × Option β) κ
  Marker := LeftJoinMark left.Marker right.Marker
  init v := (leftJoinEq (left.on v) (right.on v) leftKey rightKey).init
  step v := (leftJoinEq (left.on v) (right.on v) leftKey rightKey).step
  get v := (leftJoinEq (left.on v) (right.on v) leftKey rightKey).get
  mark v := (leftJoinEq (left.on v) (right.on v) leftKey rightKey).mark
  restore v := (leftJoinEq (left.on v) (right.on v) leftKey rightKey).restore
  bound v := (leftJoinEq (left.on v) (right.on v) leftKey rightKey).bound
  location _ := []
  inner s := left.inner s.left ++
    match s.current with
    | some (_, some _) => right.location s.right ++ right.inner s.right
    | _ => []
  reused s := left.inner s.left ++ left.reused s.left ++ right.inner s.right ++ right.reused s.right

end SharedCursor

/-! ## Compositions -/

/-- A composition of the cursor of a table, or of several ones, with other cursors. -/
inductive TableQuery (Data κ : Type) : Type → Type 1
  | cursor : TableQuery Data κ Data
  | other {α : Type} (c : Cursor α) : TableQuery Data κ α
  | whereBy {α : Type} (source : TableQuery Data κ α) (pred : α → Bool) : TableQuery Data κ α
  | selectBy {α β : Type} (source : TableQuery Data κ α) (fn : α → β) : TableQuery Data κ β
  | groupBy {α ν π γ : Type} [DecidableEq ν] (source : TableQuery Data κ α)
      (ops : GroupOps α ν π γ) : TableQuery Data κ (π × γ)
  | unionBy {α ν : Type} [LinearOrder ν] (keyExtract : α → ν)
      (left right : TableQuery Data κ α) : TableQuery Data κ α
  | leftJoinBy {α β ν : Type} [LinearOrder ν] (leftKey : α → ν) (rightKey : β → ν)
      (left : TableQuery Data κ α) (right : TableQuery Data κ β) :
      TableQuery Data κ (α × Option β)

namespace TableQuery

variable {Data κ : Type} [LinearOrder κ] (T : TableType Data κ)

/-- `QueryType`, over the three fragments. The pointer to a row of `deletes` that the join makes
is not followed, but compared with `NULL`. -/
def queryType : SharedCursor (View Data κ) Data :=
  .unionBy T.item.pkey
    (.selectBy
      (.whereBy
        (.leftJoinBy T.item.pkey T.key.pkey (.fragment View.base false)
          (.fragment View.deletes false))
        fun row => row.2.isNone)
      Prod.fst)
    (.fragment View.inserts true)

def shared : {α : Type} → TableQuery Data κ α → SharedCursor (View Data κ) α
  | _, cursor => queryType T
  | _, other c => .other c
  | _, whereBy source pred => .whereBy source.shared pred
  | _, selectBy source fn => .selectBy source.shared fn
  | _, groupBy source ops => .groupBy source.shared ops
  | _, unionBy keyExtract left right => .unionBy keyExtract left.shared right.shared
  | _, leftJoinBy leftKey rightKey left right =>
    .leftJoinBy leftKey rightKey left.shared right.shared

/-- How often `cursor()` is called for the composition. -/
def cursors : {α : Type} → TableQuery Data κ α → Nat
  | _, cursor => 1
  | _, other _ => 0
  | _, whereBy source _ => source.cursors
  | _, selectBy source _ => source.cursors
  | _, groupBy source _ => source.cursors
  | _, unionBy _ left right => left.cursors + right.cursors
  | _, leftJoinBy _ _ left right => left.cursors + right.cursors

end TableQuery

/-! ## Compositions with one cursor of the table -/

namespace SharedCursor

variable {V α β ν : Type}

def PointsNowhere (c : SharedCursor V α) : Prop := ∀ s, c.pointers s = []

def PointsOnce (c : SharedCursor V α) : Prop := ∀ s, ∃ row, ∀ r ∈ c.pointers s, r = row

theorem pointers_groupBy {π γ : Type} [DecidableEq ν] (source : SharedCursor V β)
    (ops : GroupOps β ν π γ) (s : (source.groupBy ops).State) :
    (source.groupBy ops).pointers s ⊆ source.pointers s.source := by
  intro r hr
  simp only [pointers, groupBy, mem_append, not_mem_nil, false_or] at hr ⊢
  tauto

theorem pointers_selectBy (source : SharedCursor V β) (fn : β → α)
    (s : (source.selectBy fn).State) :
    (source.selectBy fn).pointers s ⊆ source.pointers s.source := by
  intro r hr
  simp only [pointers, selectBy, mem_append, not_mem_nil, false_or] at hr ⊢
  tauto

theorem pointers_unionBy [LinearOrder ν] (keyExtract : β → ν) (left right : SharedCursor V β)
    (s : (unionBy keyExtract left right).State) :
    (unionBy keyExtract left right).pointers s ⊆
      left.pointers s.left ++ right.pointers s.right := by
  intro r hr
  simp only [pointers, unionBy, mem_append] at hr ⊢
  rcases hAt : s.currentAtLeft with _ | _ | _ <;> simp only [hAt, not_mem_nil] at hr <;> tauto

theorem pointers_leftJoinBy {γ : Type} [LinearOrder ν] (leftKey : β → ν) (rightKey : γ → ν)
    (left : SharedCursor V β) (right : SharedCursor V γ)
    (s : (leftJoinBy leftKey rightKey left right).State) :
    (leftJoinBy leftKey rightKey left right).pointers s ⊆
      left.pointers s.left ++ right.pointers s.right := by
  intro r hr
  simp only [pointers, leftJoinBy, mem_append, not_mem_nil, false_or] at hr ⊢
  rcases hCurrent : s.current with _ | ⟨_, _ | _⟩ <;>
    simp only [hCurrent, not_mem_nil, mem_append] at hr <;> tauto

variable {source left right : SharedCursor V β}

theorem PointsNowhere.selectBy (h : source.PointsNowhere) (fn : β → α) :
    (source.selectBy fn).PointsNowhere := by
  intro s
  have hSubset := pointers_selectBy source fn s
  rw [h s.source] at hSubset
  exact subset_nil.mp hSubset

theorem PointsNowhere.groupBy {π γ : Type} [DecidableEq ν] (h : source.PointsNowhere)
    (ops : GroupOps β ν π γ) : (source.groupBy ops).PointsNowhere := by
  intro s
  have hSubset := pointers_groupBy source ops s
  rw [h s.source] at hSubset
  exact subset_nil.mp hSubset

theorem PointsNowhere.unionBy [LinearOrder ν] (keyExtract : β → ν) (hLeft : left.PointsNowhere)
    (hRight : right.PointsNowhere) : (unionBy keyExtract left right).PointsNowhere := by
  intro s
  have hSubset := pointers_unionBy keyExtract left right s
  rw [hLeft s.left, hRight s.right] at hSubset
  exact subset_nil.mp hSubset

theorem PointsNowhere.leftJoinBy {γ : Type} [LinearOrder ν] (leftKey : β → ν) (rightKey : γ → ν)
    {right : SharedCursor V γ} (hLeft : left.PointsNowhere) (hRight : right.PointsNowhere) :
    (leftJoinBy leftKey rightKey left right).PointsNowhere := by
  intro s
  have hSubset := pointers_leftJoinBy leftKey rightKey left right s
  rw [hLeft s.left, hRight s.right] at hSubset
  exact subset_nil.mp hSubset

end SharedCursor

namespace TableQuery

open SharedCursor (PointsNowhere PointsOnce)

variable {Data κ α : Type} [LinearOrder κ] {T : TableType Data κ}

theorem queryType_pointsOnce : (queryType T).PointsOnce := by
  have hJoin : PointsNowhere (.leftJoinBy T.item.pkey T.key.pkey (.fragment View.base false)
      (.fragment View.deletes false)) :=
    PointsNowhere.leftJoinBy _ _ (fun _ => rfl) (fun _ => rfl)
  have hWhere : PointsNowhere (.whereBy (.leftJoinBy T.item.pkey T.key.pkey
      (.fragment View.base false) (.fragment View.deletes false)) fun row => row.2.isNone) := hJoin
  intro s
  refine ⟨s.right.toNat, fun r hr => ?_⟩
  have hr := SharedCursor.pointers_unionBy _ _ _ s hr
  rw [hWhere.selectBy Prod.fst s.left, nil_append] at hr
  simpa [SharedCursor.pointers, SharedCursor.fragment] using hr

theorem pointsNowhere (q : TableQuery Data κ α) (h : q.cursors = 0) :
    (q.shared T).PointsNowhere := by
  induction q with
  | cursor => cases h
  | other c => exact fun s => rfl
  | whereBy source pred ih => exact ih h
  | selectBy source fn ih => exact (ih h).selectBy fn
  | groupBy source ops ih => exact (ih h).groupBy ops
  | unionBy keyExtract left right ihL ihR =>
    obtain ⟨hLeft, hRight⟩ := Nat.add_eq_zero_iff.mp h
    exact PointsNowhere.unionBy keyExtract (ihL hLeft) (ihR hRight)
  | leftJoinBy leftKey rightKey left right ihL ihR =>
    obtain ⟨hLeft, hRight⟩ := Nat.add_eq_zero_iff.mp h
    exact PointsNowhere.leftJoinBy leftKey rightKey (ihL hLeft) (ihR hRight)

theorem pointsOnce_of_inputs {β γ : Type} {left : TableQuery Data κ β}
    {right : TableQuery Data κ γ} (ihL : left.cursors ≤ 1 → (left.shared T).PointsOnce)
    (ihR : right.cursors ≤ 1 → (right.shared T).PointsOnce)
    (h : left.cursors + right.cursors ≤ 1) (l : (left.shared T).State)
    (r : (right.shared T).State) :
    ∃ row, ∀ x ∈ (left.shared T).pointers l ++ (right.shared T).pointers r, x = row := by
  rcases Nat.eq_zero_or_pos left.cursors with hZero | hPos
  · rw [pointsNowhere left hZero l, nil_append]
    exact ihR (by omega) r
  · rw [pointsNowhere right (by omega) r, append_nil]
    exact ihL (by omega) l

theorem pointsOnce (q : TableQuery Data κ α) (h : q.cursors ≤ 1) : (q.shared T).PointsOnce := by
  induction q with
  | cursor => exact queryType_pointsOnce
  | other c => exact fun s => ⟨0, nofun⟩
  | whereBy source pred ih => exact ih h
  | selectBy source fn ih =>
    intro s
    obtain ⟨row, hRow⟩ := ih h s.source
    exact ⟨row, fun r hr => hRow r (SharedCursor.pointers_selectBy _ fn s hr)⟩
  | groupBy source ops ih =>
    intro s
    obtain ⟨row, hRow⟩ := ih h s.source
    exact ⟨row, fun r hr => hRow r (SharedCursor.pointers_groupBy _ ops s hr)⟩
  | unionBy keyExtract left right ihL ihR =>
    intro s
    have hSubset := SharedCursor.pointers_unionBy keyExtract (left.shared T) (right.shared T) s
    obtain ⟨row, hRow⟩ := pointsOnce_of_inputs ihL ihR h s.left s.right
    exact ⟨row, fun r hr => hRow r (hSubset hr)⟩
  | leftJoinBy leftKey rightKey left right ihL ihR =>
    intro s
    have hSubset :=
      SharedCursor.pointers_leftJoinBy leftKey rightKey (left.shared T) (right.shared T) s
    obtain ⟨row, hRow⟩ := pointsOnce_of_inputs ihL ihR h s.left s.right
    exact ⟨row, fun r hr => hRow r (hSubset hr)⟩

end TableQuery

end Fhgfs.Fsck
