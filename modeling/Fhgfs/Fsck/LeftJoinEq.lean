import Mathlib.Data.List.TakeWhile
import Fhgfs.Lib.Cursor

/-!
# LeftJoinEq (`db::leftJoinBy`)

The join walks its left input and keeps the right one on the first row that may match. While
rows match it is in `s_next_right`; `rightMark` is the first matching row, to which it goes
back when the next left row has the same key.

When the right input ends in `s_next_right`, the join goes on to the next left row and
compares its key with the element that the ended input still points to. A fragment cursor
points to its last row, whose key is too small to matter. The input below a `where` may point
to a row that the filter rejected, and this row is joined when its key is that of the left
row (`StaleRow`).
-/

namespace Fhgfs.Fsck

open List
open Cursor (Spec Reads Steps Position)

inductive JoinState
  | s_next_left
  | s_first_right
  | s_next_right
  | s_only_left
  deriving DecidableEq

structure LeftJoinState (σ τ ν ρ κ : Type) where
  left : σ
  right : τ
  current : Option ρ
  state : JoinState
  hasRightMark : Bool
  /-- Set with `hasRightMark`. -/
  rightKeyAtMark : Option κ
  rightMark : Option ν

structure LeftJoinMark (μ ν : Type) where
  leftMark : μ
  rightMark : ν
  state : JoinState
  hasRightMark : Bool
  innerRightMark : Option ν

namespace LeftJoinEq

variable {α β κ : Type} [LinearOrder κ] (left : Cursor α) (right : Cursor β)
  (leftKey : α → κ) (rightKey : β → κ)

abbrev State (α β κ : Type) (left : Cursor α) (right : Cursor β) :=
  LeftJoinState left.State right.State right.Marker (α × Option β) κ

def makeCurrent (hasRight : Bool) (s : State α β κ left right) :
    Option (State α β κ left right) := do
  let l ← left.get s.left
  if hasRight then
    let r ← right.get s.right
    some { s with current := some (l, some r) }
  else
    some { s with current := some (l, none) }

def firstRight (s : State α β κ left right) : Option (Bool × State α β κ left right) := do
  let l ← left.get s.left
  -- while(rightKey() < leftKey()) if(!right.step()) ...
  match ← right.skipWhile (fun row => rightKey row < leftKey l) right.bound s.right with
  | (false, r) =>
    let s ← makeCurrent left right false { s with right := r, state := .s_only_left }
    some (true, s)
  | (true, r) =>
    let row ← right.get r
    if leftKey l = rightKey row then
      let s ← makeCurrent left right true
        { s with right := r, state := .s_next_right, hasRightMark := true,
                 rightKeyAtMark := some (rightKey row), rightMark := some (right.mark r) }
      some (true, s)
    else
      let s ← makeCurrent left right false { s with right := r, state := .s_next_left }
      some (true, s)

/-- `case s_next_left`, which falls through to `s_first_right`. -/
def nextLeft (s : State α β κ left right) : Option (Bool × State α β κ left right) := do
  match ← left.step s.left with
  | (false, l) => some (false, { s with left := l, state := .s_only_left })
  | (true, l) =>
    let row ← left.get l
    if s.hasRightMark ∧ some (leftKey row) = s.rightKeyAtMark then
      let r ← right.restore (← s.rightMark) s.right
      firstRight left right leftKey rightKey { s with left := l, right := r }
    else
      firstRight left right leftKey rightKey { s with left := l, hasRightMark := false }

def step (s : State α β κ left right) : Option (Bool × State α β κ left right) :=
  match s.state with
  | .s_only_left => do
    match ← left.step s.left with
    | (false, l) => some (false, { s with left := l })
    | (true, l) =>
      let s ← makeCurrent left right false { s with left := l }
      some (true, s)
  | .s_next_left => nextLeft left right leftKey rightKey s
  | .s_first_right => firstRight left right leftKey rightKey s
  | .s_next_right => do
    match ← right.step s.right with
    | (false, r) =>
      nextLeft left right leftKey rightKey { s with right := r, state := .s_next_left }
    | (true, r) =>
      let l ← left.get s.left
      let row ← right.get r
      if leftKey l = rightKey row then
        let s ← makeCurrent left right true { s with right := r, state := .s_next_right }
        some (true, s)
      else
        nextLeft left right leftKey rightKey { s with right := r, state := .s_next_left }

def mark (s : State α β κ left right) : LeftJoinMark left.Marker right.Marker where
  leftMark := left.mark s.left
  rightMark := right.mark s.right
  state := s.state
  hasRightMark := s.hasRightMark
  innerRightMark := s.rightMark

/-- The part of `restore` that is about `rightMark`. -/
def restoreRightMark (mark : LeftJoinMark left.Marker right.Marker)
    (s : State α β κ left right) : Option (State α β κ left right) :=
  if mark.hasRightMark then do
    let inner ← mark.innerRightMark
    let r ← right.restore inner s.right
    let row ← right.get r
    some { s with hasRightMark := true, rightMark := some inner, right := r,
                  rightKeyAtMark := some (rightKey row) }
  else
    some { s with hasRightMark := false }

def restore (mark : LeftJoinMark left.Marker right.Marker) (s : State α β κ left right) :
    Option (State α β κ left right) := do
  let s ← restoreRightMark left right rightKey mark s
  let l ← left.restore mark.leftMark s.left
  let r ← right.restore mark.rightMark s.right
  let s := { s with left := l, right := r, state := mark.state }
  if mark.state = .s_only_left then
    makeCurrent left right false s
  else
    let x ← left.get l
    let y ← right.get r
    makeCurrent left right (leftKey x = rightKey y) s

end LeftJoinEq

def leftJoinEq {α β κ : Type} [LinearOrder κ] (left : Cursor α) (right : Cursor β)
    (leftKey : α → κ) (rightKey : β → κ) : Cursor (α × Option β) where
  State := LeftJoinEq.State α β κ left right
  Marker := LeftJoinMark left.Marker right.Marker
  init := do
    let l ← left.init
    let r ← right.init
    let (ok, r) ← right.step r
    some { left := l, right := r, current := none,
           state := if ok then .s_next_left else .s_only_left,
           hasRightMark := false, rightKeyAtMark := none, rightMark := none }
  step := LeftJoinEq.step left right leftKey rightKey
  get s := s.current
  mark := LeftJoinEq.mark left right
  restore := LeftJoinEq.restore left right leftKey rightKey
  bound := left.bound * (right.bound + 1)

namespace LeftJoinEq

variable {α β κ : Type} [LinearOrder κ] {left : Cursor α} {right : Cursor β}
  {leftKey : α → κ} {rightKey : β → κ}

/-! ## The rows of a left outer join -/

/-- One left row with all right rows of equal key, or once without. -/
def joinRow (leftKey : α → κ) (rightKey : β → κ) (rows : List β) (x : α) : List (α × Option β) :=
  match rows.filter fun y => rightKey y = leftKey x with
  | [] => [(x, none)]
  | ys => ys.map fun y => (x, some y)

def joinRows (leftKey : α → κ) (rightKey : β → κ) (l : List α) (r : List β) : List (α × Option β) :=
  l.flatMap (joinRow leftKey rightKey r)

@[simp] theorem joinRows_nil (r : List β) : joinRows leftKey rightKey [] r = [] := rfl

theorem joinRows_cons (x : α) (l : List α) (r : List β) :
    joinRows leftKey rightKey (x :: l) r =
      joinRow leftKey rightKey r x ++ joinRows leftKey rightKey l r := flatMap_cons

theorem joinRow_ne_nil (r : List β) (x : α) : joinRow leftKey rightKey r x ≠ [] := by
  unfold joinRow
  split
  · simp
  · rename_i hNe
    simpa using hNe

theorem joinRows_eq_nil {l : List α} {r : List β} :
    joinRows leftKey rightKey l r = [] ↔ l = [] := by
  cases l with
  | nil => simp
  | cons x l => simp [joinRows_cons, joinRow_ne_nil]

/-- `rest` is what is left of `rows` when only keys below `k` have been passed. -/
def Passed (rightKey : β → κ) (rows : List β) (k : κ) (rest : List β) : Prop :=
  ∃ pre, rows = pre ++ rest ∧ ∀ y ∈ pre, rightKey y < k

theorem Passed.filter {rows rest : List β} {k : κ} (h : Passed rightKey rows k rest) :
    (rows.filter fun y => rightKey y = k) = rest.filter fun y => rightKey y = k := by
  obtain ⟨pre, rfl, hPre⟩ := h
  have hNil : pre.filter (fun y => rightKey y = k) = [] := by
    rw [filter_eq_nil_iff]
    intro y hy
    simpa using (hPre y hy).ne
  rw [filter_append, hNil, nil_append]

section

variable {l : List α} {key : α → κ} {k : κ} (hAsc : l.Pairwise fun a b => key a ≤ key b)
  (hk : ∀ x ∈ l, k ≤ key x)
include hAsc hk

theorem takeWhile_eq_filter : (l.takeWhile fun y => k = key y) = (l.filter fun y => key y = k) ∧
      (l.dropWhile fun y => k = key y) = l.filter fun y => k < key y := by
  induction l with
  | nil => exact ⟨rfl, rfl⟩
  | cons x l ih =>
    obtain ⟨hx, hl⟩ := pairwise_cons.mp hAsc
    by_cases hEq : k = key x
    · obtain ⟨hTake, hDrop⟩ := ih hl fun y hy => hk y (mem_cons_of_mem x hy)
      rw [takeWhile_cons_of_pos (by simpa using hEq),
        dropWhile_cons_of_pos (by simpa using hEq), hTake, hDrop,
        filter_cons_of_pos (by simpa using hEq.symm),
        filter_cons_of_neg (by simp [hEq])]
      exact ⟨rfl, rfl⟩
    · have hAbove : ∀ y ∈ x :: l, k < key y := by
        have hLt : k < key x := lt_of_le_of_ne (hk x mem_cons_self) hEq
        intro y hy
        rcases mem_cons.mp hy with rfl | hy
        · exact hLt
        · exact hLt.trans_le (hx y hy)
      rw [takeWhile_cons_of_neg (by simpa using hEq),
        dropWhile_cons_of_neg (by simpa using hEq), eq_comm, filter_eq_nil_iff,
        eq_comm, filter_eq_self]
      exact ⟨fun y hy => by simpa using (hAbove y hy).ne', fun y hy => by simpa using hAbove y hy⟩

end

theorem mem_of_passed {rows rest : List β} {k : κ} {y : β}
    (h : Passed rightKey rows k (y :: rest)) : y ∈ rows := by
  obtain ⟨pre, rfl, -⟩ := h
  simp

theorem Passed.dropWhile {rows rest : List β} {k : κ} (h : Passed rightKey rows k rest) :
    Passed rightKey rows k (rest.dropWhile fun y => rightKey y < k) := by
  obtain ⟨pre, rfl, hPre⟩ := h
  refine ⟨pre ++ rest.takeWhile fun y => rightKey y < k, by simp, fun y hy => ?_⟩
  rcases mem_append.mp hy with hy | hy
  · exact hPre y hy
  · simpa using mem_takeWhile_imp hy

end LeftJoinEq

/-!
## The walk of a left join

Between two left rows the right input stands at a `Front`, and the next left row takes it to
another one. `walk` is the output that follows, for inputs in any order. A state stands on a row of
it (`OnRow`), and a step goes from there to the next row. Only behind a match with the element that
an ended input points to is nothing known, unless that input no longer changes (`Settled`).
-/

variable {α β κ : Type} [LinearOrder κ]

/-- Where the right input stands for the next left row: on the first row that matched the last
one, or on a row above it; behind its last row, with `e` to read; or behind it for good. -/
inductive Front (β : Type)
  | row (y : β) (t : List β)
  | stale (e : β)
  | gone

namespace LeftJoinEq

/-- The right rows at which the join stands for a left row with the key `k'`, when `rows` are
those of the left row before it, which had the key `k`: rows that matched are passed when the key
changes, but not the last one, and so are rows with a smaller key. -/
def rowsAt (rightKey : β → κ) (k : Option κ) (k' : κ) (rows : List β) : List β :=
  (if k = some k' then
    rows
  else
    match rows.dropWhile fun r => some (rightKey r) = k with
    | [] => rows.getLast?.toList
    | rest => rest).dropWhile fun r => rightKey r < k'

/-- Every left row with `p` has the key of the right row at which the join then stands. -/
def Meets (leftKey : α → κ) (rightKey : β → κ) (p : α → Prop) :
    Option κ → List β → List α → Prop
  | _, _, [] => True
  | k, rows, x :: l =>
    (p x → ∃ y ∈ (rowsAt rightKey k (leftKey x) rows).head?, rightKey y = leftKey x) ∧
      Meets leftKey rightKey p (some (leftKey x)) (rowsAt rightKey k (leftKey x) rows) l

end LeftJoinEq

namespace Front

def ofList (last : Front β) : List β → Front β
  | [] => last
  | y :: t => row y t

/-- `residual` is what the right input points to behind its last row. -/
def behind : Option β → Front β
  | none => gone
  | some e => stale e

/-- What is to be read of the right input. -/
def elems : Front β → List β
  | row y t => y :: t
  | stale e => [e]
  | gone => []

def dropWhile : Front β → Front β → (β → Bool) → Front β
  | row y t, last, p => ofList last ((y :: t).dropWhile p)
  | stale e, last, p => if p e then last else stale e
  | gone, _, _ => gone

theorem dropWhile_eq_self {last : Front β} {p : β → Bool} {f : Front β}
    (h : ∀ y ∈ f.elems.head?, p y = false) : f.dropWhile last p = f := by
  cases f with
  | row y t => rw [dropWhile, dropWhile_cons_of_neg (by simp [h y rfl]), ofList]
  | stale e => exact if_neg (by simp [h e rfl])
  | gone => rfl

theorem length_dropWhile_le {last : Front β} {p : β → Bool} {f : Front β}
    (hLast : last.elems.length ≤ 1) : (f.dropWhile last p).elems.length ≤ f.elems.length := by
  cases f with
  | row y t =>
    have hDrop := (dropWhile_sublist p (l := y :: t)).length_le
    rw [dropWhile]
    cases hRest : (y :: t).dropWhile p with
    | nil => exact hLast.trans (Nat.le_add_left 1 t.length)
    | cons z u =>
      rwa [hRest] at hDrop
  | stale e =>
    rw [dropWhile]
    split_ifs
    · exact hLast
    · exact le_rfl
  | gone => exact le_rfl

section

variable (rightKey : β → κ)

def skip (k : κ) (f : Front β) : Front β := f.dropWhile gone fun r => rightKey r < k

def matching (k : κ) (f : Front β) : List β := f.elems.takeWhile fun r => rightKey r = k

def leave (residual : Option β) (k : Option κ) (f : Front β) : Front β :=
  f.dropWhile (behind residual) fun r => some (rightKey r) = k

/-- From a left row with the key `k`, or from before the first one, to a left row with the
key `k'`. -/
def next (residual : Option β) (k : Option κ) (k' : κ) (f : Front β) : Front β :=
  (if k = some k' then f else f.leave rightKey residual k).skip rightKey k'

end

variable {rightKey : β → κ} {k : Option κ} {c : κ} {f : Front β} {residual : Option β}

theorem matching_eq_nil :
    f.matching rightKey c = [] ↔ ∀ y ∈ f.elems.head?, rightKey y ≠ c := by
  unfold matching
  cases f.elems with
  | nil => simp
  | cons y t => simp [takeWhile_eq_nil_iff]

theorem skip_of_matching (h : f.matching rightKey c ≠ []) : f.skip rightKey c = f := by
  refine dropWhile_eq_self fun y hy => ?_
  rw [ne_eq, matching_eq_nil, not_forall] at h
  obtain ⟨z, hz⟩ := h
  obtain ⟨hHead, hKey⟩ := Classical.not_imp.mp hz
  obtain rfl := Option.mem_unique hy hHead
  simp [not_not.mp hKey]

theorem elems_ofList_gone (l : List β) : (ofList gone l).elems = l := by
  cases l <;> rfl

theorem elems_skip : (f.skip rightKey c).elems = f.elems.dropWhile fun r => rightKey r < c := by
  cases f with
  | row y t => exact elems_ofList_gone _
  | stale e =>
    by_cases hLt : rightKey e < c <;> simp [skip, dropWhile, elems, hLt]
  | gone => rfl

theorem length_next_le : (f.next rightKey residual k c).elems.length ≤ f.elems.length := by
  rw [next, elems_skip]
  refine (dropWhile_sublist _).length_le.trans ?_
  split
  · exact le_rfl
  · refine length_dropWhile_le ?_
    cases residual <;> simp [behind, elems]

variable {rows : List β} (hSuffix : f.elems <:+ rows)
include hSuffix

theorem elems_leave : (f.leave rightKey rows.getLast? k).elems =
    match f.elems.dropWhile fun r => some (rightKey r) = k with
    | [] => f.elems.getLast?.toList
    | rest => rest := by
  obtain ⟨pre, rfl⟩ := hSuffix
  cases f with
  | row y t =>
    have hLast : (pre ++ (row y t).elems).getLast? = (y :: t).getLast? :=
      getLast?_append_of_ne_nil _ (by simp [elems])
    rw [leave, dropWhile, hLast, elems]
    cases (y :: t).dropWhile fun r => some (rightKey r) = k with
    | nil => cases (y :: t).getLast? <;> rfl
    | cons z u => rfl
  | stale e =>
    by_cases hKey : some (rightKey e) = k <;>
      simp [leave, dropWhile, elems, hKey, behind]
  | gone => rfl

variable (rightKey k c)

theorem elems_next : (f.next rightKey rows.getLast? k c).elems =
    LeftJoinEq.rowsAt rightKey k c f.elems := by
  rw [next, elems_skip, LeftJoinEq.rowsAt, apply_ite elems, elems_leave hSuffix]

theorem elems_next_suffix : (f.next rightKey rows.getLast? k c).elems <:+ rows := by
  rw [next, elems_skip]
  refine (dropWhile_suffix _).trans ?_
  split_ifs
  · exact hSuffix
  rw [elems_leave hSuffix]
  split
  · refine IsSuffix.trans ?_ hSuffix
    cases hLast : f.elems.getLast? with
    | none => exact nil_suffix
    | some e =>
      obtain ⟨pre, hPre⟩ := getLast?_eq_some_iff.mp hLast
      exact ⟨pre, hPre.symm⟩
  · exact (dropWhile_suffix _).trans hSuffix

end Front

namespace LeftJoinEq

variable {leftKey : α → κ} {rightKey : β → κ} {residual : Option β} {k : Option κ} {f : Front β}

/-- The rows of the left row `x`, which matches `ys`. -/
def block (x : α) : List β → List (α × Option β)
  | [] => [(x, none)]
  | y :: ys => (x, some y) :: ys.map fun y => (x, some y)

def walkFrom (leftKey : α → κ) (rightKey : β → κ) (residual : Option β) :
    Option κ → Front β → List α → List (α × Option β)
  | _, _, [] => []
  | k, f, x :: l =>
    let g := f.next rightKey residual k (leftKey x)
    block x (g.matching rightKey (leftKey x)) ++
      walkFrom leftKey rightKey residual (some (leftKey x)) g l

theorem length_block_le (x : α) (ys : List β) : (block x ys).length ≤ ys.length + 1 := by
  cases ys <;> simp [block]

theorem length_walkFrom_le {n : Nat} {l : List α} (hf : f.elems.length ≤ n) :
    (walkFrom leftKey rightKey residual k f l).length ≤ l.length * (n + 1) := by
  induction l generalizing k f with
  | nil => simp [walkFrom]
  | cons x l ih =>
    have hNext : (f.next rightKey residual k (leftKey x)).elems.length ≤ n :=
      Front.length_next_le.trans hf
    have hBlock := length_block_le x ((f.next rightKey residual k (leftKey x)).matching rightKey
      (leftKey x))
    have hMatching : ((f.next rightKey residual k (leftKey x)).matching rightKey
        (leftKey x)).length ≤ n := (takeWhile_sublist _).length_le.trans hNext
    have hRest := ih (k := some (leftKey x)) hNext
    rw [walkFrom, length_append, length_cons, Nat.add_mul]
    omega

theorem walkFrom_cons_ne_nil {x : α} {l : List α} :
    walkFrom leftKey rightKey residual k f (x :: l) ≠ [] := by
  have hBlock (ys : List β) : block x ys ≠ [] := by cases ys <;> simp [block]
  exact append_ne_nil_of_left_ne_nil (hBlock _) _

theorem joinRow_eq_block (r : List β) (x : α) :
    joinRow leftKey rightKey r x = block x (r.filter fun y => rightKey y = leftKey x) := by
  unfold joinRow
  cases r.filter fun y => rightKey y = leftKey x <;> rfl

/-- The left rows that come out alone. -/
def alone (keep : α → Bool) (out : List (α × Option β)) : List α :=
  (out.filter fun row => keep row.1 && row.2.isNone).map Prod.fst

variable (leftKey rightKey) in
theorem alone_spec (keep : α → Bool) {rows : List β} {l : List α} (hSuffix : f.elems <:+ rows) :
    (l.filter fun x => keep x && decide (leftKey x ∉ rows.map rightKey)).Sublist
        (alone keep (walkFrom leftKey rightKey rows.getLast? k f l)) ∧
      (alone keep (walkFrom leftKey rightKey rows.getLast? k f l) =
          (l.filter fun x => keep x && decide (leftKey x ∉ rows.map rightKey)) ↔
        Meets leftKey rightKey (fun x => keep x = true ∧ leftKey x ∈ rows.map rightKey) k f.elems
          l) := by
  induction l generalizing k f with
  | nil => exact ⟨nil_sublist _, iff_of_true rfl trivial⟩
  | cons x l ih =>
    have hElems := Front.elems_next rightKey k (leftKey x) hSuffix
    have hNext := Front.elems_next_suffix rightKey k (leftKey x) hSuffix
    obtain ⟨hSub, hIff⟩ := ih (k := some (leftKey x)) hNext
    rw [hElems] at hIff
    rw [walkFrom, alone, filter_append, map_append, ← alone, ← alone, Meets]
    cases hMatch : (f.next rightKey rows.getLast? k (leftKey x)).matching rightKey (leftKey x) with
    | nil =>
      have hNone :
          ¬ ∃ y ∈ (rowsAt rightKey k (leftKey x) f.elems).head?, rightKey y = leftKey x := by
        rintro ⟨y, hy, hKey⟩
        exact Front.matching_eq_nil.mp hMatch y (hElems ▸ hy) hKey
      by_cases hKeep : keep x = true
      · have hBlock : alone keep (block x ([] : List β)) = [x] := by simp [alone, block, hKeep]
        rw [hBlock, singleton_append]
        by_cases hIn : leftKey x ∈ rows.map rightKey
        · rw [filter_cons_of_neg (by simp [hIn])]
          refine ⟨hSub.cons x, iff_of_false (fun hEq => ?_) fun h => hNone (h.1 ⟨hKeep, hIn⟩)⟩
          have hLen := hSub.length_le
          rw [← hEq, length_cons] at hLen
          omega
        · rw [filter_cons_of_pos (by simp [hKeep, hIn]), cons_inj_right, hIff]
          exact ⟨hSub.cons_cons x, fun h => ⟨fun hp => absurd hp.2 hIn, h⟩, fun h => h.2⟩
      · have hBlock : alone keep (block x ([] : List β)) = [] := by simp [alone, block, hKeep]
        rw [hBlock, nil_append, filter_cons_of_neg (by simp [hKeep]), hIff]
        exact ⟨hSub, fun h => ⟨fun hp => absurd hp.1 hKeep, h⟩, fun h => h.2⟩
    | cons y ys =>
      have hHead : ∃ y ∈ (rowsAt rightKey k (leftKey x) f.elems).head?, rightKey y = leftKey x := by
        by_contra hNone
        push Not at hNone
        rw [← hElems, ← Front.matching_eq_nil, hMatch] at hNone
        cases hNone
      obtain ⟨z, hz, hKey⟩ := hHead
      have hIn : leftKey x ∈ rows.map rightKey :=
        mem_map.mpr ⟨z, hNext.subset (hElems ▸ mem_of_mem_head? hz), hKey⟩
      have hBlock : alone keep (block x (y :: ys)) = [] := by
        simp [alone, block, filter_map, Function.comp_def]
      rw [hBlock, nil_append, filter_cons_of_neg (by simp [hIn]), hIff]
      exact ⟨hSub, fun h => ⟨fun _ => ⟨z, hz, hKey⟩, h⟩, fun h => h.2⟩

/-- The last right row `y` has the key of a left row, and `e` is what the right input points
to behind it. -/
structure StaleRow (leftKey : α → κ) (rightKey : β → κ) (lrows : List α) (rspec : Spec β)
    (y e : β) : Prop where
  last : rspec.rows.getLast? = some y
  residual : rspec.residual = some e
  key : ∃ x ∈ lrows, leftKey x = rightKey y

section

variable {rspec : Spec β} {lrows : List α}

omit [LinearOrder κ] in
theorem StaleRow.functional {y e y' e' : β} (h : StaleRow leftKey rightKey lrows rspec y e)
    (h' : StaleRow leftKey rightKey lrows rspec y' e') : y = y' ∧ e = e' :=
  ⟨Option.some.inj (h.last.symm.trans h'.last), Option.some.inj (h.residual.symm.trans h'.residual)⟩

/-- The left row `x` is joined with an element behind the last right row. -/
def Ghost (leftKey : α → κ) (rightKey : β → κ) (lrows : List α) (rspec : Spec β) (x : α) : Prop :=
  ∃ y e, StaleRow leftKey rightKey lrows rspec y e ∧ rightKey y < rightKey e ∧
    leftKey x = rightKey e

def NoGhost (leftKey : α → κ) (rightKey : β → κ) (lrows : List α) (rspec : Spec β) : Prop :=
  ∀ x ∈ lrows, ¬ Ghost leftKey rightKey lrows rspec x

/-- The element behind the last right row is never compared with a left row whose key it
does not fall short of. -/
def NoStale (leftKey : α → κ) (rightKey : β → κ) (lrows : List α) (rspec : Spec β) : Prop :=
  ∀ y e, StaleRow leftKey rightKey lrows rspec y e →
    ∀ x ∈ lrows, ¬ (rightKey y < leftKey x ∧ leftKey x ≤ rightKey e)

theorem NoStale.noGhost (h : NoStale leftKey rightKey lrows rspec) :
    NoGhost leftKey rightKey lrows rspec := by
  rintro x hx ⟨y, e, hStale, hLt, hKey⟩
  exact h y e hStale x hx ⟨hKey ▸ hLt, hKey.le⟩

theorem noStale_of_getLast (h : rspec.residual = rspec.rows.getLast?) :
    NoStale leftKey rightKey lrows rspec := by
  rintro y e ⟨hLast, hResidual, -⟩ x - ⟨hLt, hLe⟩
  obtain rfl : y = e := Option.some.inj (hLast.symm.trans (h.symm.trans hResidual))
  exact absurd hLt (not_lt.mpr hLe)

end

section

variable {x x' : α} {l lrows : List α} (hAsc : lrows.Pairwise fun a b => leftKey a ≤ leftKey b)
  (h : x :: x' :: l <:+ lrows)
include hAsc h

/-- Of the left rows with a smaller key than the next one, none is above the current one. -/
theorem le_current {a : α}
    (ha : a ∈ lrows) (hLt : leftKey a < leftKey x') : leftKey a ≤ leftKey x := by
  obtain ⟨pre, rfl⟩ := h
  obtain ⟨-, hTail, hPre⟩ := pairwise_append.mp hAsc
  rcases mem_append.mp ha with ha | ha
  · exact hPre a ha x mem_cons_self
  rcases mem_cons.mp ha with rfl | ha
  · exact le_rfl
  · have hTail := (pairwise_cons.mp hTail).2
    rcases mem_cons.mp ha with rfl | ha
    · exact absurd hLt (lt_irrefl _)
    · exact absurd hLt (not_lt.mpr ((pairwise_cons.mp hTail).1 a ha))

theorem next_le : leftKey x ≤ leftKey x' :=
  (pairwise_cons.mp (hAsc.sublist h.sublist)).1 x' mem_cons_self

end

theorem le_last {rows : List β} (hAsc : rows.Pairwise fun a b => rightKey a ≤ rightKey b)
    {y : β} (hLast : rows.getLast? = some y) {r : β} (hr : r ∈ rows) : rightKey r ≤ rightKey y := by
  obtain ⟨pre, rfl⟩ := getLast?_eq_some_iff.mp hLast
  rcases mem_append.mp hr with hr | hr
  · exact (pairwise_append.mp hAsc).2.2 r hr y (by simp)
  · obtain rfl := mem_singleton.mp hr
    exact le_rfl

def spec (leftKey : α → κ) (rightKey : β → κ) (lspec : Spec α) (rspec : Spec β) :
    Spec (α × Option β) where
  rows := joinRows leftKey rightKey lspec.rows rspec.rows
  residual := (joinRows leftKey rightKey lspec.rows rspec.rows).getLast?
  Readable := lspec.rows ≠ []
  Restorable := rspec.Restorable ∧ lspec.Restorable ∧ lspec.Readable

variable {left : Cursor α} {right : Cursor β}

def stateAt : Front β → JoinState
  | .gone => .s_only_left
  | _ => .s_next_left

/-- The inputs of a join, with what they have to promise. -/
structure Inputs (left : Cursor α) (right : Cursor β) (κ : Type) where
  leftKey : α → κ
  rightKey : β → κ
  lspec : Spec α
  rspec : Spec β
  L : left.State → Position α → Prop
  R : right.State → Position β → Prop
  left_reads : Reads left lspec L
  right_reads : Reads right rspec R

namespace Inputs

section

variable (J : Inputs left right κ)

abbrev join : Cursor (α × Option β) := leftJoinEq left right J.leftKey J.rightKey

def next (k : Option κ) (k' : κ) (f : Front β) : Front β := f.next J.rightKey J.rspec.residual k k'

def matching (k : κ) (f : Front β) : List β := f.matching J.rightKey k

def walk (k : Option κ) (f : Front β) (l : List α) : List (α × Option β) :=
  walkFrom J.leftKey J.rightKey J.rspec.residual k f l

/-- The right input stands at `f`. -/
def Shows (r : right.State) : Front β → Prop
  | .row y t => J.R r (.row y t)
  | .stale e => J.R r .ended ∧ right.get r = some e ∧ J.rspec.residual = some e ∧
      J.rspec.rows ≠ []
  | .gone => ∃ p, J.R r p ∧ p ≠ .start

/-- `rightMark` leads back to `f`, which has the key `k`. -/
def HasMark (k : Option κ) (s : State α β κ left right) : Front β → Prop
  | .row z u => ∃ m, J.R m (.row z u) ∧ s.rightMark = some (right.mark m) ∧
      some (J.rightKey z) = k
  | .stale e => s.rightMark = some (right.mark s.right) ∧ right.Settled s.right ∧
      J.Shows s.right (.stale e) ∧ some (J.rightKey e) = k
  | .gone => False

variable (s : State α β κ left right)

/-- The join stands on the match of `x` with `y`; `z` is the first one. -/
structure Matched (x : α) (l : List α) (z : β) (u : List β) (y : β) (t : List β) : Prop where
  leftAt : J.L s.left (.row x l)
  rightAt : J.R s.right (.row y t)
  key : J.rightKey y = J.leftKey x
  behind : (t.dropWhile fun r => some (J.rightKey r) = some (J.leftKey x)) =
    (z :: u).dropWhile fun r => some (J.rightKey r) = some (J.leftKey x)
  state : s.state = .s_next_right
  hasMark : s.hasRightMark = true
  keyAtMark : s.rightKeyAtMark = some (J.leftKey x)
  mark : J.HasMark (some (J.leftKey x)) s (.row z u)
  current : s.current = some (x, some y)

/-- The join stands on a row of the left row `x`, whose front is `f`; the list has the rows of `x`
that are to come. -/
inductive OnRow (x : α) (l : List α) : Front β → α × Option β → List (α × Option β) → Prop
  | matched {z : β} {u : List β} {y : β} {t : List β} : J.Matched s x l z u y t →
      OnRow x l (.row z u) (x, some y)
        ((t.takeWhile fun r => J.rightKey r = J.leftKey x).map fun r => (x, some r))
  | staleMatch {e : β} : J.L s.left (.row x l) → s.state = .s_next_right →
      s.hasRightMark = true → s.rightKeyAtMark = some (J.leftKey x) →
      J.HasMark (some (J.leftKey x)) s (.stale e) → s.current = some (x, some e) →
      OnRow x l (.stale e) (x, some e) []
  | unmatched {f : Front β} : J.L s.left (.row x l) → J.Shows s.right f →
      J.matching (J.leftKey x) f = [] → s.state = stateAt f → s.hasRightMark = false →
      s.current = some (x, none) → OnRow x l f (x, none) []

/-- The join is behind its last left row. -/
structure Ended : Prop where
  leftAt : J.L s.left .ended
  rightAt : ∃ p, J.R s.right p ∧ p ≠ .start
  state : s.state = .s_only_left
  current : J.lspec.rows ≠ [] → ∃ z, s.current = some z

/-- A match with the element behind the last right row leads to a known state. -/
def Sound (k : κ) (f : Front β) : Prop :=
  ∀ e, f = .stale e → J.rightKey e = k → ∀ r, J.R r .ended → right.Settled r

/-- A step of `s` to the next left row. Behind the last left row `current` stays. -/
def Advances (result : Option (Bool × State α β κ left right)) (k : Option κ) (f : Front β) :
    List α → Prop
  | [] => ∃ s', result = some (false, s') ∧ s'.current = s.current ∧ J.Ended s' ∧
      (s'.hasRightMark = true → J.HasMark k s' f)
  | x :: l => ∃ s' z zs, result = some (true, s') ∧ s'.current = some z ∧
      block x (J.matching (J.leftKey x) (J.next k (J.leftKey x) f)) = z :: zs ∧
      (J.Sound (J.leftKey x) (J.next k (J.leftKey x) f) →
        J.OnRow s' x l (J.next k (J.leftKey x) f) z zs)

end

variable {J : Inputs left right κ} {s s₀ : State α β κ left right} {r : right.State}
  {k : Option κ} {c : κ} {f g : Front β} {x x' : α} {l : List α} {y e : β} {t : List β}
  {p : Position α} {q : Position β} {z : α × Option β} {zs : List (α × Option β)}

/-! ## One left row -/

omit [LinearOrder κ] in
theorem Shows.exists_position (hr : J.Shows r f) : ∃ p, J.R r p ∧ p ≠ .start := by
  cases f with
  | row y t => exact ⟨_, hr, by simp⟩
  | stale e => exact ⟨_, hr.1, by simp⟩
  | gone => exact hr

omit [LinearOrder κ] in
theorem Shows.get (hr : J.Shows r f) : right.get r = f.elems.head? ∨ f = .gone := by
  cases f with
  | row y t => exact Or.inl (J.right_reads.get hr)
  | stale e => exact Or.inl hr.2.1
  | gone => exact Or.inr rfl

omit [LinearOrder κ] in
theorem shows_ofList {l : List β} (hr : J.R r (.ofList l)) : J.Shows r (.ofList .gone l) := by
  cases l with
  | nil => exact ⟨_, hr, by simp⟩
  | cons y t => exact hr

theorem Shows.skipWhile (hr : J.Shows r f) (hf : f ≠ .gone) (k : κ) :
    ∃ r', right.skipWhile (fun row => J.rightKey row < k) right.bound r =
        some (decide (stateAt (f.skip J.rightKey k) = .s_next_left), r') ∧
      J.Shows r' (f.skip J.rightKey k) := by
  cases f with
  | row y t =>
    obtain ⟨r', hLoop, hr', -⟩ := J.right_reads.skipWhile (fun row => J.rightKey row < k) hr
    refine ⟨r', ?_, shows_ofList hr'⟩
    rw [hLoop, Front.skip, Front.dropWhile]
    cases (y :: t).dropWhile fun row => decide (J.rightKey row < k) <;> rfl
  | stale e =>
    obtain ⟨hEnded, hGet, hResidual, hRows⟩ := hr
    obtain ⟨r', hStep, hr'⟩ := J.right_reads.step hEnded
    have hBound : right.bound ≠ 0 := by
      have hPos := length_pos_of_ne_nil hRows
      have := J.right_reads.bound
      omega
    obtain ⟨n, hn⟩ := Nat.exists_eq_succ_of_ne_zero hBound
    by_cases hLt : J.rightKey e < k
    · refine ⟨r', ?_, ?_⟩
      · simp [hn, Cursor.skipWhile, hGet, hLt, hStep, Front.skip, Front.dropWhile, stateAt]
      · simp only [Front.skip, Front.dropWhile, hLt, decide_true, if_true]
        exact ⟨_, hr', by simp⟩
    · refine ⟨r, ?_, ?_⟩
      · simp [hn, Cursor.skipWhile, hGet, hLt, Front.skip, Front.dropWhile, stateAt]
      · simp only [Front.skip, Front.dropWhile, hLt, decide_false, Bool.false_eq_true, if_false]
        exact ⟨hEnded, hGet, hResidual, hRows⟩
  | gone => exact absurd rfl hf

theorem firstRight_spec (hx : J.L s.left (.row x l)) (hr : J.Shows s.right f) (hf : f ≠ .gone)
    (hMark : J.matching (J.leftKey x) (f.skip J.rightKey (J.leftKey x)) = [] →
      s.hasRightMark = false) :
    ∃ s' z zs, firstRight left right J.leftKey J.rightKey s = some (true, s') ∧
      s'.current = some z ∧
      block x (J.matching (J.leftKey x) (f.skip J.rightKey (J.leftKey x))) = z :: zs ∧
      (J.Sound (J.leftKey x) (f.skip J.rightKey (J.leftKey x)) →
        J.OnRow s' x l (f.skip J.rightKey (J.leftKey x)) z zs) := by
  obtain ⟨r, hLoop, hr'⟩ := hr.skipWhile hf (J.leftKey x)
  generalize f.skip J.rightKey (J.leftKey x) = g at hLoop hr' hMark ⊢
  have hLeft := J.left_reads.get hx
  by_cases hGone : g = .gone
  · subst hGone
    exact ⟨{ s with right := r, state := .s_only_left, current := some (x, none) }, (x, none), [],
      by simp [firstRight, hLeft, hLoop, stateAt, makeCurrent], rfl, rfl,
      fun _ => .unmatched hx hr' rfl rfl (hMark rfl) rfl⟩
  obtain ⟨y, t, hElems, hState⟩ : ∃ y t, g.elems = y :: t ∧ stateAt g = .s_next_left := by
    cases g with
    | gone => exact absurd rfl hGone
    | row | stale => exact ⟨_, _, rfl, rfl⟩
  have hGet := hr'.get.resolve_right hGone
  rw [hElems, head?_cons] at hGet
  rw [hState, decide_eq_true rfl] at hLoop
  by_cases hKey : J.rightKey y = J.leftKey x
  · have hMatch : J.matching (J.leftKey x) g =
        y :: t.takeWhile fun r => J.rightKey r = J.leftKey x := by
      rw [matching, Front.matching, hElems, takeWhile_cons_of_pos (by simpa using hKey)]
    refine ⟨{ s with
        right := r, state := .s_next_right, hasRightMark := true,
        rightKeyAtMark := some (J.rightKey y), rightMark := some (right.mark r),
        current := some (x, some y) }, (x, some y), _, ?_, rfl, congrArg (block x) hMatch,
      fun hSound => ?_⟩
    · simp [firstRight, hLeft, hLoop, hGet, hKey, makeCurrent]
    · cases g with
      | row z u =>
        obtain ⟨rfl, rfl⟩ := cons.inj hElems
        refine .matched ⟨hx, hr', hKey, ?_, rfl, rfl, congrArg some hKey, ⟨r, hr', rfl,
          congrArg some hKey⟩, rfl⟩
        rw [dropWhile_cons_of_pos (by simpa using hKey)]
      | stale e =>
        obtain ⟨rfl, rfl⟩ := cons.inj hElems
        exact .staleMatch hx rfl rfl (congrArg some hKey)
          ⟨rfl, hSound e rfl hKey r hr'.1, hr', congrArg some hKey⟩ rfl
      | gone => exact absurd rfl hGone
  · have hMatch : J.matching (J.leftKey x) g = [] := by
      rw [matching, Front.matching, hElems, takeWhile_cons_of_neg (by simpa using hKey)]
    exact ⟨{ s with right := r, state := .s_next_left, current := some (x, none) }, (x, none), [],
      by simp [firstRight, hLeft, hLoop, hGet, Ne.symm hKey, makeCurrent], rfl,
      by rw [hMatch]; rfl, fun _ => .unmatched hx hr' hMatch hState.symm (hMark hMatch) rfl⟩

/-! ## The next left row -/

theorem HasMark.matching (h : J.HasMark (some c) s f) : J.matching c f ≠ [] := by
  cases f with
  | row z u =>
    obtain ⟨-, -, -, hKey⟩ := h
    simp [Inputs.matching, Front.matching, Front.elems, Option.some.inj hKey]
  | stale e => simp [Inputs.matching, Front.matching, Front.elems, Option.some.inj h.2.2.2]
  | gone => exact h.elim

omit [LinearOrder κ] in
theorem HasMark.restore (h : J.HasMark k s f) (hq : J.R s.right q) :
    ∃ m r, s.rightMark = some m ∧ right.restore m s.right = some r ∧ J.Shows r f := by
  cases f with
  | row z u =>
    obtain ⟨m, hm, hMark, -⟩ := h
    obtain ⟨r, hRestore, hr⟩ := J.right_reads.restore hm hq
    exact ⟨_, r, hMark, hRestore, hr⟩
  | stale e => exact ⟨_, _, h.1, h.2.1.2, h.2.2.1⟩
  | gone => exact h.elim

section

variable (hp : J.L s.left p) (hl : p.remaining J.lspec.rows = l)
include hp hl

/-- The right input stands at `g`, which only a mark differs from the front of the last left
row. -/
theorem advances_nextLeft (hr : J.Shows s.right g) (hg : g ≠ .gone)
    (hMark : s.hasRightMark = true → s.rightKeyAtMark = k ∧ J.HasMark k s f)
    (hNext : ∀ x l', l = x :: l' →
      ¬ (s.hasRightMark = true ∧ some (J.leftKey x) = s.rightKeyAtMark) →
      J.next k (J.leftKey x) f = g.skip J.rightKey (J.leftKey x))
    (hCurrent : l = [] → J.lspec.rows ≠ [] → ∃ z, s.current = some z) :
    J.Advances s (nextLeft left right J.leftKey J.rightKey s) k f l := by
  obtain ⟨left', hStep, hs'⟩ := J.left_reads.step hp
  rw [Position.next_eq, hl] at hStep hs'
  obtain ⟨q, hq, hqStart⟩ := hr.exists_position
  cases l with
  | nil =>
    exact ⟨{ s with left := left', state := .s_only_left }, by simp [nextLeft, hStep], rfl,
      ⟨hs', ⟨q, hq, hqStart⟩, rfl, hCurrent rfl⟩, fun hHas => by cases f <;> exact (hMark hHas).2⟩
  | cons x l =>
    have hGet := J.left_reads.get hs'
    by_cases hBack : s.hasRightMark = true ∧ some (J.leftKey x) = s.rightKeyAtMark
    · obtain ⟨hKey, hAtMark⟩ := hMark hBack.1
      obtain rfl : some (J.leftKey x) = k := hBack.2.trans hKey
      obtain ⟨m, r, hMarked, hRestore, hShows⟩ := hAtMark.restore hq
      have hSkip : f.skip J.rightKey (J.leftKey x) = f := Front.skip_of_matching hAtMark.matching
      have hSame : J.next (some (J.leftKey x)) (J.leftKey x) f = f := by
        rw [next, Front.next, if_pos rfl, hSkip]
      have hf : f ≠ .gone := by
        rintro rfl
        exact hAtMark.elim
      have hRow := firstRight_spec (s := { s with left := left', right := r }) hs' hShows hf
        fun hNone => by rw [hSkip] at hNone; exact absurd hNone hAtMark.matching
      have hNextLeft : nextLeft left right J.leftKey J.rightKey s =
          firstRight left right J.leftKey J.rightKey { s with left := left', right := r } := by
        simp only [nextLeft, hStep, hGet, Option.bind_eq_bind, Option.bind_some,
          Position.ofList_cons, Position.isRow_row, if_pos hBack, hMarked]
        rw [hRestore]
        rfl
      rw [hSkip] at hRow
      rwa [hNextLeft, Advances, hSame]
    · have hNextLeft : nextLeft left right J.leftKey J.rightKey s =
          firstRight left right J.leftKey J.rightKey
            { s with left := left', hasRightMark := false } := by
        simp [nextLeft, hStep, hGet, hBack]
      rw [hNextLeft, Advances, hNext x l rfl hBack]
      exact firstRight_spec (s := { s with left := left', hasRightMark := false }) hs' hr hg
        fun _ => rfl

theorem advances_onlyLeft (hr : J.Shows s.right .gone) (hState : s.state = .s_only_left)
    (hMark : s.hasRightMark = false)
    (hNext : ∀ x l', l = x :: l' → J.next k (J.leftKey x) f = .gone)
    (hCurrent : l = [] → J.lspec.rows ≠ [] → ∃ z, s.current = some z) :
    J.Advances s (step left right J.leftKey J.rightKey s) k f l := by
  obtain ⟨left', hStep, hs'⟩ := J.left_reads.step hp
  rw [Position.next_eq, hl] at hStep hs'
  cases l with
  | nil =>
    exact ⟨{ s with left := left' }, by simp [step, hState, hStep], rfl,
      ⟨hs', hr, hState, hCurrent rfl⟩, fun hHas => by simp [hMark] at hHas⟩
  | cons x l =>
    rw [Advances, hNext x l rfl]
    exact ⟨{ s with left := left', current := some (x, none) }, (x, none), [],
      by simp [step, hState, hStep, makeCurrent, J.left_reads.get hs'], rfl, rfl,
      fun _ => .unmatched hs' hr rfl hState hMark rfl⟩

end

/-! ## One step -/

omit [LinearOrder κ] in
theorem shows_behind {r' : right.State} {b : Bool} (hr : J.R r (.row y []))
    (hStep : right.step r = some (b, r')) (hr' : J.R r' .ended) :
    ∃ e, J.rspec.residual = some e ∧ J.Shows r' (.stale e) := by
  obtain ⟨pre, hRows⟩ := J.right_reads.suffix hr
  have hNe : J.rspec.rows ≠ [] := by simp [← hRows]
  obtain ⟨e, he⟩ := J.right_reads.readable (J.right_reads.readable_of_rows hNe) hr' (by simp)
  have hResidual := (J.right_reads.residual hr hStep).symm.trans he
  exact ⟨e, hResidual, hr', he, hResidual, hNe⟩

theorem next_of_not_mark (hNe : some c ≠ k) :
    J.next k c f = (f.leave J.rightKey J.rspec.residual k).skip J.rightKey c := by
  rw [next, Front.next, if_neg (Ne.symm hNe)]

theorem Matched.leaves {u : List β} {a : β} (hs : J.Matched s x l a u y t)
    (hNone : (t.takeWhile fun r => J.rightKey r = J.leftKey x) = []) :
    J.Advances s (step left right J.leftKey J.rightKey s) (some (J.leftKey x)) (.row a u) l := by
  obtain ⟨r, hStep, hr⟩ := J.right_reads.step hs.rightAt
  have hLeave : ∃ g, (Front.row a u).leave J.rightKey J.rspec.residual (some (J.leftKey x)) = g ∧
      J.Shows r g ∧ g ≠ .gone ∧ step left right J.leftKey J.rightKey s =
        nextLeft left right J.leftKey J.rightKey { s with right := r, state := .s_next_left } := by
    rw [Front.leave, Front.dropWhile, ← hs.behind]
    cases t with
    | nil =>
      obtain ⟨e, hResidual, hShows⟩ := shows_behind hs.rightAt hStep hr
      exact ⟨.stale e, by rw [hResidual]; rfl, hShows, by simp, by simp [step, hs.state, hStep]⟩
    | cons y' t =>
      have hKey : J.rightKey y' ≠ J.leftKey x := by
        intro hEq
        rw [takeWhile_cons_of_pos (by simpa using hEq)] at hNone
        cases hNone
      rw [dropWhile_cons_of_neg (by simpa using hKey)]
      exact ⟨.row y' t, rfl, hr, by simp, by
        simp [step, hs.state, hStep, J.left_reads.get hs.leftAt, J.right_reads.get hr, hKey.symm]⟩
  obtain ⟨g, hLeave, hShows, hg, hNextLeft⟩ := hLeave
  rw [hNextLeft]
  refine advances_nextLeft (s := { s with right := r, state := .s_next_left }) hs.leftAt rfl hShows
    hg (fun _ => ⟨hs.keyAtMark, hs.mark⟩) ?_ fun _ _ => ⟨_, hs.current⟩
  rintro x' l' - hBack
  rw [next_of_not_mark, hLeave]
  exact fun hEq => hBack ⟨hs.hasMark, hEq.trans hs.keyAtMark.symm⟩

theorem OnRow.step_cons {z' : α × Option β} (hs : J.OnRow s x l f z (z' :: zs)) :
    ∃ s', step left right J.leftKey J.rightKey s = some (true, s') ∧ J.OnRow s' x l f z' zs := by
  generalize hRest : z' :: zs = rest at hs
  cases hs with
  | @matched a u y t hs =>
    cases t with
    | nil => cases hRest
    | cons y' t =>
      by_cases hKey : J.rightKey y' = J.leftKey x
      · rw [takeWhile_cons_of_pos (by simpa using hKey)] at hRest
        obtain ⟨rfl, rfl⟩ := cons.inj hRest
        obtain ⟨r, hStep, hr⟩ := J.right_reads.step hs.rightAt
        refine ⟨{ s with right := r, state := .s_next_right, current := some (x, some y') }, ?_,
          .matched ⟨hs.leftAt, hr, hKey, ?_, rfl, hs.hasMark, hs.keyAtMark, hs.mark, rfl⟩⟩
        · simp [step, hs.state, hStep, J.left_reads.get hs.leftAt, J.right_reads.get hr, hKey,
            makeCurrent]
        · rw [← hs.behind, dropWhile_cons_of_pos (by simpa using hKey)]
      · rw [takeWhile_cons_of_neg (by simpa using hKey)] at hRest
        cases hRest
  | staleMatch | unmatched => cases hRest

theorem OnRow.step_nil (hs : J.OnRow s x l f z []) :
    J.Advances s (step left right J.leftKey J.rightKey s) (some (J.leftKey x)) f l := by
  generalize hRest : [] = rest at hs
  cases hs with
  | @matched a u y t hs => exact hs.leaves (map_eq_nil_iff.mp hRest.symm)
  | @staleMatch e hx hState hMark hKey hHas hCurrent =>
    have hStep : step left right J.leftKey J.rightKey s =
        nextLeft left right J.leftKey J.rightKey { s with state := .s_next_left } := by
      simp [step, hState, hHas.2.1.1]
    rw [hStep]
    refine advances_nextLeft (s := { s with state := .s_next_left }) hx rfl hHas.2.2.1 (by simp)
      (fun _ => ⟨hKey, hHas⟩) ?_ fun _ _ => ⟨_, hCurrent⟩
    rintro x' l' - hBack
    have hLeave : (Front.stale e).leave J.rightKey J.rspec.residual (some (J.leftKey x)) =
        .stale e := by
      rw [Front.leave, hHas.2.2.1.2.2.1]
      exact ite_self _
    rw [next_of_not_mark, hLeave]
    exact fun hEq => hBack ⟨hMark, hEq.trans hKey.symm⟩
  | unmatched hx hShows hNone hState hMark hCurrent =>
    have hLeave : f.leave J.rightKey J.rspec.residual (some (J.leftKey x)) = f :=
      Front.dropWhile_eq_self fun y hy => by simpa using Front.matching_eq_nil.mp hNone y hy
    have hNext (k' : κ) : J.next (some (J.leftKey x)) k' f = f.skip J.rightKey k' := by
      rw [next, Front.next, hLeave, ite_self]
    by_cases hf : f = .gone
    · subst hf
      exact advances_onlyLeft hx rfl hShows hState hMark (fun x' _ _ => hNext _)
        fun _ _ => ⟨_, hCurrent⟩
    have hStep : step left right J.leftKey J.rightKey s =
        nextLeft left right J.leftKey J.rightKey s := by
      have hNextLeft : s.state = .s_next_left := by
        cases f with
        | gone => exact absurd rfl hf
        | row | stale => exact hState
      rw [step, hNextLeft]
    rw [hStep]
    exact advances_nextLeft hx rfl hShows hf (by simp [hMark]) (fun x' _ _ _ => hNext _)
      fun _ _ => ⟨_, hCurrent⟩

/-!
## Runs

A predicate that the next left row keeps, and with which every match has a known state, holds
throughout a run (`Keeps`).
-/

section

variable (J) (I : Option κ → Front β → List α → Prop)

def initial : Front β := .ofList .gone J.rspec.rows

def rows : List (α × Option β) := J.walk none J.initial J.lspec.rows

structure Keeps : Prop where
  start : I none J.initial J.lspec.rows
  next : ∀ {k f x l}, I k f (x :: l) → J.Sound (J.leftKey x) (J.next k (J.leftKey x) f) ∧
    I (some (J.leftKey x)) (J.next k (J.leftKey x) f) l

def At (s : State α β κ left right) : Position (α × Option β) → Prop
  | .start => J.L s.left .start ∧ s.hasRightMark = false ∧ J.R s.right (.ofList J.rspec.rows) ∧
      s.state = stateAt J.initial
  | .row z rest => z :: rest <:+ J.rows ∧ ∃ x l f zs, J.OnRow s x l f z zs ∧
      zs ++ J.walk (some (J.leftKey x)) f l = rest ∧ I (some (J.leftKey x)) f l
  | .ended => J.Ended s ∧ (s.hasRightMark = true → ∃ k f, J.HasMark k s f ∧ I k f [])

end

variable {I : Option κ → Front β → List α → Prop}

theorem at_of_advances (hKeeps : J.Keeps I) {result : Option (Bool × State α β κ left right)}
    (h : J.Advances s result k f l) (hI : I k f l) (hSuffix : J.walk k f l <:+ J.rows) :
    ∃ s', result = some ((Position.ofList (J.walk k f l)).isRow, s') ∧
      J.At I s' (.ofList (J.walk k f l)) := by
  cases l with
  | nil =>
    obtain ⟨s', hResult, -, hEnded, hMark⟩ := h
    exact ⟨s', hResult, hEnded, fun hHas => ⟨k, f, hMark hHas, hI⟩⟩
  | cons x l =>
    obtain ⟨s', z, zs, hResult, -, hBlock, hRow⟩ := h
    obtain ⟨hSound, hI'⟩ := hKeeps.next hI
    have hWalk : J.walk k f (x :: l) =
        z :: (zs ++ J.walk (some (J.leftKey x)) (J.next k (J.leftKey x) f) l) := by
      rw [walk, walkFrom, ← cons_append, ← hBlock]
      rfl
    rw [hWalk] at hSuffix ⊢
    exact ⟨s', hResult, hSuffix, x, l, _, zs, hRow hSound, rfl, hI'⟩

theorem next_initial : J.next none c J.initial = J.initial.skip J.rightKey c := by
  have hLeave : J.initial.leave J.rightKey J.rspec.residual none = J.initial :=
    Front.dropWhile_eq_self fun _ _ => by simp
  rw [next, Front.next, hLeave, ite_self]

theorem step_start (hs : J.At I s .start) :
    J.Advances s (step left right J.leftKey J.rightKey s) none J.initial J.lspec.rows := by
  obtain ⟨hLeft, hMark, hRight, hState⟩ := hs
  have hNext (k : κ) : J.next none k J.initial = J.initial.skip J.rightKey k := next_initial
  have hNe (hNil : J.lspec.rows = []) (hRows : J.lspec.rows ≠ []) : ∃ z, s.current = some z :=
    absurd hNil hRows
  unfold initial at hState hNext ⊢
  cases hRight' : J.rspec.rows with
  | nil =>
    rw [hRight'] at hState hRight hNext
    exact advances_onlyLeft hLeft rfl ⟨_, hRight, by simp⟩ hState hMark (fun _ _ _ => hNext _) hNe
  | cons y t =>
    rw [hRight'] at hState hRight hNext
    have hStep : step left right J.leftKey J.rightKey s =
        nextLeft left right J.leftKey J.rightKey s := by
      rw [step, hState]
      rfl
    rw [hStep]
    exact advances_nextLeft (g := .row y t) hLeft rfl hRight (by simp) (by simp [hMark])
      (fun _ _ _ _ => hNext _) hNe

theorem init_spec : ∃ s, J.join.init = some s ∧ J.At I s .start := by
  obtain ⟨l, hInitL, hL⟩ := J.left_reads.init
  obtain ⟨r, hInitR, hR⟩ := J.right_reads.init
  obtain ⟨r', hStep, hr'⟩ := J.right_reads.step hR
  refine ⟨_, by simp only [join, leftJoinEq, hInitL, hInitR, hStep, Option.bind_eq_bind,
    Option.bind_some]; rfl, hL, rfl, hr', ?_⟩
  unfold initial
  cases J.rspec.rows <;> rfl

theorem step_spec (hKeeps : J.Keeps I) {p : Position (α × Option β)} (hs : J.At I s p) :
    ∃ s', step left right J.leftKey J.rightKey s = some ((p.next J.rows).isRow, s') ∧
      J.At I s' (p.next J.rows) := by
  rw [Position.next_eq]
  cases p with
  | start => exact at_of_advances hKeeps (step_start hs) hKeeps.start suffix_rfl
  | row z rest =>
    obtain ⟨hSuffix, x, l, f, zs, hRow, rfl, hI⟩ := hs
    have hRest := (suffix_cons z _).trans hSuffix
    rw [Position.remaining]
    cases zs with
    | nil => exact at_of_advances hKeeps hRow.step_nil hI hRest
    | cons z' zs =>
      obtain ⟨s', hStep, hs'⟩ := hRow.step_cons
      exact ⟨s', hStep, hRest, x, l, f, zs, hs', rfl, hI⟩
  | ended =>
    obtain ⟨⟨hLeft, hRight, hState, hCurrent⟩, hMark⟩ := hs
    obtain ⟨left', hStep, hs'⟩ := J.left_reads.step hLeft
    refine ⟨{ s with left := left' }, by simp [step, hState, hStep, Position.remaining],
      ⟨hs', hRight, hState, hCurrent⟩, fun hHas => ?_⟩
    obtain ⟨k, f, hAt, hI⟩ := hMark hHas
    exact ⟨k, f, by cases f <;> exact hAt, hI⟩

theorem OnRow.current (hs : J.OnRow s x l f z zs) :
    s.current = some z := by
  cases hs with
  | matched hs => exact hs.current
  | staleMatch _ _ _ _ _ hCurrent => exact hCurrent
  | unmatched _ _ _ _ _ hCurrent => exact hCurrent

theorem steps (hKeeps : J.Keeps I) : Steps J.join J.rows (J.At I) where
  init := init_spec
  suffix hs := hs.1
  get := fun ⟨_, _, _, _, _, hs, _⟩ => hs.current
  step := step_spec hKeeps

theorem length_rows_le : J.rows.length ≤ J.join.bound := by
  refine le_trans ?_ (Nat.mul_le_mul J.left_reads.bound (Nat.succ_le_succ J.right_reads.bound))
  exact length_walkFrom_le (by rw [initial, Front.elems_ofList_gone])

theorem rows_eq_nil : J.rows = [] ↔ J.lspec.rows = [] := by
  unfold rows
  cases J.lspec.rows with
  | nil => simp [walk, walkFrom]
  | cons x l => simp [walk, walkFrom_cons_ne_nil]

theorem residual_spec {s' : State α β κ left right} {b : Bool} (hs : J.At I s (.row z []))
    (hStep : step left right J.leftKey J.rightKey s = some (b, s')) :
    s'.current = J.rows.getLast? := by
  obtain ⟨⟨pre, hRows⟩, x, l, f, zs, hRow, hNil, -⟩ := hs
  obtain ⟨rfl, hRest⟩ := append_eq_nil_iff.mp hNil
  cases l with
  | nil =>
    obtain ⟨s₁, hLast, hCurrent, -⟩ := hRow.step_nil
    obtain rfl := Cursor.state_eq_of_step (c := J.join) hLast hStep
    rw [hCurrent, hRow.current, ← hRows]
    simp
  | cons x' l => exact absurd hRest walkFrom_cons_ne_nil

theorem readable_spec {p : Position (α × Option β)}
    (hRows : J.lspec.rows ≠ []) (hs : J.At I s p) (hStart : p ≠ .start) :
    ∃ z, s.current = some z := by
  cases p with
  | start => exact absurd rfl hStart
  | row z rest =>
    obtain ⟨-, x, l, f, zs, hRow, -⟩ := hs
    exact ⟨z, hRow.current⟩
  | ended => exact hs.1.current hRows

def spec (J : Inputs left right κ) : Spec (α × Option β) where
  rows := J.rows
  residual := J.rows.getLast?
  Readable := J.lspec.rows ≠ []
  Restorable := J.rspec.Restorable ∧ J.lspec.Restorable ∧ J.lspec.Readable

/-- As long as the marks of the join are not used, the right input need not restore its own. -/
theorem reads_withSnapshots (hKeeps : J.Keeps I) :
    Reads J.join.withSnapshots J.spec (J.At I) :=
  (steps hKeeps).reads_withSnapshots length_rows_le residual_spec
    (fun hRows hNil => hRows (rows_eq_nil.mpr hNil)) readable_spec

/-!
## Ascending inputs

`Level` is what holds at a left row of ascending inputs. The next left row keeps it unless it
has the key of the element behind the last right row (`Ghost`), and at every left row of that kind
the join differs from the left outer join.
-/

section

variable (J : Inputs left right κ)

structure Ascending : Prop where
  left : J.lspec.rows.Pairwise fun a b => J.leftKey a ≤ J.leftKey b
  right : J.rspec.rows.Pairwise fun a b => J.rightKey a ≤ J.rightKey b

abbrev StaleRow (y e : β) : Prop :=
  LeftJoinEq.StaleRow J.leftKey J.rightKey J.lspec.rows J.rspec y e

abbrev Ghost (x : α) : Prop := LeftJoinEq.Ghost J.leftKey J.rightKey J.lspec.rows J.rspec x

/-- At a left row with the key `k`: the rows passed are below it, and the front is not. -/
def Level (k : κ) : Front β → Prop
  | .row y t => k ≤ J.rightKey y ∧ Passed J.rightKey J.rspec.rows k (y :: t)
  | .stale e => k < J.rightKey e ∧ ∃ y, J.StaleRow y e ∧ J.rightKey y < k
  | .gone => (∀ y ∈ J.rspec.rows, J.rightKey y < k) ∧ ∀ y e, J.StaleRow y e → J.rightKey e < k

inductive Sorted : Option κ → Front β → List α → Prop
  | start : Sorted none J.initial J.lspec.rows
  | row {x : α} {f : Front β} {l : List α} : J.Level (J.leftKey x) f →
      x :: l <:+ J.lspec.rows → Sorted (some (J.leftKey x)) f l

end

theorem all_lt_of_last (h : J.Ascending) (hLast : J.rspec.rows.getLast? = some y)
    (hLt : J.rightKey y < c) : ∀ r ∈ J.rspec.rows, J.rightKey r < c :=
  fun _ hr => (le_last h.right hLast hr).trans_lt hLt

theorem Level.not_ghost (h : J.Ascending) (hLevel : J.Level (J.leftKey x) f) : ¬ J.Ghost x := by
  rintro ⟨y, e, hStale, hLt, hKey⟩
  cases f with
  | row z t =>
    have hLast := le_last h.right hStale.last (mem_of_passed hLevel.2)
    exact absurd (hLevel.1.trans hLast) (not_le.mpr (hKey ▸ hLt))
  | stale e' =>
    obtain ⟨hBelow, y', hStale', -⟩ := hLevel
    rw [hKey, (hStale.functional hStale').2] at hBelow
    exact lt_irrefl _ hBelow
  | gone => exact (hLevel.2 y e hStale).ne hKey.symm

theorem filter_eq_nil_of_lt (h : ∀ y ∈ J.rspec.rows, J.rightKey y < c) :
    (J.rspec.rows.filter fun y => J.rightKey y = c) = [] :=
  filter_eq_nil_iff.mpr fun y hy => by simpa using (h y hy).ne

section

variable (h : J.Ascending)
include h

theorem Level.split (hLevel : J.Level c (.row y t)) :
    ((y :: t).takeWhile fun r => J.rightKey r = c) = ((y :: t).filter fun r => J.rightKey r = c) ∧
      ((y :: t).dropWhile fun r => J.rightKey r = c) =
        (y :: t).filter fun r => c < J.rightKey r := by
  obtain ⟨hLe, pre, hRows, -⟩ := hLevel
  have hAsc := h.right
  rw [hRows] at hAsc
  have hTail := (pairwise_append.mp hAsc).2.1
  have hSplit := takeWhile_eq_filter hTail
    (forall_mem_cons.mpr ⟨hLe, fun r hr => hLe.trans ((pairwise_cons.mp hTail).1 r hr)⟩)
  simpa only [eq_comm (a := c)] using hSplit

theorem Level.matching (hLevel : J.Level c f) :
    J.matching c f = J.rspec.rows.filter fun y => J.rightKey y = c := by
  cases f with
  | row y t =>
    rw [Passed.filter hLevel.2, ← (hLevel.split h).1]
    rfl
  | stale e =>
    obtain ⟨hLt, y, hStale, hBelow⟩ := hLevel
    rw [filter_eq_nil_of_lt (all_lt_of_last h hStale.last hBelow)]
    rw [Inputs.matching, Front.matching, Front.elems,
      takeWhile_cons_of_neg (by simpa using hLt.ne')]
  | gone => rw [filter_eq_nil_of_lt hLevel.1]; rfl

theorem skip_row (hPassed : Passed J.rightKey J.rspec.rows c (y :: t))
    (hPrev : ∀ a ∈ J.lspec.rows, J.leftKey a < c → J.leftKey a < J.rightKey y) :
    J.Level c ((Front.row y t).skip J.rightKey c) := by
  have hDropped := hPassed.dropWhile
  rw [Front.skip, Front.dropWhile]
  cases hDrop : (y :: t).dropWhile fun r => decide (J.rightKey r < c) with
  | nil =>
    rw [hDrop] at hDropped
    have hAll : ∀ r ∈ J.rspec.rows, J.rightKey r < c := by
      obtain ⟨pre, hRows, hPre⟩ := hDropped
      simpa [hRows] using hPre
    refine ⟨hAll, ?_⟩
    -- no left row can have had the key of the last right row
    rintro z e ⟨hLast, -, a, ha, hKey⟩
    have hBelow := hPrev a ha (hKey ▸ hAll z (mem_of_getLast? hLast))
    have hAbove := le_last h.right hLast (mem_of_passed hPassed)
    exact absurd (hKey ▸ hBelow) (not_lt.mpr hAbove)
  | cons z u =>
    have hNot := head_dropWhile_not (l := y :: t) (fun r => decide (J.rightKey r < c))
      (by simp [hDrop])
    simp only [hDrop, head_cons, decide_eq_false_iff_not, not_lt] at hNot
    rw [hDrop] at hDropped
    exact ⟨hNot, hDropped⟩

theorem skip_stale (hStale : J.StaleRow y e) (hLt : J.rightKey y < c) :
    J.Level c ((Front.stale e).skip J.rightKey c) ∨
      (Front.stale e).skip J.rightKey c = .stale e ∧ J.rightKey e = c := by
  rw [Front.skip, Front.dropWhile]
  rcases lt_trichotomy (J.rightKey e) c with hBelow | hEq | hAbove
  · rw [if_pos (by simpa using hBelow)]
    refine Or.inl ⟨all_lt_of_last h hStale.last hLt, fun y' e' hStale' => ?_⟩
    rwa [← (hStale.functional hStale').2]
  · exact Or.inr ⟨if_neg (by simp [hEq]), hEq⟩
  · rw [if_neg (by simpa using hAbove.le)]
    exact Or.inl ⟨hAbove, y, hStale, hLt⟩

theorem Level.next (hLevel : J.Level (J.leftKey x) f) (hRows : x :: x' :: l <:+ J.lspec.rows) :
    J.Level (J.leftKey x') (J.next (some (J.leftKey x)) (J.leftKey x') f) ∨
      J.Ghost x' ∧ ∃ e, J.next (some (J.leftKey x)) (J.leftKey x') f = .stale e ∧
        J.rightKey e = J.leftKey x' := by
  have hMem : x ∈ J.lspec.rows := hRows.subset mem_cons_self
  have hGhost {y e : β} (hStale : J.StaleRow y e) (hLt : J.rightKey y < J.leftKey x')
      (hSkip : (Front.stale e).skip J.rightKey (J.leftKey x') = .stale e ∧
        J.rightKey e = J.leftKey x') : J.Ghost x' ∧
        ∃ e', (Front.stale e).skip J.rightKey (J.leftKey x') = .stale e' ∧
          J.rightKey e' = J.leftKey x' :=
    ⟨⟨y, e, hStale, hSkip.2 ▸ hLt, hSkip.2.symm⟩, e, hSkip⟩
  rcases (next_le h.left hRows).eq_or_lt with hEq | hLt
  · have hSkip : f.skip J.rightKey (J.leftKey x') = f := by
      refine Front.dropWhile_eq_self fun y hy => ?_
      rw [← hEq, decide_eq_false_iff_not, not_lt]
      cases f with
      | row z t => cases hy; exact hLevel.1
      | stale e => cases hy; exact hLevel.1.le
      | gone => cases hy
    rw [Inputs.next, Front.next, if_pos (congrArg some hEq), hSkip, ← hEq]
    exact Or.inl hLevel
  rw [next_of_not_mark fun hEq => hLt.ne' (Option.some.inj hEq)]
  cases f with
  | row y t =>
    have hFilter := (hLevel.split h).2
    obtain ⟨-, pre, hRight, hPre⟩ := hLevel
    have hKeep : (y :: t).takeWhile (fun r => J.rightKey r = J.leftKey x) ++
        (y :: t).dropWhile (fun r => J.rightKey r = J.leftKey x) = y :: t :=
      takeWhile_append_dropWhile
    have hTaken : ∀ r ∈ (y :: t).takeWhile fun r => J.rightKey r = J.leftKey x,
        J.rightKey r = J.leftKey x := fun r hr => by simpa using mem_takeWhile_imp hr
    simp only [Front.leave, Front.dropWhile, Option.some.injEq]
    cases hRest : (y :: t).dropWhile fun r => J.rightKey r = J.leftKey x with
    | nil =>
      rw [hRest, append_nil] at hKeep
      obtain ⟨z, hLast⟩ := getLast?_isSome.mpr
        (show J.rspec.rows ≠ [] by simp [hRight]) |> Option.isSome_iff_exists.mp
      have hz : J.rightKey z = J.leftKey x := by
        refine hTaken z ?_
        rw [hRight, getLast?_append_of_ne_nil _ (by simp)] at hLast
        rw [hKeep]
        exact mem_of_getLast? hLast
      have hBelow : J.rightKey z < J.leftKey x' := hz ▸ hLt
      cases hResidual : J.rspec.residual with
      | none =>
        refine Or.inl ⟨all_lt_of_last h hLast hBelow, ?_⟩
        rintro _ _ ⟨-, hSome, -⟩
        rw [hResidual] at hSome
        cases hSome
      | some e =>
        have hStale : J.StaleRow z e := ⟨hLast, hResidual, x, hMem, hz.symm⟩
        exact (skip_stale h hStale hBelow).imp_right (hGhost hStale hBelow)
    | cons z u =>
      rw [hRest] at hKeep hFilter
      have hz : J.leftKey x < J.rightKey z := by
        have hIn : z ∈ z :: u := mem_cons_self
        rw [hFilter] at hIn
        simpa using (mem_filter.mp hIn).2
      refine Or.inl (skip_row h ⟨pre ++ (y :: t).takeWhile fun r => J.rightKey r = J.leftKey x,
        by rw [hRight, append_assoc, hKeep], fun r hr => ?_⟩ fun a ha hBelow =>
          (le_current h.left hRows ha hBelow).trans_lt hz)
      rcases mem_append.mp hr with hr | hr
      · exact (hPre r hr).trans hLt
      · exact (hTaken r hr).trans_lt hLt
  | stale e =>
    obtain ⟨hAbove, y, hStale, hBelow⟩ := hLevel
    have hLeave : (Front.stale e).leave J.rightKey J.rspec.residual (some (J.leftKey x)) =
        .stale e := if_neg (by simpa using hAbove.ne')
    rw [hLeave]
    exact (skip_stale h hStale (hBelow.trans hLt)).imp_right (hGhost hStale (hBelow.trans hLt))
  | gone =>
    exact Or.inl ⟨fun y hy => (hLevel.1 y hy).trans hLt, fun y e hStale =>
      (hLevel.2 y e hStale).trans hLt⟩

theorem level_start (hRows : J.lspec.rows = x :: l) :
    J.Level (J.leftKey x) (J.next none (J.leftKey x) J.initial) := by
  rw [next_initial]
  unfold initial
  cases hRight : J.rspec.rows with
  | nil =>
    refine ⟨by simp [hRight], ?_⟩
    rintro y e ⟨hLast, -⟩
    simp [hRight] at hLast
  | cons y t =>
    refine skip_row h ⟨[], hRight, by simp⟩ fun a ha hLt => ?_
    -- no left row is in front of the first one
    have hAsc := h.left
    rw [hRows] at ha hAsc
    rcases mem_cons.mp ha with rfl | ha
    · exact absurd hLt (lt_irrefl _)
    · exact absurd hLt (not_lt.mpr ((pairwise_cons.mp hAsc).1 a ha))

theorem Sorted.next (hs : J.Sorted k f (x :: l)) :
    x :: l <:+ J.lspec.rows ∧ (J.Level (J.leftKey x) (J.next k (J.leftKey x) f) ∨
      J.Ghost x ∧ ∃ e, J.next k (J.leftKey x) f = .stale e ∧ J.rightKey e = J.leftKey x) := by
  generalize hRest : x :: l = rest at hs
  cases hs with
  | start => exact ⟨suffix_rfl, Or.inl (level_start h hRest.symm)⟩
  | row hLevel hRows =>
    subst hRest
    exact ⟨(suffix_cons _ _).trans hRows, hLevel.next h hRows⟩

end

theorem Sorted.level (hs : J.Sorted (some c) f l) : J.Level c f := by
  generalize hKey : some c = k' at hs
  cases hs with
  | start => cases hKey
  | row hLevel => rwa [Option.some.inj hKey]

/-!
## The left outer join

Stepping the join gives the left outer join exactly when no left row is a `Ghost`
(`yieldsAll_iff`). Marks need more: while the join stands on a left row below the stale
element it can go on, but a restore brings the ended right input back only as far as that
input can restore a mark that was made behind its last row. `reads` has the join without
such rows as a cursor over which others may be built.
-/

abbrev joined (J : Inputs left right κ) (l : List α) : List (α × Option β) :=
  joinRows J.leftKey J.rightKey l J.rspec.rows

abbrev NoGhost (J : Inputs left right κ) : Prop :=
  LeftJoinEq.NoGhost J.leftKey J.rightKey J.lspec.rows J.rspec

section

variable (h : J.Ascending) (hGhost : J.NoGhost)
include h hGhost

theorem keeps : J.Keeps J.Sorted where
  start := .start
  next {k f x l} hs := by
    obtain ⟨hRows, hLevel | ⟨hIs, -⟩⟩ := hs.next h
    · refine ⟨fun e he hKey => ?_, .row hLevel hRows⟩
      rw [he] at hLevel
      exact absurd hKey hLevel.1.ne'
    · exact absurd hIs (hGhost x (hRows.subset mem_cons_self))

theorem walk_eq (hs : J.Sorted k f l) : J.walk k f l = J.joined l := by
  induction l generalizing k f with
  | nil => rfl
  | cons x l ih =>
    obtain ⟨hRows, hLevel | ⟨hIs, -⟩⟩ := hs.next h
    · rw [joined, joinRows_cons, joinRow_eq_block, ← hLevel.matching h]
      exact congrArg _ (ih (.row hLevel hRows))
    · exact absurd hIs (hGhost x (hRows.subset mem_cons_self))

theorem rows_eq : J.rows = J.joined J.lspec.rows := walk_eq h hGhost .start

theorem spec_eq : J.spec = LeftJoinEq.spec J.leftKey J.rightKey J.lspec J.rspec := by
  simp only [spec, LeftJoinEq.spec, rows_eq h hGhost]

end

theorem OnRow.yields {out : List (α × Option β)} (hs : J.OnRow s x l f z zs)
    (hOut : J.join.Yields s (zs ++ out)) : ∃ s', J.join.Yields s' out ∧
      J.Advances s' (step left right J.leftKey J.rightKey s') (some (J.leftKey x)) f l := by
  induction zs generalizing s z with
  | nil => exact ⟨s, hOut, hs.step_nil⟩
  | cons z' zs ih =>
    obtain ⟨s', hStep, hs'⟩ := hs.step_cons
    obtain ⟨s₁, hStep₁, -, hRest⟩ := hOut.of_cons
    obtain rfl := Cursor.state_eq_of_step hStep hStep₁
    exact ih hs' hRest

theorem not_ghost_of_advances (h : J.Ascending) (hs : J.Sorted k f l)
    (hStep : J.Advances s (step left right J.leftKey J.rightKey s) k f l)
    (hOut : J.join.Yields s (J.joined l)) : ∀ x ∈ l, ¬ J.Ghost x := by
  induction l generalizing s k f with
  | nil => simp
  | cons x l ih =>
    obtain ⟨s', z, zs, hNext, hCurrent, hBlock, hRow⟩ := hStep
    rw [joined, joinRows_cons, joinRow_eq_block] at hOut
    obtain ⟨hRows, hLevel | ⟨⟨y, e, hStale, hLt, hKey⟩, e', hFront, hSame⟩⟩ := hs.next h
    · rw [← hLevel.matching h, hBlock, cons_append] at hOut
      obtain ⟨s₁, hStep₁, -, hRest⟩ := hOut.of_cons
      obtain rfl := Cursor.state_eq_of_step hNext hStep₁
      obtain ⟨s₂, hOut', hAdvances⟩ := (hRow fun e he hKey => by
        rw [he] at hLevel
        exact absurd hKey hLevel.1.ne').yields hRest
      exact forall_mem_cons.mpr
        ⟨hLevel.not_ghost h, ih (.row hLevel hRows) hAdvances hOut'⟩
    · -- the join stands on the stale element, and the left outer join has no match
      rw [filter_eq_nil_of_lt (all_lt_of_last h hStale.last (hKey ▸ hLt))] at hOut
      obtain ⟨s₁, hStep₁, hGet, -⟩ := Cursor.Yields.of_cons hOut
      obtain rfl := Cursor.state_eq_of_step hNext hStep₁
      cases hCurrent.symm.trans hGet
      rw [hFront, matching, Front.matching, Front.elems,
        takeWhile_cons_of_pos (by simpa using hSame)] at hBlock
      cases hBlock

/-- Stepping the join to its end gives the left outer join if and only if no left row has
the key of the element behind the last right row. -/
theorem yieldsAll_iff (h : J.Ascending) :
    J.join.YieldsAll (J.joined J.lspec.rows) ↔ J.NoGhost := by
  constructor
  · rintro ⟨s, hInit, hOut⟩
    obtain ⟨s', hInit', hs⟩ := init_spec (J := J) (I := J.Sorted)
    cases hInit.symm.trans hInit'
    exact not_ghost_of_advances h .start (step_start hs) hOut
  · intro hGhost
    rw [← rows_eq h hGhost]
    exact (steps (keeps h hGhost)).yieldsAll

/-! ## Marks -/

theorem inputs_of_at {p : Position (α × Option β)} (hs : J.At I s p) :
    (∃ q, J.L s.left q ∧ (p ≠ .start → q ≠ .start)) ∧ ∃ q, J.R s.right q ∧ q ≠ .start := by
  cases p with
  | start => exact ⟨⟨_, hs.1, (absurd rfl ·)⟩, _, hs.2.2.1, by simp⟩
  | row z rest =>
    obtain ⟨-, x, l, f, zs, hRow, -⟩ := hs
    cases hRow with
    | matched h => exact ⟨⟨_, h.leftAt, by simp⟩, _, h.rightAt, by simp⟩
    | staleMatch hx _ _ _ hMark => exact ⟨⟨_, hx, by simp⟩, hMark.2.2.1.exists_position⟩
    | unmatched hx hShows => exact ⟨⟨_, hx, by simp⟩, hShows.exists_position⟩
  | ended => exact ⟨⟨_, hs.1.leftAt, by simp⟩, hs.1.rightAt⟩

omit [LinearOrder κ] in
theorem restoreRightMark_none (hMark : s₀.hasRightMark = false) :
    restoreRightMark left right J.rightKey (mark left right s₀) s =
      some { s with hasRightMark := false } := by
  simp [restoreRightMark, mark, hMark]

omit [LinearOrder κ] in
theorem restoreRightMark_some {m : right.State} {z : β} {u : List β}
    (hMark : s₀.hasRightMark = true) (hMarked : s₀.rightMark = some (right.mark m))
    (hm : J.R m (.row z u)) (hq : J.R s.right q) :
    ∃ r, J.R r (.row z u) ∧ restoreRightMark left right J.rightKey (mark left right s₀) s =
      some { s with
        hasRightMark := true, rightMark := some (right.mark m), right := r,
        rightKeyAtMark := some (J.rightKey z) } := by
  obtain ⟨r, hRestore, hr⟩ := J.right_reads.restore hm hq
  exact ⟨r, hr, by simp [restoreRightMark, mark, hMark, hMarked, hRestore, J.right_reads.get hr]⟩

omit [LinearOrder κ] in
theorem restore_right (hSafe : J.rspec.Restorable) {m r : right.State} {p q : Position β}
    (hm : J.R m p) (hp : p ≠ .start) (hr : J.R r q) (hq : q ≠ .start) :
    ∃ r', right.restore (right.mark m) r = some r' ∧ J.R r' p := by
  cases p with
  | start => exact absurd rfl hp
  | row y t => exact J.right_reads.restore hm hr
  | ended => exact J.right_reads.restore_ended hSafe hm hr hq

theorem OnRow.restore (hStale : NoStale J.leftKey J.rightKey J.lspec.rows J.rspec)
    (hSafe : J.rspec.Restorable) (hs₀ : J.OnRow s₀ x l f z zs) (hLevel : J.Level (J.leftKey x) f)
    (hp : J.L s.left p) (hq : J.R s.right q) (hStart : q ≠ .start) :
    ∃ s', restore left right J.leftKey J.rightKey (mark left right s₀) s = some s' ∧
      J.OnRow s' x l f z zs := by
  cases hs₀ with
  | @matched w u y t h₀ =>
    obtain ⟨m, hm, hMarked, hw⟩ := h₀.mark
    obtain ⟨r₁, hr₁, hInner⟩ := restoreRightMark_some h₀.hasMark hMarked hm hq
    obtain ⟨l', hLeft, hl'⟩ := J.left_reads.restore h₀.leftAt hp
    obtain ⟨r₂, hRight, hr₂⟩ := J.right_reads.restore h₀.rightAt hr₁
    refine ⟨{ s with
        left := l', right := r₂, state := .s_next_right, hasRightMark := true,
        rightMark := some (right.mark m), rightKeyAtMark := some (J.rightKey w),
        current := some (x, some y) }, ?_,
      .matched ⟨hl', hr₂, h₀.key, h₀.behind, rfl, rfl, hw, ⟨m, hm, rfl, hw⟩, rfl⟩⟩
    rw [LeftJoinEq.restore, hInner]
    simp [mark, hLeft, hRight, h₀.state, J.left_reads.get hl', J.right_reads.get hr₂, h₀.key,
      makeCurrent]
  | staleMatch _ _ _ _ hMark => exact absurd (Option.some.inj hMark.2.2.2) hLevel.1.ne'
  | unmatched hx hShows hNone hState hMark hCurrent =>
    obtain ⟨l', hLeft, hl'⟩ := J.left_reads.restore hx hp
    rw [LeftJoinEq.restore, restoreRightMark_none hMark]
    cases f with
    | row y t =>
      obtain ⟨r', hRight, hr'⟩ := J.right_reads.restore hShows hq
      have hKey : J.leftKey x ≠ J.rightKey y := by
        intro hEq
        exact Front.matching_eq_nil.mp hNone y rfl hEq.symm
      refine ⟨{ s with
          left := l', right := r', state := .s_next_left, hasRightMark := false,
          current := some (x, none) }, ?_, .unmatched hl' hr' hNone rfl rfl rfl⟩
      simp [mark, hLeft, hRight, hState, stateAt, J.left_reads.get hl', J.right_reads.get hr', hKey,
        makeCurrent]
    | stale e =>
      obtain ⟨hBelow, y, hStaleRow, hLt⟩ := hLevel
      have hMem : x ∈ J.lspec.rows := (J.left_reads.suffix hx).subset mem_cons_self
      exact absurd ⟨hLt, hBelow.le⟩ (hStale y e hStaleRow x hMem)
    | gone =>
      obtain ⟨p, hp, hNe⟩ := hShows
      obtain ⟨r', hRight, hr'⟩ := restore_right hSafe hp hNe hq hStart
      refine ⟨{ s with
          left := l', right := r', state := .s_only_left, hasRightMark := false,
          current := some (x, none) }, ?_, .unmatched hl' ⟨p, hr', hNe⟩ rfl rfl rfl rfl⟩
      simp [mark, hLeft, hRight, hState, stateAt, J.left_reads.get hl', makeCurrent]

theorem Ended.restore (hSafe : J.rspec.Restorable) (hLeftSafe : J.lspec.Restorable)
    (hReadable : J.lspec.Readable) (hs₀ : J.Ended s₀)
    (hMark : s₀.hasRightMark = true → ∃ k f, J.HasMark k s₀ f ∧ J.Sorted k f [])
    (hp : J.L s.left p) (hStart : p ≠ .start) (hq : J.R s.right q) (hStart' : q ≠ .start) :
    ∃ s', restore left right J.leftKey J.rightKey (mark left right s₀) s = some s' ∧
      J.Ended s' ∧ (s'.hasRightMark = true → ∃ k f, J.HasMark k s' f ∧ J.Sorted k f []) := by
  obtain ⟨hLeft₀, ⟨q₀, hRight₀, hp₀⟩, hState, -⟩ := hs₀
  obtain ⟨l', hLeft, hl'⟩ := J.left_reads.restore_ended hLeftSafe hLeft₀ hp hStart
  obtain ⟨x, hx⟩ := J.left_reads.readable hReadable hl' (by simp)
  cases hHas : s₀.hasRightMark with
  | false =>
    obtain ⟨r', hRight, hr'⟩ := restore_right hSafe hRight₀ hp₀ hq hStart'
    refine ⟨{ s with
        left := l', right := r', state := .s_only_left, hasRightMark := false,
        current := some (x, none) }, ?_, ⟨hl', ⟨q₀, hr', hp₀⟩, rfl, fun _ => ⟨_, rfl⟩⟩, by simp⟩
    rw [LeftJoinEq.restore, restoreRightMark_none hHas]
    simp [mark, hLeft, hRight, hState, hx, makeCurrent]
  | true =>
    obtain ⟨k, f, hMarkAt, hSorted⟩ := hMark hHas
    cases f with
    | row w u =>
      obtain ⟨m, hm, hMarked, hw⟩ := hMarkAt
      obtain ⟨r₁, hr₁, hRestored⟩ := restoreRightMark_some hHas hMarked hm hq
      obtain ⟨r', hRight, hr'⟩ := restore_right hSafe hRight₀ hp₀ hr₁ (by simp)
      refine ⟨{ s with
          left := l', right := r', state := .s_only_left, hasRightMark := true,
          rightMark := some (right.mark m), rightKeyAtMark := some (J.rightKey w),
          current := some (x, none) }, ?_, ⟨hl', ⟨q₀, hr', hp₀⟩, rfl, fun _ => ⟨_, rfl⟩⟩,
        fun _ => ⟨k, .row w u, ⟨m, hm, rfl, hw⟩, hSorted⟩⟩
      rw [LeftJoinEq.restore, hRestored]
      simp [mark, hLeft, hRight, hState, hx, makeCurrent]
    | stale e =>
      rw [← hMarkAt.2.2.2] at hSorted
      exact absurd hSorted.level.1 (lt_irrefl _)
    | gone => exact hMarkAt.elim

/-- Without a left row the join never stands on a row, and its marks are not used. -/
theorem reads (h : J.Ascending) (hStale : NoStale J.leftKey J.rightKey J.lspec.rows J.rspec)
    (hSafe : J.lspec.rows ≠ [] → J.rspec.Restorable) :
    Reads J.join (LeftJoinEq.spec J.leftKey J.rightKey J.lspec J.rspec) (J.At J.Sorted) := by
  rw [← spec_eq h hStale.noGhost]
  exact {
    toSteps := steps (keeps h hStale.noGhost)
    bound := length_rows_le
    residual := residual_spec
    readable_of_rows := fun hRows hNil => hRows (rows_eq_nil.mpr hNil)
    readable := readable_spec
    restore := by
      rintro s₀ z rest s p ⟨hSuffix, x, l, f, zs, hs₀, hRest, hSorted⟩ hs
      obtain ⟨⟨q, hq, -⟩, q', hq', hStart⟩ := inputs_of_at hs
      have hRows : J.lspec.rows ≠ [] := by
        intro hNil
        rw [rows_eq_nil.mpr hNil] at hSuffix
        cases suffix_nil.mp hSuffix
      obtain ⟨s', hRestore, hs'⟩ := hs₀.restore hStale (hSafe hRows) hSorted.level hq hq' hStart
      exact ⟨s', hRestore, hSuffix, x, l, f, zs, hs', hRest, hSorted⟩
    restore_ended := by
      rintro s₀ s p ⟨hSafe, hLeftSafe, hReadable⟩ ⟨hs₀, hMark⟩ hs hStart
      obtain ⟨⟨q, hq, hqStart⟩, q', hq', hStart'⟩ := inputs_of_at hs
      exact hs₀.restore hSafe hLeftSafe hReadable hMark hq (hqStart hStart) hq' hStart' }

end Inputs

end LeftJoinEq

end Fhgfs.Fsck
