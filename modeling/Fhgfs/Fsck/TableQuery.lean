import Fhgfs.Fsck.Group
import Fhgfs.Fsck.TableCommit

/-!
# Queries: cursors nested over fragment cursors

The checks of fsck are cursors that are nested over the fragment cursors of their tables. A
`Query` is such a nesting, `cursor` builds it and `rows` are the rows it stands for. A query
whose joins and unions have ascending inputs gives its rows and restores marks if none of
its joins compares a left row with the element behind the last right row (`Guarded`).
-/

namespace Fhgfs.Fsck

open List Distinct LeftJoinEq
open Cursor (Spec Reads Position)

inductive Query : Type → Type 1
  | fragment {α : Type} (items : List α) (hSize : items.length < 2 ^ 64) : Query α
  | whereBy {α : Type} (source : Query α) (pred : α → Bool) : Query α
  | selectBy {α β : Type} (source : Query α) (fn : α → β) : Query β
  | distinctBy {α κ : Type} [DecidableEq κ] (source : Query α) (keyExtract : α → κ) : Query α
  | groupBy {α κ π γ : Type} [DecidableEq κ] (source : Query α) (ops : GroupOps α κ π γ) :
      Query (π × γ)
  | unionBy {α κ : Type} [LinearOrder κ] (keyExtract : α → κ) (left right : Query α) : Query α
  | leftJoinBy {α β κ : Type} [LinearOrder κ] (leftKey : α → κ) (rightKey : β → κ)
      (left : Query α) (right : Query β) : Query (α × Option β)

namespace Query

def cursor : {α : Type} → Query α → Cursor α
  | _, fragment items _ => setFragmentCursor items
  | _, whereBy source pred => filter source.cursor pred
  | _, selectBy source fn => select source.cursor fn
  | _, distinctBy source keyExtract => distinct source.cursor keyExtract
  | _, groupBy source ops => group source.cursor ops
  | _, unionBy keyExtract left right => union left.cursor right.cursor keyExtract
  | _, leftJoinBy leftKey rightKey left right =>
    leftJoinEq left.cursor right.cursor leftKey rightKey

def spec : {α : Type} → Query α → Spec α
  | _, fragment items _ => SetFragmentCursor.spec items
  | _, whereBy source pred => Filter.spec source.spec pred
  | _, selectBy source fn => Select.spec source.spec fn
  | _, distinctBy source keyExtract => Distinct.spec source.spec keyExtract
  | _, groupBy source ops => Group.spec ops source.spec
  | _, unionBy keyExtract left right => Union.spec keyExtract left.spec right.spec
  | _, leftJoinBy leftKey rightKey left right =>
    LeftJoinEq.spec leftKey rightKey left.spec right.spec

def rows {α : Type} (q : Query α) : List α := q.spec.rows

/-- The inputs of every join and union ascend by its key. -/
def Ascending : {α : Type} → Query α → Prop
  | _, fragment _ _ => True
  | _, whereBy source _ => source.Ascending
  | _, selectBy source _ => source.Ascending
  | _, distinctBy source _ => source.Ascending
  | _, groupBy source _ => source.Ascending
  | _, unionBy keyExtract left right => left.Ascending ∧ right.Ascending ∧
      (left.rows.Pairwise fun a b => keyExtract a ≤ keyExtract b) ∧
      right.rows.Pairwise fun a b => keyExtract a ≤ keyExtract b
  | _, leftJoinBy leftKey rightKey left right => left.Ascending ∧ right.Ascending ∧
      (left.rows.Pairwise fun a b => leftKey a ≤ leftKey b) ∧
      right.rows.Pairwise fun a b => rightKey a ≤ rightKey b

/-- No join compares a left row with an element behind the last right row that its key does
not exceed, and none that has a left row goes back to a mark of a right input that has never had
a row to read. -/
def Guarded : {α : Type} → Query α → Prop
  | _, fragment _ _ => True
  | _, whereBy source _ => source.Guarded
  | _, selectBy source _ => source.Guarded
  | _, distinctBy source _ => source.Guarded
  | _, groupBy source _ => source.Guarded
  | _, unionBy _ left right => left.Guarded ∧ right.Guarded
  | _, leftJoinBy leftKey rightKey left right => left.Guarded ∧ right.Guarded ∧
      LeftJoinEq.NoStale leftKey rightKey left.rows right.spec ∧
      (left.rows ≠ [] → right.spec.Restorable)

theorem reads {α : Type} (q : Query α) (hAsc : q.Ascending) (hGuard : q.Guarded) :
    ∃ R, Reads q.cursor q.spec R := by
  induction q with
  | fragment items hSize => exact ⟨_, SetFragmentCursor.reads hSize⟩
  | whereBy source pred ih =>
    obtain ⟨R, h⟩ := ih hAsc hGuard
    exact ⟨_, Filter.reads h⟩
  | selectBy source fn ih =>
    obtain ⟨R, h⟩ := ih hAsc hGuard
    exact ⟨_, Select.reads h⟩
  | distinctBy source keyExtract ih =>
    obtain ⟨R, h⟩ := ih hAsc hGuard
    exact ⟨_, Distinct.reads h⟩
  | groupBy source ops ih =>
    obtain ⟨R, h⟩ := ih hAsc hGuard
    exact ⟨_, Group.reads h⟩
  | unionBy keyExtract left right ihL ihR =>
    obtain ⟨L, hL⟩ := ihL hAsc.1 hGuard.1
    obtain ⟨R, hR⟩ := ihR hAsc.2.1 hGuard.2
    exact ⟨_, Union.reads hL hR⟩
  | leftJoinBy leftKey rightKey left right ihL ihR =>
    obtain ⟨hAscL, hAscR, hLeft, hRight⟩ := hAsc
    obtain ⟨hGuardL, hGuardR, hStale, hSafe⟩ := hGuard
    obtain ⟨L, hL⟩ := ihL hAscL hGuardL
    obtain ⟨R, hR⟩ := ihR hAscR hGuardR
    exact ⟨_, Inputs.reads (J := ⟨leftKey, rightKey, left.spec, right.spec, L, R, hL, hR⟩)
      ⟨hLeft, hRight⟩ hStale hSafe⟩

theorem leftJoinBy_yieldsAll_iff {α β κ : Type} [LinearOrder κ] {leftKey : α → κ}
    {rightKey : β → κ} {left : Query α} {right : Query β}
    (hAsc : (leftJoinBy leftKey rightKey left right).Ascending) (hLeft : left.Guarded)
    (hRight : right.Guarded) :
    (leftJoinBy leftKey rightKey left right).cursor.YieldsAll
        (joinRows leftKey rightKey left.rows right.rows) ↔
      NoGhost leftKey rightKey left.rows right.spec := by
  obtain ⟨L, hL⟩ := left.reads hAsc.1 hLeft
  obtain ⟨R, hR⟩ := right.reads hAsc.2.1 hRight
  exact Inputs.yieldsAll_iff (J := ⟨leftKey, rightKey, left.spec, right.spec, L, R, hL, hR⟩)
    ⟨hAsc.2.2.1, hAsc.2.2.2⟩

end Query

/-! ## The rows of ascending inputs -/

section Rows

variable {α κ π γ : Type} [LinearOrder κ] {key : α → κ}

section

variable {l : List α} {k : κ} (hAsc : l.Pairwise fun a b => key a ≤ key b) (hk : ∀ x ∈ l, k ≤ key x)
include hAsc hk

theorem rowsFrom_eq_of_above :
    rowsFrom key (some k) l = rowsFrom key none (l.filter fun y => k < key y) := by
  have hPred : (fun y => some k == some (key y)) = fun y => decide (k = key y) := by
    funext y
    by_cases hEq : k = key y <;> simp [hEq]
  rw [← rowsFrom_dropWhile, hPred, (takeWhile_eq_filter hAsc hk).2]
  cases hRest : l.filter fun y => k < key y with
  | nil => rfl
  | cons x rest =>
    have hMem : x ∈ l.filter fun y => k < key y := by simp [hRest]
    have hx : k < key x := by simpa using (mem_filter.mp hMem).2
    simp [rowsFrom, hx.ne]

end

/-- `groupBy` gives one row for each key of an ascending input, over all rows with the key. -/
theorem groupRows_eq {ops : GroupOps α κ π γ} {l : List α}
    (hAsc : l.Pairwise fun a b => ops.key a ≤ ops.key b) :
    Group.groupRows ops l = (rowsFrom ops.key none l).map fun x =>
      (ops.project x, ops.value (l.filter fun y => ops.key y = ops.key x)) := by
  fun_induction Group.groupRows ops l with
  | case1 => rfl
  | case2 x rest ih =>
    obtain ⟨hx, hRest⟩ := pairwise_cons.mp hAsc
    obtain ⟨hTake, hDrop⟩ := takeWhile_eq_filter hRest hx
    rw [ih (hRest.sublist (dropWhile_sublist _)), rowsFrom, if_neg (by simp),
      map_cons, rowsFrom_eq_of_above hRest hx, hTake, hDrop]
    congr 1
    · rw [filter_cons_of_pos (by simp)]
    · refine map_congr_left fun y hy => ?_
      have hy : ops.key x < ops.key y := by
        simpa using of_mem_filter ((rowsFrom_sublist none _).subset hy)
      -- the rows with the key of `y` are all above the group of `x`
      rw [filter_filter, filter_cons_of_neg (by simpa using hy.ne)]
      congr 2
      refine filter_congr fun z _ => ?_
      by_cases hEq : ops.key z = ops.key y <;> simp [hEq, hy]

end Rows

/-! ## The cursor algebra -/

namespace Query

/-- A join of `[1, 2]` with the rows of `[1, 2]` that a `where` lets through. -/
def filteredJoin (pred : Nat → Bool) : Query (Nat × Option Nat) :=
  leftJoinBy id id (fragment [1, 2] (by decide)) (whereBy (fragment [1, 2] (by decide)) pred)

end Query

end Fhgfs.Fsck

/-!
## The query of a table

`Table::cursor` after a commit: the rows of `base` whose keys are not in `deletes`, merged with
the rows of `inserts`. As a `Query` it can be an input of the checks: its rows ascend by the key
of the table, and nothing is behind its last row.
-/

namespace Fhgfs.Fsck

open Cursor (Spec Reads)

namespace Union

variable {α κ : Type} [LinearOrder κ] {keyExtract : α → κ}

theorem residual_eq_getLast {el er : Option α} {l r : List α}
    (hl : l ≠ [] → el = l.getLast?) (hr : r ≠ [] → er = r.getLast?)
    (hNil : l = [] → r = [] → er = none) :
    residual keyExtract el er l r = (mergeRows keyExtract l r).getLast? := by
  fun_induction residual keyExtract el er l r with
  | case1 r =>
    rw [mergeRows_nil_left]
    by_cases hEmpty : r = []
    · rw [hNil rfl hEmpty, hEmpty, List.getLast?_nil]
    · exact hr hEmpty
  | case2 x l =>
    rw [mergeRows_nil_right]
    exact hl (List.cons_ne_nil x l)
  | case3 x l y r hLt ih =>
    have hLeft : l ≠ [] → el = l.getLast? := by
      intro hNe
      rw [hl (List.cons_ne_nil x l), List.getLast?_cons_of_ne_nil hNe]
    have hMerge : mergeRows keyExtract l (y :: r) ≠ [] := by
      rw [ne_eq, mergeRows_eq_nil]
      exact fun h => List.cons_ne_nil y r h.2
    rw [ih hLeft hr (fun _ h => absurd h (List.cons_ne_nil y r)), mergeRows_of_lt hLt,
      List.getLast?_cons_of_ne_nil hMerge]
  | case4 x l y r hLt ih =>
    have hRight : r ≠ [] → er = r.getLast? := by
      intro hNe
      rw [hr (List.cons_ne_nil y r), List.getLast?_cons_of_ne_nil hNe]
    have hMerge : mergeRows keyExtract (x :: l) r ≠ [] := by
      rw [ne_eq, mergeRows_eq_nil]
      exact fun h => List.cons_ne_nil x l h.1
    rw [ih hl hRight (fun h => absurd h (List.cons_ne_nil x l)), mergeRows_of_not_lt hLt,
      List.getLast?_cons_of_ne_nil hMerge]

theorem residual_getLast (l r : List α) :
    residual keyExtract l.getLast? r.getLast? l r = (mergeRows keyExtract l r).getLast? :=
  residual_eq_getLast (fun _ => rfl) (fun _ => rfl) fun _ h => by rw [h, List.getLast?_nil]

end Union

/-- What a table gives to its cursor: the items of the fragments of its three sets. -/
structure TableRows {Data κ : Type} [LinearOrder κ] (pkey : Data → κ) where
  base : List Data
  deletes : List κ
  inserts : List Data
  base_ascending : base.Pairwise fun a b => pkey a ≤ pkey b
  deletes_ascending : deletes.Pairwise (· ≤ ·)
  inserts_ascending : inserts.Pairwise fun a b => pkey a ≤ pkey b
  base_size : base.length < 2 ^ 64
  deletes_size : deletes.length < 2 ^ 64
  inserts_size : inserts.length < 2 ^ 64

namespace TableRows

variable {Data κ : Type} [LinearOrder κ] {pkey : Data → κ} (t : TableRows pkey)

def get : Query Data :=
  .unionBy pkey
    (.selectBy
      (.whereBy
        (.leftJoinBy pkey id (.fragment t.base t.base_size) (.fragment t.deletes t.deletes_size))
        fun row => row.2.isNone)
      Prod.fst)
    (.fragment t.inserts t.inserts_size)

def rows : List Data := t.get.rows

theorem rows_eq : t.rows =
    Union.mergeRows pkey (t.base.filter fun x => pkey x ∉ t.deletes) t.inserts := by
  have hUnmatched := @unmatched_joinRows _ _ _ _ pkey id t.base t.deletes
  rw [List.map_id] at hUnmatched
  rw [← hUnmatched]
  rfl

theorem rows_ascending : t.rows.Pairwise fun a b => pkey a ≤ pkey b := by
  rw [rows_eq]
  exact Union.mergeRows_ascending (t.base_ascending.filter _) t.inserts_ascending

theorem get_ascending : t.get.Ascending := by
  refine ⟨⟨trivial, trivial, t.base_ascending, t.deletes_ascending⟩, trivial, ?_,
    t.inserts_ascending⟩
  show (((LeftJoinEq.joinRows pkey id t.base t.deletes).filter fun row =>
    row.2.isNone).map Prod.fst).Pairwise _
  rw [unmatched_joinRows]
  exact t.base_ascending.filter _

theorem get_guarded : t.get.Guarded :=
  ⟨⟨trivial, trivial, LeftJoinEq.noStale_of_getLast rfl, fun _ => trivial⟩, trivial⟩

theorem get_residual : t.get.spec.residual = t.rows.getLast? := Union.residual_getLast _ _

theorem nil_size : ([] : List Data).length < 2 ^ 64 := Nat.two_pow_pos 64

def ofBase (base : List Data) (hAsc : base.Pairwise fun a b => pkey a ≤ pkey b)
    (hSize : base.length < 2 ^ 64) : TableRows pkey where
  base := base
  deletes := []
  inserts := []
  base_ascending := hAsc
  deletes_ascending := .nil
  inserts_ascending := .nil
  base_size := hSize
  deletes_size := nil_size
  inserts_size := nil_size

theorem rows_ofBase {base : List Data} (hAsc : base.Pairwise fun a b => pkey a ≤ pkey b)
    (hSize : base.length < 2 ^ 64) : (ofBase base hAsc hSize).rows = base := by
  rw [rows_eq]
  simp [ofBase]

end TableRows

namespace Table

variable {Data κ : Type} [LinearOrder κ] {T : TableType Data κ} {n : Nat} {t : Table Data κ}

theorem rows_eq_get (h : Sound T n t) (hn : n < 2 ^ 64) (hSettled : Settled T t) :
    ∃ tr : TableRows T.item.pkey, t.rows T = .ok tr.rows ∧
      (tr.rows : Multiset Data) = content T t := by
  obtain ⟨base, deletes, inserts, hBase, hDeletes, hInserts, hBaseSize, hDeletesSize, hInsertsSize,
    hRows, hContent⟩ := rows_items h hn hSettled
  have hKeys : deletes.Pairwise (· ≤ ·) := by
    refine hDeletes.imp fun {a b} hab => ?_
    rwa [T.key_pkey, T.key_pkey] at hab
  let tr : TableRows T.item.pkey :=
    ⟨base, deletes, inserts, hBase, hKeys, hInserts, hBaseSize, hDeletesSize, hInsertsSize⟩
  have hGet := tr.rows_eq
  exact ⟨tr, by rw [hGet]; exact hRows, by rw [hGet]; exact hContent⟩

theorem exists_rows {pkey : Data → κ} (hPkey : T.item.pkey = pkey) (h : Sound T n t)
    (hn : n < 2 ^ 64) : ∃ (t' : Table Data κ) (tr : TableRows pkey),
      t.commitChanges T = .ok t' ∧ t'.rows T = .ok tr.rows ∧
        (tr.rows : Multiset Data) = content T t := by
  subst hPkey
  obtain ⟨t', hCommit, hSound, hContent, hSettled⟩ := commitChanges_spec h hn
  obtain ⟨tr, hRows, hSame⟩ := rows_eq_get hSound hn hSettled
  exact ⟨t', tr, hCommit, hRows, hSame.trans hContent⟩

end Table

end Fhgfs.Fsck
