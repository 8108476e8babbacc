import Fhgfs.Fsck.PinnedFragments
import Fhgfs.Fsck.TableRuns

/-!
# Cursors that stay valid

A cursor is `Stable` if the fragments it points to still belong to the table, if it goes on as
it would have on the rows that were there when it was opened, and if what its element points
to is still in its place. In a run whose calls are all `Undisturbed` every open cursor is
stable in every state. A commit with pending changes is not: it drops fragments, and the
loops of the repair commit while they step.
-/

namespace Fhgfs.Fsck

open Session List SetFragment Table Option
open FragmentSet (Only)
open Table (Sound AsksBase Searchable Sortable)

variable {Data κ : Type} [LinearOrder κ]

/-! ## What is asked of the calls -/

def OpenCursor.points {T : TableType Data κ} (c : OpenCursor T) : Bool := !c.pointers.isEmpty

namespace Session

variable {T : TableType Data κ} (s : Session T)

def anyOpen : Bool := s.cursors.any Option.isSome

/-- The element of an open cursor points into the buffer of `inserts`. -/
def anyPoints : Bool := s.cursors.any fun c => c.any OpenCursor.points

def othersPoint (id : Nat) : Bool := (s.cursors.set id none).any fun c => c.any OpenCursor.points

/-- The window of `inserts` stays while other cursors point into it. A composition with several
cursors of the table reads in one window, that to which it points already if it does. -/
def KeepsPlaces (id : Nat) (reads : RowReads) : Prop :=
  ∀ c ∈ s.cursor id, ∀ f ∈ s.insertsFragment c.fragments,
    ∀ r ∈ c.next (s.view c.fragments),
      (s.othersPoint id → f.Stays (reads.inserts ++ r.2)) ∧
        (1 < c.query.cursors → f.OneWindow T.item (reads.inserts ++ r.2) ∧
          (c.points → f.Stays (reads.inserts ++ r.2)))

/-- A call that leaves the open cursors alone: one that sorts or reads a set does not find a
fragment that is being filled or moved by another sort; while a cursor is open `base` is one
fragment when it is sorted, and a commit has nothing to apply; and while an element points
into the buffer of `inserts` its window stays. -/
def Undisturbed : SessionCall Data κ → Prop
  | .insert _ => True
  | .remove _ => True
  | .close _ => True
  | .commitChanges => s.anyOpen →
      s.table.base.openFragments.elems.length = 1 ∧ s.table.NothingPending
  | @SessionCall.getByKeyProjection _ _ _ _ key fn => Searchable key fn T s.table ∧
      (s.anyOpen → AsksBase key fn T s.table → s.table.base.openFragments.elems.length = 1) ∧
      (s.anyPoints → ∀ r ∈ s.table.inserts.getByKeyProjection T.item key fn,
        r.2.windows = s.table.inserts.windows)
  | .openCursor _ _ => Sortable T s.table ∧
      (s.anyOpen → s.table.base.openFragments.elems.length = 1)
  | .step id reads => s.KeepsPlaces id reads

instance (id : Nat) (reads : RowReads) : Decidable (s.KeepsPlaces id reads) :=
  inferInstanceAs (Decidable (∀ c ∈ s.cursor id, _))

instance [DecidableEq Data] : (call : SessionCall Data κ) → Decidable (s.Undisturbed call)
  | .insert _ => .isTrue trivial
  | .remove _ => .isTrue trivial
  | .close _ => .isTrue trivial
  | .commitChanges => inferInstanceAs (Decidable (s.anyOpen → _))
  | @SessionCall.getByKeyProjection _ _ _ _ key fn =>
    inferInstanceAs (Decidable (Searchable key fn T s.table ∧ _))
  | .openCursor _ _ => inferInstanceAs (Decidable (Sortable T s.table ∧ _))
  | .step id reads => inferInstanceAs (Decidable (s.KeepsPlaces id reads))

end Session

/-! ## Stable cursors -/

variable {T : TableType Data κ}

structure Session.Stable (s : Session T) (c : OpenCursor T) : Prop where
  /-- The fragments belong to the sets of the table. -/
  alive : (s.view c.fragments).whole = true
  /-- What has been delivered is what the cursor delivers over the rows of its opening. -/
  walked : ((c.query.shared T).on c.opened).Walked c.out c.state
  /-- So is what is still to come. -/
  remaining (out : List c.Row) :
    ((c.query.shared T).on (s.view c.fragments)).Yields c.state out ↔
      ((c.query.shared T).on c.opened).Yields c.state out
  /-- The rows that are pointed to are in their places in the buffer. -/
  element : ∀ p ∈ c.pointers, ∃ f, s.insertsFragment c.fragments = some f ∧
    f.buffer[p.2]? = (c.opened.inserts.getD [])[p.1]?

/-- A run has not ended because of a dead fragment or a set that cannot be sorted, and if it
goes on all cursors are stable. -/
def CursorsStable : Except SessionError (Session T) → Prop
  | .ok s => ∀ c, some c ∈ s.cursors → s.Stable c
  | .error e => e ≠ .freed ∧ e ≠ .table .stuck

def UndisturbedBy : Except SessionError (Session T) → SessionCall Data κ → Prop
  | .ok s, call => s.Undisturbed call
  | .error _, _ => True

instance [DecidableEq Data] : (r : Except SessionError (Session T)) →
    (call : SessionCall Data κ) → Decidable (UndisturbedBy r call)
  | .ok s, call => inferInstanceAs (Decidable (s.Undisturbed call))
  | .error _, _ => .isTrue trivial

/-- The invariant: pinned fragments with the rows of the opening. -/
structure Session.Keeps (s : Session T) (c : OpenCursor T) (f : SetFragment Data κ) : Prop where
  clears : c.fragments.clears = s.clears
  pinned : ∃ base deletes inserts, c.opened = ⟨some base, some deletes, some inserts⟩ ∧
    Pinned T s.table c.fragments base deletes inserts f ∧
    ∀ p ∈ c.pointers, f.buffer[p.2]? = inserts[p.1]?
  walked : ((c.query.shared T).on c.opened).Walked c.out c.state

structure Steady (n : Nat) (s : Session T) : Prop where
  sound : Sound T n s.table
  cursors : ∀ c, some c ∈ s.cursors → ∃ f, s.Keeps c f

def SteadyAfter (n : Nat) : Except SessionError (Session T) → Prop
  | .ok s => Steady n s
  | .error e => e ≠ .freed ∧ e ≠ .table .stuck

namespace Session.Keeps

variable {n : Nat} {s : Session T} {c : OpenCursor T} {f : SetFragment Data κ}

section

variable (h : s.Keeps c f)
include h

theorem insertsFragment : s.insertsFragment c.fragments = some f := by
  obtain ⟨base, deletes, inserts, -, hPinned, -⟩ := h.pinned
  rw [Session.insertsFragment, if_pos h.clears, hPinned.inserts.find]

theorem view : s.view c.fragments = c.opened := by
  obtain ⟨base, deletes, inserts, hOpened, hPinned, -⟩ := h.pinned
  obtain ⟨fb, hFind, hBase⟩ := hPinned.base
  obtain ⟨fd, hDeletes⟩ := hPinned.deletes
  rw [hOpened, Session.view, hFind, hDeletes.find, h.insertsFragment]
  simp only [map_some, hBase.items, hDeletes.calm.items, hPinned.inserts.calm.items]

theorem whole : (s.view c.fragments).whole = true := by
  obtain ⟨base, deletes, inserts, hOpened, -⟩ := h.pinned
  rw [h.view, hOpened]
  rfl

theorem stable : s.Stable c where
  alive := h.whole
  walked := h.walked
  remaining out := by rw [h.view]
  element p hp := by
    obtain ⟨base, deletes, inserts, hOpened, -, hPlaces⟩ := h.pinned
    refine ⟨f, h.insertsFragment, ?_⟩
    rw [hPlaces p hp, hOpened]
    rfl

end

theorem frame {s' : Session T} (h : s.Keeps c f) (hClears : s'.clears = s.clears)
    (hPinned : ∀ base deletes inserts, Pinned T s.table c.fragments base deletes inserts f →
      ∃ f', Pinned T s'.table c.fragments base deletes inserts f' ∧
        (c.points = true → f'.buffer = f.buffer)) :
    ∃ f', s'.Keeps c f' := by
  obtain ⟨base, deletes, inserts, hOpened, hOld, hPlaces⟩ := h.pinned
  obtain ⟨f', hNew, hBuffer⟩ := hPinned _ _ _ hOld
  refine ⟨f', h.clears.trans hClears.symm, ⟨base, deletes, inserts, hOpened, hNew, ?_⟩, h.walked⟩
  intro p hp
  rw [hBuffer, hPlaces p hp]
  unfold OpenCursor.points
  cases hPointers : c.pointers with
  | nil => simp [hPointers] at hp
  | cons _ _ => rfl

end Session.Keeps

section

variable {s : Session T} {c : OpenCursor T} (h : some c ∈ s.cursors)
include h

theorem Session.anyOpen_of_mem : s.anyOpen = true := any_eq_true.mpr ⟨some c, h, rfl⟩

end

/-! ## One call -/

section

variable {n : Nat} {s : Session T}

theorem insert_steady (h : Steady n s) (data : Data) :
    SteadyAfter (n + 1) (s.attempt (.insert data)) := by
  change SteadyAfter _ (afterTable (s.table.insert T data) _)
  cases hInsert : s.table.insert T data with
  | error e =>
    refine ⟨by simp, fun hStuck => ?_⟩
    obtain rfl := SessionError.table.inj hStuck
    exact insert_not_stuck hInsert
  | ok t =>
    refine ⟨(insert_spec h.sound hInsert).1, fun c hc => ?_⟩
    obtain ⟨f, hKeeps⟩ := h.cursors c hc
    exact hKeeps.frame rfl fun _ _ _ hPinned => ⟨f, hPinned.insert h.sound hInsert, fun _ => rfl⟩

theorem remove_steady (h : Steady n s) (key : κ) :
    SteadyAfter (n + 1) (s.attempt (.remove key)) := by
  change SteadyAfter _ (afterTable (s.table.remove T key) _)
  cases hRemove : s.table.remove T key with
  | error e =>
    refine ⟨by simp, fun hStuck => ?_⟩
    obtain rfl := SessionError.table.inj hStuck
    exact remove_not_stuck hRemove
  | ok t =>
    refine ⟨(remove_spec h.sound hRemove).1, fun c hc => ?_⟩
    obtain ⟨f, hKeeps⟩ := h.cursors c hc
    exact hKeeps.frame rfl fun _ _ _ hPinned => ⟨f, hPinned.remove hRemove, fun _ => rfl⟩

theorem commitChanges_steady (h : Steady n s) (hn : n < 2 ^ 64)
    (hUndisturbed : s.Undisturbed .commitChanges) :
    SteadyAfter (n + 1) (s.attempt .commitChanges) := by
  obtain ⟨t, hCommit, hSound, -⟩ := commitChanges_spec h.sound hn
  change SteadyAfter _ (afterTable (s.table.commitChanges T) _)
  rw [hCommit]
  refine ⟨hSound.mono n.le_succ, fun c hc => ?_⟩
  obtain ⟨f, hKeeps⟩ := h.cursors c hc
  obtain ⟨hOne, hNothing⟩ := hUndisturbed (anyOpen_of_mem hc)
  have hClears : ¬ s.table.clearsInserts T := fun hPending => hPending (hNothing.resets h.sound).2
  apply hKeeps.frame (if_neg hClears)
  intro _ _ _ hPinned
  obtain ⟨t', hCommit', hPinned'⟩ := hPinned.commitChanges h.sound hOne hNothing
  obtain rfl := Except.ok.inj (hCommit.symm.trans hCommit')
  exact ⟨_, hPinned', fun _ => congrArg Prod.snd hPinned.inserts.calm.sort.2⟩

theorem getByKeyProjection_steady {κ' : Type} [LinearOrder κ'] (key : κ') (fn : κ → κ')
    (h : Steady n s) (hn : n < 2 ^ 64) (hUndisturbed : s.Undisturbed (.getByKeyProjection key fn)) :
    SteadyAfter (n + 1) (s.attempt (.getByKeyProjection key fn)) := by
  obtain ⟨hSearch, hOne, hWindows⟩ := hUndisturbed
  obtain ⟨r, hFound, hSound⟩ := getByKeyProjection_sound key fn h.sound hn hSearch
  change SteadyAfter _ (afterTable (s.table.getByKeyProjection T key fn) _)
  rw [hFound]
  refine ⟨hSound.mono n.le_succ, fun c hc => ?_⟩
  obtain ⟨f, hKeeps⟩ := h.cursors c hc
  refine hKeeps.frame rfl fun _ _ _ hPinned => ?_
  obtain ⟨r', hFound', hPinned'⟩ := hPinned.getByKeyProjection key fn (hOne (anyOpen_of_mem hc))
  obtain rfl := Except.ok.inj (hFound.symm.trans hFound')
  refine ⟨_, hPinned', fun hPoints => ?_⟩
  exact congrArg Prod.snd
    (hPinned.window_of_search key fn (hWindows (any_eq_true.mpr ⟨_, hc, hPoints⟩)))

theorem close_steady (h : Steady n s) (id : Nat) : SteadyAfter (n + 1) (s.attempt (.close id)) := by
  refine ⟨h.sound.mono n.le_succ, fun c hc => ?_⟩
  rcases mem_or_eq_of_mem_set hc with hOld | hNone
  · obtain ⟨f, hKeeps⟩ := h.cursors c hOld
    exact hKeeps.frame rfl fun _ _ _ hPinned => ⟨f, hPinned, fun _ => rfl⟩
  · cases hNone

section

variable {α : Type} (query : TableQuery Data κ α)

theorem openOn_keeps {t : Table Data κ}
    {p : FragmentPointers} {base inserts : List Data} {deletes : List κ}
    {f : SetFragment Data κ} (hPinned : Pinned T t p base deletes inserts f)
    (hOne : t.base.openFragments.elems.length = 1)
    (cursors : List (Option (OpenCursor T))) :
    openOn (T := T) query p.clears t = .error .noRow ∨
      ∃ c, openOn query p.clears t = .ok c ∧ (⟨t, p.clears, cursors⟩ : Session T).Keeps c f := by
  obtain ⟨fb, hBase⟩ := hPinned.base_only hOne
  obtain ⟨fd, hDeletes⟩ := hPinned.deletes
  have hView : (⟨some (fb.items T.item), some (fd.items T.key), some (f.items T.item)⟩ :
      View Data κ) = ⟨some base, some deletes, some inserts⟩ := by
    rw [hBase.calm.items, hDeletes.calm.items, hPinned.inserts.calm.items]
  unfold openOn
  simp only [hBase.elems, hDeletes.elems, hPinned.inserts.elems, head?_cons, hView]
  cases hInit : (query.shared T).init ⟨some base, some deletes, some inserts⟩ with
  | none => exact Or.inl rfl
  | some state =>
    exact Or.inr ⟨_, rfl, rfl, ⟨base, deletes, inserts, rfl, hPinned, by simp⟩, .init hInit⟩

theorem openCursor_steady (hOn : 0 < query.cursors)
    (h : Steady n s) (hn : n < 2 ^ 64) (hUndisturbed : s.Undisturbed (.openCursor query hOn)) :
    SteadyAfter (n + 1) (s.attempt (.openCursor query hOn)) := by
  obtain ⟨hSortable, hOne⟩ := hUndisturbed
  obtain ⟨t, p, base, deletes, inserts, f, hSort, hClears, hSingle, hPinned⟩ :=
    sortSetsFor_pinned h.sound hn hSortable s.clears hOn
  have hSound : Sound T n t := by
    obtain ⟨t', hSort', hSound⟩ := sortSetsFor_sound h.sound hn hSortable.notFilling query.cursors
    obtain rfl := Except.ok.inj (hSort.symm.trans hSort')
    exact hSound
  change SteadyAfter _ (afterTable (s.table.sortSetsFor T query.cursors) _)
  rw [hSort, ← hClears]
  change SteadyAfter _ (openOn query p.clears t >>= _)
  rcases openOn_keeps query hPinned hSingle s.cursors with hNoRow | ⟨c, hOpened, hNew⟩
  · rw [hNoRow]
    exact ⟨by simp, by simp⟩
  rw [hOpened]
  refine ⟨hSound.mono n.le_succ, fun d hd => ?_⟩
  rcases mem_append.mp hd with hOld | hLast
  · -- the cursors that were open already
    obtain ⟨f', hKeeps⟩ := h.cursors d hOld
    refine hKeeps.frame hClears fun _ _ _ hBefore => ?_
    obtain ⟨t', f'', hSort', -, hWindow, hAfter⟩ :=
      hBefore.sortSetsFor (hOne (anyOpen_of_mem hOld)) query.cursors
    obtain rfl := Except.ok.inj (hSort.symm.trans hSort')
    exact ⟨f'', hAfter, fun _ => congrArg Prod.snd hWindow⟩
  · obtain rfl : d = c := some.inj (mem_singleton.mp hLast)
    exact ⟨f, hNew.clears, hNew.pinned, hNew.walked⟩

end

/-! ## A step of a cursor -/

theorem OpenCursor.next_walked {c c' : OpenCursor T} {rows : List Nat}
    (h : c.next c.opened = some (c', rows))
    (hWalked : ((c.query.shared T).on c.opened).Walked c.out c.state) :
    c'.fragments = c.fragments ∧ c'.opened = c.opened ∧ (c'.query.cursors = c.query.cursors) ∧
      ((c'.query.shared T).on c'.opened).Walked c'.out c'.state ∧
      (c.query.cursors ≤ 1 → ∃ row, ∀ r ∈ rows, r = row) := by
  unfold OpenCursor.next at h
  rcases hStep : (c.query.shared T).step c.opened c.state with _ | ⟨_ | _, state⟩
  · simp [hStep] at h
  · simp only [hStep, some.injEq, Prod.mk.injEq] at h
    obtain ⟨rfl, rfl⟩ := h
    exact ⟨rfl, rfl, rfl, .ended hWalked hStep, fun _ => ⟨0, nofun⟩⟩
  · cases hGet : (c.query.shared T).get c.opened state with
    | none => simp [hStep, hGet] at h
    | some x =>
      simp only [hStep, hGet, some.injEq, Prod.mk.injEq] at h
      obtain ⟨rfl, rfl⟩ := h
      exact ⟨rfl, rfl, rfl, .row hWalked hStep hGet, fun hOne => c.query.pointsOnce hOne state⟩

theorem Session.mem_set_cursors {id : Nat} {c d : OpenCursor T}
    (h : some d ∈ s.cursors.set id (some c)) :
    d = c ∨ some d ∈ s.cursors ∧ (d.points = true → s.othersPoint id = true) := by
  obtain ⟨i, hi⟩ := mem_iff_getElem?.mp h
  by_cases hSame : id = i
  · subst hSame
    rw [getElem?_set_self'] at hi
    cases hOld : s.cursors[id]? with
    | none => simp [hOld] at hi
    | some old => exact Or.inl (by simpa [hOld, eq_comm] using hi)
  · rw [getElem?_set_ne hSame] at hi
    refine Or.inr ⟨mem_of_getElem? hi, fun hPoints => ?_⟩
    refine any_eq_true.mpr ⟨some d, mem_of_getElem? (i := i) ?_, hPoints⟩
    rw [getElem?_set_ne hSame, hi]

theorem inWindow_of_step {f : SetFragment Data κ} {inserts : List Data} {cursors : Nat}
    {reads rows : List Nat} (hCalm : SetFragment.Calm T.item f inserts)
    (hOnce : cursors ≤ 1 → ∃ row, ∀ r ∈ rows, r = row)
    (hOne : 1 < cursors → f.OneWindow T.item (reads ++ rows)) {row : Nat} (hIn : row ∈ rows)
    (hRow : row < inserts.length) : (f.readRows T.item (reads ++ rows)).InWindow row := by
  rcases lt_or_ge 1 cursors with hSeveral | hSingle
  · exact SetFragment.inWindow_of_oneWindow hCalm.holds (hOne hSeveral)
      (mem_append_right reads hIn) hRow
  obtain ⟨only, hOnly⟩ := hOnce hSingle
  have hRead : (f.readRows T.item reads).readRows T.item rows =
      f.readRows T.item (reads ++ rows) := by
    unfold SetFragment.readRows
    rw [foldl_append]
  rw [← hRead]
  exact SetFragment.inWindow_of_oneWindow hCalm.readRows.holds
    (SetFragment.oneWindow_of_same hCalm.readRows.holds hOnly) hIn hRow

theorem step_steady (h : Steady n s) {id : Nat} {reads : RowReads}
    (hUndisturbed : s.Undisturbed (.step id reads)) :
    SteadyAfter (n + 1) (s.attempt (.step id reads)) := by
  change SteadyAfter _ (s.stepCursor id reads)
  unfold stepCursor
  cases hCursor : s.cursor id with
  | none => exact ⟨by simp, by simp⟩
  | some c =>
    obtain ⟨f, hKeeps⟩ := h.cursors c (mem_of_getElem? (join_eq_some_iff.mp hCursor))
    simp only [hKeeps.whole, if_true]
    cases hNext : c.next (s.view c.fragments) with
    | none => exact ⟨by simp, by simp⟩
    | some r =>
      obtain ⟨c', rows⟩ := r
      obtain ⟨hOthers, hSeveral⟩ := hUndisturbed c hCursor f hKeeps.insertsFragment (c', rows) hNext
      rw [hKeeps.view] at hNext
      obtain ⟨hFragments, hOpenedSame, hCursors, hWalked, hOnce⟩ :=
        OpenCursor.next_walked hNext hKeeps.walked
      obtain ⟨base, deletes, inserts, hOpened, hPinned, hPlaces⟩ := hKeeps.pinned
      simp only [hFragments]
      have hSound := hPinned.readRows_sound
        { reads with inserts := reads.inserts ++ rows } h.sound
      refine ⟨hSound.mono n.le_succ, fun d hd => ?_⟩
      rcases mem_set_cursors hd with rfl | ⟨hOld, hPoints⟩
      · have hRead := hPinned.readRows { reads with inserts := reads.inserts ++ rows } hPinned
        refine ⟨_, hKeeps.clears,
          ⟨base, deletes, inserts, hOpenedSame.trans hOpened, hRead, ?_⟩, hWalked⟩
        intro p hp
        obtain ⟨row, hRow, rfl⟩ := mem_map.mp hp
        rw [FragmentSet.getFragment, hRead.inserts.find, getD_some]
        apply slot_of_inWindow hRead.inserts.calm.holds
        exact inWindow_of_step hPinned.inserts.calm hOnce (fun hMany => (hSeveral hMany).1) hRow
      · obtain ⟨f', hKeeps'⟩ := h.cursors d hOld
        refine hKeeps'.frame rfl fun _ _ _ hPinned' =>
          ⟨_, hPinned.readRows { reads with inserts := reads.inserts ++ rows } hPinned',
            fun hPoint => ?_⟩
        obtain ⟨-, rfl⟩ := hPinned.inserts.unique hPinned'.inserts
        rw [readRows_of_stays (hOthers (hPoints hPoint))]

/-! ## Runs -/

theorem attempt_steady (h : Steady n s) (hn : n < 2 ^ 64) {call : SessionCall Data κ}
    (hUndisturbed : s.Undisturbed call) : SteadyAfter (n + 1) (s.attempt call) := by
  cases call with
  | insert data => exact insert_steady h data
  | remove key => exact remove_steady h key
  | commitChanges => exact commitChanges_steady h hn hUndisturbed
  | getByKeyProjection key fn => exact getByKeyProjection_steady key fn h hn hUndisturbed
  | openCursor query hOn => exact openCursor_steady query hOn h hn hUndisturbed
  | step id reads => exact step_steady h hUndisturbed
  | close id => exact close_steady h id

variable {r : Except SessionError (Session T)}

theorem step_steadyAfter (h : SteadyAfter n r)
    (hn : n < 2 ^ 64) {call : SessionCall Data κ} (hUndisturbed : UndisturbedBy r call) :
    SteadyAfter (n + 1) (step r call) := by
  cases r with
  | error e => exact h
  | ok s => exact attempt_steady h hn hUndisturbed

theorem SteadyAfter.cursorsStable (h : SteadyAfter n r) : CursorsStable r := by
  cases r with
  | error e => exact h
  | ok s =>
    intro c hc
    obtain ⟨f, hKeeps⟩ := h.cursors c hc
    exact hKeeps.stable

theorem cursorsStable_of_steady (h : SteadyAfter n r)
    {calls : List (SessionCall Data κ)} (hLen : n + calls.length < 2 ^ 64)
    (hUndisturbed : Run.EveryStep step UndisturbedBy r calls) :
    Run.Throughout step CursorsStable r calls := by
  induction calls generalizing n r with
  | nil => exact h.cursorsStable
  | cons call calls ih =>
    rw [length_cons] at hLen
    exact ⟨h.cursorsStable, ih (step_steadyAfter h (by omega) hUndisturbed.1) (by omega)
      hUndisturbed.2⟩

/-- In a run of undisturbed calls on a new table every open cursor is stable all the time. -/
theorem cursorsStable_throughout {calls : List (SessionCall Data κ)} (hLen : calls.length < 2 ^ 64)
    (hUndisturbed : Run.EveryStep Session.step UndisturbedBy (.ok (Session.create : Session T))
      calls) :
    Run.Throughout Session.step CursorsStable (.ok (Session.create : Session T)) calls := by
  have hNew : SteadyAfter 0 (.ok (create : Session T)) := ⟨create_spec.1, nofun⟩
  exact cursorsStable_of_steady hNew (by rwa [zero_add]) hUndisturbed

end

section

open Table (natTable)

/-- A cursor over 1 in `base` and 2 in `inserts`; changes wait while it points to the 2, and a
look-up finds the 2 in the same window. -/
theorem cursorsStable_throughout_walk : Run.Throughout Session.step CursorsStable
    (.ok (Session.create : Session natTable))
    [.insert 1, .commitChanges, .insert 2, .commitChanges, .openCursor .cursor (by decide),
      .step 0 ⟨[0], [], [0]⟩, .step 0 ⟨[], [], [0]⟩, .insert 3, .remove 4,
      .getByKeyProjection 2 id, .step 0 ⟨[], [], []⟩] :=
  cursorsStable_throughout (by decide) (by decide +kernel)

/-- The row that a cursor has delivered is removed and the change committed. -/
def repairLoop : List (SessionCall Nat Nat) :=
  [.insert 1, .commitChanges, .insert 2, .commitChanges, .openCursor .cursor (by decide),
    .step 0 ⟨[0], [], [0]⟩, .remove 1, .commitChanges]

def losesFragment {T : TableType Nat Nat} : Except SessionError (Session T) → Bool
  | .ok s => s.cursors.any fun c => c.any fun c => !(s.view c.fragments).whole
  | .error _ => false

/-- The commit clears `inserts` and merges `deletes`, so that the next step of the cursor reads
fragments that do not exist any more. -/
theorem not_cursorsStable_repairLoop :
    (∃ s, Run.after Session.step (.ok (Session.create : Session natTable)) repairLoop = .ok s) ∧
      ¬ Run.Throughout Session.step CursorsStable (.ok (Session.create : Session natTable))
        repairLoop := by
  have hLost : losesFragment
      (Run.after step (.ok (create : Session natTable)) repairLoop) = true := by
    decide +kernel
  cases hRun : Run.after step (.ok (create : Session natTable)) repairLoop with
  | error e =>
    rw [hRun] at hLost
    cases hLost
  | ok s =>
    refine ⟨⟨s, rfl⟩, fun hAll => ?_⟩
    have hStable := (Run.throughout_iff step).mp hAll repairLoop.length
    rw [take_length, hRun] at hStable
    rw [hRun] at hLost
    obtain ⟨c, hc, hDead⟩ := any_eq_true.mp hLost
    cases c with
    | none => cases hDead
    | some c =>
      have hAlive := (hStable c hc).alive
      simp only [any_some, hAlive, Bool.not_true, Bool.false_eq_true] at hDead

end

end Fhgfs.Fsck
