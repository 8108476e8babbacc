import Fhgfs.Fsck.TableCommit

/-!
# Runs of a table

A table is to behave like a multiset on which the calls are executed one by one (`plain`).
It does so in every run in which no `remove` is for the key of a pending insert (`InOrder`):
deletes are applied before the pending inserts. The order checks are to throw for the others,
but `ms_ordered_at_insert` lets smaller keys through instead of larger ones.
-/

namespace Fhgfs.Fsck.Table

open FragmentSet (elements)

variable {Data κ : Type} [LinearOrder κ] (T : TableType Data κ)

def run (calls : List (TableCall Data κ)) : Except TableError (Table Data κ) :=
  calls.foldlM (step T) create

def plainStep (m : Multiset Data) : TableCall Data κ → Multiset Data
  | .insert data => data ::ₘ m
  | .remove key => m.filter fun x => T.item.pkey x ≠ key
  | .commitChanges => m
  | .clear => 0

def plain (calls : List (TableCall Data κ)) : Multiset Data := calls.foldl (plainStep T) 0

/-- After a final commit the query reads the plain multiset, in ascending order. -/
def RowsArePlain (calls : List (TableCall Data κ)) : Prop :=
  ∃ t t' rows, run T calls = .ok t ∧ t.commitChanges T = .ok t' ∧ t'.rows T = .ok rows ∧
    T.item.Ascending rows ∧ (rows : Multiset Data) = plain T calls

/-- The call after `calls` is not a remove of a key that is waiting in `insertsPending`. -/
def InOrder (calls : List (TableCall Data κ)) : TableCall Data κ → Prop
  | .remove key => match run T calls with
    | .ok t => ∀ x ∈ FragmentSet.contents T.item t.insertsPending.openFragments,
        T.item.pkey x ≠ key
    | .error _ => True
  | _ => True

/-- A call has thrown, which is not to be stuck in a loop. -/
def Thrown : Except TableError (Table Data κ) → Prop
  | .error e => e ≠ .stuck
  | .ok _ => False

instance (calls : List (TableCall Data κ)) :
    (call : TableCall Data κ) → Decidable (InOrder T calls call)
  | .insert _ => .isTrue trivial
  | .remove key =>
    match hRun : run T calls with
    | .ok t => decidable_of_iff
        (∀ x ∈ FragmentSet.contents T.item t.insertsPending.openFragments, T.item.pkey x ≠ key)
        (by simp [InOrder, hRun])
    | .error _ => .isTrue (by simp [InOrder, hRun])
  | .commitChanges => .isTrue trivial
  | .clear => .isTrue trivial

instance : (r : Except TableError (Table Data κ)) → Decidable (Thrown r)
  | .error e => inferInstanceAs (Decidable (e ≠ .stuck))
  | .ok _ => .isFalse id

def history (calls : List (TableCall Data κ)) (call : TableCall Data κ) : List (TableCall Data κ) :=
  calls ++ [call]

variable {T} {n : Nat} {t : Table Data κ} {calls : List (TableCall Data κ)}

/-! ## One call -/

theorem orderInsert_not_stuck {key : κ} : t.orderInsert T key ≠ .error .stuck := by
  unfold orderInsert assertNoBulkInsert
  cases t.modificationState <;> simp only [ne_eq, reduceCtorEq, not_false_eq_true]
  case ms_bulk_insert =>
    cases t.bulkInserters.any id <;> simp [bind, Except.bind]
  case ms_unordered_delete => simp
  all_goals split <;> simp

theorem orderRemove_not_stuck {key : κ} : t.orderRemove key ≠ .error .stuck := by
  unfold orderRemove
  cases t.modificationState <;> simp only [ne_eq, reduceCtorEq, not_false_eq_true]
  case ms_unordered_insert => simp
  all_goals split <;> simp

omit [LinearOrder κ] in
theorem checkBulkInsert_not_stuck : t.checkBulkInsert ≠ .error .stuck := by
  unfold checkBulkInsert assertNoBulkInsert
  split
  · split <;> simp
  · simp

theorem insert_not_stuck {data : Data} : t.insert T data ≠ .error .stuck := by
  have hOrder : t.orderInsert T (T.item.pkey data) ≠ _ := orderInsert_not_stuck
  unfold insert
  cases hCheck : t.orderInsert T (T.item.pkey data) with
  | error e => simpa [bind, Except.bind, hCheck] using hOrder
  | ok t₁ => simp [bind, Except.bind]

theorem remove_not_stuck {key : κ} : t.remove T key ≠ .error .stuck := by
  have hBulk := checkBulkInsert_not_stuck (t := t)
  unfold remove
  cases hCheck : t.checkBulkInsert with
  | error e => simpa [bind, Except.bind, hCheck] using hBulk
  | ok t₁ =>
    have hOrder : (t₁.completeBase T).orderRemove key ≠ _ := orderRemove_not_stuck
    cases hSwitch : (t₁.completeBase T).orderRemove key with
    | error e => simpa [bind, Except.bind, hSwitch] using hOrder
    | ok t₂ => simp [bind, Except.bind, hSwitch]

theorem run_append (calls : List (TableCall Data κ)) (call : TableCall Data κ) :
    run T (history calls call) = run T calls >>= fun t => t.step T call := by
  simp [run, history, List.foldlM_append]

omit [LinearOrder κ] in
theorem thrown_foldlM {ι : Type} {step : Table Data κ → ι → Except TableError (Table Data κ)}
    {is js : List ι} (h : Thrown (is.foldlM step t)) : Thrown ((is ++ js).foldlM step t) := by
  rw [List.foldlM_append]
  cases hRun : is.foldlM step t with
  | error e => simpa [hRun, bind, Except.bind] using h
  | ok t => simp [hRun, Thrown] at h

omit [LinearOrder κ] in
theorem thrown_of_error {r : Except TableError (Table Data κ)} {e : TableError}
    (hStuck : r ≠ .error .stuck) (hError : r = .error e) : Thrown r := by
  subst hError
  exact fun hSame => hStuck (congrArg _ hSame)

theorem step_original (h : Original T n t) (hn : n < 2 ^ 64) (call : TableCall Data κ) :
    Thrown (t.step T call) ∨ ∃ t', t.step T call = .ok t' ∧ Original T (n + 1) t' := by
  cases call with
  | insert data =>
    cases hStep : t.insert T data with
    | error e => exact Or.inl (thrown_of_error insert_not_stuck hStep)
    | ok t' => exact Or.inr ⟨t', hStep, (h.insert hStep).1⟩
  | remove key =>
    cases hStep : t.remove T key with
    | error e => exact Or.inl (thrown_of_error remove_not_stuck hStep)
    | ok t' => exact Or.inr ⟨t', hStep, h.remove hStep⟩
  | commitChanges =>
    obtain ⟨t', hCommit, hSound, -, hSettled⟩ := commitChanges_spec h.toSound hn
    refine Or.inr ⟨t', hCommit, hSound.mono n.le_succ, fun hInto => ?_⟩
    rw [hSettled.insertsIntoBase] at hInto
    cases hInto
  | clear => exact Or.inr ⟨_, rfl, Original.clear.mono (Nat.zero_le _)⟩

variable {call : TableCall Data κ}

/-- The content follows the plain multiset, but for the pending inserts that a remove should
have reached. -/
theorem step_content (h : Original T n t) (hn : n < 2 ^ 64)
    {t' : Table Data κ} (hStep : t.step T call = .ok t') :
    content T t' = match call with
      | .remove key => ((older T t).filter fun x => T.item.pkey x ≠ key) +
          elements T.item t.insertsPending
      | call => plainStep T (content T t) call := by
  cases call with
  | insert data => exact (h.insert hStep).2
  | remove key => exact (remove_spec h.toSound hStep).2
  | commitChanges =>
    obtain ⟨t₁, hCommit, -, hContent, -⟩ := commitChanges_spec h.toSound hn
    obtain rfl := Except.ok.inj (hCommit.symm.trans hStep)
    exact hContent
  | clear =>
    obtain rfl := Except.ok.inj hStep
    exact clear_spec.2

/-! ## Runs -/

/-- What holds after calls that were all in order. -/
def Follows (T : TableType Data κ) (calls : List (TableCall Data κ)) : Prop :=
  calls.length < 2 ^ 64 ∧
    ∃ t, run T calls = .ok t ∧ Original T calls.length t ∧ content T t = plain T calls

theorem follows_nil : Follows T ([] : List (TableCall Data κ)) :=
  ⟨by simp, create, rfl, .create, create_spec.2⟩

theorem rows_of_sound (hLen : calls.length < 2 ^ 64) (hRun : run T calls = .ok t)
    (h : Sound T calls.length t) : RowsArePlain T calls ↔ content T t = plain T calls := by
  obtain ⟨t', hCommit, hSound, hContent, hSettled⟩ := commitChanges_spec h hLen
  obtain ⟨rows, hRows, hAsc, hElements⟩ := rows_spec hSound hLen hSettled
  constructor
  · rintro ⟨t₁, t₁', rows₁, hRun₁, hCommit₁, hRows₁, -, hPlain⟩
    obtain rfl := Except.ok.inj (hRun.symm.trans hRun₁)
    obtain rfl := Except.ok.inj (hCommit.symm.trans hCommit₁)
    obtain rfl := Except.ok.inj (hRows.symm.trans hRows₁)
    rw [← hContent, ← hElements, hPlain]
  · intro hPlain
    exact ⟨t, t', rows, hRun, hCommit, hRows, hAsc, hElements.trans (hContent.trans hPlain)⟩

def Admitted (T : TableType Data κ) (calls : List (TableCall Data κ))
    (call : TableCall Data κ) : Prop :=
  ¬ Thrown (run T (history calls call)) ∧ calls.length + 1 < 2 ^ 64

theorem admitted_of_run {rest : List (TableCall Data κ)}
    (hThrown : ¬ Thrown (run T (calls ++ rest))) (hLen : (calls ++ rest).length < 2 ^ 64) :
    Run.EveryStep history (Admitted T) calls rest := by
  induction rest generalizing calls with
  | nil => trivial
  | cons call rest ih =>
    have hSplit : calls ++ call :: rest = history calls call ++ rest := by simp [history]
    rw [hSplit] at hThrown hLen
    refine ⟨⟨fun h => hThrown (thrown_foldlM h), ?_⟩, ih hThrown hLen⟩
    simp only [history, List.length_append, List.length_singleton] at hLen
    omega

section

variable (hFollows : Follows T calls) (hAdmitted : Admitted T calls call)
include hFollows hAdmitted

theorem run_history :
    ∃ t t', run T calls = .ok t ∧ t.step T call = .ok t' ∧ run T (history calls call) = .ok t' ∧
      Original T calls.length t ∧ Original T (history calls call).length t' ∧
      content T t = plain T calls := by
  obtain ⟨hLen, t, hRun, hSound, hContent⟩ := hFollows
  have hNext : run T (history calls call) = t.step T call := by
    rw [run_append, hRun]
    rfl
  rcases step_original hSound hLen call with hThrown | ⟨t', hStep, hSound'⟩
  · exact absurd (hNext ▸ hThrown) hAdmitted.1
  · refine ⟨t, t', hRun, hStep, hNext.trans hStep, hSound, ?_, hContent⟩
    simpa [history] using hSound'

theorem follows_step (hOrder : InOrder T calls call) : Follows T (history calls call) := by
  obtain ⟨t, t', hRun, hStep, hRun', hSound, hSound', hContent⟩ := run_history hFollows hAdmitted
  refine ⟨by simpa [history] using hAdmitted.2, t', hRun', hSound', ?_⟩
  have hPlain : plain T (history calls call) = plainStep T (plain T calls) call := by
    simp [plain, history]
  rw [step_content hSound hFollows.1 hStep, hPlain, ← hContent]
  cases call with
  | remove key =>
    simp only [InOrder, hRun] at hOrder
    have hPending : (elements T.item t.insertsPending).filter (fun x => T.item.pkey x ≠ key) =
        elements T.item t.insertsPending := Multiset.filter_eq_self.mpr hOrder
    rw [plainStep, content, Multiset.filter_add, hPending]
  | _ => rfl

theorem not_rows_of_disorder (hOrder : ¬ InOrder T calls call) :
    ¬ RowsArePlain T (history calls call) := by
  obtain ⟨t, t', hRun, hStep, hRun', hSound, hSound', hContent⟩ := run_history hFollows hAdmitted
  rw [rows_of_sound (by simpa [history] using hAdmitted.2) hRun' hSound'.toSound,
    step_content hSound hFollows.1 hStep]
  cases call with
  | remove key =>
    simp only [InOrder, hRun, not_forall, not_not, exists_prop] at hOrder
    obtain ⟨x, hx, hKey⟩ := hOrder
    intro hPlain
    have hIn : x ∈ plain T (history calls (.remove key)) := by
      rw [← hPlain]
      exact Multiset.mem_add.mpr (Or.inr hx)
    simp [plain, history, plainStep, hKey] at hIn
  | _ => simp [InOrder] at hOrder

end

/-- A table reads like its history in every state of a run exactly if every call is in order. -/
theorem rowsArePlain_throughout_iff (hThrown : ¬ Thrown (run T calls))
    (hLen : calls.length < 2 ^ 64) :
    Run.Throughout history (RowsArePlain T) [] calls ↔
      Run.EveryStep history (InOrder T) [] calls := by
  refine Run.throughout_iff_everyStep (J := Follows T) (A := Admitted T) history ?_ ?_ ?_
    follows_nil (admitted_of_run hThrown hLen)
  · rintro calls ⟨hLen, t, hRun, hSound, hContent⟩
    exact (rows_of_sound hLen hRun hSound.toSound).mpr hContent
  · exact fun calls call hFollows => follows_step hFollows
  · exact fun calls call hFollows => not_rows_of_disorder hFollows

section

open SetFragment (natItems)

def natTable : TableType Nat Nat where
  item := natItems
  key := natItems
  key_pkey _ := rfl
  AllowDuplicateKeys := false
  fragmentSize := 16

theorem rowsArePlain_throughout_commit : Run.Throughout history (RowsArePlain natTable) []
    [.insert 2, .insert 1, .commitChanges, .remove 2, .insert 3] :=
  (rowsArePlain_throughout_iff (by decide) (by decide)).mpr (by decide)

/-- 5 and then 3 are inserted behind a delete, which is let through, and the remove of 5 does
not reach the pending 5. -/
theorem not_rowsArePlain :
    ¬ Thrown (run natTable [.remove 5, .insert 5, .insert 3, .remove 5]) ∧
      ¬ RowsArePlain natTable [.remove 5, .insert 5, .insert 3, .remove 5] := by
  refine ⟨by decide, ?_⟩
  rintro ⟨t, t', rows, hRun, hCommit, hRows, -, hPlain⟩
  have hRead : (run natTable [.remove 5, .insert 5, .insert 3, .remove 5] >>= fun t =>
      t.commitChanges natTable >>= fun t' => t'.rows natTable).toOption = some [3, 5] := by
    decide
  simp only [hRun, hCommit, hRows, bind, Except.bind, Except.toOption, Option.some.injEq] at hRead
  have hLen := congrArg Multiset.card hPlain
  rw [hRead] at hLen
  revert hLen
  decide

end

end Fhgfs.Fsck.Table
