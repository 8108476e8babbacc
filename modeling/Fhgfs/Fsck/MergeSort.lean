import Fhgfs.Fsck.FragmentSet

/-!
# The merge of `Set::sort`

One round makes one fragment of the two to four smallest ones. It leaves fewer fragments,
and the items are the same as before (`Round`); they ascend in every fragment exactly if they
did before. So the loop ends, and it ends with one fragment of all items.
-/

namespace Fhgfs.Fsck

open List SetFragment Union OrderedMap List.Perm Option
open SetFragment (Holds Ready Built Intact HonestFlag)

namespace FragmentSet

variable {Data κ : Type} [LinearOrder κ] {T : ItemType Data κ}

/-! ## The rows of a union -/

theorem mergeInputs_spec (fs : List (SetFragment Data κ)) (hHolds : ∀ f ∈ fs, Holds f (f.items T))
    (hSize : (fs.flatMap fun f => f.items T).length < 2 ^ 64) (hTwo : 2 ≤ fs.length)
    (hFour : fs.length ≤ 4) :
    ∃ rows, mergeInputs T fs = some rows ∧ rows.Perm (fs.flatMap fun f => f.items T) ∧
      (T.Ascending rows ↔ ∀ f ∈ fs, T.Ascending (f.items T)) := by
  have hReads : ∀ f ∈ fs, Cursor.Reads (f.cursor T) (SetFragmentCursor.spec (f.items T))
      (CursorAt (f.items T)) := by
    intro f hf
    refine cursor_reads (hHolds f hf) (lt_of_le_of_lt ?_ hSize)
    rw [length_flatMap]
    exact single_le_sum (by simp) _ (mem_map_of_mem hf)
  match fs, hTwo, hFour with
  | [a, b], _, _ =>
    simp only [forall_mem_cons, not_mem_nil, false_imp_iff, implies_true, and_true,
      flatMap_cons, flatMap_nil, append_nil] at hReads ⊢
    obtain ⟨ha, hb⟩ := hReads
    refine ⟨_, (reads ha hb).readAll, mergeRows_perm _ _, ?_⟩
    exact mergeRows_ascending_iff
  | [a, b, c], _, _ =>
    simp only [forall_mem_cons, not_mem_nil, false_imp_iff, implies_true, and_true,
      flatMap_cons, flatMap_nil, append_nil] at hReads ⊢
    obtain ⟨ha, hb, hc⟩ := hReads
    refine ⟨_, (reads (reads ha hb) hc).readAll, ?_, ?_⟩
    · rw [← append_assoc]
      exact (mergeRows_perm _ _).trans ((mergeRows_perm _ _).append_right _)
    · rw [← and_assoc]
      exact mergeRows_ascending_iff.trans (and_congr_left' mergeRows_ascending_iff)
  | [a, b, c, d], _, _ =>
    simp only [forall_mem_cons, not_mem_nil, false_imp_iff, implies_true, and_true,
      flatMap_cons, flatMap_nil, append_nil] at hReads ⊢
    obtain ⟨ha, hb, hc, hd⟩ := hReads
    refine ⟨_, (reads (reads ha hb) (reads hc hd)).readAll, ?_, ?_⟩
    · rw [← append_assoc]
      exact (mergeRows_perm _ _).trans
        ((mergeRows_perm _ _).append (mergeRows_perm _ _))
    · rw [← and_assoc]
      exact mergeRows_ascending_iff.trans
        (and_congr mergeRows_ascending_iff mergeRows_ascending_iff)

/-! ## The worklist -/

theorem insertBySize_perm (entry : Nat × List Nat) (l : List (Nat × List Nat)) :
    (insertBySize entry l).Perm (entry :: l) := by
  induction l with
  | nil => exact List.Perm.refl _
  | cons e l ih =>
    unfold insertBySize
    split
    · exact List.Perm.refl _
    · exact (ih.cons e).trans (List.Perm.swap entry e l)

theorem foldl_insertBySize_perm {α : Type} (entry : α → Nat × List Nat) (xs : List α)
    (l : List (Nat × List Nat)) :
    (xs.foldl (fun sorted x => insertBySize (entry x) sorted) l).Perm (xs.map entry ++ l) := by
  induction xs generalizing l with
  | nil => exact List.Perm.refl _
  | cons x xs ih =>
    refine (ih _).trans (((insertBySize_perm _ l).append_left _).trans ?_)
    exact perm_middle

/-- The list of the loop has the name of every fragment, once. -/
structure Worklist (sortedFragments : List (Nat × List Nat)) (m : Fragments Data κ) : Prop where
  nodup : (sortedFragments.map Prod.snd).Nodup
  mem_iff {file : List Nat} : file ∈ sortedFragments.map Prod.snd ↔ ∃ f, m.find file = some f

omit [LinearOrder κ] in
theorem Worklist.congr {E E' : List (Nat × List Nat)} {m : Fragments Data κ}
    (h : Worklist E m) (hPerm : E'.Perm E) : Worklist E' m where
  nodup := (hPerm.map Prod.snd).nodup_iff.mpr h.nodup
  mem_iff := ((hPerm.map Prod.snd).mem_iff).trans h.mem_iff

/-- What a round keeps: the items, and whether they ascend in each fragment. -/
structure Round (T : ItemType Data κ) (s s' : FragmentSet Data κ) : Prop where
  stands : Stands T s'
  items : (contents T s'.openFragments).Perm (contents T s.openFragments)
  ascending : Each (fun f => T.Ascending (f.items T)) s'.openFragments ↔
    Each (fun f => T.Ascending (f.items T)) s.openFragments
  honest : Each (HonestFlag T) s.openFragments → Each (HonestFlag T) s'.openFragments

variable {s : FragmentSet Data κ}

theorem Round.refl (h : Stands T s) : Round T s s := ⟨h, List.Perm.refl _, Iff.rfl, id⟩

theorem Round.trans {s s₁ s' : FragmentSet Data κ} (h : Round T s s₁) (h' : Round T s₁ s') :
    Round T s s' :=
  ⟨h'.stands, h'.items.trans h.items, h'.ascending.trans h.ascending,
    fun hHonest => h'.honest (h.honest hHonest)⟩

theorem round_of_merged (h : Stands T s) {inputs : List (List Nat)}
    (hNodup : inputs.Nodup) (hFind : ∀ file ∈ inputs,
      s.openFragments.find file = some (s.getFragment T file))
    {merged : SetFragment Data κ} {rows : List Data} (hMerged : Ready T merged rows)
    (hPerm : rows.Perm (inputs.flatMap fun file => (s.getFragment T file).items T))
    (hAsc : T.Ascending rows ↔ ∀ file ∈ inputs, T.Ascending ((s.getFragment T file).items T)) :
    Round T s ⟨s.nextID + 1, inputs.foldl remove
      (s.openFragments.put (fragmentName s.nextID) merged)⟩ := by
  have hItems : merged.items T = rows := items_of_holds hMerged.holds
  have hNew : s.openFragments.find (fragmentName s.nextID) = none := h.named le_rfl
  have hPut {file : List Nat} (hIn : file ∈ inputs) :
      (s.openFragments.put (fragmentName s.nextID) merged).find file =
        some (s.getFragment T file) := by
    rw [find_put_of_ne _ _ (h.ne_nextName (hFind file hIn)), hFind file hIn]
  refine ⟨(h.put hMerged.intact).foldl_remove inputs, ?_, ?_, fun hHonest =>
    (hHonest.put hMerged.honestFlag).foldl_remove inputs⟩
  · have hBefore := contents_put (T := T) (f := merged) hNew
    have hAfter := contents_foldl_remove (T := T) hNodup (s.getFragment T) fun _ => hPut
    rw [hItems] at hBefore
    exact (perm_append_left_iff _).mp
      ((hAfter.symm.trans hBefore).trans (hPerm.append_right _))
  · have hSplit : Each (fun f => T.Ascending (f.items T))
        (s.openFragments.put (fragmentName s.nextID) merged) ↔ Each _ (inputs.foldl _ _) ∧ _ :=
      each_iff_foldl_remove
    have hInputs (hEach : ∀ file ∈ inputs, T.Ascending ((s.getFragment T file).items T)) :
        ∀ file ∈ inputs, ∀ f,
          (s.openFragments.put (fragmentName s.nextID) merged).find file = some f →
            T.Ascending (f.items T) := by
      intro file hIn f hf
      cases (hPut hIn).symm.trans hf
      exact hEach file hIn
    rw [each_put_iff hNew, hItems] at hSplit
    constructor
    · intro hEach
      have hRows : T.Ascending rows := by
        rw [← hItems]
        refine hEach (fragmentName s.nextID) merged ?_
        rw [find_foldl_remove, if_neg, find_put_self]
        exact fun hIn => h.ne_nextName (hFind _ hIn) rfl
      exact (hSplit.mpr ⟨hEach, hInputs (hAsc.mp hRows)⟩).2
    · intro hEach
      have hAll : ∀ file ∈ inputs, T.Ascending ((s.getFragment T file).items T) :=
        fun file hIn => hEach file _ (hFind file hIn)
      exact (hSplit.mp ⟨hAsc.mpr hAll, hEach⟩).1

variable {E : List (Nat × List Nat)}

theorem Worklist.find_eq
    (h : Worklist E s.openFragments) {file : List Nat} (hIn : file ∈ E.map Prod.snd) :
    s.openFragments.find file = some (s.getFragment T file) := by
  obtain ⟨f, hFind⟩ := h.mem_iff.mp hIn
  rw [getFragment, hFind, getD_some]

theorem worklist_of_merged (h : Stands T s)
    {inputs rest : List (Nat × List Nat)} (hList : Worklist (inputs ++ rest) s.openFragments)
    (size : Nat) (merged : SetFragment Data κ) :
    Worklist ((size, fragmentName s.nextID) :: rest) ((inputs.map Prod.snd).foldl
      remove (s.openFragments.put (fragmentName s.nextID) merged)) := by
  have hNodup := hList.nodup
  have hMem {file : List Nat} : file ∈ (inputs ++ rest).map Prod.snd ↔ _ := hList.mem_iff
  rw [map_append] at hNodup
  simp only [map_append, mem_append] at hMem
  have hNew : fragmentName s.nextID ∉ inputs.map Prod.snd ∧
      fragmentName s.nextID ∉ rest.map Prod.snd := by
    rw [← not_or, hMem]
    rintro ⟨f, hFind⟩
    exact h.ne_nextName hFind rfl
  obtain ⟨-, hRest, hDisjoint⟩ := nodup_append.mp hNodup
  refine ⟨nodup_cons.mpr ⟨hNew.2, hRest⟩, fun {file} => ?_⟩
  rw [map_cons, mem_cons, find_foldl_remove]
  by_cases hInput : file ∈ inputs.map Prod.snd
  · rw [if_pos hInput]
    refine iff_of_false ?_ (by simp)
    rintro (rfl | hIn)
    · exact hNew.1 hInput
    · exact hDisjoint file hInput file hIn rfl
  · rw [if_neg hInput]
    by_cases hName : file = fragmentName s.nextID
    · simp [hName]
    · rw [find_put_of_ne _ _ hName, ← hMem]
      simp [hName, hInput]

theorem mergeRound_spec (h : Stands T s) (hList : Worklist E s.openFragments) (hTwo : 1 < E.length)
    (hSize : (contents T s.openFragments).length < 2 ^ 64) :
    ∃ E' s', mergeRound T E s = some (E', s') ∧ Round T s s' ∧ Worklist E' s'.openFragments ∧
      0 < E'.length ∧ E'.length < E.length := by
  have hFind : ∀ file ∈ (E.take MERGE_WIDTH).map Prod.snd,
      s.openFragments.find file = some (s.getFragment T file) := by
    intro file hIn
    exact hList.find_eq (((E.take_sublist MERGE_WIDTH).map Prod.snd).subset hIn)
  have hNodup := hList.nodup.sublist ((E.take_sublist MERGE_WIDTH).map Prod.snd)
  have hBound : (((E.take MERGE_WIDTH).map Prod.snd).flatMap fun file =>
      (s.getFragment T file).items T).length < 2 ^ 64 := by
    have hLen := (contents_foldl_remove (T := T) hNodup _ hFind).length_eq
    rw [List.length_append] at hLen
    omega
  obtain ⟨rows, hRows, hPerm, hAsc⟩ := mergeInputs_spec (T := T)
    (((E.take MERGE_WIDTH).map Prod.snd).map (s.getFragment T))
    (by
      intro f hf
      obtain ⟨file, hIn, rfl⟩ := List.mem_map.mp hf
      exact (h.intact file _ (hFind file hIn)).holds)
    (by rwa [List.flatMap_map])
    (by simp [MERGE_WIDTH]; omega)
    (by simp [MERGE_WIDTH])
  have hCreate : s.getFragment T (fragmentName s.nextID) = SetFragment.create T := by
    rw [getFragment, h.named le_rfl, Option.getD_none]
  have hMerged : Ready T ((SetFragment.create T).appendAll T rows).flush rows :=
    SetFragment.flush_ready (SetFragment.appendAll_built SetFragment.create_built rows).toReady
  rw [List.flatMap_map] at hPerm
  rw [List.forall_mem_map] at hAsc
  refine ⟨insertBySize (((SetFragment.create T).appendAll T rows).flush.itemCount,
    fragmentName s.nextID) (E.drop MERGE_WIDTH), _, ?_,
    round_of_merged h hNodup hFind hMerged hPerm hAsc, ?_, ?_, ?_⟩
  · simp only [mergeRound, hRows, hCreate, Option.bind_eq_bind, Option.bind_some]
  · refine (worklist_of_merged h ?_ _ _).congr (insertBySize_perm _ _)
    rwa [List.take_append_drop]
  · simp [(insertBySize_perm _ _).length_eq]
  · simp only [(insertBySize_perm _ _).length_eq, List.length_cons, List.length_drop, MERGE_WIDTH]
    omega

theorem mergeLoop_spec {n : Nat}
    (h : Stands T s) (hList : Worklist E s.openFragments) (hPos : 0 < E.length)
    (hn : E.length ≤ n) (hSize : (contents T s.openFragments).length < 2 ^ 64) :
    ∃ s' file f, mergeLoop T n E s = some s' ∧ Round T s s' ∧
      s'.openFragments.elems = [(file, f)] := by
  induction n generalizing E s with
  | zero => omega
  | succ n ih =>
    unfold mergeLoop
    split
    · rename_i hTwo
      obtain ⟨E', s₁, hStep, hRound, hList', hPos', hLess⟩ := mergeRound_spec h hList hTwo hSize
      obtain ⟨s', file, f, hLoop, hRounds, hOne⟩ := ih hRound.stands hList' hPos' (by omega)
        (hRound.items.length_eq ▸ hSize)
      refine ⟨s', file, f, ?_, hRound.trans hRounds, hOne⟩
      rwa [hStep]
    · obtain ⟨e, rfl⟩ := length_eq_one_iff.mp (by omega : E.length = 1)
      refine ⟨s, e.2, s.getFragment T e.2, rfl, .refl h, elems_of_find fun file => ?_⟩
      split
      · rename_i hSame
        rw [hSame]
        exact hList.find_eq (by simp)
      · rename_i hOther
        by_contra hSome
        obtain ⟨f, hFind⟩ := ne_none_iff_exists'.mp hSome
        exact hOther (by simpa using hList.mem_iff.mpr ⟨f, hFind⟩)

end FragmentSet

end Fhgfs.Fsck
