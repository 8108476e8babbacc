import Fhgfs.Lib.Run
import Fhgfs.Workers.WorkContainers

/-!
# The order of the users

`UserWorkContainer` keeps the position of the next user across insertions and removals. Between
two works of a user it passes each other user once at most.
-/

namespace Fhgfs.Workers

namespace UserWorkContainer

open OrderedMap Run List Option

variable {Work : Type} {c : UserWorkContainer Work} {user : Nat}

inductive Call (Work : Type)
  | addWork (work : Work) (userID : Nat)
  | getAndPopNextWork

def step (c : UserWorkContainer Work) : Call Work → UserWorkContainer Work
  | .addWork work userID => c.addWork work userID
  | .getAndPopNextWork => (c.getAndPopNextWork.map Prod.snd).getD c

/-- The work that a call takes out, with its user. -/
def popped (c : UserWorkContainer Work) : Call Work → List (Nat × Work)
  | .addWork _ _ => []
  | .getAndPopNextWork =>
    match c.currentWorkIter, c.getAndPopNextWork with
    | some user, some (work, _) => [(user, work)]
    | _, _ => []

def added : Call Work → List (Nat × Work)
  | .addWork work userID => [(userID, work)]
  | .getAndPopNextWork => []

def worksOf (user : Nat) (works : List (Nat × Work)) : List Work :=
  (works.filter fun p => p.1 = user).map Prod.snd

theorem pop_cases (c : UserWorkContainer Work) :
    (popped c .getAndPopNextWork = [] ∧ step c .getAndPopNextWork = c) ∨
      ∃ user work rest, ∃ hFind : c.workMap.find user = some (work :: rest),
        c.currentWorkIter = some user ∧ popped c .getAndPopNextWork = [(user, work)] ∧
        step c .getAndPopNextWork = c.popWork user work rest hFind := by
  cases hIter : c.currentWorkIter with
  | none =>
    have hPop : c.getAndPopNextWork = none := by rw [getAndPopNextWork, hIter, bind_none]
    exact .inl ⟨by rw [popped, hIter], by rw [step, hPop]; rfl⟩
  | some user =>
    obtain ⟨workList, hFind⟩ := find_of_currentWorkIter hIter
    cases workList with
    | nil => exact absurd rfl (c.workList_ne_nil hFind)
    | cons work rest =>
      have hPop := getAndPopNextWork_eq hIter hFind
      exact .inr ⟨user, work, rest, hFind, rfl, by rw [popped, hIter, hPop],
        by rw [step, hPop]; rfl⟩

/-! ## Each user's works -/

theorem worksOf_step (user : Nat) (call : Call Work) :
    userWorkList c.workMap user ++ worksOf user (added call) =
      worksOf user (popped c call) ++ userWorkList (step c call).workMap user := by
  cases call with
  | addWork work userID =>
    simp only [step, addWork, userWorkList, find_put, added, popped, worksOf, filter_cons,
      filter_nil, map_nil, nil_append]
    by_cases hUser : userID = user
    · simp [hUser]
    · simp [hUser, Ne.symm hUser]
  | getAndPopNextWork =>
    rcases pop_cases c with ⟨hPopped, hStep⟩ | ⟨other, work, rest, hFind, -, hPopped, hStep⟩
    · rw [hPopped, hStep]
      simp [added, worksOf]
    rw [hPopped, hStep]
    by_cases hUser : other = user
    · subst hUser
      have hRest : userWorkList (popUserWork c.workMap other rest) other = rest := by
        unfold popUserWork userWorkList
        cases rest <;> simp
      change _ = _ ++ userWorkList (popUserWork c.workMap other rest) other
      rw [hRest, userWorkList, hFind]
      simp [added, worksOf]
    · simp [added, worksOf, hUser, popWork, userWorkList, find_popUserWork_of_ne (Ne.symm hUser)]

theorem worksOf_run (user : Nat) (calls : List (Call Work)) :
    userWorkList c.workMap user ++ worksOf user (calls.flatMap added) =
      worksOf user (collect step popped c calls) ++
        userWorkList (after step c calls).workMap user := by
  induction calls generalizing c with
  | nil => simp [collect, worksOf]
  | cons call calls ih =>
    have hStep := worksOf_step (c := c) user call
    simp only [flatMap_cons, collect, after_cons, worksOf, filter_append, map_append] at hStep ih ⊢
    rw [← append_assoc, hStep, append_assoc, append_assoc, ih]

/-! ## Overtaking -/

/-- While the user waits, the users taken out are those from the position on, up to the end of
the map and then from its beginning. -/
structure Overtaken (user : Nat) (taken : List Nat) (nextWorkIter : Option Nat) : Prop where
  nodup : taken.Nodup
  position : match nextWorkIter with
    | none => ∀ other ∈ taken, user < other
    | some next => if next ≤ user then ∀ other ∈ taken, other < next ∨ user < other
        else ∀ other ∈ taken, user < other ∧ other < next

theorem userAfter_le {workMap : OrderedMap Nat (List Work)} {next : Nat}
    (hWaits : workMap.find user ≠ none) (hLess : next < user) :
    ∃ after, userAfter workMap next = some after ∧ next < after ∧ after ≤ user := by
  obtain ⟨workList, hFind⟩ := ne_none_iff_exists'.mp hWaits
  have hUser : user ∈ workMap.elems.map Prod.fst := mem_keys.mpr ⟨workList, hFind⟩
  cases hAfter : userAfter workMap next with
  | none => exact absurd hLess (by simpa using find?_eq_none.mp hAfter user hUser)
  | some after =>
    obtain ⟨hNext, before, later, hKeys, hBefore⟩ := find?_eq_some_iff_append.mp hAfter
    refine ⟨after, rfl, by simpa using hNext, ?_⟩
    have hAscending : (workMap.elems.map Prod.fst).Pairwise (· < ·) :=
      pairwise_map.mpr workMap.ascending
    rw [hKeys] at hUser hAscending
    rcases mem_append.mp hUser with hUser | hUser
    · exact absurd hLess (by simpa using hBefore user hUser)
    · rcases mem_cons.mp hUser with rfl | hUser
      · exact le_rfl
      · exact (rel_of_pairwise_cons (pairwise_append.mp hAscending).2.1 hUser).le

theorem Overtaken.pop {taken : List Nat} {next : Nat} (h : Overtaken user taken c.nextWorkIter)
    (hIter : c.currentWorkIter = some next) (hNext : next ≠ user)
    (hWaits : c.workMap.find user ≠ none) :
    Overtaken user (taken ++ [next]) (userAfter c.workMap next) := by
  have hPosition := h.position
  have hTaken : next ∉ taken → (taken ++ [next]).Nodup := by
    intro hNew
    refine nodup_append.mpr ⟨h.nodup, by simp, fun other hOther b hb => ?_⟩
    rintro rfl
    exact hNew (mem_singleton.mp hb ▸ hOther)
  have hBelow : next < user → (∀ other ∈ taken, other < next ∨ user < other) →
      Overtaken user (taken ++ [next]) (userAfter c.workMap next) := by
    intro hLess hOthers
    obtain ⟨after, hAfter, hNextAfter, hAfterUser⟩ := userAfter_le hWaits hLess
    refine ⟨hTaken fun hIn => ?_, ?_⟩
    · have := hOthers next hIn
      omega
    · rw [hAfter]
      simp only [hAfterUser, if_true]
      intro other hOther
      rcases mem_append.mp hOther with hOther | hOther
      · have := hOthers other hOther
        omega
      · rw [mem_singleton.mp hOther]
        exact Or.inl hNextAfter
  cases hAt : c.nextWorkIter with
  | none =>
    rw [hAt] at hPosition
    refine hBelow ?_ fun other hOther => Or.inr (hPosition other hOther)
    rw [currentWorkIter, hAt] at hIter
    obtain ⟨first, hFirst, rfl⟩ := map_eq_some_iff.mp hIter
    obtain ⟨workList, hFind⟩ := ne_none_iff_exists'.mp hWaits
    have hUser : (user, workList) ∈ c.workMap.elems := find_eq_some.mp hFind
    obtain ⟨rest, hElems⟩ := head?_eq_some_iff.mp hFirst
    have hAscending := c.workMap.ascending
    rw [hElems] at hUser hAscending
    rcases mem_cons.mp hUser with hSame | hUser
    · exact absurd (congrArg Prod.fst hSame).symm hNext
    · exact rel_of_pairwise_cons hAscending hUser
  | some position =>
    obtain rfl : position = next := by
      rw [currentWorkIter, hAt] at hIter
      exact some.inj hIter
    rw [hAt] at hPosition
    simp only at hPosition
    split_ifs at hPosition with hLe
    · exact hBelow (lt_of_le_of_ne hLe hNext) hPosition
    refine ⟨hTaken fun hIn => absurd (hPosition _ hIn).2 (lt_irrefl _), ?_⟩
    have hAll : ∀ bound, position < bound → ∀ other ∈ taken ++ [position],
        user < other ∧ other < bound := by
      intro bound hBound other hOther
      rcases mem_append.mp hOther with hOther | hOther
      · have := hPosition other hOther
        omega
      · rw [mem_singleton.mp hOther]
        omega
    cases hAfter : userAfter c.workMap position with
    | none => exact fun other hOther => (hAll (position + 1) (by omega) other hOther).1
    | some after =>
      have hLess : position < after := by simpa using find?_some hAfter
      simp only [show ¬ after ≤ user by omega, if_false]
      exact hAll after hLess

theorem overtaken_run {taken : List Nat} (calls : List (Call Work))
    (h : Overtaken user taken c.nextWorkIter) (hWaits : c.workMap.find user ≠ none)
    (hNot : ∀ p ∈ collect step popped c calls, p.1 ≠ user) :
    (taken ++ (collect step popped c calls).map Prod.fst).Nodup := by
  induction calls generalizing c taken with
  | nil => simpa [collect] using h.nodup
  | cons call calls ih =>
    simp only [collect, mem_append] at hNot
    simp only [collect, map_append]
    have hRest := fun p hp => hNot p (Or.inr hp)
    cases call with
    | addWork work userID =>
      refine ih (c := c.addWork work userID) h ?_ hRest
      rw [addWork, find_put]
      split_ifs <;> simp [hWaits]
    | getAndPopNextWork =>
      rcases pop_cases c with ⟨hPopped, hStep⟩ | ⟨next, work, rest, hFind, hIter, hPopped, hStep⟩
      · rw [hStep] at hRest ⊢
        rw [hPopped]
        exact ih h hWaits hRest
      · have hNext : next ≠ user := hNot (next, work) (Or.inl (by rw [hPopped]; simp))
        rw [hStep] at hRest ⊢
        rw [hPopped, ← append_assoc]
        refine ih (h.pop hIter hNext hWaits) ?_ hRest
        rwa [popWork, find_popUserWork_of_ne hNext.symm]

/-- The works of a user come out in the order in which they were added, `numWorks` counts those
that are inside, and while a user waits, no other one is taken out twice. -/
theorem scheduling_fair (calls later : List (Call Work)) (user : Nat) :
    worksOf user (calls.flatMap added) = worksOf user (collect step popped empty calls) ++
          userWorkList (after step empty calls).workMap user ∧
      (after step empty calls).numWorks = (userWorks (after step empty calls).workMap).length ∧
      ((after step empty calls).workMap.find user ≠ none →
        (∀ p ∈ collect step popped (after step empty calls) later, p.1 ≠ user) →
        ((collect step popped (after step empty calls) later).map Prod.fst).Nodup) := by
  refine ⟨worksOf_run (c := empty) user calls, numWorks_eq _, fun hWaits hNot => ?_⟩
  have hNone : Overtaken user [] (after step empty calls).nextWorkIter := by
    refine ⟨nodup_nil, ?_⟩
    split
    · nofun
    · split_ifs <;> nofun
  exact overtaken_run later hNone hWaits hNot

/-- User 2 waits while users 3 and 1 are served, the second one from the begin of the map. -/
theorem scheduling_fair_wrapAround :
    let calls : List (Call Nat) := [.addWork 10 1, .addWork 11 2, .addWork 12 3, .addWork 13 1,
      .addWork 14 2, .getAndPopNextWork, .getAndPopNextWork]
    ((collect step popped (after step empty calls) [.getAndPopNextWork,
      .getAndPopNextWork]).map Prod.fst).Nodup :=
  (scheduling_fair _ _ 2).2.2 (by decide) (by decide)

end UserWorkContainer

end Fhgfs.Workers
