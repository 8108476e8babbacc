import Fhgfs.Lib.OrderedMap

/-!
# Work containers

`ListWorkContainer` keeps the works in one list, `UserWorkContainer` in a list for each user, from
which the works are taken in turn. The invariants of the latter are fields, so that the container
gives out a work whenever it has one. `numWorks` does not overflow.
-/

namespace Fhgfs.Workers

open OrderedMap List Option

/-- The works from head to tail. -/
structure ListWorkContainer (Work : Type) where
  workList : List Work
deriving DecidableEq

namespace ListWorkContainer

variable {Work : Type}

variable (c : ListWorkContainer Work)

/-- Without a work the behavior is undefined, here `none`. -/
def getAndPopNextWork : Option (Work × ListWorkContainer Work) :=
  match c.workList with
  | [] => none
  | work :: rest => some (work, ⟨rest⟩)

def addWork (work : Work) (_userID : Nat) : ListWorkContainer Work :=
  ⟨c.workList ++ [work]⟩

def getIsEmpty : Bool := c.workList.isEmpty

end ListWorkContainer

def userWorks {Work : Type} (workMap : OrderedMap Nat (List Work)) : List Work :=
  workMap.elems.flatMap Prod.snd

/-- `nextWorkIter` is the user it points to, or `none` for `end()`. -/
structure UserWorkContainer (Work : Type) where
  workMap : OrderedMap Nat (List Work)
  numWorks : Nat
  nextWorkIter : Option Nat
  workList_ne_nil : ∀ {user workList}, workMap.find user = some workList → workList ≠ []
  numWorks_eq : numWorks = (userWorks workMap).length
  iter_points : ∀ {user}, nextWorkIter = some user → ∃ workList, workMap.find user = some workList

section UserWorks

variable {Work : Type} {workMap : OrderedMap Nat (List Work)} {user : Nat} {workList : List Work}

theorem userWorks_perm_remove (h : workMap.find user = some workList) :
    (userWorks workMap).Perm (workList ++ userWorks (workMap.remove user)) :=
  (perm_cons_remove h).flatMap_right Prod.snd

theorem userWorks_put_perm (workMap : OrderedMap Nat (List Work)) (user : Nat)
    (workList : List Work) :
    (userWorks (workMap.put user workList)).Perm (workList ++ userWorks (workMap.remove user)) :=
  (put_perm workMap user workList).flatMap_right Prod.snd

/-- What the `[]` operator returns, which makes an empty list for a new user. -/
def userWorkList (workMap : OrderedMap Nat (List Work)) (user : Nat) : List Work :=
  (workMap.find user).getD []

section

variable (workMap : OrderedMap Nat (List Work)) (user : Nat)

theorem userWorks_perm :
    (userWorks workMap).Perm (userWorkList workMap user ++ userWorks (workMap.remove user)) := by
  cases h : workMap.find user with
  | none => rw [userWorkList, h, remove_of_find h, getD_none, nil_append]
  | some workList =>
    rw [userWorkList, h]
    exact userWorks_perm_remove h

theorem userWorks_push_perm (work : Work) :
    (userWorks (workMap.put user (userWorkList workMap user ++ [work]))).Perm
      (work :: userWorks workMap) := by
  have hPut := userWorks_put_perm workMap user (userWorkList workMap user ++ [work])
  have hWork : (userWorkList workMap user ++ [work]).Perm (work :: userWorkList workMap user) :=
    perm_append_singleton _ _
  exact (hPut.trans (hWork.append_right _)).trans ((userWorks_perm workMap user).symm.cons work)

end

/-- The map after the head of a user's list is taken out, and the user with an empty list. -/
def popUserWork (workMap : OrderedMap Nat (List Work)) (user : Nat) (rest : List Work) :
    OrderedMap Nat (List Work) :=
  if rest.isEmpty then workMap.remove user else workMap.put user rest

variable {work : Work} {rest : List Work}

theorem userWorks_pop_perm (h : workMap.find user = some (work :: rest)) :
    (userWorks workMap).Perm (work :: userWorks (popUserWork workMap user rest)) := by
  have hAll := userWorks_perm_remove h
  cases rest with
  | nil => exact hAll
  | cons next later =>
    exact hAll.trans ((userWorks_put_perm workMap user (next :: later)).symm.cons work)

theorem find_popUserWork_of_ne {other : Nat} (h : other ≠ user) :
    (popUserWork workMap user rest).find other = workMap.find other := by
  unfold popUserWork
  split
  · exact find_remove_of_ne workMap h
  · exact find_put_of_ne workMap rest h

theorem find_popUserWork_self_ne_nil
    (h : (popUserWork workMap user rest).find user = some workList) : workList ≠ [] := by
  unfold popUserWork at h
  split at h
  · rw [find_remove_self] at h
    cases h
  · rename_i hRest
    rw [find_put_self, some.injEq] at h
    subst h
    simpa using hRest

def userAfter (workMap : OrderedMap Nat (List Work)) (user : Nat) : Option Nat :=
  (workMap.elems.map Prod.fst).find? fun other => user < other

theorem userAfter_points {next : Nat} (h : userAfter workMap user = some next) :
    next ≠ user ∧ ∃ workList, workMap.find next = some workList := by
  have hLess : user < next := by simpa using find?_some h
  exact ⟨hLess.ne', mem_keys.mp (mem_of_find?_eq_some h)⟩

end UserWorks

namespace UserWorkContainer

variable {Work : Type}

def empty : UserWorkContainer Work where
  workMap := OrderedSet.empty
  numWorks := 0
  nextWorkIter := none
  workList_ne_nil := nofun
  numWorks_eq := rfl
  iter_points := nofun

variable (c : UserWorkContainer Work)

/-- `nextWorkIter`, after it has been moved from the end to the first user. -/
def currentWorkIter : Option Nat :=
  c.nextWorkIter <|> c.workMap.elems.head?.map Prod.fst

/-- The container after the head of the current user's list has been taken. -/
def popWork (user : Nat) (work : Work) (rest : List Work)
    (h : c.workMap.find user = some (work :: rest)) : UserWorkContainer Work where
  workMap := popUserWork c.workMap user rest
  numWorks := c.numWorks - 1
  nextWorkIter := userAfter c.workMap user
  workList_ne_nil := by
    intro other workList hFind
    by_cases hSame : other = user
    · subst hSame
      exact find_popUserWork_self_ne_nil hFind
    · rw [find_popUserWork_of_ne hSame] at hFind
      exact c.workList_ne_nil hFind
  numWorks_eq := by
    rw [c.numWorks_eq, (userWorks_pop_perm h).length_eq]
    rfl
  iter_points := by
    intro next hNext
    obtain ⟨hOther, hPoints⟩ := userAfter_points hNext
    rwa [find_popUserWork_of_ne hOther]

/-- Without a work the behavior is undefined, here `none`. -/
def getAndPopNextWork : Option (Work × UserWorkContainer Work) :=
  c.currentWorkIter.bind fun user =>
    match h : c.workMap.find user with
    | some (work :: rest) => some (work, c.popWork user work rest h)
    | _ => none

def addWork (work : Work) (userID : Nat) : UserWorkContainer Work where
  workMap := c.workMap.put userID (userWorkList c.workMap userID ++ [work])
  numWorks := c.numWorks + 1
  nextWorkIter := c.nextWorkIter
  workList_ne_nil := by
    intro user workList hFind
    rw [find_put] at hFind
    split at hFind
    · simp only [Option.some.injEq] at hFind
      simp [← hFind]
    · exact c.workList_ne_nil hFind
  numWorks_eq := by
    rw [c.numWorks_eq, (userWorks_push_perm c.workMap userID work).length_eq]
    rfl
  iter_points := by
    intro user hUser
    obtain ⟨workList, hFind⟩ := c.iter_points hUser
    rw [find_put]
    split
    · exact ⟨_, rfl⟩
    · exact ⟨workList, hFind⟩

def getIsEmpty : Bool := c.numWorks == 0

variable {c}

theorem find_of_currentWorkIter {user : Nat} (h : c.currentWorkIter = some user) :
    ∃ workList, c.workMap.find user = some workList := by
  unfold currentWorkIter at h
  cases hNext : c.nextWorkIter with
  | some next =>
    rw [hNext] at h
    cases h
    exact c.iter_points hNext
  | none =>
    rw [hNext] at h
    obtain ⟨first, hFirst, rfl⟩ := map_eq_some_iff.mp h
    exact ⟨first.2, find_eq_some.mpr (mem_of_head? hFirst)⟩

theorem currentWorkIter_points (h : c.numWorks ≠ 0) :
    ∃ user workList, c.currentWorkIter = some user ∧ c.workMap.find user = some workList := by
  cases hIter : c.currentWorkIter with
  | some user =>
    obtain ⟨workList, hFind⟩ := find_of_currentWorkIter hIter
    exact ⟨user, workList, rfl, hFind⟩
  | none =>
    have hElems : c.workMap.elems = [] := by
      unfold currentWorkIter at hIter
      cases hNext : c.nextWorkIter with
      | some next =>
        rw [hNext] at hIter
        cases hIter
      | none =>
        rw [hNext] at hIter
        simpa using hIter
    refine absurd ?_ h
    rw [c.numWorks_eq, userWorks, hElems]
    rfl

theorem getAndPopNextWork_eq {user : Nat} {work : Work} {rest : List Work}
    (hIter : c.currentWorkIter = some user) (hFind : c.workMap.find user = some (work :: rest)) :
    c.getAndPopNextWork = some (work, c.popWork user work rest hFind) := by
  rw [getAndPopNextWork, hIter, bind_some]
  split
  · rename_i work' rest' hFind'
    cases hFind.symm.trans hFind'
    rfl
  · rename_i hNone
    exact absurd hFind (hNone work rest)

end UserWorkContainer

/-! ## The interface -/

/-- Either kind of container. -/
inductive AbstractWorkContainer (Work : Type)
  | list (c : ListWorkContainer Work)
  | user (c : UserWorkContainer Work)

namespace AbstractWorkContainer

variable {Work : Type}

def getAndPopNextWork :
    AbstractWorkContainer Work → Option (Work × AbstractWorkContainer Work)
  | list c => c.getAndPopNextWork.map fun r => (r.1, list r.2)
  | user c => c.getAndPopNextWork.map fun r => (r.1, user r.2)

def addWork : AbstractWorkContainer Work → Work → Nat → AbstractWorkContainer Work
  | list c, work, userID => list (c.addWork work userID)
  | user c, work, userID => user (c.addWork work userID)

def getIsEmpty : AbstractWorkContainer Work → Bool
  | list c => c.getIsEmpty
  | user c => c.getIsEmpty

def works : AbstractWorkContainer Work → List Work
  | list c => c.workList
  | user c => userWorks c.workMap

variable (c : AbstractWorkContainer Work)

theorem works_addWork (work : Work) (userID : Nat) :
    (c.addWork work userID).works.Perm (work :: c.works) := by
  cases c with
  | list c => exact perm_append_singleton work c.workList
  | user c => exact userWorks_push_perm c.workMap userID work

theorem getIsEmpty_iff : c.getIsEmpty = true ↔ c.works = [] := by
  cases c with
  | list c => exact isEmpty_iff
  | user c =>
    rw [getIsEmpty, UserWorkContainer.getIsEmpty, beq_iff_eq, c.numWorks_eq]
    exact length_eq_zero_iff

theorem exists_getAndPopNextWork (h : c.works ≠ []) :
    ∃ work rest, c.getAndPopNextWork = some (work, rest) ∧ c.works.Perm (work :: rest.works) := by
  cases c with
  | list c =>
    obtain ⟨workList⟩ := c
    cases workList with
    | nil => exact absurd rfl h
    | cons work rest => exact ⟨work, list ⟨rest⟩, rfl, List.Perm.refl _⟩
  | user c =>
    have hSome : c.numWorks ≠ 0 := by
      rw [c.numWorks_eq]
      exact fun hZero => h (length_eq_zero_iff.mp hZero)
    obtain ⟨user, workList, hIter, hFind⟩ := UserWorkContainer.currentWorkIter_points hSome
    cases workList with
    | nil => exact absurd rfl (c.workList_ne_nil hFind)
    | cons work rest =>
      refine ⟨work, .user (c.popWork user work rest hFind), ?_, userWorks_pop_perm hFind⟩
      rw [getAndPopNextWork, UserWorkContainer.getAndPopNextWork_eq hIter hFind]
      rfl

end AbstractWorkContainer

end Fhgfs.Workers
