import Mathlib.Data.List.Flatten
import Fhgfs.Lib.OrderedMap

/-!
# Quota data

Quota data of users and groups, limits or usage, and `ExceededQuotaStore`, the sets of the IDs
that exceed their quota.
-/

namespace Fhgfs.Quota

inductive QuotaDataType where
  | NONE
  | USER
  | GROUP
deriving DecidableEq

inductive QuotaLimitType where
  | NONE
  | SIZE
  | INODE
deriving DecidableEq

structure QuotaData where
  id : Nat
  type : QuotaDataType
  size : UInt64
  inodes : UInt64
deriving DecidableEq

abbrev QuotaDataMap := OrderedMap Nat QuotaData

abbrev QuotaDataMapForTarget := OrderedMap Nat QuotaDataMap

abbrev UIntSet := OrderedSet (fun id : Nat => id)

@[ext] structure ExceededQuotaStore where
  exceededUserQuotaSize : UIntSet
  exceededUserQuotaInode : UIntSet
  exceededGroupQuotaSize : UIntSet
  exceededGroupQuotaInode : UIntSet
  exceededCounter : Nat

namespace ExceededQuotaStore

def init : ExceededQuotaStore :=
  ⟨OrderedSet.empty, OrderedSet.empty, OrderedSet.empty, OrderedSet.empty, 0⟩

/-- The set as it is after its `clear` and an `insert` of every ID of the list. -/
def updateExceededQuotaUnlocked (newIDList : List Nat) : UIntSet :=
  newIDList.foldl OrderedSet.insert OrderedSet.empty

variable (s : ExceededQuotaStore)

def count : ExceededQuotaStore :=
  { s with
    exceededCounter := s.exceededUserQuotaSize.elems.length +
      s.exceededUserQuotaInode.elems.length + s.exceededGroupQuotaSize.elems.length +
      s.exceededGroupQuotaInode.elems.length }

def updateExceededQuota (newIDList : List Nat) (idType : QuotaDataType) (exType : QuotaLimitType)
    (s : ExceededQuotaStore) : ExceededQuotaStore :=
  count <| match idType, exType with
    | .USER, .SIZE =>
      { s with exceededUserQuotaSize := updateExceededQuotaUnlocked newIDList }
    | .USER, .INODE =>
      { s with exceededUserQuotaInode := updateExceededQuotaUnlocked newIDList }
    | .GROUP, .SIZE =>
      { s with exceededGroupQuotaSize := updateExceededQuotaUnlocked newIDList }
    | .GROUP, .INODE =>
      { s with exceededGroupQuotaInode := updateExceededQuotaUnlocked newIDList }
    | _, _ => s

def getExceededQuota (idType : QuotaDataType) (exType : QuotaLimitType) : List Nat :=
  match idType, exType with
  | .USER, .SIZE => s.exceededUserQuotaSize.elems
  | .USER, .INODE => s.exceededUserQuotaInode.elems
  | .GROUP, .SIZE => s.exceededGroupQuotaSize.elems
  | .GROUP, .INODE => s.exceededGroupQuotaInode.elems
  | _, _ => []

def Kind (idType : QuotaDataType) (exType : QuotaLimitType) : Prop :=
  idType ≠ .NONE ∧ exType ≠ .NONE

theorem mem_updateExceededQuotaUnlocked (ids : List Nat) {id : Nat} :
    id ∈ updateExceededQuotaUnlocked ids ↔ id ∈ ids := by
  unfold updateExceededQuotaUnlocked
  rw [OrderedSet.mem_foldl_insert_id]
  simp

variable {idType idType' : QuotaDataType} {exType exType' : QuotaLimitType}

theorem mem_getExceededQuota_update (hKind : Kind idType exType) (ids : List Nat)
    (s : ExceededQuotaStore) {id : Nat} :
    id ∈ (s.updateExceededQuota ids idType exType).getExceededQuota idType exType ↔ id ∈ ids := by
  rw [← mem_updateExceededQuotaUnlocked ids]
  cases idType <;> cases exType <;>
    first | rfl | exact absurd rfl hKind.1 | exact absurd rfl hKind.2

theorem getExceededQuota_update_of_ne (h : (idType', exType') ≠ (idType, exType))
    (ids : List Nat) (s : ExceededQuotaStore) :
    (s.updateExceededQuota ids idType exType).getExceededQuota idType' exType' =
      s.getExceededQuota idType' exType' := by
  cases idType <;> cases exType <;> cases idType' <;> cases exType' <;>
    first | rfl | exact absurd rfl h

theorem nodup_getExceededQuota (idType : QuotaDataType)
    (exType : QuotaLimitType) : (s.getExceededQuota idType exType).Nodup := by
  cases idType <;> cases exType <;>
    first | exact List.nodup_nil | exact OrderedSet.nodup_elems _

end ExceededQuotaStore

end Fhgfs.Quota

/-!
## Push of the exceeded quota

`pushExceededQuotaIDs` sends the IDs of each kind to a server in messages of limited size, and
the workers of the manager process them in any order. The server takes the IDs of a message as
its whole list of the kind.
-/

namespace Fhgfs.Quota

/-- The payload of a message, less a reserve and the two types, in IDs of 4 bytes. -/
def SETEXCEEDEDQUOTAMSG_MAX_ID_COUNT : Nat := (65536 - 32 - 1024 - 2 * 4) / 4

/-! ## Sender -/

def getMaxMessageCountForPushExceededQuota (listToSend : List Nat) : Nat :=
  let count := listToSend.length / SETEXCEEDEDQUOTAMSG_MAX_ID_COUNT
  let count := if listToSend.length % SETEXCEEDEDQUOTAMSG_MAX_ID_COUNT ≠ 0 then count + 1 else count
  if count = 0 then 1 else count

structure SetExceededQuotaMsg where
  quotaDataType : QuotaDataType
  exceededType : QuotaLimitType
  exceededQuotaIDs : List Nat
deriving DecidableEq

def toInt (x : Nat) : Int := Int.bmod x (2 ^ 32)

/-- The loop of `prepareMessage`, with its counter. -/
def idsOfMessage (startThisMessage startNextMessage : Int) : List Nat → Int → List Nat
  | [], _ => []
  | id :: idList, counter =>
    if counter < startThisMessage then
      idsOfMessage startThisMessage startNextMessage idList (counter + 1)
    else if startNextMessage ≤ counter then []
    else id :: idsOfMessage startThisMessage startNextMessage idList (counter + 1)

def prepareMessage (idType : QuotaDataType) (limitType : QuotaLimitType) (idList : List Nat)
    (messageNumber : Nat) : SetExceededQuotaMsg where
  quotaDataType := idType
  exceededType := limitType
  exceededQuotaIDs := idsOfMessage (toInt (messageNumber * SETEXCEEDEDQUOTAMSG_MAX_ID_COUNT))
    (toInt ((messageNumber + 1) * SETEXCEEDEDQUOTAMSG_MAX_ID_COUNT)) idList 0

def pushExceededQuotaIDs (exQuotaStore : ExceededQuotaStore) (idType : QuotaDataType)
    (limitType : QuotaLimitType) : List SetExceededQuotaMsg :=
  let idList := exQuotaStore.getExceededQuota idType limitType
  (List.range (getMaxMessageCountForPushExceededQuota idList)).map
    (prepareMessage idType limitType idList)

/-! ## Receiver -/

/-- `processIncoming` of the server. Without enforcement it answers `FhgfsOpsErr_INTERNAL` and
leaves its store alone. -/
def processIncoming (quotaEnableEnforcement : Bool) (msg : SetExceededQuotaMsg)
    (s : ExceededQuotaStore) : ExceededQuotaStore :=
  if quotaEnableEnforcement then
    s.updateExceededQuota msg.exceededQuotaIDs msg.quotaDataType msg.exceededType
  else s

def SetExceededQuotaMsg.IsOf (msg : SetExceededQuotaMsg) (idType : QuotaDataType)
    (limitType : QuotaLimitType) : Prop :=
  msg.quotaDataType = idType ∧ msg.exceededType = limitType

instance (msg : SetExceededQuotaMsg) (idType : QuotaDataType) (limitType : QuotaLimitType) :
    Decidable (msg.IsOf idType limitType) :=
  inferInstanceAs (Decidable (_ ∧ _))

/-! ## The pages of the sender -/

theorem idsOfMessage_eq (start next : Int) (idList : List Nat) (counter : Int) :
    idsOfMessage start next idList counter =
      (idList.drop (start - counter).toNat).take (next - max start counter).toNat := by
  induction idList generalizing counter with
  | nil => simp [idsOfMessage]
  | cons id idList ih =>
    unfold idsOfMessage
    split_ifs with hBefore hBehind
    · have hDrop : (start - counter).toNat = (start - (counter + 1)).toNat + 1 := by omega
      have hMax : max start (counter + 1) = max start counter := by omega
      rw [ih, hDrop, List.drop_succ_cons, hMax]
    · have hTake : (next - max start counter).toNat = 0 := by omega
      rw [hTake, List.take_zero]
    · have hDrop : (start - counter).toNat = 0 := by omega
      have hDrop' : (start - (counter + 1)).toNat = 0 := by omega
      have hTake : (next - max start counter).toNat =
          (next - max start (counter + 1)).toNat + 1 := by omega
      rw [ih, hDrop, hDrop', hTake, List.drop_zero, List.drop_zero, List.take_succ_cons]

theorem toInt_page (x : Nat) {count : Nat} (hCount : count < 2 ^ 31) :
    (toInt (x + count) - max (toInt x) 0).toNat ≤ count := by
  have hQuotient : (x + count) / 2 ^ 32 = x / 2 ^ 32 ∨ (x + count) / 2 ^ 32 = x / 2 ^ 32 + 1 := by
    omega
  unfold toInt Int.bmod
  dsimp only
  rcases hQuotient with hSame | hNext <;> split_ifs <;> omega

theorem toInt_of_lt {x : Nat} (hx : x < 2 ^ 31) : toInt x = x := by
  unfold toInt Int.bmod
  dsimp only
  split_ifs <;> omega

theorem length_prepareMessage_le (idType : QuotaDataType) (limitType : QuotaLimitType)
    (idList : List Nat) (messageNumber : Nat) :
    (prepareMessage idType limitType idList messageNumber).exceededQuotaIDs.length ≤
      SETEXCEEDEDQUOTAMSG_MAX_ID_COUNT := by
  unfold prepareMessage
  dsimp only
  rw [idsOfMessage_eq]
  refine (List.length_take_le _ _).trans ?_
  rw [Nat.succ_mul]
  exact toInt_page _ (by decide)

theorem prepareMessage_ids {messageNumber : Nat}
    (hSmall : (messageNumber + 1) * SETEXCEEDEDQUOTAMSG_MAX_ID_COUNT < 2 ^ 31)
    (idType : QuotaDataType) (limitType : QuotaLimitType) (idList : List Nat) :
    (prepareMessage idType limitType idList messageNumber).exceededQuotaIDs =
      (idList.drop (messageNumber * SETEXCEEDEDQUOTAMSG_MAX_ID_COUNT)).take
        SETEXCEEDEDQUOTAMSG_MAX_ID_COUNT := by
  rw [Nat.succ_mul] at hSmall
  unfold prepareMessage
  rw [Nat.succ_mul, idsOfMessage_eq]
  generalize messageNumber * SETEXCEEDEDQUOTAMSG_MAX_ID_COUNT = first at hSmall ⊢
  rw [toInt_of_lt hSmall, toInt_of_lt (by omega)]
  have hDrop : ((first : Int) - 0).toNat = first := by omega
  have hTake : (((first + SETEXCEEDEDQUOTAMSG_MAX_ID_COUNT : Nat) : Int) -
      max (first : Int) 0).toNat = SETEXCEEDEDQUOTAMSG_MAX_ID_COUNT := by
    omega
  rw [hDrop, hTake]

theorem getMaxMessageCount_pos (idList : List Nat) :
    0 < getMaxMessageCountForPushExceededQuota idList := by
  have hCount : SETEXCEEDEDQUOTAMSG_MAX_ID_COUNT = 16118 := rfl
  unfold getMaxMessageCountForPushExceededQuota
  rw [hCount]
  dsimp only
  split_ifs <;> first | contradiction | omega

theorem getMaxMessageCount_of_le {idList : List Nat}
    (h : idList.length ≤ SETEXCEEDEDQUOTAMSG_MAX_ID_COUNT) :
    getMaxMessageCountForPushExceededQuota idList = 1 := by
  have hCount : SETEXCEEDEDQUOTAMSG_MAX_ID_COUNT = 16118 := rfl
  unfold getMaxMessageCountForPushExceededQuota
  rw [hCount] at h ⊢
  dsimp only
  split_ifs <;> first | contradiction | omega

/-! ## What the server ends up with -/

section Receive

variable {idType : QuotaDataType} {limitType : QuotaLimitType}

section

variable (hKind : ExceededQuotaStore.Kind idType limitType)
include hKind

theorem getExceededQuota_processIncoming (msg : SetExceededQuotaMsg) (s : ExceededQuotaStore) :
    (∀ id, id ∈ (processIncoming true msg s).getExceededQuota idType limitType ↔
      if msg.IsOf idType limitType then id ∈ msg.exceededQuotaIDs
      else id ∈ s.getExceededQuota idType limitType) := by
  intro id
  unfold processIncoming
  rw [if_pos rfl]
  split_ifs with hIs
  · rw [hIs.1, hIs.2]
    exact ExceededQuotaStore.mem_getExceededQuota_update hKind _ s
  · rw [ExceededQuotaStore.getExceededQuota_update_of_ne]
    intro hSame
    exact hIs ⟨(congrArg Prod.fst hSame).symm, (congrArg Prod.snd hSame).symm⟩

theorem getExceededQuota_foldl
    (msgs : List SetExceededQuotaMsg) (s : ExceededQuotaStore) (id : Nat) :
    id ∈ (msgs.foldl (fun s msg => processIncoming true msg s) s).getExceededQuota idType
        limitType ↔
      match (msgs.filter fun msg => decide (msg.IsOf idType limitType)).getLast? with
      | some msg => id ∈ msg.exceededQuotaIDs
      | none => id ∈ s.getExceededQuota idType limitType := by
  induction msgs using List.reverseRecOn with
  | nil => exact Iff.rfl
  | append_singleton msgs msg ih =>
    rw [List.foldl_append, List.foldl_cons, List.foldl_nil,
      getExceededQuota_processIncoming hKind, List.filter_append]
    by_cases hIs : msg.IsOf idType limitType
    · simp [hIs]
    · simpa [hIs] using ih

end

theorem exists_last_page {exQuotaStore : ExceededQuotaStore} {msgs : List SetExceededQuotaMsg}
    (hReceived : (msgs.filter fun msg => decide (msg.IsOf idType limitType)).Perm
      (pushExceededQuotaIDs exQuotaStore idType limitType)) :
    ∃ messageNumber < getMaxMessageCountForPushExceededQuota
        (exQuotaStore.getExceededQuota idType limitType),
      (msgs.filter fun msg => decide (msg.IsOf idType limitType)).getLast? =
        some (prepareMessage idType limitType (exQuotaStore.getExceededQuota idType limitType)
          messageNumber) := by
  have hSome : (msgs.filter fun msg => decide (msg.IsOf idType limitType)) ≠ [] := by
    intro hNil
    have hLength := hReceived.length_eq
    rw [hNil] at hLength
    unfold pushExceededQuotaIDs at hLength
    rw [List.length_nil, List.length_map, List.length_range] at hLength
    exact (getMaxMessageCount_pos _).ne hLength
  obtain ⟨messageNumber, hNumber, hPage⟩ :=
    List.mem_map.mp (hReceived.subset (List.getLast_mem hSome))
  refine ⟨messageNumber, List.mem_range.mp hNumber, ?_⟩
  rw [hPage]
  exact List.getLast?_eq_some_getLast hSome

theorem length_le_of_received (hKind : ExceededQuotaStore.Kind idType limitType)
    {exQuotaStore s : ExceededQuotaStore} {msgs : List SetExceededQuotaMsg}
    (hReceived : (msgs.filter fun msg => decide (msg.IsOf idType limitType)).Perm
      (pushExceededQuotaIDs exQuotaStore idType limitType))
    (hAll : ∀ id ∈ exQuotaStore.getExceededQuota idType limitType,
      id ∈ (msgs.foldl (fun s msg => processIncoming true msg s) s).getExceededQuota idType
        limitType) :
    (exQuotaStore.getExceededQuota idType limitType).length ≤ SETEXCEEDEDQUOTAMSG_MAX_ID_COUNT := by
  obtain ⟨messageNumber, -, hLast⟩ := exists_last_page hReceived
  simp only [getExceededQuota_foldl hKind, hLast] at hAll
  have hNodup := exQuotaStore.nodup_getExceededQuota idType limitType
  exact (hNodup.subperm hAll).length_le.trans (length_prepareMessage_le _ _ _ _)

/-- A server that processes the messages of a push in any order, among messages of other kinds,
has the IDs of the list if and only if they fit in one message. -/
theorem exceededQuota_received_iff (hKind : ExceededQuotaStore.Kind idType limitType)
    (exQuotaStore s : ExceededQuotaStore) {msgs : List SetExceededQuotaMsg}
    (hReceived : (msgs.filter fun msg => decide (msg.IsOf idType limitType)).Perm
      (pushExceededQuotaIDs exQuotaStore idType limitType)) :
    (∀ id, id ∈ (msgs.foldl (fun s msg => processIncoming true msg s) s).getExceededQuota idType
        limitType ↔ id ∈ exQuotaStore.getExceededQuota idType limitType) ↔
      (exQuotaStore.getExceededQuota idType limitType).length ≤
        SETEXCEEDEDQUOTAMSG_MAX_ID_COUNT := by
  constructor
  · intro hSame
    exact length_le_of_received hKind hReceived fun id hid => (hSame id).mpr hid
  · intro hFits id
    obtain ⟨messageNumber, hNumber, hLast⟩ := exists_last_page hReceived
    rw [getMaxMessageCount_of_le hFits] at hNumber
    obtain rfl : messageNumber = 0 := by omega
    simp only [getExceededQuota_foldl hKind, hLast]
    rw [prepareMessage_ids (by decide), zero_mul, List.drop_zero, List.take_of_length_le hFits]

theorem exceededQuota_received_iff_two :
    let exQuotaStore := ExceededQuotaStore.init.updateExceededQuota [7, 3] .USER .SIZE
    (∀ id, id ∈ ((pushExceededQuotaIDs exQuotaStore .USER .SIZE ++
        [prepareMessage .GROUP .SIZE [5] 0]).foldl (fun s msg => processIncoming true msg s)
        ExceededQuotaStore.init).getExceededQuota .USER .SIZE ↔
      id ∈ exQuotaStore.getExceededQuota .USER .SIZE) ↔
      (exQuotaStore.getExceededQuota .USER .SIZE).length ≤ SETEXCEEDEDQUOTAMSG_MAX_ID_COUNT := by
  have hKind : ExceededQuotaStore.Kind .USER .SIZE := ⟨by decide, by decide⟩
  exact exceededQuota_received_iff hKind _ _ (by decide)

/-- 16119 users take two messages, and the second one removes the users of the first. -/
theorem not_exceededQuota_received :
    ¬ ∀ (exQuotaStore s : ExceededQuotaStore) (msgs : List SetExceededQuotaMsg),
      (msgs.filter fun msg => decide (msg.IsOf .USER .SIZE)).Perm
        (pushExceededQuotaIDs exQuotaStore .USER .SIZE) →
      ∀ id, id ∈ (msgs.foldl (fun s msg => processIncoming true msg s) s).getExceededQuota .USER
          .SIZE ↔ id ∈ exQuotaStore.getExceededQuota .USER .SIZE := by
  intro hAll
  have hKind : ExceededQuotaStore.Kind .USER .SIZE := ⟨by decide, by decide⟩
  obtain ⟨exQuotaStore, hStore⟩ : ∃ exQuotaStore, exQuotaStore =
      ExceededQuotaStore.init.updateExceededQuota (List.range 16119) .USER .SIZE := ⟨_, rfl⟩
  have hIDs : ∀ id ∈ List.range 16119, id ∈ exQuotaStore.getExceededQuota .USER .SIZE := by
    intro id hid
    rw [hStore]
    exact (ExceededQuotaStore.mem_getExceededQuota_update hKind _ _).mpr hid
  have hReceived : ((pushExceededQuotaIDs exQuotaStore .USER .SIZE).filter
      fun msg => decide (msg.IsOf .USER .SIZE)).Perm
        (pushExceededQuotaIDs exQuotaStore .USER .SIZE) := by
    rw [List.filter_eq_self.mpr]
    intro msg hMsg
    obtain ⟨messageNumber, -, rfl⟩ := List.mem_map.mp hMsg
    have hIs : (prepareMessage .USER .SIZE (exQuotaStore.getExceededQuota .USER .SIZE)
        messageNumber).IsOf .USER .SIZE := ⟨rfl, rfl⟩
    exact decide_eq_true hIs
  have hFits := length_le_of_received hKind hReceived fun id hid =>
    (hAll exQuotaStore ExceededQuotaStore.init _ hReceived id).mpr hid
  have hLength := ((List.nodup_range).subperm hIDs).length_le
  rw [List.length_range] at hLength
  have hCount : SETEXCEEDEDQUOTAMSG_MAX_ID_COUNT = 16118 := rfl
  omega

end Receive

end Fhgfs.Quota
