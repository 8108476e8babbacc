import Fhgfs.Mirror.TruncLocalFile

/-!
# What an answered write guarantees

While the blocks come in, the connection to the secondary has got exactly the data that was
received, or the mirroring is off and the marker is set. A failing connection ends the loop with
an error. In the padding after a short write it does not: the answer is the number of bytes, and
`finishMirroring` takes the lost connection for mirroring that is off.
-/

namespace Fhgfs.Mirror.WriteLocalFile

open List Option

variable {msg : WriteLocalFile} {s s' : WriteState}

/-! ## The connection -/

/-- Only the connection and its counters may differ. -/
structure SameChunk (s s' : WriteState) : Prop where
  chunk : s'.chunk = s.chunk
  marker : s'.buddyNeedsResync = s.buddyNeedsResync

theorem SameChunk.refl (s : WriteState) : SameChunk s s := ⟨rfl, rfl⟩

theorem SameChunk.trans {s s' s'' : WriteState} (h : SameChunk s s') (h' : SameChunk s' s'') :
    SameChunk s s'' :=
  ⟨h'.chunk.trans h.chunk, h'.marker.trans h.marker⟩

theorem connect_spec {offset toBeMirrored : Nat} {connected : Bool}
    (h : msg.connect s offset toBeMirrored = (connected, s')) :
    SameChunk s s' ∧
      s'.mirrorToSock = if connected then some ⟨offset, toBeMirrored, []⟩ else none := by
  unfold connect at h
  split_ifs at h with hAcquire hSend
  all_goals
    cases h
    exact ⟨⟨rfl, rfl⟩, rfl⟩

theorem prepareLoop_spec {retries : Nat} {res : FhgfsOpsErr}
    (h : msg.prepareLoop retries s = (res, s')) :
    SameChunk s s' ∧ (res = .SUCCESS → s'.mirrorToSock = some ⟨msg.offset, msg.count, []⟩) := by
  induction retries generalizing s with
  | zero =>
    rcases hConnect : msg.connect s msg.offset msg.count with ⟨connected, t⟩
    obtain ⟨hSame, hSock⟩ := connect_spec hConnect
    rw [prepareLoop, hConnect] at h
    cases connected with
    | true =>
      cases h
      exact ⟨hSame, fun _ => hSock⟩
    | false =>
      cases h
      exact ⟨hSame, nofun⟩
  | succ retries ih =>
    rcases hConnect : msg.connect s msg.offset msg.count with ⟨connected, t⟩
    obtain ⟨hSame, hSock⟩ := connect_spec hConnect
    rw [prepareLoop, hConnect] at h
    cases connected with
    | true =>
      cases h
      exact ⟨hSame, fun _ => hSock⟩
    | false =>
      obtain ⟨hSame', hSock'⟩ := ih h
      exact ⟨⟨hSame'.chunk.trans hSame.chunk, hSame'.marker.trans hSame.marker⟩, hSock'⟩

variable {buf : List UInt8} {sent : Bool}

theorem sendData_spec (h : msg.sendData s buf = (sent, s')) :
    SameChunk s s' ∧
      s'.mirrorToSock = if sent then
          s.mirrorToSock.map fun sock => { sock with sent := sock.sent ++ buf }
        else none := by
  unfold sendData at h
  split_ifs at h with hSend
  all_goals
    cases h
    exact ⟨⟨rfl, rfl⟩, rfl⟩

theorem retryLoop_spec {offset toBeMirrored retries : Nat} (hSock : s.mirrorToSock = none)
    (h : msg.retryLoop buf offset toBeMirrored retries s = (sent, s')) :
    SameChunk s s' ∧ s'.mirrorToSock = if sent then some ⟨offset, toBeMirrored, buf⟩ else none := by
  induction retries generalizing s with
  | zero =>
    obtain ⟨rfl, rfl⟩ := Prod.mk.inj h
    exact ⟨SameChunk.refl s, hSock⟩
  | succ retries ih =>
    rcases hConnect : msg.connect { s with mirrorRetriesLeft := retries } offset toBeMirrored
      with ⟨connected, t⟩
    obtain ⟨hSame, hSockT⟩ := connect_spec hConnect
    have hSame : SameChunk s t := ⟨hSame.chunk, hSame.marker⟩
    simp only [retryLoop, hConnect] at h
    cases connected with
    | false =>
      obtain ⟨hSame', hSock'⟩ := ih hSockT h
      exact ⟨hSame.trans hSame', hSock'⟩
    | true =>
      rcases hData : msg.sendData t buf with ⟨sent', u⟩
      obtain ⟨hSameU, hSockU⟩ := sendData_spec hData
      rw [hSockT] at hSockU
      simp only [if_true, hData] at h
      cases sent' with
      | false =>
        obtain ⟨hSame', hSock'⟩ := ih hSockU h
        exact ⟨(hSame.trans hSameU).trans hSame', hSock'⟩
      | true =>
        obtain ⟨rfl, rfl⟩ := Prod.mk.inj h
        exact ⟨hSame.trans hSameU, hSockU⟩

/-- Data that was sent stands behind the data before it, or on a new connection that starts with
it. -/
theorem sendToMirror_spec {offset toBeMirrored : Nat}
    (h : msg.sendToMirror s buf offset toBeMirrored = (sent, s')) :
    SameChunk s s' ∧
      match s.mirrorToSock with
      | none => sent = true ∧ s'.mirrorToSock = none
      | some sock =>
        (sent = false ∧ s'.mirrorToSock = none) ∨
        (sent = true ∧ s'.mirrorToSock = some { sock with sent := sock.sent ++ buf }) ∨
        (sent = true ∧ toBeMirrored = msg.count ∧
          s'.mirrorToSock = some ⟨offset, toBeMirrored, buf⟩) := by
  unfold sendToMirror at h
  cases hSock : s.mirrorToSock with
  | none =>
    rw [hSock] at h
    cases h
    exact ⟨SameChunk.refl s, rfl, hSock⟩
  | some sock =>
    rcases hData : msg.sendData s buf with ⟨sent', t⟩
    obtain ⟨hSame, hSockT⟩ := sendData_spec hData
    simp only [hSock, hData] at h hSockT
    cases sent' with
    | true =>
      cases h
      exact ⟨hSame, .inr (.inl ⟨rfl, hSockT⟩)⟩
    | false =>
      by_cases hStart : toBeMirrored = msg.count
      · simp only [Bool.false_eq_true, if_false, ne_eq, hStart, not_true_eq_false] at h
        obtain ⟨hSame', hSock'⟩ := retryLoop_spec hSockT h
        refine ⟨hSame.trans hSame', ?_⟩
        cases sent with
        | true => exact .inr (.inr ⟨rfl, hStart, hStart ▸ hSock'⟩)
        | false => exact .inl ⟨rfl, hSock'⟩
      · simp only [Bool.false_eq_true, if_false, ne_eq, hStart, not_false_eq_true, if_true] at h
        cases h
        exact ⟨hSame, .inl ⟨rfl, hSockT⟩⟩

/-! ## The local writes -/

theorem doWrite_spec {steps : Nat} {offset sumWriteRes : Nat}
    {res : Except SysErr Nat} (hSteps : buf.length ≤ steps)
    (h : msg.doWrite steps s buf offset sumWriteRes = (res, s')) :
    s'.mirrorToSock = s.mirrorToSock ∧ s'.buddyNeedsResync = s.buddyNeedsResync ∧
      ∀ n, res = .ok n → ∃ m ≤ buf.length, n = sumWriteRes + m ∧ (buf ≠ [] → 0 < n) ∧
        s.chunk.WrittenAt s'.chunk offset (buf.take m) := by
  induction steps generalizing s buf offset sumWriteRes with
  | zero =>
    cases h
    have hEmpty : buf = [] := eq_nil_of_length_eq_zero (by omega)
    refine ⟨rfl, rfl, fun n hn => ⟨0, Nat.zero_le _, (Except.ok.inj hn).symm, ?_, ?_⟩⟩
    · exact fun hBuf => absurd hEmpty hBuf
    · exact take_zero ▸ SparseFile.WrittenAt.nil _ _
  | succ steps ih =>
    rw [doWrite] at h
    cases hPwrite : msg.pwrite s.pwrites with
    | error err =>
      rw [hPwrite] at h
      cases h
      refine ⟨rfl, rfl, fun n hn => ?_⟩
      split_ifs at hn with hPartial
      obtain rfl := Except.ok.inj hn
      refine ⟨0, Nat.zero_le _, rfl, fun _ => hPartial, ?_⟩
      exact take_zero ▸ SparseFile.WrittenAt.nil _ _
    | ok more =>
      rw [hPwrite] at h
      dsimp only at h
      have hHere := SparseFile.WrittenAt.pwrite s.chunk
        (buf.take (min (more + 1) buf.length)) offset
      have hSome (hBuf : buf ≠ []) : 0 < min (more + 1) buf.length := by
        have hLength := length_pos_of_ne_nil hBuf
        omega
      split_ifs at h with hAll
      · cases h
        refine ⟨rfl, rfl, fun n hn => ?_⟩
        obtain rfl := Except.ok.inj hn
        refine ⟨_, min_le_right _ _, rfl, fun hBuf => ?_, hHere⟩
        have hPos := hSome hBuf
        omega
      have hLeft : (buf.drop (min (more + 1) buf.length)).length ≤ steps := by
        rw [length_drop]
        omega
      obtain ⟨hSock, hMarker, hRest⟩ := ih hLeft h
      refine ⟨hSock, hMarker, fun n hn => ?_⟩
      obtain ⟨m, hm, hSum, -, hWritten⟩ := hRest n hn
      rw [length_drop] at hm
      refine ⟨min (more + 1) buf.length + m, by omega, by omega, fun hBuf => ?_, ?_⟩
      · have hPos := hSome hBuf
        omega
      have hEnd : offset + min (more + 1) buf.length =
          offset + (buf.take (min (more + 1) buf.length)).length := by
        rw [length_take, Nat.min_eq_left (Nat.min_le_right _ _)]
      rw [hEnd] at hWritten
      have hBoth := hHere.append hWritten
      rwa [← take_add] at hBoth

/-! ## The padding -/

/-- The connection has got all the data but for the rest, or the mirroring is off and the marker
is set. -/
def Mirroring (msg : WriteLocalFile) (toBeReceived : Nat) (s : WriteState) : Prop :=
  (s.mirrorToSock = some ⟨msg.offset, msg.count, msg.data.take (msg.count - toBeReceived)⟩ ∧
    s.buddyNeedsResync = false) ∨
  (s.mirrorToSock = none ∧ s.buddyNeedsResync = true)

theorem take_append_received {toBeReceived length : Nat} (hLeft : toBeReceived ≤ msg.count)
    (hLength : length ≤ toBeReceived) :
    msg.data.take (msg.count - toBeReceived) ++ msg.received toBeReceived length =
      msg.data.take (msg.count - (toBeReceived - length)) := by
  unfold received
  rw [← take_add]
  congr 1
  omega

theorem length_take_count (toBeReceived : Nat) :
    (msg.data.take (msg.count - toBeReceived)).length = msg.count - toBeReceived := by
  rw [length_take]
  exact min_eq_left (Nat.sub_le _ _)

theorem length_received {toBeReceived length : Nat} (hLeft : toBeReceived ≤ msg.count)
    (hLength : length ≤ toBeReceived) : (msg.received toBeReceived length).length = length := by
  unfold received
  rw [length_take, length_drop]
  unfold count at hLeft ⊢
  omega

theorem take_received {toBeReceived length m : Nat} (hm : m ≤ length) :
    (msg.received toBeReceived length).take m = msg.received toBeReceived m := by
  unfold received
  rw [take_take, min_eq_left hm]

theorem incrementalRecvPadding_none {padLen steps toBeReceived : Nat} {padded : Bool}
    (hSock : s.mirrorToSock = none)
    (h : msg.incrementalRecvPadding padLen steps toBeReceived s = (padded, s')) :
    SameChunk s s' ∧ s'.mirrorToSock = none := by
  induction steps generalizing s toBeReceived with
  | zero =>
    obtain ⟨rfl, rfl⟩ := Prod.mk.inj h
    exact ⟨SameChunk.refl s, hSock⟩
  | succ steps ih =>
    unfold incrementalRecvPadding at h
    split_ifs at h with hDone
    · obtain ⟨rfl, rfl⟩ := Prod.mk.inj h
      exact ⟨SameChunk.refl s, hSock⟩
    cases hRecv : msg.recvT s.recvs with
    | none =>
      rw [hRecv] at h
      obtain ⟨rfl, rfl⟩ := Prod.mk.inj h
      exact ⟨SameChunk.refl s, hSock⟩
    | some more =>
      simp only [hRecv, sendToMirror, hSock] at h
      obtain ⟨hSame, hSock'⟩ := ih rfl h
      exact ⟨⟨hSame.chunk, hSame.marker⟩, hSock'⟩

/-- After the start of the data there is no second connection: the padding completes the data on
the first one, or loses it. -/
theorem incrementalRecvPadding_some {padLen steps toBeReceived : Nat}
    (hLeft : toBeReceived < msg.count)
    (hSock : s.mirrorToSock =
      some ⟨msg.offset, msg.count, msg.data.take (msg.count - toBeReceived)⟩)
    (h : msg.incrementalRecvPadding padLen steps toBeReceived s = (true, s')) :
    SameChunk s s' ∧ (s'.mirrorToSock = none ∨
      s'.mirrorToSock = some ⟨msg.offset, msg.count, msg.data⟩) := by
  have hAll (hDone : toBeReceived = 0) : s.mirrorToSock =
      some ⟨msg.offset, msg.count, msg.data⟩ := by
    rw [hSock, hDone, Nat.sub_zero, count, take_length]
  induction steps generalizing s toBeReceived with
  | zero =>
    obtain ⟨hDone, rfl⟩ := Prod.mk.inj h
    exact ⟨SameChunk.refl s, .inr (hAll (of_decide_eq_true hDone))⟩
  | succ steps ih =>
    unfold incrementalRecvPadding at h
    split_ifs at h with hDone
    · obtain ⟨-, rfl⟩ := Prod.mk.inj h
      exact ⟨SameChunk.refl s, .inr (hAll hDone)⟩
    cases hRecv : msg.recvT s.recvs with
    | none =>
      rw [hRecv] at h
      exact absurd (Prod.mk.inj h).1 (by simp)
    | some more =>
      rw [hRecv] at h
      dsimp only at h
      generalize hRecvRes : min (more + 1) (min toBeReceived msg.bufLen) = recvRes at h
      have hRecvRes : recvRes ≤ toBeReceived := by omega
      rcases hSend : msg.sendToMirror { s with recvs := s.recvs + 1 }
        (msg.received toBeReceived recvRes) (msg.offset + padLen - toBeReceived) toBeReceived
        with ⟨sent, t⟩
      rw [hSend] at h
      obtain ⟨hSame, hSent⟩ := sendToMirror_spec hSend
      rw [hSock] at hSent
      have hSame : SameChunk s t := ⟨hSame.chunk, hSame.marker⟩
      rcases hSent with ⟨-, hLost⟩ | ⟨-, hMore⟩ | ⟨-, hStart, -⟩
      · obtain ⟨hSame', hLost'⟩ := incrementalRecvPadding_none hLost h
        exact ⟨hSame.trans hSame', .inl hLost'⟩
      · dsimp only at hMore
        rw [take_append_received hLeft.le hRecvRes] at hMore
        obtain ⟨hSame', hEnd⟩ := ih (by omega) hMore h (fun hDone => by
          rw [hMore, hDone, Nat.sub_zero, count, take_length])
        exact ⟨hSame.trans hSame', hEnd⟩
      · omega

/-! ## The blocks -/

theorem code_pos {err : FhgfsOpsErr} (h : err ≠ .SUCCESS) : 0 < err.code := by
  cases err <;> first | exact absurd rfl h | decide

theorem sendToMirror_mirroring {toBeReceived length writeOffset : Nat}
    (hLeft : toBeReceived ≤ msg.count) (hLength : length ≤ toBeReceived)
    (hOffset : writeOffset = msg.offset + (msg.count - toBeReceived))
    (hMirroring : msg.Mirroring toBeReceived s)
    (h : msg.sendToMirror s (msg.received toBeReceived length) writeOffset toBeReceived =
      (sent, s')) :
    s'.chunk = s.chunk ∧
      if sent then msg.Mirroring (toBeReceived - length) s' else s'.mirrorToSock = none := by
  obtain ⟨hSame, hSent⟩ := sendToMirror_spec h
  refine ⟨hSame.chunk, ?_⟩
  rcases hMirroring with ⟨hSock, hMarker⟩ | ⟨hSock, hMarker⟩
  · rw [hSock] at hSent
    rcases hSent with ⟨rfl, hLost⟩ | ⟨rfl, hMore⟩ | ⟨rfl, rfl, hStart⟩
    · exact hLost
    · refine .inl ⟨?_, hSame.marker.trans hMarker⟩
      rw [hMore, take_append_received hLeft hLength]
    · refine .inl ⟨?_, hSame.marker.trans hMarker⟩
      rw [hStart, hOffset, ← take_append_received (le_rfl) hLength, Nat.sub_self,
        take_zero, add_zero, nil_append]
  · rw [hSock] at hSent
    obtain ⟨rfl, hOff⟩ := hSent
    exact .inr ⟨hOff, hSame.marker.trans hMarker⟩

theorem block_spec {toBeReceived recvRes writeRes : Nat} {s₀ t u : WriteState}
    (hLeft : toBeReceived ≤ msg.count) (hRecvRes : recvRes ≤ toBeReceived)
    (hWritten : s₀.chunk.WrittenAt s.chunk msg.offset (msg.data.take (msg.count - toBeReceived)))
    (hChunk : t.chunk = s.chunk) (hSent : msg.Mirroring (toBeReceived - recvRes) t)
    (hWrite : msg.doWrite (msg.received toBeReceived recvRes).length t
      (msg.received toBeReceived recvRes) (msg.offset + (msg.count - toBeReceived)) 0 =
      (.ok writeRes, u)) :
    writeRes ≤ recvRes ∧ (writeRes ≠ recvRes → 0 < writeRes) ∧
      s₀.chunk.WrittenAt u.chunk msg.offset
        (msg.data.take (msg.count - (toBeReceived - writeRes))) ∧
      msg.Mirroring (toBeReceived - recvRes) u := by
  obtain ⟨hSock, hMarker, hBytes⟩ := doWrite_spec (le_rfl) hWrite
  obtain ⟨m, hm, hSum, hSome, hBytes⟩ := hBytes writeRes rfl
  obtain rfl : writeRes = m := hSum.trans (zero_add m)
  rw [length_received hLeft hRecvRes] at hm
  refine ⟨hm, fun hShort => hSome ?_, ?_, ?_⟩
  · refine ne_nil_of_length_pos ?_
    rw [length_received hLeft hRecvRes]
    omega
  · rw [hChunk, take_received hm] at hBytes
    rw [← length_take_count] at hBytes
    have hBoth := hWritten.append hBytes
    rwa [take_append_received hLeft (hm.trans hRecvRes)] at hBoth
  · unfold Mirroring
    rwa [hSock, hMarker]

/-- What the loop over the blocks has done when it ends. -/
def BlocksDone (msg : WriteLocalFile) (s : WriteState) (res : BlocksRes) (padLen : Nat)
    (s' : WriteState) : Prop :=
  match res with
  | .clientError | .writeError _ => True
  | .mirrorError => s'.mirrorToSock = none
  | .shortWrite bytes =>
    0 < bytes ∧ bytes + padLen ≤ msg.count ∧
      s.chunk.WrittenAt s'.chunk msg.offset (msg.data.take bytes) ∧ msg.Mirroring padLen s'
  | .written => s.chunk.WrittenAt s'.chunk msg.offset msg.data ∧ msg.Mirroring 0 s'

theorem writeBlocks_spec {steps toBeReceived padLen : Nat} {s₀ : WriteState} {res : BlocksRes}
    (hLeft : toBeReceived ≤ msg.count)
    (hWritten : s₀.chunk.WrittenAt s.chunk msg.offset (msg.data.take (msg.count - toBeReceived)))
    (hMirroring : msg.Mirroring toBeReceived s)
    (h : msg.writeBlocks steps toBeReceived (msg.offset + (msg.count - toBeReceived)) s =
      (res, padLen, s')) :
    msg.BlocksDone s₀ res padLen s' := by
  induction steps generalizing s toBeReceived with
  | zero =>
    obtain ⟨rfl, -⟩ := Prod.mk.inj h
    trivial
  | succ steps ih =>
    unfold writeBlocks at h
    split_ifs at h with hRecv
    · dsimp only at h
      generalize hRecvRes : min msg.exactStaticRecvSize toBeReceived = recvRes at h
      have hRecvRes : recvRes ≤ toBeReceived := by omega
      have hMirroring : msg.Mirroring toBeReceived { s with recvs := s.recvs + 1 } := hMirroring
      rcases hSend : msg.sendToMirror { s with recvs := s.recvs + 1 }
        (msg.received toBeReceived recvRes) (msg.offset + (msg.count - toBeReceived))
        toBeReceived with ⟨sent, t⟩
      obtain ⟨hChunk, hSent⟩ := sendToMirror_mirroring hLeft hRecvRes rfl hMirroring hSend
      rw [hSend] at h
      cases sent with
      | false =>
        obtain ⟨rfl, hRest⟩ := Prod.mk.inj h
        obtain ⟨-, rfl⟩ := Prod.mk.inj hRest
        exact hSent
      | true =>
        simp only [if_true] at h hSent
        rcases hWrite : msg.doWrite (msg.received toBeReceived recvRes).length t
          (msg.received toBeReceived recvRes) (msg.offset + (msg.count - toBeReceived)) 0
          with ⟨writeRes, u⟩
        rw [hWrite] at h
        cases writeRes with
        | error err =>
          obtain ⟨rfl, -⟩ := Prod.mk.inj h
          trivial
        | ok writeRes =>
          obtain ⟨hLength, hSome, hWritten, hSent⟩ :=
            block_spec hLeft hRecvRes hWritten hChunk hSent hWrite
          dsimp only at h
          split_ifs at h with hShort hDone
          · obtain ⟨rfl, hRest⟩ := Prod.mk.inj h
            cases hRest
            have hEnd : msg.count - (toBeReceived - recvRes) - (recvRes - writeRes) =
                msg.count - (toBeReceived - writeRes) := by omega
            rw [hEnd]
            exact ⟨by omega, by omega, hWritten, hSent⟩
          · obtain ⟨rfl, hRest⟩ := Prod.mk.inj h
            cases hRest
            obtain rfl : writeRes = recvRes := not_not.mp hShort
            rw [hDone, Nat.sub_zero, count, take_length] at hWritten
            rw [hDone] at hSent
            exact ⟨hWritten, hSent⟩
          · obtain rfl : writeRes = recvRes := not_not.mp hShort
            refine ih (by omega) hWritten hSent ?_
            have hNext : msg.offset + (msg.count - (toBeReceived - writeRes)) =
                msg.offset + (msg.count - toBeReceived) + writeRes := by omega
            rwa [hNext]
    · obtain ⟨rfl, -⟩ := Prod.mk.inj h
      trivial

/-! ## The request -/

/-- After a short write, the connection is lost in the padding. -/
def LostInPadding (msg : WriteLocalFile) (s s' : WriteState) : Prop :=
  ∃ bytes padLen t, msg.writeBlocks msg.count msg.count msg.offset s =
      (.shortWrite bytes, padLen, t) ∧
    t.mirrorToSock ≠ none ∧
    msg.incrementalRecvPadding padLen padLen padLen t = (true, s') ∧ s'.mirrorToSock = none

section

variable (hMirroring : msg.Mirroring msg.count s)
include hMirroring

theorem blocksDone_start {res : BlocksRes} {padLen : Nat}
    (h : msg.writeBlocks msg.count msg.count msg.offset s = (res, padLen, s')) :
    msg.BlocksDone s res padLen s' := by
  have hStart : msg.offset = msg.offset + (msg.count - msg.count) := by omega
  rw [hStart] at h
  refine writeBlocks_spec (le_rfl) ?_ hMirroring h
  rw [Nat.sub_self, take_zero]
  exact SparseFile.WrittenAt.nil _ _

theorem incrementalRecv_spec {writeLocalRes : Int}
    (h : msg.incrementalRecvAndWriteStateful s = (some writeLocalRes, s'))
    (hPos : 0 < writeLocalRes) :
    ∃ n : Nat, writeLocalRes = n ∧ n ≤ msg.count ∧
      s.chunk.WrittenAt s'.chunk msg.offset (msg.data.take n) ∧
      (msg.Mirroring 0 s' ∨ msg.LostInPadding s s' ∧ s'.buddyNeedsResync = false) := by
  unfold incrementalRecvAndWriteStateful at h
  rcases hBlocks : msg.writeBlocks msg.count msg.count msg.offset s with ⟨res, padLen, t⟩
  rcases hPadding : msg.incrementalRecvPadding padLen padLen padLen t with ⟨padded, u⟩
  have hDone := blocksDone_start hMirroring hBlocks
  simp only [hBlocks, hPadding] at h
  cases res with
  | clientError => exact absurd (Prod.mk.inj h).1 nofun
  | mirrorError =>
    split_ifs at h
    · have hRes := (Prod.mk.inj h).1
      cases hRes
      exact absurd hPos (by decide)
    · exact absurd (Prod.mk.inj h).1 nofun
  | writeError err =>
    split_ifs at h
    · have hRes := (Prod.mk.inj h).1
      cases hRes
      exact absurd hPos (by cases err <;> decide)
    · exact absurd (Prod.mk.inj h).1 nofun
  | shortWrite bytes =>
    obtain ⟨hBytes, hEnd, hWritten, hSent⟩ := hDone
    split_ifs at h with hPadded
    · subst hPadded
      obtain ⟨hRes, rfl⟩ := Prod.mk.inj h
      cases hRes
      rcases hSent with ⟨hSock, hMarker⟩ | ⟨hSock, hMarker⟩
      · obtain ⟨hSame, hSock'⟩ := incrementalRecvPadding_some (by omega) hSock hPadding
        refine ⟨bytes, rfl, by omega, hSame.chunk ▸ hWritten, ?_⟩
        rcases hSock' with hLost | hAll
        · refine .inr ⟨⟨bytes, padLen, t, hBlocks, ?_, hPadding, hLost⟩, hSame.marker ▸ hMarker⟩
          exact hSock ▸ nofun
        · refine .inl (.inl ⟨?_, hSame.marker ▸ hMarker⟩)
          rw [hAll, Nat.sub_zero, count, take_length]
      · obtain ⟨hSame, hSock'⟩ := incrementalRecvPadding_none hSock hPadding
        exact ⟨bytes, rfl, by omega, hSame.chunk ▸ hWritten,
          .inl (.inr ⟨hSock', hSame.marker ▸ hMarker⟩)⟩
    · exact absurd (Prod.mk.inj h).1 nofun
  | written =>
    obtain ⟨hRes, rfl⟩ := Prod.mk.inj h
    cases hRes
    obtain ⟨hWritten, hSent⟩ := hDone
    refine ⟨msg.count, rfl, le_rfl, ?_, .inl hSent⟩
    rwa [count, take_length]

theorem LostInPadding.spec (h : msg.LostInPadding s s') :
    ∃ n : Nat, 0 < n ∧ msg.incrementalRecvAndWriteStateful s = (some (n : Int), s') ∧
      s'.mirrorToSock = none ∧ s'.buddyNeedsResync = false := by
  obtain ⟨bytes, padLen, t, hBlocks, hSock, hPadding, hLost⟩ := h
  obtain ⟨hBytes, hEnd, -, hSent⟩ := blocksDone_start hMirroring hBlocks
  refine ⟨bytes, hBytes, ?_, hLost, ?_⟩
  · simp only [incrementalRecvAndWriteStateful, hBlocks, hPadding, if_true]
  · rcases hSent with ⟨hSome, hMarker⟩ | ⟨hNone, -⟩
    · have hSame := (incrementalRecvPadding_some (by omega) hSome hPadding).1
      exact hSame.marker ▸ hMarker
    · exact absurd hNone hSock

end

/-- A negative answer of the secondary that is no error as a number of 32 bits. -/
def Misread (response : Int) : Prop :=
  response < 0 ∧ response ≠ -FhgfsOpsErr.UNKNOWNTARGET.code ∧ toOpsErr (-response) ≤ 0

theorem finishMirroring_none (h : s.mirrorToSock = none) : msg.finishMirroring s = (0, s) := by
  unfold finishMirroring
  rw [h]
  rfl

theorem finishMirroring_misread {response : Int} (hSock : s.mirrorToSock ≠ none)
    (hResponse : msg.response = some response) (hMisread : Misread response) :
    msg.finishMirroring s = (toOpsErr (-response), s) := by
  obtain ⟨hNeg, hKnown, -⟩ := hMisread
  unfold finishMirroring
  cases hConnection : s.mirrorToSock with
  | none => exact absurd hConnection hSock
  | some sock =>
    simp only [hResponse]
    rw [if_neg (by omega), if_neg (by omega), if_neg hKnown]

/-- The mirroring ends in an error, or in a success that stands for one of three things, or the
answer is misread. -/
theorem finishMirroring_spec {finishMirroringRes : Int}
    (h : msg.finishMirroring s = (finishMirroringRes, s')) :
    s'.chunk = s.chunk ∧ s'.mirrorToSock = s.mirrorToSock ∧
      (s.buddyNeedsResync = true → s'.buddyNeedsResync = true) ∧
      (0 < finishMirroringRes ∨
        finishMirroringRes = 0 ∧ (s.mirrorToSock = none ∨
          msg.response = some (msg.count : Int) ∨ s'.buddyNeedsResync = true) ∨
        s.mirrorToSock ≠ none ∧ ∃ response, msg.response = some response ∧ Misread response) := by
  unfold finishMirroring at h
  cases hSock : s.mirrorToSock with
  | none =>
    rw [hSock] at h
    cases h
    exact ⟨rfl, hSock, id, .inr (.inl ⟨rfl, .inl rfl⟩)⟩
  | some sock =>
    rw [hSock] at h
    cases hResponse : msg.response with
    | none =>
      rw [hResponse] at h
      cases h
      exact ⟨rfl, hSock, id, .inl (by decide)⟩
    | some response =>
      rw [hResponse] at h
      dsimp only at h
      split_ifs at h with hAll hSome hUnknown
      · cases h
        exact ⟨rfl, hSock, id, .inr (.inl ⟨rfl, .inr (.inl (congrArg some hAll))⟩)⟩
      · cases h
        exact ⟨rfl, hSock, id, .inl (by decide)⟩
      · cases h
        exact ⟨rfl, rfl, fun _ => rfl, .inr (.inl ⟨rfl, .inr (.inr rfl)⟩)⟩
      cases h
      refine ⟨rfl, hSock, id, ?_⟩
      by_cases hError : 0 < toOpsErr (-response)
      · exact .inl hError
      · exact .inr (.inr ⟨nofun, response, rfl, by omega, hUnknown, by omega⟩)

theorem nonpos_of_cleanup {writeClientRes answer : Int}
    (h : (msg.cleanup writeClientRes s).1 = some answer)
    (hFails : msg.serverCrashed = true ∨ writeClientRes ≤ 0) : answer ≤ 0 := by
  unfold cleanup at h
  dsimp only at h
  have hAnswer := some.inj h
  by_cases hCrashed : msg.serverCrashed = true
  · have hCode := code_pos (show FhgfsOpsErr.STORAGE_SRV_CRASHED ≠ .SUCCESS by decide)
    rw [if_pos hCrashed] at hAnswer
    omega
  · have hLocal := hFails.resolve_left hCrashed
    rw [if_neg hCrashed, if_neg (by omega)] at hAnswer
    omega

theorem refuse_nonpos {err : FhgfsOpsErr} {answer : Int} (hErr : err ≠ .SUCCESS)
    (h : (msg.refuse err s).1 = some answer) : answer ≤ 0 := by
  have hCode := code_pos hErr
  unfold refuse at h
  dsimp only at h
  split_ifs at h
  exact nonpos_of_cleanup h (.inr (by omega))

theorem prepareMirroring_spec (hForward : msg.buddyMirrorForward = true) (chunk : Chunk)
    (h : (msg.prepareMirroring (start chunk)).1 = .SUCCESS) :
    (msg.prepareMirroring (start chunk)).2.chunk = chunk ∧
      msg.Mirroring msg.count (msg.prepareMirroring (start chunk)).2 := by
  rcases hPrepare : msg.prepareMirroring (start chunk) with ⟨res, s⟩
  rw [hPrepare] at h
  obtain rfl : res = .SUCCESS := h
  unfold prepareMirroring at hPrepare
  rw [if_pos hForward] at hPrepare
  by_cases hSecondary : msg.hasSecondary = true
  · rw [if_pos hSecondary] at hPrepare
    cases hState : msg.secondaryState with
    | none =>
      rw [hState] at hPrepare
      cases hPrepare
    | some state =>
      rw [hState] at hPrepare
      dsimp only at hPrepare
      split_ifs at hPrepare with hOffline hUnclear hReference
      · obtain ⟨-, rfl⟩ := Prod.mk.inj hPrepare
        exact ⟨rfl, .inr ⟨rfl, rfl⟩⟩
      · cases hPrepare
      · exact absurd (Prod.mk.inj hPrepare).1 hReference
      · obtain ⟨hSame, hSock⟩ := prepareLoop_spec hPrepare
        refine ⟨hSame.chunk, .inl ⟨?_, hSame.marker⟩⟩
        rw [hSock rfl, Nat.sub_self, take_zero]
  · rw [if_neg hSecondary] at hPrepare
    cases hPrepare

/-- The writing begins, and its result is the answer. -/
structure Accepted (msg : WriteLocalFile) (chunk : Chunk) : Prop where
  noCrash : msg.serverCrashed = false
  quota : msg.quotaExceeded = false
  openFile : msg.openRes = .SUCCESS
  prepare : (msg.prepareMirroring (start chunk)).1 = .SUCCESS

/-- The connection is lost in the padding after a short write. -/
def ForwardingLost (msg : WriteLocalFile) (chunk : Chunk) : Prop :=
  msg.Accepted chunk ∧ ∃ s, msg.LostInPadding (msg.prepareMirroring (start chunk)).2 s

/-- The answer of the secondary is misread after a local write. -/
def AnswerMisread (msg : WriteLocalFile) (chunk : Chunk) : Prop :=
  msg.Accepted chunk ∧ ∃ n s,
    msg.incrementalRecvAndWriteStateful (msg.prepareMirroring (start chunk)).2 = (some n, s) ∧
    0 < n ∧ s.mirrorToSock ≠ none ∧ ∃ response, msg.response = some response ∧ Misread response

variable {chunk : Chunk}

theorem processIncoming_of_accepted {n : Int} (h : msg.Accepted chunk)
    (hRecv : msg.incrementalRecvAndWriteStateful (msg.prepareMirroring (start chunk)).2 =
      (some n, s)) : msg.processIncoming chunk = msg.cleanup n s := by
  unfold processIncoming
  rw [if_neg (by simp [h.quota]), if_neg (not_not.mpr h.openFile)]
  dsimp only
  rw [if_neg (not_not.mpr h.prepare), hRecv]

theorem accepted_of_answer {answer : Int} (hPos : 0 < answer)
    (h : (msg.processIncoming chunk).1 = some answer) :
    msg.Accepted chunk ∧ ∃ n s,
      msg.incrementalRecvAndWriteStateful (msg.prepareMirroring (start chunk)).2 = (some n, s) := by
  unfold processIncoming at h
  dsimp only at h
  split_ifs at h with hQuota hOpen hPrepare
  · have hAnswer := refuse_nonpos (by decide) h
    omega
  · have hAnswer := refuse_nonpos hOpen h
    omega
  · have hAnswer := refuse_nonpos hPrepare h
    omega
  rcases hRecv : msg.incrementalRecvAndWriteStateful (msg.prepareMirroring (start chunk)).2
    with ⟨res, s⟩
  rw [hRecv] at h
  cases res with
  | none => cases h
  | some n =>
    refine ⟨⟨eq_false_of_ne_true fun hCrashed => ?_, by simpa using hQuota, not_not.mp hOpen,
      not_not.mp hPrepare⟩, n, s, rfl⟩
    have hAnswer := nonpos_of_cleanup h (.inl hCrashed)
    omega

theorem not_acknowledged_of_forwardingLost
    (hForward : msg.buddyMirrorForward = true) (h : msg.ForwardingLost chunk) :
    ¬ msg.Acknowledged chunk := by
  intro hAck
  obtain ⟨hAccepted, s, hLost⟩ := h
  have hMirroring := (prepareMirroring_spec hForward chunk hAccepted.prepare).2
  obtain ⟨n, hPos, hRecv, hSock, hMarker⟩ := hLost.spec hMirroring
  have hAnswer : msg.processIncoming chunk = (some (n : Int), s) := by
    rw [processIncoming_of_accepted hAccepted hRecv]
    unfold cleanup
    rw [finishMirroring_none hSock, hAccepted.noCrash]
    dsimp only
    rw [if_neg Bool.false_ne_true, if_neg]
    exact fun hBoth => hBoth.2 rfl
  have hDurable := hAck n hPos (by rw [hAnswer])
  rw [hAnswer] at hDurable
  rcases hDurable.mirrored with hConfirmed | hSet
  · rw [Confirmed, hSock] at hConfirmed
    exact nomatch hConfirmed.1
  · rw [hMarker] at hSet
    cases hSet

theorem not_acknowledged_of_answerMisread
    (hForward : msg.buddyMirrorForward = true) (h : msg.AnswerMisread chunk) :
    ¬ msg.Acknowledged chunk := by
  intro hAck
  obtain ⟨hAccepted, n, s, hRecv, hPos, hSock, response, hResponse, hMisread⟩ := h
  have hMirroring := (prepareMirroring_spec hForward chunk hAccepted.prepare).2
  obtain ⟨-, -, -, -, hEnd⟩ := incrementalRecv_spec hMirroring hRecv hPos
  have hMarker : s.buddyNeedsResync = false := by
    rcases hEnd with (⟨-, hMarker⟩ | ⟨hNone, -⟩) | ⟨-, hMarker⟩
    · exact hMarker
    · exact absurd hNone hSock
    · exact hMarker
  obtain ⟨answer, hAnswerPos, hAnswer⟩ : ∃ answer : Nat, 0 < answer ∧
      msg.processIncoming chunk = (some (answer : Int), s) := by
    rw [processIncoming_of_accepted hAccepted hRecv]
    unfold cleanup
    rw [finishMirroring_misread hSock hResponse hMisread, hAccepted.noCrash]
    dsimp only
    rw [if_neg Bool.false_ne_true]
    have hRes := hMisread.2.2
    have hZero : FhgfsOpsErr.SUCCESS.code = 0 := rfl
    split_ifs with hError
    · refine ⟨(-toOpsErr (-response)).toNat, by omega, ?_⟩
      rw [Int.toNat_of_nonneg (by omega)]
    · refine ⟨n.toNat, by omega, ?_⟩
      rw [Int.toNat_of_nonneg (by omega)]
  have hDurable := hAck answer hAnswerPos (by rw [hAnswer])
  rw [hAnswer] at hDurable
  rcases hDurable.mirrored with hConfirmed | hSet
  · have hCount := some.inj (hResponse.symm.trans hConfirmed.2)
    have hNeg := hMisread.1
    omega
  · rw [hMarker] at hSet
    cases hSet

theorem mirrored_of_finish (hMirroring : msg.Mirroring 0 s)
    (hSock : s'.mirrorToSock = s.mirrorToSock)
    (hMarker : s.buddyNeedsResync = true → s'.buddyNeedsResync = true)
    (hRes : s.mirrorToSock = none ∨ msg.response = some (msg.count : Int) ∨
      s'.buddyNeedsResync = true) :
    msg.Confirmed s' ∨ s'.buddyNeedsResync = true := by
  rcases hMirroring with ⟨hSent, -⟩ | ⟨-, hSet⟩
  · rcases hRes with hNone | hResponse | hSet
    · rw [hSent] at hNone
      cases hNone
    · refine .inl ⟨?_, hResponse⟩
      rw [hSock, hSent, Nat.sub_zero, count, take_length]
    · exact .inr hSet
  · exact .inr (hMarker hSet)

theorem durable_of_written {n : Nat} (hn : n ≤ msg.count) (hPos : 0 < n)
    (hWritten : s.chunk.WrittenAt s'.chunk msg.offset (msg.data.take n))
    (hMirrored : msg.Confirmed s' ∨ s'.buddyNeedsResync = true) : msg.Durable n s' := by
  have hLength : (msg.data.take n).length = n := length_take_of_le hn
  refine ⟨hn, fun i hi => ?_, ?_, hMirrored⟩
  · rw [hWritten.bytes i (by omega), getD_eq_getElem?_getD, getD_eq_getElem?_getD,
      getElem?_take_of_lt hi]
  · have hEnd := hWritten.length (ne_nil_of_length_pos (by omega))
    rwa [hLength] at hEnd

theorem acknowledged_of_not_lost (hForward : msg.buddyMirrorForward = true)
    (hLost : ¬ msg.ForwardingLost chunk) (hMisread : ¬ msg.AnswerMisread chunk) :
    msg.Acknowledged chunk := by
  intro n hPos hAnswer
  obtain ⟨hAccepted, writeLocalRes, s, hRecv⟩ := accepted_of_answer (by omega) hAnswer
  obtain ⟨hChunk, hMirroring⟩ := prepareMirroring_spec hForward chunk hAccepted.prepare
  rw [processIncoming_of_accepted hAccepted hRecv] at hAnswer ⊢
  have hLocal : 0 < writeLocalRes := by
    by_contra hNot
    have hNonpos := nonpos_of_cleanup hAnswer (.inr (by omega))
    omega
  obtain ⟨m, rfl, hm, hWritten, hEnd⟩ := incrementalRecv_spec hMirroring hRecv hLocal
  have hEnd : msg.Mirroring 0 s := hEnd.resolve_right fun ⟨hHere, _⟩ => hLost ⟨hAccepted, s, hHere⟩
  rcases hFinish : msg.finishMirroring s with ⟨finishMirroringRes, s'⟩
  obtain ⟨hChunk', hSock, hMarker, hRes⟩ := finishMirroring_spec hFinish
  simp only [cleanup, hFinish, hAccepted.noCrash, Bool.false_eq_true, if_false] at hAnswer ⊢
  rw [← hChunk'] at hWritten
  have hZero : FhgfsOpsErr.SUCCESS.code = 0 := rfl
  rcases hRes with hError | ⟨rfl, hRes⟩ | ⟨hSome, hResponse⟩
  · rw [if_pos ⟨hLocal, by omega⟩] at hAnswer
    have hSame := some.inj hAnswer
    omega
  · rw [if_neg fun hBoth => hBoth.2 hZero.symm] at hAnswer
    obtain rfl : m = n := Int.ofNat.inj (some.inj hAnswer)
    exact durable_of_written hm hPos hWritten (mirrored_of_finish hEnd hSock hMarker hRes)
  · exact absurd ⟨hAccepted, m, s, hRecv, hLocal, hSome, hResponse⟩ hMisread

end WriteLocalFile

/-- An answered write is on both buddies or recorded, unless the connection is lost in the
padding or the answer of the secondary is misread. An answered truncation always is. -/
theorem durable_or_recorded_iff (write : WriteLocalFile) (trunc : TruncLocalFile)
    (hForward : write.buddyMirrorForward = true) (hMirror : trunc.isBuddyMirror = true)
    (hPrimary : trunc.isBuddyMirrorSecond = false) (chunk : Chunk)
    (truncChunk : Option Chunk) :
    (write.Acknowledged chunk ↔ ¬ write.ForwardingLost chunk ∧ ¬ write.AnswerMisread chunk) ∧
      trunc.Acknowledged truncChunk := by
  refine ⟨⟨fun h => ⟨?_, ?_⟩, fun h => ?_⟩, trunc.acknowledged hMirror hPrimary truncChunk⟩
  · exact fun hLost => WriteLocalFile.not_acknowledged_of_forwardingLost hForward hLost h
  · exact fun hMisread => WriteLocalFile.not_acknowledged_of_answerMisread hForward hMisread h
  · exact WriteLocalFile.acknowledged_of_not_lost hForward h.1 h.2

/-- Four bytes in blocks of two. One byte of the first block is written, and the connection to
the secondary breaks with the second block. -/
def shortWrite : WriteLocalFile where
  offset := 0
  data := [1, 2, 3, 4]
  buddyMirrorForward := true
  bufLen := 2
  isDirectIO := false
  tuneFileWriteSize := 2
  serverCrashed := false
  quotaExceeded := false
  openRes := .SUCCESS
  hasSecondary := true
  secondaryState := some ⟨.ONLINE, .GOOD⟩
  referenceErr := .SUCCESS
  acquireStreamSocket _ := true
  send op := op < 3
  recvExactT _ := true
  recvT _ := some 1
  pwrite op := if op = 0 then .ok 0 else .error .ENOSPC
  response := none

def offlineTrunc : TruncLocalFile where
  filesize := 2
  isBuddyMirror := true
  isBuddyMirrorSecond := false
  useQuota := false
  hasTarget := true
  targetFD := some .GOOD
  attempts := [⟨true, some ⟨.OFFLINE, .GOOD⟩, true, true, .SUCCESS, .SUCCESS, false⟩]
  outTargetReachabilityState := .ONLINE
  openat := none
  ftruncateRes := none
  closeRes := none
  openChunkFile _ := .SUCCESS

theorem durable_or_recorded_iff_shortWrite :
    (shortWrite.Acknowledged [] ↔
      ¬ shortWrite.ForwardingLost [] ∧ ¬ shortWrite.AnswerMisread []) ∧
      offlineTrunc.Acknowledged (some [1]) :=
  durable_or_recorded_iff shortWrite offlineTrunc rfl rfl rfl [] (some [1])

/-- One byte is answered, although the secondary has got two of four bytes and no marker is
set. -/
theorem not_durable_or_recorded :
    ¬ (shortWrite.buddyMirrorForward = true → 0 < shortWrite.count →
      shortWrite.Acknowledged []) := by
  intro h
  have hDurable := h rfl (by decide) 1 (by decide) (by decide)
  rcases hDurable.mirrored with hConfirmed | hSet
  · exact absurd hConfirmed.2 (by decide)
  · exact absurd hSet (by decide)

end Fhgfs.Mirror
