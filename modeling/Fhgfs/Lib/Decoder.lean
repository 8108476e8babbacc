import Fhgfs.Lib.Wire

/-!
# Decoders in two passes

A decoder gets a buffer and its length. The first pass checks the encoding and says how long it
is, the second one reads the values at the place that the first one found.

* `Cursor.of`: the told length is the length of the memory.
* `Decoder.Contained d headerLen buf`: neither pass reads outside of the buffer, and an accepted
  length lies between the one of the header and the one of the buffer.
* `Decoder.contained_iff`: what is left to show when the first pass accepts.
* `Cursor.moved`: how far the pointer was moved, computed from the told lengths.
* `Bounded r`: when no more memory is told than there is, the reader does not read outside of it,
  and the same holds where it stops.
* `Moves r c p q`: the reader gives a value at the offset `p`, and moves the pointer to `q`.
* `reportingLen r`: the caller of the reader moves the pointer by a length of 32 bits.
* `Rejects r bytes`: the reader fails in any memory that starts with `bytes`.
* `readFold step n s`: a loop that reads `n` elements.
-/

namespace Fhgfs.Wire

open List Cursor Wire

/-! ## Buffers with their own length -/

/-- The pointer to the begin of a buffer, and the length of the buffer. -/
def Cursor.of (buf : List UInt8) : Cursor := ⟨buf, buf.length⟩

@[simp] theorem Cursor.of_mem (buf : List UInt8) : (of buf).mem = buf := rfl

@[simp] theorem Cursor.of_bufLen (buf : List UInt8) : (of buf).bufLen = buf.length := rfl

theorem Cursor.advance_of {n : Nat} {buf : List UInt8} (h : n ≤ buf.length) :
    (of buf).advance n = .of (buf.drop n) := by
  rw [advance, of_bufLen, if_pos h, ← length_drop]
  rfl

variable (width : Nat)

def leAt (buf : List UInt8) (offset : Nat) : Nat :=
  ofLeBytes ((buf.drop offset).take width)

theorem ofLeBytes_lt (bytes : List UInt8) : ofLeBytes bytes < 256 ^ bytes.length := by
  induction bytes with
  | nil => exact one_pos
  | cons b bytes ih =>
    have hByte := b.toNat_lt
    rw [ofLeBytes, length_cons, pow_succ]
    omega

theorem leAt_lt (buf : List UInt8) (offset : Nat) : leAt width buf offset < 256 ^ width := by
  apply lt_of_lt_of_le (ofLeBytes_lt _)
  apply Nat.pow_le_pow_right (by omega)
  exact length_take_le _ _

theorem leAt_drop (buf : List UInt8) (n offset : Nat) :
    leAt width (buf.drop n) offset = leAt width buf (n + offset) := by
  rw [leAt, leAt, drop_drop]

theorem readLe_of_short {width : Nat} {buf : List UInt8} (h : buf.length < width) :
    readLe width (.of buf) = .error .rejected := by
  rw [readLe, of_bufLen, if_pos h]

theorem readLe_of {width : Nat} {buf : List UInt8} (h : width ≤ buf.length) :
    readLe width (.of buf) = .ok (leAt width buf 0, .of (buf.drop width)) := by
  rw [readLe, of_bufLen, of_mem, if_neg (not_lt.mpr h),
    if_neg (not_lt.mpr h), advance_of h, leAt, drop_zero]

/-- A number that is read without a check of the length. -/
def peekLe : Reader Nat := fun c =>
  if c.mem.length < width then .error .outOfBounds
  else .ok (ofLeBytes (c.mem.take width), c.advance width)

/-- Bytes that are copied without a check of the length. -/
def peekBytes (n : Nat) : Reader (List UInt8) := fun c =>
  if c.mem.length < n then .error .outOfBounds else .ok (c.mem.take n, c.advance n)

/-- How far the pointer was moved since `start`. The told lengths are a `size_t`. -/
def Cursor.moved (start c : Cursor) : Nat := (start.bufLen + 2 ^ 64 - c.bufLen) % 2 ^ 64

theorem Cursor.moved_advance {c : Cursor} {n : Nat} (hLen : c.bufLen < 2 ^ 64) (hn : n < 2 ^ 64) :
    c.moved (c.advance n) = n := by
  unfold moved advance
  dsimp only
  split <;> omega

theorem Cursor.advance_advance {n m : Nat} (c : Cursor) (h : n + m ≤ 2 ^ 64) :
    (c.advance n).advance m = c.advance (n + m) := by
  simp only [advance, drop_drop, Cursor.mk.injEq, true_and]
  split <;> split <;> split <;> omega

/-- A reader that reports as an `unsigned` how far its caller has to move the pointer. -/
def reportingLen {α : Type} (r : Reader α) : Reader α := fun c =>
  match r c with
  | .error e => .error e
  | .ok (v, c') => .ok (v, c.advance (c.moved c' % 2 ^ 32))

theorem reportingLen_eq_ok {α : Type} {r : Reader α} {v : α} {c c' : Cursor}
    (h : reportingLen r c = .ok (v, c')) : ∃ c'', r c = .ok (v, c'') := by
  unfold reportingLen at h
  cases hRun : r c with
  | error e =>
    rw [hRun] at h
    cases h
  | ok p =>
    rw [hRun] at h
    obtain ⟨rfl, -⟩ := Prod.mk.inj (Except.ok.inj h)
    exact ⟨p.2, rfl⟩

theorem readLe_lt {width n : Nat} {c c' : Cursor} (h : readLe width c = .ok (n, c')) :
    n < 256 ^ width := by
  unfold readLe at h
  split at h
  · cases h
  · split at h
    · cases h
    · obtain ⟨rfl, -⟩ := Prod.mk.inj (Except.ok.inj h)
      apply lt_of_lt_of_le (ofLeBytes_lt _)
      apply Nat.pow_le_pow_right (by omega)
      exact length_take_le _ _

/-! ## Sequences -/

section Sequence

variable {α β : Type} {r : Reader α} {f : α → Reader β} {c c' : Cursor} {v : α} {e : ReadError}

theorem bind_of_ok (h : r c = .ok (v, c')) : (r >>= f) c = f v c' := by
  change (r c >>= fun p => f p.1 p.2) = _
  rw [h]
  rfl

theorem bind_of_error (h : r c = .error e) : (r >>= f) c = .error e := by
  change (r c >>= fun p => f p.1 p.2) = _
  rw [h]
  rfl

theorem map_of_ok (g : α → β) (h : r c = .ok (v, c')) : (g <$> r) c = .ok (g v, c') := by
  change (r c >>= fun p => pure (g p.1, p.2)) = _
  rw [h]
  rfl

theorem map_of_error (g : α → β) (h : r c = .error e) : (g <$> r) c = .error e := by
  change (r c >>= fun p => pure (g p.1, p.2)) = _
  rw [h]
  rfl

theorem lift_of_ok {x : Except ReadError α} (h : x = .ok v) :
    (liftM x : Reader α) c = .ok (v, c) := by
  rw [h]
  rfl

theorem lift_of_error {x : Except ReadError α} (h : x = .error e) :
    (liftM x : Reader α) c = .error e := by
  rw [h]
  rfl

end Sequence

/-! ## Readers that look at the told length -/

def Bounded {α : Type} (r : Reader α) : Prop :=
  ∀ c : Cursor, c.bufLen ≤ c.mem.length →
    r c ≠ .error .outOfBounds ∧ ∀ v c', r c = .ok (v, c') → c'.bufLen ≤ c'.mem.length

namespace Bounded

variable {α β : Type} {r : Reader α} {f : α → Reader β}

theorem pure (v : α) : Bounded (pure v : Reader α) := by
  intro c hc
  refine ⟨nofun, ?_⟩
  intro v' c' h
  obtain ⟨-, rfl⟩ := Prod.mk.inj (Except.ok.inj h)
  exact hc

theorem bind (h : Bounded r) (hNext : ∀ v, Bounded (f v)) : Bounded (r >>= f) := by
  intro c hc
  obtain ⟨hFirst, hStop⟩ := h c hc
  cases hRun : r c with
  | error e =>
    rw [bind_of_error hRun]
    refine ⟨?_, nofun⟩
    rintro ⟨⟩
    exact hFirst hRun
  | ok p =>
    rw [bind_of_ok hRun]
    exact hNext p.1 p.2 (hStop p.1 p.2 hRun)

theorem reject : Bounded (reject : Reader α) := fun _ _ => ⟨nofun, nofun⟩

theorem ensure (b : Bool) : Bounded (ensure b) := by
  unfold Wire.ensure
  split
  · exact .pure ()
  · exact .reject

theorem map (h : Bounded r) (g : α → β) : Bounded (g <$> r) := by
  rw [← bind_pure_comp]
  apply h.bind
  intro v
  exact .pure (g v)

theorem readLe (width : Nat) : Bounded (readLe width) := by
  intro c hc
  unfold Wire.readLe
  split
  · exact ⟨nofun, nofun⟩
  next hLen =>
    rw [if_neg (by omega)]
    refine ⟨nofun, ?_⟩
    intro v c' h
    obtain ⟨-, rfl⟩ := Prod.mk.inj (Except.ok.inj h)
    simp only [Cursor.advance, length_drop]
    rw [if_pos (Nat.le_of_not_lt hLen)]
    omega

end Bounded

/-! ## Readers that do not look at the told length -/

def Moves {α : Type} (r : Reader α) (c : Cursor) (p q : Nat) : Prop :=
  ∃ v, r (c.advance p) = .ok (v, c.advance q)

theorem Cursor.advance_zero (c : Cursor) : c.advance 0 = c := by
  simp [advance]

theorem Cursor.length_advance (c : Cursor) (n : Nat) :
    (c.advance n).mem.length = c.mem.length - n := length_drop

theorem Cursor.bufLen_advance_lt {c : Cursor} (n : Nat) (h : c.bufLen < 2 ^ 64) :
    (c.advance n).bufLen < 2 ^ 64 := by
  unfold advance
  dsimp only
  split <;> omega

namespace Moves

variable {α β : Type} {r : Reader α} {f : α → Reader β} {c : Cursor} {p q s : Nat}

theorem pure (v : α) : Moves (pure v : Reader α) c p p := ⟨v, rfl⟩

theorem bind_of {v : α} (h : r (c.advance p) = .ok (v, c.advance q))
    (hNext : Moves (f v) c q s) : Moves (r >>= f) c p s := by
  obtain ⟨w, hSecond⟩ := hNext
  exact ⟨w, (bind_of_ok h).trans hSecond⟩

theorem bind (h : Moves r c p q) (hNext : ∀ v, Moves (f v) c q s) : Moves (r >>= f) c p s := by
  obtain ⟨v, hFirst⟩ := h
  exact bind_of hFirst (hNext v)

theorem skip {n : Nat} (hLen : p + n ≤ 2 ^ 64) : Moves (skip n) c p (p + n) := by
  refine ⟨(), ?_⟩
  rw [← c.advance_advance hLen]
  rfl

section

variable {width : Nat} (hLen : p + width ≤ c.mem.length) (hMax : p + width ≤ 2 ^ 64)
include hLen hMax

theorem peekLe_eq :
    peekLe width (c.advance p) = .ok (leAt width c.mem p, c.advance (p + width)) := by
  rw [peekLe, if_neg (by rw [c.length_advance]; omega), c.advance_advance hMax]
  rfl

theorem peekLe : Moves (peekLe width) c p (p + width) := ⟨_, peekLe_eq hLen hMax⟩

end

theorem peekBytes {n : Nat} (hLen : p + n ≤ c.mem.length) (hMax : p + n ≤ 2 ^ 64) :
    Moves (peekBytes n) c p (p + n) := by
  refine ⟨(c.mem.drop p).take n, ?_⟩
  rw [Wire.peekBytes, if_neg (by rw [c.length_advance]; omega), c.advance_advance hMax]
  rfl

theorem outOfBounds (h : Moves r c p q) (hNext : ∀ v, f v (c.advance q) = .error .outOfBounds) :
    (r >>= f) (c.advance p) = .error .outOfBounds := by
  obtain ⟨v, hFirst⟩ := h
  exact (bind_of_ok hFirst).trans (hNext v)

end Moves

theorem bind_outOfBounds {α β : Type} {r : Reader α} (f : α → Reader β) {c : Cursor}
    (h : r c = .error .outOfBounds) : (r >>= f) c = .error .outOfBounds := bind_of_error h

theorem peekLe_outOfBounds {width p : Nat} {c : Cursor} (h : c.mem.length < p + width)
    (hWidth : 0 < width) : peekLe width (c.advance p) = .error .outOfBounds := by
  rw [peekLe, if_pos]
  rw [c.length_advance]
  omega

theorem peekBytes_outOfBounds {n p : Nat} {c : Cursor} (h : c.mem.length < p + n) (hNum : 0 < n) :
    peekBytes n (c.advance p) = .error .outOfBounds := by
  rw [peekBytes, if_pos]
  rw [c.length_advance]
  omega

/-! ## Readers of encodings -/

namespace Reads

theorem peekLe_leBytes (width : Nat) {n : Nat} (h : n < 256 ^ width) :
    Reads (peekLe width) ((leBytes width n).map some) n := by
  intro mem rest bufLen hFills hLen
  obtain rfl := fills_map_some.mp hFills
  have hTake : (leBytes width n ++ rest).take width = leBytes width n :=
    take_left' (length_leBytes width n)
  have hAdvance := advance_append rest hLen
  rw [length_leBytes] at hAdvance ⊢
  rw [peekLe, if_neg (by simp), hTake, ofLeBytes_leBytes h, hAdvance]

theorem peekBytes {bytes : List UInt8} {n : Nat} (h : bytes.length = n) :
    Reads (peekBytes n) (bytes.map some) bytes := by
  intro mem rest bufLen hFills hLen
  obtain rfl := fills_map_some.mp hFills
  subst h
  rw [Wire.peekBytes, if_neg (by simp), take_left, advance_append rest hLen]

section

variable {α : Type} {r : Reader α} {bytes : Encoding} {v : α}

theorem reportingLen (h : Reads r bytes v)
    (hFits : bytes.length < 2 ^ 32) : Reads (reportingLen r) bytes v := by
  intro mem rest bufLen hFills hLen
  have hLength := hFills.length_eq
  have hMoved : Cursor.moved ⟨mem ++ rest, bufLen⟩ ⟨rest, bufLen - mem.length⟩ = mem.length := by
    unfold Cursor.moved
    dsimp only
    omega
  unfold Wire.reportingLen
  rw [h mem rest bufLen hFills hLen]
  dsimp only
  rw [hMoved, Nat.mod_eq_of_lt (by omega), advance_append rest hLen]

theorem of (h : Reads r bytes v) {mem : List UInt8} (rest : List UInt8) (hFills : Fills bytes mem) :
    r (.of (mem ++ rest)) = .ok (v, .of rest) := by
  have hRead := h mem rest (mem ++ rest).length hFills (by rw [length_append]; omega)
  have hLeft : (mem ++ rest).length - mem.length = rest.length := by
    rw [length_append, Nat.add_sub_cancel_left]
  rwa [hLeft] at hRead

end

theorem bind_apply {α β : Type} {r : Reader α} {bytes : Encoding} {v : α} (h : Reads r bytes v)
    (f : α → Reader β) {mem rest : List UInt8} {bufLen : Nat} (hFills : Fills bytes mem)
    (hLen : mem.length ≤ bufLen) :
    (r >>= f) ⟨mem ++ rest, bufLen⟩ = f v ⟨rest, bufLen - mem.length⟩ :=
  bind_of_ok (h mem rest bufLen hFills hLen)

end Reads

/-! ## Encodings that are not accepted -/

def Rejects {α : Type} (r : Reader α) (bytes : Encoding) : Prop :=
  ∀ (mem rest : List UInt8) (bufLen : Nat), Fills bytes mem → mem.length ≤ bufLen →
    ∃ e, r ⟨mem ++ rest, bufLen⟩ = .error e

namespace Rejects

variable {α β : Type} {r : Reader α} {f : α → Reader β} {bytes bytes' : Encoding} {v : α}

theorem reject : Rejects (reject : Reader α) [] := by
  intro mem rest bufLen _ _
  exact ⟨.rejected, rfl⟩

theorem ensure {b : Bool} (h : b = false) : Rejects (ensure b) [] := by
  rw [h]
  exact reject

theorem append (h : Rejects r bytes) (bytes' : Encoding) : Rejects r (bytes ++ bytes') := by
  intro mem rest bufLen hFills hLen
  obtain ⟨front, back, rfl, hFront, -⟩ := fills_append hFills
  rw [length_append] at hLen
  rw [append_assoc]
  exact h front (back ++ rest) bufLen hFront (by omega)

theorem bind (h : Rejects r bytes) (f : α → Reader β) : Rejects (r >>= f) bytes := by
  intro mem rest bufLen hFills hLen
  obtain ⟨e, hError⟩ := h mem rest bufLen hFills hLen
  exact ⟨e, bind_of_error hError⟩

theorem reportingLen (h : Rejects r bytes) : Rejects (reportingLen r) bytes := by
  intro mem rest bufLen hFills hLen
  obtain ⟨e, hError⟩ := h mem rest bufLen hFills hLen
  refine ⟨e, ?_⟩
  rw [Wire.reportingLen, hError]

end Rejects

theorem Reads.bind_rejects {α β : Type} {r : Reader α} {f : α → Reader β} {bytes bytes' : Encoding}
    {v : α} (h : Reads r bytes v) (h' : Rejects (f v) bytes') :
    Rejects (r >>= f) (bytes ++ bytes') := by
  intro mem rest bufLen hFills hLen
  obtain ⟨front, back, rfl, hFront, hBack⟩ := fills_append hFills
  rw [length_append] at hLen
  rw [append_assoc, h.bind_apply f hFront (by omega)]
  exact h' back rest _ hBack (by omega)

/-! ## Loops -/

theorem length_le_flatMap {β : Type} (enc : β → Encoding) {x : β} {xs : List β} (h : x ∈ xs) :
    (enc x).length ≤ (xs.flatMap enc).length :=
  (sublist_flatten_of_mem (mem_map_of_mem h)).length_le

section Fold

variable {σ β : Type} {step : σ → Reader σ} {enc : β → Encoding} {f : σ → β → σ}

def readFold (step : σ → Reader σ) : Nat → σ → Reader σ
  | 0, s => pure s
  | n + 1, s => step s >>= readFold step n

theorem reads_fold {xs : List β} (h : ∀ x ∈ xs, ∀ s, Reads (step s) (enc x) (f s x)) (s : σ) :
    Reads (readFold step xs.length s) (xs.flatMap enc) (xs.foldl f s) := by
  induction xs generalizing s with
  | nil => exact .pure s
  | cons x xs ih =>
    rw [flatMap_cons, foldl_cons]
    exact (h x mem_cons_self s).bind
      (ih (fun y hy => h y (mem_cons_of_mem _ hy)) (f s x))

theorem rejects_fold {xs : List β} {P : β → Prop}
    (hGood : ∀ x ∈ xs, P x → ∀ s, Reads (step s) (enc x) (f s x))
    (hBad : ∀ x ∈ xs, ¬ P x → ∀ s, Rejects (step s) (enc x)) (hSome : ∃ x ∈ xs, ¬ P x)
    (s : σ) : Rejects (readFold step xs.length s) (xs.flatMap enc) := by
  induction xs generalizing s with
  | nil =>
    obtain ⟨x, hx, -⟩ := hSome
    cases hx
  | cons x xs ih =>
    rw [flatMap_cons]
    by_cases hHead : P x
    · apply (hGood x mem_cons_self hHead s).bind_rejects
      apply ih (fun y hy => hGood y (mem_cons_of_mem _ hy))
        (fun y hy => hBad y (mem_cons_of_mem _ hy))
      obtain ⟨y, hy, hNot⟩ := hSome
      rcases mem_cons.mp hy with rfl | hy
      · exact absurd hHead hNot
      · exact ⟨y, hy, hNot⟩
    · exact ((hBad x mem_cons_self hHead s).bind _).append _

end Fold

/-! ## Two passes -/

/-- The first pass, the length that it reports, and the second pass. -/
structure Decoder (ι α : Type) where
  preprocess : Cursor → Except ReadError ι
  outLen : ι → Nat
  deserialize : ι → Except ReadError α

namespace Decoder

variable {ι α : Type} {d : Decoder ι α} {headerLen : Nat} {buf : List UInt8} {info : ι}

structure Contained (d : Decoder ι α) (headerLen : Nat) (buf : List UInt8) : Prop where
  checked : d.preprocess (.of buf) ≠ .error .outOfBounds
  read : ∀ info, d.preprocess (.of buf) = .ok info →
    headerLen ≤ d.outLen info ∧ d.outLen info ≤ buf.length ∧
      d.deserialize info ≠ .error .outOfBounds

theorem Contained.of_le {minLen : Nat} (h : d.Contained headerLen buf) (hLe : minLen ≤ headerLen) :
    d.Contained minLen buf := by
  refine ⟨h.checked, ?_⟩
  intro info hInfo
  obtain ⟨hHeader, hRead⟩ := h.read info hInfo
  exact ⟨le_trans hLe hHeader, hRead⟩

theorem contained_of_rejected (h : d.preprocess (.of buf) = .error .rejected) :
    d.Contained headerLen buf := by
  constructor
  · rw [h]
    exact nofun
  · intro info hInfo
    rw [h] at hInfo
    cases hInfo

theorem not_contained_of_outOfBounds (h : d.preprocess (.of buf) = .error .outOfBounds) :
    ¬ d.Contained headerLen buf := fun hContained => hContained.checked h

theorem contained_iff (h : d.preprocess (.of buf) = .ok info) :
    d.Contained headerLen buf ↔ headerLen ≤ d.outLen info ∧ d.outLen info ≤ buf.length ∧
      d.deserialize info ≠ .error .outOfBounds := by
  constructor
  · intro hContained
    exact hContained.read info h
  · intro hRead
    constructor
    · rw [h]
      exact nofun
    · intro info' hInfo
      obtain rfl := Except.ok.inj (h.symm.trans hInfo)
      exact hRead

end Decoder

end Fhgfs.Wire
