import Mathlib.Data.UInt

/-!
# Encodings with holes, and their readers

A writer that leaves bytes of its buffer as they were produces a list of optional bytes. A reader
works on the memory from a pointer on, and is told how long it is. It fails when it rejects what
it reads, and also when it reads past the memory.

* `Reads r bytes v`: in any memory that starts with `bytes`, the reader `r` gives `v` and stops
  behind them.
* `Reads.bind`, `Reads.pure`: readers in sequence read their encodings in sequence.
* `readLe_leBytes`: little-endian numbers.
-/

namespace Fhgfs.Wire

open List

/-- The bytes of an encoding. The holes are not written. -/
abbrev Encoding := List (Option UInt8)

/-- How a reader ends without a value. -/
inductive ReadError
  | rejected
  | outOfBounds
deriving DecidableEq

/-- The memory from a pointer on, and the length that the reader is told. -/
structure Cursor where
  mem : List UInt8
  bufLen : Nat
deriving DecidableEq

/-- Move the pointer. The length is a `size_t` that can wrap. -/
def Cursor.advance (n : Nat) (c : Cursor) : Cursor where
  mem := c.mem.drop n
  bufLen := if n ≤ c.bufLen then c.bufLen - n else c.bufLen + 2 ^ 64 - n

abbrev Reader (α : Type) := StateT Cursor (Except ReadError) α

def reject {α : Type} : Reader α := fun _ => .error .rejected

def ensure (b : Bool) : Reader Unit := if b then pure () else reject

def skip (n : Nat) : Reader Unit := fun c => .ok ((), c.advance n)

theorem bind_eq_ok {α β : Type} {r : Reader α} {f : α → Reader β} {c : Cursor} {res : β × Cursor}
    (h : (r >>= f) c = .ok res) : ∃ v c', r c = .ok (v, c') ∧ f v c' = .ok res := by
  change (r c >>= fun p => f p.1 p.2) = .ok res at h
  cases hFirst : r c with
  | error e =>
    rw [hFirst] at h
    cases h
  | ok p =>
    rw [hFirst] at h
    exact ⟨p.1, p.2, rfl, h⟩

theorem ensure_eq_ok {b : Bool} {c : Cursor} {res : Unit × Cursor} (h : ensure b c = .ok res) :
    b = true := by
  unfold ensure at h
  split at h
  · assumption
  · cases h

/-! ## Little-endian numbers -/

def leBytes : Nat → Nat → List UInt8
  | 0, _ => []
  | width + 1, v => UInt8.ofNat v :: leBytes width (v / 256)

def ofLeBytes : List UInt8 → Nat
  | [] => 0
  | b :: bs => b.toNat + 256 * ofLeBytes bs

@[simp] theorem length_leBytes (width v : Nat) : (leBytes width v).length = width := by
  induction width generalizing v with
  | zero => rfl
  | succ width ih => rw [leBytes, length_cons, ih]

theorem ofLeBytes_leBytes {width v : Nat} (h : v < 256 ^ width) :
    ofLeBytes (leBytes width v) = v := by
  induction width generalizing v with
  | zero =>
    rw [pow_zero] at h
    exact (Nat.lt_one_iff.mp h).symm
  | succ width ih =>
    rw [leBytes, ofLeBytes, ih (Nat.div_lt_of_lt_mul (by rwa [Nat.pow_succ'] at h))]
    have hByte : (UInt8.ofNat v).toNat = v % 256 := UInt8.toNat_ofNat'
    rw [hByte]
    exact Nat.mod_add_div v 256

/-- A number of `width` bytes, after a check of the length. -/
def readLe (width : Nat) : Reader Nat := fun c =>
  if c.bufLen < width then .error .rejected
  else if c.mem.length < width then .error .outOfBounds
  else .ok (ofLeBytes (c.mem.take width), c.advance width)

/-! ## Readers of encodings -/

/-- The memory has the bytes of the encoding, and anything in its holes. -/
def Fills (bytes : Encoding) (mem : List UInt8) : Prop :=
  List.Forall₂ (fun b m => ∀ x, b = some x → m = x) bytes mem

variable {mem : List UInt8}

theorem Fills.length_eq {bytes : Encoding} (h : Fills bytes mem) :
    mem.length = bytes.length := (List.Forall₂.length_eq h).symm

theorem fills_map_some {bytes mem : List UInt8} : Fills (bytes.map some) mem ↔ mem = bytes := by
  unfold Fills
  rw [forall₂_map_left_iff]
  constructor
  · intro h
    induction h with
    | nil => rfl
    | cons hHead _ ih => rw [hHead _ rfl, ih]
  · rintro rfl
    induction mem with
    | nil => exact .nil
    | cons b bs ih =>
      refine .cons (fun x hx => ?_) ih
      exact Option.some.inj hx

/-- The memory after an encoding was written over it. -/
def fill (holes : Nat → UInt8) (bytes : Encoding) : List UInt8 :=
  bytes.mapIdx (fun i b => b.getD (holes i))

theorem length_fill (holes : Nat → UInt8) (bytes : Encoding) :
    (fill holes bytes).length = bytes.length := length_mapIdx

theorem fills_fill (holes : Nat → UInt8) (bytes : Encoding) : Fills bytes (fill holes bytes) := by
  unfold Fills fill
  rw [forall₂_iff_get]
  refine ⟨(length_fill holes bytes).symm, ?_⟩
  intro i hi hi' x hx
  rw [get_eq_getElem] at hx ⊢
  rw [getElem_mapIdx, hx]
  rfl

theorem fills_append {bytes bytes' : Encoding} (h : Fills (bytes ++ bytes') mem) :
    ∃ front back, mem = front ++ back ∧ Fills bytes front ∧ Fills bytes' back := by
  refine ⟨mem.take bytes.length, mem.drop bytes.length, (take_append_drop _ _).symm, ?_, ?_⟩
  · have hTake := forall₂_take bytes.length h
    rwa [take_left] at hTake
  · have hDrop := forall₂_drop bytes.length h
    rwa [drop_left] at hDrop

/-- The reader gives `v` for the encoding, and stops behind it. -/
def Reads {α : Type} (r : Reader α) (bytes : Encoding) (v : α) : Prop :=
  ∀ (mem rest : List UInt8) (bufLen : Nat), Fills bytes mem → mem.length ≤ bufLen →
    r ⟨mem ++ rest, bufLen⟩ = .ok (v, ⟨rest, bufLen - mem.length⟩)

theorem advance_append {bufLen : Nat} (rest : List UInt8) (h : mem.length ≤ bufLen) :
    Cursor.advance mem.length ⟨mem ++ rest, bufLen⟩ = ⟨rest, bufLen - mem.length⟩ := by
  unfold Cursor.advance
  rw [if_pos h, drop_left]

namespace Reads

variable {α β : Type} {r : Reader α} {f : α → Reader β} {bytes bytes' : Encoding} {v : α} {w : β}

theorem pure (v : α) : Reads (pure v) [] v := by
  intro mem rest bufLen hFills _
  cases hFills
  rfl

theorem of_eq {v' : α} (h : Reads r bytes v') (hEq : v' = v) : Reads r bytes v := hEq ▸ h

theorem bind (h : Reads r bytes v) (h' : Reads (f v) bytes' w) :
    Reads (r >>= f) (bytes ++ bytes') w := by
  intro mem rest bufLen hFills hLen
  obtain ⟨front, back, rfl, hFront, hBack⟩ := fills_append hFills
  rw [length_append] at hLen ⊢
  have hFirst := h front (back ++ rest) bufLen hFront (by omega)
  have hSecond := h' back rest (bufLen - front.length) hBack (by omega)
  rw [← append_assoc] at hFirst
  show (r ⟨front ++ back ++ rest, bufLen⟩ >>= fun p => f p.1 p.2) = _
  rw [hFirst]
  show f v ⟨back ++ rest, bufLen - front.length⟩ = _
  rw [hSecond, Nat.sub_sub]

theorem bind_of_nil (h : Reads r bytes v) (h' : Reads (f v) [] w) : Reads (r >>= f) bytes w := by
  have hBind := h.bind h'
  rwa [append_nil] at hBind

theorem map (h : Reads r bytes v) (g : α → β) : Reads (g <$> r) bytes (g v) := by
  rw [← bind_pure_comp]
  exact h.bind_of_nil (.pure (g v))

theorem ensure {b : Bool} (h : b = true) : Reads (ensure b) [] () := by
  rw [Wire.ensure, if_pos h]
  exact .pure ()

theorem skip (n : Nat) : Reads (skip n) (replicate n none) () := by
  intro mem rest bufLen hFills hLen
  have hLength : mem.length = n := by rw [hFills.length_eq, length_replicate]
  subst hLength
  show Except.ok _ = _
  rw [advance_append rest hLen]

theorem skip_of_length {n : Nat} (h : bytes.length = n) : Reads (Wire.skip n) bytes () := by
  intro mem rest bufLen hFills hLen
  have hLength : mem.length = n := by rw [hFills.length_eq, h]
  subst hLength
  show Except.ok _ = _
  rw [advance_append rest hLen]

theorem readLe_leBytes (width : Nat) {n : Nat} (h : n < 256 ^ width) :
    Reads (readLe width) ((leBytes width n).map some) n := by
  intro mem rest bufLen hFills hLen
  obtain rfl := fills_map_some.mp hFills
  rw [length_leBytes] at hLen
  have hAdvance := advance_append rest
    (by rwa [length_leBytes] : (leBytes width n).length ≤ bufLen)
  have hTake : (leBytes width n ++ rest).take width = leBytes width n :=
    take_left' (length_leBytes width n)
  rw [length_leBytes] at hAdvance
  unfold readLe
  rw [if_neg (not_lt.mpr hLen), if_neg (by simp), hAdvance, hTake, ofLeBytes_leBytes h,
    length_leBytes]

end Reads

end Fhgfs.Wire

/-!
## Writers that return a length of 32 bits

A function that writes into a buffer returns how much of it is used, as an `unsigned`. Its caller
goes on writing at that place, so that a length that does not fit lets the next value overwrite
the one before.

`Plain w bytes`: what was written are the bytes one after the other, as long as there are less
than 2^32 of them. If there are more, at least 2^32 bytes of the buffer were touched, while the
returned length is less. `length_eq_iff` says when the announced length is what was written.
-/

namespace Fhgfs.Wire

/-- `back` is written into the buffer from a position on. -/
def overlay (front : Encoding) (pos : Nat) (back : Encoding) : Encoding :=
  front.take pos ++ (back ++ front.drop (pos + back.length))

theorem overlay_length (front back : Encoding) :
    overlay front front.length back = front ++ back := by
  simp [overlay]

theorem length_le_overlay (front : Encoding) (pos : Nat) (back : Encoding) :
    front.length ≤ (overlay front pos back).length ∧
      back.length ≤ (overlay front pos back).length := by
  simp only [overlay, List.length_append, List.length_take, List.length_drop]
  omega

/-- The buffer, and the length that is returned. -/
structure Written where
  bytes : Encoding
  used : Nat
deriving DecidableEq

namespace Written

def of (bytes : Encoding) : Written := ⟨bytes, bytes.length⟩

def andThen (w w' : Written) : Written := ⟨overlay w.bytes w.used w'.bytes, w.used + w'.used⟩

def all (ws : List Written) : Written := ws.foldl andThen (of [])

/-- The announced length is what was written, and what is returned. -/
structure Announced (w : Written) (len : Nat) : Prop where
  bytes : w.bytes.length = len
  used : w.used = len

/-- A loop that writes one element after the other. -/
def loop {α : Type} (w : Written) (xs : List α) (f : α → Written) : Written :=
  xs.foldl (fun w x => w.andThen (f x)) w

/-- The end of a function that returns the position in the buffer. -/
def asUnsigned (w : Written) : Written := { w with used := w.used % 2 ^ 32 }

/-- The position is moved to a multiple of `n`, over bytes that are not written. -/
def alignTo (n : Nat) (w : Written) : Written :=
  let used := w.used + (if w.used % n ≠ 0 then n - w.used % n else 0)
  ⟨w.bytes ++ List.replicate (used - w.bytes.length) none, used⟩

/-! ## Writers whose length is what they have written -/

theorem of_andThen_of (bytes bytes' : Encoding) :
    (of bytes).andThen (of bytes') = of (bytes ++ bytes') := by
  rw [andThen, of, of, of, overlay_length, List.length_append]

theorem all_of (encodings : List Encoding) : all (encodings.map of) = of encodings.flatten := by
  have hFold : ∀ bytes, (encodings.map of).foldl andThen (of bytes) =
      of (bytes ++ encodings.flatten) := by
    induction encodings with
    | nil =>
      intro bytes
      simp
    | cons head encodings ih =>
      intro bytes
      rw [List.map_cons, List.foldl_cons, of_andThen_of, ih, List.flatten_cons, List.append_assoc]
  exact hFold []

theorem loop_of {α : Type} {f : α → Written} {g : α → Encoding} {xs : List α}
    (h : ∀ x ∈ xs, f x = of (g x)) (bytes : Encoding) :
    (of bytes).loop xs f = of (bytes ++ xs.flatMap g) := by
  induction xs generalizing bytes with
  | nil => simp [loop]
  | cons x xs ih =>
    rw [loop, List.foldl_cons, h x List.mem_cons_self, of_andThen_of, List.flatMap_cons,
      ← List.append_assoc]
    exact ih (fun y hy => h y (List.mem_cons_of_mem _ hy)) _

theorem asUnsigned_of {bytes : Encoding} (h : bytes.length < 2 ^ 32) :
    (of bytes).asUnsigned = of bytes := by
  rw [asUnsigned, of, Nat.mod_eq_of_lt h]

theorem alignTo_of (n : Nat) (bytes : Encoding) :
    (of bytes).alignTo n = of (bytes ++ List.replicate
      (if bytes.length % n ≠ 0 then n - bytes.length % n else 0) none) := by
  rw [alignTo, of, of]
  rw [Nat.add_sub_cancel_left, List.length_append, List.length_replicate]

/-! ## Writers that are wrong only for 2^32 bytes -/

structure Plain (w : Written) (bytes : Encoding) : Prop where
  fits : bytes.length < 2 ^ 32 → w.bytes = bytes ∧ w.used = bytes.length
  tooLong : 2 ^ 32 ≤ bytes.length → 2 ^ 32 ≤ w.bytes.length

namespace Plain

variable {w w' : Written} {bytes bytes' : Encoding}

theorem of (bytes : Encoding) : Plain (Written.of bytes) bytes := ⟨fun _ => ⟨rfl, rfl⟩, id⟩

theorem andThen (h : Plain w bytes) (h' : Plain w' bytes') :
    Plain (w.andThen w') (bytes ++ bytes') := by
  have hLe := length_le_overlay w.bytes w.used w'.bytes
  constructor
  · intro hFits
    rw [List.length_append] at hFits ⊢
    obtain ⟨hBytes, hUsed⟩ := h.fits (by omega)
    obtain ⟨hBytes', hUsed'⟩ := h'.fits (by omega)
    refine ⟨?_, ?_⟩
    · rw [Written.andThen, hBytes, hUsed, hBytes', overlay_length]
    · rw [Written.andThen, hUsed, hUsed']
  · intro hLong
    show 2 ^ 32 ≤ (overlay w.bytes w.used w'.bytes).length
    rw [List.length_append] at hLong
    by_cases hFirst : 2 ^ 32 ≤ bytes.length
    · exact le_trans (h.tooLong hFirst) hLe.1
    by_cases hSecond : 2 ^ 32 ≤ bytes'.length
    · exact le_trans (h'.tooLong hSecond) hLe.2
    obtain ⟨hBytes, hUsed⟩ := h.fits (by omega)
    have hBytes' := (h'.fits (by omega)).1
    rwa [hBytes, hUsed, hBytes', overlay_length, List.length_append]

theorem asUnsigned (h : Plain w bytes) : Plain w.asUnsigned bytes := by
  refine ⟨fun hFits => ?_, h.tooLong⟩
  obtain ⟨hBytes, hUsed⟩ := h.fits hFits
  refine ⟨hBytes, ?_⟩
  rw [Written.asUnsigned, hUsed, Nat.mod_eq_of_lt hFits]

theorem loop {α : Type} {f : α → Written} {g : α → Encoding} {xs : List α} (h : Plain w bytes)
    (hElems : ∀ x ∈ xs, Plain (f x) (g x)) :
    Plain (w.loop xs f) (bytes ++ xs.flatMap g) := by
  induction xs generalizing w bytes with
  | nil => simpa [Written.loop] using h
  | cons x xs ih =>
    rw [Written.loop, List.foldl_cons, List.flatMap_cons, ← List.append_assoc]
    exact ih (h.andThen (hElems x List.mem_cons_self)) fun y hy =>
      hElems y (List.mem_cons_of_mem _ hy)

theorem all {ws : List Written} {encodings : List Encoding}
    (h : List.Forall₂ Plain ws encodings) : Plain (Written.all ws) encodings.flatten := by
  have hFold : ∀ {w bytes}, Plain w bytes →
      Plain (ws.foldl Written.andThen w) (bytes ++ encodings.flatten) := by
    induction h with
    | nil =>
      intro w bytes hw
      simpa using hw
    | cons hHead _ ih =>
      intro w bytes hw
      rw [List.foldl_cons, List.flatten_cons, ← List.append_assoc]
      exact ih (hw.andThen hHead)
  exact hFold (of [])

theorem patch {front mid mid' back : Encoding} (h : Plain w front)
    (h' : Plain w' (front ++ (mid ++ back))) (hLen : mid'.length = mid.length) :
    Plain ⟨overlay w'.bytes (w.used % 2 ^ 32) mid', w'.used⟩ (front ++ (mid' ++ back)) := by
  have hTotal : (front ++ (mid' ++ back)).length = (front ++ (mid ++ back)).length := by
    simp only [List.length_append, hLen]
  constructor
  · intro hFits
    rw [hTotal] at hFits
    obtain ⟨hBytes', hUsed'⟩ := h'.fits hFits
    rw [List.length_append] at hFits
    have hUsed := (h.fits (by omega)).2
    refine ⟨?_, hUsed'.trans hTotal.symm⟩
    rw [hBytes', hUsed, Nat.mod_eq_of_lt (by omega), overlay, List.take_left, hLen,
      ← List.drop_drop, List.drop_left, List.drop_left]
  · intro hLong
    rw [hTotal] at hLong
    exact le_trans (h'.tooLong hLong) (length_le_overlay _ _ _).1

theorem length_eq_iff (h : Plain w bytes) :
    w.bytes.length = bytes.length % 2 ^ 32 ↔ bytes.length < 2 ^ 32 := by
  constructor
  · intro hEq
    by_contra hLong
    have hTouched := h.tooLong (by omega)
    omega
  · intro hFits
    rw [(h.fits hFits).1, Nat.mod_eq_of_lt hFits]

theorem announced (h : Plain w bytes) (hFits : bytes.length < 2 ^ 32) :
    w.Announced (bytes.length % 2 ^ 32) := by
  obtain ⟨hBytes, hUsed⟩ := h.fits hFits
  rw [Nat.mod_eq_of_lt hFits]
  exact ⟨by rw [hBytes], hUsed⟩

end Plain

end Written

/-! ## Values that are read back -/

/-- The value `v` is written as `bytes`, with the length that is announced, and read back. -/
structure Coded {α : Type} (w : Written) (len : Nat) (r : Reader α) (bytes : Encoding) (v : α) :
    Prop where
  written : w = .of bytes
  announced : len = bytes.length
  reads : Reads r bytes v

end Fhgfs.Wire
