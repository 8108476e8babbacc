import Mathlib.Data.List.Rotate

/-!
# Walks around a ring

A walk goes through the elements of a list in their order and begins anew behind the last one.
`WalksRing.append` joins two walks, and `WalksRing.count_le` is their fairness: no element is
visited twice more often than another.
-/

namespace Fhgfs

open List

variable {α : Type} {ring walk : List α} {start k : Nat}

/-- `walk` starts at the index `start`, taken modulo the length of the ring. -/
def WalksRing (ring : List α) (start : Nat) (walk : List α) : Prop :=
  ∀ k < walk.length, walk[k]? = ring[(start + k) % ring.length]?

namespace WalksRing

theorem append {walk' : List α} (h : WalksRing ring start walk)
    (h' : WalksRing ring (start + walk.length) walk') : WalksRing ring start (walk ++ walk') := by
  intro k hk
  rw [length_append] at hk
  rcases lt_or_ge k walk.length with hLt | hGe
  · rw [getElem?_append_left hLt, h k hLt]
  · rw [getElem?_append_right hGe, h' _ (by omega), Nat.add_assoc, Nat.add_sub_cancel' hGe]

theorem congr_start {start' : Nat} (h : WalksRing ring start walk)
    (hStart : start % ring.length = start' % ring.length) : WalksRing ring start' walk := by
  intro k hk
  rw [h k hk, Nat.add_mod, hStart, ← Nat.add_mod]

section

variable (h : WalksRing ring start walk)
include h

theorem take_eq : walk.take ring.length = (ring.rotate start).take walk.length := by
  refine ext_getElem (by simp [Nat.min_comm]) fun k hk _ => ?_
  rw [length_take, Nat.lt_min] at hk
  rw [← Option.some_inj, getElem_take, getElem_take, ← getElem?_eq_getElem,
    ← getElem?_eq_getElem, h k hk.2, getElem?_rotate hk.1, Nat.add_comm]

theorem drop : WalksRing ring start (walk.drop ring.length) := by
  intro k hk
  rw [length_drop] at hk
  rw [getElem?_drop, h _ (by omega), Nat.add_left_comm, Nat.add_mod_left]

theorem nodup (hRing : ring.Nodup) (hLength : walk.length ≤ ring.length) : walk.Nodup := by
  rw [← take_of_length_le hLength, h.take_eq]
  exact (nodup_rotate.mpr hRing).sublist (take_sublist _ _)

end

/-- A walk longer than the ring begins with a full round, which visits every element once. -/
theorem count_le [DecidableEq α] (h : WalksRing ring start walk) (hRing : ring.Nodup) {a b : α}
    (hb : b ∈ ring) : walk.count a ≤ walk.count b + 1 := by
  induction hn : walk.length using Nat.strong_induction_on generalizing walk with
  | _ n ih =>
    rcases lt_or_ge ring.length walk.length with hLonger | hShort
    · have hPos := length_pos_of_mem hb
      have hRound : walk.take ring.length = ring.rotate start := by
        rw [h.take_eq, take_of_length_le (by rw [length_rotate]; omega)]
      have hOnce : (ring.rotate start).count a ≤ 1 :=
        nodup_iff_count_le_one.mp (nodup_rotate.mpr hRing) a
      have hVisited : 0 < (ring.rotate start).count b := count_pos_iff.mpr (mem_rotate.mpr hb)
      have hRest := ih _ (by rw [length_drop]; omega) h.drop rfl
      rw [← take_append_drop ring.length walk, count_append, count_append, hRound]
      omega
    · have hOnce := nodup_iff_count_le_one.mp (h.nodup hRing hShort) a
      omega

end WalksRing

end Fhgfs
