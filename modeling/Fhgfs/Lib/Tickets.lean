import Mathlib.Data.List.Nodup
import Fhgfs.Lib.OrderedSet

/-!
# Queues with a register of tickets

A queue whose entries carry a ticket, and next to it the set of the tickets that are queued
(for a fast duplicate check). `Registered` says that the two agree and that no ticket is
queued twice. Appending an entry with a fresh ticket, taking one entry out and withdrawing a
class of entries keep them in agreement.
-/

namespace Fhgfs

open List OrderedSet

variable {α κ : Type} [LinearOrder κ] {ticket : α → κ}

/-- Strike the tickets of `gone` from the register, one after the other. -/
def eraseTickets (ticket : α → κ) (gone : List α) (ids : OrderedSet (id : κ → κ)) :
    OrderedSet (id : κ → κ) :=
  gone.foldl (fun ids w => ids.erase (ticket w)) ids

theorem mem_eraseTickets {gone : List α} {ids : OrderedSet (id : κ → κ)} {k : κ} :
    k ∈ eraseTickets ticket gone ids ↔ k ∈ ids ∧ ∀ w ∈ gone, ticket w ≠ k := by
  induction gone generalizing ids with
  | nil => simp [eraseTickets]
  | cons w ws ih =>
    have hstep : eraseTickets ticket (w :: ws) ids =
        eraseTickets ticket ws (ids.erase (ticket w)) := rfl
    rw [hstep, ih, mem_erase, forall_mem_cons, and_assoc]
    simp only [id, ne_comm]

theorem filter_of_none {hit : α → Bool} {ws : List α} (h : ∀ w ∈ ws, hit w = false) :
    ws.filter hit = [] ∧ ws.filter (fun w => !hit w) = ws :=
  ⟨filter_eq_nil_iff.mpr fun w hw => by simp [h w hw],
    filter_eq_self.mpr fun w hw => by simp [h w hw]⟩

/-- The register holds exactly the queued tickets, and no ticket is queued twice. -/
structure Registered (ticket : α → κ) (ids : OrderedSet (id : κ → κ)) (queue : List α) :
    Prop where
  mem_iff : ∀ k, k ∈ ids ↔ ∃ w ∈ queue, ticket w = k
  nodup : (queue.map ticket).Nodup

namespace Registered

variable {ids : OrderedSet (id : κ → κ)} {queue : List α}

theorem nil : Registered ticket empty ([] : List α) := ⟨by simp, by simp⟩

section

variable (h : Registered ticket ids queue)
include h

theorem perm {queue' : List α} (hp : queue.Perm queue') : Registered ticket ids queue' :=
  ⟨fun k => by simp only [h.mem_iff k, hp.mem_iff], (hp.map ticket).nodup_iff.mp h.nodup⟩

theorem eq_of_ticket_eq {v w : α} (hv : v ∈ queue)
    (hw : w ∈ queue) (heq : ticket v = ticket w) : v = w :=
  inj_on_of_nodup_map h.nodup hv hw heq

theorem enqueue {w : α} (hFresh : ticket w ∉ ids) :
    Registered ticket (ids.insert (ticket w)) (queue ++ [w]) := by
  constructor
  · intro k
    rw [mem_insert, h.mem_iff]
    have hfree : ∀ z ∈ ids, id z ≠ id (ticket w) := by
      rintro z hz rfl
      exact hFresh hz
    constructor
    · rintro (⟨v, hv, rfl⟩ | ⟨rfl, -⟩)
      · exact ⟨v, mem_append_left _ hv, rfl⟩
      · exact ⟨w, by simp, rfl⟩
    · rintro ⟨v, hv, rfl⟩
      rcases mem_append.mp hv with hv | hv
      · exact Or.inl ⟨v, hv, rfl⟩
      · exact Or.inr ⟨by rw [mem_singleton.mp hv], hfree⟩
  · rw [map_append, nodup_append]
    refine ⟨h.nodup, by simp, ?_⟩
    intro a ha b hb heq
    obtain ⟨v, hv, rfl⟩ := mem_map.mp ha
    simp only [map_cons, map_nil, mem_singleton] at hb
    exact hFresh ((h.mem_iff _).mpr ⟨v, hv, heq.trans hb⟩)

end

theorem remove (before : List α) {rest : List α} {w : α}
    (h : Registered ticket ids (before ++ w :: rest)) :
    Registered ticket (ids.erase (ticket w)) (before ++ rest) := by
  have hHead : Registered ticket ids (w :: (before ++ rest)) := h.perm perm_middle
  have hNot : ∀ v ∈ before ++ rest, ticket v ≠ ticket w := by
    intro v hv heq
    have hnd := hHead.nodup
    rw [map_cons, nodup_cons] at hnd
    exact hnd.1 (mem_map.mpr ⟨v, hv, heq⟩)
  constructor
  · intro k
    rw [mem_erase, hHead.mem_iff]
    simp only [exists_mem_cons_iff, id]
    constructor
    · rintro ⟨rfl | hv, hne⟩
      · exact absurd rfl hne
      · exact hv
    · rintro ⟨v, hv, rfl⟩
      exact ⟨Or.inr ⟨v, hv, rfl⟩, hNot v hv⟩
  · have hnd := hHead.nodup
    rw [map_cons, nodup_cons] at hnd
    exact hnd.2

theorem withdraw (h : Registered ticket ids queue) (p : α → Bool) :
    Registered ticket (eraseTickets ticket (queue.filter p) ids)
      (queue.filter (fun w => !p w)) := by
  constructor
  · intro k
    rw [mem_eraseTickets, h.mem_iff]
    constructor
    · rintro ⟨⟨v, hv, rfl⟩, hgone⟩
      refine ⟨v, mem_filter.mpr ⟨hv, ?_⟩, rfl⟩
      by_contra hp
      exact hgone v (mem_filter.mpr ⟨hv, by simpa using hp⟩) rfl
    · rintro ⟨v, hv, rfl⟩
      obtain ⟨hv, hp⟩ := mem_filter.mp hv
      refine ⟨⟨v, hv, rfl⟩, ?_⟩
      intro w hw heq
      obtain ⟨hw, hpw⟩ := mem_filter.mp hw
      rw [h.eq_of_ticket_eq hw hv heq] at hpw
      simp [hpw] at hp
  · exact h.nodup.sublist (filter_sublist.map ticket)

end Registered

end Fhgfs
