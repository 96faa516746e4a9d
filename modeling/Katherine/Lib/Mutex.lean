import Mathlib.Data.List.Basic

/-!
# A FIFO mutex

A mutex with a queue, for tasks that are resumed one at a time: `acquire` takes a free mutex
without waiting and queues otherwise, `wake` is the first in the queue finding it free, and
`abandon` is one that stops waiting.

`Mutex.Tells` is what a proof knows of a mutex: the holder and the waiters are those that the
rest of the state takes for them. There is one rule for each operation, and `Tells.eq` is
mutual exclusion.
-/

namespace Sync

/-- Who holds it, and who waits for it, in the order of arrival. -/
structure Mutex (τ : Type) where
  holder : Option τ
  waiters : List τ

namespace Mutex

variable {τ : Type} [DecidableEq τ]

def free : Mutex τ := ⟨none, []⟩

/-- Takes it, if it is free and nobody waits for it. -/
def acquire (m : Mutex τ) (t : τ) : Bool × Mutex τ :=
  match m.holder, m.waiters with
  | none, [] => (true, ⟨some t, []⟩)
  | h, ts => (false, ⟨h, ts ++ [t]⟩)

/-- `t` is the first in the queue, and the mutex free. -/
def wake (m : Mutex τ) (t : τ) : Option (Mutex τ) :=
  match m.holder, m.waiters with
  | none, t' :: ts => if t' = t then some ⟨some t, ts⟩ else none
  | _, _ => none

def release (m : Mutex τ) : Mutex τ := { m with holder := none }

/-- `t` stops waiting. -/
def abandon (m : Mutex τ) (t : τ) : Mutex τ := { m with waiters := m.waiters.filter (· ≠ t) }

omit [DecidableEq τ] in
@[simp] theorem acquire_free (t : τ) : (free : Mutex τ).acquire t = (true, ⟨some t, []⟩) := rfl

omit [DecidableEq τ] in
@[simp] theorem release_held (t : τ) : (Mutex.mk (some t) []).release = free := rfl

@[simp] theorem wake_free (t : τ) : (free : Mutex τ).wake t = none := rfl

/-! ## What a mutex tells -/

/-- Those that hold it are `holds`, and those that wait for it are `waits`. -/
structure Tells (m : Mutex τ) (holds waits : τ → Prop) : Prop where
  holder : ∀ t, m.holder = some t ↔ holds t
  waiters : ∀ t, t ∈ m.waiters ↔ waits t
  nodup : m.waiters.Nodup

namespace Tells

variable {m m' : Mutex τ} {holds waits holds' waits' : τ → Prop} {t t' : τ}

omit [DecidableEq τ] in
/-- **Mutual exclusion.** -/
theorem eq (h : m.Tells holds waits) (ht : holds t) (ht' : holds t') : t = t' :=
  Option.some.inj (((h.holder t).mpr ht).symm.trans ((h.holder t').mpr ht'))

omit [DecidableEq τ] in
theorem of_iff (h : m.Tells holds waits) (hholds : ∀ t, holds t ↔ holds' t)
    (hwaits : ∀ t, waits t ↔ waits' t) : m.Tells holds' waits' where
  holder t := (h.holder t).trans (hholds t)
  waiters t := (h.waiters t).trans (hwaits t)
  nodup := h.nodup

omit [DecidableEq τ] in
theorem free_iff : (free : Mutex τ).Tells holds waits ↔ (∀ t, ¬ holds t) ∧ ∀ t, ¬ waits t := by
  refine ⟨fun h => ⟨fun t ht => ?_, fun t ht => ?_⟩, fun h => ⟨fun t => ?_, fun t => ?_, .nil⟩⟩
  · cases (h.holder t).mpr ht
  · cases (h.waiters t).mpr ht
  · simpa [free] using h.1 t
  · simpa [free] using h.2 t

omit [DecidableEq τ] in
/-- One that neither held it nor waited for it comes. -/
theorem acquire (h : m.Tells holds waits) (hwaits : ¬ waits t) :
    (m.acquire t).2.Tells (fun x => holds x ∨ (x = t ∧ (m.acquire t).1 = true))
      (fun x => waits x ∨ (x = t ∧ (m.acquire t).1 = false)) := by
  obtain ⟨hh, hw, hnodup⟩ := h
  unfold Mutex.acquire
  split
  · rename_i hnone hnil
    simp only [hnone, hnil] at hh hw
    refine ⟨fun x => ?_, fun x => ?_, .nil⟩
    · simp [← hh x, eq_comm]
    · simp [← hw x]
  · refine ⟨fun x => ?_, fun x => ?_, ?_⟩
    · simp [hh x]
    · simp [hw x]
    · refine List.nodup_append.mpr ⟨hnodup, by simp, ?_⟩
      rintro x hx y hy rfl
      rw [List.mem_singleton] at hy
      subst hy
      exact hwaits ((hw x).mp hx)

/-- The first in the queue gets it. -/
theorem wake (h : m.Tells holds waits) (hwake : m.wake t = some m') :
    waits t ∧ m'.Tells (fun x => holds x ∨ x = t) fun x => waits x ∧ x ≠ t := by
  obtain ⟨hh, hw, hnodup⟩ := h
  unfold Mutex.wake at hwake
  split at hwake
  · rename_i t' ts hnone hcons
    split at hwake
    · rename_i ht
      subst ht
      cases hwake
      simp only [hcons, hnone] at hh hw hnodup
      obtain ⟨hnot, hnodup⟩ := List.nodup_cons.mp hnodup
      refine ⟨(hw t').mp List.mem_cons_self, fun x => ?_, fun x => ?_, hnodup⟩
      · simp [← hh x, eq_comm]
      · rw [← hw x, List.mem_cons]
        refine ⟨fun hx => ⟨.inr hx, fun hxt => hnot (hxt ▸ hx)⟩, fun ⟨hx, hne⟩ => ?_⟩
        exact hx.resolve_left hne
    · cases hwake
  · cases hwake

omit [DecidableEq τ] in
/-- The holder gives it back. -/
theorem release (h : m.Tells holds waits) (ht : holds t) :
    m.release.Tells (fun x => holds x ∧ x ≠ t) waits where
  holder x := by
    refine ⟨fun hx => (by cases hx), fun ⟨hx, hne⟩ => absurd (h.eq hx ht) hne⟩
  waiters := h.waiters
  nodup := h.nodup

/-- One that waits gives up. -/
theorem abandon (h : m.Tells holds waits) (t : τ) :
    (m.abandon t).Tells holds fun x => waits x ∧ x ≠ t where
  holder := h.holder
  waiters x := by simp [Mutex.abandon, h.waiters x]
  nodup := h.nodup.filter _

end Tells

end Mutex

end Sync
