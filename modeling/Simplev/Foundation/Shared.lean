import Mathlib.Logic.Basic

/-!
# `Foundation.Shared` — an object under reference counting

The control block of a `shared_ptr`: the object while there is one, and how many pointers hold it. A weak
pointer is the control block itself; `lock` makes a holder of it, or fails. `Counts n` says that the block is
what `n` holders left of it, and is kept when one of them copies, locks, writes or goes.
-/

namespace Foundation

universe u

structure Shared (α : Type u) where
  object : Option α
  strong : Nat
  /-- How often the object was deleted. -/
  deletions : Nat
deriving DecidableEq, Repr

namespace Shared

variable {α : Type u} {p q : Shared α} {n : Nat}

/-- A new object, and the pointer that holds it. -/
def make (a : α) : Shared α := ⟨some a, 1, 0⟩

/-- `weak_ptr::lock`. -/
def lock (p : Shared α) : Option (Shared α) :=
  if p.strong = 0 then none else some { p with strong := p.strong + 1 }

/-- A holder goes. -/
def release (p : Shared α) : Shared α :=
  if p.strong = 1 then ⟨none, 0, p.deletions + 1⟩ else { p with strong := p.strong - 1 }

/-- A holder writes to the object. -/
def write (p : Shared α) (a : α) : Shared α := { p with object := p.object.map fun _ => a }

/-- **The block of `n` holders**: the object exists as long as there is one, and was deleted when the last
    one went. -/
structure Counts (p : Shared α) (n : Nat) : Prop where
  strong : p.strong = n
  object : p.object.isSome = true ↔ 0 < n
  deletions : p.deletions = if n = 0 then 1 else 0

theorem counts_make (a : α) : (make a).Counts 1 where
  strong := rfl
  object := by simp [make]
  deletions := rfl

theorem Counts.lock (h : p.Counts n) (hlock : p.lock = some q) :
    0 < n ∧ q.Counts (n + 1) ∧ q.object = p.object := by
  unfold Shared.lock at hlock
  rw [Option.ite_none_left_eq_some, Option.some.injEq, h.strong] at hlock
  obtain ⟨hpos, rfl⟩ := hlock
  have hpos := Nat.pos_of_ne_zero hpos
  refine ⟨hpos, ⟨rfl, ?_, ?_⟩, rfl⟩
  · exact iff_of_true (h.object.mpr hpos) (Nat.succ_pos n)
  · rw [if_neg (Nat.succ_ne_zero n)]
    exact h.deletions.trans (if_neg (Nat.pos_iff_ne_zero.mp hpos))

/-- A weak pointer finds its object as long as somebody holds it. -/
theorem Counts.lock_eq_none (h : p.Counts n) : p.lock = none ↔ n = 0 := by
  unfold Shared.lock
  rw [h.strong]
  by_cases hn : n = 0
  · simp [hn]
  · simp [hn]

theorem Counts.release (h : p.Counts (n + 1)) : p.release.Counts n := by
  unfold Shared.release
  rw [h.strong]
  by_cases hn : n = 0
  · subst hn
    rw [if_pos rfl]
    refine ⟨rfl, by simp, ?_⟩
    rw [if_pos rfl, h.deletions, if_neg (Nat.succ_ne_zero 0)]
  · rw [if_neg fun heq => hn (Nat.succ.inj heq)]
    have hobject := h.object.mpr (Nat.succ_pos n)
    refine ⟨rfl, iff_of_true hobject (Nat.pos_of_ne_zero hn), ?_⟩
    rw [if_neg hn]
    exact h.deletions.trans (if_neg (Nat.succ_ne_zero n))

/-- The others see the object as it was. -/
theorem Counts.release_object (h : p.Counts (n + 1)) (hn : 0 < n) : p.release.object = p.object := by
  unfold Shared.release
  rw [h.strong, if_neg]
  exact fun heq => Nat.ne_of_gt hn (Nat.succ.inj heq)

theorem Counts.write (h : p.Counts n) (a : α) : (p.write a).Counts n := by
  refine ⟨h.strong, ?_, h.deletions⟩
  show (p.object.map fun _ => a).isSome = true ↔ 0 < n
  rw [Option.isSome_map]
  exact h.object

/-- What a holder has written is there. -/
theorem Counts.write_object (h : p.Counts n) (hn : 0 < n) (a : α) : (p.write a).object = some a := by
  obtain ⟨b, hb⟩ := Option.isSome_iff_exists.mp (h.object.mpr hn)
  show (p.object.map fun _ => a) = some a
  rw [hb]
  rfl

end Shared

end Foundation
