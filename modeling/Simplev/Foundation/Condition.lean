import Mathlib.Data.List.Basic

/-!
# `Foundation.Condition` — condition variables under a mutex

A waiter is asleep until it is woken, and once woken it still has to get the mutex back; in between,
other threads may enter. A waiter that a signal woke is `signalled`; one that woke without a signal is
`spurious`. A signal wakes at least one of those asleep, and may wake more.

`Covers c n` is the counting invariant behind "no lost wakeup": while somebody is still asleep, at
least `n` signalled waiters are on their way. With `n` the number of things a waiter waits for, every
operation of a monitor keeps it: what adds a thing also signals, what a signalled waiter does takes one
thing away, and a waiter goes to sleep only when there is none.
-/

namespace Foundation

universe u

/-- A condition variable: its waiters `ω` by where they are. -/
structure Condition (ω : Type u) where
  asleep : List ω
  signalled : List ω
  spurious : List ω
deriving DecidableEq, Repr

namespace Condition

variable {ω : Type u}

def new : Condition ω := ⟨[], [], []⟩

/-- Go to sleep. -/
def wait (c : Condition ω) (w : ω) : Condition ω := { c with asleep := c.asleep ++ [w] }

/-- The waiters a signal wakes: those picked, and the first one where none is picked. -/
def chosen (c : Condition ω) (picked : ω → Bool) : List ω :=
  if c.asleep.filter picked = [] then c.asleep.take 1 else c.asleep.filter picked

/-- The waiters a signal leaves asleep. -/
def left (c : Condition ω) (picked : ω → Bool) : List ω :=
  if c.asleep.filter picked = [] then c.asleep.drop 1 else c.asleep.filter (fun w => !picked w)

/-- Wake at least one waiter, if there is one. -/
def notify (c : Condition ω) (picked : ω → Bool) : Condition ω :=
  { c with asleep := c.left picked, signalled := c.signalled ++ c.chosen picked }

/-- Wake all waiters. -/
def notifyAll (c : Condition ω) : Condition ω :=
  { c with asleep := [], signalled := c.signalled ++ c.asleep }

variable [DecidableEq ω]

/-- A waiter wakes without a signal. -/
def stir (c : Condition ω) (w : ω) : Option (Condition ω) :=
  if w ∈ c.asleep then some { c with asleep := c.asleep.erase w, spurious := c.spurious ++ [w] }
  else none

/-- A woken waiter has the mutex again. -/
def resume (c : Condition ω) (w : ω) : Option (Condition ω) :=
  if w ∈ c.signalled then some { c with signalled := c.signalled.erase w }
  else if w ∈ c.spurious then some { c with spurious := c.spurious.erase w }
  else none

/-- The waiters, wherever they are. -/
def waiters (c : Condition ω) : List ω := c.asleep ++ c.signalled ++ c.spurious

/-! ## The counting invariant -/

omit [DecidableEq ω]

/-- While a waiter is asleep, at least `n` signalled ones have yet to run. -/
def Covers (c : Condition ω) (n : Nat) : Prop := c.asleep ≠ [] → n ≤ c.signalled.length

variable {c c' : Condition ω} {n m : Nat} {w : ω}

theorem Covers.mono (h : c.Covers n) (hmn : m ≤ n) : c.Covers m := by
  intro hasleep
  exact Nat.le_trans hmn (h hasleep)

theorem covers_new : (new : Condition ω).Covers n := by
  intro hasleep
  exact absurd rfl hasleep

/-- Who goes to sleep when there is nothing to wait for misses nothing. -/
theorem covers_wait : (c.wait w).Covers 0 := by
  intro _
  exact Nat.zero_le _

theorem chosen_ne_nil (hasleep : c.asleep ≠ []) (picked : ω → Bool) : c.chosen picked ≠ [] := by
  unfold chosen
  by_cases hnone : c.asleep.filter picked = []
  · rw [if_pos hnone]
    intro htake
    rw [List.take_eq_nil_iff] at htake
    exact hasleep (htake.resolve_left Nat.one_ne_zero)
  · rw [if_neg hnone]
    exact hnone

theorem asleep_of_left (picked : ω → Bool) (h : c.left picked ≠ []) : c.asleep ≠ [] := by
  intro hnil
  apply h
  unfold left
  rw [hnil]
  simp

/-- A signal covers one thing more. -/
theorem Covers.notify (h : c.Covers n) (picked : ω → Bool) : (c.notify picked).Covers (n + 1) := by
  intro hleft
  have hasleep := asleep_of_left picked hleft
  have hchosen := List.length_pos_iff.mpr (chosen_ne_nil hasleep picked)
  have hn := h hasleep
  show n + 1 ≤ (c.signalled ++ c.chosen picked).length
  rw [List.length_append]
  omega

variable [DecidableEq ω]

/-- Only a signal and a stir change who is asleep. -/
theorem asleep_resume (hres : c.resume w = some c') : c'.asleep = c.asleep := by
  unfold Condition.resume at hres
  split at hres
  · obtain rfl := Option.some.inj hres
    rfl
  · simp only [Option.ite_none_right_eq_some, Option.some.injEq] at hres
    obtain ⟨-, rfl⟩ := hres
    rfl

theorem asleep_of_stir (hstir : c.stir w = some c') : c.asleep ≠ [] := by
  simp only [Condition.stir, Option.ite_none_right_eq_some] at hstir
  exact List.ne_nil_of_mem hstir.1

theorem Covers.stir (h : c.Covers n) (hstir : c.stir w = some c') : c'.Covers n := by
  simp only [Condition.stir, Option.ite_none_right_eq_some, Option.some.injEq] at hstir
  obtain ⟨hmem, rfl⟩ := hstir
  intro _
  exact h (List.ne_nil_of_mem hmem)

/-- A waiter that runs again leaves one thing less covered, and takes one. -/
theorem Covers.resume (h : c.Covers n) (hres : c.resume w = some c') : c'.Covers (n - 1) := by
  unfold Condition.resume at hres
  split at hres
  · rename_i hmem
    obtain rfl := Option.some.inj hres
    intro hasleep
    have hn := h hasleep
    show n - 1 ≤ (c.signalled.erase w).length
    rw [List.length_erase_of_mem hmem]
    omega
  · simp only [Option.ite_none_right_eq_some, Option.some.injEq] at hres
    obtain ⟨-, rfl⟩ := hres
    exact h.mono (Nat.sub_le _ _)

/-! ## The number of waiters -/

omit [DecidableEq ω]

theorem length_waiters : c.waiters.length = c.asleep.length + c.signalled.length + c.spurious.length := by
  rw [waiters, List.length_append, List.length_append]

theorem length_waiters_wait : (c.wait w).waiters.length = c.waiters.length + 1 := by
  simp only [length_waiters, wait, List.length_append, List.length_singleton]
  omega

theorem length_left_add_chosen (picked : ω → Bool) :
    (c.left picked).length + (c.chosen picked).length = c.asleep.length := by
  unfold left chosen
  by_cases hnone : c.asleep.filter picked = []
  · rw [if_pos hnone, if_pos hnone, List.length_drop, List.length_take]
    omega
  · rw [if_neg hnone, if_neg hnone, Nat.add_comm]
    exact (List.length_eq_length_filter_add picked).symm

theorem length_waiters_notify (picked : ω → Bool) :
    (c.notify picked).waiters.length = c.waiters.length := by
  have hasleep := length_left_add_chosen (c := c) picked
  simp only [length_waiters, notify, List.length_append]
  omega

variable [DecidableEq ω]

theorem length_waiters_stir (hstir : c.stir w = some c') : c'.waiters.length = c.waiters.length := by
  simp only [Condition.stir, Option.ite_none_right_eq_some, Option.some.injEq] at hstir
  obtain ⟨hmem, rfl⟩ := hstir
  have hpos := List.length_pos_of_mem hmem
  simp only [length_waiters, List.length_erase_of_mem hmem, List.length_append, List.length_singleton]
  omega

theorem length_waiters_resume (hres : c.resume w = some c') :
    c'.waiters.length + 1 = c.waiters.length := by
  unfold Condition.resume at hres
  split at hres
  · rename_i hmem
    obtain rfl := Option.some.inj hres
    have hpos := List.length_pos_of_mem hmem
    simp only [length_waiters, List.length_erase_of_mem hmem]
    omega
  · simp only [Option.ite_none_right_eq_some, Option.some.injEq] at hres
    obtain ⟨hmem, rfl⟩ := hres
    have hpos := List.length_pos_of_mem hmem
    simp only [length_waiters, List.length_erase_of_mem hmem]
    omega

end Condition

end Foundation
