import Mathlib.Algebra.Group.Int.Defs
import Mathlib.Algebra.Group.Nat.Defs
import Simplev.Foundation.Condition
import Simplev.Foundation.Machine

/-!
# `Base.CountDownLatch` — waiting for a number of calls (`CountDownLatch.cc`)

`wait` and `countDown` run under the mutex, so one section of either is one step, as in
`Base.BlockingQueue`: a `wait` that finds the count positive sleeps, and looks again once it has been
woken and has the mutex. `notifyAll` is called at the one step that takes the count to zero.

- **`Counted`.** The count is the initial one less the calls of `countDown`; whoever sleeps has seen it
  positive, and it still is.
- **`latch_releases`.** No `wait` returns too early, and none sleeps too long.
-/

namespace Simplev

open Foundation

structure CountDownLatch (τ : Type) where
  condition_ : Condition τ
  /-- An `int`. -/
  count_ : Int
deriving DecidableEq, Repr

namespace CountDownLatch

variable {τ : Type}

def new (count : Int) : CountDownLatch τ where
  condition_ := Condition.new
  count_ := count

/-- A section of `wait`: has it returned, and the latch it leaves. -/
def wait (l : CountDownLatch τ) (t : τ) : Bool × CountDownLatch τ :=
  if 0 < l.count_ then (false, { l with condition_ := l.condition_.wait t }) else (true, l)

def countDown (l : CountDownLatch τ) : CountDownLatch τ :=
  let count := (l.count_ - 1).bmod (2 ^ 32)
  { condition_ := if count = 0 then l.condition_.notifyAll else l.condition_
    count_ := count }

end CountDownLatch

/-- A latch, with what its callers have done. -/
structure LatchRun (τ : Type) where
  latch : CountDownLatch τ
  /-- What it was constructed with. -/
  count : Int
  /-- The calls of `countDown` that have completed. -/
  countDowns : Nat
  /-- The calls of `wait` that have returned, with `countDowns` at that time. -/
  returned : List (τ × Nat)
deriving DecidableEq, Repr

namespace LatchRun

variable {τ : Type}

def new (count : Int) : LatchRun τ := ⟨.new count, count, 0, []⟩

/-- A step of some thread `t`. -/
inductive Event (τ : Type) where
  | wait (t : τ)
  /-- `wait` goes on after its sleep. -/
  | waitAgain (t : τ)
  | countDown (t : τ)
  /-- A sleeper wakes without a signal. -/
  | stir (t : τ)
deriving DecidableEq, Repr

/-- What a section of `wait` on `latch` comes to. -/
def afterWait (s : LatchRun τ) (latch : CountDownLatch τ) (t : τ) : LatchRun τ :=
  { s with
    latch := (latch.wait t).2
    returned := if (latch.wait t).1 then s.returned ++ [(t, s.countDowns)] else s.returned }

variable [DecidableEq τ]

def step (s : LatchRun τ) : Event τ → Option (LatchRun τ)
  | .wait t =>
    -- a thread makes one call at a time
    if t ∉ s.latch.condition_.waiters then some (s.afterWait s.latch t) else none
  | .waitAgain t => do
    let condition ← s.latch.condition_.resume t
    return s.afterWait { s.latch with condition_ := condition } t
  | .countDown t =>
    if t ∉ s.latch.condition_.waiters then
      some { s with latch := s.latch.countDown, countDowns := s.countDowns + 1 }
    else none
  | .stir t => do
    let condition ← s.latch.condition_.stir t
    return { s with latch := { s.latch with condition_ := condition } }

end LatchRun

/-- All runs of a latch, on an `int` of any value. -/
def latchMachine (τ : Type) [DecidableEq τ] : Machine (LatchRun τ) (LatchRun.Event τ) where
  init s := ∃ count : Int, -2 ^ 31 ≤ count ∧ count < 2 ^ 31 ∧ s = LatchRun.new count
  step := LatchRun.step

namespace LatchRun

variable {τ : Type} [DecidableEq τ] {s s' : LatchRun τ}

/-- The count does not leave the range of an `int`. -/
def InRange (s : LatchRun τ) : Event τ → Prop
  | .countDown _ => -2 ^ 31 ≤ s.latch.count_ - 1
  | _ => True

instance (s : LatchRun τ) : (e : Event τ) → Decidable (s.InRange e)
  | .countDown _ => inferInstanceAs (Decidable (_ ≤ _))
  | .wait _ => inferInstanceAs (Decidable True)
  | .waitAgain _ => inferInstanceAs (Decidable True)
  | .stir _ => inferInstanceAs (Decidable True)

/-- **The invariant of a latch.** -/
structure Counted (s : LatchRun τ) : Prop where
  range : -2 ^ 31 ≤ s.latch.count_ ∧ s.latch.count_ < 2 ^ 31
  count : s.latch.count_ = s.count - s.countDowns
  asleep : s.latch.condition_.asleep ≠ [] → 0 < s.latch.count_
  returned : ∀ r ∈ s.returned, s.count ≤ r.2

omit [DecidableEq τ] in
theorem new_counted {count : Int} (hle : -2 ^ 31 ≤ count) (hlt : count < 2 ^ 31) :
    (new count : LatchRun τ).Counted where
  range := ⟨hle, hlt⟩
  count := (Int.sub_zero count).symm
  asleep hne := absurd rfl hne
  returned _ := by rintro ⟨⟩

omit [DecidableEq τ] in
/-- A section of `wait`, by a thread that is not asleep any more. -/
theorem Counted.wait (h : s.Counted) {condition : Condition τ}
    (hasleep : condition.asleep = s.latch.condition_.asleep) (t : τ) :
    (s.afterWait { s.latch with condition_ := condition } t).Counted := by
  unfold afterWait CountDownLatch.wait
  by_cases hpos : 0 < s.latch.count_
  · simp only [if_pos hpos, Bool.false_eq_true, if_false]
    exact ⟨h.range, h.count, fun _ => hpos, h.returned⟩
  · simp only [if_neg hpos, if_true]
    refine ⟨h.range, h.count, fun hne => h.asleep (hasleep ▸ hne), ?_⟩
    intro r hr
    rcases List.mem_append.mp hr with hr | hr
    · exact h.returned r hr
    · rw [List.mem_singleton.mp hr]
      have hcount := h.count
      show s.count ≤ s.countDowns
      omega

omit [DecidableEq τ] in
/-- **A call of `countDown`** wakes everybody at zero, and finds nobody asleep below. -/
theorem Counted.countDown (h : s.Counted) (hrange : -2 ^ 31 ≤ s.latch.count_ - 1) :
    ({ s with latch := s.latch.countDown, countDowns := s.countDowns + 1 } : LatchRun τ).Counted := by
  have hcount := h.count
  obtain ⟨hle, hlt⟩ := h.range
  have hwrap : (s.latch.count_ - 1).bmod (2 ^ 32) = s.latch.count_ - 1 :=
    Int.bmod_eq_of_le (by omega) (by omega)
  have hlatch : s.latch.countDown.count_ = s.latch.count_ - 1 := hwrap
  refine ⟨?_, ?_, ?_, h.returned⟩
  · show -2 ^ 31 ≤ s.latch.countDown.count_ ∧ s.latch.countDown.count_ < 2 ^ 31
    rw [hlatch]
    omega
  · show s.latch.countDown.count_ = s.count - (s.countDowns + 1 : Nat)
    rw [hlatch]
    omega
  · intro hne
    show 0 < s.latch.countDown.count_
    rw [hlatch]
    by_cases hzero : s.latch.count_ - 1 = 0
    · -- the step that takes the count to zero leaves nobody asleep
      have hnobody : s.latch.countDown.condition_.asleep = [] := by
        unfold CountDownLatch.countDown
        rw [hwrap]
        show (if s.latch.count_ - 1 = 0 then s.latch.condition_.notifyAll
          else s.latch.condition_).asleep = []
        rw [if_pos hzero]
        rfl
      exact absurd hnobody hne
    · have hsame : s.latch.countDown.condition_ = s.latch.condition_ := by
        unfold CountDownLatch.countDown
        rw [hwrap]
        exact if_neg hzero
      have hpos := h.asleep (hsame ▸ hne)
      omega

theorem Counted.step (h : s.Counted) {e : Event τ} (hrange : s.InRange e)
    (hstep : s.step e = some s') : s'.Counted := by
  cases e with
  | wait t =>
      simp only [LatchRun.step, Option.ite_none_right_eq_some, Option.some.injEq] at hstep
      obtain ⟨-, rfl⟩ := hstep
      exact h.wait rfl t
  | waitAgain t =>
      obtain ⟨condition, hresume, hret⟩ := Option.bind_eq_some_iff.mp hstep
      obtain rfl := Option.some.inj hret
      exact h.wait (Condition.asleep_resume hresume) t
  | countDown t =>
      simp only [LatchRun.step, Option.ite_none_right_eq_some, Option.some.injEq] at hstep
      obtain ⟨-, rfl⟩ := hstep
      exact h.countDown hrange
  | stir t =>
      obtain ⟨condition, hstir, hret⟩ := Option.bind_eq_some_iff.mp hstep
      obtain rfl := Option.some.inj hret
      exact ⟨h.range, h.count, fun _ => h.asleep (Condition.asleep_of_stir hstir), h.returned⟩

theorem reachable_counted (h : (latchMachine τ).ReachableVia InRange s) : s.Counted := by
  refine h.invariant ?_ ?_
  · rintro s ⟨count, hle, hlt, rfl⟩
    exact new_counted hle hlt
  · intro s e s' _ hs hrange hstep
    exact hs.step hrange hstep

/-- **A latch releases its waiters**, whatever it was constructed with, as long as its count stays an
    `int`: no `wait` has returned before as many calls of `countDown` completed, and from then on nobody
    is asleep, however many more there are. -/
theorem latch_releases (h : (latchMachine τ).ReachableVia InRange s) :
    (∀ r ∈ s.returned, s.count ≤ r.2) ∧
      (s.count ≤ s.countDowns → s.latch.condition_.asleep = []) := by
  have hs := reachable_counted h
  refine ⟨hs.returned, ?_⟩
  intro hdone
  by_contra hne
  have hpos := hs.asleep hne
  have hcount := hs.count
  omega

/-- Two threads wait for one call; one of them wakes too early; a call too many follows. -/
def surplus : List (Event Nat) :=
  [.wait 1, .wait 2, .stir 2, .waitAgain 2, .countDown 3, .countDown 3, .waitAgain 1, .wait 4]

theorem latch_releases_surplus :
    ∃ s, (latchMachine Nat).ReachableVia InRange s ∧ s.latch.count_ = -1 ∧
      s.returned = [(1, 2), (4, 2)] ∧ s.latch.condition_.asleep = [] := by
  have hrun : ((latchMachine Nat).run (new 1) surplus).map
      (fun s => (s.latch.count_, s.returned, s.count, s.countDowns)) =
        some (-1, [(1, 2), (4, 2)], 1, 2) := by decide +kernel
  obtain ⟨s, hs, hvalue⟩ := Option.map_eq_some_iff.mp hrun
  simp only [Prod.mk.injEq] at hvalue
  obtain ⟨hlatch, hreturned, hcount, hdowns⟩ := hvalue
  have hreach := Machine.run_reachableVia (M := latchMachine Nat) (C := InRange)
    (.init ⟨1, by decide, by decide, rfl⟩) (by decide +kernel) hs
  refine ⟨s, hreach, hlatch, hreturned, (latch_releases hreach).2 ?_⟩
  rw [hcount, hdowns]
  decide

end LatchRun

end Simplev
