import Simplev.Foundation.Condition
import Simplev.Foundation.Machine
import Simplev.Foundation.Outcome

/-!
# `Base.BlockingQueue` — the two blocking queues (`BoundedBlockingQueue.h`, `BlockingQueue.h`)

`put` and `take` run under the mutex from the moment they have it until they return or wait, so one
such section is one step. A section that finds the queue full (or empty) puts its thread to sleep on
the condition; when the thread has been woken and has the mutex again, it runs the section anew: that
is the `while` loop.

- `boundedMachine` and `blockingMachine` run any number of threads. A step says which thread enters or
  goes on, and which sleepers a signal wakes; any thread may enter before a woken one, and a sleeper
  may wake without a signal.
- The invariant is `Foundation.Condition.Covers` for each condition, with the number of elements for
  `notEmpty_` and the number of free places for `notFull_`, and one equation between the elements put,
  taken and still in the queue.
-/

namespace Simplev

open Foundation

/-- `boost::circular_buffer<T>`: when it is full, `push_back` overwrites the oldest element. -/
structure CircularBuffer (T : Type) where
  capacity : Nat
  items : List T
deriving DecidableEq, Repr

namespace CircularBuffer

variable {T : Type}

def size (b : CircularBuffer T) : Nat := b.items.length

def full (b : CircularBuffer T) : Bool := b.size = b.capacity

def empty (b : CircularBuffer T) : Bool := b.items.isEmpty

def push_back (b : CircularBuffer T) (x : T) : CircularBuffer T :=
  if b.capacity = 0 then b
  else if b.full then { b with items := b.items.tail ++ [x] }
  else { b with items := b.items ++ [x] }

def pop_front (b : CircularBuffer T) : CircularBuffer T := { b with items := b.items.tail }

end CircularBuffer

/-- A producer that waits, with the element its `put` was called with. -/
abbrev Producer (τ : Type) (T : Type) := τ × T

structure BoundedBlockingQueue (τ : Type) (T : Type) where
  notEmpty_ : Condition τ
  notFull_ : Condition (Producer τ T)
  queue_ : CircularBuffer T

structure BlockingQueue (τ : Type) (T : Type) where
  notEmpty_ : Condition τ
  queue_ : List T

/-- A step of some thread `t`. `picked` are the sleepers that its signal is to wake. -/
inductive QueueEvent (τ : Type) (T : Type) where
  /-- `put(x)` is called. -/
  | put (t : τ) (x : T) (picked : List τ)
  /-- `put(x)` goes on after its wait. -/
  | putAgain (t : τ) (x : T) (picked : List τ)
  | take (t : τ) (picked : List τ)
  | takeAgain (t : τ) (picked : List τ)
  /-- A sleeper on `notFull_` wakes without a signal. -/
  | stirProducer (t : τ) (x : T)
  | stirConsumer (t : τ)
deriving DecidableEq, Repr

/-- A queue with the elements put into it and taken from it, in order. -/
structure Exchange (Q : Type) (T : Type) where
  queue : Q
  puts : List T
  taken : List T
  failed : List String

variable {τ T : Type} [DecidableEq τ] [DecidableEq T]

/-- What one section of `put` does to an exchange. -/
def Exchange.afterPut {Q : Type} (s : Exchange Q T) (x : T) :
    Outcome (Bool × Q) → Option (Exchange Q T)
  | .ok (returned, queue) fs =>
    some { s with
      queue := queue
      puts := if returned then s.puts ++ [x] else s.puts
      failed := s.failed ++ fs }
  | .thrown _ => none

/-- What one section of `take` does to an exchange. -/
def Exchange.afterTake {Q : Type} (s : Exchange Q T) :
    Outcome (Option T × Q) → Option (Exchange Q T)
  | .ok (front, queue) fs =>
    some { s with queue := queue, taken := s.taken ++ front.toList, failed := s.failed ++ fs }
  | .thrown _ => none

/-! ## `BoundedBlockingQueue` -/

namespace BoundedBlockingQueue

def new (maxSize : Nat) : BoundedBlockingQueue τ T where
  notEmpty_ := Condition.new
  notFull_ := Condition.new
  queue_ := ⟨maxSize, []⟩

/-- A section of `put`: has it returned, and the queue it leaves. -/
def put (q : BoundedBlockingQueue τ T) (t : τ) (x : T) (picked : List τ) :
    Outcome (Bool × BoundedBlockingQueue τ T) :=
  if q.queue_.full then
    return (false, { q with notFull_ := q.notFull_.wait (t, x) })
  else do
    Outcome.assert (!q.queue_.full) "!queue_.full()"
    return (true, { q with
      queue_ := q.queue_.push_back x
      notEmpty_ := q.notEmpty_.notify fun w => w ∈ picked })

/-- A section of `take`: the element it returns, if it does, and the queue it leaves. -/
def take (q : BoundedBlockingQueue τ T) (t : τ) (picked : List τ) :
    Outcome (Option T × BoundedBlockingQueue τ T) :=
  if q.queue_.empty then
    return (none, { q with notEmpty_ := q.notEmpty_.wait t })
  else do
    Outcome.assert (!q.queue_.empty) "!queue_.empty()"
    let front := q.queue_.items.head?
    return (front, { q with
      queue_ := q.queue_.pop_front
      notFull_ := q.notFull_.notify fun w => w.1 ∈ picked })

/-- The thread is not in a `put` or a `take` already. -/
def Free (q : BoundedBlockingQueue τ T) (t : τ) : Prop :=
  t ∉ q.notEmpty_.waiters ∧ ∀ w ∈ q.notFull_.waiters, w.1 ≠ t

instance (q : BoundedBlockingQueue τ T) (t : τ) : Decidable (q.Free t) :=
  inferInstanceAs (Decidable (_ ∧ _))

/-- One step of some thread. -/
def step (s : Exchange (BoundedBlockingQueue τ T) T) :
    QueueEvent τ T → Option (Exchange (BoundedBlockingQueue τ T) T)
  | .put t x picked =>
    if s.queue.Free t then s.afterPut x (s.queue.put t x picked) else none
  | .putAgain t x picked => do
    let notFull ← s.queue.notFull_.resume (t, x)
    s.afterPut x ({ s.queue with notFull_ := notFull }.put t x picked)
  | .take t picked =>
    if s.queue.Free t then s.afterTake (s.queue.take t picked) else none
  | .takeAgain t picked => do
    let notEmpty ← s.queue.notEmpty_.resume t
    s.afterTake ({ s.queue with notEmpty_ := notEmpty }.take t picked)
  | .stirProducer t x => do
    let notFull ← s.queue.notFull_.stir (t, x)
    return { s with queue := { s.queue with notFull_ := notFull } }
  | .stirConsumer t => do
    let notEmpty ← s.queue.notEmpty_.stir t
    return { s with queue := { s.queue with notEmpty_ := notEmpty } }

end BoundedBlockingQueue

/-- All runs of a bounded queue. -/
def boundedMachine (τ T : Type) [DecidableEq τ] [DecidableEq T] (maxSize : Nat) :
    Machine (Exchange (BoundedBlockingQueue τ T) T) (QueueEvent τ T) where
  init s := s = ⟨.new maxSize, [], [], []⟩
  step := BoundedBlockingQueue.step

namespace BoundedBlockingQueue

/-! ## The invariant of a bounded queue -/

/-- **The invariant of a bounded queue**, of the exchange `s`. -/
structure Kept (maxSize : Nat) (s : Exchange (BoundedBlockingQueue τ T) T) : Prop where
  capacity : s.queue.queue_.capacity = maxSize
  size_le : s.queue.queue_.size ≤ maxSize
  puts : s.puts = s.taken ++ s.queue.queue_.items
  notEmpty : s.queue.notEmpty_.Covers s.queue.queue_.size
  notFull : s.queue.notFull_.Covers (maxSize - s.queue.queue_.size)
  failed : s.failed = []

variable {maxSize : Nat} {s s' : Exchange (BoundedBlockingQueue τ T) T}

omit [DecidableEq τ] [DecidableEq T] in
theorem new_kept : Kept maxSize (⟨.new maxSize, [], [], []⟩ : Exchange (BoundedBlockingQueue τ T) T) where
  capacity := rfl
  size_le := Nat.zero_le _
  puts := rfl
  notEmpty := Condition.covers_new
  notFull := Condition.covers_new
  failed := rfl

omit [DecidableEq T] in
/-- A section of `put` keeps the invariant, once `notFull_` covers the free places but one. -/
theorem Kept.put (h : Kept maxSize s) {notFull : Condition (Producer τ T)}
    (hnotFull : notFull.Covers (maxSize - s.queue.queue_.size - 1)) {t : τ} {x : T} {picked : List τ}
    (hput : s.afterPut x ({ s.queue with notFull_ := notFull }.put t x picked) = some s') :
    Kept maxSize s' := by
  unfold BoundedBlockingQueue.put at hput
  by_cases hfull : s.queue.queue_.full = true
  · -- it waits: there is no free place
    rw [if_pos hfull] at hput
    simp only [Outcome.pure_eq, Exchange.afterPut, Option.some.injEq] at hput
    subst hput
    have hnone : maxSize - s.queue.queue_.size = 0 := by
      have hcap := of_decide_eq_true hfull
      rw [hcap, h.capacity, Nat.sub_self]
    refine ⟨h.capacity, h.size_le, ?_, h.notEmpty, ?_, ?_⟩
    · simpa using h.puts
    · show (notFull.wait (t, x)).Covers (maxSize - s.queue.queue_.size)
      rw [hnone]
      exact Condition.covers_wait
    · simpa using h.failed
  · -- it puts the element in and signals: one element more, one free place less
    have hroom : s.queue.queue_.size < maxSize := by
      have hne : s.queue.queue_.size ≠ s.queue.queue_.capacity := fun he => hfull (decide_eq_true he)
      have hle := h.size_le
      rw [h.capacity] at hne
      omega
    have hcap : s.queue.queue_.capacity ≠ 0 := by
      rw [h.capacity]
      omega
    have hnot : (!s.queue.queue_.full) = true := by simpa using hfull
    have hpush : s.queue.queue_.push_back x =
        { s.queue.queue_ with items := s.queue.queue_.items ++ [x] } := by
      rw [CircularBuffer.push_back, if_neg hcap, if_neg hfull]
    rw [if_neg hfull] at hput
    simp only [Outcome.assert_true hnot, Outcome.ok_nil_bind, Outcome.pure_eq, Exchange.afterPut,
      Option.some.injEq, hpush] at hput
    subst hput
    have hsize : (⟨s.queue.queue_.capacity, s.queue.queue_.items ++ [x]⟩ : CircularBuffer T).size =
        s.queue.queue_.size + 1 := List.length_append
    refine ⟨h.capacity, ?_, ?_, ?_, ?_, ?_⟩
    · rw [hsize]
      exact hroom
    · simp only [if_true, h.puts, List.append_assoc]
    · rw [hsize]
      exact h.notEmpty.notify _
    · rw [hsize, Nat.sub_add_eq]
      exact hnotFull
    · simpa using h.failed

omit [DecidableEq T] in
/-- A section of `take` keeps the invariant, once `notEmpty_` covers the elements but one. -/
theorem Kept.take (h : Kept maxSize s) {notEmpty : Condition τ}
    (hnotEmpty : notEmpty.Covers (s.queue.queue_.size - 1)) {t : τ} {picked : List τ}
    (htake : s.afterTake ({ s.queue with notEmpty_ := notEmpty }.take t picked) = some s') :
    Kept maxSize s' := by
  unfold BoundedBlockingQueue.take at htake
  have hputs := h.puts
  have hle := h.size_le
  cases hitems : s.queue.queue_.items with
  | nil =>
      have hempty : s.queue.queue_.empty = true := by rw [CircularBuffer.empty, hitems]; rfl
      have hzero : s.queue.queue_.size = 0 := by rw [CircularBuffer.size, hitems]; rfl
      rw [if_pos hempty] at htake
      simp only [Outcome.pure_eq, Exchange.afterTake, Option.some.injEq] at htake
      subst htake
      refine ⟨h.capacity, hle, ?_, ?_, h.notFull, ?_⟩
      · simpa using hputs
      · show (notEmpty.wait t).Covers s.queue.queue_.size
        rw [hzero]
        exact Condition.covers_wait
      · simpa using h.failed
  | cons front rest =>
      have hempty : ¬ s.queue.queue_.empty = true := by rw [CircularBuffer.empty, hitems]; simp
      have hnot : (!s.queue.queue_.empty) = true := by simpa using hempty
      have hsize : s.queue.queue_.size = rest.length + 1 := by rw [CircularBuffer.size, hitems]; rfl
      rw [if_neg hempty] at htake
      simp only [Outcome.assert_true hnot, Outcome.ok_nil_bind, Outcome.pure_eq, Exchange.afterTake,
        Option.some.injEq, CircularBuffer.pop_front, hitems, List.head?_cons, List.tail_cons,
        Option.toList_some] at htake
      subst htake
      rw [hitems] at hputs
      rw [hsize] at hle hnotEmpty
      refine ⟨h.capacity, ?_, ?_, hnotEmpty, ?_, ?_⟩
      · exact Nat.le_of_succ_le hle
      · simpa using hputs
      · -- a free place more, and a signal for it
        have hcovers := h.notFull.notify fun w => decide (w.1 ∈ picked)
        rw [hsize] at hcovers
        apply hcovers.mono
        show maxSize - rest.length ≤ maxSize - (rest.length + 1) + 1
        omega
      · simpa using h.failed

/-- **The step lemma.** -/
theorem Kept.step (h : Kept maxSize s) {e : QueueEvent τ T}
    (hstep : BoundedBlockingQueue.step s e = some s') : Kept maxSize s' := by
  cases e with
  | put t x picked =>
      simp only [BoundedBlockingQueue.step, Option.ite_none_right_eq_some] at hstep
      exact h.put (h.notFull.mono (Nat.sub_le _ _)) hstep.2
  | putAgain t x picked =>
      obtain ⟨notFull, hresume, hput⟩ := Option.bind_eq_some_iff.mp hstep
      exact h.put (h.notFull.resume hresume) hput
  | take t picked =>
      simp only [BoundedBlockingQueue.step, Option.ite_none_right_eq_some] at hstep
      exact h.take (h.notEmpty.mono (Nat.sub_le _ _)) hstep.2
  | takeAgain t picked =>
      obtain ⟨notEmpty, hresume, htake⟩ := Option.bind_eq_some_iff.mp hstep
      exact h.take (h.notEmpty.resume hresume) htake
  | stirProducer t x =>
      obtain ⟨notFull, hstir, hret⟩ := Option.bind_eq_some_iff.mp hstep
      obtain rfl := Option.some.inj hret
      exact { h with notFull := h.notFull.stir hstir }
  | stirConsumer t =>
      obtain ⟨notEmpty, hstir, hret⟩ := Option.bind_eq_some_iff.mp hstep
      obtain rfl := Option.some.inj hret
      exact { h with notEmpty := h.notEmpty.stir hstir }

theorem reachable_kept (h : (boundedMachine τ T maxSize).Reachable s) : Kept maxSize s := by
  refine h.invariant ?_ ?_
  · rintro s rfl
    exact new_kept
  · intro s e s' _ hs _ hstep
    exact hs.step hstep

end BoundedBlockingQueue

/-! ## `BlockingQueue` -/

namespace BlockingQueue

def new : BlockingQueue τ T where
  notEmpty_ := Condition.new
  queue_ := []

/-- `put` never waits. -/
def put (q : BlockingQueue τ T) (x : T) (picked : List τ) : Outcome (Bool × BlockingQueue τ T) :=
  return (true, { q with
    queue_ := q.queue_ ++ [x]
    notEmpty_ := q.notEmpty_.notify fun w => w ∈ picked })

/-- A section of `take`. -/
def take (q : BlockingQueue τ T) (t : τ) : Outcome (Option T × BlockingQueue τ T) :=
  if q.queue_.isEmpty then
    return (none, { q with notEmpty_ := q.notEmpty_.wait t })
  else do
    Outcome.assert (!q.queue_.isEmpty) "!queue_.empty()"
    let front := q.queue_.head?
    return (front, { q with queue_ := q.queue_.tail })

/-- The thread is not in a `take` already. -/
def Free (q : BlockingQueue τ T) (t : τ) : Prop := t ∉ q.notEmpty_.waiters

instance (q : BlockingQueue τ T) (t : τ) : Decidable (q.Free t) :=
  inferInstanceAs (Decidable (¬ _))

/-- One step of some thread. -/
def step (s : Exchange (BlockingQueue τ T) T) :
    QueueEvent τ T → Option (Exchange (BlockingQueue τ T) T)
  | .put t x picked => if s.queue.Free t then s.afterPut x (s.queue.put x picked) else none
  | .take t _ => if s.queue.Free t then s.afterTake (s.queue.take t) else none
  | .takeAgain t _ => do
    let notEmpty ← s.queue.notEmpty_.resume t
    s.afterTake ({ s.queue with notEmpty_ := notEmpty }.take t)
  | .stirConsumer t => do
    let notEmpty ← s.queue.notEmpty_.stir t
    return { s with queue := { s.queue with notEmpty_ := notEmpty } }
  | .putAgain _ _ _ => none
  | .stirProducer _ _ => none

end BlockingQueue

/-- All runs of an unbounded queue. -/
def blockingMachine (τ T : Type) [DecidableEq τ] [DecidableEq T] :
    Machine (Exchange (BlockingQueue τ T) T) (QueueEvent τ T) where
  init s := s = ⟨.new, [], [], []⟩
  step := BlockingQueue.step

namespace BlockingQueue

/-- **The invariant of an unbounded queue.** -/
structure Kept (s : Exchange (BlockingQueue τ T) T) : Prop where
  puts : s.puts = s.taken ++ s.queue.queue_
  notEmpty : s.queue.notEmpty_.Covers s.queue.queue_.length
  failed : s.failed = []

variable {s s' : Exchange (BlockingQueue τ T) T}

omit [DecidableEq τ] [DecidableEq T] in
theorem new_kept : Kept (⟨.new, [], [], []⟩ : Exchange (BlockingQueue τ T) T) where
  puts := rfl
  notEmpty := Condition.covers_new
  failed := rfl

omit [DecidableEq T] in
theorem Kept.put (h : Kept s) {x : T} {picked : List τ}
    (hput : s.afterPut x (s.queue.put x picked) = some s') : Kept s' := by
  simp only [BlockingQueue.put, Outcome.pure_eq, Exchange.afterPut, Option.some.injEq] at hput
  subst hput
  refine ⟨?_, ?_, ?_⟩
  · simp only [if_true, h.puts, List.append_assoc]
  · show (s.queue.notEmpty_.notify _).Covers (s.queue.queue_ ++ [x]).length
    rw [List.length_append]
    exact h.notEmpty.notify _
  · simpa using h.failed

omit [DecidableEq τ] [DecidableEq T] in
theorem Kept.take (h : Kept s) {notEmpty : Condition τ}
    (hnotEmpty : notEmpty.Covers (s.queue.queue_.length - 1)) {t : τ}
    (htake : s.afterTake ({ s.queue with notEmpty_ := notEmpty }.take t) = some s') : Kept s' := by
  unfold BlockingQueue.take at htake
  have hputs := h.puts
  cases hitems : s.queue.queue_ with
  | nil =>
      rw [hitems] at htake
      simp only [List.isEmpty_nil, if_true, Outcome.pure_eq, Exchange.afterTake,
        Option.some.injEq] at htake
      subst htake
      refine ⟨?_, ?_, ?_⟩
      · simpa [hitems] using hputs
      · exact Condition.covers_wait
      · simpa using h.failed
  | cons front rest =>
      have hnot : (!false) = true := rfl
      rw [hitems] at htake hputs hnotEmpty
      simp only [List.isEmpty_cons, Bool.false_eq_true, if_false, Outcome.assert_true hnot,
        Outcome.ok_nil_bind, Outcome.pure_eq, Exchange.afterTake, Option.some.injEq,
        List.head?_cons, List.tail_cons, Option.toList_some] at htake
      subst htake
      refine ⟨?_, hnotEmpty, ?_⟩
      · simpa using hputs
      · simpa using h.failed

omit [DecidableEq T] in
/-- **The step lemma.** -/
theorem Kept.step (h : Kept s) {e : QueueEvent τ T} (hstep : BlockingQueue.step s e = some s') :
    Kept s' := by
  cases e with
  | put t x picked =>
      simp only [BlockingQueue.step, Option.ite_none_right_eq_some] at hstep
      exact h.put hstep.2
  | take t picked =>
      simp only [BlockingQueue.step, Option.ite_none_right_eq_some] at hstep
      exact h.take (h.notEmpty.mono (Nat.sub_le _ _)) hstep.2
  | takeAgain t picked =>
      obtain ⟨notEmpty, hresume, htake⟩ := Option.bind_eq_some_iff.mp hstep
      exact h.take (h.notEmpty.resume hresume) htake
  | stirConsumer t =>
      obtain ⟨notEmpty, hstir, hret⟩ := Option.bind_eq_some_iff.mp hstep
      obtain rfl := Option.some.inj hret
      exact { h with notEmpty := h.notEmpty.stir hstir }
  | putAgain t x picked => cases hstep
  | stirProducer t x => cases hstep

theorem reachable_kept (h : (blockingMachine τ T).Reachable s) : Kept s := by
  refine h.invariant ?_ ?_
  · rintro s rfl
    exact new_kept
  · intro s e s' _ hs _ hstep
    exact hs.step hstep

end BlockingQueue

/-- **The blocking queues are first-in first-out, bounded, and lose no wakeup.** In every state that any
    number of threads can reach: what was taken is the front of what was put, each element once; a
    bounded queue holds no more than its capacity; and while a consumer (a producer) sleeps, at least
    as many signalled ones have yet to run as there are elements (free places). -/
theorem blocking_queues :
    (∀ (maxSize : Nat) (s : Exchange (BoundedBlockingQueue τ T) T),
      (boundedMachine τ T maxSize).Reachable s →
        s.puts = s.taken ++ s.queue.queue_.items ∧
        s.queue.queue_.size ≤ s.queue.queue_.capacity ∧ s.queue.queue_.capacity = maxSize ∧
        (s.queue.notEmpty_.asleep ≠ [] →
          s.queue.queue_.size ≤ s.queue.notEmpty_.signalled.length) ∧
        (s.queue.notFull_.asleep ≠ [] →
          s.queue.queue_.capacity - s.queue.queue_.size ≤ s.queue.notFull_.signalled.length) ∧
        s.failed = []) ∧
    (∀ s : Exchange (BlockingQueue τ T) T, (blockingMachine τ T).Reachable s →
        s.puts = s.taken ++ s.queue.queue_ ∧
        (s.queue.notEmpty_.asleep ≠ [] →
          s.queue.queue_.length ≤ s.queue.notEmpty_.signalled.length) ∧
        s.failed = []) := by
  constructor
  · intro maxSize s hs
    have h := BoundedBlockingQueue.reachable_kept hs
    refine ⟨h.puts, ?_, h.capacity, h.notEmpty, ?_, h.failed⟩
    · rw [h.capacity]
      exact h.size_le
    · rw [h.capacity]
      exact h.notFull
  · intro s hs
    have h := BlockingQueue.reachable_kept hs
    exact ⟨h.puts, h.notEmpty, h.failed⟩

/-- Threads 1 and 2 wait for an element; the one put for them is stolen by thread 3, and thread 2 wakes
    without a signal. -/
def stolenElement : List (QueueEvent Nat Nat) :=
  [.take 1 [], .take 2 [], .put 4 10 [1], .take 3 [], .stirConsumer 2, .takeAgain 1 [],
   .put 4 11 [], .put 5 12 [], .takeAgain 2 [], .takeAgain 1 []]

theorem blocking_queues_stolenElement :
    ∃ s, (boundedMachine Nat Nat 1).run ⟨.new 1, [], [], []⟩ stolenElement = some s ∧
      s.taken = [10, 11] ∧ s.puts = s.taken ++ s.queue.queue_.items := by
  have hrun : ((boundedMachine Nat Nat 1).run ⟨.new 1, [], [], []⟩ stolenElement).map (·.taken) =
      some [10, 11] := by decide +kernel
  obtain ⟨s, hs, htaken⟩ := Option.map_eq_some_iff.mp hrun
  exact ⟨s, hs, htaken, (blocking_queues.1 1 s (Machine.run_reachable rfl hs)).1⟩

end Simplev
