import Simplev.Foundation.Machine
import Simplev.Net.EventLoop

/-!
# `Net.LoopRun` — the iterations of a loop against other threads (`EventLoop.cc`)

`loopMachine` interleaves the loop's thread with any number of others. A state is the functor queue,
`quit_`, the counter of the eventfd and where the loop's thread is; an event is one atomic step.

- **The loop's thread** goes round: event callbacks, then `prepareCallBack` (`clearExpiredTimer`, the
  functors of one batch, the death of the local vector that held them, the test of `quit_`), then
  `poll`. Wherever user code runs (a callback, a functor, a destructor of something that a timer or a
  functor held) it may call `queueInLoop`, `runInLoop` and `quit`.
- **Other threads** call these at any moment.
- **A call** of `queueInLoop` or `quit` is two steps: `push_back` under the mutex (or the store to
  `quit_`), and the `wakeup()`, where it makes one. A thread in between is in `waking`.

`callingPendingFunctors_` is read by the loop's thread only, so it is part of its step. Reading the
eventfd resets the counter, writing adds one. A functor is kept with the call that queued it (`Push`).
Nested calls of `loop()` are left out: its assert forbids them.
-/

namespace Simplev

open Foundation

/-- Where the loop's thread is. -/
inductive LoopStage where
  /-- Not in `loop()`. -/
  | outside
  /-- In `loop()`, between two polls, before `prepareCallBack`: event callbacks run. -/
  | events
  /-- In `clearExpiredTimer`. -/
  | clearing
  /-- In `doPendingFunctors`, after its swap. -/
  | batch
  /-- The local vector of `doPendingFunctors` dies; `callingPendingFunctors_` is false again. -/
  | dying
  /-- Between the end of `prepareCallBack` and the return of poll. -/
  | polling
deriving DecidableEq, Repr

/-- A functor in the queue: who queued it, and how many batches had been swapped out before. -/
structure Push (φ : Type) where
  caller : Thread
  functor : φ
  batch : Nat
deriving DecidableEq, Repr

/-- A functor that ran: in which batch (the first is 1), and on which thread. -/
structure Ran (φ : Type) where
  push : Push φ
  batch : Nat
  thread : Thread
deriving DecidableEq, Repr

/-- A call of `quit()`, and how many functors had been queued before it. -/
structure Quit where
  caller : Thread
  pushes : Nat
deriving DecidableEq, Repr

structure LoopRun (φ : Type) where
  loop : EventLoop (Push φ)
  quit_ : Bool
  /-- The counter of `wakeupFd_`. -/
  counter : Nat
  stage : LoopStage
  /-- The thread that called `loop()`. -/
  looper : Thread
  /-- The threads between their `push_back` (or `quit_ = true`) and their `wakeup()`. -/
  waking : List Thread
  /-- Every `push_back`, in order. -/
  pushed : List (Push φ)
  /-- Every functor run, in order. -/
  ran : List (Ran φ)
  /-- What each swap took out of `pendingFunctors_`. -/
  swaps : List (List (Push φ))
  quits : List Quit
  /-- The `quit()` calls that `loop()` last returned because of. -/
  causes : List Quit
deriving DecidableEq

namespace LoopRun

variable {φ : Type}

/-- Before the first call of `loop()`. -/
def new : LoopRun φ where
  loop := EventLoop.new
  quit_ := false
  counter := 0
  stage := .outside
  looper := .loop
  waking := []
  pushed := []
  ran := []
  swaps := []
  quits := []
  causes := []

inductive Event (φ : Type) where
  /-- `loop()` is called. -/
  | loop (caller : Thread)
  /-- `queueInLoop(functor)` up to the end of its `push_back`. -/
  | queueInLoop (caller : Thread) (functor : φ)
  /-- `runInLoop(functor)` up to there. -/
  | runInLoop (caller : Thread) (functor : φ)
  /-- `quit()` up to its store. -/
  | quit (caller : Thread)
  /-- `wakeup()`, the rest of such a call. -/
  | wakeup (caller : Thread)
  /-- libev calls `prepareCallBack`, which calls `clearExpiredTimer`. -/
  | prepareCallBack
  /-- `doPendingFunctors` up to its loop. -/
  | doPendingFunctors
  /-- The next `functors[i]()`. -/
  | runFunctor
  /-- `callingPendingFunctors_ = false`. -/
  | endFunctors
  /-- The test of `quit_`. -/
  | testQuit
  /-- Poll returns. -/
  | poll
  /-- The read callback of the wakeup channel. -/
  | handleRead
deriving DecidableEq, Repr

/-- A thread may begin a call when it is not in one; the loop's own thread not while it polls. -/
def MayCall (s : LoopRun φ) (caller : Thread) : Prop :=
  caller ∉ s.waking ∧ (caller = .loop → s.stage ≠ .polling)

instance (s : LoopRun φ) (caller : Thread) : Decidable (s.MayCall caller) :=
  inferInstanceAs (Decidable (_ ∧ (_ → _)))

/-- The loop's thread is at `stage`, and not in the middle of a call. -/
def At (s : LoopRun φ) (stage : LoopStage) : Prop := s.stage = stage ∧ .loop ∉ s.waking

instance (s : LoopRun φ) (stage : LoopStage) : Decidable (s.At stage) :=
  inferInstanceAs (Decidable (_ ∧ _))

/-- `queueInLoop` up to the end of its `push_back`; the test for the `wakeup()` comes after. -/
def queueInLoop (s : LoopRun φ) (caller : Thread) (functor : φ) : LoopRun φ :=
  let push : Push φ := ⟨caller, functor, s.swaps.length⟩
  { s with
    loop := s.loop.queueInLoop push
    pushed := s.pushed ++ [push]
    waking := if caller ≠ .loop ∨ s.loop.callingPendingFunctors_ = true then s.waking ++ [caller]
      else s.waking }

/-- `quit` up to its store. -/
def quit (s : LoopRun φ) (caller : Thread) : LoopRun φ :=
  { s with
    quit_ := true
    quits := s.quits ++ [⟨caller, s.pushed.length⟩]
    waking := if caller ≠ .loop then s.waking ++ [caller] else s.waking }

def wakeup (s : LoopRun φ) (caller : Thread) : LoopRun φ :=
  { s with waking := s.waking.erase caller, counter := s.counter + 1 }

/-- `doPendingFunctors` up to its loop. -/
def swapFunctors (s : LoopRun φ) : LoopRun φ :=
  { s with
    stage := .batch
    swaps := s.swaps ++ [s.loop.pendingFunctors_]
    loop := s.loop.swapFunctors }

/-- The end of `prepareCallBack`: `break_loop` makes libev leave before it polls. -/
def testQuit (s : LoopRun φ) : LoopRun φ :=
  if s.quit_ then { s with stage := .outside, causes := s.quits } else { s with stage := .polling }

/-- One atomic step of some thread; `none` when it cannot happen. -/
def step (s : LoopRun φ) : Event φ → Option (LoopRun φ)
  | .loop caller =>
    -- `assertInLoopThread`: any other thread aborts the process
    if caller = .loop ∧ s.At .outside then some { s with stage := .events, looper := caller }
    else none
  | .queueInLoop caller functor =>
    if s.MayCall caller then some (s.queueInLoop caller functor) else none
  | .runInLoop caller functor =>
    if s.MayCall caller then
      match caller with
      -- `cb()` runs here: what it calls are the next calls of the loop's thread
      | .loop => some s
      | .other id => some (s.queueInLoop (.other id) functor)
    else none
  | .quit caller => if s.MayCall caller then some (s.quit caller) else none
  | .wakeup caller => if caller ∈ s.waking then some (s.wakeup caller) else none
  | .prepareCallBack => if s.At .events then some { s with stage := .clearing } else none
  | .doPendingFunctors => if s.At .clearing then some s.swapFunctors else none
  | .runFunctor =>
    if s.At .batch then
      match s.loop.nextFunctor with
      | some (push, loop) =>
        some { s with loop := loop, ran := s.ran ++ [⟨push, s.swaps.length, s.looper⟩] }
      | none => none
    else none
  | .endFunctors =>
    if s.At .batch ∧ s.loop.rest = [] then
      some { s with stage := .dying, loop := s.loop.endFunctors }
    else none
  | .testQuit => if s.At .dying then some s.testQuit else none
  | .poll => if s.stage = .polling then some { s with stage := .events } else none
  | .handleRead => if s.At .events then some { s with counter := 0 } else none

/-! ## Inversion -/

/-- What a step does. -/
inductive Steps (s : LoopRun φ) : Event φ → LoopRun φ → Prop
  | loop (outside : s.At .outside) :
      Steps s (.loop .loop) { s with stage := .events, looper := .loop }
  | queueInLoop {caller functor} (may : s.MayCall caller) :
      Steps s (.queueInLoop caller functor) (s.queueInLoop caller functor)
  | runHere {functor} (may : s.MayCall .loop) : Steps s (.runInLoop .loop functor) s
  | runThere {id functor} (may : s.MayCall (.other id)) :
      Steps s (.runInLoop (.other id) functor) (s.queueInLoop (.other id) functor)
  | quit {caller} (may : s.MayCall caller) : Steps s (.quit caller) (s.quit caller)
  | wakeup {caller} (waking : caller ∈ s.waking) : Steps s (.wakeup caller) (s.wakeup caller)
  | prepareCallBack (events : s.At .events) :
      Steps s .prepareCallBack { s with stage := .clearing }
  | doPendingFunctors (clearing : s.At .clearing) : Steps s .doPendingFunctors s.swapFunctors
  | runFunctor {push loop} (batch : s.At .batch) (next : s.loop.nextFunctor = some (push, loop)) :
      Steps s .runFunctor
        { s with loop := loop, ran := s.ran ++ [⟨push, s.swaps.length, s.looper⟩] }
  | endFunctors (batch : s.At .batch) (done : s.loop.rest = []) :
      Steps s .endFunctors { s with stage := .dying, loop := s.loop.endFunctors }
  | testQuit (dying : s.At .dying) : Steps s .testQuit s.testQuit
  | poll (polling : s.stage = .polling) : Steps s .poll { s with stage := .events }
  | handleRead (events : s.At .events) : Steps s .handleRead { s with counter := 0 }

theorem step_inv {s s' : LoopRun φ} {e : Event φ} (h : s.step e = some s') : Steps s e s' := by
  cases e with
  | loop caller =>
      simp only [step, Option.ite_none_right_eq_some, Option.some.injEq] at h
      obtain ⟨⟨rfl, hout⟩, rfl⟩ := h
      exact .loop hout
  | queueInLoop caller functor =>
      simp only [step, Option.ite_none_right_eq_some, Option.some.injEq] at h
      obtain ⟨hmay, rfl⟩ := h
      exact .queueInLoop hmay
  | runInLoop caller functor =>
      simp only [step, Option.ite_none_right_eq_some] at h
      obtain ⟨hmay, h⟩ := h
      cases caller with
      | loop =>
          obtain rfl := Option.some.inj h
          exact .runHere hmay
      | other id =>
          obtain rfl := Option.some.inj h
          exact .runThere hmay
  | quit caller =>
      simp only [step, Option.ite_none_right_eq_some, Option.some.injEq] at h
      obtain ⟨hmay, rfl⟩ := h
      exact .quit hmay
  | wakeup caller =>
      simp only [step, Option.ite_none_right_eq_some, Option.some.injEq] at h
      obtain ⟨hwaking, rfl⟩ := h
      exact .wakeup hwaking
  | prepareCallBack =>
      simp only [step, Option.ite_none_right_eq_some, Option.some.injEq] at h
      obtain ⟨hat, rfl⟩ := h
      exact .prepareCallBack hat
  | doPendingFunctors =>
      simp only [step, Option.ite_none_right_eq_some, Option.some.injEq] at h
      obtain ⟨hat, rfl⟩ := h
      exact .doPendingFunctors hat
  | runFunctor =>
      simp only [step, Option.ite_none_right_eq_some] at h
      obtain ⟨hat, h⟩ := h
      split at h
      · rename_i push loop hnext
        obtain rfl := Option.some.inj h
        exact .runFunctor hat hnext
      · cases h
  | endFunctors =>
      simp only [step, Option.ite_none_right_eq_some, Option.some.injEq] at h
      obtain ⟨⟨hat, hdone⟩, rfl⟩ := h
      exact .endFunctors hat hdone
  | testQuit =>
      simp only [step, Option.ite_none_right_eq_some, Option.some.injEq] at h
      obtain ⟨hat, rfl⟩ := h
      exact .testQuit hat
  | poll =>
      simp only [step, Option.ite_none_right_eq_some, Option.some.injEq] at h
      obtain ⟨hpoll, rfl⟩ := h
      exact .poll hpoll
  | handleRead =>
      simp only [step, Option.ite_none_right_eq_some, Option.some.injEq] at h
      obtain ⟨hat, rfl⟩ := h
      exact .handleRead hat

end LoopRun

/-- All runs of a loop with any other threads. -/
def loopMachine (φ : Type) : Machine (LoopRun φ) (LoopRun.Event φ) where
  init s := s = LoopRun.new
  step := LoopRun.step

namespace LoopRun

variable {φ : Type} {s s' : LoopRun φ}

theorem testQuit_of_quit (h : s.quit_ = true) :
    s.testQuit = { s with stage := .outside, causes := s.quits } := by
  rw [testQuit, if_pos h]

theorem testQuit_of_not_quit (h : s.quit_ = false) : s.testQuit = { s with stage := .polling } := by
  rw [testQuit, if_neg (by simp [h])]

/-! ## The queue between its stages -/

/-- The local vector of `doPendingFunctors` is empty outside of it, and `callingPendingFunctors_` says
    whether its functors run. -/
structure Tidy (s : LoopRun φ) : Prop where
  rest : s.stage ≠ .batch → s.loop.rest = []
  calling : s.loop.callingPendingFunctors_ = true ↔ s.stage = .batch
  /-- The loop's thread does not poll in the middle of a call. -/
  polling : s.stage = .polling → .loop ∉ s.waking

theorem new_tidy : (new : LoopRun φ).Tidy where
  rest _ := rfl
  calling := by simp [new, EventLoop.new]
  polling := by rintro ⟨⟩

/-- A call keeps the loop's thread where it is. -/
theorem Tidy.call (h : s.Tidy) (hstage : s'.stage = s.stage)
    (hrest : s'.loop.rest = s.loop.rest)
    (hcalling : s'.loop.callingPendingFunctors_ = s.loop.callingPendingFunctors_)
    (hpolling : s.stage = .polling → .loop ∈ s'.waking → .loop ∈ s.waking) : s'.Tidy where
  rest hne := by
    rw [hrest]
    exact h.rest (hstage ▸ hne)
  calling := by
    rw [hcalling, hstage]
    exact h.calling
  polling hpoll hmem := by
    rw [hstage] at hpoll
    exact h.polling hpoll (hpolling hpoll hmem)

/-- Who may call while the loop polls is not the loop's thread. -/
theorem MayCall.other {caller : Thread} (h : s.MayCall caller) (hpoll : s.stage = .polling) :
    caller ≠ .loop := by
  intro hloop
  exact h.2 hloop hpoll

theorem Tidy.queueInLoop (h : s.Tidy) {caller : Thread} {functor : φ} (hmay : s.MayCall caller) :
    (s.queueInLoop caller functor).Tidy := by
  refine h.call rfl rfl rfl ?_
  intro hpoll hmem
  unfold LoopRun.queueInLoop at hmem
  split at hmem
  · rcases List.mem_append.mp hmem with hmem | hmem
    · exact hmem
    · exact absurd (List.mem_singleton.mp hmem).symm (hmay.other hpoll)
  · exact hmem

theorem Tidy.step (h : s.Tidy) {e : Event φ} (hstep : s.step e = some s') : s'.Tidy := by
  cases step_inv hstep with
  | loop hat =>
      have hrest := h.rest (by simp [hat.1])
      have hcalling : ¬ s.loop.callingPendingFunctors_ = true := by rw [h.calling, hat.1]; simp
      exact ⟨fun _ => hrest, by simpa using hcalling, by rintro ⟨⟩⟩
  | queueInLoop hmay => exact h.queueInLoop hmay
  | runHere _ => exact h
  | runThere hmay => exact h.queueInLoop hmay
  | quit hmay =>
      refine h.call rfl rfl rfl ?_
      intro hpoll hmem
      -- while the loop polls, it is another thread that calls `quit()`
      unfold LoopRun.quit at hmem
      rw [if_pos (hmay.other hpoll)] at hmem
      rcases List.mem_append.mp hmem with hmem | hmem
      · exact hmem
      · exact absurd (List.mem_singleton.mp hmem).symm (hmay.other hpoll)
  | wakeup _ => exact h.call rfl rfl rfl fun _ hmem => List.mem_of_mem_erase hmem
  | prepareCallBack hat =>
      have hrest := h.rest (by simp [hat.1])
      have hcalling : ¬ s.loop.callingPendingFunctors_ = true := by rw [h.calling, hat.1]; simp
      exact ⟨fun _ => hrest, by simpa using hcalling, by rintro ⟨⟩⟩
  | doPendingFunctors hat =>
      refine ⟨?_, by simp [swapFunctors, EventLoop.swapFunctors], by rintro ⟨⟩⟩
      intro hne
      exact absurd rfl hne
  | runFunctor hat hnext =>
      rename_i push loop
      obtain ⟨-, -, hloop⟩ := EventLoop.nextFunctor_eq hnext
      refine ⟨?_, ?_, ?_⟩
      · intro hne
        exact absurd hat.1 hne
      · show loop.callingPendingFunctors_ = true ↔ s.stage = .batch
        rw [hloop]
        exact h.calling
      · exact h.polling
  | endFunctors hat _ => exact ⟨fun _ => rfl, by simp [EventLoop.endFunctors], by rintro ⟨⟩⟩
  | testQuit hat =>
      have hrest := h.rest (by simp [hat.1])
      have hcalling : ¬ s.loop.callingPendingFunctors_ = true := by rw [h.calling, hat.1]; simp
      cases hquit : s.quit_ with
      | true =>
          rw [testQuit_of_quit hquit]
          exact ⟨fun _ => hrest, by simpa using hcalling, by simp⟩
      | false =>
          rw [testQuit_of_not_quit hquit]
          exact ⟨fun _ => hrest, by simpa using hcalling, fun _ => hat.2⟩
  | poll hpoll =>
      have hrest := h.rest (by simp [hpoll])
      have hcalling : ¬ s.loop.callingPendingFunctors_ = true := by rw [h.calling, hpoll]; simp
      exact ⟨fun _ => hrest, by simpa using hcalling, by rintro ⟨⟩⟩
  | handleRead hat => exact h.call rfl rfl rfl fun _ hmem => hmem

/-! ## What waits -/

/-- The functors that wait, without who queued them. -/
def functors (s : LoopRun φ) : List φ := s.loop.waiting.map Push.functor

/-- What a step puts in the queue. -/
def Event.queued : Event φ → List φ
  | .queueInLoop _ functor | .runInLoop (.other _) functor => [functor]
  | _ => []

theorem functors_queueInLoop (caller : Thread) (functor : φ) :
    (s.queueInLoop caller functor).functors = s.functors ++ [functor] := by
  unfold functors queueInLoop
  rw [EventLoop.waiting_queueInLoop, List.map_append, List.map_singleton]

/-- Only `runFunctor` takes a functor away. -/
theorem Tidy.functors_step (h : s.Tidy) {e : Event φ} (hstep : s.step e = some s')
    (hrun : e ≠ .runFunctor) : s'.functors = s.functors ++ e.queued := by
  cases step_inv hstep with
  | queueInLoop _ => exact functors_queueInLoop _ _
  | runThere _ => exact functors_queueInLoop _ _
  | doPendingFunctors hat =>
      have hrest := h.rest (by simp [hat.1])
      unfold functors swapFunctors
      rw [EventLoop.waiting_swapFunctors hrest]
      exact (List.append_nil _).symm
  | endFunctors _ hdone =>
      unfold functors
      rw [EventLoop.waiting_endFunctors hdone]
      exact (List.append_nil _).symm
  | runFunctor _ _ => exact absurd rfl hrun
  | testQuit _ =>
      unfold testQuit
      split <;> exact (List.append_nil _).symm
  | _ => exact (List.append_nil _).symm

theorem functors_runFunctor {push : Push φ} {loop : EventLoop (Push φ)}
    (hnext : s.loop.nextFunctor = some (push, loop)) (hstep : s.step .runFunctor = some s') :
    s.functors = push.functor :: s'.functors := by
  cases step_inv hstep with
  | runFunctor _ hnext' =>
      rw [hnext] at hnext'
      cases hnext'
      unfold functors
      rw [EventLoop.nextFunctor_waiting hnext, List.map_cons]

/-- `clearExpiredTimer` begins in `prepareCallBack` -/
theorem clearing_of_step {e : Event φ} (hstep : s.step e = some s') (h : s'.stage = .clearing) :
    s.stage = .clearing ∨ e = .prepareCallBack := by
  cases step_inv hstep with
  | prepareCallBack _ => exact .inr rfl
  | testQuit _ =>
      unfold testQuit at h
      split at h <;> cases h
  | queueInLoop _ => exact .inl h
  | runHere _ => exact .inl h
  | runThere _ => exact .inl h
  | quit _ => exact .inl h
  | wakeup _ => exact .inl h
  | runFunctor _ _ => exact .inl h
  | handleRead _ => exact .inl h
  | _ => cases h

/-- and ends in `doPendingFunctors`. -/
theorem clearing_step {e : Event φ} (hstep : s.step e = some s') (h : s.stage = .clearing)
    (hdo : e ≠ .doPendingFunctors) : s'.stage = .clearing := by
  cases step_inv hstep with
  | prepareCallBack _ => rfl
  | loop hat => exact absurd (h.symm.trans hat.1) (by simp)
  | doPendingFunctors _ => exact absurd rfl hdo
  | endFunctors hat _ => exact absurd (h.symm.trans hat.1) (by simp)
  | testQuit hat => exact absurd (h.symm.trans hat.1) (by simp)
  | poll hat => exact absurd (h.symm.trans hat) (by simp)
  | _ => exact h

theorem reachable_tidy {C : LoopRun φ → Event φ → Prop}
    (h : (loopMachine φ).ReachableVia C s) : s.Tidy := by
  refine h.invariant ?_ ?_
  · rintro s rfl
    exact new_tidy
  · intro s e s' _ hs _ hstep
    exact hs.step hstep

end LoopRun

end Simplev
