import Simplev.Net.LoopRun
import Simplev.Net.TimerQueue

/-!
# `Net.TimerRun` — a timer queue inside its loop (`TimerQueue.cc`, `EventLoop.cc`)

`timerMachine` runs a `TimerQueue` inside the loop of `Net.LoopRun`: the same stages, the same functor
queue, the same other threads.

- **User code** of the loop's thread may add and cancel timers in an event callback, in a functor, in
  the destructor of what a functor held, and in that of the callback of a Timer under deletion.
- **Another thread** is in `addTimer` from its `new` to its `runInLoop`, and from there to its last line,
  which reads `timer->sequence()` through the pointer. By then the Timer may have run and been deleted: the
  line reads what lives at the address, or what free memory holds. So a TimerId is kept with the Timer
  that its call had made (`Handle`).
- **libev** lets timers expire while it polls, delivers every expiry before the prepare watcher runs,
  and `clearExpiredTimer` goes over `validTimers_` in that watcher, one Timer a step.
-/

namespace Simplev

open Foundation

/-- A TimerId that a call of `runAfter` or `runEvery` returned, and the Timer that the call had made. -/
structure Handle where
  made : TimerId
  timerId : TimerId
deriving DecidableEq, Repr

/-- `TimerId()`, of no call. -/
def Handle.null : Handle := ⟨.null, .null⟩

/-- What is queued on the loop. -/
inductive TimerFunctor where
  | addTimerInLoop (timer : TimerId)
  /-- What is bound is `handle.timerId`. -/
  | cancelInLoop (handle : Handle)
  /-- Any other functor: what it calls are the next calls of the loop's thread. -/
  | user (id : Nat)
deriving DecidableEq, Repr

/-- A `delete` of a Timer, and how the Timer was when it began. -/
structure Deletion where
  timer : TimerId
  active : Bool
  pending : Bool
  running : Bool
deriving DecidableEq, Repr

/-- What the callers of a queue see happen. -/
inductive TimerEvent where
  /-- The callback of the timer begins. -/
  | ran (timer : TimerId)
  /-- A `cancelInLoop` of `handle.timerId` has been executed. -/
  | cancelled (handle : Handle)
deriving DecidableEq, Repr

structure TimerRun where
  queue : TimerQueue
  loop : LoopRun TimerFunctor
  /-- Where `clearExpiredTimer` is; `none` is `end()`. -/
  itBegin : Option TimerId
  /-- It is inside `delete itBegin->first`. -/
  deleting : Bool
  /-- The timer whose callback runs. -/
  running : Option TimerId
  /-- The other threads between the `new` of `addTimer` and its `runInLoop`. -/
  adding : List (Nat × TimerId)
  /-- The other threads between that `runInLoop` and the end of `addTimer`. -/
  returning : List (Nat × TimerId)
  /-- What calls of `runAfter` and `runEvery` returned. -/
  returned : List Handle
  deletions : List Deletion
  history : List TimerEvent

namespace TimerRun

def new : TimerRun where
  queue := TimerQueue.new
  loop := LoopRun.new
  itBegin := none
  deleting := false
  running := none
  adding := []
  returning := []
  returned := []
  deletions := []
  history := []

/-- A functor runs on the loop's thread. -/
def exec (s : TimerRun) : TimerFunctor → TimerRun
  | .addTimerInLoop timer => { s with queue := s.queue.addTimerInLoop timer }
  | .cancelInLoop handle =>
    { s with
      queue := s.queue.cancelInLoop handle.timerId
      history := s.history ++ [.cancelled handle] }
  | .user _ => s

/-- `new Timer`, and the pointer to it. -/
def newTimer (s : TimerRun) (timer : Nat) (repeats : Bool) : TimerRun × TimerId :=
  let queue := s.queue.newTimer timer repeats
  ({ s with queue := queue }, ⟨timer, queue.s_numCreated_⟩)

/-- `addTimer` returns `timerId` for the Timer it made. -/
def handOut (s : TimerRun) (made timerId : TimerId) : TimerRun :=
  { s with returned := s.returned ++ [⟨made, timerId⟩] }

/-- `timer->sequence()`: that of what lives at the address now, else what free memory holds there. -/
def sequence (s : TimerRun) (timer : TimerId) (memory : Nat) : Nat :=
  (s.queue.found timer).getD memory

/-- `return TimerId(timer, timer->sequence())` of another thread. -/
def returnTimer (s : TimerRun) (entry : Nat × TimerId) (memory : Nat) : TimerRun :=
  { s.handOut entry.2 ⟨entry.2.timer_, s.sequence entry.2 memory⟩ with
    returning := s.returning.erase entry }

/-- `addTimer` of another loop on that loop's thread: `s_numCreated_` is one for all. -/
def elsewhere (s : TimerRun) (timer : Nat) : TimerRun :=
  let sequence := s.queue.s_numCreated_ + 1
  { s.handOut ⟨timer, sequence⟩ ⟨timer, sequence⟩ with
    queue := { s.queue with s_numCreated_ := sequence } }

/-- libev delivers an expiry: `Timer::run`. -/
def deliver (s : TimerRun) (timer : TimerId) : TimerRun :=
  { s with
    queue := s.queue.deliver timer
    running := some timer
    history := s.history ++ [.ran timer] }

/-- `++itBegin` past an active timer. -/
def skip (s : TimerRun) (it : TimerId) : TimerRun :=
  { s with queue := s.queue.touch it, itBegin := nextValid s.queue.validTimers_ it }

/-- `delete itBegin->first` begins: the callback of the Timer is destroyed. -/
def beginDelete (s : TimerRun) (it : TimerId) (active : Bool) : TimerRun :=
  { s with
    queue := s.queue.touch it
    deleting := true
    deletions := s.deletions ++ [⟨it, active, it ∈ s.queue.pendings, s.running = some it⟩] }

/-- The rest of it, and `validTimers_.erase(itBegin++)`. -/
def endDelete (s : TimerRun) (it : TimerId) : TimerRun :=
  { s with
    queue := s.queue.destroy it
    itBegin := nextValid s.queue.validTimers_ it
    deleting := false }

/-! ## Steps -/

inductive Event where
  /-- `addTimer` of another thread up to the end of its `new`, which got this address. -/
  | newTimer (thread : Nat) (timer : Nat) (repeats : Bool)
  /-- Its `runInLoop`. -/
  | queueTimer (thread : Nat)
  /-- Its last line; `memory` is read if the Timer's memory has been freed and not used again. -/
  | returnTimer (thread : Nat) (memory : Nat)
  /-- `addTimer` of the loop's thread. -/
  | addTimer (timer : Nat) (repeats : Bool)
  /-- `addTimer` of another loop, which uses the same `s_numCreated_`. -/
  | elsewhere (timer : Nat)
  /-- `cancel(handle.timerId)`. -/
  | cancel (caller : Thread) (handle : Handle)
  /-- A step of the loop, or of another thread with the loop. -/
  | loop (e : LoopRun.Event TimerFunctor)
  | expire (timer : Nat)
  | deliver (timer : TimerId)
  /-- The callback returns. -/
  | leave
  /-- The next turn of the loop of `clearExpiredTimer`. -/
  | sweep
  /-- The `delete` it is in ends. -/
  | endDelete
deriving DecidableEq

/-- Whether `caller` may begin a call. The loop's thread runs no user code in `clearExpiredTimer`
    except while it destroys a callback. -/
def MayCall (s : TimerRun) (caller : Thread) : Prop :=
  s.loop.MayCall caller ∧ match caller with
    | .loop => s.loop.stage = .clearing → s.deleting = true
    | .other id => id ∉ s.adding.map Prod.fst ∧ id ∉ s.returning.map Prod.fst

instance (s : TimerRun) (caller : Thread) : Decidable (s.MayCall caller) := by
  unfold MayCall
  cases caller <;> infer_instance

/-- Which steps of the loop its timers allow. The functors of this file are queued by its calls. -/
def Allows (s : TimerRun) : LoopRun.Event TimerFunctor → Prop
  | .queueInLoop caller functor | .runInLoop caller functor =>
    s.MayCall caller ∧ match functor with
      | .user _ => True
      | _ => False
  | .quit caller => s.MayCall caller
  | .prepareCallBack => s.running = none ∧ s.queue.pendings = []
  | .doPendingFunctors => s.itBegin = none
  | .handleRead => s.running = none
  | _ => True

instance (s : TimerRun) (e : LoopRun.Event TimerFunctor) : Decidable (s.Allows e) := by
  unfold Allows
  split <;> try infer_instance
  all_goals
    rename_i functor
    cases functor <;> infer_instance

/-- `loop_->runInLoop(functor)`, with the functor run at once on the loop's thread. -/
def runInLoop (s : TimerRun) (caller : Thread) (functor : TimerFunctor) : Option TimerRun :=
  (s.loop.step (.runInLoop caller functor)).map fun loop =>
    let s := { s with loop := loop }
    match caller with
    | .loop => s.exec functor
    | .other _ => s

/-- What a step of the loop does beside it. -/
def during (s : TimerRun) : LoopRun.Event TimerFunctor → TimerRun
  | .prepareCallBack => { s with itBegin := s.queue.validTimers_.head? }
  | .runFunctor =>
    match s.loop.loop.nextFunctor with
    | some (push, _) => s.exec push.functor
    | none => s
  | _ => s

/-- One atomic step of some thread; `none` when it cannot happen. -/
def step (s : TimerRun) : Event → Option TimerRun
  | .newTimer thread timer repeats =>
    if s.MayCall (.other thread) ∧ timer ≠ 0 ∧ s.queue.timers timer = none then
      let (made, timerId) := s.newTimer timer repeats
      some { made with adding := s.adding ++ [(thread, timerId)] }
    else none
  | .queueTimer thread =>
    match s.adding.find? (·.1 = thread) with
    | some entry =>
      { s with
        adding := s.adding.erase entry
        returning := s.returning ++ [entry] }.runInLoop (.other thread) (.addTimerInLoop entry.2)
    | none => none
  | .returnTimer thread memory =>
    match s.returning.find? (·.1 = thread) with
    | some entry =>
      -- `runInLoop` returns when it has woken the loop up
      if s.loop.MayCall (.other thread) then some (s.returnTimer entry memory) else none
    | none => none
  | .addTimer timer repeats =>
    if s.MayCall .loop ∧ timer ≠ 0 ∧ s.queue.timers timer = none then
      let (made, timerId) := s.newTimer timer repeats
      (made.handOut timerId timerId).runInLoop .loop (.addTimerInLoop timerId)
    else none
  | .elsewhere timer =>
    some (s.elsewhere timer)
  | .cancel caller handle =>
    if s.MayCall caller ∧ (handle = .null ∨ handle ∈ s.returned) then
      s.runInLoop caller (.cancelInLoop handle)
    else none
  | .loop e =>
    if s.Allows e then (s.loop.step e).map fun loop => { s.during e with loop := loop }
    else none
  | .expire timer =>
    match s.queue.timers timer with
    | some t =>
      if s.loop.stage = .polling ∧ t.active = true ∧ ⟨timer, t.sequence_⟩ ∉ s.queue.pendings then
        some { s with queue := s.queue.expire timer t }
      else none
    | none => none
  | .deliver timer =>
    if s.loop.At .events ∧ s.running = none ∧ timer ∈ s.queue.pendings then some (s.deliver timer)
    else none
  | .leave =>
    if s.loop.At .events ∧ s.running ≠ none then some { s with running := none } else none
  | .sweep =>
    match s.itBegin with
    | some it =>
      if s.loop.At .clearing ∧ s.deleting = false then
        match s.queue.timers it.timer_ with
        | some t => some (if t.active = true then s.skip it else s.beginDelete it t.active)
        -- a dangling pointer: `touched` keeps it
        | none => some (s.skip it)
      else none
    | none => none
  | .endDelete =>
    match s.itBegin with
    | some it => if s.loop.At .clearing ∧ s.deleting = true then some (s.endDelete it) else none
    | none => none

/-! ## Inversion -/

/-- What a step does. -/
inductive Steps (s : TimerRun) : Event → TimerRun → Prop
  | newTimer {thread timer repeats} (may : s.MayCall (.other thread)) (null : timer ≠ 0)
      (free : s.queue.timers timer = none) :
      Steps s (.newTimer thread timer repeats)
        { (s.newTimer timer repeats).1 with
          adding := s.adding ++ [(thread, (s.newTimer timer repeats).2)] }
  | queueTimer {thread entry loop} (mem : entry ∈ s.adding)
      (push : s.loop.step (.runInLoop (.other thread) (.addTimerInLoop entry.2)) = some loop) :
      Steps s (.queueTimer thread)
        { s with
          loop := loop
          adding := s.adding.erase entry
          returning := s.returning ++ [entry] }
  | returnTimer {thread memory entry} (found : s.returning.find? (·.1 = thread) = some entry) :
      Steps s (.returnTimer thread memory) (s.returnTimer entry memory)
  | addTimer {timer repeats} (may : s.MayCall .loop) (null : timer ≠ 0)
      (free : s.queue.timers timer = none) :
      Steps s (.addTimer timer repeats)
        (((s.newTimer timer repeats).1.handOut (s.newTimer timer repeats).2
          (s.newTimer timer repeats).2).exec (.addTimerInLoop (s.newTimer timer repeats).2))
  | elsewhere {timer} :
      Steps s (.elsewhere timer) (s.elsewhere timer)
  | cancelHere {handle} (may : s.MayCall .loop) (known : handle = .null ∨ handle ∈ s.returned) :
      Steps s (.cancel .loop handle) (s.exec (.cancelInLoop handle))
  | cancelThere {id handle loop} (known : handle = .null ∨ handle ∈ s.returned)
      (push : s.loop.step (.runInLoop (.other id) (.cancelInLoop handle)) = some loop) :
      Steps s (.cancel (.other id) handle) { s with loop := loop }
  | prepareCallBack {loop} (idle : s.running = none) (delivered : s.queue.pendings = [])
      (turn : s.loop.step .prepareCallBack = some loop) :
      Steps s (.loop .prepareCallBack)
        { s with itBegin := s.queue.validTimers_.head?, loop := loop }
  | runFunctor {push rest loop} (next : s.loop.loop.nextFunctor = some (push, rest))
      (turn : s.loop.step .runFunctor = some loop) :
      Steps s (.loop .runFunctor) { s.exec push.functor with loop := loop }
  | loop {e loop} (allows : s.Allows e) (prepare : e ≠ .prepareCallBack) (run : e ≠ .runFunctor)
      (turn : s.loop.step e = some loop) : Steps s (.loop e) { s with loop := loop }
  | expire {timer t} (polling : s.loop.stage = .polling) (found : s.queue.timers timer = some t)
      (active : t.active = true) : Steps s (.expire timer) { s with queue := s.queue.expire timer t }
  | deliver {timer} (events : s.loop.At .events) (pending : timer ∈ s.queue.pendings) :
      Steps s (.deliver timer) (s.deliver timer)
  | leave (events : s.loop.At .events) : Steps s .leave { s with running := none }
  | skip {it} (at_ : s.itBegin = some it) (idle : s.deleting = false) :
      Steps s .sweep (s.skip it)
  | delete {it t} (at_ : s.itBegin = some it) (found : s.queue.timers it.timer_ = some t)
      (inactive : t.active = false) (idle : s.deleting = false) :
      Steps s .sweep (s.beginDelete it t.active)
  | endDelete {it} (at_ : s.itBegin = some it) (busy : s.deleting = true) :
      Steps s .endDelete (s.endDelete it)

/-- A call of `runInLoop` on the loop's thread leaves the loop as it is. -/
theorem runInLoop_loop {s s' : TimerRun} {functor : TimerFunctor}
    (h : s.runInLoop .loop functor = some s') : s' = s.exec functor := by
  unfold runInLoop at h
  obtain ⟨loop, hstep, rfl⟩ := Option.map_eq_some_iff.mp h
  cases LoopRun.step_inv hstep with
  | runHere _ => rfl

theorem runInLoop_other {s s' : TimerRun} {id : Nat} {functor : TimerFunctor}
    (h : s.runInLoop (.other id) functor = some s') :
    ∃ loop, s.loop.step (.runInLoop (.other id) functor) = some loop ∧
      s' = { s with loop := loop } := by
  unfold runInLoop at h
  obtain ⟨loop, hstep, rfl⟩ := Option.map_eq_some_iff.mp h
  exact ⟨loop, hstep, rfl⟩

theorem step_inv_loop {s s' : TimerRun} {e : LoopRun.Event TimerFunctor} (hallows : s.Allows e)
    (h : (s.loop.step e).map (fun loop => { s.during e with loop := loop }) = some s') :
    Steps s (.loop e) s' := by
  obtain ⟨loop, hturn, rfl⟩ := Option.map_eq_some_iff.mp h
  by_cases hprepare : e = .prepareCallBack
  · subst hprepare
    exact .prepareCallBack hallows.1 hallows.2 hturn
  by_cases hrun : e = .runFunctor
  · subst hrun
    have hsteps := LoopRun.step_inv hturn
    cases hsteps with
    | @runFunctor push rest hat hnext =>
        have hduring : s.during .runFunctor = s.exec push.functor := by
          unfold during
          rw [hnext]
        rw [hduring]
        exact .runFunctor hnext hturn
  · have hduring : s.during e = s := by
      unfold during
      split
      · exact absurd rfl hprepare
      · exact absurd rfl hrun
      · rfl
    rw [hduring]
    exact .loop hallows hprepare hrun hturn

theorem step_inv {s s' : TimerRun} {e : Event} (h : s.step e = some s') : Steps s e s' := by
  cases e with
  | newTimer thread timer repeats =>
      simp only [step, Option.ite_none_right_eq_some, Option.some.injEq] at h
      obtain ⟨⟨hmay, hnull, hfree⟩, rfl⟩ := h
      exact .newTimer hmay hnull hfree
  | queueTimer thread =>
      simp only [step] at h
      split at h
      · rename_i entry hfind
        obtain ⟨loop, hpush, rfl⟩ := runInLoop_other h
        exact .queueTimer (List.mem_of_find?_eq_some hfind) hpush
      · cases h
  | returnTimer thread memory =>
      simp only [step] at h
      split at h
      · rename_i entry hfind
        simp only [Option.ite_none_right_eq_some, Option.some.injEq] at h
        obtain ⟨-, rfl⟩ := h
        exact .returnTimer hfind
      · cases h
  | addTimer timer repeats =>
      simp only [step, Option.ite_none_right_eq_some] at h
      obtain ⟨⟨hmay, hnull, hfree⟩, h⟩ := h
      rw [runInLoop_loop h]
      exact .addTimer hmay hnull hfree
  | elsewhere timer =>
      obtain rfl := Option.some.inj h
      exact .elsewhere
  | cancel caller handle =>
      simp only [step, Option.ite_none_right_eq_some] at h
      obtain ⟨⟨hmay, hknown⟩, h⟩ := h
      cases caller with
      | loop =>
          rw [runInLoop_loop h]
          exact .cancelHere hmay hknown
      | other id =>
          obtain ⟨loop, hpush, rfl⟩ := runInLoop_other h
          exact .cancelThere hknown hpush
  | loop e =>
      simp only [step, Option.ite_none_right_eq_some] at h
      exact step_inv_loop h.1 h.2
  | expire timer =>
      simp only [step] at h
      split at h
      · rename_i t hfound
        simp only [Option.ite_none_right_eq_some, Option.some.injEq] at h
        obtain ⟨⟨hpolling, hactive, -⟩, rfl⟩ := h
        exact .expire hpolling hfound hactive
      · cases h
  | deliver timer =>
      simp only [step, Option.ite_none_right_eq_some, Option.some.injEq] at h
      obtain ⟨⟨hat, -, hpending⟩, rfl⟩ := h
      exact .deliver hat hpending
  | leave =>
      simp only [step, Option.ite_none_right_eq_some, Option.some.injEq] at h
      obtain ⟨⟨hat, -⟩, rfl⟩ := h
      exact .leave hat
  | sweep =>
      simp only [step] at h
      split at h
      · rename_i it hit
        simp only [Option.ite_none_right_eq_some] at h
        obtain ⟨⟨-, hidle⟩, h⟩ := h
        split at h
        · rename_i t hfound
          obtain rfl := Option.some.inj h
          by_cases hactive : t.active = true
          · rw [if_pos hactive]
            exact .skip hit hidle
          · rw [if_neg hactive]
            exact .delete hit hfound (Bool.eq_false_iff.mpr hactive) hidle
        · obtain rfl := Option.some.inj h
          exact .skip hit hidle
      · cases h
  | endDelete =>
      simp only [step] at h
      split at h
      · rename_i it hit
        simp only [Option.ite_none_right_eq_some, Option.some.injEq] at h
        obtain ⟨⟨-, hbusy⟩, rfl⟩ := h
        exact .endDelete hit hbusy
      · cases h

end TimerRun

/-- All runs of a loop and its timers with any other threads. -/
def timerMachine : Machine TimerRun TimerRun.Event where
  init s := s = TimerRun.new
  step := TimerRun.step

namespace TimerRun

/-! ## The loop underneath -/

@[simp] theorem exec_loop (s : TimerRun) (functor : TimerFunctor) :
    (s.exec functor).loop = s.loop := by
  cases functor with
  | _ => rfl

/-- A timer's step is a step of the loop, or leaves the loop alone. -/
theorem loop_of_step {s s' : TimerRun} {e : Event} (h : s.step e = some s') :
    s'.loop = s.loop ∨ ∃ f, s.loop.step f = some s'.loop := by
  cases step_inv h with
  | queueTimer _ hpush => exact .inr ⟨_, hpush⟩
  | cancelThere _ hpush => exact .inr ⟨_, hpush⟩
  | prepareCallBack _ _ hturn => exact .inr ⟨_, hturn⟩
  | runFunctor _ hturn => exact .inr ⟨_, hturn⟩
  | loop _ _ _ hturn => exact .inr ⟨_, hturn⟩
  | cancelHere _ _ => exact .inl (exec_loop s _)
  | _ => exact .inl rfl

/-- **The timers run inside the loop of `Net.LoopRun`.** What that file's theorems say of every run
    of a loop they say of a loop with timers. -/
theorem reachable_loop {C : TimerRun → Event → Prop} {s : TimerRun}
    (h : timerMachine.ReachableVia C s) : (loopMachine TimerFunctor).Reachable s.loop := by
  refine h.invariant (I := fun s => (loopMachine TimerFunctor).Reachable s.loop) ?_ ?_
  · rintro s rfl
    exact .init rfl
  · intro s e s' _ hs _ hstep
    rcases loop_of_step hstep with hloop | ⟨f, hloop⟩
    · exact hloop ▸ hs
    · exact .step hs trivial hloop

end TimerRun

end Simplev
