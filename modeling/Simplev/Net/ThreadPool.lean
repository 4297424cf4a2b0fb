import Mathlib.Logic.Function.Basic
import Simplev.Foundation.Condition
import Simplev.Foundation.Machine

/-!
# `Net.ThreadPool` — starting and destroying a pool (`EventLoopThreadPool.cc`, `EventLoopThread.cc`)

The owner of a pool starts it and destroys it; each thread of the pool runs its `threadFunc`; any thread
that has been given a loop may call `quit()` on it. An event is one step of one of them.

- **The owner.** `start()` makes one `EventLoopThread` after the other and waits in `startLoop` until the
  thread has published its loop. `~EventLoopThread` reads `loop_`, calls `quit()` on what it has read and
  joins the thread. That call uses the loop three times: it sets `quit_`, reads `threadId_` and writes to
  `wakeupFd_`.
- **A thread** makes its loop on its own stack, publishes it in `loop_` under the mutex, runs it until
  `quit_` is set, then sets `loop_` to `NULL`, not under the mutex, and returns, which destroys the loop.
- **A call of `quit()`** by anyone else counts by its store: the rest of it changes nothing here.

A pointer to a loop is the number of the thread on whose stack it lives. Using a null one, or one to a
loop that has been destroyed, ends the run (`Misuse`). `Net.Correctness.Teardown` says when that happens.
-/

namespace Simplev

open Foundation

namespace ThreadPool

/-- Where a thread is. -/
inductive Stage where
  /-- It has not been created. -/
  | unborn
  /-- It makes its loop. -/
  | constructing
  /-- It has published its loop, and is in `loop.loop()`. -/
  | running
  /-- `loop.loop()` has returned. -/
  | left
  /-- It has set `loop_` to `NULL`. -/
  | cleared
  /-- It has returned, and its loop is destroyed. -/
  | ended
deriving DecidableEq, Repr

/-- With the flags of its `thread_`. -/
structure EventLoopThread where
  loop_ : Option Nat
  exiting_ : Bool
  started_ : Bool
  joined_ : Bool
  cond_ : Condition Unit
deriving DecidableEq, Repr

def EventLoopThread.new : EventLoopThread := ⟨none, false, false, false, Condition.new⟩

/-- A thread of the pool. -/
structure PoolThread where
  object : EventLoopThread
  stage : Stage
  /-- `quit_` of its loop. -/
  quit_ : Bool
  /-- How often it has been joined. -/
  joins : Nat
deriving DecidableEq, Repr

def PoolThread.new : PoolThread := ⟨.new, .unborn, false, 0⟩

/-- Where the owner of the pool is. -/
inductive Owner where
  | idle
  /-- In the loop of `start()`, before it makes thread `i`. -/
  | creating (i : Nat)
  /-- In `startLoop`, before it has the mutex. -/
  | locking (i : Nat)
  /-- In `cond_.wait()`. -/
  | sleeping (i : Nat)
  /-- It has left the mutex, and returns `loop_`. -/
  | returning (i : Nat)
  /-- `start()` has returned. -/
  | started
  /-- In `~EventLoopThread`, before it reads `loop_`. -/
  | destroying (i : Nat)
  /-- It has read `loop_`, and is in `quit()` before `quit_ = true`. -/
  | quitting (i : Nat) (loop : Nat)
  /-- Before `isInLoopThread()`. -/
  | testing (i : Nat) (loop : Nat)
  /-- Before `wakeup()`. -/
  | waking (i : Nat) (loop : Nat)
  | joining (i : Nat)
  /-- All threads have been destroyed. -/
  | gone
deriving DecidableEq, Repr

/-- How a run goes wrong. -/
inductive Misuse where
  /-- A null `loop_` is used. -/
  | null
  /-- A loop is used that has been destroyed. -/
  | dead
deriving DecidableEq, Repr

structure State where
  numThreads_ : Nat
  owner : Owner
  /-- The length of `threads_`. -/
  made : Nat
  threads : Nat → PoolThread
  /-- What `startLoop` returned, for which thread. -/
  returned : List (Nat × Option Nat)
  misuse : Option Misuse
  /-- The asserts that failed. -/
  failed : List String

def State.new (numThreads : Nat) : State := ⟨numThreads, .idle, 0, fun _ => .new, [], none, []⟩

inductive Event where
  | start
  /-- `new EventLoopThread`, and `startLoop` up to its mutex. -/
  | create
  | lock
  /-- `startLoop` has been woken and has the mutex again. -/
  | wake
  /-- It wakes without a signal. -/
  | stir
  | returnLoop
  /-- Thread `i` publishes its loop. -/
  | publish (i : Nat) (picked : Bool)
  | loopReturns (i : Nat)
  /-- `loop_ = NULL`. -/
  | clearLoop (i : Nat)
  | threadReturns (i : Nat)
  /-- A user calls `quit()` on the loop of thread `i`. -/
  | quit (i : Nat)
  | destroy
  /-- `~EventLoopThread` of thread `i` reads `loop_`. -/
  | readLoop (i : Nat)
  /-- Its `quit()` sets `quit_`. -/
  | storeQuit (i : Nat)
  | readThreadId (i : Nat)
  | wakeup (i : Nat)
  | join
deriving DecidableEq, Repr

namespace State

def setThread (s : State) (i : Nat) (t : PoolThread) : State :=
  { s with threads := Function.update s.threads i t }

theorem setThread_self {s : State} {k : Nat} {t : PoolThread} : (s.setThread k t).threads k = t :=
  Function.update_self _ _ _

/-- Only thread `k` moves. -/
theorem setThread_others {s : State} {k : Nat} {t : PoolThread} (i : Nat) (hne : i ≠ k) :
    (s.setThread k t).threads i = s.threads i :=
  Function.update_of_ne hne _ _

def setObject (s : State) (i : Nat) (object : EventLoopThread) : State :=
  s.setThread i { s.threads i with object := object }

/-- Where the owner is after thread `i` has been started. -/
def afterStart (s : State) (i : Nat) : Owner :=
  if i < s.numThreads_ then .creating i else .started

/-- Where the owner is before thread `i` is destroyed. -/
def beforeDestroy (s : State) (i : Nat) : Owner := if i < s.made then .destroying i else .gone

def create (s : State) (i : Nat) : State :=
  let t := s.threads i
  { s with
    owner := .locking i
    made := i + 1
    threads := Function.update s.threads i
      { t with object := { t.object with started_ := true }, stage := .constructing }
    failed := s.failed ++ (if t.object.started_ then ["!thread_.started()", "!started_"] else []) }

/-- One look of `startLoop` at `loop_`, by the owner that has the mutex, on the object it finds. -/
def look (s : State) (i : Nat) (object : EventLoopThread) : State :=
  match object.loop_ with
  | none => { s.setObject i { object with cond_ := object.cond_.wait () } with owner := .sleeping i }
  | some _ => { s.setObject i object with owner := .returning i }

def returnLoop (s : State) (i : Nat) : State :=
  { s with
    owner := s.afterStart (i + 1)
    returned := s.returned ++ [(i, (s.threads i).object.loop_)] }

def publish (s : State) (i : Nat) (picked : Bool) : State :=
  let t := s.threads i
  s.setThread i
    { t with
      object := { t.object with loop_ := some i, cond_ := t.object.cond_.notify fun _ => picked }
      stage := .running }

def loopReturns (s : State) (i : Nat) : State :=
  s.setThread i { s.threads i with stage := .left }

def clearLoop (s : State) (i : Nat) : State :=
  let t := s.threads i
  s.setThread i { t with object := { t.object with loop_ := none }, stage := .cleared }

def threadReturns (s : State) (i : Nat) : State :=
  s.setThread i { s.threads i with stage := .ended }

/-- `quit_ = true` of the loop of thread `i`. -/
def quit (s : State) (i : Nat) : State :=
  s.setThread i { s.threads i with quit_ := true }

def readLoop (s : State) (i : Nat) : State :=
  let s' := s.setObject i { (s.threads i).object with exiting_ := true }
  match (s.threads i).object.loop_ with
  | none => { s' with misuse := some .null }
  | some loop => { s' with owner := .quitting i loop }

/-- The loop of thread `i` exists, at the address that has been published. -/
def LoopAlive (s : State) (i : Nat) : Prop :=
  (s.threads i).stage = .running ∨ (s.threads i).stage = .left ∨ (s.threads i).stage = .cleared

instance (s : State) (i : Nat) : Decidable (s.LoopAlive i) :=
  inferInstanceAs (Decidable (_ ∨ _ ∨ _))

/-- A use of the loop at this address, and what it leads to when the loop is there. -/
def useLoop (s : State) (loop : Nat) (next : State) : State :=
  if s.LoopAlive loop then next else { s with misuse := some .dead }

/-- `thread_.join()`, and on to the next. -/
def join (s : State) (i : Nat) : State :=
  let t := s.threads i
  { s with
    owner := s.beforeDestroy (i + 1)
    threads := Function.update s.threads i
      { t with object := { t.object with joined_ := true }, joins := t.joins + 1 }
    failed := s.failed ++ (if t.object.started_ then [] else ["started_"]) ++
      (if t.object.joined_ then ["!joined_"] else []) }

def step (s : State) (e : Event) : Option State :=
  if s.misuse.isSome then none
  else match e with
  | .start => if s.owner = .idle then some { s with owner := s.afterStart 0 } else none
  | .create =>
    match s.owner with
    | .creating i => some (s.create i)
    | _ => none
  | .lock =>
    match s.owner with
    | .locking i => some (s.look i (s.threads i).object)
    | _ => none
  | .wake =>
    match s.owner with
    | .sleeping i => do
      let cond ← (s.threads i).object.cond_.resume ()
      return s.look i { (s.threads i).object with cond_ := cond }
    | _ => none
  | .stir =>
    match s.owner with
    | .sleeping i => do
      let cond ← (s.threads i).object.cond_.stir ()
      return s.setObject i { (s.threads i).object with cond_ := cond }
    | _ => none
  | .returnLoop =>
    match s.owner with
    | .returning i => some (s.returnLoop i)
    | _ => none
  | .publish i picked =>
    if (s.threads i).stage = .constructing then some (s.publish i picked) else none
  | .loopReturns i =>
    if (s.threads i).stage = .running ∧ (s.threads i).quit_ = true then some (s.loopReturns i)
    else none
  | .clearLoop i => if (s.threads i).stage = .left then some (s.clearLoop i) else none
  | .threadReturns i => if (s.threads i).stage = .cleared then some (s.threadReturns i) else none
  | .quit i =>
    -- a user who has been given the loop, and calls while it is there
    if (i, some i) ∈ s.returned ∧ s.LoopAlive i then some (s.quit i) else none
  | .destroy =>
    if s.owner = .idle ∨ s.owner = .started then some { s with owner := s.beforeDestroy 0 } else none
  | .readLoop i => if s.owner = .destroying i then some (s.readLoop i) else none
  | .storeQuit i =>
    match s.owner with
    | .quitting k loop =>
      if k = i then some (s.useLoop loop { s.quit loop with owner := .testing k loop }) else none
    | _ => none
  | .readThreadId i =>
    match s.owner with
    | .testing k loop =>
      -- the owner is on another thread, so a `wakeup()` follows
      if k = i then some (s.useLoop loop { s with owner := .waking k loop }) else none
    | _ => none
  | .wakeup i =>
    match s.owner with
    | .waking k loop =>
      if k = i then some (s.useLoop loop { s with owner := .joining k }) else none
    | _ => none
  | .join =>
    match s.owner with
    | .joining i => if (s.threads i).stage = .ended then some (s.join i) else none
    | _ => none

/-! ## Inversion -/

/-- What a step does. -/
inductive Steps (s : State) : Event → State → Prop
  | start (at_ : s.owner = .idle) : Steps s .start { s with owner := s.afterStart 0 }
  | create {k} (at_ : s.owner = .creating k) : Steps s .create (s.create k)
  | lock {k} (at_ : s.owner = .locking k) : Steps s .lock (s.look k (s.threads k).object)
  | wake {k cond} (at_ : s.owner = .sleeping k)
      (resume : (s.threads k).object.cond_.resume () = some cond) :
      Steps s .wake (s.look k { (s.threads k).object with cond_ := cond })
  | stir {k cond} (at_ : s.owner = .sleeping k)
      (stir : (s.threads k).object.cond_.stir () = some cond) :
      Steps s .stir (s.setObject k { (s.threads k).object with cond_ := cond })
  | returnLoop {k} (at_ : s.owner = .returning k) : Steps s .returnLoop (s.returnLoop k)
  | publish {k picked} (stage : (s.threads k).stage = .constructing) :
      Steps s (.publish k picked) (s.publish k picked)
  | loopReturns {k} (stage : (s.threads k).stage = .running) (quit : (s.threads k).quit_ = true) :
      Steps s (.loopReturns k) (s.loopReturns k)
  | clearLoop {k} (stage : (s.threads k).stage = .left) : Steps s (.clearLoop k) (s.clearLoop k)
  | threadReturns {k} (stage : (s.threads k).stage = .cleared) :
      Steps s (.threadReturns k) (s.threadReturns k)
  | quit {k} (known : (k, some k) ∈ s.returned) : Steps s (.quit k) (s.quit k)
  | destroy (at_ : s.owner = .idle ∨ s.owner = .started) :
      Steps s .destroy { s with owner := s.beforeDestroy 0 }
  | readLoop {k} (at_ : s.owner = .destroying k) : Steps s (.readLoop k) (s.readLoop k)
  | storeQuit {k loop} (at_ : s.owner = .quitting k loop) :
      Steps s (.storeQuit k) (s.useLoop loop { s.quit loop with owner := .testing k loop })
  | readThreadId {k loop} (at_ : s.owner = .testing k loop) :
      Steps s (.readThreadId k) (s.useLoop loop { s with owner := .waking k loop })
  | wakeup {k loop} (at_ : s.owner = .waking k loop) :
      Steps s (.wakeup k) (s.useLoop loop { s with owner := .joining k })
  | join {k} (at_ : s.owner = .joining k) (ended : (s.threads k).stage = .ended) :
      Steps s .join (s.join k)

theorem step_inv {s s' : State} {e : Event} (h : s.step e = some s') :
    s.misuse = none ∧ Steps s e s' := by
  simp only [step, Option.ite_none_left_eq_some, Bool.not_eq_true, Option.isSome_eq_false_iff,
    Option.isNone_iff_eq_none] at h
  obtain ⟨hmisuse, h⟩ := h
  refine ⟨hmisuse, ?_⟩
  cases e with
  | start =>
      simp only [Option.ite_none_right_eq_some, Option.some.injEq] at h
      obtain ⟨howner, rfl⟩ := h
      exact .start howner
  | create =>
      dsimp only at h
      split at h
      · rename_i howner
        obtain rfl := Option.some.inj h
        exact .create howner
      · cases h
  | lock =>
      dsimp only at h
      split at h
      · rename_i howner
        obtain rfl := Option.some.inj h
        exact .lock howner
      · cases h
  | wake =>
      dsimp only at h
      split at h
      · rename_i howner
        obtain ⟨cond, hresume, h⟩ := Option.bind_eq_some_iff.mp h
        obtain rfl := Option.some.inj h
        exact .wake howner hresume
      · cases h
  | stir =>
      dsimp only at h
      split at h
      · rename_i howner
        obtain ⟨cond, hstir, h⟩ := Option.bind_eq_some_iff.mp h
        obtain rfl := Option.some.inj h
        exact .stir howner hstir
      · cases h
  | returnLoop =>
      dsimp only at h
      split at h
      · rename_i howner
        obtain rfl := Option.some.inj h
        exact .returnLoop howner
      · cases h
  | publish i picked =>
      simp only [Option.ite_none_right_eq_some, Option.some.injEq] at h
      obtain ⟨hstage, rfl⟩ := h
      exact .publish hstage
  | loopReturns i =>
      simp only [Option.ite_none_right_eq_some, Option.some.injEq] at h
      obtain ⟨⟨hstage, hquit⟩, rfl⟩ := h
      exact .loopReturns hstage hquit
  | clearLoop i =>
      simp only [Option.ite_none_right_eq_some, Option.some.injEq] at h
      obtain ⟨hstage, rfl⟩ := h
      exact .clearLoop hstage
  | threadReturns i =>
      simp only [Option.ite_none_right_eq_some, Option.some.injEq] at h
      obtain ⟨hstage, rfl⟩ := h
      exact .threadReturns hstage
  | quit i =>
      simp only [Option.ite_none_right_eq_some, Option.some.injEq] at h
      obtain ⟨⟨hknown, -⟩, rfl⟩ := h
      exact .quit hknown
  | destroy =>
      simp only [Option.ite_none_right_eq_some, Option.some.injEq] at h
      obtain ⟨howner, rfl⟩ := h
      exact .destroy howner
  | readLoop i =>
      simp only [Option.ite_none_right_eq_some, Option.some.injEq] at h
      obtain ⟨howner, rfl⟩ := h
      exact .readLoop howner
  | storeQuit i =>
      dsimp only at h
      split at h
      · rename_i howner
        simp only [Option.ite_none_right_eq_some, Option.some.injEq] at h
        obtain ⟨rfl, rfl⟩ := h
        exact .storeQuit howner
      · cases h
  | readThreadId i =>
      dsimp only at h
      split at h
      · rename_i howner
        simp only [Option.ite_none_right_eq_some, Option.some.injEq] at h
        obtain ⟨rfl, rfl⟩ := h
        exact .readThreadId howner
      · cases h
  | wakeup i =>
      dsimp only at h
      split at h
      · rename_i howner
        simp only [Option.ite_none_right_eq_some, Option.some.injEq] at h
        obtain ⟨rfl, rfl⟩ := h
        exact .wakeup howner
      · cases h
  | join =>
      dsimp only at h
      split at h
      · rename_i howner
        simp only [Option.ite_none_right_eq_some, Option.some.injEq] at h
        obtain ⟨hended, rfl⟩ := h
        exact .join howner hended
      · cases h

end State

/-- All runs of a pool of any size. -/
def machine : Machine State Event where
  init s := ∃ numThreads, s = State.new numThreads
  step := State.step

end ThreadPool

end Simplev
