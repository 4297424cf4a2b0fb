import Simplev.Foundation.Machine
import Simplev.Net.Channel
import Simplev.Net.EventLoop

/-!
# `Net.ServerStart` — calls of `TcpServer::start` (`TcpServer.cc`, `Acceptor.cc`, `EventLoopThreadPool.cc`)

`start()` may be called by any thread and any number of times. A call is up to four steps, between which
other threads and the loop go on: the test of `started_`, the set of it and the start of the pool when it
found it unset, and the call of `Acceptor::listen` in the loop when it finds that the acceptor does not
listen. Two threads may both find `started_` unset.

- **`EventLoopThreadPool::start`** asserts that it is on the loop's thread, and aborts the process
  elsewhere.
- **`Acceptor::listen`** leaves `listening_` as it is, and nothing else sets it, so no later call finds
  that the acceptor listens.

`Tallied` counts both; `start_once_iff` says what follows.
-/

namespace Simplev

open Foundation

namespace ServerStart

structure EventLoopThreadPool where
  started_ : Bool
  numThreads_ : Nat
  /-- The length of `threads_`. -/
  threads : Nat
deriving DecidableEq, Repr

/-- `none` when `assertInLoopThread` aborts the process. -/
def EventLoopThreadPool.start (pool : EventLoopThreadPool) (caller : Thread) :
    Outcome (Option EventLoopThreadPool) := do
  Outcome.assert (pool.started_ = false) "!started_"
  if caller = .loop then
    return some { pool with started_ := true, threads := pool.threads + pool.numThreads_ }
  else return none

structure Acceptor where
  acceptChannel_ : Channel
  listening_ : Bool
deriving DecidableEq, Repr

def Acceptor.new (fd : Nat) : Acceptor := ⟨Channel.new fd, false⟩

/-- On the loop's thread. The second line is `acceptSocket_.listen()`, which changes no member; that
    `::listen` fails, and `listenOrDie` ends the process, is left out. -/
def Acceptor.listen (a : Acceptor) : Acceptor :=
  { a with acceptChannel_ := a.acceptChannel_.enableReading }

inductive Functor where
  | listen
deriving DecidableEq, Repr

/-- What a call of `start()` does next. -/
inductive Stage where
  | setStarted
  | startPool
  | tryListen
deriving DecidableEq, Repr

structure Call where
  caller : Thread
  stage : Stage
deriving DecidableEq, Repr

/-- A server while it is being started. -/
structure State where
  started_ : Bool
  threadPool_ : EventLoopThreadPool
  acceptor_ : Acceptor
  loop : EventLoop Functor
  /-- The calls of `start()` in progress. -/
  calls : List Call
  /-- The callers of `start()`, in the order in which they tested `started_`. -/
  starts : List Thread
  /-- How often `EventLoopThreadPool::start` has returned. -/
  poolStarts : Nat
  /-- How often `Acceptor::listen` has run. -/
  listens : Nat
  aborted : Bool
  /-- The asserts that failed. -/
  failed : List String
deriving DecidableEq

def State.new (fd numThreads : Nat) : State where
  started_ := false
  threadPool_ := ⟨false, numThreads, 0⟩
  acceptor_ := Acceptor.new fd
  loop := EventLoop.new
  calls := []
  starts := []
  poolStarts := 0
  listens := 0
  aborted := false
  failed := []

inductive Event where
  /-- `start()` begins, and tests `started_`. -/
  | start (caller : Thread)
  /-- It has found `started_` unset, and sets it. -/
  | setStarted (caller : Thread)
  /-- It calls `threadPool_->start()`. -/
  | startPool (caller : Thread)
  /-- It tests `listening()`, and calls `runInLoop`. -/
  | tryListen (caller : Thread)
  | doPendingFunctors
  | runFunctor
  | endFunctors
deriving DecidableEq, Repr

namespace State

/-- The loop's thread is not in a call of `start()`. -/
def LoopFree (s : State) : Prop := ∀ c ∈ s.calls, c.caller ≠ .loop

instance (s : State) : Decidable s.LoopFree := inferInstanceAs (Decidable (∀ c ∈ s.calls, _))

def listen (s : State) : State :=
  { s with acceptor_ := s.acceptor_.listen, listens := s.listens + 1 }

/-- `loop_->runInLoop(boost::bind(&Acceptor::listen, …))`. -/
def runInLoop (s : State) : Thread → State
  | .loop => s.listen
  | .other _ => { s with loop := s.loop.queueInLoop .listen }

def step (s : State) : Event → Option State
  | .start caller =>
    -- a thread makes one call at a time
    if s.aborted = false ∧ ∀ c ∈ s.calls, c.caller ≠ caller then
      some { s with
        calls := ⟨caller, if s.started_ then .tryListen else .setStarted⟩ :: s.calls
        starts := s.starts ++ [caller] }
    else none
  | .setStarted caller =>
    if s.aborted = false ∧ ⟨caller, .setStarted⟩ ∈ s.calls then
      some { s with
        started_ := true
        calls := ⟨caller, .startPool⟩ :: s.calls.erase ⟨caller, .setStarted⟩ }
    else none
  | .startPool caller =>
    if s.aborted = false ∧ ⟨caller, .startPool⟩ ∈ s.calls then
      match s.threadPool_.start caller with
      | .ok (some pool) fs =>
        some { s with
          threadPool_ := pool
          calls := ⟨caller, .tryListen⟩ :: s.calls.erase ⟨caller, .startPool⟩
          poolStarts := s.poolStarts + 1
          failed := s.failed ++ fs }
      | .ok none fs => some { s with aborted := true, failed := s.failed ++ fs }
      | .thrown _ => none
    else none
  | .tryListen caller =>
    if s.aborted = false ∧ ⟨caller, .tryListen⟩ ∈ s.calls then
      let s := { s with calls := s.calls.erase ⟨caller, .tryListen⟩ }
      some (if !s.acceptor_.listening_ then s.runInLoop caller else s)
    else none
  | .doPendingFunctors =>
    if s.aborted = false ∧ s.LoopFree ∧ s.loop.callingPendingFunctors_ = false ∧ s.loop.rest = [] then
      some { s with loop := s.loop.swapFunctors }
    else none
  | .runFunctor =>
    if s.aborted = false ∧ s.LoopFree then
      match s.loop.nextFunctor with
      | some (.listen, loop) => some { s with loop := loop }.listen
      | none => none
    else none
  | .endFunctors =>
    if s.aborted = false ∧ s.LoopFree ∧ s.loop.rest = [] then
      some { s with loop := s.loop.endFunctors }
    else none

end State

/-- All ways to start a server, on an acceptor of any descriptor and a pool of any size. -/
def machine : Machine State Event where
  init s := ∃ fd numThreads, s = State.new fd numThreads
  step := State.step

namespace State

variable {s s' : State}

/-- Nothing is left to do: every call has returned and the queued functors have run, or the process has
    been aborted. -/
def Settled (s : State) : Prop := s.aborted = true ∨ s.calls = [] ∧ s.loop.waiting = []

instance (s : State) : Decidable s.Settled := inferInstanceAs (Decidable (_ ∨ _))

/-- The calls that have found `started_` unset and have not yet started the pool. -/
def startingPool (calls : List Call) : Nat := calls.countP fun c => c.stage ≠ .tryListen

/-- **The tally of starts.** -/
structure Tallied (s : State) : Prop where
  started : s.starts = [] → s.started_ = false
  callers : ∀ c ∈ s.calls, c.caller ∈ s.starts
  /-- One functor or one run of `listen` comes of each call. -/
  listens : s.aborted = false → s.listens + s.loop.waiting.length + s.calls.length = s.starts.length
  /-- The first call starts the pool, and each other one may. -/
  pool : s.starts ≠ [] → 1 ≤ s.poolStarts + startingPool s.calls
  poolOnce : s.poolStarts + startingPool s.calls ≤ s.starts.length
  poolUnstarted : s.poolStarts = 0 → s.threadPool_.started_ = false
  poolStarted : s.poolStarts ≠ 0 → .loop ∈ s.starts
  aborted : s.aborted = true → ∃ caller ∈ s.starts, caller ≠ .loop
  /-- The flag that `start` tests is never set. -/
  listening : s.acceptor_.listening_ = false
  /-- The assert of the pool fails when it is started again. -/
  failed : s.failed ≠ [] → 2 ≤ s.starts.length

theorem new_tallied (fd numThreads : Nat) : (State.new fd numThreads).Tallied where
  started _ := rfl
  callers c hc := absurd hc List.not_mem_nil
  listens _ := rfl
  pool h := absurd rfl h
  poolOnce := Nat.le_refl 0
  poolUnstarted _ := rfl
  poolStarted h := absurd rfl h
  aborted h := by simp [State.new] at h
  listening := rfl
  failed h := absurd rfl h

theorem startingPool_cons (c : Call) (calls : List Call) :
    startingPool (c :: calls) = startingPool calls + if c.stage ≠ .tryListen then 1 else 0 := by
  rw [startingPool, List.countP_cons]
  simp [startingPool]

theorem startingPool_erase {calls : List Call} {c : Call} (h : c ∈ calls) :
    startingPool calls = startingPool (calls.erase c) + if c.stage ≠ .tryListen then 1 else 0 := by
  rw [← startingPool_cons]
  exact (List.perm_cons_erase h).countP_eq _

theorem Tallied.start (h : s.Tallied) (caller : Thread) :
    ({ s with
        calls := ⟨caller, if s.started_ then .tryListen else .setStarted⟩ :: s.calls
        starts := s.starts ++ [caller] } : State).Tallied := by
  have hlength : (s.starts ++ [caller]).length = s.starts.length + 1 := by
    rw [List.length_append, List.length_singleton]
  have hnew : startingPool (⟨caller, if s.started_ then .tryListen else .setStarted⟩ :: s.calls) =
      startingPool s.calls + if s.started_ then 0 else 1 := by
    rw [startingPool_cons]
    cases s.started_ <;> simp
  refine ⟨fun hnil => absurd hnil (by simp), ?_, ?_, ?_, ?_, h.poolUnstarted, ?_, ?_, h.listening, ?_⟩
  · intro c hc
    rcases List.mem_cons.mp hc with rfl | hc
    · exact List.mem_append_right _ List.mem_cons_self
    · exact List.mem_append_left _ (h.callers c hc)
  · intro hrun
    have hlistens := h.listens hrun
    simp only [List.length_cons, hlength]
    omega
  · intro _
    show 1 ≤ s.poolStarts + startingPool (_ :: s.calls)
    rw [hnew]
    by_cases hnil : s.starts = []
    · -- the first call finds `started_` unset
      rw [h.started hnil, if_neg Bool.false_ne_true]
      omega
    · have hpool := h.pool hnil
      omega
  · show s.poolStarts + startingPool (_ :: s.calls) ≤ (s.starts ++ [caller]).length
    have honce := h.poolOnce
    rw [hnew, hlength]
    split <;> omega
  · intro hne
    exact List.mem_append_left _ (h.poolStarted hne)
  · intro habort
    obtain ⟨c, hc, hne⟩ := h.aborted habort
    exact ⟨c, List.mem_append_left _ hc, hne⟩
  · intro hfailed
    have htwo := h.failed hfailed
    simp only [hlength]
    omega

/-- A call goes on, and what it has yet to do with the pool it still has to do. -/
theorem Tallied.setStarted (h : s.Tallied) {caller : Thread} (hmem : ⟨caller, .setStarted⟩ ∈ s.calls) :
    ({ s with
        started_ := true
        calls := ⟨caller, .startPool⟩ :: s.calls.erase ⟨caller, .setStarted⟩ } : State).Tallied := by
  have hcaller := h.callers _ hmem
  have hsame : startingPool (⟨caller, .startPool⟩ :: s.calls.erase ⟨caller, .setStarted⟩) =
      startingPool s.calls := by
    rw [startingPool_cons, startingPool_erase hmem]
    rfl
  refine ⟨?_, ?_, ?_, ?_, ?_, h.poolUnstarted, h.poolStarted, h.aborted, h.listening, h.failed⟩
  · intro hnil
    rw [show s.starts = [] from hnil] at hcaller
    exact absurd hcaller List.not_mem_nil
  · intro c hc
    rcases List.mem_cons.mp hc with rfl | hc
    · exact hcaller
    · exact h.callers c (List.mem_of_mem_erase hc)
  · intro hrun
    have hlistens := h.listens hrun
    have hlength := List.length_erase_of_mem hmem
    have hpos := List.length_pos_of_mem hmem
    simp only [List.length_cons]
    omega
  · intro hne
    show 1 ≤ s.poolStarts + startingPool (_ :: _)
    rw [hsame]
    exact h.pool hne
  · show s.poolStarts + startingPool (_ :: _) ≤ s.starts.length
    rw [hsame]
    exact h.poolOnce

/-- A call leaves: it has listened, or queued a functor that will. -/
theorem Tallied.leave (h : s.Tallied) {caller : Thread} (hmem : ⟨caller, .tryListen⟩ ∈ s.calls)
    {acceptor : Acceptor} {loop : EventLoop Functor} {listens : Nat}
    (hacceptor : acceptor.listening_ = false)
    (hone : listens + loop.waiting.length = s.listens + s.loop.waiting.length + 1) :
    ({ s with
        calls := s.calls.erase ⟨caller, .tryListen⟩
        acceptor_ := acceptor
        loop := loop
        listens := listens } : State).Tallied := by
  have hsame := startingPool_erase hmem
  rw [if_neg (by simp), Nat.add_zero] at hsame
  refine ⟨h.started, ?_, fun hrun => ?_, ?_, ?_, h.poolUnstarted, h.poolStarted, h.aborted, hacceptor,
    h.failed⟩
  · intro c hc
    exact h.callers c (List.mem_of_mem_erase hc)
  · have hlistens := h.listens hrun
    have hlength := List.length_erase_of_mem hmem
    have hpos := List.length_pos_of_mem hmem
    show listens + loop.waiting.length + (s.calls.erase ⟨caller, .tryListen⟩).length = s.starts.length
    omega
  · intro hne
    have hpool := h.pool hne
    rw [hsame] at hpool
    exact hpool
  · have honce := h.poolOnce
    rw [hsame] at honce
    exact honce

/-- The loop's queue moves, and what has left it has listened. -/
theorem Tallied.move (h : s.Tallied) {acceptor : Acceptor} {loop : EventLoop Functor} {listens : Nat}
    (hacceptor : acceptor.listening_ = false)
    (hone : listens + loop.waiting.length = s.listens + s.loop.waiting.length) :
    ({ s with acceptor_ := acceptor, loop := loop, listens := listens } : State).Tallied := by
  refine ⟨h.started, h.callers, fun hrun => ?_, h.pool, h.poolOnce, h.poolUnstarted, h.poolStarted,
    h.aborted, hacceptor, h.failed⟩
  have hlistens := h.listens hrun
  rw [← hone] at hlistens
  exact hlistens

/-- Where the pool's assert fails, somebody else has started the pool. -/
theorem Tallied.startedTwice (h : s.Tallied) {caller : Thread} (hmem : ⟨caller, .startPool⟩ ∈ s.calls)
    (hfailed : s.failed ++ Outcome.unmet (s.threadPool_.started_ = false) "!started_" ≠ []) :
    2 ≤ s.starts.length := by
  by_cases hbefore : s.failed = []
  · have hstarted : s.threadPool_.started_ ≠ false := by
      intro hunstarted
      rw [hbefore, Outcome.unmet_eq_nil.mpr hunstarted] at hfailed
      exact hfailed rfl
    have hpool : s.poolStarts ≠ 0 := fun hzero => hstarted (h.poolUnstarted hzero)
    have honce := h.poolOnce
    rw [startingPool_erase hmem, if_pos (by simp)] at honce
    omega
  · exact h.failed hbefore

/-- On the loop's thread the pool starts. -/
theorem Tallied.startPool (h : s.Tallied) {pool : EventLoopThreadPool}
    (hmem : ⟨.loop, .startPool⟩ ∈ s.calls) :
    ({ s with
        threadPool_ := pool
        calls := ⟨.loop, .tryListen⟩ :: s.calls.erase ⟨.loop, .startPool⟩
        poolStarts := s.poolStarts + 1
        failed := s.failed ++ Outcome.unmet (s.threadPool_.started_ = false) "!started_" } :
      State).Tallied := by
  have hcaller := h.callers _ hmem
  have hone := startingPool_erase hmem
  rw [if_pos (by simp)] at hone
  have hnew : startingPool (⟨.loop, .tryListen⟩ :: s.calls.erase ⟨.loop, .startPool⟩) =
      startingPool (s.calls.erase ⟨.loop, .startPool⟩) := by
    rw [startingPool_cons, if_neg (by simp), Nat.add_zero]
  refine ⟨h.started, ?_, fun hrun => ?_, ?_, ?_, fun hzero => absurd hzero (Nat.succ_ne_zero _),
    fun _ => hcaller, h.aborted, h.listening, h.startedTwice hmem⟩
  · intro c hc
    rcases List.mem_cons.mp hc with rfl | hc
    · exact hcaller
    · exact h.callers c (List.mem_of_mem_erase hc)
  · -- the call is still there
    have hlistens := h.listens hrun
    have hlength := List.length_erase_of_mem hmem
    have hpos := List.length_pos_of_mem hmem
    simp only [List.length_cons]
    omega
  · intro _
    show 1 ≤ s.poolStarts + 1 + startingPool (_ :: _)
    omega
  · show s.poolStarts + 1 + startingPool (_ :: _) ≤ s.starts.length
    have honce := h.poolOnce
    rw [hone] at honce
    rw [hnew]
    omega

/-- On another thread it aborts the process. -/
theorem Tallied.abort (h : s.Tallied) {caller : Thread} (hmem : ⟨caller, .startPool⟩ ∈ s.calls)
    (hcaller : caller ≠ .loop) :
    ({ s with
        aborted := true
        failed := s.failed ++ Outcome.unmet (s.threadPool_.started_ = false) "!started_" } :
      State).Tallied :=
  ⟨h.started, h.callers, by simp, h.pool, h.poolOnce, h.poolUnstarted, h.poolStarted,
    fun _ => ⟨caller, h.callers _ hmem, hcaller⟩, h.listening, h.startedTwice hmem⟩

theorem Tallied.step (h : s.Tallied) {e : Event} (hstep : s.step e = some s') : s'.Tallied := by
  cases e with
  | start caller =>
      simp only [State.step, Option.ite_none_right_eq_some, Option.some.injEq] at hstep
      obtain ⟨-, rfl⟩ := hstep
      exact h.start caller
  | setStarted caller =>
      simp only [State.step, Option.ite_none_right_eq_some, Option.some.injEq] at hstep
      obtain ⟨⟨-, hmem⟩, rfl⟩ := hstep
      exact h.setStarted hmem
  | startPool caller =>
      simp only [State.step, Option.ite_none_right_eq_some] at hstep
      obtain ⟨⟨-, hmem⟩, hstep⟩ := hstep
      by_cases hcaller : caller = .loop
      · subst hcaller
        simp only [EventLoopThreadPool.start, if_pos, Outcome.pure_eq, Outcome.assert_bind_ok,
          Option.some.injEq] at hstep
        subst hstep
        exact h.startPool hmem
      · simp only [EventLoopThreadPool.start, if_neg hcaller, Outcome.pure_eq, Outcome.assert_bind_ok,
          Option.some.injEq] at hstep
        subst hstep
        exact h.abort hmem hcaller
  | tryListen caller =>
      -- `listening()` is false in every state, so each call gets here
      simp only [State.step, Option.ite_none_right_eq_some, Option.some.injEq, h.listening,
        Bool.not_false, if_true] at hstep
      obtain ⟨⟨_, hmem⟩, rfl⟩ := hstep
      cases caller with
      | loop => exact h.leave hmem h.listening (Nat.add_right_comm _ _ _)
      | other i =>
          refine h.leave hmem h.listening ?_
          rw [EventLoop.waiting_queueInLoop, List.length_append]
          exact (Nat.add_assoc _ _ _).symm
  | doPendingFunctors =>
      simp only [State.step, Option.ite_none_right_eq_some, Option.some.injEq] at hstep
      obtain ⟨⟨_, _, _, hrest⟩, rfl⟩ := hstep
      exact h.move h.listening (by rw [EventLoop.waiting_swapFunctors hrest])
  | runFunctor =>
      simp only [State.step, Option.ite_none_right_eq_some] at hstep
      obtain ⟨_, hstep⟩ := hstep
      split at hstep
      · rename_i loop hnext
        obtain rfl := Option.some.inj hstep
        refine h.move h.listening ?_
        show s.listens + 1 + loop.waiting.length = _
        rw [EventLoop.nextFunctor_waiting hnext, List.length_cons]
        omega
      · cases hstep
  | endFunctors =>
      simp only [State.step, Option.ite_none_right_eq_some, Option.some.injEq] at hstep
      obtain ⟨⟨_, _, hrest⟩, rfl⟩ := hstep
      exact h.move h.listening (by rw [EventLoop.waiting_endFunctors hrest])

theorem reachable_tallied (h : machine.Reachable s) : s.Tallied := by
  refine h.invariant ?_ ?_
  · rintro s ⟨fd, numThreads, rfl⟩
    exact new_tallied fd numThreads
  · intro s e s' _ htallied _ hstep
    exact htallied.step hstep

/-- The process has not been aborted, the pool has been started once, and `listen` has run once. -/
def StartedOnce (s : State) : Prop :=
  s.aborted = false ∧ s.failed = [] ∧ s.poolStarts = 1 ∧ s.listens = 1

instance (s : State) : Decidable s.StartedOnce := inferInstanceAs (Decidable (_ ∧ _))

/-- **Starting once.** When nothing is left to do, the server has been started once if and only if
    `start()` was called once, and that on the loop's thread. -/
theorem start_once_iff (h : machine.Reachable s) (hsettled : s.Settled) :
    s.StartedOnce ↔ s.starts = [.loop] := by
  have htallied := reachable_tallied h
  constructor
  · rintro ⟨hrun, _, hpool, hlistens⟩
    obtain ⟨hcalls, hwaiting⟩ := hsettled.resolve_left (by rw [hrun]; decide)
    have hlength := htallied.listens hrun
    rw [hlistens, hcalls, hwaiting] at hlength
    obtain ⟨t, hstarts⟩ := List.length_eq_one_iff.mp hlength.symm
    have hloop := htallied.poolStarted (by rw [hpool]; decide)
    rw [hstarts, List.mem_singleton] at hloop
    rw [hstarts, hloop]
  · intro hstarts
    have hrun : s.aborted = false := by
      by_contra habort
      obtain ⟨caller, hmem, hcaller⟩ := htallied.aborted (by simpa using habort)
      rw [hstarts, List.mem_singleton] at hmem
      exact hcaller hmem
    have hfailed : s.failed = [] := by
      by_contra hfailed
      have htwo := htallied.failed hfailed
      rw [hstarts] at htwo
      exact absurd htwo (by decide)
    obtain ⟨hcalls, hwaiting⟩ := hsettled.resolve_left (by rw [hrun]; decide)
    have hpool := htallied.pool (by rw [hstarts]; simp)
    have honce := htallied.poolOnce
    have hlistens := htallied.listens hrun
    rw [hcalls, hstarts] at hlistens honce
    rw [hcalls] at hpool
    rw [hwaiting] at hlistens
    exact ⟨hrun, hfailed, Nat.le_antisymm honce hpool, hlistens⟩

/-- Called first by another thread, `start()` aborts the process. -/
theorem start_aborts :
    ¬ ∀ s, machine.Reachable s → s.Settled → s.starts ≠ [] → s.StartedOnce := by
  intro hclaim
  have hrun : ((machine.run (State.new 3 2)
      [.start (.other 1), .setStarted (.other 1), .startPool (.other 1)]).map
        fun s => (decide s.Settled, decide (s.starts ≠ []), decide s.StartedOnce)) =
      some (true, true, false) := by
    decide
  obtain ⟨s, hs, hvalues⟩ := Option.map_eq_some_iff.mp hrun
  simp only [Prod.mk.injEq, decide_eq_true_eq, decide_eq_false_iff_not] at hvalues
  exact hvalues.2.2 (hclaim s (Machine.run_reachable ⟨3, 2, rfl⟩ hs) hvalues.1 hvalues.2.1)

/-- One call on the loop's thread. -/
def startedHere : List Event :=
  [.start .loop, .setStarted .loop, .startPool .loop, .tryListen .loop]

/-- A second one, from another thread. -/
def startedAgain : List Event :=
  startedHere ++ [.start (.other 1), .tryListen (.other 1), .doPendingFunctors, .runFunctor]

/-- One call on the loop's thread starts the server once; after a second one `listen` has run twice. -/
theorem start_once_twice :
    (∃ s, machine.run (State.new 3 2) startedHere = some s ∧ s.StartedOnce) ∧
    ∃ s, machine.run (State.new 3 2) startedAgain = some s ∧ s.listens = 2 ∧ ¬ s.StartedOnce := by
  have hinit : machine.init (State.new 3 2) := ⟨3, 2, rfl⟩
  constructor
  · have hrun : ((machine.run (State.new 3 2) startedHere).map
        fun s => (decide s.Settled, s.starts)) = some (true, [.loop]) := by
      decide
    obtain ⟨s, hs, hvalues⟩ := Option.map_eq_some_iff.mp hrun
    simp only [Prod.mk.injEq, decide_eq_true_eq] at hvalues
    exact ⟨s, hs, (start_once_iff (Machine.run_reachable hinit hs) hvalues.1).mpr hvalues.2⟩
  · have hrun : ((machine.run (State.new 3 2) startedAgain).map
        fun s => (decide s.Settled, s.starts, s.listens)) = some (true, [.loop, .other 1], 2) := by
      decide
    obtain ⟨s, hs, hvalues⟩ := Option.map_eq_some_iff.mp hrun
    simp only [Prod.mk.injEq, decide_eq_true_eq] at hvalues
    refine ⟨s, hs, hvalues.2.2, fun honce => ?_⟩
    have hstarts := (start_once_iff (Machine.run_reachable hinit hs) hvalues.1).mp honce
    rw [hvalues.2.1] at hstarts
    exact absurd hstarts (by decide)

end State

end ServerStart

end Simplev
