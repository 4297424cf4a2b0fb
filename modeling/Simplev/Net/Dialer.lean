import Simplev.Foundation.Machine
import Simplev.Net.Connector
import Simplev.Net.TcpConnection

/-!
# `Net.Dialer` — a connector and its loop, run together

`dialerMachine` is the transition system behind every statement about a connector. A state is the
connector, the functor queue of its loop, the timers and connections it has out, and a log of what
became of its descriptors; an event is one atomic step of some thread.

- **Calls.** `start` and `stop` come from other threads at any time, and from the loop's own thread
  between two callbacks, between two functors and inside `newConnectionCallback_`.
- **The loop.** libev runs a functor batch, polls, then delivers what the poll found. What was started
  since the last poll (`fresh`) is not delivered yet: a watcher or a timer of this iteration waits
  until the next batch has run.
- **The owner.** A connection handed over closes once, on the loop's thread. The owner then does as
  `TcpClient::removeConnection` does: it queues `connectDestroyed` and calls `restart`, or not.

Descriptors are numbered in the order of their creation and never reused, like timer sequences, so that
a number names one socket. `Moves` is the inversion of `step`.
-/

namespace Simplev

open Foundation

namespace Dialer

/-- The functors of the loop. -/
inductive Functor where
  | connector (f : Connector.Functor)
  /-- Of the connection on `sockfd`. -/
  | connection (sockfd : Nat) (f : TcpConnection.Functor)
deriving DecidableEq

/-- Where the loop's thread is. -/
inductive Phase where
  /-- Between two callbacks. -/
  | between
  /-- In `doPendingFunctors`. -/
  | functors
  /-- In the `handleEvent` of the connector's channel, with these callbacks to make. -/
  | event (rest : List EventCallback)
deriving DecidableEq, Repr

/-- What libev watches: a timer, by its sequence, or a descriptor. -/
inductive Watcher where
  | timer (sequence : Nat)
  | io (sockfd : Nat)
deriving DecidableEq, Repr

end Dialer

open Dialer in
structure Dialer where
  connector : Connector
  loop : EventLoop Functor
  phase : Phase
  /-- `newConnectionCallback_` is running. -/
  user : Bool
  /-- The active timers, by sequence; each of them will call `startInLoop`. -/
  timers : List Nat
  /-- The connections handed over whose `handleClose` has not run. -/
  connections : List Nat
  /-- What was started since the last poll. -/
  fresh : List Watcher
  /-- `Timer::s_numCreated_`. -/
  numCreated : Nat
  /-- How many sockets were created; the next one gets this number. -/
  nextFd : Nat
  /-- The descriptor of the last attempt that got a channel. -/
  attempt : Option Nat
  /-- The descriptors the connector closed, in order. -/
  closed : List Nat
  /-- The descriptors it handed over, in order. -/
  handed : List Nat
  /-- The asserts that failed. -/
  failed : List String
  /-- A null `channel_` was used. -/
  crashed : Bool
deriving DecidableEq

namespace Dialer

def new : Dialer where
  connector := Connector.new
  loop := EventLoop.new
  phase := .between
  user := false
  timers := []
  connections := []
  fresh := []
  numCreated := 0
  nextFd := 0
  attempt := none
  closed := []
  handed := []
  failed := []
  crashed := false

/-- What the next socket and the next timer get. -/
def supply (s : Dialer) : Connector.Fresh := ⟨s.nextFd, s.numCreated + 1⟩

/-! ## The actions of a member function take effect -/

def apply (s : Dialer) : Connector.Action → Dialer
  | .socket _ => { s with nextFd := s.nextFd + 1 }
  | .watch sockfd => { s with attempt := some sockfd, fresh := s.fresh ++ [.io sockfd] }
  | .close sockfd => { s with closed := s.closed ++ [sockfd] }
  | .newConnection sockfd =>
    { s with
      handed := s.handed ++ [sockfd]
      connections := s.connections ++ [sockfd]
      fresh := s.fresh ++ [.io sockfd]
      user := true }
  | .destroy _ => s
  | .queueInLoop f => { s with loop := s.loop.queueInLoop (.connector f) }
  | .runAfter sequence _ =>
    { s with
      timers := s.timers ++ [sequence]
      fresh := s.fresh ++ [.timer sequence]
      numCreated := s.numCreated + 1 }
  | .cancel sequence => { s with timers := s.timers.filter (· ≠ sequence) }

/-- The state after a member function left the connector `c`, having done `actions`. -/
def after (s : Dialer) (c : Connector) (actions : List Connector.Action) (fs : List String) :
    Dialer :=
  { actions.foldl apply s with connector := c, failed := s.failed ++ fs }

/-! ## Events -/

inductive Event where
  /-- `start()`; `savedErrno` is the result of `connect(2)`, if this call makes it. -/
  | start (caller : Thread) (savedErrno : Connector.SavedErrno)
  | stop (caller : Thread)
  | doPendingFunctors
  | runFunctor (savedErrno : Connector.SavedErrno)
  /-- The batch is done; libev polls. -/
  | endFunctors
  /-- A timer expires. -/
  | expire (sequence : Nat) (savedErrno : Connector.SavedErrno)
  /-- libev calls the watcher of `channel_`. -/
  | handleEvent (revents : Revents)
  /-- The next callback of the event. -/
  | runCallback (probe : Connector.Probe)
  /-- `newConnectionCallback_` returns. -/
  | leaveUser
  | endEvent
  /-- `handleClose` of a connection; the owner restarts the connector, or not. -/
  | handleClose (sockfd : Nat) (restart : Bool) (savedErrno : Connector.SavedErrno)
deriving DecidableEq

/-- The loop's own thread runs code other than the connector's in a functor, a watcher or
    `newConnectionCallback_`. -/
def MayCall (s : Dialer) (caller : Thread) : Prop :=
  caller = .loop → s.phase = .between ∨ s.phase = .functors ∨ s.user = true

instance (s : Dialer) (caller : Thread) : Decidable (s.MayCall caller) :=
  inferInstanceAs (Decidable (_ → _))

/-- libev found `channel_` ready in the last poll. -/
def Delivers (s : Dialer) (revents : Revents) : Prop :=
  match s.connector.channel_ with
  | some channel => channel.Delivers revents ∧ .io channel.fd_ ∉ s.fresh
  | none => False

instance (s : Dialer) (revents : Revents) : Decidable (s.Delivers revents) := by
  unfold Delivers
  cases s.connector.channel_ with
  | none => infer_instance
  | some channel => infer_instance

/-- The first half of an event: where the threads are afterwards, and the member function that runs.
    `none` when the event cannot happen. -/
def begin (s : Dialer) : Event → Option (Dialer × Connector.Result)
  | .start caller savedErrno =>
    if s.MayCall caller then some (s, s.connector.start caller s.supply savedErrno) else none
  | .stop caller =>
    if s.MayCall caller then some (s, pure (s.connector.stop caller)) else none
  | .doPendingFunctors =>
    if s.phase = .between then
      some ({ s with phase := .functors, loop := s.loop.swapFunctors }, pure (s.connector, []))
    else none
  | .runFunctor savedErrno =>
    if s.phase = .functors then
      match s.loop.nextFunctor with
      | some (.connector f, loop) =>
        some ({ s with loop := loop }, f.run s.connector s.supply savedErrno)
      | some (.connection _ _, loop) => some ({ s with loop := loop }, pure (s.connector, []))
      | none => none
    else none
  | .endFunctors =>
    if s.phase = .functors ∧ s.loop.rest = [] then
      some ({ s with phase := .between, loop := s.loop.endFunctors, fresh := [] },
        pure (s.connector, []))
    else none
  | .expire sequence savedErrno =>
    if s.phase = .between ∧ sequence ∈ s.timers ∧ .timer sequence ∉ s.fresh then
      some ({ s with timers := s.timers.filter (· ≠ sequence) },
        s.connector.startInLoop s.supply savedErrno)
    else none
  | .handleEvent revents =>
    if s.phase = .between ∧ s.Delivers revents then
      some ({ s with phase := .event (Channel.handleEventWithGuard revents) },
        pure ({ s.connector with channel_ := s.connector.channel_.map Channel.beginEvent }, []))
    else none
  | .runCallback probe =>
    match s.phase with
    | .event (cb :: rest) =>
      if s.user = false then
        some ({ s with phase := .event rest }, s.connector.handleEvent cb s.supply probe)
      else none
    | _ => none
  | .leaveUser =>
    if s.user = true then some ({ s with user := false }, pure (s.connector, [])) else none
  | .endEvent =>
    if s.phase = .event [] ∧ s.user = false then
      some ({ s with phase := .between },
        pure ({ s.connector with channel_ := s.connector.channel_.map Channel.endEvent }, []))
    else none
  | .handleClose sockfd restart savedErrno =>
    if s.phase = .between ∧ sockfd ∈ s.connections ∧ .io sockfd ∉ s.fresh then
      some ({ s with
          connections := s.connections.filter (· ≠ sockfd)
          loop := s.loop.queueInLoop (.connection sockfd .connectDestroyed) },
        if restart then s.connector.restart s.supply savedErrno else pure (s.connector, []))
    else none

/-- One atomic step. The use of a null `channel_` ends the run. -/
def step (s : Dialer) (e : Event) : Option Dialer :=
  if s.crashed then none
  else match s.begin e with
    | some (s₁, .ok (c, actions) fs) => some (s₁.after c actions fs)
    | some (_, .thrown what) => some { s with failed := s.failed ++ [what], crashed := true }
    | none => none

/-! ## Inversion -/

/-- The events that run `startInLoop`, with the result of its `connect(2)` and the state it runs in. -/
inductive Launching (s : Dialer) : Event → Connector.SavedErrno → Dialer → Prop
  | start {savedErrno} (may : s.MayCall .loop) :
      Launching s (.start .loop savedErrno) savedErrno
        { s with connector := { s.connector with connect_ := true } }
  | functor {savedErrno loop} (phase : s.phase = .functors)
      (next : s.loop.nextFunctor = some (.connector .startInLoop, loop)) :
      Launching s (.runFunctor savedErrno) savedErrno { s with loop := loop }
  | expire {sequence savedErrno} (phase : s.phase = .between) (active : sequence ∈ s.timers)
      (polled : .timer sequence ∉ s.fresh) :
      Launching s (.expire sequence savedErrno) savedErrno
        { s with timers := s.timers.filter (· ≠ sequence) }
  | restart {sockfd savedErrno} (phase : s.phase = .between) (opened : sockfd ∈ s.connections)
      (polled : .io sockfd ∉ s.fresh) :
      Launching s (.handleClose sockfd true savedErrno) savedErrno
        { s with
          connections := s.connections.filter (· ≠ sockfd)
          loop := s.loop.queueInLoop (.connection sockfd .connectDestroyed)
          connector :=
            { s.connector with
              state_ := .kDisconnected
              retryDelayMs_ := Connector.kInitRetryDelayMs
              connect_ := true } }

/-- The state in which an event runs `startInLoop`, with the result of its `connect(2)`, if it does. -/
def launch (s : Dialer) : Event → Option (Connector.SavedErrno × Dialer)
  | .start .loop savedErrno =>
    some (savedErrno, { s with connector := { s.connector with connect_ := true } })
  | .runFunctor savedErrno =>
    match s.loop.nextFunctor with
    | some (.connector .startInLoop, loop) => some (savedErrno, { s with loop := loop })
    | _ => none
  | .expire sequence savedErrno =>
    some (savedErrno, { s with timers := s.timers.filter (· ≠ sequence) })
  | .handleClose sockfd true savedErrno =>
    some (savedErrno,
      { s with
        connections := s.connections.filter (· ≠ sockfd)
        loop := s.loop.queueInLoop (.connection sockfd .connectDestroyed)
        connector :=
          { s.connector with
            state_ := .kDisconnected
            retryDelayMs_ := Connector.kInitRetryDelayMs
            connect_ := true } })
  | _ => none

theorem Launching.launch_eq {s s₁ : Dialer} {e : Event} {savedErrno : Connector.SavedErrno}
    (h : Launching s e savedErrno s₁) : s.launch e = some (savedErrno, s₁) := by
  cases h with
  | start _ => rfl
  | functor _ next => simp only [launch, next]
  | expire _ _ _ => rfl
  | restart _ _ _ => rfl

/-- The events that may end an attempt, with the state they run in. -/
inductive Ending (s : Dialer) : Event → Bool → Dialer → Prop
  | stopInLoop {savedErrno loop} (phase : s.phase = .functors)
      (next : s.loop.nextFunctor = some (.connector .stopInLoop, loop)) :
      Ending s (.runFunctor savedErrno) false { s with loop := loop }
  | handleError {probe rest} (phase : s.phase = .event (.errorCallback :: rest))
      (free : s.user = false) :
      Ending s (.runCallback probe) false { s with phase := .event rest }
  | handleWrite {probe rest} (phase : s.phase = .event (.writeCallback :: rest))
      (free : s.user = false) :
      Ending s (.runCallback probe) true { s with phase := .event rest }

/-- The state that `startInLoop` leaves. -/
inductive Launched (s : Dialer) (savedErrno : Connector.SavedErrno) : Dialer → Prop
  | declined (off : s.connector.connect_ = false) :
      Launched s savedErrno
        { s with
          failed := s.failed ++
            Outcome.unmet (s.connector.state_ = .kDisconnected) "state_ == kDisconnected" }
  | began {destroyed gs} (on : s.connector.connect_ = true) (begins : savedErrno.begins = true)
      (old : s.connector.destroyChannel = .ok destroyed gs) :
      Launched s savedErrno
        { s with
          connector := s.connector.watching s.nextFd
          nextFd := s.nextFd + 1
          attempt := some s.nextFd
          fresh := s.fresh ++ [.io s.nextFd]
          failed := s.failed ++
            (Outcome.unmet (s.connector.state_ = .kDisconnected) "state_ == kDisconnected" ++
              (Outcome.unmet (s.connector.channel_ = none) "!channel_" ++ gs)) }
  | retried (on : s.connector.connect_ = true) (retries : savedErrno.retries = true) :
      Launched s savedErrno
        { s with
          connector := s.connector.retrying (s.numCreated + 1)
          nextFd := s.nextFd + 1
          closed := s.closed ++ [s.nextFd]
          timers := s.timers ++ [s.numCreated + 1]
          fresh := s.fresh ++ [.timer (s.numCreated + 1)]
          numCreated := s.numCreated + 1
          failed := s.failed ++
            Outcome.unmet (s.connector.state_ = .kDisconnected) "state_ == kDisconnected" }
  | gaveUp (on : s.connector.connect_ = true) (begins : savedErrno.begins = false)
      (retries : savedErrno.retries = false) :
      Launched s savedErrno
        { s with
          nextFd := s.nextFd + 1
          closed := s.closed ++ [s.nextFd]
          failed := s.failed ++
            Outcome.unmet (s.connector.state_ = .kDisconnected) "state_ == kDisconnected" }

/-- The state that `handleWrite`, `handleError` and `stopInLoop` leave. -/
inductive Ended (s : Dialer) (writable : Bool) : Dialer → Prop
  | ignored {fs} (idle : s.connector.state_ ≠ .kConnecting)
      (failed : ∀ a ∈ fs, a = "state_ == kDisconnected" ∧ s.connector.state_ ≠ .kDisconnected ∧
        writable = true) :
      Ended s writable { s with failed := s.failed ++ fs }
  | retried {channel} (busy : s.connector.state_ = .kConnecting)
      (watched : s.connector.channel_ = some channel) (on : s.connector.connect_ = true) :
      Ended s writable
        { s with
          connector := (s.connector.leaving channel .kDisconnected).retrying (s.numCreated + 1)
          loop := s.loop.queueInLoop (.connector (.resetChannel channel.fd_))
          closed := s.closed ++ [channel.fd_]
          timers := s.timers ++ [s.numCreated + 1]
          fresh := s.fresh ++ [.timer (s.numCreated + 1)]
          numCreated := s.numCreated + 1 }
  | dropped {channel} (busy : s.connector.state_ = .kConnecting)
      (watched : s.connector.channel_ = some channel) (off : s.connector.connect_ = false) :
      Ended s writable
        { s with
          connector := s.connector.leaving channel .kDisconnected
          loop := s.loop.queueInLoop (.connector (.resetChannel channel.fd_))
          closed := s.closed ++ [channel.fd_] }
  | handedOver {channel} (busy : s.connector.state_ = .kConnecting)
      (watched : s.connector.channel_ = some channel) (on : s.connector.connect_ = true)
      (connected : writable = true) :
      Ended s writable
        { s with
          connector := s.connector.leaving channel .kConnected
          loop := s.loop.queueInLoop (.connector (.resetChannel channel.fd_))
          handed := s.handed ++ [channel.fd_]
          connections := s.connections ++ [channel.fd_]
          fresh := s.fresh ++ [.io channel.fd_]
          user := true }
  | cancelled {channel} (busy : s.connector.state_ = .kConnecting)
      (watched : s.connector.channel_ = some channel) (off : s.connector.connect_ = false)
      (connected : writable = true) :
      Ended s writable
        { s with
          connector := s.connector.leaving channel .kConnected
          loop := s.loop.queueInLoop (.connector (.resetChannel channel.fd_))
          closed := s.closed ++ [channel.fd_] }

/-- **What a step can do.** -/
inductive Moves (s : Dialer) : Event → Dialer → Prop
  | launch {e savedErrno s₁ s'} (launching : Launching s e savedErrno s₁)
      (run : Launched s₁ savedErrno s') : Moves s e s'
  | ends {e writable s₁ s'} (ending : Ending s e writable s₁) (run : Ended s₁ writable s') :
      Moves s e s'
  | start {id savedErrno} :
      Moves s (.start (.other id) savedErrno)
        { s with
          connector := { s.connector with connect_ := true }
          loop := s.loop.queueInLoop (.connector .startInLoop) }
  | stop (may : s.MayCall .loop) :
      Moves s (.stop .loop)
        { s with
          connector := { s.connector with connect_ := false }
          loop := s.loop.queueInLoop (.connector .stopInLoop)
          timers := s.timers.filter (· ≠ s.connector.timerId_) }
  | stopLater {id} :
      Moves s (.stop (.other id))
        { s with
          connector := { s.connector with connect_ := false }
          loop := (s.loop.queueInLoop (.connector .stopInLoop)).queueInLoop
            (.connector (.cancelInLoop s.connector.timerId_)) }
  | doPendingFunctors (phase : s.phase = .between) :
      Moves s .doPendingFunctors { s with phase := .functors, loop := s.loop.swapFunctors }
  | resetChannel {savedErrno sockfd loop destroyed fs} (phase : s.phase = .functors)
      (next : s.loop.nextFunctor = some (.connector (.resetChannel sockfd), loop))
      (old : s.connector.destroyChannel = .ok destroyed fs) :
      Moves s (.runFunctor savedErrno)
        { s with
          loop := loop
          connector := { s.connector with channel_ := none }
          failed := s.failed ++ fs }
  | cancelInLoop {savedErrno sequence loop} (phase : s.phase = .functors)
      (next : s.loop.nextFunctor = some (.connector (.cancelInLoop sequence), loop)) :
      Moves s (.runFunctor savedErrno)
        { s with loop := loop, timers := s.timers.filter (· ≠ sequence) }
  | connection {savedErrno sockfd f loop} (phase : s.phase = .functors)
      (next : s.loop.nextFunctor = some (.connection sockfd f, loop)) :
      Moves s (.runFunctor savedErrno) { s with loop := loop }
  | endFunctors (phase : s.phase = .functors) (done : s.loop.rest = []) :
      Moves s .endFunctors { s with phase := .between, loop := s.loop.endFunctors, fresh := [] }
  | handleEvent {revents} (phase : s.phase = .between) (delivers : s.Delivers revents) :
      Moves s (.handleEvent revents)
        { s with
          phase := .event (Channel.handleEventWithGuard revents)
          connector :=
            { s.connector with channel_ := s.connector.channel_.map Channel.beginEvent } }
  | readCallback {probe rest} (phase : s.phase = .event (.readCallback :: rest))
      (free : s.user = false) :
      Moves s (.runCallback probe) { s with phase := .event rest }
  | leaveUser (inside : s.user = true) : Moves s .leaveUser { s with user := false }
  | endEvent (phase : s.phase = .event []) (free : s.user = false) :
      Moves s .endEvent
        { s with
          phase := .between
          connector := { s.connector with channel_ := s.connector.channel_.map Channel.endEvent } }
  | handleClose {sockfd savedErrno} (phase : s.phase = .between) (opened : sockfd ∈ s.connections)
      (polled : .io sockfd ∉ s.fresh) :
      Moves s (.handleClose sockfd false savedErrno)
        { s with
          connections := s.connections.filter (· ≠ sockfd)
          loop := s.loop.queueInLoop (.connection sockfd .connectDestroyed) }
  | crash {e} (dangles : s.connector.Dangles) :
      Moves s e { s with failed := s.failed ++ ["px != 0"], crashed := true }

/-- An event that changes nothing in the connector by itself. -/
theorem after_self (s : Dialer) (c : Connector) :
    s.after c [] [] = { s with connector := c } := by
  simp only [after, List.foldl_nil, List.append_nil]

/-- Actions neither read nor write the connector. -/
theorem foldl_apply_connector (s : Dialer) (c : Connector) (actions : List Connector.Action) :
    actions.foldl apply { s with connector := c } = { actions.foldl apply s with connector := c } := by
  induction actions generalizing s with
  | nil => rfl
  | cons a actions ih =>
      simp only [List.foldl_cons]
      rw [← ih]
      congr 1
      cases a <;> rfl

theorem after_connector (s : Dialer) (c₀ c : Connector) (actions : List Connector.Action)
    (fs : List String) : { s with connector := c₀ }.after c actions fs = s.after c actions fs := by
  simp only [after, foldl_apply_connector]

variable {s s' s₁ : Dialer} {e : Event} {c : Connector} {actions : List Connector.Action}
  {fs : List String} {what : String} {savedErrno : Connector.SavedErrno} {writable : Bool}

/-- A destroyed channel takes nothing else with it. -/
theorem foldl_destroyed {destroyed : List Connector.Action} {gs : List String}
    (h : c.destroyChannel = .ok destroyed gs) (s : Dialer) : destroyed.foldl apply s = s := by
  unfold Connector.destroyChannel at h
  cases hchannel : c.channel_ with
  | none =>
      simp only [hchannel, Outcome.pure_eq, Outcome.ok.injEq] at h
      rw [← h.1]
      rfl
  | some channel =>
      simp only [hchannel] at h
      obtain ⟨gs', hret, -⟩ := Outcome.assert_bind_eq_ok h
      simp only [Outcome.pure_eq, Outcome.ok.injEq] at hret
      rw [← hret.1]
      rfl

theorem after_launches (h : Connector.Launches s.connector s.supply savedErrno c actions fs) :
    Launched s savedErrno (s.after c actions fs) := by
  cases h with
  | declined off => exact .declined off
  | began on begins old =>
      have hafter := Launched.began on begins old
      simp only [after, List.foldl_cons, List.foldl_append, foldl_destroyed old, List.foldl_nil]
      exact hafter
  | retried on retries => exact .retried on retries
  | gaveUp on begins retries => exact .gaveUp on begins retries

theorem after_ends (h : Connector.Ends s.connector s.supply writable c actions fs) :
    Ended s writable (s.after c actions fs) := by
  cases h with
  | ignored idle failed => exact .ignored idle failed
  | retried busy watched on =>
      simp only [after, List.append_nil]
      exact .retried busy watched on
  | dropped busy watched off =>
      simp only [after, List.append_nil]
      exact .dropped busy watched off
  | handedOver busy watched on connected =>
      simp only [after, List.append_nil]
      exact .handedOver busy watched on connected
  | cancelled busy watched off connected =>
      simp only [after, List.append_nil]
      exact .cancelled busy watched off connected

/-- `start()` is called, on the loop's thread or on another one. -/
theorem start_moves {caller : Thread} (hmay : s.MayCall caller)
    (hrun : s.connector.start caller s.supply savedErrno = .ok (c, actions) fs) :
    Moves s (.start caller savedErrno) (s.after c actions fs) := by
  cases caller with
  | loop =>
      rw [← after_connector s { s.connector with connect_ := true }]
      exact .launch (.start hmay) (after_launches (Connector.startInLoop_launches hrun))
  | other id =>
      simp only [Connector.start, Outcome.pure_eq, Outcome.ok.injEq, Prod.mk.injEq] at hrun
      obtain ⟨⟨rfl, rfl⟩, rfl⟩ := hrun
      simp only [after, List.append_nil]
      exact .start

theorem stop_moves {caller : Thread} (hmay : s.MayCall caller)
    (hrun : s.connector.stop caller = (c, actions)) :
    Moves s (.stop caller) (s.after c actions []) := by
  cases caller with
  | loop =>
      simp only [Connector.stop, Prod.mk.injEq] at hrun
      obtain ⟨rfl, rfl⟩ := hrun
      simp only [after, List.append_nil]
      exact .stop hmay
  | other id =>
      simp only [Connector.stop, Prod.mk.injEq] at hrun
      obtain ⟨rfl, rfl⟩ := hrun
      simp only [after, List.append_nil]
      exact .stopLater

/-- A functor of the connector runs. -/
theorem functor_moves {f : Connector.Functor} {loop : EventLoop Functor} (hphase : s.phase = .functors)
    (hnext : s.loop.nextFunctor = some (.connector f, loop))
    (hrun : f.run s.connector s.supply savedErrno = .ok (c, actions) fs) :
    Moves s (.runFunctor savedErrno) (({ s with loop := loop } : Dialer).after c actions fs) := by
  cases f with
  | startInLoop =>
      have hlaunches := Connector.startInLoop_launches hrun
      exact .launch (.functor hphase hnext) (after_launches hlaunches)
  | stopInLoop =>
      exact .ends (.stopInLoop hphase hnext) (after_ends (Connector.stopInLoop_ends hrun))
  | resetChannel sockfd =>
      -- what is destroyed is a channel, and nothing of the loop or of the descriptors goes with it
      obtain ⟨destroyed, gs, heq, hold⟩ := Connector.resetChannel_eq (c := s.connector)
      rw [Connector.Functor.run, heq, Outcome.ok.injEq, Prod.mk.injEq] at hrun
      obtain ⟨⟨rfl, rfl⟩, rfl⟩ := hrun
      simp only [after, foldl_destroyed hold]
      exact .resetChannel hphase hnext hold
  | cancelInLoop sequence =>
      simp only [Connector.Functor.run, Outcome.pure_eq, Outcome.ok.injEq, Prod.mk.injEq] at hrun
      obtain ⟨⟨rfl, rfl⟩, rfl⟩ := hrun
      simp only [after, List.append_nil]
      exact .cancelInLoop hphase hnext

/-- The channel calls the connector. -/
theorem callback_moves {cb : EventCallback} {rest : List EventCallback} {probe : Connector.Probe}
    (hphase : s.phase = .event (cb :: rest)) (hfree : s.user = false)
    (hrun : s.connector.handleEvent cb s.supply probe = .ok (c, actions) fs) :
    Moves s (.runCallback probe) (({ s with phase := .event rest } : Dialer).after c actions fs) := by
  cases cb with
  | errorCallback =>
      exact .ends (.handleError hphase hfree) (after_ends (Connector.handleError_ends hrun))
  | readCallback =>
      simp only [Connector.handleEvent, Outcome.pure_eq, Outcome.ok.injEq, Prod.mk.injEq] at hrun
      obtain ⟨⟨rfl, rfl⟩, rfl⟩ := hrun
      rw [after_self]
      exact .readCallback hphase hfree
  | writeCallback =>
      exact .ends (.handleWrite hphase hfree) (after_ends (Connector.handleWrite_ends hrun))

/-- A member function returned. -/
theorem begin_moves (h : s.begin e = some (s₁, .ok (c, actions) fs)) :
    Moves s e (s₁.after c actions fs) := by
  cases e with
  | start caller savedErrno =>
      simp only [begin, Option.ite_none_right_eq_some, Option.some.injEq, Prod.mk.injEq] at h
      obtain ⟨hmay, rfl, hrun⟩ := h
      exact start_moves hmay hrun
  | stop caller =>
      simp only [begin, Option.ite_none_right_eq_some, Option.some.injEq, Prod.mk.injEq,
        Outcome.pure_eq, Outcome.ok.injEq] at h
      obtain ⟨hmay, rfl, hrun, rfl⟩ := h
      exact stop_moves hmay hrun
  | doPendingFunctors =>
      simp only [begin, Option.ite_none_right_eq_some, Option.some.injEq, Prod.mk.injEq,
        Outcome.pure_eq, Outcome.ok.injEq] at h
      obtain ⟨hphase, rfl, ⟨rfl, rfl⟩, rfl⟩ := h
      rw [after_self]
      exact .doPendingFunctors hphase
  | runFunctor savedErrno =>
      simp only [begin, Option.ite_none_right_eq_some] at h
      obtain ⟨hphase, h⟩ := h
      split at h
      · rename_i f loop hnext
        simp only [Option.some.injEq, Prod.mk.injEq] at h
        obtain ⟨rfl, hrun⟩ := h
        exact functor_moves hphase hnext hrun
      · rename_i sockfd loop hnext
        simp only [Option.some.injEq, Prod.mk.injEq, Outcome.pure_eq, Outcome.ok.injEq] at h
        obtain ⟨rfl, ⟨rfl, rfl⟩, rfl⟩ := h
        rw [after_self]
        exact .connection hphase hnext
      · exact absurd h (by simp)
  | endFunctors =>
      simp only [begin, Option.ite_none_right_eq_some, Option.some.injEq, Prod.mk.injEq,
        Outcome.pure_eq, Outcome.ok.injEq] at h
      obtain ⟨⟨hphase, hdone⟩, rfl, ⟨rfl, rfl⟩, rfl⟩ := h
      rw [after_self]
      exact .endFunctors hphase hdone
  | expire sequence savedErrno =>
      simp only [begin, Option.ite_none_right_eq_some, Option.some.injEq, Prod.mk.injEq] at h
      obtain ⟨⟨hphase, hactive, hpolled⟩, rfl, hrun⟩ := h
      exact .launch (.expire hphase hactive hpolled)
        (after_launches (Connector.startInLoop_launches hrun))
  | handleEvent revents =>
      simp only [begin, Option.ite_none_right_eq_some, Option.some.injEq, Prod.mk.injEq,
        Outcome.pure_eq, Outcome.ok.injEq] at h
      obtain ⟨⟨hphase, hdelivers⟩, rfl, ⟨rfl, rfl⟩, rfl⟩ := h
      rw [after_self]
      exact .handleEvent hphase hdelivers
  | runCallback probe =>
      simp only [begin] at h
      split at h
      · rename_i cb rest hphase
        simp only [Option.ite_none_right_eq_some, Option.some.injEq, Prod.mk.injEq] at h
        obtain ⟨hfree, rfl, hrun⟩ := h
        exact callback_moves hphase hfree hrun
      · exact absurd h (by simp)
  | leaveUser =>
      simp only [begin, Option.ite_none_right_eq_some, Option.some.injEq, Prod.mk.injEq,
        Outcome.pure_eq, Outcome.ok.injEq] at h
      obtain ⟨hinside, rfl, ⟨rfl, rfl⟩, rfl⟩ := h
      rw [after_self]
      exact .leaveUser hinside
  | endEvent =>
      simp only [begin, Option.ite_none_right_eq_some, Option.some.injEq, Prod.mk.injEq,
        Outcome.pure_eq, Outcome.ok.injEq] at h
      obtain ⟨⟨hphase, hfree⟩, rfl, ⟨rfl, rfl⟩, rfl⟩ := h
      rw [after_self]
      exact .endEvent hphase hfree
  | handleClose sockfd restart savedErrno =>
      simp only [begin, Option.ite_none_right_eq_some, Option.some.injEq, Prod.mk.injEq] at h
      obtain ⟨⟨hphase, hopened, hpolled⟩, rfl, hrun⟩ := h
      cases restart with
      | true =>
          rw [if_pos rfl] at hrun
          rw [← after_connector _ { s.connector with
            state_ := .kDisconnected
            retryDelayMs_ := Connector.kInitRetryDelayMs
            connect_ := true }]
          exact .launch (.restart hphase hopened hpolled)
            (after_launches (Connector.startInLoop_launches hrun))
      | false =>
          simp only [Bool.false_eq_true, if_false, Outcome.pure_eq, Outcome.ok.injEq,
            Prod.mk.injEq] at hrun
          obtain ⟨⟨rfl, rfl⟩, rfl⟩ := hrun
          rw [after_self]
          exact .handleClose hphase hopened hpolled

/-- A member function used a null `channel_`. -/
theorem begin_dangles (h : s.begin e = some (s₁, .thrown what)) :
    s.connector.Dangles ∧ what = "px != 0" := by
  cases e with
  | start caller savedErrno =>
      simp only [begin, Option.ite_none_right_eq_some, Option.some.injEq, Prod.mk.injEq] at h
      cases caller with
      | loop => exact absurd h.2.2 (Connector.startInLoop_ne_thrown what)
      | other id => exact absurd h.2.2 (by rintro ⟨⟩)
  | runFunctor savedErrno =>
      simp only [begin, Option.ite_none_right_eq_some] at h
      obtain ⟨hphase, h⟩ := h
      split at h
      · rename_i f loop hnext
        simp only [Option.some.injEq, Prod.mk.injEq] at h
        cases f with
        | startInLoop => exact absurd h.2 (Connector.startInLoop_ne_thrown what)
        | stopInLoop => exact Connector.stopInLoop_dangles h.2
        | resetChannel sockfd =>
            obtain ⟨destroyed, gs, heq, -⟩ := Connector.resetChannel_eq (c := s.connector)
            rw [Connector.Functor.run, heq] at h
            exact absurd h.2 (by simp)
        | cancelInLoop sequence => exact absurd h.2 (by rintro ⟨⟩)
      · simp at h
      · exact absurd h (by simp)
  | expire sequence savedErrno =>
      simp only [begin, Option.ite_none_right_eq_some, Option.some.injEq, Prod.mk.injEq] at h
      exact absurd h.2.2 (Connector.startInLoop_ne_thrown what)
  | runCallback probe =>
      simp only [begin] at h
      split at h
      · rename_i cb rest hphase
        simp only [Option.ite_none_right_eq_some, Option.some.injEq, Prod.mk.injEq] at h
        cases cb with
        | errorCallback => exact Connector.handleError_dangles h.2.2
        | readCallback => exact absurd h.2.2 (by rintro ⟨⟩)
        | writeCallback => exact Connector.handleWrite_dangles h.2.2
      · exact absurd h (by simp)
  | handleClose sockfd restart savedErrno =>
      simp only [begin, Option.ite_none_right_eq_some, Option.some.injEq, Prod.mk.injEq] at h
      cases restart with
      | true => exact absurd h.2.2 (Connector.startInLoop_ne_thrown what)
      | false => exact absurd h.2.2 (by simp)
  | stop caller => simp [begin] at h
  | doPendingFunctors => simp [begin] at h
  | endFunctors => simp [begin] at h
  | handleEvent revents => simp [begin] at h
  | leaveUser => simp [begin] at h
  | endEvent => simp [begin] at h

theorem step_moves (h : s.step e = some s') : Moves s e s' := by
  unfold step at h
  by_cases hcrashed : s.crashed = true
  · simp [hcrashed] at h
  · rw [if_neg hcrashed] at h
    split at h
    · rename_i s₁ c actions fs hbegin
      simp only [Option.some.injEq] at h
      exact h ▸ begin_moves hbegin
    · rename_i s₁ what hbegin
      simp only [Option.some.injEq] at h
      obtain ⟨hdangles, rfl⟩ := begin_dangles hbegin
      exact h ▸ .crash hdangles
    · exact absurd h (by simp)

theorem Launching.failed_eq (h : Launching s e savedErrno s₁) : s₁.failed = s.failed := by
  cases h <;> rfl

theorem Ending.failed_eq (h : Ending s e writable s₁) : s₁.failed = s.failed := by
  cases h <;> rfl

/-- What failed stays failed. -/
theorem Moves.failed_append (h : Moves s e s') : ∃ fs, s'.failed = s.failed ++ fs := by
  cases h with
  | launch launching run =>
      rw [← launching.failed_eq]
      cases run with
      | declined _ => exact ⟨_, rfl⟩
      | began _ _ _ => exact ⟨_, rfl⟩
      | retried _ _ => exact ⟨_, rfl⟩
      | gaveUp _ _ _ => exact ⟨_, rfl⟩
  | ends ending run =>
      rw [← ending.failed_eq]
      cases run with
      | ignored _ _ => exact ⟨_, rfl⟩
      | retried _ _ _ => exact ⟨[], (List.append_nil _).symm⟩
      | dropped _ _ _ => exact ⟨[], (List.append_nil _).symm⟩
      | handedOver _ _ _ _ => exact ⟨[], (List.append_nil _).symm⟩
      | cancelled _ _ _ _ => exact ⟨[], (List.append_nil _).symm⟩
  | resetChannel _ _ _ => exact ⟨_, rfl⟩
  | crash _ => exact ⟨_, rfl⟩
  | _ => exact ⟨[], (List.append_nil _).symm⟩

end Dialer

open Dialer in
/-- All runs of one connector. -/
def dialerMachine : Machine Dialer Event where
  init s := s = Dialer.new
  step := Dialer.step

end Simplev
