import Mathlib.Algebra.GroupWithZero.Nat
import Simplev.Foundation.Machine
import Simplev.Net.TcpConnection

/-!
# `Net.Session` — a connection, its loop and its owner, run together

`connectionMachine` is the transition system behind every statement about one connection. A state is
the connection, the functor queue of its loop, where the loop's thread is, and the trace of what was
done; an event is one atomic step of some thread, with the results of the system calls it makes.

- **The loop's thread** runs functor batches and event callbacks, and the user code those call. While
  user code runs it may call `send` and `shutdown`, use the input buffer and set callbacks; the loop
  goes on when it returns. User code may also run on its own (a functor or a timer of the user's).
- **Other threads** call `send` and `shutdown` at any moment.
- **The owner** decides what `closeCallback_` does: a `TcpServer` on this loop and a `TcpClient` queue
  `connectDestroyed`, a `TcpServer` on another loop first sends `removeConnectionInLoop` there.

`Begins` is the inversion of `begin`: the proofs split on it and never unfold `begin`.
-/

namespace Simplev

open Foundation TcpConnection

/-- Whose `newConnection` made the connection. -/
inductive Owner where
  /-- A `TcpServer`; does its own loop run the connection? -/
  | tcpServer (sameLoop : Bool)
  | tcpClient
deriving DecidableEq, Repr

/-- Does the owner work on the connection's own loop? -/
def Owner.sameLoop : Owner → Bool
  | tcpServer sameLoop => sameLoop
  | tcpClient => true

/-- Where the loop's thread is. -/
inductive Phase where
  /-- In the owner's `newConnection`, before its call of `connectEstablished`. -/
  | newConnection
  /-- Between two callbacks. -/
  | between
  /-- In `doPendingFunctors`. -/
  | functors
  /-- In the channel's `handleEvent`, with these callbacks to make. -/
  | event (rest : List EventCallback)
deriving DecidableEq, Repr

/-- User code on the loop's thread. -/
inductive UserCode where
  | callback (cb : Callback)
  | other
deriving DecidableEq, Repr

structure Session where
  conn : TcpConnection
  loop : EventLoop Functor
  owner : Owner
  phase : Phase
  /-- The user code the loop's thread is in. -/
  user : Option UserCode
  /-- How many `removeConnectionInLoop` functors wait in the loop of a server on another loop. -/
  removing : Nat
  /-- What the member functions did, in order. -/
  trace : List Action
  /-- The asserts that failed. -/
  failed : List String
deriving DecidableEq

namespace Session

/-- `newConnection` has made the connection: it calls `connectEstablished` itself, or queues it in the
    loop of the connection. -/
def new (owner : Owner) (sockfd : Nat) (writeComplete : Bool) : Session where
  conn := TcpConnection.new sockfd writeComplete
  loop := if owner.sameLoop then EventLoop.new else EventLoop.new.queueInLoop .connectEstablished
  owner := owner
  phase := if owner.sameLoop then .newConnection else .between
  user := none
  removing := 0
  trace := []
  failed := []

/-! ## The actions of a member function take effect -/

/-- The functors an action queues in the connection's loop. `closeCallback_` is `removeConnection` of
    the owner: on its own loop it comes down to queueing `connectDestroyed`. -/
def queuedBy (owner : Owner) : Action → List Functor
  | .queueInLoop f => [f]
  | .closeCallback => if owner.sameLoop then [.connectDestroyed] else []
  | _ => []

/-- The `removeConnectionInLoop` functors an action queues in the owner's loop. -/
def removalsBy (owner : Owner) : Action → Nat
  | .closeCallback => if owner.sameLoop then 0 else 1
  | _ => 0

/-- The user code an action enters. -/
def entersUser : Action → Option UserCode
  | .callback cb => some (.callback cb)
  | _ => none

/-- The state after a member function left the connection `c`, having done `actions`. -/
def after (s : Session) (c : TcpConnection) (actions : List Action) (fs : List String) : Session :=
  { s with
    conn := c
    loop := s.loop.queueAll (actions.flatMap (queuedBy s.owner))
    user := (actions.findSome? entersUser).or s.user
    removing := s.removing + (actions.map (removalsBy s.owner)).sum
    trace := s.trace ++ actions
    failed := s.failed ++ fs }

section after

variable (s : Session) (c : TcpConnection) (actions : List Action) (fs : List String)

@[simp] theorem after_conn : (s.after c actions fs).conn = c := rfl
@[simp] theorem after_owner : (s.after c actions fs).owner = s.owner := rfl
@[simp] theorem after_phase : (s.after c actions fs).phase = s.phase := rfl
@[simp] theorem after_rest : (s.after c actions fs).loop.rest = s.loop.rest := rfl
@[simp] theorem after_trace : (s.after c actions fs).trace = s.trace ++ actions := rfl
@[simp] theorem after_failed : (s.after c actions fs).failed = s.failed ++ fs := rfl

@[simp] theorem after_user :
    (s.after c actions fs).user = (actions.findSome? entersUser).or s.user := rfl

@[simp] theorem after_removing :
    (s.after c actions fs).removing = s.removing + (actions.map (removalsBy s.owner)).sum := rfl

@[simp] theorem after_waiting :
    (s.after c actions fs).loop.waiting = s.loop.waiting ++ actions.flatMap (queuedBy s.owner) :=
  EventLoop.waiting_queueAll _ _

end after

/-! ## Events -/

inductive Event where
  /-- `send(message)` by `caller`; `w` is the result of a write that the call makes itself. -/
  | send (caller : Thread) (message : Message) (w : Write)
  | shutdown (caller : Thread)
  /-- The owner's `newConnection` calls `connectEstablished`. -/
  | connectEstablished
  | doPendingFunctors
  /-- The next functor of the batch; `w` is the result of a write it makes. -/
  | runFunctor (w : Write)
  | endFunctors
  /-- libev calls the channel's watcher. -/
  | handleEvent (revents : Revents)
  /-- The next callback of the event, with the results of the calls it makes. -/
  | runCallback (r : Buffer.Readv) (w : Write)
  | endEvent
  /-- User code starts on the loop's thread, from a functor or a watcher of its own. -/
  | enterUser
  /-- `messageCallback_` works on the input buffer. -/
  | useInput (op : Buffer.Op)
  /-- `messageCallback_` swaps the input buffer with one of its own. -/
  | swapInput (b : Buffer)
  | setWriteCompleteCallback (isSet : Bool)
  | setHighWaterMarkCallback (isSet : Bool) (highWaterMark : Nat)
  /-- The user code returns; `connectDestroyed` goes on to its last line. -/
  | leaveUser
  /-- The server's loop runs `removeConnectionInLoop`. -/
  | removeConnectionInLoop
deriving DecidableEq

instance (b : Buffer) : Decidable b.Valid :=
  decidable_of_iff (b.readerIndex_ ≤ b.writerIndex_ ∧ b.writerIndex_ ≤ b.buffer_.length ∧
      Buffer.kCheapPrepend ≤ b.buffer_.length ∧ b.buffer_.length ≤ maxSize)
    ⟨fun h => ⟨h.1, h.2.1, h.2.2.1, h.2.2.2⟩,
      fun h => ⟨h.reader_le, h.writer_le, h.prepend_le, h.size_le⟩⟩

/-- The input buffer is the user's while `messageCallback_` runs. -/
def inMessageCallback (s : Session) : Bool :=
  match s.user with
  | some (.callback (.message _ _)) => true
  | _ => false

/-- A call may come from another thread at any time, and from user code on the loop's thread. -/
def MayCall (s : Session) (caller : Thread) : Prop := caller = .loop → s.user.isSome = true

instance (s : Session) (caller : Thread) : Decidable (s.MayCall caller) :=
  inferInstanceAs (Decidable (_ → _))

/-- The result of the write a functor may make is one `::write` can return. -/
def WriteFits (w : Write) : Functor → Prop
  | .sendInLoop _ message => w.Fits message.bytes.length
  | _ => True

instance (w : Write) : (f : Functor) → Decidable (WriteFits w f)
  | .sendInLoop _ message => inferInstanceAs (Decidable (w.Fits message.bytes.length))
  | .connectEstablished => inferInstanceAs (Decidable True)
  | .connectDestroyed => inferInstanceAs (Decidable True)
  | .shutdownInLoop => inferInstanceAs (Decidable True)
  | .writeCompleteCallback => inferInstanceAs (Decidable True)
  | .highWaterMarkCallback _ => inferInstanceAs (Decidable True)

/-- The first half of an event: where the threads are afterwards, and the member function that runs.
    `none` when the event cannot happen. -/
def begin (s : Session) : Event → Option (Session × Result)
  | .send caller message w =>
    if s.MayCall caller ∧ w.Fits message.bytes.length then
      some (s, s.conn.send caller message w)
    else none
  | .shutdown caller =>
    if s.MayCall caller then some (s, s.conn.shutdown caller) else none
  | .connectEstablished =>
    if s.phase = .newConnection then
      some ({ s with phase := .between }, s.conn.connectEstablished)
    else none
  | .doPendingFunctors =>
    if s.phase = .between ∧ s.user = none then
      some ({ s with phase := .functors, loop := s.loop.swapFunctors }, pure (s.conn, []))
    else none
  | .runFunctor w =>
    if s.phase = .functors ∧ s.user = none then
      match s.loop.nextFunctor with
      | some (f, loop) =>
        if WriteFits w f then some ({ s with loop := loop }, f.run s.conn w) else none
      | none => none
    else none
  | .endFunctors =>
    if s.phase = .functors ∧ s.user = none ∧ s.loop.rest = [] then
      some ({ s with phase := .between, loop := s.loop.endFunctors }, pure (s.conn, []))
    else none
  | .handleEvent revents =>
    if s.phase = .between ∧ s.user = none ∧ s.conn.channel_.Delivers revents then
      some ({ s with phase := .event (Channel.handleEventWithGuard revents) },
        pure ({ s.conn with channel_ := s.conn.channel_.beginEvent }, []))
    else none
  | .runCallback r w =>
    match s.phase with
    | .event (cb :: rest) =>
      if s.user = none ∧ r.Fits s.conn.inputBuffer_ ∧ w.Fits s.conn.outputBuffer_.readable.length then
        some ({ s with phase := .event rest }, s.conn.handleEvent cb r w)
      else none
    | _ => none
  | .endEvent =>
    if s.phase = .event [] ∧ s.user = none then
      some ({ s with phase := .between },
        pure ({ s.conn with channel_ := s.conn.channel_.endEvent }, []))
    else none
  | .enterUser =>
    if (s.phase = .between ∨ s.phase = .functors) ∧ s.user = none then
      some ({ s with user := some .other }, pure (s.conn, []))
    else none
  | .useInput op =>
    if s.inMessageCallback = true ∧ op.Allowed s.conn.inputBuffer_ then
      some (s, do
        let (_, b) ← op.exec s.conn.inputBuffer_
        return ({ s.conn with inputBuffer_ := b }, []))
    else none
  | .swapInput b =>
    if s.inMessageCallback = true ∧ b.Valid then
      some (s, pure ({ s.conn with inputBuffer_ := b }, []))
    else none
  | .setWriteCompleteCallback isSet =>
    if s.user.isSome then
      some (s, pure ({ s.conn with writeCompleteCallback_ := isSet }, []))
    else none
  | .setHighWaterMarkCallback isSet highWaterMark =>
    if s.user.isSome then
      some (s, pure ({ s.conn with highWaterMarkCallback_ := isSet,
                                   highWaterMark_ := highWaterMark }, []))
    else none
  | .leaveUser =>
    match s.user with
    | some (.callback (.connection false)) => some ({ s with user := none }, s.conn.removeChannel)
    | some _ => some ({ s with user := none }, pure (s.conn, []))
    | none => none
  | .removeConnectionInLoop =>
    if 0 < s.removing then
      some ({ s with removing := s.removing - 1, loop := s.loop.queueInLoop .connectDestroyed },
        pure (s.conn, []))
    else none

/-- One atomic step: a member function runs and its actions take effect. It ends the run when the
    function throws. -/
def step (s : Session) (e : Event) : Option Session :=
  match s.begin e with
  | some (s₁, .ok (c, actions) fs) => some (s₁.after c actions fs)
  | some (_, .thrown _) => none
  | none => none

/-! ## Inversion -/

/-- What `begin` allows: by which event, and what it leaves for `after`. -/
inductive Begins (s : Session) :
    Event → Session → TcpConnection → List Action → List String → Prop
  | send {caller message w c actions fs} (may : s.MayCall caller)
      (fit : w.Fits message.bytes.length) (run : s.conn.send caller message w = .ok (c, actions) fs) :
      Begins s (.send caller message w) s c actions fs
  | shutdown {caller c actions fs} (may : s.MayCall caller)
      (run : s.conn.shutdown caller = .ok (c, actions) fs) :
      Begins s (.shutdown caller) s c actions fs
  | connectEstablished {c actions fs} (phase : s.phase = .newConnection)
      (run : s.conn.connectEstablished = .ok (c, actions) fs) :
      Begins s .connectEstablished { s with phase := .between } c actions fs
  | doPendingFunctors (phase : s.phase = .between) (free : s.user = none) :
      Begins s .doPendingFunctors { s with phase := .functors, loop := s.loop.swapFunctors } s.conn [] []
  | runFunctor {w f loop c actions fs} (phase : s.phase = .functors) (free : s.user = none)
      (next : s.loop.nextFunctor = some (f, loop)) (fit : WriteFits w f)
      (run : f.run s.conn w = .ok (c, actions) fs) :
      Begins s (.runFunctor w) { s with loop := loop } c actions fs
  | endFunctors (phase : s.phase = .functors) (free : s.user = none) (done : s.loop.rest = []) :
      Begins s .endFunctors { s with phase := .between, loop := s.loop.endFunctors } s.conn [] []
  | handleEvent {revents} (phase : s.phase = .between) (free : s.user = none)
      (delivers : s.conn.channel_.Delivers revents) :
      Begins s (.handleEvent revents)
        { s with phase := .event (Channel.handleEventWithGuard revents) }
        { s.conn with channel_ := s.conn.channel_.beginEvent } [] []
  | runCallback {r w cb rest c actions fs} (phase : s.phase = .event (cb :: rest))
      (free : s.user = none) (rfit : r.Fits s.conn.inputBuffer_)
      (wfit : w.Fits s.conn.outputBuffer_.readable.length)
      (run : s.conn.handleEvent cb r w = .ok (c, actions) fs) :
      Begins s (.runCallback r w) { s with phase := .event rest } c actions fs
  | endEvent (phase : s.phase = .event []) (free : s.user = none) :
      Begins s .endEvent { s with phase := .between }
        { s.conn with channel_ := s.conn.channel_.endEvent } [] []
  | enterUser (phase : s.phase = .between ∨ s.phase = .functors) (free : s.user = none) :
      Begins s .enterUser { s with user := some .other } s.conn [] []
  | useInput {op str b fs} (inside : s.inMessageCallback = true)
      (allowed : op.Allowed s.conn.inputBuffer_)
      (run : op.exec s.conn.inputBuffer_ = .ok (str, b) fs) :
      Begins s (.useInput op) s { s.conn with inputBuffer_ := b } [] fs
  | swapInput {b} (inside : s.inMessageCallback = true) (valid : b.Valid) :
      Begins s (.swapInput b) s { s.conn with inputBuffer_ := b } [] []
  | setWriteCompleteCallback {isSet} (inside : s.user.isSome = true) :
      Begins s (.setWriteCompleteCallback isSet) s
        { s.conn with writeCompleteCallback_ := isSet } [] []
  | setHighWaterMarkCallback {isSet highWaterMark} (inside : s.user.isSome = true) :
      Begins s (.setHighWaterMarkCallback isSet highWaterMark) s
        { s.conn with highWaterMarkCallback_ := isSet, highWaterMark_ := highWaterMark } [] []
  | leaveDown {c actions fs} (inside : s.user = some (.callback (.connection false)))
      (run : s.conn.removeChannel = .ok (c, actions) fs) :
      Begins s .leaveUser { s with user := none } c actions fs
  | leaveUser {code} (inside : s.user = some code) (notDown : code ≠ .callback (.connection false)) :
      Begins s .leaveUser { s with user := none } s.conn [] []
  | removeConnectionInLoop (waits : 0 < s.removing) :
      Begins s .removeConnectionInLoop
        { s with removing := s.removing - 1, loop := s.loop.queueInLoop .connectDestroyed }
        s.conn [] []

/-- `begin` allows nothing else. -/
theorem begin_inv {s s₁ : Session} {e : Event} {c : TcpConnection} {actions : List Action}
    {fs : List String} (h : s.begin e = some (s₁, .ok (c, actions) fs)) :
    Begins s e s₁ c actions fs := by
  cases e with
  | send caller message w =>
      simp only [begin, Option.ite_none_right_eq_some, Option.some.injEq, Prod.mk.injEq] at h
      obtain ⟨⟨hmay, hfit⟩, rfl, hrun⟩ := h
      exact .send hmay hfit hrun
  | shutdown caller =>
      simp only [begin, Option.ite_none_right_eq_some, Option.some.injEq, Prod.mk.injEq] at h
      obtain ⟨hmay, rfl, hrun⟩ := h
      exact .shutdown hmay hrun
  | connectEstablished =>
      simp only [begin, Option.ite_none_right_eq_some, Option.some.injEq, Prod.mk.injEq] at h
      obtain ⟨hphase, rfl, hrun⟩ := h
      exact .connectEstablished hphase hrun
  | doPendingFunctors =>
      simp only [begin, Option.ite_none_right_eq_some, Option.some.injEq, Prod.mk.injEq,
        Outcome.pure_eq, Outcome.ok.injEq] at h
      obtain ⟨⟨hphase, hfree⟩, rfl, ⟨rfl, rfl⟩, rfl⟩ := h
      exact .doPendingFunctors hphase hfree
  | runFunctor w =>
      simp only [begin, Option.ite_none_right_eq_some] at h
      obtain ⟨⟨hphase, hfree⟩, h⟩ := h
      split at h
      · rename_i f loop hnext
        simp only [Option.ite_none_right_eq_some, Option.some.injEq, Prod.mk.injEq] at h
        obtain ⟨hfit, rfl, hrun⟩ := h
        exact .runFunctor hphase hfree hnext hfit hrun
      · exact absurd h (by simp)
  | endFunctors =>
      simp only [begin, Option.ite_none_right_eq_some, Option.some.injEq, Prod.mk.injEq,
        Outcome.pure_eq, Outcome.ok.injEq] at h
      obtain ⟨⟨hphase, hfree, hdone⟩, rfl, ⟨rfl, rfl⟩, rfl⟩ := h
      exact .endFunctors hphase hfree hdone
  | handleEvent revents =>
      simp only [begin, Option.ite_none_right_eq_some, Option.some.injEq, Prod.mk.injEq,
        Outcome.pure_eq, Outcome.ok.injEq] at h
      obtain ⟨⟨hphase, hfree, hdelivers⟩, rfl, ⟨rfl, rfl⟩, rfl⟩ := h
      exact .handleEvent hphase hfree hdelivers
  | runCallback r w =>
      simp only [begin] at h
      split at h
      · rename_i cb rest hphase
        simp only [Option.ite_none_right_eq_some, Option.some.injEq, Prod.mk.injEq] at h
        obtain ⟨⟨hfree, hrfit, hwfit⟩, rfl, hrun⟩ := h
        exact .runCallback hphase hfree hrfit hwfit hrun
      · exact absurd h (by simp)
  | endEvent =>
      simp only [begin, Option.ite_none_right_eq_some, Option.some.injEq, Prod.mk.injEq,
        Outcome.pure_eq, Outcome.ok.injEq] at h
      obtain ⟨⟨hphase, hfree⟩, rfl, ⟨rfl, rfl⟩, rfl⟩ := h
      exact .endEvent hphase hfree
  | enterUser =>
      simp only [begin, Option.ite_none_right_eq_some, Option.some.injEq, Prod.mk.injEq,
        Outcome.pure_eq, Outcome.ok.injEq] at h
      obtain ⟨⟨hphase, hfree⟩, rfl, ⟨rfl, rfl⟩, rfl⟩ := h
      exact .enterUser hphase hfree
  | useInput op =>
      simp only [begin, Option.ite_none_right_eq_some, Option.some.injEq, Prod.mk.injEq] at h
      obtain ⟨⟨hinside, hallowed⟩, rfl, hrun⟩ := h
      obtain ⟨⟨str, b⟩, gs, hs, hexec, hret, rfl⟩ := Outcome.bind_eq_ok hrun
      simp only [Outcome.pure_eq, Outcome.ok.injEq, Prod.mk.injEq] at hret
      obtain ⟨⟨rfl, rfl⟩, rfl⟩ := hret
      rw [List.append_nil]
      exact .useInput hinside hallowed hexec
  | swapInput b =>
      simp only [begin, Option.ite_none_right_eq_some, Option.some.injEq, Prod.mk.injEq,
        Outcome.pure_eq, Outcome.ok.injEq] at h
      obtain ⟨⟨hinside, hvalid⟩, rfl, ⟨rfl, rfl⟩, rfl⟩ := h
      exact .swapInput hinside hvalid
  | setWriteCompleteCallback isSet =>
      simp only [begin, Option.ite_none_right_eq_some, Option.some.injEq, Prod.mk.injEq,
        Outcome.pure_eq, Outcome.ok.injEq] at h
      obtain ⟨hinside, rfl, ⟨rfl, rfl⟩, rfl⟩ := h
      exact .setWriteCompleteCallback hinside
  | setHighWaterMarkCallback isSet highWaterMark =>
      simp only [begin, Option.ite_none_right_eq_some, Option.some.injEq, Prod.mk.injEq,
        Outcome.pure_eq, Outcome.ok.injEq] at h
      obtain ⟨hinside, rfl, ⟨rfl, rfl⟩, rfl⟩ := h
      exact .setHighWaterMarkCallback hinside
  | leaveUser =>
      simp only [begin] at h
      split at h
      · rename_i hinside
        simp only [Option.some.injEq, Prod.mk.injEq] at h
        obtain ⟨rfl, hrun⟩ := h
        exact .leaveDown hinside hrun
      · rename_i code hnot hinside
        simp only [Option.some.injEq, Prod.mk.injEq, Outcome.pure_eq, Outcome.ok.injEq] at h
        obtain ⟨rfl, ⟨rfl, rfl⟩, rfl⟩ := h
        exact .leaveUser hinside hnot
      · exact absurd h (by simp)
  | removeConnectionInLoop =>
      simp only [begin, Option.ite_none_right_eq_some, Option.some.injEq, Prod.mk.injEq,
        Outcome.pure_eq, Outcome.ok.injEq] at h
      obtain ⟨hwaits, rfl, ⟨rfl, rfl⟩, rfl⟩ := h
      exact .removeConnectionInLoop hwaits

/-- A step is a member function that returned, and its effect. -/
theorem step_inv {s s' : Session} {e : Event} (h : s.step e = some s') :
    ∃ s₁ c actions fs, Begins s e s₁ c actions fs ∧ s' = s₁.after c actions fs := by
  unfold step at h
  split at h
  · rename_i s₁ c actions fs hbegin
    simp only [Option.some.injEq] at h
    exact ⟨s₁, c, actions, fs, begin_inv hbegin, h.symm⟩
  · exact absurd h (by simp)
  · exact absurd h (by simp)

end Session

open Session in
/-- All runs of one connection, under any owner. -/
def connectionMachine : Machine Session Event where
  init s := ∃ owner sockfd writeComplete, s = Session.new owner sockfd writeComplete
  step := Session.step

/-- No write of this event returns `-1`. -/
def Session.Event.writesSucceed : Session.Event → Bool
  | .send _ _ (.failed _ _) => false
  | .runFunctor (.failed _ _) => false
  | .runCallback _ (.failed _ _) => false
  | _ => true

/-- The last state of a run that starts in `newConnection` is reachable. -/
theorem Session.reachable_of_run {owner : Owner} {sockfd : Nat} {writeComplete : Bool}
    {es : List Session.Event} {s : Session}
    (h : connectionMachine.run (Session.new owner sockfd writeComplete) es = some s) :
    connectionMachine.Reachable s :=
  Machine.run_reachable ⟨owner, sockfd, writeComplete, rfl⟩ h

end Simplev
