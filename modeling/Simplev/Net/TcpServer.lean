import Mathlib.Logic.Function.Basic
import Simplev.Net.Session

/-!
# `Net.TcpServer` — a server, its loops and its connections (`TcpServer.cc`, `EventLoopThreadPool.cc`)

`serverMachine` runs a `TcpServer` with any number of I/O loops. Thread 0 is that of the server's own loop,
thread `l + 1` that of `loops_[l]`; every higher number is a thread without a loop. A state is the
server, the loops (queue, place of the thread, user code it is in), and every `TcpConnection` that was made,
by the order of their making.

- **A loop's thread** runs functor batches and event callbacks, with the user code they call, as in
  `Net.Session`; here one queue and one thread serve all the connections of the loop.
- **The server's own loop** also accepts (`newConnection`) and runs `removeConnectionInLoop`.
- **Lifetime.** A `shared_ptr` to a connection is in `connections_` and in every functor bound to it, until
  the vector that holds the functor dies (`Held`). `destroy` can happen once there is none, or later,
  when users held one longer.

`view` is a connection as `Net.Session` sees it: what other connections do on its loop is other user code.
-/

namespace Simplev

open Foundation TcpConnection

structure EventLoopThreadPool where
  numThreads_ : Nat
  next_ : Nat
deriving DecidableEq, Repr

/-- The base loop is 0, `loops_[l]` is `l + 1`. -/
def EventLoopThreadPool.getNextLoop (pool : EventLoopThreadPool) : Nat × EventLoopThreadPool :=
  if pool.numThreads_ = 0 then (0, pool)
  else
    let next := if pool.numThreads_ ≤ pool.next_ + 1 then 0 else pool.next_ + 1
    (pool.next_ + 1, { pool with next_ := next })

structure TcpServer where
  name_ : String
  /-- An `int`: it wraps around. -/
  nextConnId_ : Int
  /-- The `std::map`, from names to connections. -/
  connections_ : List (String × Nat)
  threadPool_ : EventLoopThreadPool
  /-- `writeCompleteCallback_` is set. -/
  writeCompleteCallback_ : Bool
deriving DecidableEq, Repr

namespace TcpServer

/-- `std::string connName = name_ + buf`. -/
def connName (server : TcpServer) : String := server.name_ ++ "#" ++ toString server.nextConnId_

/-- `++nextConnId_`. -/
def increment (id : Int) : Int := (id + 1).bmod (2 ^ 32)

/-- `connections_[name] = conn`. -/
def assign (connections : List (String × Nat)) (name : String) (conn : Nat) : List (String × Nat) :=
  connections.filter (·.1 ≠ name) ++ [(name, conn)]

end TcpServer

/-- What is queued on the loops of a server. -/
inductive ServerFunctor where
  | connection (conn : Nat) (f : Functor)
  | removeConnectionInLoop (conn : Nat)
  | user (id : Nat)
deriving DecidableEq

namespace ServerFunctor

/-- The functor of this connection. -/
def ofConnection (conn : Nat) : ServerFunctor → Option Functor
  | connection i f => if i = conn then some f else none
  | _ => none

/-- The removal of this connection. -/
def ofRemoval (conn : Nat) : ServerFunctor → Option Unit
  | removeConnectionInLoop i => if i = conn then some () else none
  | _ => none

/-- Whether a `shared_ptr` to the connection is bound. -/
def Binds (conn : Nat) : ServerFunctor → Prop
  | connection i _ | removeConnectionInLoop i => i = conn
  | user _ => False

instance (conn : Nat) : (g : ServerFunctor) → Decidable (g.Binds conn)
  | connection i _ => inferInstanceAs (Decidable (i = conn))
  | removeConnectionInLoop i => inferInstanceAs (Decidable (i = conn))
  | user _ => inferInstanceAs (Decidable False)

end ServerFunctor

/-- Where the thread of a loop is. -/
inductive LoopPhase where
  | between
  | functors
  /-- In the `handleEvent` of a connection's channel, with these callbacks to make. -/
  | event (conn : Nat) (rest : List EventCallback)
deriving DecidableEq, Repr

/-- User code on the thread of a loop. -/
inductive ServerCode where
  | callback (conn : Nat) (cb : Callback)
  | other
deriving DecidableEq, Repr

structure IoLoop where
  queue : EventLoop ServerFunctor
  phase : LoopPhase
  user : Option ServerCode
deriving DecidableEq

def IoLoop.new : IoLoop := ⟨EventLoop.new, .between, none⟩

/-- A connection that the server made. -/
structure Accepted where
  name_ : String
  loop_ : Nat
  conn : TcpConnection
  /-- What its member functions did, in order. -/
  trace : List Action
  /-- Its asserts that failed. -/
  failed : List String
deriving DecidableEq

/-- A call of the loops to a connection. -/
inductive Entry where
  | connectEstablished
  | handleEvent (cb : EventCallback)
  | connectDestroyed
deriving DecidableEq, Repr

structure ServerCall where
  conn : Nat
  thread : Nat
  entry : Entry
deriving DecidableEq, Repr

/-- `~TcpConnection`, and what its channel was then. -/
structure Destruction where
  conn : Nat
  /-- `ioWatcher_` is started. -/
  registered : Bool
  eventHandling_ : Bool
deriving DecidableEq, Repr

structure ServerRun where
  server : TcpServer
  loops : Nat → IoLoop
  conns : Nat → Accepted
  /-- How many connections were made. -/
  accepted : Nat
  /-- The asserts of the server that failed. -/
  failed : List String
  /-- The connections that `removeConnectionInLoop` took out, in order. -/
  takenOut : List Nat
  calls : List ServerCall
  destroyed : List Destruction

namespace ServerRun

/-- The server after `start()`, with a pool of `numThreads` loops. -/
def new (name : String) (numThreads : Nat) (writeComplete : Bool) : ServerRun where
  server := ⟨name, 1, [], ⟨numThreads, 0⟩, writeComplete⟩
  loops _ := IoLoop.new
  conns _ := ⟨"", 0, TcpConnection.new 0 false, [], []⟩
  accepted := 0
  failed := []
  takenOut := []
  calls := []
  destroyed := []

def modifyLoop (s : ServerRun) (l : Nat) (f : IoLoop → IoLoop) : ServerRun :=
  { s with loops := Function.update s.loops l (f (s.loops l)) }

def setPhase (s : ServerRun) (l : Nat) (phase : LoopPhase) : ServerRun :=
  s.modifyLoop l fun loop => { loop with phase := phase }

def setUser (s : ServerRun) (l : Nat) (user : Option ServerCode) : ServerRun :=
  s.modifyLoop l fun loop => { loop with user := user }

def setQueue (s : ServerRun) (l : Nat) (queue : EventLoop ServerFunctor) : ServerRun :=
  s.modifyLoop l fun loop => { loop with queue := queue }

/-- A batch begins or ends. -/
def setBatch (s : ServerRun) (l : Nat) (phase : LoopPhase) (queue : EventLoop ServerFunctor) :
    ServerRun :=
  s.modifyLoop l fun loop => { loop with phase := phase, queue := queue }

def queueInLoop (s : ServerRun) (l : Nat) (g : ServerFunctor) : ServerRun :=
  s.modifyLoop l fun loop => { loop with queue := loop.queue.queueInLoop g }

/-- The loops call a connection. -/
def record (s : ServerRun) (thread conn : Nat) (entry : Entry) : ServerRun :=
  { s with calls := s.calls ++ [⟨conn, thread, entry⟩] }

/-! ## The server's member functions -/

/-- `connections_.erase(conn->name())`, and the assert on what it returned. -/
def takeOut (s : ServerRun) (conn : Nat) : ServerRun :=
  let name := (s.conns conn).name_
  let n := s.server.connections_.countP (·.1 = name)
  { s with
    server := { s.server with connections_ := s.server.connections_.filter (·.1 ≠ name) }
    failed := s.failed ++ if n = 1 then [] else ["n == 1"]
    takenOut := s.takenOut ++ [conn] }

def removeConnectionInLoop (s : ServerRun) (conn : Nat) : ServerRun :=
  (s.takeOut conn).queueInLoop (s.conns conn).loop_ (.connection conn .connectDestroyed)

/-- `loop_->runInLoop(removeConnectionInLoop)`, called on `thread`. -/
def removeConnection (s : ServerRun) (thread conn : Nat) : ServerRun :=
  if thread = 0 then s.removeConnectionInLoop conn
  else s.queueInLoop 0 (.removeConnectionInLoop conn)

/-- An action of a connection takes effect; it happened on `thread`. -/
def act (s : ServerRun) (thread conn : Nat) : Action → ServerRun
  | .queueInLoop f => s.queueInLoop (s.conns conn).loop_ (.connection conn f)
  | .closeCallback => s.removeConnection thread conn
  | _ => s

def acts (s : ServerRun) (thread conn : Nat) (actions : List Action) : ServerRun :=
  actions.foldl (fun s a => s.act thread conn a) s

/-- The user code an action enters. -/
def entersUser (conn : Nat) : Action → Option ServerCode
  | .callback cb => some (.callback conn cb)
  | _ => none

def enter (s : ServerRun) (thread : Nat) (code : Option ServerCode) : ServerRun :=
  s.modifyLoop thread fun loop => { loop with user := code.or loop.user }

/-- A member function left the connection as `c`, having done `actions`. -/
def setConn (s : ServerRun) (conn : Nat) (c : TcpConnection) (actions : List Action)
    (fs : List String) : ServerRun :=
  let left : Accepted :=
    { s.conns conn with
      conn := c
      trace := (s.conns conn).trace ++ actions
      failed := (s.conns conn).failed ++ fs }
  { s with conns := Function.update s.conns conn left }

/-- The state after it: the actions have taken effect. -/
def finish (s : ServerRun) (thread conn : Nat) (c : TcpConnection) (actions : List Action)
    (fs : List String) : ServerRun :=
  ((s.setConn conn c actions fs).acts thread conn actions).enter thread
    (actions.findSome? (entersUser conn))

/-- A member function runs; the run ends when it throws. -/
def call (s : ServerRun) (thread conn : Nat) (result : Result) : Option ServerRun :=
  match result with
  | .ok (c, actions) fs => some (s.finish thread conn c actions fs)
  | .thrown _ => none

/-- The new connection, as it stands in `connections_`. -/
def makeConnection (s : ServerRun) (sockfd : Nat) : ServerRun :=
  let name := s.server.connName
  let (loop, pool) := s.server.threadPool_.getNextLoop
  let made : Accepted :=
    { name_ := name
      loop_ := loop
      conn := TcpConnection.new sockfd s.server.writeCompleteCallback_
      trace := []
      failed := [] }
  { s with
    server :=
      { s.server with
        nextConnId_ := TcpServer.increment s.server.nextConnId_
        connections_ := TcpServer.assign s.server.connections_ name s.accepted
        threadPool_ := pool }
    conns := Function.update s.conns s.accepted made
    accepted := s.accepted + 1 }

/-- `newConnection`, once poll has not failed; at its end `ioLoop->runInLoop(connectEstablished)`. -/
def newConnection (s : ServerRun) (sockfd : Nat) : Option ServerRun :=
  let conn := s.accepted
  let s := s.makeConnection sockfd
  let ioLoop := (s.conns conn).loop_
  if ioLoop = 0 then
    (s.record 0 conn .connectEstablished).call 0 conn (s.conns conn).conn.connectEstablished
  else some (s.queueInLoop ioLoop (.connection conn .connectEstablished))

/-! ## Events -/

inductive Event where
  /-- The acceptor hands over a descriptor; does poll fail on it? -/
  | newConnection (pollFails : Bool) (sockfd : Nat)
  | doPendingFunctors (l : Nat)
  /-- The next functor of the batch; `w` is the result of a write it makes. -/
  | runFunctor (l : Nat) (w : Write)
  | endFunctors (l : Nat)
  /-- libev calls the watcher of a connection's channel. -/
  | handleEvent (conn : Nat) (revents : Revents)
  /-- The next callback of the event, with the results of the calls it makes. -/
  | runCallback (l : Nat) (r : Buffer.Readv) (w : Write)
  | endEvent (l : Nat)
  /-- User code starts, from a functor or a watcher of its own. -/
  | enterUser (l : Nat)
  /-- The user code returns; `connectDestroyed` goes on to its last line. -/
  | leaveUser (l : Nat)
  | send (thread conn : Nat) (message : Message) (w : Write)
  | shutdown (thread conn : Nat)
  | useInput (l : Nat) (op : Buffer.Op)
  | swapInput (l : Nat) (b : Buffer)
  | setWriteCompleteCallback (conn : Nat) (isSet : Bool)
  | setHighWaterMarkCallback (conn : Nat) (isSet : Bool) (highWaterMark : Nat)
  /-- The last `shared_ptr` to a connection goes. -/
  | destroy (conn : Nat)
deriving DecidableEq

/-- A `shared_ptr` to the connection is in `connections_`, or in a functor that is queued or running. -/
def Held (s : ServerRun) (conn : Nat) : Prop :=
  (∃ entry ∈ s.server.connections_, entry.2 = conn) ∨
    ∃ l ∈ List.range (s.server.threadPool_.numThreads_ + 1),
      ∃ g ∈ (s.loops l).queue.alive, g.Binds conn

instance (s : ServerRun) (conn : Nat) : Decidable (s.Held conn) :=
  inferInstanceAs (Decidable (_ ∨ _))

/-- The thread has a loop. -/
def IsLoop (s : ServerRun) (l : Nat) : Prop := l ≤ s.server.threadPool_.numThreads_

instance (s : ServerRun) (l : Nat) : Decidable (s.IsLoop l) := inferInstanceAs (Decidable (_ ≤ _))

/-- The thread of the loop is in no user code and at this place. -/
def At (s : ServerRun) (l : Nat) (phase : LoopPhase) : Prop :=
  (s.loops l).phase = phase ∧ (s.loops l).user = none

instance (s : ServerRun) (l : Nat) (phase : LoopPhase) : Decidable (s.At l phase) :=
  inferInstanceAs (Decidable (_ ∧ _))

/-- Users call a connection that they hold, on a thread of theirs or from user code on a loop. -/
def MayCall (s : ServerRun) (thread conn : Nat) : Prop :=
  conn < s.accepted ∧ conn ∉ s.destroyed.map Destruction.conn ∧
    (s.IsLoop thread → (s.loops thread).user.isSome = true)

instance (s : ServerRun) (thread conn : Nat) : Decidable (s.MayCall thread conn) :=
  inferInstanceAs (Decidable (_ ∧ _ ∧ (_ → _)))

/-- How the connection sees a thread. -/
def threadFor (s : ServerRun) (conn thread : Nat) : Thread :=
  if thread = (s.conns conn).loop_ then .loop else .other thread

/-- The connection whose `messageCallback_` runs. -/
def inMessageCallback (s : ServerRun) (l : Nat) : Option Nat :=
  match (s.loops l).user with
  | some (.callback conn (.message _ _)) => some conn
  | _ => none

/-- The calls that a functor is, for `calls`. -/
def recordFunctor (s : ServerRun) (thread conn : Nat) : Functor → ServerRun
  | .connectEstablished => s.record thread conn .connectEstablished
  | .connectDestroyed => s.record thread conn .connectDestroyed
  | _ => s

/-- The last `shared_ptr` to the connection has gone. -/
def destroy (s : ServerRun) (conn : Nat) : ServerRun :=
  let channel := (s.conns conn).conn.channel_
  { s with destroyed := s.destroyed ++ [⟨conn, channel.active, channel.eventHandling_⟩] }

/-- One atomic step of some thread; `none` when it cannot happen. -/
def step (s : ServerRun) : Event → Option ServerRun
  | .newConnection pollFails sockfd =>
    if s.At 0 .between then if pollFails then some s else s.newConnection sockfd else none
  | .doPendingFunctors l =>
    if s.IsLoop l ∧ s.At l .between then
      some (s.setBatch l .functors (s.loops l).queue.swapFunctors)
    else none
  | .runFunctor l w =>
    if s.At l .functors then
      match (s.loops l).queue.nextFunctor with
      | some (g, queue) =>
        let s := s.setQueue l queue
        match g with
        | .connection conn f =>
          if Session.WriteFits w f then
            (s.recordFunctor l conn f).call l conn (f.run (s.conns conn).conn w)
          else none
        | .removeConnectionInLoop conn => some (s.removeConnectionInLoop conn)
        | .user _ => some s
      | none => none
    else none
  | .endFunctors l =>
    if s.At l .functors ∧ (s.loops l).queue.rest = [] then
      some (s.setBatch l .between (s.loops l).queue.endFunctors)
    else none
  | .handleEvent conn revents =>
    let c := (s.conns conn).conn
    let l := (s.conns conn).loop_
    -- a watcher without interest is not polled
    if conn < s.accepted ∧ s.At l .between ∧ c.channel_.Delivers revents ∧
        c.channel_.isNoneEvent = false then
      let s := s.setPhase l (.event conn (Channel.handleEventWithGuard revents))
      some (s.finish l conn { c with channel_ := c.channel_.beginEvent } [] [])
    else none
  | .runCallback l r w =>
    match (s.loops l).phase with
    | .event conn (cb :: rest) =>
      let c := (s.conns conn).conn
      if (s.loops l).user = none ∧ r.Fits c.inputBuffer_ ∧
          w.Fits c.outputBuffer_.readable.length then
        ((s.setPhase l (.event conn rest)).record l conn (.handleEvent cb)).call l conn
          (c.handleEvent cb r w)
      else none
    | _ => none
  | .endEvent l =>
    match (s.loops l).phase with
    | .event conn [] =>
      let c := (s.conns conn).conn
      if (s.loops l).user = none then
        some ((s.setPhase l .between).finish l conn
          { c with channel_ := c.channel_.endEvent } [] [])
      else none
    | _ => none
  | .enterUser l =>
    if s.IsLoop l ∧ (s.At l .between ∨ s.At l .functors) then
      some (s.setUser l (some .other))
    else none
  | .leaveUser l =>
    match (s.loops l).user with
    | some (.callback conn (.connection false)) =>
      (s.setUser l none).call l conn (s.conns conn).conn.removeChannel
    | some _ => some (s.setUser l none)
    | none => none
  | .send thread conn message w =>
    if s.MayCall thread conn ∧ w.Fits message.bytes.length then
      s.call thread conn ((s.conns conn).conn.send (s.threadFor conn thread) message w)
    else none
  | .shutdown thread conn =>
    if s.MayCall thread conn then
      s.call thread conn ((s.conns conn).conn.shutdown (s.threadFor conn thread))
    else none
  | .useInput l op =>
    match s.inMessageCallback l with
    | some conn =>
      let c := (s.conns conn).conn
      if op.Allowed c.inputBuffer_ then
        s.call l conn do
          let (_, b) ← op.exec c.inputBuffer_
          return ({ c with inputBuffer_ := b }, [])
      else none
    | none => none
  | .swapInput l b =>
    match s.inMessageCallback l with
    | some conn =>
      if b.Valid then some (s.finish l conn { (s.conns conn).conn with inputBuffer_ := b } [] [])
      else none
    | none => none
  | .setWriteCompleteCallback conn isSet =>
    let l := (s.conns conn).loop_
    if s.IsLoop l ∧ s.MayCall l conn then
      some (s.finish l conn { (s.conns conn).conn with writeCompleteCallback_ := isSet } [] [])
    else none
  | .setHighWaterMarkCallback conn isSet highWaterMark =>
    let l := (s.conns conn).loop_
    if s.IsLoop l ∧ s.MayCall l conn then
      let c :=
        { (s.conns conn).conn with
          highWaterMarkCallback_ := isSet, highWaterMark_ := highWaterMark }
      some (s.finish l conn c [] [])
    else none
  | .destroy conn =>
    if conn < s.accepted ∧ conn ∉ s.destroyed.map Destruction.conn ∧ ¬ s.Held conn then
      some (s.destroy conn)
    else none

/-! ## Inversion -/

/-- What a step does. -/
inductive Steps (s : ServerRun) : Event → ServerRun → Prop
  | refuse {sockfd} : Steps s (.newConnection true sockfd) s
  | newConnection {sockfd s'} (free : s.At 0 .between) (run : s.newConnection sockfd = some s') :
      Steps s (.newConnection false sockfd) s'
  | doPendingFunctors {l} (isLoop : s.IsLoop l) (free : s.At l .between) :
      Steps s (.doPendingFunctors l)
        (s.setBatch l .functors (s.loops l).queue.swapFunctors)
  | runFunctor {l w conn f queue c actions fs} (free : s.At l .functors)
      (next : (s.loops l).queue.nextFunctor = some (.connection conn f, queue))
      (fit : Session.WriteFits w f) (run : f.run (s.conns conn).conn w = .ok (c, actions) fs) :
      Steps s (.runFunctor l w)
        (((s.setQueue l queue).recordFunctor l conn f).finish l conn c actions fs)
  | runRemoval {l w conn queue} (free : s.At l .functors)
      (next : (s.loops l).queue.nextFunctor = some (.removeConnectionInLoop conn, queue)) :
      Steps s (.runFunctor l w) ((s.setQueue l queue).removeConnectionInLoop conn)
  | runUser {l w id queue} (free : s.At l .functors)
      (next : (s.loops l).queue.nextFunctor = some (.user id, queue)) :
      Steps s (.runFunctor l w) (s.setQueue l queue)
  | endFunctors {l} (free : s.At l .functors) (done : (s.loops l).queue.rest = []) :
      Steps s (.endFunctors l)
        (s.setBatch l .between (s.loops l).queue.endFunctors)
  | handleEvent {conn revents} (lt : conn < s.accepted) (free : s.At (s.conns conn).loop_ .between)
      (delivers : (s.conns conn).conn.channel_.Delivers revents)
      (interested : (s.conns conn).conn.channel_.isNoneEvent = false) :
      Steps s (.handleEvent conn revents)
        ((s.setPhase (s.conns conn).loop_ (.event conn (Channel.handleEventWithGuard revents))).finish
          (s.conns conn).loop_ conn
          { (s.conns conn).conn with channel_ := (s.conns conn).conn.channel_.beginEvent } [] [])
  | runCallback {l r w conn cb rest c actions fs} (free : s.At l (.event conn (cb :: rest)))
      (rfit : r.Fits (s.conns conn).conn.inputBuffer_)
      (wfit : w.Fits (s.conns conn).conn.outputBuffer_.readable.length)
      (run : (s.conns conn).conn.handleEvent cb r w = .ok (c, actions) fs) :
      Steps s (.runCallback l r w)
        (((s.setPhase l (.event conn rest)).record l conn (.handleEvent cb)).finish l conn c actions
          fs)
  | endEvent {l conn} (free : s.At l (.event conn [])) :
      Steps s (.endEvent l)
        ((s.setPhase l .between).finish l conn
          { (s.conns conn).conn with channel_ := (s.conns conn).conn.channel_.endEvent } [] [])
  | enterUser {l} (isLoop : s.IsLoop l) (free : s.At l .between ∨ s.At l .functors) :
      Steps s (.enterUser l) (s.setUser l (some .other))
  | leaveDown {l conn c actions fs}
      (inside : (s.loops l).user = some (.callback conn (.connection false)))
      (run : (s.conns conn).conn.removeChannel = .ok (c, actions) fs) :
      Steps s (.leaveUser l) ((s.setUser l none).finish l conn c actions fs)
  | leaveUser {l code} (inside : (s.loops l).user = some code)
      (notDown : ∀ conn, code ≠ .callback conn (.connection false)) :
      Steps s (.leaveUser l) (s.setUser l none)
  | send {thread conn message w c actions fs} (may : s.MayCall thread conn)
      (fit : w.Fits message.bytes.length)
      (run : (s.conns conn).conn.send (s.threadFor conn thread) message w = .ok (c, actions) fs) :
      Steps s (.send thread conn message w) (s.finish thread conn c actions fs)
  | shutdown {thread conn c actions fs} (may : s.MayCall thread conn)
      (run : (s.conns conn).conn.shutdown (s.threadFor conn thread) = .ok (c, actions) fs) :
      Steps s (.shutdown thread conn) (s.finish thread conn c actions fs)
  | useInput {l conn op str b fs} (inside : s.inMessageCallback l = some conn)
      (allowed : op.Allowed (s.conns conn).conn.inputBuffer_)
      (run : op.exec (s.conns conn).conn.inputBuffer_ = .ok (str, b) fs) :
      Steps s (.useInput l op)
        (s.finish l conn { (s.conns conn).conn with inputBuffer_ := b } [] fs)
  | swapInput {l conn b} (inside : s.inMessageCallback l = some conn) (valid : b.Valid) :
      Steps s (.swapInput l b)
        (s.finish l conn { (s.conns conn).conn with inputBuffer_ := b } [] [])
  | setWriteCompleteCallback {conn isSet} (isLoop : s.IsLoop (s.conns conn).loop_)
      (may : s.MayCall (s.conns conn).loop_ conn) :
      Steps s (.setWriteCompleteCallback conn isSet)
        (s.finish (s.conns conn).loop_ conn
          { (s.conns conn).conn with writeCompleteCallback_ := isSet } [] [])
  | setHighWaterMarkCallback {conn isSet highWaterMark} (isLoop : s.IsLoop (s.conns conn).loop_)
      (may : s.MayCall (s.conns conn).loop_ conn) :
      Steps s (.setHighWaterMarkCallback conn isSet highWaterMark)
        (s.finish (s.conns conn).loop_ conn
          { (s.conns conn).conn with
            highWaterMarkCallback_ := isSet, highWaterMark_ := highWaterMark } [] [])
  | destroy {conn} (lt : conn < s.accepted) (unheld : ¬ s.Held conn) :
      Steps s (.destroy conn) (s.destroy conn)

theorem call_inv {s s' : ServerRun} {thread conn : Nat} {result : Result}
    (h : s.call thread conn result = some s') :
    ∃ c actions fs, result = .ok (c, actions) fs ∧ s' = s.finish thread conn c actions fs := by
  unfold call at h
  split at h
  · obtain rfl := Option.some.inj h
    exact ⟨_, _, _, rfl, rfl⟩
  · cases h

theorem step_inv {s s' : ServerRun} {e : Event} (h : s.step e = some s') : Steps s e s' := by
  cases e with
  | newConnection pollFails sockfd =>
      simp only [step, Option.ite_none_right_eq_some] at h
      obtain ⟨hfree, h⟩ := h
      cases pollFails with
      | true =>
          obtain rfl := Option.some.inj h
          exact .refuse
      | false => exact .newConnection hfree h
  | doPendingFunctors l =>
      simp only [step, Option.ite_none_right_eq_some, Option.some.injEq] at h
      obtain ⟨⟨hloop, hfree⟩, rfl⟩ := h
      exact .doPendingFunctors hloop hfree
  | runFunctor l w =>
      simp only [step, Option.ite_none_right_eq_some] at h
      obtain ⟨hfree, h⟩ := h
      split at h
      · rename_i g queue hnext
        cases g with
        | connection conn f =>
            simp only [Option.ite_none_right_eq_some] at h
            obtain ⟨hfit, h⟩ := h
            obtain ⟨c, actions, fs, hrun, rfl⟩ := call_inv h
            exact .runFunctor hfree hnext hfit hrun
        | removeConnectionInLoop conn =>
            obtain rfl := Option.some.inj h
            exact .runRemoval hfree hnext
        | user id =>
            obtain rfl := Option.some.inj h
            exact .runUser hfree hnext
      · cases h
  | endFunctors l =>
      simp only [step, Option.ite_none_right_eq_some, Option.some.injEq] at h
      obtain ⟨⟨hfree, hdone⟩, rfl⟩ := h
      exact .endFunctors hfree hdone
  | handleEvent conn revents =>
      simp only [step, Option.ite_none_right_eq_some, Option.some.injEq] at h
      obtain ⟨⟨hlt, hfree, hdelivers, hinterested⟩, rfl⟩ := h
      exact .handleEvent hlt hfree hdelivers hinterested
  | runCallback l r w =>
      simp only [step] at h
      split at h
      · rename_i conn cb rest hphase
        simp only [Option.ite_none_right_eq_some] at h
        obtain ⟨⟨hfree, hrfit, hwfit⟩, h⟩ := h
        obtain ⟨c, actions, fs, hrun, rfl⟩ := call_inv h
        exact .runCallback ⟨hphase, hfree⟩ hrfit hwfit hrun
      · cases h
  | endEvent l =>
      simp only [step] at h
      split at h
      · rename_i conn hphase
        simp only [Option.ite_none_right_eq_some, Option.some.injEq] at h
        obtain ⟨hfree, rfl⟩ := h
        exact .endEvent ⟨hphase, hfree⟩
      · cases h
  | enterUser l =>
      simp only [step, Option.ite_none_right_eq_some, Option.some.injEq] at h
      obtain ⟨⟨hloop, hfree⟩, rfl⟩ := h
      exact .enterUser hloop hfree
  | leaveUser l =>
      simp only [step] at h
      split at h
      · rename_i conn hinside
        obtain ⟨c, actions, fs, hrun, rfl⟩ := call_inv h
        exact .leaveDown hinside hrun
      · rename_i code hnot hinside
        obtain rfl := Option.some.inj h
        exact .leaveUser hinside hnot
      · cases h
  | send thread conn message w =>
      simp only [step, Option.ite_none_right_eq_some] at h
      obtain ⟨⟨hmay, hfit⟩, h⟩ := h
      obtain ⟨c, actions, fs, hrun, rfl⟩ := call_inv h
      exact .send hmay hfit hrun
  | shutdown thread conn =>
      simp only [step, Option.ite_none_right_eq_some] at h
      obtain ⟨hmay, h⟩ := h
      obtain ⟨c, actions, fs, hrun, rfl⟩ := call_inv h
      exact .shutdown hmay hrun
  | useInput l op =>
      simp only [step] at h
      split at h
      · rename_i conn hinside
        simp only [Option.ite_none_right_eq_some] at h
        obtain ⟨hallowed, h⟩ := h
        obtain ⟨c, actions, fs, hrun, rfl⟩ := call_inv h
        obtain ⟨⟨str, b⟩, gs, hs, hexec, hret, rfl⟩ := Outcome.bind_eq_ok hrun
        simp only [Outcome.pure_eq, Outcome.ok.injEq, Prod.mk.injEq] at hret
        obtain ⟨⟨rfl, rfl⟩, rfl⟩ := hret
        rw [List.append_nil]
        exact .useInput hinside hallowed hexec
      · cases h
  | swapInput l b =>
      simp only [step] at h
      split at h
      · rename_i conn hinside
        simp only [Option.ite_none_right_eq_some, Option.some.injEq] at h
        obtain ⟨hvalid, rfl⟩ := h
        exact .swapInput hinside hvalid
      · cases h
  | setWriteCompleteCallback conn isSet =>
      simp only [step, Option.ite_none_right_eq_some, Option.some.injEq] at h
      obtain ⟨⟨hloop, hmay⟩, rfl⟩ := h
      exact .setWriteCompleteCallback hloop hmay
  | setHighWaterMarkCallback conn isSet highWaterMark =>
      simp only [step, Option.ite_none_right_eq_some, Option.some.injEq] at h
      obtain ⟨⟨hloop, hmay⟩, rfl⟩ := h
      exact .setHighWaterMarkCallback hloop hmay
  | destroy conn =>
      simp only [step, Option.ite_none_right_eq_some, Option.some.injEq] at h
      obtain ⟨⟨hlt, -, hunheld⟩, rfl⟩ := h
      exact .destroy hlt hunheld

end ServerRun

/-- All runs of a server with any number of loops. -/
def serverMachine : Machine ServerRun ServerRun.Event where
  init s := ∃ name numThreads writeComplete, s = ServerRun.new name numThreads writeComplete
  step := ServerRun.step

end Simplev
