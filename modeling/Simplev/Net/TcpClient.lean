import Mathlib.Logic.Function.Basic
import Simplev.Net.Dialer

/-!
# `Net.TcpClient` — a client, its connector and its connections (`TcpClient.h`, `TcpClient.cc`)

`clientMachine` puts the client around a `Dialer`: every event of the loop is one of the dialer's, and the
client's own code runs where the dialer calls it. A connection that the connector hands over is made by
`newConnection`; one that the peer closes goes through `handleClose` and `removeConnection`, which decides
on the restart; its `connectDestroyed` comes out of the loop's queue among the connector's functors.

Of a connection the client uses what opens, shuts down and closes it. The bytes it carries are the subject
of `Net.Session`.
-/

namespace Simplev

open Foundation

structure TcpClient where
  retry_ : Bool
  connect_ : Bool
  /-- `writeCompleteCallback_` is set. -/
  writeCompleteCallback_ : Bool
  /-- The connection it points to, by its descriptor. -/
  connection_ : Option Nat
  connector_ : Dialer
  /-- The connections that were made, by descriptor. -/
  connections : Nat → Option TcpConnection
  /-- The calls of `connectionCallback_`: the connection, and what `connected()` says. -/
  calls : List (Nat × Bool)
  /-- How often `connect()` was called. -/
  connects : Nat
  /-- The asserts of the client and of its connections that failed. -/
  failed : List String

namespace TcpClient

def new (retry writeComplete : Bool) : TcpClient where
  retry_ := retry
  connect_ := true
  writeCompleteCallback_ := writeComplete
  connection_ := none
  connector_ := Dialer.new
  connections _ := none
  calls := []
  connects := 0
  failed := []

/-- The call of `connectionCallback_` that an action of the connection on `sockfd` makes. -/
def callOf (sockfd : Nat) : TcpConnection.Action → Option (Nat × Bool)
  | .callback (.connection connected) => some (sockfd, connected)
  | _ => none

/-- The functor it queues. -/
def functorOf (sockfd : Nat) : TcpConnection.Action → Option Dialer.Functor
  | .queueInLoop f => some (.connection sockfd f)
  | _ => none

/-- The connection on `sockfd` ran a member function; what it did takes effect. -/
def ran (s : TcpClient) (sockfd : Nat) : TcpConnection.Result → Option TcpClient
  | .ok (conn, actions) fs =>
    some { s with
      connections := Function.update s.connections sockfd (some conn)
      connector_ :=
        { s.connector_ with loop := s.connector_.loop.queueAll (actions.filterMap (functorOf sockfd)) }
      calls := s.calls ++ actions.filterMap (callOf sockfd)
      failed := s.failed ++ fs }
  | .thrown _ => none

/-- `connectDestroyed` with its last line. -/
def connectDestroyed (conn : TcpConnection) : TcpConnection.Result := do
  let (conn, actions) ← conn.connectDestroyed
  let (conn, more) ← conn.removeChannel
  return (conn, actions ++ more)

def newConnection (s : TcpClient) (sockfd : Nat) : Option TcpClient :=
  { s with connection_ := some sockfd }.ran sockfd
    (TcpConnection.new sockfd s.writeCompleteCallback_).connectEstablished

/-- `closeCallback_` of the connection on `sockfd`. The connector queues its `connectDestroyed`, and
    restarts as told. -/
def removeConnection (s : TcpClient) (sockfd : Nat) (savedErrno : Connector.SavedErrno) :
    Option TcpClient :=
  let restart := s.connect_ && s.retry_
  (s.connector_.step (.handleClose sockfd restart savedErrno)).map fun d =>
    { s with
      connection_ := none
      connector_ := d
      failed := s.failed ++ Outcome.unmet (s.connection_ = some sockfd) "connection_ == conn" }

inductive Event where
  | connect (caller : Thread) (savedErrno : Connector.SavedErrno)
  | disconnect (caller : Thread)
  | stop (caller : Thread)
  | doPendingFunctors
  | runFunctor (savedErrno : Connector.SavedErrno)
  | endFunctors
  | expire (sequence : Nat) (savedErrno : Connector.SavedErrno)
  | handleEvent (revents : Revents)
  | runCallback (probe : Connector.Probe)
  | leaveUser
  | endEvent
  /-- The connection on `sockfd` reads the end of the stream. -/
  | handleRead (sockfd : Nat) (savedErrno : Connector.SavedErrno)
deriving DecidableEq

/-- The step of the connector. -/
def dialed (s : TcpClient) (e : Dialer.Event) : Option TcpClient :=
  (s.connector_.step e).map fun d => { s with connector_ := d }

/-- libev found the connection on `sockfd` readable in the last poll. -/
def Readable (s : TcpClient) (sockfd : Nat) : Prop :=
  match s.connections sockfd with
  | some conn => conn.channel_.Delivers ⟨false, true, false⟩ ∧ .io sockfd ∉ s.connector_.fresh
  | none => False

instance (s : TcpClient) (sockfd : Nat) : Decidable (s.Readable sockfd) := by
  unfold Readable
  cases s.connections sockfd with
  | none => infer_instance
  | some conn => infer_instance

/-- One atomic step. -/
def step (s : TcpClient) : Event → Option TcpClient
  | .connect caller savedErrno =>
    { s with connect_ := true, connects := s.connects + 1 }.dialed (.start caller savedErrno)
  | .stop caller => { s with connect_ := false }.dialed (.stop caller)
  | .disconnect caller =>
    if s.connector_.MayCall caller then
      let s := { s with connect_ := false }
      match s.connection_ with
      | some sockfd => (s.connections sockfd).bind fun conn => s.ran sockfd (conn.shutdown caller)
      | none => some s
    else none
  | .runFunctor savedErrno =>
    (s.dialed (.runFunctor savedErrno)).bind fun s' =>
      match s.connector_.loop.nextFunctor with
      | some (.connection sockfd .connectDestroyed, _) =>
        (s.connections sockfd).bind fun conn => s'.ran sockfd (connectDestroyed conn)
      | some (.connection sockfd f, _) =>
        (s.connections sockfd).bind fun conn => s'.ran sockfd (f.run conn (.wrote 0))
      | _ => some s'
  | .runCallback probe =>
    (s.dialed (.runCallback probe)).bind fun s' =>
      -- `newConnectionCallback_` is called at the end of `handleWrite`
      match s'.connector_.handed.drop s.connector_.handed.length with
      | [] => some s'
      | sockfd :: _ => s'.newConnection sockfd
  | .handleRead sockfd savedErrno =>
    if s.connector_.phase = .between ∧ s.Readable sockfd then
      (s.connections sockfd).bind fun conn =>
        (s.ran sockfd conn.handleClose).bind fun s' => s'.removeConnection sockfd savedErrno
    else none
  | .doPendingFunctors => s.dialed .doPendingFunctors
  | .endFunctors => s.dialed .endFunctors
  | .expire sequence savedErrno => s.dialed (.expire sequence savedErrno)
  | .handleEvent revents => s.dialed (.handleEvent revents)
  | .leaveUser => s.dialed .leaveUser
  | .endEvent => s.dialed .endEvent

/-! ## What a step does to the connector -/

/-- The event of the connector that an event of the client is. -/
def dialerEvent (s : TcpClient) : Event → Option Dialer.Event
  | .connect caller savedErrno => some (.start caller savedErrno)
  | .disconnect _ => none
  | .stop caller => some (.stop caller)
  | .doPendingFunctors => some .doPendingFunctors
  | .runFunctor savedErrno => some (.runFunctor savedErrno)
  | .endFunctors => some .endFunctors
  | .expire sequence savedErrno => some (.expire sequence savedErrno)
  | .handleEvent revents => some (.handleEvent revents)
  | .runCallback probe => some (.runCallback probe)
  | .leaveUser => some .leaveUser
  | .endEvent => some .endEvent
  | .handleRead sockfd savedErrno => some (.handleClose sockfd (s.connect_ && s.retry_) savedErrno)

/-- How many calls of `connect()` an event is. -/
def Event.connected : Event → Nat
  | .connect _ _ => 1
  | _ => 0

/-- `connect_` after an event. -/
def flagAfter (s : TcpClient) : Event → Bool
  | .connect _ _ => true
  | .disconnect _ | .stop _ => false
  | _ => s.connect_

/-- Functors of connections are queued. -/
def Queued (d d' : Dialer) : Prop :=
  ∃ fs : List Dialer.Functor, (∀ f ∈ fs, ∃ sockfd g, f = .connection sockfd g) ∧
    d' = { d with loop := d.loop.queueAll fs }

/-- The connector makes the step, if there is one to make. -/
def Dialed (d : Dialer) : Option Dialer.Event → Dialer → Prop
  | some e, d' => d.step e = some d'
  | none, d' => d' = d

variable {s s' : TcpClient} {e : Event}

theorem Queued.refl (d : Dialer) : Queued d d := ⟨[], by simp, by rw [EventLoop.queueAll_nil]⟩

theorem ran_queued {sockfd : Nat} {r : TcpConnection.Result} (h : s.ran sockfd r = some s') :
    Queued s.connector_ s'.connector_ ∧ s'.connect_ = s.connect_ ∧ s'.retry_ = s.retry_ ∧
      s'.connects = s.connects := by
  unfold ran at h
  split at h
  · rename_i conn actions fs
    obtain rfl := Option.some.inj h
    refine ⟨⟨actions.filterMap (functorOf sockfd), fun f hf => ?_, rfl⟩, rfl, rfl, rfl⟩
    obtain ⟨a, -, ha⟩ := List.mem_filterMap.mp hf
    unfold functorOf at ha
    split at ha
    · exact ⟨sockfd, _, (Option.some.inj ha).symm⟩
    · cases ha
  · cases h

theorem dialed_eq {de : Dialer.Event} (h : s.dialed de = some s') :
    s.connector_.step de = some s'.connector_ ∧ s'.connect_ = s.connect_ ∧ s'.connects = s.connects := by
  obtain ⟨d, hd, rfl⟩ := Option.map_eq_some_iff.mp h
  exact ⟨hd, rfl, rfl⟩

/-- **A step of the client** is a step of its connector, around which functors of connections are
    queued. -/
theorem step_connector (h : s.step e = some s') :
    (∃ d d', Queued s.connector_ d ∧ Dialed d (s.dialerEvent e) d' ∧ Queued d' s'.connector_) ∧
      s'.connect_ = s.flagAfter e ∧ s'.connects = s.connects + e.connected := by
  -- an event that is one of the dialer's and nothing else
  have hplain : ∀ {t : TcpClient} {de : Dialer.Event}, t.connector_ = s.connector_ → t.dialed de = some s' →
      s.dialerEvent e = some de → t.connect_ = s.flagAfter e → t.connects = s.connects + e.connected →
      (∃ d d', Queued s.connector_ d ∧ Dialed d (s.dialerEvent e) d' ∧ Queued d' s'.connector_) ∧
        s'.connect_ = s.flagAfter e ∧ s'.connects = s.connects + e.connected := by
    intro t de hsame hdialed hevent hflag hconnects
    obtain ⟨hstep, hflag', hconnects'⟩ := dialed_eq hdialed
    rw [hsame] at hstep
    refine ⟨⟨_, _, .refl _, ?_, .refl _⟩, hflag'.trans hflag, hconnects'.trans hconnects⟩
    rw [hevent]
    exact hstep
  -- an event of the dialer's, after which a connection runs
  have hran : ∀ {t : TcpClient} {de : Dialer.Event} {sockfd : Nat} {r : TcpConnection.Result},
      s.connector_.step de = some t.connector_ ∧ t.connect_ = s.connect_ ∧ t.connects = s.connects →
      t.ran sockfd r = some s' → s.dialerEvent e = some de → s.connect_ = s.flagAfter e →
      e.connected = 0 →
      (∃ d d', Queued s.connector_ d ∧ Dialed d (s.dialerEvent e) d' ∧ Queued d' s'.connector_) ∧
        s'.connect_ = s.flagAfter e ∧ s'.connects = s.connects + e.connected := by
    rintro t de sockfd r ⟨hstep, hflag', hconnects'⟩ hrun hevent hflag hzero
    obtain ⟨hqueued, hflag'', -, hconnects''⟩ := ran_queued hrun
    refine ⟨⟨_, _, .refl _, ?_, hqueued⟩, hflag''.trans (hflag'.trans hflag), ?_⟩
    · rw [hevent]
      exact hstep
    · rw [hconnects'', hconnects', hzero, Nat.add_zero]
  cases e with
  | connect caller savedErrno =>
      exact hplain (t := { s with connect_ := true, connects := s.connects + 1 }) rfl h rfl rfl rfl
  | stop caller => exact hplain (t := { s with connect_ := false }) rfl h rfl rfl rfl
  | doPendingFunctors => exact hplain rfl h rfl rfl rfl
  | endFunctors => exact hplain rfl h rfl rfl rfl
  | expire sequence savedErrno => exact hplain rfl h rfl rfl rfl
  | handleEvent revents => exact hplain rfl h rfl rfl rfl
  | leaveUser => exact hplain rfl h rfl rfl rfl
  | endEvent => exact hplain rfl h rfl rfl rfl
  | disconnect caller =>
      simp only [step, Option.ite_none_right_eq_some] at h
      obtain ⟨-, h⟩ := h
      split at h
      · obtain ⟨conn, -, h⟩ := Option.bind_eq_some_iff.mp h
        obtain ⟨hqueued, hflag, -, hconnects⟩ := ran_queued h
        exact ⟨⟨_, _, .refl _, rfl, hqueued⟩, hflag, hconnects⟩
      · obtain rfl := Option.some.inj h
        exact ⟨⟨_, _, .refl _, rfl, .refl _⟩, rfl, rfl⟩
  | runFunctor savedErrno =>
      obtain ⟨t, hdialed, h⟩ := Option.bind_eq_some_iff.mp h
      split at h
      · obtain ⟨conn, -, h⟩ := Option.bind_eq_some_iff.mp h
        exact hran (dialed_eq hdialed) h rfl rfl rfl
      · obtain ⟨conn, -, h⟩ := Option.bind_eq_some_iff.mp h
        exact hran (dialed_eq hdialed) h rfl rfl rfl
      · obtain rfl := Option.some.inj h
        exact hplain rfl hdialed rfl rfl rfl
  | runCallback probe =>
      obtain ⟨t, hdialed, h⟩ := Option.bind_eq_some_iff.mp h
      split at h
      · obtain rfl := Option.some.inj h
        exact hplain rfl hdialed rfl rfl rfl
      · have hmade := dialed_eq hdialed
        exact hran (t := { t with connection_ := some _ }) hmade h rfl rfl rfl
  | handleRead sockfd savedErrno =>
      simp only [step, Option.ite_none_right_eq_some] at h
      obtain ⟨-, h⟩ := h
      obtain ⟨conn, -, h⟩ := Option.bind_eq_some_iff.mp h
      obtain ⟨t, hrun, h⟩ := Option.bind_eq_some_iff.mp h
      obtain ⟨hqueued, hflag, hretry, hconnects⟩ := ran_queued hrun
      obtain ⟨d, hstep, rfl⟩ := Option.map_eq_some_iff.mp h
      refine ⟨⟨_, _, hqueued, ?_, .refl _⟩, hflag, hconnects⟩
      rw [hflag, hretry] at hstep
      exact hstep

end TcpClient

open TcpClient in
/-- All runs of one client. -/
def clientMachine : Machine TcpClient Event where
  init s := ∃ retry writeComplete, s = TcpClient.new retry writeComplete
  step := TcpClient.step

end Simplev
