import Simplev.Net.Correctness.Disconnect

/-!
# `Net.ClientLife` — `~TcpClient`, and what is left behind (`TcpClient.cc`)

A client can be destroyed, in the loop's thread, while its connector and its connection go on. Both have a
callback bound to it: `newConnectionCallback_` of the connector, and `closeCallback_` of the connection. The
destructor replaces the second by `detail::removeConnection` if there is a connection, and stops the connector
if there is none. A call that reaches the client after that is kept in `dangling`.

With one call of `connect()` this is enough: a client that has a connection has nothing under way that could
lead to another one (`chances`), and a client that has none has no open connection at all (`Covers`).
`Tracked` says that a Channel of the connector is in use or about to be reset, so that none is leaked.
-/

namespace Simplev

open Foundation TcpClient

structure ClientLife where
  /-- Once it is destroyed, what is left of its connector and its connections. -/
  client : TcpClient
  destroyed : Bool
  /-- The connections whose `closeCallback_` is `detail::removeConnection`. -/
  replaced : List Nat
  /-- The member functions that were called on a client that no longer exists. -/
  dangling : List String

namespace ClientLife

def new (retry writeComplete : Bool) : ClientLife where
  client := TcpClient.new retry writeComplete
  destroyed := false
  replaced := []
  dangling := []

inductive Event where
  | client (e : TcpClient.Event)
  /-- `~TcpClient`. -/
  | destroy
deriving DecidableEq

/-- `~TcpClient`, in the loop's thread. -/
def destroy (s : ClientLife) : Option ClientLife :=
  if s.client.connector_.MayCall .loop then
    match s.client.connection_ with
    | some sockfd => some { s with destroyed := true, replaced := s.replaced ++ [sockfd] }
    | none =>
      (s.client.dialed (.stop .loop)).map fun client => { s with client := client, destroyed := true }
  else none

/-- What goes on without the client. -/
def stepLeft (s : ClientLife) : TcpClient.Event → Option ClientLife
  | .connect _ _ | .disconnect _ | .stop _ => none
  | .runCallback probe =>
    (s.client.dialed (.runCallback probe)).map fun client =>
      -- `newConnectionCallback_`
      let calls := client.connector_.handed.drop s.client.connector_.handed.length
      { s with client := client, dangling := s.dangling ++ calls.map fun _ => "newConnection" }
  | .handleRead sockfd savedErrno =>
    if s.client.connector_.phase = .between ∧ s.client.Readable sockfd then
      (s.client.connections sockfd).bind fun conn =>
        (s.client.ran sockfd conn.handleClose).bind fun client =>
          -- `closeCallback_`
          (client.dialed (.handleClose sockfd false savedErrno)).map fun client =>
            let calls := if sockfd ∈ s.replaced then [] else ["removeConnection"]
            { s with client := client, dangling := s.dangling ++ calls }
    else none
  | e => (s.client.step e).map fun client => { s with client := client }

def step (s : ClientLife) : Event → Option ClientLife
  | .destroy => if s.destroyed = false then s.destroy else none
  | .client e =>
    if s.destroyed then s.stepLeft e
    else (s.client.step e).map fun client => { s with client := client }

end ClientLife

/-- All runs of a client that may be destroyed. -/
def lifeMachine : Machine ClientLife ClientLife.Event where
  init s := ∃ retry writeComplete, s = ClientLife.new retry writeComplete
  step := ClientLife.step

namespace Dialer

variable {s s' s₁ : Dialer} {e : Event} {savedErrno : Connector.SavedErrno} {writable : Bool} {n : Nat}

/-! ## The Channel of the connector -/

/-- A Channel is in use, or its reset waits. -/
def Tracked (s : Dialer) : Prop :=
  s.connector.channel_ = none ∨ s.connector.state_ = .kConnecting ∨
    ∃ sockfd, .connector (.resetChannel sockfd) ∈ s.loop.waiting

/-- No attempt is in flight: then there is no Channel, or its reset waits. -/
def Leaves (s : Dialer) : Prop :=
  s.connector.channel_ = none ∨ ∃ sockfd, .connector (.resetChannel sockfd) ∈ s.loop.waiting

theorem Tracked.leaves (h : s.Tracked) (hidle : s.connector.state_ ≠ .kConnecting) : s.Leaves :=
  h.imp_right fun h => h.resolve_left hidle

theorem Leaves.tracked (h : s.Leaves) : s.Tracked := h.imp_right .inr

/-- The queue grows. -/
theorem Tracked.grows (h : s.Tracked) (hchannel : s'.connector.channel_ = none ↔ s.connector.channel_ = none)
    (hstate : s'.connector.state_ = s.connector.state_)
    (hwaiting : ∀ f ∈ s.loop.waiting, f ∈ s'.loop.waiting) : s'.Tracked := by
  unfold Tracked
  rw [hchannel, hstate]
  refine h.imp_right (Or.imp_right ?_)
  rintro ⟨sockfd, hmem⟩
  exact ⟨sockfd, hwaiting _ hmem⟩

/-- A functor that is no reset is taken from the queue. -/
theorem mem_nextFunctor {l l' : EventLoop Functor} {f : Functor} (h : l.nextFunctor = some (f, l'))
    (hf : ∀ sockfd, f ≠ .connector (.resetChannel sockfd)) {sockfd : Nat}
    (hmem : .connector (.resetChannel sockfd) ∈ l.waiting) :
    .connector (.resetChannel sockfd) ∈ l'.waiting := by
  rw [EventLoop.nextFunctor_waiting h] at hmem
  exact (List.mem_cons.mp hmem).resolve_left fun heq => hf sockfd heq.symm

/-- What makes an attempt finds none in flight. -/
theorem Launching.leaves (hL : Lone n s) (hn : n + e.started ≤ 1) (htracked : s.Tracked)
    (h : Launching s e savedErrno s₁) : s₁.Leaves := by
  have hone := hL.one
  have hidle : s.connector.state_ ≠ .kConnecting := by
    intro hbusy
    rw [outstanding_busy hbusy] at hone
    cases h with
    | start _ =>
        simp only [Event.started] at hn
        omega
    | functor _ next =>
        have hstarts := starts_nextFunctor next
        rw [if_pos rfl] at hstarts
        omega
    | expire _ active _ =>
        have hpos := List.length_pos_of_mem active
        omega
    | restart _ opened _ =>
        have hpos := List.length_pos_of_mem opened
        omega
  have hleaves := htracked.leaves hidle
  cases h with
  | start _ => exact hleaves
  | functor _ next =>
      refine hleaves.imp_right ?_
      rintro ⟨sockfd, hmem⟩
      exact ⟨sockfd, mem_nextFunctor next (by simp) hmem⟩
  | expire _ _ _ => exact hleaves
  | restart _ _ _ =>
      refine hleaves.imp_right ?_
      rintro ⟨sockfd, hmem⟩
      refine ⟨sockfd, ?_⟩
      rw [EventLoop.waiting_queueInLoop]
      exact List.mem_append_left _ hmem

theorem Launched.tracked (hleaves : s.Leaves) (h : Launched s savedErrno s') : s'.Tracked := by
  cases h with
  | declined _ => exact Leaves.tracked hleaves
  | began _ _ _ => exact .inr (.inl rfl)
  | retried _ _ => exact Leaves.tracked hleaves
  | gaveUp _ _ _ => exact Leaves.tracked hleaves

/-- What ends an attempt queues the reset of its Channel. -/
theorem Ended.tracked (htracked : s.Tracked) (h : Ended s writable s') : s'.Tracked := by
  have hqueued : ∀ sockfd, .connector (.resetChannel sockfd) ∈
      (s.loop.queueInLoop (.connector (.resetChannel sockfd))).waiting := by
    intro sockfd
    rw [EventLoop.waiting_queueInLoop]
    exact List.mem_append_right _ (List.mem_singleton_self _)
  cases h with
  | ignored _ _ => exact htracked
  | retried _ _ _ => exact .inr (.inr ⟨_, hqueued _⟩)
  | dropped _ _ _ => exact .inr (.inr ⟨_, hqueued _⟩)
  | handedOver _ _ _ _ => exact .inr (.inr ⟨_, hqueued _⟩)
  | cancelled _ _ _ _ => exact .inr (.inr ⟨_, hqueued _⟩)

theorem Tracked.step (htracked : s.Tracked) (hL : Lone n s) (hn : n + e.started ≤ 1) (h : Moves s e s') :
    s'.Tracked := by
  have hnext : ∀ {f loop}, s.loop.nextFunctor = some (f, loop) →
      (∀ sockfd, f ≠ .connector (.resetChannel sockfd)) → Tracked { s with loop := loop } := by
    intro f loop next hf
    refine htracked.imp_right (Or.imp_right ?_)
    rintro ⟨sockfd, hmem⟩
    exact ⟨sockfd, mem_nextFunctor next hf hmem⟩
  have hqueue : ∀ (l : EventLoop Functor) (f : Functor), ∀ g ∈ l.waiting, g ∈ (l.queueInLoop f).waiting := by
    intro l f g hg
    rw [EventLoop.waiting_queueInLoop]
    exact List.mem_append_left _ hg
  have hmapped : ∀ f : Channel → Channel,
      s.connector.channel_.map f = none ↔ s.connector.channel_ = none := fun f => Option.map_eq_none_iff
  cases h with
  | launch launching run => exact run.tracked (launching.leaves hL hn htracked)
  | @ends _ _ s₁ _ ending run =>
      have hbefore : s₁.Tracked := by
        cases ending with
        | stopInLoop _ next => exact hnext next (by simp)
        | handleError _ _ => exact htracked
        | handleWrite _ _ => exact htracked
      exact run.tracked hbefore
  | start => exact htracked.grows .rfl rfl (hqueue _ _)
  | stop _ => exact htracked.grows .rfl rfl (hqueue _ _)
  | stopLater => exact htracked.grows .rfl rfl fun g hg => hqueue _ _ g (hqueue _ _ g hg)
  | doPendingFunctors phase =>
      refine htracked.grows .rfl rfl fun g hg => ?_
      rw [EventLoop.waiting_swapFunctors (hL.settled (by simp [phase]))]
      exact hg
  | resetChannel _ _ _ => exact .inl rfl
  | cancelInLoop _ next => exact hnext next (by simp)
  | connection _ next => exact hnext next (by simp)
  | endFunctors _ done =>
      refine htracked.grows .rfl rfl fun g hg => ?_
      rw [EventLoop.waiting_endFunctors done]
      exact hg
  | handleEvent _ _ => exact htracked.grows (hmapped _) rfl fun _ hg => hg
  | readCallback _ _ => exact htracked
  | leaveUser _ => exact htracked
  | endEvent _ _ => exact htracked.grows (hmapped _) rfl fun _ hg => hg
  | handleClose _ _ _ => exact htracked.grows .rfl rfl (hqueue _ _)
  | crash _ => exact htracked

/-- A step that is neither a callback of the channel nor a close leaves the connections. -/
theorem Moves.connections_eq (hcallback : ∀ probe, e ≠ .runCallback probe) (hopen : e.closes = false)
    (h : Moves s e s') : s'.connections = s.connections := by
  cases h with
  | launch launching run =>
      rw [run.same.1]
      cases launching with
      | start _ => rfl
      | functor _ _ => rfl
      | expire _ _ _ => rfl
      | restart _ _ _ => cases hopen
  | ends ending run =>
      cases ending with
      | stopInLoop _ _ =>
          cases run with
          | handedOver _ _ _ connected => cases connected
          | _ => rfl
      | handleError _ _ => exact absurd rfl (hcallback _)
      | handleWrite _ _ => exact absurd rfl (hcallback _)
  | readCallback _ _ => exact absurd rfl (hcallback _)
  | handleClose _ _ _ => cases hopen
  | _ => rfl

theorem mem_of_handleClose {sockfd : Nat} {restart : Bool}
    (h : s.step (.handleClose sockfd restart savedErrno) = some s') : sockfd ∈ s.connections := by
  by_contra hnot
  simp [Dialer.step, begin, hnot] at h

/-- A close leaves the other connections. -/
theorem Lone.closed (hL : Lone n s) (hn : n ≤ 1) {sockfd : Nat} {restart : Bool}
    (h : s.step (.handleClose sockfd restart savedErrno) = some s') :
    s'.connections = s.connections.filter (· ≠ sockfd) ∧ s'.handed = s.handed := by
  have hmem := mem_of_handleClose h
  cases step_moves h with
  | launch launching run =>
      cases launching with
      | restart _ _ _ => exact ⟨run.same.1, run.same.2.2⟩
  | ends ending run => cases ending
  | handleClose _ _ _ => exact ⟨rfl, rfl⟩
  | crash dangles =>
      -- no attempt is in flight beside the connection
      have hone := hL.one
      rw [outstanding_busy dangles.1] at hone
      have hpos := List.length_pos_of_mem hmem
      omega

end Dialer

namespace TcpClient

open Dialer

variable {s s' : TcpClient} {d d' : Dialer} {e : Event} {n : Nat}

theorem Queued.tracked (htracked : d.Tracked) (h : Queued d d') : d'.Tracked := by
  obtain ⟨fs, -, rfl⟩ := h
  refine htracked.grows .rfl rfl fun g hg => ?_
  rw [EventLoop.waiting_queueAll]
  exact List.mem_append_left _ hg

theorem Queued.sockets (h : Queued d d') :
    d'.connections = d.connections ∧ d'.nextFd = d.nextFd ∧ d'.handed = d.handed := by
  obtain ⟨fs, -, rfl⟩ := h
  exact ⟨rfl, rfl, rfl⟩

theorem tracked_step (htracked : s.connector_.Tracked) (hL : Lone s.connects s.connector_)
    (hone : s'.connects ≤ 1) (hstep : s.step e = some s') : s'.connector_.Tracked := by
  obtain ⟨⟨d, d', hbefore, hdialed, hafter⟩, -, hconnects⟩ := step_connector hstep
  rw [hconnects] at hone
  refine hafter.tracked ?_
  cases hevent : s.dialerEvent e with
  | none =>
      rw [hevent] at hdialed
      rw [show d' = d from hdialed]
      exact hbefore.tracked htracked
  | some de =>
      rw [hevent] at hdialed
      rw [← dialerEvent_started hevent] at hone
      exact (hbefore.tracked htracked).step (hbefore.lone hL) hone (step_moves hdialed)

/-- Every open connection is `connection_`. -/
def Covers (s : TcpClient) : Prop := ∀ sockfd ∈ s.connector_.connections, s.connection_ = some sockfd

theorem Covers.ran (h : s.Covers) {sockfd : Nat} {r : TcpConnection.Result} (hrun : s.ran sockfd r = some s') :
    s'.Covers := by
  unfold TcpClient.ran at hrun
  split at hrun
  · obtain rfl := Option.some.inj hrun
    exact h
  · cases hrun

/-- The connector makes a step that neither opens nor closes. -/
theorem Covers.dialed (h : s.Covers) {t : TcpClient} {de : Dialer.Event}
    (hcallback : ∀ probe, de ≠ .runCallback probe) (hopen : de.closes = false)
    (hcurrent : t.connection_ = s.connection_) (hconnector : t.connector_ = s.connector_)
    (hdialed : t.dialed de = some s') : s'.Covers := by
  obtain ⟨d, hd, rfl⟩ := Option.map_eq_some_iff.mp hdialed
  rw [hconnector] at hd
  intro sockfd hsockfd
  rw [show d.connections = s.connector_.connections from
    (step_moves hd).connections_eq hcallback hopen] at hsockfd
  exact hcurrent.trans (h sockfd hsockfd)

/-- There is one connection at a time. -/
theorem lone_connections (hL : Lone n d) (hn : n ≤ 1) : d.connections.length ≤ 1 := by
  have hone := hL.one
  unfold outstanding at hone
  omega

theorem Covers.step (h : s.Covers) (hL : Lone s.connects s.connector_) (hone : s'.connects ≤ 1)
    (hstep : s.step e = some s') : s'.Covers := by
  have hL' := lone_step hL hone hstep
  cases e with
  | connect caller savedErrno =>
      exact h.dialed (t := { s with connect_ := true, connects := s.connects + 1 }) (by simp) rfl rfl rfl hstep
  | stop caller => exact h.dialed (t := { s with connect_ := false }) (by simp) rfl rfl rfl hstep
  | doPendingFunctors => exact h.dialed (by simp) rfl rfl rfl hstep
  | endFunctors => exact h.dialed (by simp) rfl rfl rfl hstep
  | expire sequence savedErrno => exact h.dialed (by simp) rfl rfl rfl hstep
  | handleEvent revents => exact h.dialed (by simp) rfl rfl rfl hstep
  | leaveUser => exact h.dialed (by simp) rfl rfl rfl hstep
  | endEvent => exact h.dialed (by simp) rfl rfl rfl hstep
  | disconnect caller =>
      simp only [TcpClient.step, Option.ite_none_right_eq_some] at hstep
      obtain ⟨-, hstep⟩ := hstep
      have hoff : Covers { s with connect_ := false } := h
      split at hstep
      · obtain ⟨conn, -, hstep⟩ := Option.bind_eq_some_iff.mp hstep
        exact hoff.ran hstep
      · obtain rfl := Option.some.inj hstep
        exact hoff
  | runFunctor savedErrno =>
      obtain ⟨t, hdialed, hstep⟩ := Option.bind_eq_some_iff.mp hstep
      have ht : t.Covers := h.dialed (by simp) rfl rfl rfl hdialed
      split at hstep
      · obtain ⟨conn, -, hstep⟩ := Option.bind_eq_some_iff.mp hstep
        exact ht.ran hstep
      · obtain ⟨conn, -, hstep⟩ := Option.bind_eq_some_iff.mp hstep
        exact ht.ran hstep
      · obtain rfl := Option.some.inj hstep
        exact ht
  | runCallback probe =>
      obtain ⟨t, hdialed, hstep⟩ := Option.bind_eq_some_iff.mp hstep
      obtain ⟨d, hd, rfl⟩ := Option.map_eq_some_iff.mp hdialed
      obtain ⟨more, hhanded, hconnections⟩ := (step_moves hd).opens rfl
      have hnew : d.handed.drop s.connector_.handed.length = more := by
        rw [hhanded, List.drop_left]
      simp only [hnew] at hstep
      cases more with
      | nil =>
          obtain rfl := Option.some.inj hstep
          intro sockfd hsockfd
          rw [show d.connections = s.connector_.connections from
            hconnections.trans (List.append_nil _)] at hsockfd
          exact h sockfd hsockfd
      | cons sockfd rest =>
          -- the new connection is the only one
          have hsame : s'.connector_.connections = d.connections := (ran_queued hstep).1.sockets.1
          have hlength := lone_connections hL' hone
          rw [hsame, hconnections, List.length_append, List.length_cons] at hlength
          have hnone : s.connector_.connections = [] := List.length_eq_zero_iff.mp (by omega)
          have hrest : rest = [] := List.length_eq_zero_iff.mp (by omega)
          refine Covers.ran (s := { s with connector_ := d, connection_ := some sockfd }) ?_ hstep
          intro fd hfd
          rw [show d.connections = [sockfd] by rw [hconnections, hnone, hrest, List.nil_append]] at hfd
          rw [List.mem_singleton.mp hfd]
  | handleRead sockfd savedErrno =>
      simp only [TcpClient.step, Option.ite_none_right_eq_some] at hstep
      obtain ⟨-, hstep⟩ := hstep
      obtain ⟨conn, -, hstep⟩ := Option.bind_eq_some_iff.mp hstep
      obtain ⟨t, hrun, hstep⟩ := Option.bind_eq_some_iff.mp hstep
      obtain ⟨d, hd, rfl⟩ := Option.map_eq_some_iff.mp hstep
      have hqueued := (ran_queued hrun).1
      have hone₀ : s.connects ≤ 1 := (ran_queued hrun).2.2.2 ▸ hone
      obtain ⟨hconnections, -⟩ := (hqueued.lone hL).closed hone₀ hd
      obtain ⟨hempty, -⟩ := length_filter_of_mem (mem_of_handleClose hd)
        (lone_connections (hqueued.lone hL) hone₀)
      intro fd hfd
      rw [show d.connections = [] from hconnections.trans (List.length_eq_zero_iff.mp hempty)] at hfd
      cases hfd

/-- While there is a client. -/
theorem reachable_covers (h : clientMachine.Reachable s) :
    s.connects ≤ 1 → s.Covers ∧ s.connector_.Tracked := by
  refine h.invariant (I := fun s => s.connects ≤ 1 → s.Covers ∧ s.connector_.Tracked) ?_ ?_
  · rintro s ⟨retry, writeComplete, rfl⟩ -
    exact ⟨fun sockfd hsockfd => absurd hsockfd List.not_mem_nil, .inl rfl⟩
  · intro s e s' hreach hI _ hstep hone
    have hbefore : s.connects ≤ 1 := by
      rw [(step_connector hstep).2.2] at hone
      exact Nat.le_trans (Nat.le_add_right _ _) hone
    have hL := reachable_lone hreach hbefore
    obtain ⟨hcovers, htracked⟩ := hI hbefore
    exact ⟨hcovers.step hL hone hstep, tracked_step htracked hL hone hstep⟩

end TcpClient

namespace Dialer

variable {s s' : Dialer} {e : Event} {m : Nat}

/-! ## Nothing more to come -/

/-- No connection will be handed over: `connect_` is off, and the attempt in flight ends when `stopInLoop` has its
    turn; or nothing is under way that could lead to one. -/
def Over (s : Dialer) : Prop :=
  s.crashed = true ∨
    (s.connector.connect_ = false ∧ (s.connector.state_ ≠ .kConnecting ∨ ∃ m, Comes s.loop m)) ∨
    s.chances = 0

/-- An event that neither starts nor restarts the connector. -/
def Event.Calm (e : Event) : Prop := e.setsConnect = false ∧ e.started = 0

theorem Over.step (hover : s.Over) (hL : Lone 1 s) (hcalm : e.Calm) (hstep : s.step e = some s') :
    s'.Over ∧ s'.handed = s.handed ∧ s'.nextFd = s.nextFd := by
  have hmoves := step_moves hstep
  rcases hover with hcrashed | ⟨hoff, hends⟩ | hzero
  · rw [Dialer.step, if_pos hcrashed] at hstep
    cases hstep
  · have hstays := hmoves.stays hoff hcalm.1
    refine ⟨?_, hstays.handed, hstays.nextFd⟩
    rcases hends with hidle | ⟨m, hcomes⟩
    · exact .inr (.inl ⟨hstays.off, .inl (hstays.idle hidle)⟩)
    · rcases hmoves.comes hL hcomes with hcrashed | ⟨-, hcomes'⟩ | ⟨-, hidle | ⟨k, -, hcomes'⟩⟩
      · exact .inl hcrashed
      · exact .inr (.inl ⟨hstays.off, .inr ⟨m, hcomes'⟩⟩)
      · exact .inr (.inl ⟨hstays.off, .inl hidle⟩)
      · exact .inr (.inl ⟨hstays.off, .inr ⟨k, hcomes'⟩⟩)
  · have hfades := hmoves.fades hL hcalm.1
    obtain ⟨more, hmore, hle⟩ := hfades.handed
    have hnone : more = [] := List.length_eq_zero_iff.mp (by omega)
    refine ⟨.inr (.inr (by omega)), ?_, hfades.made hzero⟩
    rw [hmore, hnone, List.append_nil]

/-- A close is the only way a connection goes, and none comes. -/
theorem connections_of_handed (hL : Lone 1 s) (hstep : s.step e = some s') (hhanded : s'.handed = s.handed) :
    ∀ sockfd ∈ s'.connections, sockfd ∈ s.connections := by
  intro sockfd hsockfd
  cases hcloses : e.closes with
  | false =>
      obtain ⟨more, hmore, hconnections⟩ := (step_moves hstep).opens hcloses
      have hnone : more = [] := List.append_right_eq_self.mp (hmore.symm.trans hhanded)
      rw [hconnections, hnone, List.append_nil] at hsockfd
      exact hsockfd
  | true =>
      cases e with
      | handleClose fd restart savedErrno =>
          rw [(hL.closed (Nat.le_refl 1) hstep).1] at hsockfd
          exact List.mem_of_mem_filter hsockfd
      | _ => cases hcloses

end Dialer

namespace ClientLife

open Dialer

variable {s s' : ClientLife} {d d' : Dialer}

theorem over_queued (hover : d.Over) (h : Queued d d') : d'.Over := by
  rcases hover with hcrashed | ⟨hoff, hends⟩ | hzero
  · exact .inl (h.crashed.trans hcrashed)
  · have hstays := h.stays hoff
    refine .inr (.inl ⟨hstays.off, hends.imp hstays.idle ?_⟩)
    rintro ⟨m, hcomes⟩
    exact ⟨m, h.comes hcomes⟩
  · obtain ⟨more, -, hle⟩ := h.fades.handed
    exact .inr (.inr (by omega))

/-- **A step without the client** is one of its connector that is calm, and the calls that it makes on the client
    are for a connection that is handed over, or for one that closes and was not replaced. -/
structure StepsLeft (s s' : ClientLife) (de : Dialer.Event) (d d' : Dialer) : Prop where
  calm : de.Calm
  before : Queued s.client.connector_ d
  step : d.step de = some d'
  after : Queued d' s'.client.connector_
  destroyed : s'.destroyed = s.destroyed
  replaced : s'.replaced = s.replaced
  dangling : d'.handed = d.handed → (∀ sockfd ∈ d.connections, sockfd ∈ s.replaced) →
    s'.dangling = s.dangling

theorem stepLeft_inv {e : TcpClient.Event} (h : s.stepLeft e = some s') :
    ∃ de d d', StepsLeft s s' de d d' := by
  -- an event of the loop
  have hplain : ∀ {de : Dialer.Event}, s.client.dialerEvent e = some de → de.Calm →
      ((s.client.step e).map fun client => { s with client := client }) = some s' →
      ∃ de d d', StepsLeft s s' de d d' := by
    intro de hevent hcalm h
    obtain ⟨client, hstep, rfl⟩ := Option.map_eq_some_iff.mp h
    obtain ⟨⟨d, d', hbefore, hdialed, hafter⟩, -, -⟩ := step_connector hstep
    rw [hevent] at hdialed
    exact ⟨de, d, d', hcalm, hbefore, hdialed, hafter, rfl, rfl, fun _ _ => rfl⟩
  cases e with
  | connect caller savedErrno => cases h
  | disconnect caller => cases h
  | stop caller => cases h
  | doPendingFunctors => exact hplain rfl ⟨rfl, rfl⟩ h
  | runFunctor savedErrno => exact hplain rfl ⟨rfl, rfl⟩ h
  | endFunctors => exact hplain rfl ⟨rfl, rfl⟩ h
  | expire sequence savedErrno => exact hplain rfl ⟨rfl, rfl⟩ h
  | handleEvent revents => exact hplain rfl ⟨rfl, rfl⟩ h
  | leaveUser => exact hplain rfl ⟨rfl, rfl⟩ h
  | endEvent => exact hplain rfl ⟨rfl, rfl⟩ h
  | runCallback probe =>
      obtain ⟨client, hdialed, rfl⟩ := Option.map_eq_some_iff.mp h
      obtain ⟨d, hd, rfl⟩ := Option.map_eq_some_iff.mp hdialed
      refine ⟨_, _, d, ⟨rfl, rfl⟩, .refl _, hd, .refl _, rfl, rfl, fun hhanded _ => ?_⟩
      show s.dangling ++ (d.handed.drop s.client.connector_.handed.length).map _ = s.dangling
      rw [hhanded, List.drop_length, List.map_nil, List.append_nil]
  | handleRead sockfd savedErrno =>
      simp only [ClientLife.stepLeft, Option.ite_none_right_eq_some] at h
      obtain ⟨-, h⟩ := h
      obtain ⟨conn, -, h⟩ := Option.bind_eq_some_iff.mp h
      obtain ⟨client, hrun, h⟩ := Option.bind_eq_some_iff.mp h
      obtain ⟨client', hdialed, rfl⟩ := Option.map_eq_some_iff.mp h
      obtain ⟨d, hd, rfl⟩ := Option.map_eq_some_iff.mp hdialed
      refine ⟨_, client.connector_, d, ⟨rfl, rfl⟩, (ran_queued hrun).1, hd, .refl _, rfl, rfl,
        fun _ hreplaced => ?_⟩
      show s.dangling ++ (if sockfd ∈ s.replaced then [] else ["removeConnection"]) = s.dangling
      rw [if_pos (hreplaced sockfd (mem_of_handleClose hd)), List.append_nil]

/-- **What a destroyed client leaves.** -/
structure Left (s : ClientLife) (nextFd : Nat) (handed : List Nat) : Prop where
  destroyed : s.destroyed = true
  lone : Lone 1 s.client.connector_
  ended : s.client.connector_.Over
  tracked : s.client.connector_.Tracked
  replaced : ∀ sockfd ∈ s.client.connector_.connections, sockfd ∈ s.replaced
  nextFd : s.client.connector_.nextFd = nextFd
  handed : s.client.connector_.handed = handed
  dangling : s.dangling = []

theorem Left.step {nextFd : Nat} {handed : List Nat} (h : s.Left nextFd handed) {e : TcpClient.Event}
    (hstep : s.stepLeft e = some s') : s'.Left nextFd handed := by
  obtain ⟨de, d, d', hcalm, hbefore, hdialed, hafter, hdestroyed, hreplaced, hdangling⟩ := stepLeft_inv hstep
  have hL := hbefore.lone h.lone
  obtain ⟨hover, hhanded, hnext⟩ := (over_queued h.ended hbefore).step hL hcalm hdialed
  have hstarted : 1 + de.started ≤ 1 := Nat.le_of_eq (by rw [hcalm.2])
  have hL' : Lone 1 d' := by
    have hstepped := hL.step hstarted (step_moves hdialed)
    rw [hcalm.2] at hstepped
    exact hstepped
  have htracked := (hbefore.tracked h.tracked).step hL hstarted (step_moves hdialed)
  have hopen : ∀ sockfd ∈ d.connections, sockfd ∈ s.replaced := by
    rw [hbefore.sockets.1]
    exact h.replaced
  refine ⟨hdestroyed.trans h.destroyed, hafter.lone hL', over_queued hover hafter, hafter.tracked htracked, ?_,
    ?_, ?_, (hdangling hhanded hopen).trans h.dangling⟩
  · intro sockfd hsockfd
    rw [hafter.sockets.1] at hsockfd
    rw [hreplaced]
    exact hopen sockfd (connections_of_handed hL hdialed hhanded sockfd hsockfd)
  · rw [hafter.sockets.2.1, hnext, hbefore.sockets.2.1, h.nextFd]
  · rw [hafter.sockets.2.2, hhanded, hbefore.sockets.2.2, h.handed]

theorem Left.run {nextFd : Nat} {handed : List Nat} (h : s.Left nextFd handed) {es : List Event}
    (hrun : lifeMachine.run s es = some s') : s'.Left nextFd handed := by
  induction es generalizing s with
  | nil =>
      obtain rfl := Option.some.inj hrun
      exact h
  | cons e es ih =>
      obtain ⟨t, hstep, hrest⟩ := Option.bind_eq_some_iff.mp hrun
      refine ih ?_ hrest
      cases e with
      | destroy =>
          change (if s.destroyed = false then s.destroy else none) = some t at hstep
          rw [h.destroyed] at hstep
          cases hstep
      | client e =>
          change (if s.destroyed = true then s.stepLeft e else _) = some t at hstep
          rw [if_pos h.destroyed] at hstep
          exact h.step hstep

/-- Until it is destroyed, the client runs as one that is never destroyed. -/
theorem reachable_alive (h : lifeMachine.Reachable s) :
    s.destroyed = false → clientMachine.Reachable s.client ∧ s.dangling = [] := by
  refine h.invariant
    (I := fun s => s.destroyed = false → clientMachine.Reachable s.client ∧ s.dangling = []) ?_ ?_
  · rintro s ⟨retry, writeComplete, rfl⟩ -
    exact ⟨.init ⟨retry, writeComplete, rfl⟩, rfl⟩
  · intro s e s' _ hI _ hstep halive
    cases e with
    | destroy =>
        change (if s.destroyed = false then s.destroy else none) = some s' at hstep
        rw [Option.ite_none_right_eq_some] at hstep
        obtain ⟨-, hstep⟩ := hstep
        unfold ClientLife.destroy at hstep
        rw [Option.ite_none_right_eq_some] at hstep
        obtain ⟨-, hstep⟩ := hstep
        split at hstep
        · obtain rfl := Option.some.inj hstep
          cases halive
        · obtain ⟨client, -, rfl⟩ := Option.map_eq_some_iff.mp hstep
          cases halive
    | client e =>
        change (if s.destroyed = true then s.stepLeft e else _) = some s' at hstep
        split at hstep
        · rename_i hdead
          obtain ⟨de, d, d', hleft⟩ := stepLeft_inv hstep
          rw [hleft.destroyed, hdead] at halive
          cases halive
        · rename_i hnot
          obtain ⟨client, hmove, rfl⟩ := Option.map_eq_some_iff.mp hstep
          obtain ⟨hreach, hdangling⟩ := hI (Bool.eq_false_iff.mpr hnot)
          exact ⟨.step hreach trivial hmove, hdangling⟩

/-- `~TcpClient` leaves nothing that will call the client. -/
theorem destroy_left (h : lifeMachine.Reachable s) (hone : s.client.connects ≤ 1)
    (hdestroy : s.step .destroy = some s') :
    s'.Left s.client.connector_.nextFd s.client.connector_.handed := by
  change (if s.destroyed = false then s.destroy else none) = some s' at hdestroy
  rw [Option.ite_none_right_eq_some] at hdestroy
  obtain ⟨halive, hdestroy⟩ := hdestroy
  obtain ⟨hreach, hdangling⟩ := reachable_alive h halive
  have hL := (reachable_lone hreach hone).mono hone
  obtain ⟨hcovers, htracked⟩ := reachable_covers hreach hone
  unfold ClientLife.destroy at hdestroy
  rw [Option.ite_none_right_eq_some] at hdestroy
  obtain ⟨-, hdestroy⟩ := hdestroy
  split at hdestroy
  · rename_i sockfd hcurrent
    obtain rfl := Option.some.inj hdestroy
    -- the connection takes the only place there is
    have hpos := List.length_pos_of_mem (reachable_points hreach sockfd hcurrent)
    have hlone := hL.one
    have hzero : s.client.connector_.chances = 0 := by
      unfold outstanding at hlone
      unfold chances
      omega
    refine ⟨rfl, hL, .inr (.inr hzero), htracked, fun fd hfd => ?_, rfl, rfl, hdangling⟩
    obtain rfl := Option.some.inj (hcurrent.symm.trans (hcovers fd hfd))
    exact List.mem_append_right _ (List.mem_singleton_self _)
  · rename_i hnone
    obtain ⟨client, hdialed, rfl⟩ := Option.map_eq_some_iff.mp hdestroy
    obtain ⟨d, hd, rfl⟩ := Option.map_eq_some_iff.mp hdialed
    obtain ⟨hoff, hnext, hhanded, hcomes⟩ := step_stop hd
    have hmoves := step_moves hd
    have hstarted : 1 + Dialer.Event.started (.stop .loop) ≤ 1 := Nat.le_refl 1
    refine ⟨rfl, hL.step hstarted hmoves, .inr (.inl ⟨hoff, .inr ⟨_, hcomes⟩⟩),
      htracked.step hL hstarted hmoves, fun fd hfd => ?_, hnext, hhanded, hdangling⟩
    rw [show d.connections = s.client.connector_.connections from
      hmoves.connections_eq (by simp) rfl] at hfd
    rw [hcovers fd hfd] at hnone
    cases hnone

/-- **A destroyed client is left alone.** When a client whose `connect()` was called once at most is destroyed in
    the loop's thread, no callback of its connector or its connections reaches it any more, whatever it was at;
    no socket is made and no connection is handed over; and when the functors that waited have run, the
    connector has no Channel and no attempt in flight, and each socket it made has been closed once or
    handed over. -/
theorem destroyed_client_left_alone {s₁ s₂ : ClientLife} {es : List Event} (h : lifeMachine.Reachable s)
    (hone : s.client.connects ≤ 1) (hdestroy : s.step .destroy = some s₁)
    (hrun : lifeMachine.run s₁ es = some s₂) :
    s₂.dangling = [] ∧ s₂.client.connector_.nextFd = s.client.connector_.nextFd ∧
      s₂.client.connector_.handed = s.client.connector_.handed ∧
      (s₂.client.connector_.crashed = false → s₂.client.connector_.loop.waiting = [] →
        s₂.client.connector_.connector.channel_ = none ∧
          s₂.client.connector_.connector.state_ ≠ .kConnecting ∧
          ∀ fd, fd < s₂.client.connector_.nextFd →
            s₂.client.connector_.closed.count fd + s₂.client.connector_.handed.count fd = 1) := by
  have hleft := (destroy_left h hone hdestroy).run hrun
  refine ⟨hleft.dangling, hleft.nextFd, hleft.handed, fun hcrashed hempty => ?_⟩
  have hidle : s₂.client.connector_.connector.state_ ≠ .kConnecting := by
    rcases hleft.ended with hcrash | ⟨-, hidle | ⟨m, hcomes⟩⟩ | hzero
    · rw [hcrashed] at hcrash
      cases hcrash
    · exact hidle
    · rw [Comes, hempty] at hcomes
      cases hcomes
    · intro hbusy
      unfold chances at hzero
      rw [if_pos hbusy] at hzero
      omega
  refine ⟨(hleft.tracked.leaves hidle).resolve_right ?_, hidle, fun fd hfd => ?_⟩
  · rintro ⟨sockfd, hmem⟩
    rw [hempty] at hmem
    cases hmem
  · have honce := hleft.lone.once fd
    rw [inFlight_idle hidle, List.nil_append, List.count_append, if_pos hfd] at honce
    exact honce

/-- The attempt that was in flight succeeds, and its socket is closed. -/
private def afterDestroy : List Event :=
  [.client (.handleEvent ⟨false, false, true⟩), .client (.runCallback ⟨false, false⟩), .client .endEvent,
    .client .doPendingFunctors, .client (.runFunctor .zero), .client (.runFunctor .zero), .client .endFunctors]

theorem destroyed_client_left_alone_connecting :
    ∃ s s₁ s₂, lifeMachine.run (ClientLife.new true false)
        [.client (.connect .loop .EINPROGRESS), .client .doPendingFunctors, .client .endFunctors] = some s ∧
      s.step .destroy = some s₁ ∧ lifeMachine.run s₁ afterDestroy = some s₂ ∧
      s.client.connector_.connector.state_ = .kConnecting ∧ s₂.dangling = [] ∧
      s₂.client.connector_.connector.channel_ = none ∧
      s₂.client.connector_.closed.count 0 + s₂.client.connector_.handed.count 0 = 1 := by
  have hrun : ((lifeMachine.run (ClientLife.new true false)
      [.client (.connect .loop .EINPROGRESS), .client .doPendingFunctors, .client .endFunctors]).bind fun s =>
        (s.step .destroy).bind fun s₁ =>
          (lifeMachine.run s₁ afterDestroy).map fun s₂ =>
            (s.client.connects, s.client.connector_.connector.state_, s₂.client.connector_.nextFd,
              s₂.client.connector_.crashed, s₂.client.connector_.loop.waiting)) =
      some (1, .kConnecting, 1, false, []) := by
    decide +kernel
  obtain ⟨s, hs, hrun⟩ := Option.bind_eq_some_iff.mp hrun
  obtain ⟨s₁, hs₁, hrun⟩ := Option.bind_eq_some_iff.mp hrun
  obtain ⟨s₂, hs₂, hvalues⟩ := Option.map_eq_some_iff.mp hrun
  simp only [Prod.mk.injEq] at hvalues
  obtain ⟨hconnects, hbusy, hnext, hcrashed, hempty⟩ := hvalues
  have hreach := Machine.run_reachable (M := lifeMachine) ⟨true, false, rfl⟩ hs
  obtain ⟨hdangling, -, -, hover⟩ := destroyed_client_left_alone hreach (Nat.le_of_eq hconnects) hs₁ hs₂
  obtain ⟨hchannel, -, honce⟩ := hover hcrashed hempty
  refine ⟨s, s₁, s₂, hs, hs₁, hs₂, hbusy, hdangling, hchannel, honce 0 ?_⟩
  rw [hnext]
  exact Nat.one_pos

end ClientLife

end Simplev
