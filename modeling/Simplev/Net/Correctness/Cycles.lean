import Simplev.Net.Correctness.Overlap
import Simplev.Net.Correctness.Stop
import Simplev.Net.TcpConnectionSpec

/-!
# `Net.Correctness.Cycles` — reconnecting, cycle after cycle

A client that calls `connect()` once has one connection at a time: `removeConnection` queues the
`connectDestroyed` of the old one and restarts the connector, and the up call of the next comes after the
down call of the last. The connector's side is `Turning`, the client's is `Cycling`.

`OnTime` is the condition: `stop()` before `connect()` can leave a `stopInLoop` that takes the new attempt
for an old one and retries it in the functor batch, where the reset of its channel waits for the next.
-/

namespace Simplev

open Foundation

namespace Dialer

variable {s s' s₁ : Dialer} {e : Event} {savedErrno : Connector.SavedErrno} {writable : Bool} {n : Nat}

/-! ## Before the first attempt -/

/-- No attempt has been made. -/
structure Unstarted (s : Dialer) : Prop where
  state : s.connector.state_ = .kDisconnected
  channel : s.connector.channel_ = none
  timers : s.timers = []
  connections : s.connections = []
  resets : resets s.loop = []

theorem unstarted_new : Unstarted Dialer.new := ⟨rfl, rfl, rfl, rfl, rfl⟩

/-- `startInLoop` finds an idle connector. -/
theorem Unstarted.idle (h : Unstarted s) (connect_ : Bool) : s.Idle connect_ savedErrno :=
  ⟨h.state, fun _ _ => ⟨h.resets, h.timers⟩, fun _ _ => h.timers⟩

/-- A functor that is not a reset is queued. -/
theorem Unstarted.queueInLoop (h : Unstarted s) {f : Functor} (hf : f.reset? = none) :
    Unstarted { s with loop := s.loop.queueInLoop f } := by
  refine { h with resets := ?_ }
  rw [resets_queueInLoop, hf, h.resets]
  rfl

theorem Unstarted.nextFunctor (h : Unstarted s) {f : Functor} {l : EventLoop Functor}
    (hnext : s.loop.nextFunctor = some (f, l)) : Unstarted { s with loop := l } := by
  refine { h with resets := ?_ }
  have hresets := resets_nextFunctor hnext
  rw [h.resets] at hresets
  exact (List.append_eq_nil_iff.mp hresets.symm).2

theorem Unstarted.setPhase (h : Unstarted s) (phase : Phase) : Unstarted { s with phase := phase } :=
  { h with }

theorem Unstarted.cancel (h : Unstarted s) (sequence : Nat) :
    Unstarted { s with timers := s.timers.filter (· ≠ sequence) } := by
  refine { h with timers := ?_ }
  rw [h.timers]
  rfl

/-- There is no attempt to end. -/
theorem Unstarted.ended (h : Unstarted s) (hrun : Ended s writable s') : Unstarted s' := by
  have hidle : s.connector.state_ ≠ .kConnecting := by
    rw [h.state]
    simp
  cases hrun with
  | ignored _ _ => exact { h with }
  | retried busy _ _ => exact absurd busy hidle
  | dropped busy _ _ => exact absurd busy hidle
  | handedOver busy _ _ _ => exact absurd busy hidle
  | cancelled busy _ _ _ => exact absurd busy hidle

/-- A step makes an attempt, or leaves a connector that has made none as it is, with no more starts than
    those it was told to make. -/
theorem Moves.unstarted (hL : Lone n s) (h : Moves s e s') :
    (∃ savedErrno s₁, Launching s e savedErrno s₁ ∧ s'.loop = s₁.loop) ∨
      starts s'.loop ≤ starts s.loop + e.started ∧ (Unstarted s → Unstarted s') := by
  -- a functor that is not a start is queued, or taken from the queue
  have hqueued : ∀ (l : EventLoop Functor) {f : Functor}, f ≠ .connector .startInLoop →
      starts (l.queueInLoop f) ≤ starts l := by
    intro l f hf
    rw [starts_queueInLoop, if_neg hf]
    exact Nat.le_refl _
  have hpopped : ∀ {f l}, s.loop.nextFunctor = some (f, l) → starts l ≤ starts s.loop := by
    intro f l hnext
    rw [starts_nextFunctor hnext]
    exact Nat.le_add_right _ _
  cases h with
  | @launch _ _ s₁ _ launching run => exact .inl ⟨_, s₁, launching, run.same.2.1⟩
  | @ends _ _ s₁ _ ending run =>
      right
      have hended : starts s'.loop ≤ starts s₁.loop := by
        cases run with
        | ignored _ _ => exact Nat.le_refl _
        | _ => exact hqueued _ (by simp)
      cases ending with
      | stopInLoop _ next =>
          exact ⟨Nat.le_trans hended (hpopped next), fun h => (h.nextFunctor next).ended run⟩
      | handleError _ _ => exact ⟨hended, fun h => (h.setPhase _).ended run⟩
      | handleWrite _ _ => exact ⟨hended, fun h => (h.setPhase _).ended run⟩
  | start =>
      refine .inr ⟨?_, fun h => { h.queueInLoop (f := .connector .startInLoop) rfl with }⟩
      rw [starts_queueInLoop, if_pos rfl]
      exact Nat.le_refl _
  | stop _ =>
      refine .inr ⟨hqueued _ (by simp), fun h => ?_⟩
      exact { (h.queueInLoop (f := .connector .stopInLoop) rfl).cancel s.connector.timerId_ with }
  | stopLater =>
      refine .inr ⟨Nat.le_trans (hqueued _ (by simp)) (hqueued _ (by simp)), fun h => ?_⟩
      have hboth := (h.queueInLoop (f := .connector .stopInLoop) rfl).queueInLoop
        (f := .connector (.cancelInLoop s.connector.timerId_)) rfl
      exact { hboth with }
  | doPendingFunctors phase =>
      have hrest := hL.settled (by rw [phase]; simp)
      refine .inr ⟨?_, fun h => { h with resets := ?_ }⟩
      · show starts s.loop.swapFunctors ≤ _
        rw [starts, EventLoop.waiting_swapFunctors hrest]
        exact Nat.le_refl _
      · exact (resets_swapFunctors hrest).trans h.resets
  | resetChannel _ next _ =>
      exact .inr ⟨hpopped next, fun h => { h.nextFunctor next with channel := rfl }⟩
  | cancelInLoop _ next => exact .inr ⟨hpopped next, fun h => { (h.nextFunctor next).cancel _ with }⟩
  | connection _ next => exact .inr ⟨hpopped next, fun h => h.nextFunctor next⟩
  | endFunctors _ done =>
      refine .inr ⟨?_, fun h => { h with resets := ?_ }⟩
      · show starts s.loop.endFunctors ≤ _
        rw [starts, EventLoop.waiting_endFunctors done]
        exact Nat.le_refl _
      · exact (resets_endFunctors done).trans h.resets
  | handleEvent _ _ => exact .inr ⟨Nat.le_refl _, fun h => { h with channel := by rw [h.channel]; rfl }⟩
  | readCallback _ _ => exact .inr ⟨Nat.le_refl _, fun h => { h with }⟩
  | leaveUser _ => exact .inr ⟨Nat.le_refl _, fun h => { h with }⟩
  | endEvent _ _ => exact .inr ⟨Nat.le_refl _, fun h => { h with channel := by rw [h.channel]; rfl }⟩
  | handleClose _ opened _ =>
      refine .inr ⟨hqueued _ (by simp), fun h => ?_⟩
      exact absurd (h.connections ▸ opened) (by simp)
  | crash _ => exact .inr ⟨Nat.le_add_right _ _, fun h => { h with }⟩

/-! ## The connector of a client -/

/-- The functors of connections that wait are those that the client and its connector queue. -/
def Plain (l : EventLoop Functor) : Prop :=
  ∀ sockfd f, .connection sockfd f ∈ l.waiting → f = .connectDestroyed ∨ f = .shutdownInLoop

theorem Plain.queueInLoop {l : EventLoop Functor} (h : Plain l) {g : Functor}
    (hg : ∀ sockfd f, g = .connection sockfd f → f = .connectDestroyed ∨ f = .shutdownInLoop) :
    Plain (l.queueInLoop g) := by
  intro sockfd f hf
  rw [EventLoop.waiting_queueInLoop, List.mem_append, List.mem_singleton] at hf
  rcases hf with hf | rfl
  · exact h sockfd f hf
  · exact hg sockfd f rfl

theorem Plain.nextFunctor {l l' : EventLoop Functor} (h : Plain l) {g : Functor}
    (hnext : l.nextFunctor = some (g, l')) : Plain l' := by
  intro sockfd f hf
  apply h sockfd f
  rw [EventLoop.nextFunctor_waiting hnext]
  exact List.mem_cons_of_mem _ hf

/-- The first that waits is one of them. -/
theorem Plain.head {l l' : EventLoop Functor} (h : Plain l) {sockfd : Nat} {f : TcpConnection.Functor}
    (hnext : l.nextFunctor = some (.connection sockfd f, l')) :
    f = .connectDestroyed ∨ f = .shutdownInLoop := by
  apply h sockfd f
  rw [EventLoop.nextFunctor_waiting hnext]
  exact List.mem_cons_self

theorem Plain.launching (h : Plain s.loop) (hlaunch : Launching s e savedErrno s₁) : Plain s₁.loop := by
  cases hlaunch with
  | start _ => exact h
  | functor _ next => exact h.nextFunctor next
  | expire _ _ _ => exact h
  | restart _ _ _ => exact h.queueInLoop (by simp)

theorem Plain.ending (h : Plain s.loop) (hending : Ending s e writable s₁) : Plain s₁.loop := by
  cases hending with
  | stopInLoop _ next => exact h.nextFunctor next
  | handleError _ _ => exact h
  | handleWrite _ _ => exact h

theorem Plain.ended (h : Plain s.loop) (hrun : Ended s writable s') : Plain s'.loop := by
  cases hrun with
  | ignored _ _ => exact h
  | _ => exact h.queueInLoop (by simp)

theorem Plain.step (hL : Lone n s) (h : Plain s.loop) (hmoves : Moves s e s') : Plain s'.loop := by
  cases hmoves with
  | launch launching run =>
      rw [run.same.2.1]
      exact h.launching launching
  | ends ending run => exact (h.ending ending).ended run
  | start => exact h.queueInLoop (by simp)
  | stop _ => exact h.queueInLoop (by simp)
  | stopLater => exact (h.queueInLoop (by simp)).queueInLoop (by simp)
  | doPendingFunctors phase =>
      show Plain s.loop.swapFunctors
      rw [Plain, EventLoop.waiting_swapFunctors (hL.settled (by rw [phase]; simp))]
      exact h
  | resetChannel _ next _ => exact h.nextFunctor next
  | cancelInLoop _ next => exact h.nextFunctor next
  | connection _ next => exact h.nextFunctor next
  | endFunctors _ done =>
      show Plain s.loop.endFunctors
      rw [Plain, EventLoop.waiting_endFunctors done]
      exact h
  | handleEvent _ _ => exact h
  | readCallback _ _ => exact h
  | leaveUser _ => exact h
  | endEvent _ _ => exact h
  | handleClose _ _ _ => exact h.queueInLoop (by simp)
  | crash _ => exact h

/-- **The invariant of the connector** of a client, after `n` calls of `connect()`. -/
structure Turning (n : Nat) (s : Dialer) : Prop where
  solo : Solo s
  overlap : Overlap s
  lone : Lone n s
  unstarted : n = 0 ∨ 0 < starts s.loop → Unstarted s
  plain : Plain s.loop

theorem turning_new : Turning 0 Dialer.new where
  solo := solo_new
  overlap := overlap_new
  lone := lone_new
  unstarted _ := unstarted_new
  plain := by intro _ _ h; cases h

/-- With one call of `start()` the connector starts alone, if its retry timers are on time. -/
theorem Turning.startsAlone (h : Turning n s) (hn : n + e.started ≤ 1)
    (htime : ∀ sequence savedErrno, e = .expire sequence savedErrno → s.StartsAlone e) :
    s.StartsAlone e := by
  cases e with
  | start caller savedErrno =>
      cases caller with
      | loop =>
          have hzero : n = 0 := by
            simp only [Event.started] at hn
            omega
          exact (h.unstarted (.inl hzero)).idle true
      | other id => trivial
  | runFunctor savedErrno =>
      intro hstart
      obtain ⟨⟨f, l⟩, hnext, rfl⟩ := Option.map_eq_some_iff.mp hstart
      refine (h.unstarted (.inr ?_)).idle _
      rw [starts_nextFunctor hnext, if_pos rfl]
      exact Nat.succ_pos _
  | expire sequence savedErrno => exact htime sequence savedErrno rfl
  | _ => trivial

theorem Turning.step (h : Turning n s) (hn : n + e.started ≤ 1) (halone : s.StartsAlone e)
    (hmoves : Moves s e s') : Turning (n + e.started) s' where
  solo := h.solo.step halone hmoves
  overlap := h.overlap.step h.solo hmoves
  lone := h.lone.step hn hmoves
  unstarted := by
    intro hbefore
    obtain ⟨savedErrno, s₁, launching, hloop⟩ | ⟨hstarts, hkeeps⟩ := hmoves.unstarted h.lone
    · -- the call of `start()` was used up
      have hpos := h.lone.started_pos launching
      obtain ⟨-, hzero⟩ := h.lone.launching hn launching
      rw [hloop] at hbefore
      omega
    · apply hkeeps
      apply h.unstarted
      omega
  plain := h.plain.step h.lone hmoves

/-- A step that is on time, and what it is to a connection. -/
theorem Turning.dialed (h : Turning n s) (hstep : s.step e = some s') (hn : n + e.started ≤ 1)
    (htime : ∀ sequence savedErrno, e = .expire sequence savedErrno → s.StartsAlone e) :
    Turning (n + e.started) s' ∧ Trades s e s' := by
  have hmoves := step_moves hstep
  have halone := h.startsAlone hn htime
  exact ⟨h.step hn halone hmoves, hmoves.trades h.overlap h.solo⟩

/-- A `shutdownInLoop` is queued. -/
theorem Turning.queueShutdown (h : Turning n s) (sockfd : Nat) :
    Turning n { s with loop := s.loop.queueInLoop (.connection sockfd .shutdownInLoop) } where
  solo := h.solo.queueInLoop rfl
  overlap := h.overlap.queueInLoop rfl
  lone := h.lone.queueInLoop (by simp)
  unstarted := by
    intro hbefore
    rw [starts_queueInLoop, if_neg (by simp)] at hbefore
    exact (h.unstarted hbefore).queueInLoop rfl
  plain := h.plain.queueInLoop (by simp)

/-- A functor of a connection does nothing in the connector. -/
theorem step_connection {sockfd : Nat} {f : TcpConnection.Functor} {l : EventLoop Functor}
    (hnext : s.loop.nextFunctor = some (.connection sockfd f, l))
    (h : s.step (.runFunctor savedErrno) = some s') : s' = { s with loop := l } := by
  by_cases hcrashed : s.crashed = true
  · exact absurd ((if_pos hcrashed).symm.trans h) (by simp)
  · by_cases hphase : s.phase = .functors
    · simp only [Dialer.step, if_neg hcrashed, begin, if_pos hphase, hnext, Outcome.pure_eq] at h
      obtain rfl := Option.some.inj h
      exact after_self _ _
    · simp [Dialer.step, hcrashed, begin, hphase] at h

/-- A functor of a connection is taken from the queue. -/
theorem Turning.ran (h : Turning n s) (hn : n ≤ 1) {sockfd : Nat} {f : TcpConnection.Functor}
    {l : EventLoop Functor} (hnext : s.loop.nextFunctor = some (.connection sockfd f, l))
    (hstep : s.step (.runFunctor savedErrno) = some { s with loop := l }) :
    Turning n { s with loop := l } := by
  refine h.step (e := .runFunctor savedErrno) hn ?_ (step_moves hstep)
  intro hstart
  rw [hnext] at hstart
  cases hstart

end Dialer

namespace TcpClient

open Dialer

variable {s s' t : TcpClient} {e : Event} {sockfd : Nat}

/-! ## The condition -/

/-- **The condition**: a retry timer that begins an attempt does not expire while the reset of the last
    attempt's channel waits. -/
def OnTime (s : TcpClient) : Event → Prop
  | .expire _ savedErrno =>
    s.connector_.connector.connect_ = true → savedErrno.begins = true → resets s.connector_.loop = []
  | _ => True

instance (s : TcpClient) : (e : Event) → Decidable (s.OnTime e)
  | .expire _ _ => inferInstanceAs (Decidable (_ → _ → _))
  | .connect _ _ | .disconnect _ | .stop _ | .doPendingFunctors | .runFunctor _ | .endFunctors
  | .handleEvent _ | .runCallback _ | .leaveUser | .endEvent | .handleRead _ _ =>
    inferInstanceAs (Decidable True)

theorem onTime_iff {de : Dialer.Event} (hevent : s.dialerEvent e = some de) :
    s.OnTime e ↔ ∀ sequence savedErrno, de = .expire sequence savedErrno → s.connector_.StartsAlone de := by
  cases e with
  | expire sequence savedErrno =>
      obtain rfl := Option.some.inj hevent
      constructor
      · rintro htime _ _ -
        exact htime
      · intro halone
        exact halone _ _ rfl
  | disconnect caller => cases hevent
  | _ =>
      obtain rfl := Option.some.inj hevent
      exact iff_of_true trivial (by simp)

/-! ## The client -/

/-- The connections that were made and have not been destroyed. -/
def live (s : TcpClient) : List Nat := s.connector_.connections ++ destroys s.connector_.loop

/-- What `connectionCallback_` is called with, from the beginning of a connection to its end. -/
def lifetime (sockfd : Nat) : List (Nat × Bool) := [(sockfd, true), (sockfd, false)]

/-- **The invariant of a client.** -/
structure Cycling (s : TcpClient) : Prop where
  connector : Turning s.connects s.connector_
  current : s.connector_.connections = s.connection_.toList
  up : ∀ sockfd ∈ s.live, ∃ conn, s.connections sockfd = some conn ∧ conn.isUp
  calls : ∃ ended, s.connector_.handed = ended ++ s.live ∧
    s.calls = ended.flatMap lifetime ++ s.live.map fun sockfd => (sockfd, true)
  failed : s.failed = []

/-- The invariant, of a client that has the connections `l`. -/
theorem Cycling.of_live {l : List Nat} (hlive : s.live = l) (hconnector : Turning s.connects s.connector_)
    (hcurrent : s.connector_.connections = s.connection_.toList)
    (hup : ∀ sockfd ∈ l, ∃ conn, s.connections sockfd = some conn ∧ conn.isUp)
    (hcalls : ∃ ended, s.connector_.handed = ended ++ l ∧
      s.calls = ended.flatMap lifetime ++ l.map fun sockfd => (sockfd, true))
    (hfailed : s.failed = []) : Cycling s := by
  subst hlive
  exact ⟨hconnector, hcurrent, hup, hcalls, hfailed⟩

theorem new_cycling (retry writeComplete : Bool) : (new retry writeComplete).Cycling where
  connector := turning_new
  current := rfl
  up := by intro _ h; cases h
  calls := ⟨[], rfl, rfl⟩
  failed := rfl

/-- A connection that has not been destroyed is up. -/
theorem Cycling.isUp (h : Cycling s) {conn : TcpConnection} (hconn : s.connections sockfd = some conn)
    (hlive : sockfd ∈ s.live) : conn.isUp := by
  obtain ⟨c, hc, hup⟩ := h.up sockfd hlive
  obtain rfl := Option.some.inj (hconn.symm.trans hc)
  exact hup

/-- The connector made a step that is nothing to a connection. -/
theorem Cycling.moved (h : Cycling s) (hconnector : Turning s'.connects s'.connector_)
    (hconnections : s'.connector_.connections = s.connector_.connections)
    (hdestroys : destroys s'.connector_.loop = destroys s.connector_.loop)
    (hhanded : s'.connector_.handed = s.connector_.handed) (hcurrent : s'.connection_ = s.connection_)
    (hmade : s'.connections = s.connections) (hcalls : s'.calls = s.calls)
    (hfailed : s'.failed = s.failed) : Cycling s' := by
  have hlive : s'.live = s.live := by
    rw [live, hconnections, hdestroys]
    rfl
  refine ⟨hconnector, ?_, ?_, ?_, hfailed.trans h.failed⟩
  · rw [hconnections, hcurrent]
    exact h.current
  · rw [hlive, hmade]
    exact h.up
  · rw [hlive, hhanded, hcalls]
    exact h.calls

/-- A member function of a connection ran to its end. -/
theorem ran_ok {r : TcpConnection.Result} (h : s.ran sockfd r = some s') :
    ∃ conn actions fs, r = .ok (conn, actions) fs := by
  unfold ran at h
  split at h
  · exact ⟨_, _, _, rfl⟩
  · cases h

/-- What one leaves that queues nothing and passes its asserts. -/
theorem ran_eq {conn : TcpConnection} {actions : List TcpConnection.Action}
    (hfunctors : actions.filterMap (functorOf sockfd) = [])
    (hrun : s.ran sockfd (.ok (conn, actions) []) = some s') :
    s' = { s with
      connections := Function.update s.connections sockfd (some conn)
      calls := s.calls ++ actions.filterMap (callOf sockfd) } := by
  obtain rfl := Option.some.inj hrun
  rw [hfunctors, EventLoop.queueAll_nil, List.append_nil]

/-- A member function of a connection that calls nothing, and queues a `shutdownInLoop` at most. -/
theorem Cycling.ran (h : Cycling s) {conn : TcpConnection} {actions : List TcpConnection.Action}
    (hup : sockfd ∈ s.live → conn.isUp) (hcalls : actions.filterMap (callOf sockfd) = [])
    (hfunctors : actions.filterMap (functorOf sockfd) = [] ∨
      actions.filterMap (functorOf sockfd) = [.connection sockfd .shutdownInLoop])
    (hrun : s.ran sockfd (.ok (conn, actions) []) = some s') : Cycling s' := by
  obtain rfl := Option.some.inj hrun
  rw [hcalls, List.append_nil, List.append_nil]
  have hups : ∀ fd ∈ s.live, ∃ c, Function.update s.connections sockfd (some conn) fd = some c ∧
      c.isUp := by
    intro fd hfd
    by_cases heq : fd = sockfd
    · subst heq
      exact ⟨conn, Function.update_self .., hup hfd⟩
    · rw [Function.update_of_ne heq]
      exact h.up fd hfd
  rcases hfunctors with hnone | hone
  · rw [hnone, EventLoop.queueAll_nil]
    exact { h with up := hups }
  · rw [hone]
    have hlive : s.connector_.connections ++
        destroys (s.connector_.loop.queueInLoop (.connection sockfd .shutdownInLoop)) = s.live := by
      rw [destroys_queueInLoop _ rfl]
      rfl
    refine ⟨h.connector.queueShutdown sockfd, h.current, ?_, ?_, h.failed⟩
    · intro fd hfd
      exact hups fd (hlive ▸ hfd)
    · obtain ⟨ended, hhanded, hcalled⟩ := h.calls
      refine ⟨ended, hhanded.trans (congrArg _ hlive.symm), hcalled.trans ?_⟩
      exact congrArg (fun l => ended.flatMap lifetime ++ l.map fun fd => (fd, true)) hlive.symm

theorem quiet_shutdownInLoop (conn : TcpConnection) (sockfd : Nat) :
    conn.shutdownInLoop.filterMap (callOf sockfd) = [] ∧
      conn.shutdownInLoop.filterMap (functorOf sockfd) = [] := by
  constructor <;> rw [List.filterMap_eq_nil_iff] <;> intro a ha <;>
    rw [TcpConnection.mem_shutdownInLoop ha] <;> rfl

/-- `disconnect()`. -/
theorem Cycling.shutdown (h : Cycling s) {caller : Thread} {conn : TcpConnection}
    (hconn : s.connections sockfd = some conn)
    (hrun : s.ran sockfd (conn.shutdown caller) = some s') : Cycling s' := by
  obtain ⟨conn', actions, fs, hshutdown⟩ := ran_ok hrun
  rw [hshutdown] at hrun
  obtain ⟨rfl, hspec⟩ := TcpConnection.shutdown_spec hshutdown
  obtain ⟨hcalls, hfunctors⟩ := quiet_shutdownInLoop conn sockfd
  rcases hspec with ⟨-, rfl, rfl⟩ | ⟨-, rfl, rfl⟩
  · exact h.ran (h.isUp hconn) rfl (.inl rfl) hrun
  · refine h.ran (fun _ => .inr rfl) ?_ ?_ hrun
    · cases caller with
      | loop => exact hcalls
      | other id => rfl
    · cases caller with
      | loop => exact .inl hfunctors
      | other id => exact .inr rfl

/-- `connectDestroyed` of a connection that is up, to its last line. -/
theorem connectDestroyed_eq {conn conn' : TcpConnection} {actions : List TcpConnection.Action}
    {fs : List String} (hup : conn.isUp)
    (hrun : TcpClient.connectDestroyed conn = .ok (conn', actions) fs) :
    actions = [.callback (.connection false)] ∧ fs = [] := by
  obtain ⟨⟨c, called⟩, gs, hs, hdestroyed, hlast, rfl⟩ := Outcome.bind_eq_ok hrun
  obtain ⟨rfl, rfl, rfl⟩ := TcpConnection.connectDestroyed_spec hup hdestroyed
  obtain ⟨⟨c', more⟩, gs', hs', hremoved, hreturn, rfl⟩ := Outcome.bind_eq_ok hlast
  obtain ⟨-, rfl, rfl⟩ := TcpConnection.removeChannel_spec rfl hremoved
  simp only [Outcome.pure_eq, Outcome.ok.injEq, Prod.mk.injEq] at hreturn
  obtain ⟨⟨-, rfl⟩, rfl⟩ := hreturn
  exact ⟨rfl, rfl⟩

/-- The down call. -/
theorem Cycling.destroyed (h : Cycling s) (hone : s.connects ≤ 1) {savedErrno : Connector.SavedErrno}
    {l : EventLoop Dialer.Functor} {conn : TcpConnection}
    (hnext : s.connector_.loop.nextFunctor = some (.connection sockfd .connectDestroyed, l))
    (hstep : s.connector_.step (.runFunctor savedErrno) = some { s.connector_ with loop := l })
    (hconn : s.connections sockfd = some conn)
    (hrun : { s with connector_ := { s.connector_ with loop := l } }.ran sockfd
      (TcpClient.connectDestroyed conn) = some s') : Cycling s' := by
  have hturning := h.connector.ran hone hnext hstep
  -- the connection is the one there is
  have hdestroys : destroys s.connector_.loop = sockfd :: destroys l :=
    EventLoop.waitingOf_nextFunctor _ hnext
  obtain hnone | ⟨hclosed, fd, hsingle⟩ := h.connector.overlap.single
  · rw [hdestroys] at hnone
    cases hnone
  rw [hsingle] at hdestroys
  obtain ⟨rfl, hrest⟩ := List.cons.inj hdestroys
  have hlive : s.live = [fd] := by
    rw [live, hclosed, hsingle]
    rfl
  have hup := h.isUp hconn (by rw [hlive]; exact List.mem_singleton_self _)
  obtain ⟨conn', actions, fs, hdestroyed⟩ := ran_ok hrun
  rw [hdestroyed] at hrun
  obtain ⟨rfl, rfl⟩ := connectDestroyed_eq hup hdestroyed
  obtain rfl := ran_eq rfl hrun
  have hempty : s.connector_.connections ++ destroys l = [] := by
    rw [hclosed, ← hrest]
    rfl
  refine .of_live hempty hturning h.current (by simp) ?_ h.failed
  obtain ⟨ended, hhanded, hcalled⟩ := h.calls
  rw [hlive] at hhanded hcalled
  refine ⟨ended ++ [fd], hhanded.trans (List.append_nil _).symm, ?_⟩
  show s.calls ++ [(fd, false)] = _
  rw [hcalled]
  simp [lifetime]

/-- The up call. -/
theorem Cycling.opened (h : Cycling s) {d : Dialer} (hturning : Turning s.connects d)
    (hnone : s.connector_.connections = []) (hidle : destroys s.connector_.loop = [])
    (hone : d.connections = [sockfd]) (hdestroys : destroys d.loop = [])
    (hhanded : d.handed = s.connector_.handed ++ [sockfd])
    (hrun : { s with connector_ := d }.newConnection sockfd = some s') : Cycling s' := by
  obtain ⟨conn, actions, fs, hestablished⟩ := ran_ok hrun
  unfold newConnection at hrun
  rw [hestablished] at hrun
  obtain ⟨rfl, rfl, rfl⟩ := TcpConnection.connectEstablished_spec rfl hestablished
  obtain rfl := ran_eq rfl hrun
  have hempty : s.live = [] := by
    rw [live, hnone, hidle]
    rfl
  have hlive : d.connections ++ destroys d.loop = [sockfd] := by
    rw [hone, hdestroys]
    rfl
  refine .of_live hlive hturning hone ?_ ?_ h.failed
  · intro fd hfd
    rw [List.mem_singleton.mp hfd]
    exact ⟨_, Function.update_self .., .inl rfl⟩
  · obtain ⟨ended, hbefore, hcalled⟩ := h.calls
    rw [hempty, List.append_nil] at hbefore
    rw [hempty, List.map_nil, List.append_nil] at hcalled
    refine ⟨ended, hhanded.trans (congrArg (· ++ [sockfd]) hbefore), ?_⟩
    show s.calls ++ [(sockfd, true)] = _
    rw [hcalled]
    rfl

/-- The connection reads the end of the stream. -/
theorem Cycling.closed (h : Cycling s) {d : Dialer} {conn : TcpConnection} (hturning : Turning s.connects d)
    (hone : s.connector_.connections = [sockfd]) (hidle : destroys s.connector_.loop = [])
    (hnone : d.connections = []) (hdestroys : destroys d.loop = [sockfd])
    (hhanded : d.handed = s.connector_.handed) (hconn : s.connections sockfd = some conn)
    (hrun : s.ran sockfd conn.handleClose = some t) :
    Cycling { t with
      connection_ := none
      connector_ := d
      failed := t.failed ++ Outcome.unmet (t.connection_ = some sockfd) "connection_ == conn" } := by
  have hlive : s.live = [sockfd] := by
    rw [live, hone, hidle]
    rfl
  have hup := h.isUp hconn (by rw [hlive]; exact List.mem_singleton_self _)
  obtain ⟨conn', actions, fs, hclose⟩ := ran_ok hrun
  rw [hclose] at hrun
  obtain ⟨rfl, rfl, rfl⟩ := TcpConnection.handleClose_spec hup hclose
  obtain rfl := ran_eq rfl hrun
  have hcurrent : s.connection_ = some sockfd := by
    apply Option.mem_toList.mp
    rw [← h.current, hone]
    exact List.mem_singleton_self _
  have hlive' : d.connections ++ destroys d.loop = [sockfd] := by
    rw [hnone, hdestroys]
    rfl
  refine .of_live hlive' hturning hnone ?_ ?_ ?_
  · intro fd hfd
    rw [List.mem_singleton.mp hfd]
    exact ⟨_, Function.update_self .., hup⟩
  · obtain ⟨ended, hbefore, hcalled⟩ := h.calls
    rw [hlive] at hbefore hcalled
    exact ⟨ended, hhanded.trans hbefore, (List.append_nil _).trans hcalled⟩
  · show s.failed ++ Outcome.unmet (s.connection_ = some sockfd) "connection_ == conn" = []
    rw [h.failed, Outcome.unmet_eq_nil.mpr hcurrent]
    rfl

/-- `handleClose` queues nothing. -/
theorem ran_handleClose {conn : TcpConnection} (hrun : s.ran sockfd conn.handleClose = some t) :
    t.connector_ = s.connector_ ∧ t.connects = s.connects := by
  obtain ⟨c, actions, fs, hclose⟩ := ran_ok hrun
  rw [hclose] at hrun
  obtain ⟨gs, hreturn, -⟩ := Outcome.assert_bind_eq_ok hclose
  simp only [Outcome.pure_eq, Outcome.ok.injEq, Prod.mk.injEq] at hreturn
  obtain ⟨⟨-, rfl⟩, -⟩ := hreturn
  obtain rfl := Option.some.inj hrun
  exact ⟨congrArg (fun l => { s.connector_ with loop := l }) (EventLoop.queueAll_nil _), rfl⟩

/-- A `shutdownInLoop` that was queued. -/
theorem Cycling.shutdownRan (h : Cycling s) (hone : s.connects ≤ 1) {savedErrno : Connector.SavedErrno}
    {f : TcpConnection.Functor} {l : EventLoop Dialer.Functor} {conn : TcpConnection}
    (hother : f ≠ .connectDestroyed)
    (hnext : s.connector_.loop.nextFunctor = some (.connection sockfd f, l))
    (hstep : s.connector_.step (.runFunctor savedErrno) = some { s.connector_ with loop := l })
    (hconn : s.connections sockfd = some conn)
    (hrun : { s with connector_ := { s.connector_ with loop := l } }.ran sockfd
      (f.run conn (.wrote 0)) = some s') : Cycling s' := by
  obtain rfl := (h.connector.plain.head hnext).resolve_left hother
  have hturning := h.connector.ran hone hnext hstep
  have hmoved : Cycling { s with connector_ := { s.connector_ with loop := l } } :=
    h.moved hturning rfl (destroys_nextFunctor rfl hnext) rfl rfl rfl rfl rfl
  obtain ⟨hcalls, hfunctors⟩ := quiet_shutdownInLoop conn sockfd
  exact hmoved.ran (hmoved.isUp hconn) hcalls (.inl hfunctors) hrun

/-! ## Steps -/

/-- A step of the connector alone. -/
theorem Cycling.dialed (h : Cycling s) {de : Dialer.Event} (hevent : s.dialerEvent e = some de)
    (hapart : de.apart = true) (htime : s.OnTime e) (hone : s'.connects ≤ 1)
    (hconnects : t.connects = s.connects + de.started)
    (hconnector : t.connector_ = s.connector_) (hcurrent : t.connection_ = s.connection_)
    (hmade : t.connections = s.connections) (hcalls : t.calls = s.calls) (hfailed : t.failed = s.failed)
    (hdialed : t.dialed de = some s') : Cycling s' := by
  obtain ⟨d, hstep, rfl⟩ := Option.map_eq_some_iff.mp hdialed
  rw [hconnector] at hstep
  have hn : s.connects + de.started ≤ 1 := hconnects ▸ hone
  obtain ⟨hturning, htrades⟩ := h.connector.dialed hstep hn ((onTime_iff hevent).mp htime)
  obtain ⟨hconnections, hdestroys, hhanded⟩ := htrades.of_apart hapart
  rw [← hconnects] at hturning
  exact h.moved hturning hconnections hdestroys hhanded hcurrent hmade hcalls hfailed

/-- **One step** that is on time keeps the invariant. -/
theorem Cycling.step (h : Cycling s) (hone : s'.connects ≤ 1) (htime : s.OnTime e)
    (hstep : s.step e = some s') : Cycling s' := by
  cases e with
  | connect caller savedErrno =>
      exact h.dialed (t := { s with connect_ := true, connects := s.connects + 1 }) rfl rfl htime hone rfl
        rfl rfl rfl rfl rfl hstep
  | stop caller =>
      exact h.dialed (t := { s with connect_ := false }) rfl rfl htime hone rfl rfl rfl rfl rfl rfl hstep
  | doPendingFunctors => exact h.dialed rfl rfl htime hone rfl rfl rfl rfl rfl rfl hstep
  | endFunctors => exact h.dialed rfl rfl htime hone rfl rfl rfl rfl rfl rfl hstep
  | expire sequence savedErrno => exact h.dialed rfl rfl htime hone rfl rfl rfl rfl rfl rfl hstep
  | handleEvent revents => exact h.dialed rfl rfl htime hone rfl rfl rfl rfl rfl rfl hstep
  | leaveUser => exact h.dialed rfl rfl htime hone rfl rfl rfl rfl rfl rfl hstep
  | endEvent => exact h.dialed rfl rfl htime hone rfl rfl rfl rfl rfl rfl hstep
  | disconnect caller =>
      simp only [step, Option.ite_none_right_eq_some] at hstep
      obtain ⟨-, hstep⟩ := hstep
      -- `connect_` is no part of the invariant
      have hoff : Cycling { s with connect_ := false } :=
        ⟨h.connector, h.current, h.up, h.calls, h.failed⟩
      split at hstep
      · obtain ⟨conn, hconn, hrun⟩ := Option.bind_eq_some_iff.mp hstep
        exact hoff.shutdown hconn hrun
      · obtain rfl := Option.some.inj hstep
        exact hoff
  | runFunctor savedErrno =>
      have hconnects : s'.connects = s.connects := (step_connector hstep).2.2
      rw [hconnects] at hone
      obtain ⟨t, hdialed, hstep⟩ := Option.bind_eq_some_iff.mp hstep
      obtain ⟨d, hd, rfl⟩ := Option.map_eq_some_iff.mp hdialed
      split at hstep
      · rename_i sockfd l hnext
        -- the connection is destroyed by this functor
        obtain rfl := step_connection hnext hd
        obtain ⟨conn, hconn, hrun⟩ := Option.bind_eq_some_iff.mp hstep
        exact h.destroyed hone hnext hd hconn hrun
      · rename_i sockfd f l hother hnext
        -- any other functor of a connection is its `shutdownInLoop`
        obtain rfl := step_connection hnext hd
        obtain ⟨conn, hconn, hrun⟩ := Option.bind_eq_some_iff.mp hstep
        exact h.shutdownRan hone hother hnext hd hconn hrun
      · rename_i hother
        obtain rfl := Option.some.inj hstep
        -- a functor of the connector opens and closes nothing
        obtain ⟨hturning, htrades⟩ := h.connector.dialed hd hone (by simp)
        cases htrades with
        | same _ hconnections hdestroys hhanded =>
            exact h.moved hturning hconnections hdestroys hhanded rfl rfl rfl rfl
        | ran hnext => exact absurd hnext (hother _ _ _)
  | runCallback probe =>
      have hconnects : s'.connects = s.connects := (step_connector hstep).2.2
      rw [hconnects] at hone
      obtain ⟨t, hdialed, hstep⟩ := Option.bind_eq_some_iff.mp hstep
      obtain ⟨d, hd, rfl⟩ := Option.map_eq_some_iff.mp hdialed
      obtain ⟨hturning, htrades⟩ := h.connector.dialed hd hone (by simp)
      cases htrades with
      | same _ hconnections hdestroys hhanded =>
          simp only [hhanded, List.drop_length, Option.some.injEq] at hstep
          subst hstep
          exact h.moved hturning hconnections hdestroys hhanded rfl rfl rfl rfl
      | opened sockfd hnone hidle hopened hdestroys hhanded =>
          simp only [hhanded, List.drop_left] at hstep
          exact h.opened hturning hnone hidle hopened hdestroys hhanded hstep
  | handleRead sockfd savedErrno =>
      have hconnects : s'.connects = s.connects := (step_connector hstep).2.2
      rw [hconnects] at hone
      simp only [step, Option.ite_none_right_eq_some] at hstep
      obtain ⟨-, hstep⟩ := hstep
      obtain ⟨conn, hconn, hstep⟩ := Option.bind_eq_some_iff.mp hstep
      obtain ⟨t, hrun, hremove⟩ := Option.bind_eq_some_iff.mp hstep
      obtain ⟨d, hd, rfl⟩ := Option.map_eq_some_iff.mp hremove
      -- `handleRead` saw the end of the stream: the client drops the connection and may dial again
      rw [(ran_handleClose hrun).1] at hd
      obtain ⟨hturning, htrades⟩ := h.connector.dialed hd hone (by simp)
      cases htrades with
      | same hstays _ _ _ => cases hstays
      | closed hopened hidle hnone hdestroys hhanded =>
          exact h.closed hturning hopened hidle hnone hdestroys hhanded hconn hrun

/-- With one `connect()` a client keeps the invariant as long as its retry timers are on time. -/
theorem reachableVia_cycling (h : clientMachine.ReachableVia OnTime s) : s.connects ≤ 1 → Cycling s := by
  refine h.invariant (I := fun s => s.connects ≤ 1 → Cycling s) ?_ ?_
  · rintro s ⟨retry, writeComplete, rfl⟩ -
    exact new_cycling retry writeComplete
  · intro s e s' _ hI htime hstep hone
    have hconnects := (step_connector hstep).2.2
    exact (hI (by omega)).step hone htime hstep

/-- **Cycle after cycle.** `connection_` is the connection that has been established and not closed, if
    there is one, and there is one at most; the asserts of `removeConnection`, `startInLoop` and
    `connecting` hold; and the calls of `connectionCallback_` are, connection after connection in the
    order in which they were handed over, the up call and the down call, but for the down call of the last
    one, which may be to come. -/
structure InTurn (s : TcpClient) : Prop where
  current : s.connector_.connections = s.connection_.toList
  conn : "connection_ == conn" ∉ s.failed
  asserts : AssertsHold s.connector_
  calls : ∃ (ended : List Nat) (last : Option Nat), s.connector_.handed = ended ++ last.toList ∧
    s.calls = ended.flatMap lifetime ++ last.toList.map fun sockfd => (sockfd, true)

theorem Cycling.inTurn (h : Cycling s) : s.InTurn := by
  refine ⟨h.current, ?_, h.connector.solo.oneAttempt.asserts, ?_⟩
  · rw [h.failed]
    exact List.not_mem_nil
  · obtain ⟨ended, hhanded, hcalls⟩ := h.calls
    have hlast : ∃ last : Option Nat, s.live = last.toList := by
      unfold live
      obtain hidle | ⟨hclosed, fd, hsingle⟩ := h.connector.overlap.single
      · exact ⟨s.connection_, by rw [hidle, List.append_nil, h.current]⟩
      · exact ⟨some fd, by rw [hclosed, hsingle]; rfl⟩
    obtain ⟨last, hlast⟩ := hlast
    rw [hlast] at hhanded hcalls
    exact ⟨ended, last, hhanded, hcalls⟩

/-- A step that is not on time breaks an assert. -/
theorem Cycling.onTime (h : Cycling s) (hone : s'.connects ≤ 1) (hstep : s.step e = some s')
    (hturn : s'.InTurn) : s.OnTime e := by
  cases e with
  | expire sequence savedErrno =>
      obtain ⟨d, hd, rfl⟩ := Option.map_eq_some_iff.mp hstep
      have hmoves := step_moves hd
      have hlone := h.connector.lone.step (e := .expire sequence savedErrno) hone hmoves
      have hattempt : OneAttempt d :=
        ⟨Nat.le_trans (Nat.le_add_right _ _) (Nat.le_trans hlone.one hone), hturn.asserts⟩
      exact startsAlone_of_oneAttempt h.connector.solo hmoves hattempt
  | _ => trivial

/-- **Reconnecting in turn.** A client that calls `connect()` once reconnects cycle after cycle in every
    run whose retry timers are on time; and the next step keeps it so just when it is on time. -/
theorem reconnects_in_turn (h : clientMachine.ReachableVia OnTime s) (hone : s.connects ≤ 1) :
    s.InTurn ∧ ∀ e s', s.step e = some s' → s'.connects ≤ 1 → (s'.InTurn ↔ s.OnTime e) := by
  have hcycling := reachableVia_cycling h hone
  refine ⟨hcycling.inTurn, fun e s' hstep hone' => ⟨?_, fun htime => ?_⟩⟩
  · exact hcycling.onTime hone' hstep
  · exact (hcycling.step hone' htime hstep).inTurn

/-- `stop()` comes before `connect()`, and its `stopInLoop` retries the new attempt. -/
def stopOvertaken : List Event :=
  [.stop .loop, .connect .loop .EINPROGRESS, .doPendingFunctors, .runFunctor .zero, .endFunctors,
    .expire 1 .EINPROGRESS]

theorem reconnects_beside_reset :
    ¬ ∀ s, clientMachine.Reachable s → s.retry_ = true → s.connects ≤ 1 → s.InTurn := by
  intro hclaim
  have hrun : ((clientMachine.run (TcpClient.new true false) stopOvertaken).map
      fun s => (s.retry_, s.connects, s.connector_.failed)) = some (true, 1, ["!channel_"]) := by
    decide +kernel
  obtain ⟨s, hs, hvalues⟩ := Option.map_eq_some_iff.mp hrun
  simp only [Prod.mk.injEq] at hvalues
  obtain ⟨hretry, hconnects, hfailed⟩ := hvalues
  have hreach := Machine.run_reachable (M := clientMachine) ⟨true, false, rfl⟩ hs
  apply (hclaim s hreach hretry (Nat.le_of_eq hconnects)).asserts.2
  rw [hfailed]
  exact List.mem_singleton_self _

/-- An attempt that is refused and retried, its connection, and the one after it. -/
def twoCycles : List Event :=
  [.connect (.other 1) .zero, .doPendingFunctors, .runFunctor .ECONNREFUSED, .endFunctors,
    .expire 1 .EINPROGRESS, .doPendingFunctors, .endFunctors, .handleEvent ⟨false, false, true⟩,
    .runCallback ⟨false, false⟩, .leaveUser, .endEvent, .doPendingFunctors, .runFunctor .zero,
    .endFunctors, .handleRead 1 .EINPROGRESS, .doPendingFunctors, .runFunctor .zero, .endFunctors,
    .handleEvent ⟨false, false, true⟩, .runCallback ⟨false, false⟩]

theorem reconnects_in_turn_twoCycles :
    ∃ s, clientMachine.run (TcpClient.new true false) twoCycles = some s ∧
      s.calls = [(1, true), (1, false), (2, true)] ∧ s.InTurn := by
  have hrun : ((clientMachine.run (TcpClient.new true false) twoCycles).map
      fun s => (s.connects, s.calls)) = some (1, [(1, true), (1, false), (2, true)]) := by
    decide +kernel
  obtain ⟨s, hs, hvalues⟩ := Option.map_eq_some_iff.mp hrun
  simp only [Prod.mk.injEq] at hvalues
  obtain ⟨hconnects, hcalls⟩ := hvalues
  have hreach : clientMachine.ReachableVia OnTime s :=
    Machine.run_reachableVia (.init ⟨true, false, rfl⟩) (by decide +kernel) hs
  exact ⟨s, hs, hcalls, (reconnects_in_turn hreach (Nat.le_of_eq hconnects)).1⟩

end TcpClient

end Simplev
