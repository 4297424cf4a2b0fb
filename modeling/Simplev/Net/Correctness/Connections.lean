import Simplev.Foundation.Parts
import Simplev.Net.Correctness.Interest
import Simplev.Net.Correctness.Lifecycle

/-!
# `Net.Correctness.Connections` — every connection of a server runs as one alone

`joiningMachine` runs one connection on a loop that may be in the middle of other work when the connection
joins it. `server_madeOf_connections` is the refinement: a server is made of such runs, one for each
connection it accepted, however its loops, its other connections and its users interleave with them.

What is known of the runs of one connection then holds of all of them at once (`Sane`): their byte
streams, their callbacks, their write interest and their deferred half-closes.
-/

namespace Simplev

open Foundation TcpConnection

/-- All runs of a connection that joins a loop: its `connectEstablished` is on its way. -/
def joiningMachine : Machine Session Session.Event where
  init v := v.Opening
  step := Session.step

namespace Session

variable {v v' : Session} {e : Event} {t : Turn} {c : TcpConnection} {actions : List Action}
  {fs : List String}

/-- What begins, is a step. -/
theorem Begins.step_eq {v₁ : Session} (h : Begins v e v₁ c actions fs) :
    v.step e = some (v₁.after c actions fs) := by
  cases h with
  | send may fit run => simp [step, begin, may, fit, run]
  | shutdown may run => simp [step, begin, may, run]
  | connectEstablished phase run => simp [step, begin, phase, run]
  | doPendingFunctors phase free => simp [step, begin, phase, free]
  | runFunctor phase free next fit run => simp [step, begin, phase, free, next, fit, run]
  | endFunctors phase free done => simp [step, begin, phase, free, done]
  | handleEvent phase free delivers => simp [step, begin, phase, free, delivers]
  | runCallback phase free rfit wfit run => simp [step, begin, phase, free, rfit, wfit, run]
  | endEvent phase free => simp [step, begin, phase, free]
  | enterUser phase free => simp [step, begin, phase, free]
  | @useInput op str b fs inside allowed run =>
      simp only [step, begin, inside, allowed, and_self, if_true, run]
      show some (v.after { v.conn with inputBuffer_ := b } [] (fs ++ [])) = _
      rw [List.append_nil]
  | swapInput inside valid => simp [step, begin, inside, valid]
  | setWriteCompleteCallback inside => simp [step, begin, inside]
  | setHighWaterMarkCallback inside => simp [step, begin, inside]
  | leaveDown inside run => simp [step, begin, inside, run]
  | @leaveUser code inside notDown =>
      cases code with
      | other => simp [step, begin, inside]
      | callback cb =>
          cases cb with
          | connection connected =>
              cases connected with
              | true => simp [step, begin, inside]
              | false => exact absurd rfl notDown
          | message arrived readable => simp [step, begin, inside]
          | writeComplete => simp [step, begin, inside]
          | highWaterMark backlog => simp [step, begin, inside]
  | removeConnectionInLoop waits => simp [step, begin, waits]

theorem Sees.turns {entry : Option Entry} (h : Sees v entry v') : joiningMachine.Turns v v' := by
  cases h with
  | nothing => exact .still
  | step begins _ => exact .step begins.step_eq

/-! ## What holds of a connection that joined -/

/-- The invariants of one connection, together. -/
structure Sane (v : Session) : Prop where
  wired : v.Wired
  stream : v.Stream
  ordered : v.Ordered
  matched : .closeCallback ∉ v.trace → Matched v.conn
  deferred : .closeCallback ∉ v.trace → v.Deferred

/-- A new connection has nothing behind it. -/
theorem Opening.sane (h : v.Opening) : v.Sane := by
  obtain ⟨sockfd, writeComplete, hconn⟩ := h.conn
  have hempty : v.conn.outputBuffer_.readable = [] := by
    rw [hconn]
    exact Buffer.new_readable
  have hsends : ∀ t, waitingOf t v.loop.waiting = [] := by
    intro t
    unfold waitingOf
    rw [List.filterMap_eq_nil_iff]
    intro f hf
    rw [h.waiting f hf]
  have hno : .shutdownInLoop ∉ v.loop.waiting := by
    intro hmem
    exact absurd (h.waiting _ hmem) (by simp)
  refine ⟨h.wired, ⟨?_, ?_, hsends .loop⟩, ⟨?_, ?_, ?_, ?_, ?_⟩, ?_, ?_⟩
  · rw [h.trace, hempty]
    rfl
  · intro t
    rw [h.trace, hsends t]
    rfl
  · intro hmem
    rw [h.trace] at hmem
    exact absurd hmem List.not_mem_nil
  · intro hstate
    rw [hconn] at hstate
    cases hstate
  · intro early late htrace
    rw [h.trace] at htrace
    exact absurd htrace (by simp)
  · exact fun hmem => absurd hmem hno
  · apply List.pairwise_of_forall_mem_list
    intro f hf g _ hshutdown
    exact absurd (hshutdown ▸ hf) hno
  · intro _
    rw [Matched, hempty, hconn]
    simp [TcpConnection.new, Channel.new]
  · intro _
    have hnone : v.loop.waiting.count .shutdownInLoop = 0 := List.count_eq_zero.mpr hno
    constructor
    · rw [hnone]
      exact Nat.zero_le _
    · intro hran
      rw [ShutdownRan, h.trace] at hran
      exact absurd hran (Nat.not_lt_zero _)

theorem Sane.step (h : v.Sane) (hstep : v.step e = some v') : v'.Sane := by
  have hmoves := step_moves h.wired hstep
  have hbefore : .closeCallback ∉ v'.trace → .closeCallback ∉ v.trace :=
    fun hopen hmem => hopen (hmoves.trace_grows.subset hmem)
  refine ⟨h.wired.step hstep, h.stream.step hmoves, h.ordered.step hmoves, matched_step h.matched hmoves, ?_⟩
  intro hopen
  have hopen := hbefore hopen
  exact (h.deferred hopen).step h.wired h.ordered (h.matched hopen) hopen hmoves

theorem joined_sane (h : joiningMachine.Reachable v) : v.Sane := by
  refine h.invariant ?_ ?_
  · intro v hv
    exact Opening.sane hv
  · intro v e v' _ hv _ hstep
    exact hv.step hstep

/-- The calls of the callbacks, of a connection that is wired. -/
theorem Wired.protocol (h : v.Wired) :
    protocolCalls v.trace = [] ∨ ∃ messages, (∀ cb ∈ messages, BringsBytes cb) ∧
      (protocolCalls v.trace = .connection true :: messages ∨
        protocolCalls v.trace = .connection true :: messages ++ [.connection false]) := by
  obtain ⟨stage, messages, hat⟩ := h.stage
  have hcalls := hat.calls
  cases stage with
  | opening => exact .inl hcalls
  | up => exact .inr ⟨messages, hat.bring, .inl hcalls⟩
  | closing => exact .inr ⟨messages, hat.bring, .inl hcalls⟩
  | down => exact .inr ⟨messages, hat.bring, .inr hcalls⟩

end Session

namespace ServerRun

variable {s : ServerRun}

/-! ## Every connection of a server -/

theorem server_parts : serverMachine.MadeOf joiningMachine accepted view where
  init := by
    rintro _ ⟨name, numThreads, writeComplete, rfl⟩
    rfl
  step := by
    intro s e s' hs hstep conn hconn
    have hserved := (reachable_kept hs).served
    have hbooks := step_books hserved.placed hstep
    -- a connection that was there sees the step
    have hold : conn < s.accepted → ∃ v, (conn < s.accepted ∧ v = s.view conn ∨ v.Opening) ∧
        joiningMachine.Turns v (s'.view conn) := by
      intro hconn
      obtain ⟨entry, hsees, -⟩ := sees_step hserved.placed (fun j hj => (hserved.conns j hj).1) hstep hconn
      exact ⟨_, .inl ⟨hconn, rfl⟩, hsees.turns⟩
    rcases hbooks.accepted with ⟨hat, sockfd, hrun⟩ | hsame
    · rw [newConnection_accepted hrun] at hconn
      rcases Nat.lt_succ_iff_lt_or_eq.mp hconn with hconn | rfl
      · exact hold hconn
      · have hnone := hserved.callsMade s.accepted (Nat.le_refl _)
        obtain ⟨v, entry, hopening, hsees, -⟩ := made_sees hserved.placed hnone hat hrun
        exact ⟨v, .inr hopening, hsees.turns⟩
    · exact hold (hsame ▸ hconn)

/-- **A server is made of its connections.** In every run of a server with any number of loops, users and
    connections, what each connection and the part of its loop that concerns it went through is a run of
    that connection alone. -/
theorem server_madeOf_connections (h : serverMachine.Reachable s) {conn : Nat} (hconn : conn < s.accepted) :
    joiningMachine.Reachable (s.view conn) :=
  server_parts.reachable h conn hconn

/-- Two connections share the only I/O loop. User code on it sends to both, a third thread to the second
    one; of the first, one more byte is written. -/
def sharedLoop : List Event :=
  [.newConnection false 9, .newConnection false 10, .doPendingFunctors 1, .runFunctor 1 (.wrote 0),
   .leaveUser 1, .runFunctor 1 (.wrote 0), .send 1 0 ⟨[31, 32, 33], by decide⟩ (.wrote 1),
   .send 1 1 ⟨[34], by decide⟩ (.wrote 1), .leaveUser 1, .endFunctors 1,
   .send 7 1 ⟨[35, 36], by decide⟩ (.wrote 0), .handleEvent 0 ⟨false, false, true⟩,
   .runCallback 1 (.error 0) (.wrote 1), .endEvent 1]

theorem server_madeOf_connections_sharedLoop :
    ∃ s, serverMachine.run (new "Echo" 1 true) sharedLoop = some s ∧ s.accepted = 2 ∧
      joiningMachine.Reachable (s.view 0) ∧ joiningMachine.Reachable (s.view 1) := by
  have hrun : (serverMachine.run (new "Echo" 1 true) sharedLoop).map accepted = some 2 := by
    decide +kernel
  obtain ⟨s, hs, haccepted⟩ := Option.map_eq_some_iff.mp hrun
  have hreach := Machine.run_reachable (M := serverMachine) ⟨"Echo", 1, true, rfl⟩ hs
  refine ⟨s, hs, haccepted, server_madeOf_connections hreach ?_, server_madeOf_connections hreach ?_⟩
  · rw [haccepted]
    decide
  · rw [haccepted]
    decide

/-- The functors of a connection that wait in its loop, in their order. -/
def waitingFor (s : ServerRun) (conn : Nat) : List Functor :=
  (s.loopOf conn).queue.waitingOf (ServerFunctor.ofConnection conn)

theorem view_waiting (conn : Nat) : (s.view conn).loop.waiting = s.waitingFor conn :=
  EventLoop.waiting_only _ _

/-- **Every connection of a server keeps its stream, its protocol and its interest**, in every run of the
    server: the bytes its socket accepted and those still in its output buffer are the messages it took, the
    messages of each thread in the order of their acceptance; its callbacks come in the order
    of the protocol; and up to its close it is writing exactly while its buffer holds bytes, and a
    `shutdownInLoop` that ran has half-closed it or has bytes to wait for. -/
theorem connections_sane (h : serverMachine.Reachable s) {conn : Nat} (hconn : conn < s.accepted) :
    let c := (s.conns conn).conn
    let trace := (s.conns conn).trace
    Session.socketBytes trace ++ c.outputBuffer_.readable = Session.bytesOf (Session.kept trace) ∧
      (∀ t, Session.acceptedBy t trace =
        Session.takenBy t trace ++ Session.waitingOf t (s.waitingFor conn)) ∧
      (Session.protocolCalls trace = [] ∨
        ∃ messages, (∀ cb ∈ messages, Session.BringsBytes cb) ∧
          (Session.protocolCalls trace = .connection true :: messages ∨
            Session.protocolCalls trace = .connection true :: messages ++ [.connection false])) ∧
      (.closeCallback ∉ trace →
        (c.channel_.isWriting = true ↔ c.outputBuffer_.readable ≠ []) ∧
          ((s.waitingFor conn).count .shutdownInLoop < trace.count .disconnect →
            .shutdownWrite ∈ trace ∨ c.outputBuffer_.readable ≠ [])) := by
  have hsane := Session.joined_sane (server_parts.reachable h conn hconn)
  have hfifo := hsane.stream.fifo
  rw [view_waiting] at hfifo
  refine ⟨hsane.stream.bytes, hfifo, hsane.wired.protocol, ?_⟩
  intro hopen
  have hpending := (hsane.deferred hopen).pending
  rw [Session.ShutdownRan, view_waiting] at hpending
  exact ⟨hsane.matched hopen, hpending⟩

theorem connections_sane_sharedLoop :
    ∃ s, serverMachine.run (new "Echo" 1 true) sharedLoop = some s ∧
      Session.socketBytes (s.conns 0).trace = [31, 32] ∧
      (s.conns 0).conn.outputBuffer_.readable = [33] ∧
      Session.bytesOf (Session.kept (s.conns 0).trace) = [31, 32, 33] ∧
      Session.waitingOf (.other 7) (s.waitingFor 1) = [⟨[35, 36], by decide⟩] := by
  have hrun : (serverMachine.run (new "Echo" 1 true) sharedLoop).map (fun s =>
      (s.accepted, Session.socketBytes (s.conns 0).trace, (s.conns 0).conn.outputBuffer_.readable,
        Session.acceptedBy (.other 7) (s.conns 1).trace, Session.takenBy (.other 7) (s.conns 1).trace)) =
      some (2, [31, 32], [33], [⟨[35, 36], by decide⟩], []) := by decide +kernel
  obtain ⟨s, hs, hvalues⟩ := Option.map_eq_some_iff.mp hrun
  simp only [Prod.mk.injEq] at hvalues
  obtain ⟨haccepted, hsocket, hreadable, hsends, htaken⟩ := hvalues
  have hreach := Machine.run_reachable (M := serverMachine) ⟨"Echo", 1, true, rfl⟩ hs
  have hzero : 0 < s.accepted := by rw [haccepted]; decide
  have hone : 1 < s.accepted := by rw [haccepted]; decide
  have hfirst := (connections_sane hreach hzero).1
  have hsecond := (connections_sane hreach hone).2.1 (.other 7)
  rw [hsocket, hreadable] at hfirst
  rw [hsends, htaken] at hsecond
  exact ⟨s, hs, hsocket, hreadable, hfirst.symm, hsecond.symm⟩

end ServerRun

end Simplev
