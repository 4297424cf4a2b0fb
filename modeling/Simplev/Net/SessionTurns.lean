import Simplev.Net.Correctness.Callbacks

/-!
# `Net.SessionTurns` — what one step of a session comes to

`turn s e` names the member function that matters when `e` happens in `s`; most events only move the
loop's thread and come to `pass`. `Moves s t s'` says what the step does to the connection, to the
functors that wait and to the trace. `step_moves` connects the two for every session that keeps the
invariant of `Net.Correctness.Callbacks`: there no assert fails, so each turn has one outcome for each
result of its system call. The statements about bytes and about closing are proved by cases on `Moves`.
-/

namespace Simplev

open Foundation TcpConnection

namespace Session

inductive Turn where
  /-- Nothing happens to the connection, to the queue or to the trace. -/
  | pass
  /-- `send` from another thread queues `sendInLoop`. -/
  | accept (caller : Thread) (message : Message)
  /-- `send` on the loop's thread runs `sendInLoop`. -/
  | send (caller : Thread) (message : Message) (w : Write)
  /-- A queued `sendInLoop` runs. -/
  | take (caller : Thread) (message : Message) (w : Write)
  /-- `shutdown` finds `kConnected`. -/
  | shutdown (caller : Thread)
  /-- A queued `shutdownInLoop` runs. -/
  | shutdownInLoop
  | connectEstablished
  | connectDestroyed
  | handleRead (r : Buffer.Readv)
  | handleWrite (w : Write)
  /-- A queued `writeCompleteCallback_` or `highWaterMarkCallback_` runs. -/
  | notify (cb : Callback)
  | removeConnectionInLoop
deriving DecidableEq

/-- The message and the result of the write of a turn that runs `sendInLoop`. -/
def Turn.sending : Turn → Option (Message × Write)
  | .send _ message w => some (message, w)
  | .take _ message w => some (message, w)
  | _ => none

/-- If the turn writes a message with bytes directly, the result of that write meets `P`. -/
def DirectWrite (P : Write → Prop) (s : Session) (t : Turn) : Prop :=
  s.conn.Idle → ∀ p ∈ t.sending, p.1.bytes ≠ [] → P p.2

instance (P : Write → Prop) [DecidablePred P] (s : Session) (t : Turn) :
    Decidable (DirectWrite P s t) :=
  inferInstanceAs (Decidable (_ → _))

/-- The turn of a functor; `w` is the result of the write it may make. -/
def functorTurn (w : Write) : Functor → Turn
  | .connectEstablished => .connectEstablished
  | .connectDestroyed => .connectDestroyed
  | .sendInLoop caller message => .take caller message w
  | .shutdownInLoop => .shutdownInLoop
  | .writeCompleteCallback => .notify .writeComplete
  | .highWaterMarkCallback backlog => .notify (.highWaterMark backlog)

/-- The turn of an event callback. -/
def callbackTurn (r : Buffer.Readv) (w : Write) : EventCallback → Turn
  | .errorCallback => .pass
  | .readCallback => .handleRead r
  | .writeCallback => .handleWrite w

/-- What `e` comes to in `s`. -/
def turn (s : Session) : Event → Turn
  | .send caller message w =>
    if s.conn.state_ = .kConnected then
      if caller = .loop then .send caller message w else .accept caller message
    else .pass
  | .shutdown caller => if s.conn.state_ = .kConnected then .shutdown caller else .pass
  | .connectEstablished => .connectEstablished
  | .runFunctor w =>
    match s.loop.nextFunctor with
    | some (f, _) => functorTurn w f
    | none => .pass
  | .runCallback r w =>
    match s.phase with
    | .event (cb :: _) => callbackTurn r w cb
    | _ => .pass
  | .removeConnectionInLoop => .removeConnectionInLoop
  | _ => .pass

/-- What a turn does. -/
inductive Moves (s s' : Session) : Turn → Prop
  | pass (state : s'.conn.state_ = s.conn.state_)
      (reading : s'.conn.channel_.reading = s.conn.channel_.reading)
      (writing : s'.conn.channel_.writing = s.conn.channel_.writing)
      (output : s'.conn.outputBuffer_ = s.conn.outputBuffer_)
      (waiting : s'.loop.waiting = s.loop.waiting) (trace : s'.trace = s.trace) : Moves s s' .pass
  | accept {caller message} (connected : s.conn.state_ = .kConnected) (other : caller ≠ .loop)
      (conn : s'.conn = s.conn)
      (waiting : s'.loop.waiting = s.loop.waiting ++ [.sendInLoop caller message])
      (trace : s'.trace =
        s.trace ++ [.accept caller message, .queueInLoop (.sendInLoop caller message)]) :
      Moves s s' (.accept caller message)
  | send {message w actions direct rest} (connected : s.conn.state_ = .kConnected)
      (sent : Sent s.conn .loop message w s'.conn actions direct rest)
      (waiting : s'.loop.waiting = s.loop.waiting ++ actions.flatMap (queuedBy s.owner))
      (trace : s'.trace = s.trace ++ .accept .loop message :: actions) :
      Moves s s' (.send .loop message w)
  | take {caller message w actions direct rest left}
      (taken : s.loop.waiting = .sendInLoop caller message :: left)
      (sent : Sent s.conn caller message w s'.conn actions direct rest)
      (waiting : s'.loop.waiting = left ++ actions.flatMap (queuedBy s.owner))
      (trace : s'.trace = s.trace ++ actions) : Moves s s' (.take caller message w)
  | shutdownHere (connected : s.conn.state_ = .kConnected)
      (conn : s'.conn = { s.conn with state_ := .kDisconnecting })
      (waiting : s'.loop.waiting = s.loop.waiting)
      (trace : s'.trace = s.trace ++ .disconnect :: s.conn.shutdownInLoop) :
      Moves s s' (.shutdown .loop)
  | shutdownElsewhere {caller} (connected : s.conn.state_ = .kConnected) (other : caller ≠ .loop)
      (conn : s'.conn = { s.conn with state_ := .kDisconnecting })
      (waiting : s'.loop.waiting = s.loop.waiting ++ [.shutdownInLoop])
      (trace : s'.trace = s.trace ++ [.disconnect, .queueInLoop .shutdownInLoop]) :
      Moves s s' (.shutdown caller)
  | shutdownInLoop (taken : s.loop.waiting = .shutdownInLoop :: s'.loop.waiting)
      (conn : s'.conn = s.conn) (trace : s'.trace = s.trace ++ s.conn.shutdownInLoop) :
      Moves s s' .shutdownInLoop
  | connectEstablished (connecting : s.conn.state_ = .kConnecting)
      (unclosed : .closeCallback ∉ s.trace)
      (conn : s'.conn =
        { s.conn with state_ := .kConnected, channel_ := s.conn.channel_.enableReading })
      (waiting : s.loop.waiting = s'.loop.waiting ∨
        s.loop.waiting = .connectEstablished :: s'.loop.waiting)
      (trace : s'.trace = s.trace ++ [.callback (.connection true)]) :
      Moves s s' .connectEstablished
  | connectDestroyed (up : s.conn.isUp) (closed : .closeCallback ∈ s.trace)
      (conn : s'.conn =
        { s.conn with state_ := .kDisconnected, channel_ := s.conn.channel_.disableAll })
      (taken : s.loop.waiting = .connectDestroyed :: s'.loop.waiting)
      (trace : s'.trace = s.trace ++ [.callback (.connection false)]) :
      Moves s s' .connectDestroyed
  | handleRead {r actions} (reading : s.conn.channel_.reading = true)
      (unclosed : .closeCallback ∉ s.trace)
      (read : Read s.conn r s'.conn actions)
      (waiting : s'.loop.waiting = s.loop.waiting ++ actions.flatMap (queuedBy s.owner))
      (trace : s'.trace = s.trace ++ actions) : Moves s s' (.handleRead r)
  | handleWrite {w actions} (wrote : Wrote s.conn w s'.conn actions)
      (waiting : s'.loop.waiting = s.loop.waiting ++ actions.flatMap (queuedBy s.owner))
      (trace : s'.trace = s.trace ++ actions) : Moves s s' (.handleWrite w)
  | notify {cb f} (taken : s.loop.waiting = f :: s'.loop.waiting)
      (kind : f = .writeCompleteCallback ∧ cb = .writeComplete ∨
        ∃ backlog, f = .highWaterMarkCallback backlog ∧ cb = .highWaterMark backlog)
      (conn : s'.conn = s.conn) (trace : s'.trace = s.trace ++ [.callback cb]) :
      Moves s s' (.notify cb)
  | removeConnectionInLoop (conn : s'.conn = s.conn)
      (waiting : s'.loop.waiting = s.loop.waiting ++ [.connectDestroyed])
      (trace : s'.trace = s.trace) : Moves s s' .removeConnectionInLoop

variable {s s' : Session} {c : TcpConnection} {actions : List Action} {fs : List String}

theorem At.unclosed {stage : Stage} {messages : List Callback} (h : s.At stage messages)
    (hstage : stage.closes = 0) : .closeCallback ∉ s.trace :=
  List.count_eq_zero.mp (h.closes.trans hstage)

theorem At.closed {stage : Stage} {messages : List Callback} (h : s.At stage messages)
    (hstage : stage.closes = 1) : .closeCallback ∈ s.trace := by
  apply List.count_pos_iff.mp
  rw [h.closes, hstage]
  exact Nat.one_pos

/-- A waiting `connectEstablished` is that of a connection that has not opened. -/
theorem At.opening {stage : Stage} {messages : List Callback} (h : s.At stage messages)
    (hpending : 0 < s.opensPending) : stage = .opening := by
  rw [h.opens] at hpending
  cases stage with
  | opening => rfl
  | _ => exact absurd hpending (Nat.lt_irrefl 0)

/-- A waiting `connectDestroyed` is that of a connection that closes. -/
theorem At.closing {stage : Stage} {messages : List Callback} (h : s.At stage messages)
    (hpending : 0 < s.destroysPending) : stage = .closing := by
  rw [h.destroys] at hpending
  cases stage with
  | closing => rfl
  | _ => exact absurd hpending (Nat.lt_irrefl 0)

theorem moves_send (h : s.Wired) {caller : Thread} {message : Message} {w : Write}
    (hfit : w.Fits message.bytes.length)
    (hrun : s.conn.send caller message w = .ok (c, actions) fs) :
    Moves s (s.after c actions fs) (s.turn (.send caller message w)) := by
  rcases send_spec hrun with ⟨hk, rfl, rfl, rfl⟩ | ⟨hk, rfl, sent, hsend, rfl⟩ |
    ⟨hk, hother, rfl, rfl, rfl⟩
  · rw [turn, if_neg hk]
    exact .pass rfl rfl rfl rfl (by simp) (by simp)
  · rw [turn, if_pos hk, if_pos rfl]
    obtain ⟨rfl, direct, rest, hsent⟩ := sendInLoop_spec h.sound hfit hsend
    exact .send hk hsent (by simp [queuedBy]) rfl
  · rw [turn, if_pos hk, if_neg hother]
    exact .accept hk hother rfl (by simp [queuedBy]) rfl

theorem moves_shutdown {caller : Thread}
    (hrun : s.conn.shutdown caller = .ok (c, actions) fs) :
    Moves s (s.after c actions fs) (s.turn (.shutdown caller)) := by
  obtain ⟨rfl, ⟨hk, rfl, rfl⟩ | ⟨hk, rfl, rfl⟩⟩ := shutdown_spec hrun
  · rw [turn, if_neg hk]
    exact .pass rfl rfl rfl rfl (by simp) (by simp)
  · rw [turn, if_pos hk]
    by_cases hcaller : caller = .loop
    · subst hcaller
      refine .shutdownHere hk rfl ?_ rfl
      rw [after_waiting, if_pos rfl]
      have hnone : (s.conn.shutdownInLoop).flatMap (queuedBy s.owner) = [] := by
        unfold shutdownInLoop
        split <;> rfl
      simpa [queuedBy] using hnone
    · refine .shutdownElsewhere hk hcaller rfl ?_ ?_
      · rw [after_waiting, if_neg hcaller]
        rfl
      · rw [after_trace, if_neg hcaller]

theorem moves_functor (h : s.Wired) {f : Functor} {loop : EventLoop Functor} {w : Write}
    (hnext : s.loop.nextFunctor = some (f, loop)) (hfit : WriteFits w f)
    (hrun : f.run s.conn w = .ok (c, actions) fs) :
    Moves s (({ s with loop := loop } : Session).after c actions fs) (functorTurn w f) := by
  have hwaiting := EventLoop.nextFunctor_waiting hnext
  obtain ⟨stage, messages, hat⟩ := h.stage
  cases f with
  | connectEstablished =>
      have hpending : 0 < s.opensPending := by
        rw [opensPending, hwaiting, List.count_cons_self]
        omega
      obtain rfl := hat.opening hpending
      obtain ⟨rfl, rfl, rfl⟩ := connectEstablished_spec hat.state hrun
      exact .connectEstablished hat.state (hat.unclosed rfl) rfl (Or.inr (by simp [hwaiting, queuedBy])) rfl
  | connectDestroyed =>
      have hpending : 0 < s.destroysPending := by
        rw [destroysPending, hwaiting, List.count_cons_self]
        omega
      obtain rfl := hat.closing hpending
      obtain ⟨rfl, rfl, rfl⟩ := connectDestroyed_spec hat.state hrun
      exact .connectDestroyed hat.state (hat.closed rfl) rfl (by simp [hwaiting, queuedBy]) rfl
  | sendInLoop caller message =>
      obtain ⟨rfl, direct, rest, hsent⟩ := sendInLoop_spec h.sound hfit hrun
      exact .take hwaiting hsent (by simp) rfl
  | shutdownInLoop =>
      simp only [Functor.run, Outcome.pure_eq, Outcome.ok.injEq, Prod.mk.injEq] at hrun
      obtain ⟨⟨rfl, rfl⟩, rfl⟩ := hrun
      refine .shutdownInLoop ?_ rfl rfl
      rw [after_waiting, hwaiting]
      unfold shutdownInLoop
      split <;> simp [queuedBy]
  | writeCompleteCallback =>
      simp only [Functor.run, Outcome.pure_eq, Outcome.ok.injEq, Prod.mk.injEq] at hrun
      obtain ⟨⟨rfl, rfl⟩, rfl⟩ := hrun
      exact .notify (by simp [hwaiting, queuedBy]) (Or.inl ⟨rfl, rfl⟩) rfl rfl
  | highWaterMarkCallback backlog =>
      simp only [Functor.run, Outcome.pure_eq, Outcome.ok.injEq, Prod.mk.injEq] at hrun
      obtain ⟨⟨rfl, rfl⟩, rfl⟩ := hrun
      exact .notify (by simp [hwaiting, queuedBy]) (Or.inr ⟨backlog, rfl, rfl⟩) rfl rfl

theorem moves_callback (h : s.Wired) {cb : EventCallback} {rest : List EventCallback}
    {r : Buffer.Readv} {w : Write} (hphase : s.phase = .event (cb :: rest))
    (hrfit : r.Fits s.conn.inputBuffer_) (hwfit : w.Fits s.conn.outputBuffer_.readable.length)
    (hrun : s.conn.handleEvent cb r w = .ok (c, actions) fs) :
    Moves s (({ s with phase := .event rest } : Session).after c actions fs)
      (callbackTurn r w cb) := by
  cases cb with
  | errorCallback =>
      simp only [handleEvent, Outcome.pure_eq, Outcome.ok.injEq, Prod.mk.injEq] at hrun
      obtain ⟨⟨rfl, rfl⟩, rfl⟩ := hrun
      exact .pass rfl rfl rfl rfl (by simp) (by simp)
  | readCallback =>
      obtain ⟨stage, messages, hat⟩ := h.stage
      have hreading := (h.event _ hphase).2 (List.mem_cons_self ..)
      obtain rfl := hat.up_of_reading hreading
      obtain ⟨rfl, hread⟩ := handleRead_spec h.sound hat.state hrfit hrun
      exact .handleRead hreading (hat.unclosed rfl) hread (by simp) rfl
  | writeCallback =>
      obtain ⟨rfl, hwrote⟩ := handleWrite_spec h.sound hwfit hrun
      exact .handleWrite hwrote (by simp) rfl

/-- **Every step is a turn.** -/
theorem step_moves (h : s.Wired) {e : Event} (hstep : s.step e = some s') :
    Moves s s' (s.turn e) := by
  obtain ⟨s₁, c, actions, fs, hbegins, rfl⟩ := step_inv hstep
  cases hbegins with
  | send _ hfit hrun => exact moves_send h hfit hrun
  | shutdown _ hrun => exact moves_shutdown hrun
  | connectEstablished hphase hrun =>
      obtain ⟨stage, messages, hat⟩ := h.stage
      -- the owner has not called it yet
      have hpending : 0 < s.opensPending := by
        rw [opensPending, if_pos hphase]
        omega
      obtain rfl := hat.opening hpending
      obtain ⟨rfl, rfl, rfl⟩ := connectEstablished_spec hat.state hrun
      exact .connectEstablished hat.state (hat.unclosed rfl) rfl (Or.inl (by simp [queuedBy])) rfl
  | doPendingFunctors hphase _ =>
      refine .pass rfl rfl rfl rfl ?_ (by simp)
      simpa using EventLoop.waiting_swapFunctors (h.rest (by simp [hphase]))
  | runFunctor _ _ hnext hfit hrun =>
      simp only [turn, hnext]
      exact moves_functor h hnext hfit hrun
  | endFunctors _ _ hdone =>
      refine .pass rfl rfl rfl rfl ?_ (by simp)
      simpa using EventLoop.waiting_endFunctors hdone
  | runCallback hphase _ hrfit hwfit hrun =>
      simp only [turn, hphase]
      exact moves_callback h hphase hrfit hwfit hrun
  | useInput _ hallowed hrun => exact .pass rfl rfl rfl rfl (by simp) (by simp)
  | leaveDown hinside hrun =>
      obtain ⟨rfl, rfl, rfl⟩ := removeChannel_spec (h.down hinside).2 hrun
      exact .pass rfl rfl rfl rfl (by simp) (by simp)
  | removeConnectionInLoop _ => exact .removeConnectionInLoop rfl (by simp) (by simp)
  | handleEvent _ _ _ => exact .pass rfl rfl rfl rfl (by simp) (by simp)
  | endEvent _ _ => exact .pass rfl rfl rfl rfl (by simp) (by simp)
  | enterUser _ _ => exact .pass rfl rfl rfl rfl (by simp) (by simp)
  | swapInput _ _ => exact .pass rfl rfl rfl rfl (by simp) (by simp)
  | setWriteCompleteCallback _ => exact .pass rfl rfl rfl rfl (by simp) (by simp)
  | setHighWaterMarkCallback _ => exact .pass rfl rfl rfl rfl (by simp) (by simp)
  | leaveUser _ _ => exact .pass rfl rfl rfl rfl (by simp) (by simp)

/-- The trace only grows. -/
theorem Moves.trace_grows {t : Turn} (h : Moves s s' t) : s.trace <+: s'.trace := by
  cases h with
  | pass _ _ _ _ _ htrace => exact htrace ▸ List.prefix_rfl
  | removeConnectionInLoop _ _ htrace => exact htrace ▸ List.prefix_rfl
  | accept _ _ _ _ htrace | send _ _ _ htrace | take _ _ _ htrace | shutdownHere _ _ _ htrace
  | shutdownElsewhere _ _ _ _ htrace | shutdownInLoop _ _ htrace | connectEstablished _ _ _ _ htrace
  | connectDestroyed _ _ _ _ htrace | handleRead _ _ _ _ htrace | handleWrite _ _ htrace
  | notify _ _ _ htrace => exact htrace ▸ List.prefix_append _ _

/-- The trace only grows along a run. -/
theorem run_trace_grows {es : List Event} (hs : connectionMachine.Reachable s)
    (hrun : connectionMachine.run s es = some s') : s.trace <+: s'.trace := by
  induction es generalizing s with
  | nil =>
      simp only [Machine.run, Option.some.injEq] at hrun
      exact hrun ▸ List.prefix_rfl
  | cons e es ih =>
      rw [Machine.run, Option.bind_eq_some_iff] at hrun
      obtain ⟨mid, hstep, hrest⟩ := hrun
      have hmoves := step_moves (reachable_wired hs) hstep
      exact hmoves.trace_grows.trans (ih (.step hs trivial hstep) hrest)

/-- None of the actions is a run of `sendInLoop`. -/
def NoTake (actions : List Action) : Prop :=
  ∀ caller message direct, .take caller message direct ∉ actions

/-- **A turn runs `sendInLoop` once or not at all**; `before` is what `send` did first. -/
theorem Moves.takes {t : Turn} (h : Moves s s' t) :
    (t.sending = none ∧ ∃ actions, s'.trace = s.trace ++ actions ∧ NoTake actions) ∨
      ∃ before caller message w actions direct rest, t.sending = some (message, w) ∧
        Sent s.conn caller message w s'.conn actions direct rest ∧ NoTake before ∧
        s'.trace = s.trace ++ (before ++ actions) := by
  cases h with
  | pass _ _ _ _ _ htrace | removeConnectionInLoop _ _ htrace =>
      exact Or.inl ⟨rfl, [], by rw [htrace, List.append_nil], by simp [NoTake]⟩
  | accept _ _ _ _ htrace | shutdownElsewhere _ _ _ _ htrace | connectEstablished _ _ _ _ htrace
  | connectDestroyed _ _ _ _ htrace | notify _ _ _ htrace =>
      exact Or.inl ⟨rfl, _, htrace, by simp [NoTake]⟩
  | @send message w actions direct rest _ hsent _ htrace =>
      exact Or.inr ⟨[.accept .loop message], _, _, _, _, _, _, rfl, hsent, by simp [NoTake], htrace⟩
  | take _ hsent _ htrace =>
      exact Or.inr ⟨[], _, _, _, _, _, _, rfl, hsent, by simp [NoTake], htrace⟩
  | shutdownHere _ _ _ htrace =>
      refine Or.inl ⟨rfl, _, htrace, fun caller message direct hmem => ?_⟩
      rcases List.mem_cons.mp hmem with heq | hmem
      · simp at heq
      · exact absurd (mem_shutdownInLoop hmem) (by simp)
  | shutdownInLoop _ _ htrace =>
      refine Or.inl ⟨rfl, _, htrace, fun caller message direct hmem => ?_⟩
      exact absurd (mem_shutdownInLoop hmem) (by simp)
  | handleRead _ _ hread _ htrace =>
      refine Or.inl ⟨rfl, _, htrace, fun caller message direct hmem => ?_⟩
      rcases hread.mem_actions hmem with heq | ⟨_, _, heq⟩ <;> simp at heq
  | handleWrite hwrote _ htrace =>
      refine Or.inl ⟨rfl, _, htrace, fun caller message direct hmem => ?_⟩
      rcases hwrote.mem_actions hmem with heq | heq | heq <;> simp at heq

end Session

end Simplev
