import Simplev.Net.TcpServerViews

/-!
# `Net.TcpServerTurns` — what one step of a server is to each of its connections

`Sees v entry v'` is a step of `Net.Session`, or nothing, with the call of the loops that it records.
`sees_step` is the simulation: every step of the server is seen so by every connection, whichever
connection or loop it is a step of. What `Net.Correctness` proves of one connection by its steps
therefore holds of every connection of a server.
-/

namespace Simplev

open Foundation TcpConnection

namespace Session

variable {v v' : Session}

@[simp] theorem after_nothing (v : Session) : v.after v.conn [] [] = v := by
  unfold after
  rw [List.flatMap_nil, EventLoop.queueAll_nil, List.append_nil, List.append_nil]
  rfl

/-- The call of the loops that running a functor is. -/
def functorEntry : Functor → Option Entry
  | .connectEstablished => some .connectEstablished
  | .connectDestroyed => some .connectDestroyed
  | _ => none

/-- The call of the loops that an event is. -/
def entryOf (v : Session) : Event → Option Entry
  | .connectEstablished => some .connectEstablished
  | .runFunctor _ => v.loop.nextFunctor.bind fun next => functorEntry next.1
  | .runCallback _ _ =>
    match v.phase with
    | .event (cb :: _) => some (.handleEvent cb)
    | _ => none
  | _ => none

/-- What a connection sees of a step of its server. -/
inductive Sees (v : Session) : Option Entry → Session → Prop
  | nothing : Sees v none v
  | step {e v₁ c actions fs} (begins : Begins v e v₁ c actions fs)
      (interested : ∀ revents, e = .handleEvent revents → v.conn.channel_.isNoneEvent = false) :
      Sees v (v.entryOf e) (v₁.after c actions fs)

theorem Sees.of_eq {entry : Option Entry} {v₂ : Session} (h : Sees v entry v₂) (heq : v' = v₂) :
    Sees v entry v' :=
  heq ▸ h

/-- The thread of the loop may enter user code that is not of this connection's event. -/
def Free (v : Session) : Prop := (v.phase = .between ∨ v.phase = .functors) ∧ v.user = none

theorem Begins.of_eq {e : Event} {v₁ v₂ : Session} {c : TcpConnection} {actions : List Action}
    {fs : List String} (h : Begins v e v₂ c actions fs) (heq : v₁ = v₂) :
    Begins v e v₁ c actions fs :=
  heq ▸ h

/-- Other user code begins. -/
theorem sees_enter (hfree : v.Free) : Sees v none { v with user := some .other } :=
  (Sees.step (.enterUser hfree.1 hfree.2) (by simp)).of_eq (after_nothing _).symm

/-- User code ends that is not in the middle of `connectDestroyed`. -/
theorem sees_leave {code : UserCode} (hinside : v.user = some code)
    (hdown : code ≠ .callback (.connection false)) : Sees v none { v with user := none } :=
  (Sees.step (.leaveUser hinside hdown) (by simp)).of_eq (after_nothing _).symm

theorem Sees.wired {entry : Option Entry} (h : Sees v entry v') (hv : v.Wired) : v'.Wired := by
  cases h with
  | nothing => exact hv
  | step begins _ => exact hv.begins begins

/-- A connection that is made, before anything is of it on its loop. -/
structure Made (v : Session) : Prop where
  conn : ∃ sockfd writeComplete, v.conn = TcpConnection.new sockfd writeComplete
  waiting : v.loop.waiting = []
  removing : v.removing = 0
  trace : v.trace = []
  failed : v.failed = []
  phase : v.phase ≠ .newConnection ∧ ∀ rest, v.phase ≠ .event rest
  user : v.user ≠ some (.callback (.connection false))

/-- A connection whose `connectEstablished` is on its way, and nothing else. -/
structure Opening (v : Session) : Prop where
  conn : ∃ sockfd writeComplete, v.conn = TcpConnection.new sockfd writeComplete
  opens : v.opensPending = 1
  waiting : ∀ f ∈ v.loop.waiting, f = .connectEstablished
  removing : v.removing = 0
  trace : v.trace = []
  failed : v.failed = []
  rest : v.phase ≠ .functors → v.loop.rest = []
  event : ∀ rest, v.phase ≠ .event rest
  user : v.user ≠ some (.callback (.connection false))

/-- `newConnection` calls `connectEstablished`. -/
theorem Made.calling (h : v.Made) : ({ v with phase := .newConnection } : Session).Opening where
  conn := h.conn
  opens := by
    show 1 + v.loop.waiting.count .connectEstablished = 1
    rw [h.waiting]
    rfl
  waiting f hf := by
    rw [show v.loop.waiting = [] from h.waiting] at hf
    exact absurd hf List.not_mem_nil
  removing := h.removing
  trace := h.trace
  failed := h.failed
  rest _ := (List.append_eq_nil_iff.mp h.waiting).1
  event _ := by simp
  user := h.user

theorem sees_established (hphase : v.phase = .between) {c : TcpConnection} {actions : List Action}
    {fs : List String} (hrun : v.conn.connectEstablished = .ok (c, actions) fs) :
    Sees { v with phase := .newConnection } (some .connectEstablished) (v.after c actions fs) := by
  have hbegins : Begins { v with phase := .newConnection } .connectEstablished
      { v with phase := .between } c actions fs := .connectEstablished rfl hrun
  have hback : v = { v with phase := .between } := by
    rw [← hphase]
  exact .step (hbegins.of_eq hback) (by simp)

/-- `newConnection` queues it. -/
theorem Made.queued (h : v.Made) :
    ({ v with loop := v.loop.queueAll [.connectEstablished] } : Session).Opening := by
  have hwaiting : (v.loop.queueAll [Functor.connectEstablished]).waiting = [.connectEstablished] := by
    rw [EventLoop.waiting_queueAll, h.waiting, List.nil_append]
  refine ⟨h.conn, ?_, ?_, h.removing, h.trace, h.failed, ?_, h.phase.2, h.user⟩
  · unfold opensPending
    rw [hwaiting, if_neg h.phase.1]
    rfl
  · intro f hf
    rw [show _ = [Functor.connectEstablished] from hwaiting] at hf
    exact List.mem_singleton.mp hf
  · intro _
    exact (List.append_eq_nil_iff.mp h.waiting).1

theorem Opening.wired (h : v.Opening) : v.Wired := by
  obtain ⟨sockfd, writeComplete, hconn⟩ := h.conn
  have hdestroys : v.destroysPending = 0 := by
    have hzero : v.loop.waiting.count .connectDestroyed = 0 := by
      rw [List.count_eq_zero]
      intro hmem
      exact absurd (h.waiting _ hmem) (by simp)
    unfold destroysPending
    rw [h.removing, hzero]
  refine (new_wired (.tcpServer true) sockfd writeComplete).move hconn ?_ hdestroys h.trace h.failed
    h.rest (fun rest hphase => absurd hphase (h.event rest)) (fun huser => absurd huser h.user)
  rw [h.opens]
  rfl

end Session

namespace LoopPhase

theorem seenBy_event_self (conn : Nat) (rest : List EventCallback) :
    (event conn rest).seenBy conn = .event rest :=
  if_pos rfl

theorem seenBy_event_other {conn j : Nat} (hj : j ≠ conn) (rest : List EventCallback) :
    (event conn rest).seenBy j = .between :=
  if_neg (Ne.symm hj)

end LoopPhase

namespace ServerRun

variable {s s' : ServerRun}

/-! ## Moves of a loop, as its connections see them -/

/-- A functor of another connection leaves the queue. -/
theorem view_setQueue_other {l j : Nat} {g : ServerFunctor} {queue : EventLoop ServerFunctor}
    (hnext : (s.loops l).queue.nextFunctor = some (g, queue)) (hg : ¬ g.Binds j) :
    (s.setQueue l queue).view j = s.view j := by
  have hnone := ServerFunctor.of_not_binds hg
  have honly := EventLoop.only_nextFunctor (ServerFunctor.ofConnection j) hnext
  have hwaiting := EventLoop.waitingOf_nextFunctor (ServerFunctor.ofRemoval j) hnext
  rw [hnone.1] at honly
  rw [hnone.2, Option.toList_none, List.nil_append] at hwaiting
  have hremoving : (s.setQueue l queue).removing j = s.removing j :=
    removing_modifyLoop hwaiting.symm
  by_cases hl : l = (s.conns j).loop_
  · subst hl
    have hloop : (s.setQueue (s.conns j).loop_ queue).loopOf j = { s.loopOf j with queue := queue } :=
      loopOf_modifyLoop_self _ rfl
    unfold view
    rw [hloop, hremoving]
    show ({ s.view j with loop := queue.only (ServerFunctor.ofConnection j) } : Session) = _
    rw [honly]
    rfl
  · have hloop : (s.setQueue l queue).loopOf j = s.loopOf j := loopOf_modifyLoop_of_ne _ hl
    unfold view
    rw [hloop, hremoving]
    rfl

/-- A functor of the connection itself leaves the queue. -/
theorem view_setQueue {conn : Nat} {f : Functor} {queue : EventLoop ServerFunctor}
    (hnext : (s.loopOf conn).queue.nextFunctor = some (.connection conn f, queue)) :
    (s.view conn).loop.nextFunctor = some (f, queue.only (ServerFunctor.ofConnection conn)) ∧
      (s.setQueue (s.conns conn).loop_ queue).view conn =
        { s.view conn with loop := queue.only (ServerFunctor.ofConnection conn) } := by
  have honly := EventLoop.only_nextFunctor (ServerFunctor.ofConnection conn) hnext
  have hwaiting := EventLoop.waitingOf_nextFunctor (ServerFunctor.ofRemoval conn) hnext
  rw [show (ServerFunctor.connection conn f).ofConnection conn = some f from if_pos rfl] at honly
  have hremoving : (s.setQueue (s.conns conn).loop_ queue).removing conn = s.removing conn :=
    removing_modifyLoop hwaiting.symm
  have hloop : (s.setQueue (s.conns conn).loop_ queue).loopOf conn =
      { s.loopOf conn with queue := queue } := loopOf_modifyLoop_self _ rfl
  refine ⟨honly, ?_⟩
  unfold view
  rw [hloop, hremoving]
  rfl

/-- A removal leaves the queue of the server's own loop. -/
theorem view_setQueue_removal {conn : Nat} {queue : EventLoop ServerFunctor}
    (hne : (s.conns conn).loop_ ≠ 0)
    (hnext : (s.loops 0).queue.nextFunctor = some (.removeConnectionInLoop conn, queue)) :
    s.removing conn = (s.setQueue 0 queue).removing conn + 1 ∧
      (s.setQueue 0 queue).view conn =
        { s.view conn with removing := (s.setQueue 0 queue).removing conn } := by
  have hwaiting := EventLoop.waitingOf_nextFunctor (ServerFunctor.ofRemoval conn) hnext
  rw [show (ServerFunctor.removeConnectionInLoop conn).ofRemoval conn = some () from if_pos rfl]
    at hwaiting
  have hloop : (s.setQueue 0 queue).loopOf conn = s.loopOf conn :=
    loopOf_modifyLoop_of_ne _ (Ne.symm hne)
  constructor
  · unfold removing
    rw [hwaiting, setQueue, modifyLoop_self]
    rfl
  · unfold view
    rw [hloop]
    rfl

/-- Another place of the thread that looks the same to the connection. -/
theorem view_setPhase_other {l j : Nat} {phase : LoopPhase}
    (hphase : phase.seenBy j = (s.loops l).phase.seenBy j) :
    (s.setPhase l phase).view j = s.view j := by
  have hremoving : (s.setPhase l phase).removing j = s.removing j := removing_modifyLoop rfl
  by_cases hl : l = (s.conns j).loop_
  · subst hl
    have hloop : (s.setPhase (s.conns j).loop_ phase).loopOf j = { s.loopOf j with phase := phase } :=
      loopOf_modifyLoop_self _ rfl
    unfold view
    rw [hloop, hremoving]
    show ({ s.view j with phase := phase.seenBy j } : Session) = _
    rw [hphase]
    rfl
  · have hloop : (s.setPhase l phase).loopOf j = s.loopOf j := loopOf_modifyLoop_of_ne _ hl
    unfold view
    rw [hloop, hremoving]
    rfl

theorem view_setPhase (conn : Nat) (phase : LoopPhase) :
    (s.setPhase (s.conns conn).loop_ phase).view conn =
      { s.view conn with phase := phase.seenBy conn } := by
  have hremoving : (s.setPhase (s.conns conn).loop_ phase).removing conn = s.removing conn :=
    removing_modifyLoop rfl
  have hloop : (s.setPhase (s.conns conn).loop_ phase).loopOf conn =
      { s.loopOf conn with phase := phase } := loopOf_modifyLoop_self _ rfl
  unfold view
  rw [hloop, hremoving]
  rfl

theorem view_setUser (conn : Nat) (user : Option ServerCode) :
    (s.setUser (s.conns conn).loop_ user).view conn =
      { s.view conn with user := user.map (ServerCode.seenBy conn) } := by
  have hremoving : (s.setUser (s.conns conn).loop_ user).removing conn = s.removing conn :=
    removing_modifyLoop rfl
  have hloop : (s.setUser (s.conns conn).loop_ user).loopOf conn =
      { s.loopOf conn with user := user } := loopOf_modifyLoop_self _ rfl
  unfold view
  rw [hloop, hremoving]
  rfl

/-- User code on another loop. -/
theorem view_setUser_of_ne {l j : Nat} (hl : l ≠ (s.conns j).loop_) (user : Option ServerCode) :
    (s.setUser l user).view j = s.view j := by
  have hremoving : (s.setUser l user).removing j = s.removing j := removing_modifyLoop rfl
  have hloop : (s.setUser l user).loopOf j = s.loopOf j := loopOf_modifyLoop_of_ne _ hl
  unfold view
  rw [hloop, hremoving]
  rfl

/-- A batch begins or ends: the functors that wait stay the same. -/
theorem view_setBatch {j : Nat} {phase : LoopPhase} {queue : EventLoop ServerFunctor}
    (hwaiting : queue.waiting = (s.loopOf j).queue.waiting) :
    (s.setBatch (s.conns j).loop_ phase queue).view j =
      { s.view j with
        loop := queue.only (ServerFunctor.ofConnection j)
        phase := phase.seenBy j } := by
  have hremoving : (s.setBatch (s.conns j).loop_ phase queue).removing j = s.removing j := by
    apply removing_modifyLoop
    unfold EventLoop.waitingOf
    rw [hwaiting]
    rfl
  have hloop : (s.setBatch (s.conns j).loop_ phase queue).loopOf j =
      { s.loopOf j with phase := phase, queue := queue } := loopOf_modifyLoop_self _ rfl
  unfold view
  rw [hloop, hremoving]
  rfl

theorem view_setBatch_of_ne {l j : Nat} {phase : LoopPhase} {queue : EventLoop ServerFunctor}
    (hwaiting : queue.waiting = (s.loops l).queue.waiting) (hl : l ≠ (s.conns j).loop_) :
    (s.setBatch l phase queue).view j = s.view j := by
  have hremoving : (s.setBatch l phase queue).removing j = s.removing j := by
    apply removing_modifyLoop
    unfold EventLoop.waitingOf
    rw [hwaiting]
  have hloop : (s.setBatch l phase queue).loopOf j = s.loopOf j := loopOf_modifyLoop_of_ne _ hl
  unfold view
  rw [hloop, hremoving]
  rfl

/-! ## Calls -/

/-- The calls of the loops to a connection. -/
def callsOf (s : ServerRun) (conn : Nat) : List ServerCall := s.calls.filter (·.conn = conn)

@[simp] theorem act_calls (thread conn : Nat) (a : Action) :
    (s.act thread conn a).calls = s.calls := by
  cases a with
  | closeCallback =>
      show (s.removeConnection thread conn).calls = s.calls
      unfold removeConnection
      split <;> rfl
  | _ => rfl

@[simp] theorem acts_calls (thread conn : Nat) (actions : List Action) :
    (s.acts thread conn actions).calls = s.calls := by
  induction actions generalizing s with
  | nil => rfl
  | cons a actions ih => exact ih.trans (act_calls thread conn a)

@[simp] theorem finish_calls (thread conn : Nat) (c : TcpConnection) (actions : List Action)
    (fs : List String) : (s.finish thread conn c actions fs).calls = s.calls :=
  acts_calls ..

theorem callsOf_record_self (thread conn : Nat) (entry : Entry) :
    (s.record thread conn entry).callsOf conn = s.callsOf conn ++ [⟨conn, thread, entry⟩] := by
  unfold callsOf record
  rw [List.filter_append, List.filter_singleton, decide_eq_true rfl]
  rfl

theorem callsOf_record_other {thread conn j : Nat} (hj : j ≠ conn) (entry : Entry) :
    (s.record thread conn entry).callsOf j = s.callsOf j := by
  unfold callsOf record
  rw [List.filter_append, List.filter_singleton, decide_eq_false (Ne.symm hj)]
  exact List.append_nil _

theorem callsOf_recordFunctor_other {thread conn j : Nat} (hj : j ≠ conn) (f : Functor) :
    (s.recordFunctor thread conn f).callsOf j = s.callsOf j := by
  unfold recordFunctor
  split
  · exact callsOf_record_other hj _
  · exact callsOf_record_other hj _
  · rfl

theorem callsOf_recordFunctor_self (thread conn : Nat) (f : Functor) :
    (s.recordFunctor thread conn f).callsOf conn =
      s.callsOf conn ++ (Session.functorEntry f).toList.map (⟨conn, thread, ·⟩) := by
  cases f with
  | connectEstablished => exact callsOf_record_self ..
  | connectDestroyed => exact callsOf_record_self ..
  | _ => exact (List.append_nil _).symm

@[simp] theorem view_record (thread conn : Nat) (entry : Entry) (j : Nat) :
    (s.record thread conn entry).view j = s.view j := rfl

@[simp] theorem view_recordFunctor (thread conn : Nat) (f : Functor) (j : Nat) :
    (s.recordFunctor thread conn f).view j = s.view j := by
  unfold recordFunctor
  split <;> rfl

/-! ## Every step -/

/-- What a connection sees of a step, with the calls that the step records for it. -/
def SeesStep (s s' : ServerRun) (conn : Nat) : Prop :=
  ∃ entry, Session.Sees (s.view conn) entry (s'.view conn) ∧
    s'.callsOf conn = s.callsOf conn ++ entry.toList.map (⟨conn, (s.conns conn).loop_, ·⟩)

theorem sees_quietly {conn : Nat} (hsees : Session.Sees (s.view conn) none (s'.view conn))
    (hcalls : s'.callsOf conn = s.callsOf conn) : s.SeesStep s' conn :=
  ⟨none, hsees, hcalls.trans (List.append_nil _).symm⟩

theorem sees_nothing {conn : Nat} (hview : s'.view conn = s.view conn)
    (hcalls : s'.callsOf conn = s.callsOf conn) : s.SeesStep s' conn :=
  sees_quietly (Session.Sees.nothing.of_eq hview) hcalls

/-- A loop is free at a batch, between callbacks, and in the event of another connection. -/
theorem free_of_at {j : Nat} {phase : LoopPhase} (hat : s.At (s.conns j).loop_ phase)
    (hphase : ∀ rest, phase ≠ .event j rest) : (s.view j).Free := by
  constructor
  · show (s.loops (s.conns j).loop_).phase.seenBy j = _ ∨ (s.loops (s.conns j).loop_).phase.seenBy j = _
    rw [hat.1]
    cases phase with
    | between => exact .inl rfl
    | functors => exact .inr rfl
    | event i rest =>
        left
        apply if_neg
        rintro rfl
        exact hphase rest rfl
  · show (s.loops (s.conns j).loop_).user.map _ = none
    rw [hat.2]
    rfl

/-- A member function of the connection returns; `s₁` is where the threads are then. -/
theorem sees_finish {s₁ : ServerRun} {thread conn : Nat} {e : Session.Event} {c : TcpConnection}
    {actions : List Action} {fs : List String}
    (hbegins : Session.Begins (s.view conn) e (s₁.view conn) c actions fs)
    (hinterested : ∀ revents, e = .handleEvent revents →
      (s.view conn).conn.channel_.isNoneEvent = false)
    (hlocal : s₁.Local thread conn actions) :
    Session.Sees (s.view conn) ((s.view conn).entryOf e)
      ((s₁.finish thread conn c actions fs).view conn) :=
  (Session.Sees.step hbegins hinterested).of_eq (view_finish hlocal)

/-- One of another connection does, which may enter user code when the thread is free. -/
theorem sees_finish_other {s₁ : ServerRun} {thread conn j : Nat} (hj : j ≠ conn) {c : TcpConnection}
    {actions : List Action} {fs : List String} (hview : s₁.view j = s.view j)
    (hloop : (s₁.conns j).loop_ = (s.conns j).loop_)
    (hfree : thread = (s.conns j).loop_ → (∃ cb, .callback cb ∈ actions) → (s.view j).Free) :
    Session.Sees (s.view j) none ((s₁.finish thread conn c actions fs).view j) := by
  rcases view_finish_other (s := s₁) hj with hsame | ⟨hthread, hcb, henter⟩
  · exact Session.Sees.nothing.of_eq (hsame.trans hview)
  · rw [hview] at henter
    exact (Session.sees_enter (hfree (hthread.trans hloop) hcb)).of_eq henter

theorem sees_newConnection {j sockfd : Nat} (hj : j < s.accepted) (hat : s.At 0 .between)
    (hrun : s.newConnection sockfd = some s') : s.SeesStep s' j := by
  have hne : j ≠ s.accepted := Nat.ne_of_lt hj
  have hconn := makeConnection_of_lt hj sockfd
  have hmade : (s.makeConnection sockfd).view j = s.view j := by
    unfold view loopOf
    rw [hconn]
    rfl
  rcases newConnection_inv hrun with ⟨-, c, actions, fs, -, rfl⟩ | ⟨-, rfl⟩
  · refine sees_quietly (sees_finish_other hne hmade (congrArg _ hconn) ?_) ?_
    · intro hthread _
      rw [hthread] at hat
      exact free_of_at hat (fun _ => by simp)
    · unfold callsOf
      rw [finish_calls]
      exact callsOf_record_other hne _
  · refine sees_nothing ((view_queueInLoop_other _ ?_).trans hmade) rfl
    exact Ne.symm hne

theorem recordFunctor_loop (thread conn : Nat) (f : Functor) (j : Nat) :
    ((s.recordFunctor thread conn f).conns j).loop_ = (s.conns j).loop_ := by
  unfold recordFunctor
  split <;> rfl

/-- A functor bound to a member function of a connection. -/
theorem sees_functor (h : s.Placed) {l j conn : Nat} {w : Write} {f : Functor}
    {queue : EventLoop ServerFunctor} {c : TcpConnection} {actions : List Action} {fs : List String}
    (hat : s.At l .functors)
    (hnext : (s.loops l).queue.nextFunctor = some (.connection conn f, queue))
    (hfit : Session.WriteFits w f) (hrun : f.run (s.conns conn).conn w = .ok (c, actions) fs) :
    s.SeesStep (((s.setQueue l queue).recordFunctor l conn f).finish l conn c actions fs) j := by
  have hbelongs : s.Belongs l (.connection conn f) := h.functors l _ (waiting_next hnext).1
  obtain ⟨-, rfl⟩ := hbelongs
  by_cases hj : j = conn
  · subst hj
    obtain ⟨hseen, hview⟩ := view_setQueue hnext
    refine ⟨Session.functorEntry f, ?_, ?_⟩
    · have hentry : (s.view j).entryOf (.runFunctor w) = Session.functorEntry f := by
        unfold Session.entryOf
        rw [hseen]
        rfl
      rw [← hentry]
      refine sees_finish ?_ (by simp) (recordFunctor_local (.inl rfl))
      rw [view_recordFunctor, hview]
      have hfree := free_of_at hat (fun _ => by simp)
      refine .runFunctor ?_ hfree.2 hseen hfit hrun
      show (s.loops _).phase.seenBy j = .functors
      rw [hat.1]
      rfl
    · unfold callsOf
      rw [finish_calls]
      exact callsOf_recordFunctor_self ..
  · have hview := view_setQueue_other hnext (Ne.symm hj)
    refine sees_quietly (sees_finish_other hj ((view_recordFunctor ..).trans hview)
      (recordFunctor_loop ..) ?_) ?_
    · intro hthread _
      rw [hthread] at hat
      exact free_of_at hat (fun _ => by simp)
    · unfold callsOf
      rw [finish_calls]
      exact callsOf_recordFunctor_other hj f

/-- A removal, on the server's own loop. -/
theorem sees_removal (h : s.Placed) {l j conn : Nat} {queue : EventLoop ServerFunctor}
    (hnext : (s.loops l).queue.nextFunctor = some (.removeConnectionInLoop conn, queue)) :
    s.SeesStep ((s.setQueue l queue).removeConnectionInLoop conn) j := by
  have hbelongs : s.Belongs l (.removeConnectionInLoop conn) := h.functors l _ (waiting_next hnext).1
  obtain ⟨-, rfl, hne⟩ := hbelongs
  by_cases hj : j = conn
  · subst hj
    obtain ⟨hremoving, hview⟩ := view_setQueue_removal hne hnext
    have hwaits : 0 < (s.view j).removing := by
      show 0 < s.removing j
      rw [hremoving]
      exact Nat.succ_pos _
    have hless : (s.setQueue 0 queue).removing j = (s.view j).removing - 1 := by
      show _ = s.removing j - 1
      rw [hremoving]
      rfl
    have hsees : Session.Sees (s.view j) none _ :=
      .step (.removeConnectionInLoop hwaits) (by simp)
    refine sees_quietly (hsees.of_eq ?_) rfl
    rw [view_removeConnectionInLoop, hview, hless]
    exact (Session.after_nothing _).symm
  · refine sees_nothing ?_ rfl
    exact (view_removeConnectionInLoop_other hj).trans (view_setQueue_other hnext (Ne.symm hj))

/-- A batch begins or ends, on the connection's loop or on another one. -/
theorem sees_batch {l j : Nat} {phase : LoopPhase} {queue : EventLoop ServerFunctor}
    (hwaiting : queue.waiting = (s.loops l).queue.waiting)
    (hown : l = (s.conns j).loop_ → Session.Sees (s.view j) none
      { s.view j with
        loop := queue.only (ServerFunctor.ofConnection j)
        phase := phase.seenBy j }) : s.SeesStep (s.setBatch l phase queue) j := by
  by_cases hl : l = (s.conns j).loop_
  · have hsees := hown hl
    subst hl
    exact sees_quietly (hsees.of_eq (view_setBatch hwaiting)) rfl
  · exact sees_nothing (view_setBatch_of_ne hwaiting hl) rfl

/-- The loop goes on in a connection's event, or into it or out of it: another connection sees
    nothing of the phase. -/
theorem sees_event_other {s₁ : ServerRun} {l j conn : Nat} (hj : j ≠ conn) {phase phase' : LoopPhase}
    (hat : s.At l phase) (hphase : phase.seenBy j = .between) (hphase' : phase'.seenBy j = .between)
    (hview : s₁.view j = (s.setPhase l phase').view j) (hconns : s₁.conns = s.conns)
    {c : TcpConnection} {actions : List Action} {fs : List String} :
    Session.Sees (s.view j) none ((s₁.finish l conn c actions fs).view j) := by
  have hsame : (s.setPhase l phase').view j = s.view j := by
    apply view_setPhase_other
    rw [hat.1, hphase, hphase']
  refine sees_finish_other hj (hview.trans hsame) (by rw [hconns]) ?_
  intro hthread _
  rw [hthread] at hat
  refine free_of_at hat ?_
  rintro rest rfl
  rw [LoopPhase.seenBy_event_self] at hphase
  cases hphase

theorem sees_handleEvent {conn j : Nat} {revents : Revents} (hat : s.At (s.conns conn).loop_ .between)
    (hdelivers : (s.conns conn).conn.channel_.Delivers revents)
    (hinterested : (s.conns conn).conn.channel_.isNoneEvent = false) :
    s.SeesStep ((s.setPhase (s.conns conn).loop_ (.event conn (Channel.handleEventWithGuard revents))).finish
      (s.conns conn).loop_ conn
      { (s.conns conn).conn with channel_ := (s.conns conn).conn.channel_.beginEvent } [] []) j := by
  refine sees_quietly ?_ rfl
  by_cases hj : j = conn
  · subst hj
    have hphase : (s.view j).phase = .between := by
      show (s.loops _).phase.seenBy j = .between
      rw [hat.1]
      rfl
    have hbegins := Session.Begins.handleEvent hphase (free_of_at hat fun _ => by simp).2 hdelivers
    refine sees_finish (hbegins.of_eq ?_) (fun _ _ => hinterested) (.inl rfl)
    rw [view_setPhase, LoopPhase.seenBy_event_self]
  · exact sees_event_other hj hat rfl (LoopPhase.seenBy_event_other hj _) rfl rfl

theorem sees_runCallback (h : s.Placed) {l j conn : Nat} {r : Buffer.Readv} {w : Write}
    {cb : EventCallback} {rest : List EventCallback} {c : TcpConnection} {actions : List Action}
    {fs : List String} (hat : s.At l (.event conn (cb :: rest)))
    (hrfit : r.Fits (s.conns conn).conn.inputBuffer_)
    (hwfit : w.Fits (s.conns conn).conn.outputBuffer_.readable.length)
    (hrun : (s.conns conn).conn.handleEvent cb r w = .ok (c, actions) fs) :
    s.SeesStep (((s.setPhase l (.event conn rest)).record l conn (.handleEvent cb)).finish l conn c
      actions fs) j := by
  obtain ⟨-, rfl⟩ := h.event _ _ _ hat.1
  by_cases hj : j = conn
  · subst hj
    have hphase : (s.view j).phase = .event (cb :: rest) := by
      show (s.loops _).phase.seenBy j = _
      rw [hat.1, LoopPhase.seenBy_event_self]
    have huser : (s.view j).user = none := by
      show (s.loops _).user.map _ = none
      rw [hat.2]
      rfl
    have hentry : (s.view j).entryOf (.runCallback r w) = some (.handleEvent cb) := by
      unfold Session.entryOf
      rw [hphase]
    refine ⟨some (.handleEvent cb), ?_, ?_⟩
    · rw [← hentry]
      have hbegins : Session.Begins (s.view j) (.runCallback r w) _ c actions fs :=
        .runCallback hphase huser hrfit hwfit hrun
      refine sees_finish (hbegins.of_eq ?_) (by simp) (.inl rfl)
      rw [view_record, view_setPhase, LoopPhase.seenBy_event_self]
    · unfold callsOf
      rw [finish_calls]
      exact callsOf_record_self ..
  · refine sees_quietly ?_ ?_
    · have hother := LoopPhase.seenBy_event_other hj
      exact sees_event_other hj hat (hother _) (hother rest) (view_record ..) rfl
    · unfold callsOf
      rw [finish_calls]
      exact callsOf_record_other hj _

theorem sees_endEvent (h : s.Placed) {l j conn : Nat} (hat : s.At l (.event conn [])) :
    s.SeesStep ((s.setPhase l .between).finish l conn
      { (s.conns conn).conn with channel_ := (s.conns conn).conn.channel_.endEvent } [] []) j := by
  obtain ⟨-, rfl⟩ := h.event _ _ _ hat.1
  refine sees_quietly ?_ rfl
  by_cases hj : j = conn
  · subst hj
    have hphase : (s.view j).phase = .event [] := by
      show (s.loops _).phase.seenBy j = _
      rw [hat.1, LoopPhase.seenBy_event_self]
    have huser : (s.view j).user = none := by
      show (s.loops _).user.map _ = none
      rw [hat.2]
      rfl
    have hbegins : Session.Begins (s.view j) .endEvent _ _ [] [] := .endEvent hphase huser
    exact sees_finish (hbegins.of_eq (view_setPhase j .between)) (by simp) (.inl rfl)
  · exact sees_event_other hj hat (LoopPhase.seenBy_event_other hj _) rfl rfl rfl

/-- User code that is not in the middle of `connectDestroyed` returns. -/
theorem sees_leaveUser {l j : Nat} {code : ServerCode} (hinside : (s.loops l).user = some code)
    (hdown : code.seenBy j ≠ .callback (.connection false)) :
    Session.Sees (s.view j) none ((s.setUser l none).view j) := by
  by_cases hl : l = (s.conns j).loop_
  · subst hl
    have huser : (s.view j).user = some (code.seenBy j) := by
      show (s.loops _).user.map _ = _
      rw [hinside]
      rfl
    exact (Session.sees_leave huser hdown).of_eq (view_setUser j none)
  · exact Session.Sees.nothing.of_eq (view_setUser_of_ne hl none)

/-- A call that returns leaves the threads where they are. -/
theorem sees_call {j conn thread : Nat} {e : Session.Event} {c : TcpConnection}
    {actions : List Action} {fs : List String}
    (hbegins : Session.Begins (s.view conn) e (s.view conn) c actions fs)
    (hentry : (s.view conn).entryOf e = none) (hinterested : ∀ revents, e ≠ .handleEvent revents)
    (hlocal : s.Local thread conn actions) (hquiet : ∀ cb, .callback cb ∉ actions) :
    s.SeesStep (s.finish thread conn c actions fs) j := by
  have hcalls : (s.finish thread conn c actions fs).callsOf j = s.callsOf j := by
    unfold callsOf
    rw [finish_calls]
  refine sees_quietly ?_ hcalls
  by_cases hj : j = conn
  · subst hj
    rw [← hentry]
    exact sees_finish hbegins (fun revents he => absurd he (hinterested revents)) hlocal
  · exact sees_finish_other hj rfl rfl fun _ ⟨cb, hcb⟩ => absurd hcb (hquiet cb)

/-- `send` and `shutdown` call no user code themselves. -/
theorem quiet_send {c c' : TcpConnection} (hsound : c.Sound) {caller : Thread} {message : Message}
    {w : Write} (hfit : w.Fits message.bytes.length) {actions : List Action} {fs : List String}
    (hrun : c.send caller message w = .ok (c', actions) fs) (cb : Callback) :
    .callback cb ∉ actions := by
  intro hcb
  rcases send_spec hrun with ⟨-, -, rfl, -⟩ | ⟨-, -, sent, hsend, rfl⟩ | ⟨-, -, -, -, rfl⟩
  · exact absurd hcb List.not_mem_nil
  · obtain ⟨-, direct, rest, hsent⟩ := sendInLoop_spec hsound hfit hsend
    rcases List.mem_cons.mp hcb with heq | hcb
    · cases heq
    · rcases hsent.mem_actions hcb with heq | ⟨_, -, heq⟩ | heq | ⟨_, heq⟩ <;> cases heq
  · simp at hcb

theorem quiet_shutdown {c c' : TcpConnection} {caller : Thread} {actions : List Action}
    {fs : List String} (hrun : c.shutdown caller = .ok (c', actions) fs) (cb : Callback) :
    .callback cb ∉ actions := by
  intro hcb
  obtain ⟨-, ⟨-, -, rfl⟩ | ⟨-, -, rfl⟩⟩ := shutdown_spec hrun
  · exact absurd hcb List.not_mem_nil
  · rcases List.mem_cons.mp hcb with heq | hcb
    · cases heq
    · unfold shutdownInLoop at hcb
      split at hcb
      · split at hcb <;> simp at hcb
      · simp at hcb

/-- Users call on the thread of a loop from user code only. -/
theorem mayCall_view (h : s.Placed) {thread conn : Nat} (hmay : s.MayCall thread conn) :
    (s.view conn).MayCall (s.threadFor conn thread) := by
  obtain ⟨hlt, -, hinside⟩ := hmay
  intro hcaller
  unfold threadFor at hcaller
  split at hcaller
  · rename_i hthread
    rw [hthread] at hinside
    show ((s.loops (s.conns conn).loop_).user.map _).isSome = true
    rw [Option.isSome_map]
    exact hinside (h.isLoop conn hlt)
  · cases hcaller

theorem inMessageCallback_view {conn : Nat}
    (hin : s.inMessageCallback (s.conns conn).loop_ = some conn) :
    (s.view conn).inMessageCallback = true := by
  unfold inMessageCallback at hin
  split at hin
  · rename_i conn' arrived readable huser
    obtain rfl := Option.some.inj hin
    have hview : (s.view conn').user = some (.callback (.message arrived readable)) := by
      show (s.loops _).user.map _ = _
      rw [huser]
      exact congrArg some (if_pos rfl)
    unfold Session.inMessageCallback
    rw [hview]
  · cases hin

theorem sees_leaveDown (h : s.Placed) {l j conn : Nat} {c : TcpConnection} {actions : List Action}
    {fs : List String} (hinside : (s.loops l).user = some (.callback conn (.connection false)))
    (hrun : (s.conns conn).conn.removeChannel = .ok (c, actions) fs) :
    s.SeesStep ((s.setUser l none).finish l conn c actions fs) j := by
  obtain ⟨-, rfl⟩ := h.user _ _ _ hinside
  have hcalls : ((s.setUser (s.conns conn).loop_ none).finish (s.conns conn).loop_ conn c actions
      fs).callsOf j = s.callsOf j := by
    unfold callsOf
    rw [finish_calls]
    rfl
  refine sees_quietly ?_ hcalls
  by_cases hj : j = conn
  · subst hj
    have huser : (s.view j).user = some (.callback (.connection false)) := by
      show (s.loops _).user.map _ = _
      rw [hinside]
      exact congrArg some (if_pos rfl)
    have hbegins := Session.Begins.leaveDown huser hrun
    exact sees_finish (hbegins.of_eq (view_setUser j none)) (by simp) (.inl rfl)
  · have hother : (ServerCode.callback conn (.connection false)).seenBy j = .other :=
      if_neg (Ne.symm hj)
    have hnot : (ServerCode.callback conn (.connection false)).seenBy j ≠
        .callback (.connection false) := by
      rw [hother]
      simp
    have hleave := sees_leaveUser hinside hnot
    have hnothing : actions = [] := by
      obtain ⟨channel, _, _, _, hret, _⟩ := Outcome.bind_eq_ok hrun
      exact (congrArg Prod.snd (Outcome.ok.inj hret).1).symm
    subst hnothing
    rcases view_finish_other (s := s.setUser (s.conns conn).loop_ none) hj with
      hsame | ⟨-, ⟨cb, hcb⟩, -⟩
    · exact hleave.of_eq hsame
    · exact absurd hcb List.not_mem_nil

/-- **Every step of a server is seen by every connection** as nothing or as a step of a session. -/
theorem sees_step (h : s.Placed) (hwired : ∀ conn < s.accepted, (s.view conn).Wired) {e : Event}
    (hstep : s.step e = some s') {j : Nat} (hj : j < s.accepted) : s.SeesStep s' j := by
  cases step_inv hstep with
  | refuse => exact sees_nothing rfl rfl
  | newConnection hat hrun => exact sees_newConnection hj hat hrun
  | @doPendingFunctors l _ hat =>
      have hrest := h.rest l (by rw [hat.1]; simp)
      -- a batch is taken on one loop; connections on other loops see nothing
      refine sees_batch (EventLoop.waiting_swapFunctors hrest) ?_
      rintro rfl
      refine (Session.Sees.step (.doPendingFunctors ?_ (free_of_at hat fun _ => by simp).2) (by simp)).of_eq
        (Session.after_nothing _).symm
      show (s.loops _).phase.seenBy j = .between
      rw [hat.1]
      rfl
  | runFunctor hat hnext hfit hrun => exact sees_functor h hat hnext hfit hrun
  | runRemoval hat hnext => exact sees_removal h hnext
  | runUser hat hnext => exact sees_nothing (view_setQueue_other hnext id) rfl
  | @endFunctors l hat hdone =>
      refine sees_batch (EventLoop.waiting_endFunctors hdone) ?_
      rintro rfl
      refine (Session.Sees.step (.endFunctors ?_ (free_of_at hat fun _ => by simp).2 ?_) (by simp)).of_eq
        (Session.after_nothing _).symm
      · show (s.loops _).phase.seenBy j = .functors
        rw [hat.1]
        rfl
      · show (s.loops _).queue.rest.filterMap _ = []
        rw [hdone]
        rfl
  | handleEvent hlt hat hdelivers hinterested => exact sees_handleEvent hat hdelivers hinterested
  | runCallback hat hrfit hwfit hrun => exact sees_runCallback h hat hrfit hwfit hrun
  | endEvent hat => exact sees_endEvent h hat
  | @enterUser l _ hat =>
      refine sees_quietly ?_ rfl
      -- user code on another loop is nothing to connection `j`
      by_cases hl : l = (s.conns j).loop_
      · subst hl
        refine (Session.sees_enter ?_).of_eq (view_setUser j (some .other))
        rcases hat with hat | hat
        · exact free_of_at hat fun _ => by simp
        · exact free_of_at hat fun _ => by simp
      · exact Session.Sees.nothing.of_eq (view_setUser_of_ne hl _)
  | leaveDown hinside hrun => exact sees_leaveDown h hinside hrun
  | @leaveUser l code hinside hnot =>
      refine sees_quietly (sees_leaveUser hinside ?_) rfl
      intro hseen
      -- a callback of another connection is some other code to `j`
      cases code with
      | callback conn cb =>
          simp only [ServerCode.seenBy] at hseen
          split at hseen
          · obtain rfl := UserCode.callback.inj hseen
            exact hnot conn rfl
          · cases hseen
      | other => cases hseen
  | send hmay hfit hrun =>
      refine sees_call (.send (mayCall_view h hmay) hfit hrun) rfl (by simp) (local_send hrun) ?_
      exact quiet_send (hwired _ hmay.1).sound hfit hrun
  | shutdown hmay hrun =>
      refine sees_call (.shutdown (mayCall_view h hmay) hrun) rfl (by simp) (local_shutdown hrun) ?_
      exact quiet_shutdown hrun
  | useInput hin hallowed hrun =>
      obtain ⟨-, rfl⟩ := local_of_inMessageCallback h hin
      exact sees_call (.useInput (inMessageCallback_view hin) hallowed hrun) rfl (by simp) (.inl rfl)
        fun _ => List.not_mem_nil
  | swapInput hin hvalid =>
      obtain ⟨-, rfl⟩ := local_of_inMessageCallback h hin
      exact sees_call (.swapInput (inMessageCallback_view hin) hvalid) rfl (by simp) (.inl rfl)
        fun _ => List.not_mem_nil
  | setWriteCompleteCallback hloop hmay =>
      have hinside := mayCall_view h hmay (if_pos rfl)
      exact sees_call (.setWriteCompleteCallback hinside) rfl (by simp) (.inl rfl)
        fun _ => List.not_mem_nil
  | setHighWaterMarkCallback hloop hmay =>
      have hinside := mayCall_view h hmay (if_pos rfl)
      exact sees_call (.setHighWaterMarkCallback hinside) rfl (by simp) (.inl rfl)
        fun _ => List.not_mem_nil
  | destroy _ _ => exact sees_nothing rfl rfl

/-! ## New connections -/

theorem made_view (h : s.Placed) (sockfd : Nat) :
    ((s.makeConnection sockfd).view s.accepted).Made := by
  have hself := makeConnection_self (s := s) sockfd
  have hunmade := h.unmade (s.server.threadPool_.getNextLoop.1) (Nat.le_refl s.accepted)
  have hloop : (s.makeConnection sockfd).loopOf s.accepted =
      s.loops s.server.threadPool_.getNextLoop.1 := by
    unfold loopOf
    rw [hself]
    rfl
  refine ⟨⟨sockfd, s.server.writeCompleteCallback_, ?_⟩, ?_, ?_, ?_, ?_, ⟨?_, ?_⟩, ?_⟩
  · show ((s.makeConnection sockfd).conns s.accepted).conn = _
    rw [hself]
  · show (((s.makeConnection sockfd).loopOf s.accepted).queue.only _).waiting = []
    rw [hloop, EventLoop.waiting_only]
    exact hunmade.1
  · exact congrArg List.length (h.unmade 0 (Nat.le_refl s.accepted)).2.1
  · show ((s.makeConnection sockfd).conns s.accepted).trace = []
    rw [hself]
  · show ((s.makeConnection sockfd).conns s.accepted).failed = []
    rw [hself]
  · show ((s.makeConnection sockfd).loopOf s.accepted).phase.seenBy s.accepted ≠ _
    rw [hloop]
    unfold LoopPhase.seenBy
    split <;> (try split) <;> nofun
  · -- an event on this loop is one of an older connection
    intro rest
    show ((s.makeConnection sockfd).loopOf s.accepted).phase.seenBy s.accepted ≠ _
    rw [hloop]
    intro hphase
    cases hp : (s.loops s.server.threadPool_.getNextLoop.1).phase with
    | between => exact absurd (hp ▸ hphase) (by rintro ⟨⟩)
    | functors => exact absurd (hp ▸ hphase) (by rintro ⟨⟩)
    | event i rest' =>
        have hi : s.accepted ≠ i := by
          rintro rfl
          exact hunmade.2.2.1 rest' hp
        rw [hp, LoopPhase.seenBy_event_other hi] at hphase
        cases hphase
  · show ((s.makeConnection sockfd).loopOf s.accepted).user.map _ ≠ _
    rw [hloop]
    intro huser
    -- and so is the callback that may be running there
    obtain ⟨code, hcode, hseen⟩ := Option.map_eq_some_iff.mp huser
    cases code with
    | callback i cb =>
        simp only [ServerCode.seenBy] at hseen
        split at hseen
        · rename_i hi
          exact hunmade.2.2.2 cb (hi ▸ hcode)
        · cases hseen
    | other => cases hseen

/-- **A new connection** is one whose `connectEstablished` is on its way, and at most that has run. -/
theorem made_sees (h : s.Placed) {sockfd : Nat} (hcalls : s.callsOf s.accepted = [])
    (hat : s.At 0 .between) (hrun : s.newConnection sockfd = some s') :
    ∃ v entry, v.Opening ∧ Session.Sees v entry (s'.view s.accepted) ∧
      s'.callsOf s.accepted =
        entry.toList.map (⟨s.accepted, (s'.conns s.accepted).loop_, ·⟩) := by
  have hmade := made_view h sockfd
  rcases newConnection_inv hrun with ⟨hbase, c, actions, fs, hcall, rfl⟩ | ⟨hne, rfl⟩
  · have hphase : ((s.makeConnection sockfd).view s.accepted).phase = .between := by
      show ((s.makeConnection sockfd).loops _).phase.seenBy _ = _
      rw [hbase]
      show (s.loops 0).phase.seenBy _ = _
      rw [hat.1]
      rfl
    refine ⟨_, some .connectEstablished, hmade.calling,
      (Session.sees_established hphase hcall).of_eq ?_, ?_⟩
    · exact view_finish (s := (s.makeConnection sockfd).record 0 s.accepted .connectEstablished)
        (.inl hbase.symm)
    · have hloop : ((((s.makeConnection sockfd).record 0 s.accepted .connectEstablished).finish 0
          s.accepted c actions fs).conns s.accepted).loop_ = 0 := by
        rw [finish_loop]
        exact hbase
      have hrecorded := callsOf_record_self (s := s.makeConnection sockfd) 0 s.accepted
        .connectEstablished
      rw [hloop]
      unfold callsOf
      rw [finish_calls]
      exact hrecorded.trans (congrArg (· ++ _) hcalls)
  · refine ⟨_, none, hmade.queued, Session.Sees.nothing.of_eq ?_, hcalls⟩
    exact view_queueInLoop_connection _ _

/-- The loops call connections that were made. -/
def CallsMade (s : ServerRun) : Prop := ∀ conn, s.accepted ≤ conn → s.callsOf conn = []

theorem CallsMade.finish (h : s.CallsMade) {thread conn : Nat} {c : TcpConnection}
    {actions : List Action} {fs : List String} : (s.finish thread conn c actions fs).CallsMade := by
  intro j hj
  rw [finish_accepted] at hj
  unfold callsOf
  rw [finish_calls]
  exact h j hj

theorem CallsMade.record (h : s.CallsMade) {thread conn : Nat} (hlt : conn < s.accepted)
    (entry : Entry) : (s.record thread conn entry).CallsMade := by
  intro j hj
  rw [callsOf_record_other (Nat.ne_of_gt (Nat.lt_of_lt_of_le hlt hj))]
  exact h j hj

theorem CallsMade.step (h : s.CallsMade) (hplaced : s.Placed) {e : Event}
    (hstep : s.step e = some s') : s'.CallsMade := by
  cases step_inv hstep with
  | @newConnection sockfd _ _ hrun =>
      have hmade : (s.makeConnection sockfd).CallsMade :=
        fun j hj => h j (Nat.le_of_succ_le hj)
      rcases newConnection_inv hrun with ⟨-, c, actions, fs, -, rfl⟩ | ⟨-, rfl⟩
      · exact (hmade.record (Nat.lt_succ_self _) _).finish
      · exact hmade
  | runFunctor _ hnext _ _ =>
      obtain ⟨hlt, -⟩ := hplaced.functors _ _ (waiting_next hnext).1
      refine CallsMade.finish ?_
      intro j hj
      rw [recordFunctor_accepted] at hj
      rw [callsOf_recordFunctor_other (Nat.ne_of_gt (Nat.lt_of_lt_of_le hlt hj))]
      exact h j hj
  | @runCallback l _ _ conn _ rest _ _ _ hat _ _ _ =>
      have hphase : (s.setPhase l (.event conn rest)).CallsMade := h
      exact (hphase.record (hplaced.event _ _ _ hat.1).1 _).finish
  | @handleEvent conn revents _ _ _ _ =>
      have hphase : (s.setPhase (s.conns conn).loop_
        (.event conn (Channel.handleEventWithGuard revents))).CallsMade := h
      exact hphase.finish
  | @endEvent l _ _ =>
      have hphase : (s.setPhase l .between).CallsMade := h
      exact hphase.finish
  | @leaveDown l _ _ _ _ _ _ =>
      have huser : (s.setUser l none).CallsMade := h
      exact huser.finish
  | send _ _ _ => exact h.finish
  | shutdown _ _ => exact h.finish
  | useInput _ _ _ => exact h.finish
  | swapInput _ _ => exact h.finish
  | setWriteCompleteCallback _ _ => exact h.finish
  | setHighWaterMarkCallback _ _ => exact h.finish
  | _ => exact h

end ServerRun

end Simplev
