import Simplev.Net.Correctness.Callbacks
import Simplev.Net.TcpServer

/-!
# `Net.TcpServerViews` — the connections of a server, one by one

`view` is what `Net.Session` keeps of one connection: the functors of that connection on its loop, and the
thread of the loop as that connection meets it. A step of the server that runs a member function of a
connection is a step of that connection's view; to every other view it is, at most, other user
code on the thread. `Placed` says that what a loop runs is of its own connections.
-/

namespace Simplev

open Foundation TcpConnection

/-- The phase of a loop, to one of its connections. -/
def LoopPhase.seenBy (conn : Nat) : LoopPhase → Phase
  | between => .between
  | functors => .functors
  | event i rest => if i = conn then .event rest else .between

/-- User code on a loop, to one of its connections. -/
def ServerCode.seenBy (conn : Nat) : ServerCode → UserCode
  | callback i cb => if i = conn then .callback cb else .other
  | other => .other

/-- A functor bound to another connection is no functor of this one. -/
theorem ServerFunctor.of_not_binds {g : ServerFunctor} {conn : Nat} (hg : ¬ g.Binds conn) :
    g.ofConnection conn = none ∧ g.ofRemoval conn = none := by
  cases g with
  | connection i f => exact ⟨if_neg hg, rfl⟩
  | removeConnectionInLoop i => exact ⟨rfl, if_neg hg⟩
  | user id => exact ⟨rfl, rfl⟩

namespace ServerRun

variable {s s' : ServerRun}

/-- The removals of a connection that wait in the server's own loop. -/
def removing (s : ServerRun) (conn : Nat) : Nat :=
  ((s.loops 0).queue.waitingOf (ServerFunctor.ofRemoval conn)).length

/-- The loop of a connection. -/
def loopOf (s : ServerRun) (conn : Nat) : IoLoop := s.loops (s.conns conn).loop_

def view (s : ServerRun) (conn : Nat) : Session where
  conn := (s.conns conn).conn
  loop := (s.loopOf conn).queue.only (ServerFunctor.ofConnection conn)
  owner := .tcpServer ((s.conns conn).loop_ = 0)
  phase := (s.loopOf conn).phase.seenBy conn
  user := (s.loopOf conn).user.map (ServerCode.seenBy conn)
  removing := s.removing conn
  trace := (s.conns conn).trace
  failed := (s.conns conn).failed

/-! ## What changes a view -/

@[simp] theorem modifyLoop_conns (l : Nat) (f : IoLoop → IoLoop) :
    (s.modifyLoop l f).conns = s.conns := rfl

@[simp] theorem queueInLoop_conns (l : Nat) (g : ServerFunctor) :
    (s.queueInLoop l g).conns = s.conns := rfl

theorem modifyLoop_self (l : Nat) (f : IoLoop → IoLoop) :
    (s.modifyLoop l f).loops l = f (s.loops l) :=
  Function.update_self ..

theorem modifyLoop_of_ne {l k : Nat} (f : IoLoop → IoLoop) (h : k ≠ l) :
    (s.modifyLoop l f).loops k = s.loops k :=
  Function.update_of_ne h ..

theorem queueInLoop_self (l : Nat) (g : ServerFunctor) :
    (s.queueInLoop l g).loops l =
      { s.loops l with queue := (s.loops l).queue.queueInLoop g } :=
  modifyLoop_self ..

theorem queueInLoop_of_ne {l k : Nat} (g : ServerFunctor) (h : k ≠ l) :
    (s.queueInLoop l g).loops k = s.loops k :=
  modifyLoop_of_ne _ h

/-- Another functor in a queue. -/
theorem removing_queueInLoop (l : Nat) (g : ServerFunctor) (j : Nat) :
    (s.queueInLoop l g).removing j =
      s.removing j + if l = 0 then (g.ofRemoval j).toList.length else 0 := by
  unfold removing
  by_cases hl : l = 0
  · subst hl
    rw [if_pos rfl, queueInLoop_self, ← List.length_append]
    exact congrArg List.length (EventLoop.waitingOf_queueInLoop _ _ _)
  · rw [if_neg hl, queueInLoop_of_ne g (Ne.symm hl)]
    rfl

theorem view_queueInLoop (l : Nat) (g : ServerFunctor) (j : Nat) :
    (s.queueInLoop l g).view j =
      { s.view j with
        loop := (s.view j).loop.queueAll
          (if l = (s.conns j).loop_ then (g.ofConnection j).toList else [])
        removing := s.removing j + if l = 0 then (g.ofRemoval j).toList.length else 0 } := by
  by_cases hl : l = (s.conns j).loop_
  · subst hl
    have hloop : (s.queueInLoop (s.conns j).loop_ g).loopOf j =
        { s.loopOf j with queue := (s.loopOf j).queue.queueInLoop g } := queueInLoop_self ..
    unfold view
    rw [removing_queueInLoop, hloop, if_pos rfl, EventLoop.only_queueInLoop]
    rfl
  · have hloop : (s.queueInLoop l g).loopOf j = s.loopOf j := queueInLoop_of_ne g (Ne.symm hl)
    unfold view
    rw [removing_queueInLoop, hloop, if_neg hl, EventLoop.queueAll, List.append_nil]
    rfl

/-- A functor bound to another connection. -/
theorem view_queueInLoop_other (l : Nat) {g : ServerFunctor} {j : Nat} (hg : ¬ g.Binds j) :
    (s.queueInLoop l g).view j = s.view j := by
  have hnone := ServerFunctor.of_not_binds hg
  rw [view_queueInLoop, hnone.1, hnone.2]
  simp only [Option.toList_none, ite_self, EventLoop.queueAll_nil, List.length_nil, Nat.add_zero]
  rfl

theorem view_queueInLoop_connection (conn : Nat) (f : Functor) :
    (s.queueInLoop (s.conns conn).loop_ (.connection conn f)).view conn =
      { s.view conn with loop := (s.view conn).loop.queueAll [f] } := by
  have hf : (ServerFunctor.connection conn f).ofConnection conn = some f := if_pos rfl
  have hnone : (ServerFunctor.connection conn f).ofRemoval conn = none := rfl
  rw [view_queueInLoop, hf, hnone, if_pos rfl]
  simp only [Option.toList_none, List.length_nil, ite_self, Nat.add_zero]
  rfl

theorem view_queueInLoop_removal {conn : Nat} (h : (s.conns conn).loop_ ≠ 0) :
    (s.queueInLoop 0 (.removeConnectionInLoop conn)).view conn =
      { s.view conn with removing := s.removing conn + 1 } := by
  have hremoval : (ServerFunctor.removeConnectionInLoop conn).ofRemoval conn = some () := if_pos rfl
  rw [view_queueInLoop, hremoval, if_neg (Ne.symm h), if_pos rfl, EventLoop.queueAll_nil]
  rfl

/-! ## The actions of a member function -/

@[simp] theorem removeConnectionInLoop_conns (conn : Nat) :
    (s.removeConnectionInLoop conn).conns = s.conns := rfl

@[simp] theorem act_conns (thread conn : Nat) (a : Action) :
    (s.act thread conn a).conns = s.conns := by
  cases a with
  | closeCallback =>
      show (s.removeConnection thread conn).conns = s.conns
      unfold removeConnection
      split <;> rfl
  | _ => rfl

/-- The removal of a connection sends `connectDestroyed` to its loop. -/
theorem view_removeConnectionInLoop (conn : Nat) :
    (s.removeConnectionInLoop conn).view conn =
      { s.view conn with loop := (s.view conn).loop.queueAll [.connectDestroyed] } :=
  (s.takeOut conn).view_queueInLoop_connection conn .connectDestroyed

theorem view_removeConnectionInLoop_other {conn j : Nat} (hj : j ≠ conn) :
    (s.removeConnectionInLoop conn).view j = s.view j :=
  view_queueInLoop_other _ (Ne.symm hj)

/-- To the connection itself an action is what it is in `Net.Session`. -/
theorem view_act {thread conn : Nat} {a : Action}
    (hclose : a = .closeCallback → thread = (s.conns conn).loop_) :
    (s.act thread conn a).view conn =
      { s.view conn with
        loop := (s.view conn).loop.queueAll (Session.queuedBy (s.view conn).owner a)
        removing := s.removing conn + Session.removalsBy (s.view conn).owner a } := by
  have hnothing : s.view conn = { s.view conn with loop := (s.view conn).loop.queueAll [] } := by
    rw [EventLoop.queueAll_nil]
  cases a with
  | queueInLoop f => exact view_queueInLoop_connection conn f
  | closeCallback =>
      have hthread := hclose rfl
      show (s.removeConnection thread conn).view conn = _
      unfold removeConnection Session.queuedBy Session.removalsBy
      by_cases hbase : thread = 0
      · have hsame : (s.view conn).owner.sameLoop = true :=
          decide_eq_true (hthread.symm.trans hbase)
        simp only [if_pos hbase, hsame, if_true]
        exact view_removeConnectionInLoop conn
      · have hne : (s.conns conn).loop_ ≠ 0 := fun h => hbase (hthread.trans h)
        have hsame : (s.view conn).owner.sameLoop = false := decide_eq_false hne
        simp only [if_neg hbase, hsame, Bool.false_eq_true, if_false, EventLoop.queueAll_nil]
        exact view_queueInLoop_removal hne
  | _ => exact hnothing

theorem view_act_other {thread conn j : Nat} (hj : j ≠ conn) (a : Action) :
    (s.act thread conn a).view j = s.view j := by
  cases a with
  | queueInLoop f => exact view_queueInLoop_other _ (Ne.symm hj)
  | closeCallback =>
      show (s.removeConnection thread conn).view j = s.view j
      unfold removeConnection
      split
      · exact view_removeConnectionInLoop_other hj
      · exact view_queueInLoop_other _ (Ne.symm hj)
  | _ => rfl

theorem acts_conns (thread conn : Nat) (actions : List Action) :
    (s.acts thread conn actions).conns = s.conns := by
  induction actions generalizing s with
  | nil => rfl
  | cons a actions ih => exact ih.trans (act_conns thread conn a)

theorem view_acts {thread conn : Nat} {actions : List Action}
    (hclose : .closeCallback ∈ actions → thread = (s.conns conn).loop_) :
    (s.acts thread conn actions).view conn =
      { s.view conn with
        loop := (s.view conn).loop.queueAll
          (actions.flatMap (Session.queuedBy (s.view conn).owner))
        removing := s.removing conn +
          (actions.map (Session.removalsBy (s.view conn).owner)).sum } := by
  induction actions generalizing s with
  | nil =>
      rw [List.flatMap_nil, EventLoop.queueAll_nil]
      rfl
  | cons a actions ih =>
      have hact : (s.act thread conn a).view conn = _ :=
        view_act fun ha => hclose (ha ▸ List.mem_cons_self)
      have hremoving : (s.act thread conn a).removing conn =
          s.removing conn + Session.removalsBy (s.view conn).owner a :=
        congrArg Session.removing hact
      have hcons : s.acts thread conn (a :: actions) = (s.act thread conn a).acts thread conn actions := rfl
      rw [hcons, ih, hremoving, hact]
      · simp only [List.flatMap_cons, EventLoop.queueAll_append, List.map_cons, List.sum_cons,
          Nat.add_assoc]
      · intro hmem
        rw [act_conns]
        exact hclose (List.mem_cons_of_mem _ hmem)

theorem view_acts_other {thread conn j : Nat} (hj : j ≠ conn) (actions : List Action) :
    (s.acts thread conn actions).view j = s.view j := by
  induction actions generalizing s with
  | nil => rfl
  | cons a actions ih => exact ih.trans (view_act_other hj a)

/-! ## A member function returns -/

theorem loopOf_modifyLoop_self {l j : Nat} (f : IoLoop → IoLoop) (h : l = (s.conns j).loop_) :
    (s.modifyLoop l f).loopOf j = f (s.loopOf j) := by
  subst h
  exact modifyLoop_self ..

theorem loopOf_modifyLoop_of_ne {l j : Nat} (f : IoLoop → IoLoop) (h : l ≠ (s.conns j).loop_) :
    (s.modifyLoop l f).loopOf j = s.loopOf j :=
  modifyLoop_of_ne f (Ne.symm h)

theorem removing_modifyLoop {l : Nat} {f : IoLoop → IoLoop} {j : Nat}
    (h : (f (s.loops l)).queue.waitingOf (ServerFunctor.ofRemoval j) =
      (s.loops l).queue.waitingOf (ServerFunctor.ofRemoval j)) :
    (s.modifyLoop l f).removing j = s.removing j := by
  unfold removing
  by_cases hl : l = 0
  · subst hl
    rw [modifyLoop_self, h]
  · rw [modifyLoop_of_ne f (Ne.symm hl)]

/-- The user code an action enters, to the connection itself and to another one. -/
theorem seenBy_entersUser (conn : Nat) (actions : List Action) :
    (actions.findSome? (entersUser conn)).map (ServerCode.seenBy conn) =
      actions.findSome? Session.entersUser := by
  rw [List.map_findSome?]
  congr 1
  funext a
  cases a with
  | callback cb => exact congrArg some (if_pos rfl)
  | _ => rfl

/-- A call on a thread that is not the connection's own closes nothing and enters no user code. -/
def Local (s : ServerRun) (thread conn : Nat) (actions : List Action) : Prop :=
  thread = (s.conns conn).loop_ ∨
    ∀ a ∈ actions, a ≠ .closeCallback ∧ Session.entersUser a = none

/-- User code begins on a thread. -/
theorem view_enter_self {thread j : Nat} (code : Option ServerCode)
    (h : thread = (s.conns j).loop_) :
    (s.enter thread code).view j =
      { s.view j with user := (code.map (ServerCode.seenBy j)).or (s.view j).user } := by
  have hloop : (s.enter thread code).loopOf j = { s.loopOf j with
      user := code.or (s.loopOf j).user } := loopOf_modifyLoop_self _ h
  have hremoving : (s.enter thread code).removing j = s.removing j := removing_modifyLoop rfl
  unfold view
  rw [hloop, hremoving]
  cases code <;> rfl

theorem view_enter_of_ne {thread j : Nat} (code : Option ServerCode)
    (h : thread ≠ (s.conns j).loop_) : (s.enter thread code).view j = s.view j := by
  have hloop : (s.enter thread code).loopOf j = s.loopOf j := loopOf_modifyLoop_of_ne _ h
  have hremoving : (s.enter thread code).removing j = s.removing j := removing_modifyLoop rfl
  unfold view
  rw [hloop, hremoving]
  rfl

theorem setConn_self (conn : Nat) (c : TcpConnection) (actions : List Action) (fs : List String) :
    (s.setConn conn c actions fs).conns conn = { s.conns conn with
      conn := c
      trace := (s.conns conn).trace ++ actions
      failed := (s.conns conn).failed ++ fs } :=
  Function.update_self ..

theorem setConn_of_ne {conn j : Nat} (hj : j ≠ conn) (c : TcpConnection) (actions : List Action)
    (fs : List String) : (s.setConn conn c actions fs).conns j = s.conns j :=
  Function.update_of_ne hj ..

theorem view_setConn (conn : Nat) (c : TcpConnection) (actions : List Action)
    (fs : List String) :
    (s.setConn conn c actions fs).view conn = { s.view conn with
      conn := c
      trace := (s.view conn).trace ++ actions
      failed := (s.view conn).failed ++ fs } := by
  unfold view loopOf
  rw [setConn_self]
  rfl

theorem view_setConn_other {conn j : Nat} (hj : j ≠ conn) (c : TcpConnection)
    (actions : List Action) (fs : List String) :
    (s.setConn conn c actions fs).view j = s.view j := by
  unfold view loopOf
  rw [setConn_of_ne hj]
  rfl

/-- **To the connection itself**, its member function returned as in `Net.Session`. -/
theorem view_finish {thread conn : Nat} {c : TcpConnection} {actions : List Action}
    {fs : List String} (hlocal : s.Local thread conn actions) :
    (s.finish thread conn c actions fs).view conn = (s.view conn).after c actions fs := by
  have hclose : .closeCallback ∈ actions →
      thread = ((s.setConn conn c actions fs).conns conn).loop_ := by
    intro hclose
    rw [setConn_self]
    rcases hlocal with hthread | hlocal
    · exact hthread
    · exact absurd rfl (hlocal _ hclose).1
  have hacts := view_acts hclose
  have hview := view_setConn (s := s) conn c actions fs
  have hloop : (((s.setConn conn c actions fs).acts thread conn actions).conns conn).loop_ =
      (s.conns conn).loop_ := by
    rw [acts_conns, setConn_self]
  unfold finish
  by_cases hthread : thread = (s.conns conn).loop_
  · rw [view_enter_self _ (hthread.trans hloop.symm), seenBy_entersUser, hacts, hview]
    rfl
  · have hnone : actions.findSome? Session.entersUser = none := by
      rw [List.findSome?_eq_none_iff]
      intro a ha
      exact ((hlocal.resolve_left hthread) a ha).2
    rw [view_enter_of_ne _ (fun h => hthread (h.trans hloop)), hacts, hview]
    unfold Session.after
    rw [hnone]
    rfl

/-- **To another connection** it is, at most, user code that the thread of the loop enters. -/
theorem view_finish_other {thread conn j : Nat} (hj : j ≠ conn) {c : TcpConnection}
    {actions : List Action} {fs : List String} :
    (s.finish thread conn c actions fs).view j = s.view j ∨
      thread = (s.conns j).loop_ ∧ (∃ cb, .callback cb ∈ actions) ∧
        (s.finish thread conn c actions fs).view j = { s.view j with user := some .other } := by
  have hacted : ((s.setConn conn c actions fs).acts thread conn actions).view j = s.view j :=
    (view_acts_other hj actions).trans (view_setConn_other hj c actions fs)
  have hloop : (((s.setConn conn c actions fs).acts thread conn actions).conns j).loop_ =
      (s.conns j).loop_ := by
    rw [acts_conns, setConn_of_ne hj]
  unfold finish
  by_cases hthread : thread = (s.conns j).loop_
  · rw [view_enter_self _ (hthread.trans hloop.symm), hacted]
    cases hfind : actions.findSome? (entersUser conn) with
    | none => exact .inl rfl
    | some code =>
        obtain ⟨a, ha, henter⟩ := List.exists_of_findSome?_eq_some hfind
        cases a with
        | callback cb =>
            obtain rfl := Option.some.inj henter
            have hother : (ServerCode.callback conn cb).seenBy j = .other := if_neg (Ne.symm hj)
            rw [Option.map_some, hother]
            exact .inr ⟨hthread, ⟨cb, ha⟩, rfl⟩
        | _ => cases henter
  · rw [view_enter_of_ne _ (fun h => hthread (h.trans hloop)), hacted]
    exact .inl rfl

/-! ## Everything in its place -/

/-- A functor is in the queue of the loop that it belongs to. -/
def Belongs (s : ServerRun) (l : Nat) : ServerFunctor → Prop
  | .connection conn _ => conn < s.accepted ∧ (s.conns conn).loop_ = l
  | .removeConnectionInLoop conn => conn < s.accepted ∧ l = 0 ∧ (s.conns conn).loop_ ≠ 0
  | .user _ => True

/-- Where the thread of a loop is, and what it runs, is of its own connections. -/
structure Placed (s : ServerRun) : Prop where
  functors : ∀ l, ∀ g ∈ (s.loops l).queue.waiting, s.Belongs l g
  rest : ∀ l, (s.loops l).phase ≠ .functors → (s.loops l).queue.rest = []
  event : ∀ l conn rest, (s.loops l).phase = .event conn rest →
    conn < s.accepted ∧ (s.conns conn).loop_ = l
  user : ∀ l conn cb, (s.loops l).user = some (.callback conn cb) →
    conn < s.accepted ∧ (s.conns conn).loop_ = l
  isLoop : ∀ conn < s.accepted, s.IsLoop (s.conns conn).loop_
  next : s.server.threadPool_.numThreads_ ≠ 0 →
    s.server.threadPool_.next_ < s.server.threadPool_.numThreads_

theorem new_placed (name : String) (numThreads : Nat) (writeComplete : Bool) :
    (new name numThreads writeComplete).Placed where
  functors _ := by intro _ h; cases h
  rest _ _ := rfl
  event _ _ _ := by rintro ⟨⟩
  user _ _ _ := by rintro ⟨⟩
  isLoop _ := by rintro ⟨⟩
  next h := Nat.pos_of_ne_zero h

/-- No functor, event or user code is of a connection that has not been made. -/
theorem Placed.unmade (h : s.Placed) (l : Nat) {conn : Nat} (hconn : s.accepted ≤ conn) :
    (s.loops l).queue.waitingOf (ServerFunctor.ofConnection conn) = [] ∧
      (s.loops l).queue.waitingOf (ServerFunctor.ofRemoval conn) = [] ∧
      (∀ rest, (s.loops l).phase ≠ .event conn rest) ∧
      ∀ cb, (s.loops l).user ≠ some (.callback conn cb) := by
  have hnot : ¬ conn < s.accepted := Nat.not_lt.mpr hconn
  have hnone : ∀ g ∈ (s.loops l).queue.waiting, ¬ g.Binds conn := by
    intro g hg hbinds
    have hbelongs := h.functors l g hg
    cases g with
    | connection i f => exact hnot (hbinds ▸ hbelongs.1)
    | removeConnectionInLoop i => exact hnot (hbinds ▸ hbelongs.1)
    | user id => exact hbinds
  refine ⟨?_, ?_, ?_, ?_⟩
  · exact List.filterMap_eq_nil_iff.mpr fun g hg => (ServerFunctor.of_not_binds (hnone g hg)).1
  · exact List.filterMap_eq_nil_iff.mpr fun g hg => (ServerFunctor.of_not_binds (hnone g hg)).2
  · intro rest hphase
    exact hnot (h.event l conn rest hphase).1
  · intro cb huser
    exact hnot (h.user l conn cb huser).1

/-- One loop changes. -/
theorem Placed.modifyLoop (h : s.Placed) {l : Nat} {f : IoLoop → IoLoop}
    (hfunctors : ∀ g ∈ (f (s.loops l)).queue.waiting, s.Belongs l g)
    (hrest : (f (s.loops l)).phase ≠ .functors → (f (s.loops l)).queue.rest = [])
    (hevent : ∀ conn rest, (f (s.loops l)).phase = .event conn rest →
      conn < s.accepted ∧ (s.conns conn).loop_ = l)
    (huser : ∀ conn cb, (f (s.loops l)).user = some (.callback conn cb) →
      conn < s.accepted ∧ (s.conns conn).loop_ = l) : (s.modifyLoop l f).Placed := by
  refine ⟨?_, ?_, ?_, ?_, h.isLoop, h.next⟩
  all_goals
    intro k
    by_cases hk : k = l
  · rw [hk, modifyLoop_self]
    exact hfunctors
  · rw [modifyLoop_of_ne f hk]
    exact h.functors k
  · rw [hk, modifyLoop_self]
    exact hrest
  · rw [modifyLoop_of_ne f hk]
    exact h.rest k
  · rw [hk, modifyLoop_self]
    exact hevent
  · rw [modifyLoop_of_ne f hk]
    exact h.event k
  · rw [hk, modifyLoop_self]
    exact huser
  · rw [modifyLoop_of_ne f hk]
    exact h.user k

theorem Placed.queueInLoop (h : s.Placed) {l : Nat} {g : ServerFunctor} (hg : s.Belongs l g) :
    (s.queueInLoop l g).Placed := by
  refine h.modifyLoop ?_ (h.rest l) (h.event l) (h.user l)
  intro g' hg'
  rw [EventLoop.waiting_queueInLoop] at hg'
  rcases List.mem_append.mp hg' with hg' | hg'
  · exact h.functors l g' hg'
  · rw [List.mem_singleton.mp hg']
    exact hg

theorem Placed.setQueue (h : s.Placed) {l : Nat} {queue : EventLoop ServerFunctor}
    (hfunctors : ∀ g ∈ queue.waiting, g ∈ (s.loops l).queue.waiting)
    (hrest : (s.loops l).phase ≠ .functors → queue.rest = []) : (s.setQueue l queue).Placed :=
  h.modifyLoop (fun g hg => h.functors l g (hfunctors g hg)) hrest (h.event l) (h.user l)

theorem Placed.setPhase (h : s.Placed) {l : Nat} {phase : LoopPhase}
    (hrest : phase ≠ .functors → (s.loops l).queue.rest = [])
    (hevent : ∀ conn rest, phase = .event conn rest →
      conn < s.accepted ∧ (s.conns conn).loop_ = l) : (s.setPhase l phase).Placed :=
  h.modifyLoop (h.functors l) hrest hevent (h.user l)

theorem Placed.setBatch (h : s.Placed) {l : Nat} {phase : LoopPhase}
    {queue : EventLoop ServerFunctor}
    (hfunctors : ∀ g ∈ queue.waiting, g ∈ (s.loops l).queue.waiting)
    (hrest : phase ≠ .functors → queue.rest = [])
    (hevent : ∀ conn rest, phase ≠ .event conn rest) : (s.setBatch l phase queue).Placed :=
  h.modifyLoop (fun g hg => h.functors l g (hfunctors g hg)) hrest
    (fun conn rest heq => absurd heq (hevent conn rest)) (h.user l)

theorem Placed.setUser (h : s.Placed) {l : Nat} {user : Option ServerCode}
    (huser : ∀ conn cb, user = some (.callback conn cb) →
      conn < s.accepted ∧ (s.conns conn).loop_ = l) : (s.setUser l user).Placed :=
  h.modifyLoop (h.functors l) (h.rest l) (h.event l) huser

theorem setConn_loop (conn j : Nat) (c : TcpConnection) (actions : List Action)
    (fs : List String) : ((s.setConn conn c actions fs).conns j).loop_ = (s.conns j).loop_ := by
  by_cases hj : j = conn
  · rw [hj, setConn_self]
  · rw [setConn_of_ne hj]

theorem finish_conns (thread conn : Nat) (c : TcpConnection) (actions : List Action)
    (fs : List String) :
    (s.finish thread conn c actions fs).conns = (s.setConn conn c actions fs).conns :=
  acts_conns ..

@[simp] theorem finish_loop (thread conn j : Nat) (c : TcpConnection) (actions : List Action)
    (fs : List String) : ((s.finish thread conn c actions fs).conns j).loop_ = (s.conns j).loop_ := by
  rw [finish_conns, setConn_loop]

theorem belongs_setConn {conn l : Nat} {c : TcpConnection} {actions : List Action}
    {fs : List String} {g : ServerFunctor} (hg : s.Belongs l g) :
    (s.setConn conn c actions fs).Belongs l g := by
  cases g with
  | connection j f => exact ⟨hg.1, (setConn_loop ..).trans hg.2⟩
  | removeConnectionInLoop j => exact ⟨hg.1, hg.2.1, fun h => hg.2.2 ((setConn_loop ..).symm.trans h)⟩
  | user id => trivial

theorem Placed.setConn (h : s.Placed) (conn : Nat) (c : TcpConnection) (actions : List Action)
    (fs : List String) : (s.setConn conn c actions fs).Placed where
  functors l g hg := belongs_setConn (h.functors l g hg)
  rest := h.rest
  event l j rest hj := by
    rw [setConn_loop]
    exact h.event l j rest hj
  user l j cb hj := by
    rw [setConn_loop]
    exact h.user l j cb hj
  isLoop j hj := by
    show (s.setConn conn c actions fs).IsLoop _
    rw [setConn_loop]
    exact h.isLoop j hj
  next := h.next

theorem Placed.removeConnectionInLoop (h : s.Placed) {conn : Nat} (hlt : conn < s.accepted) :
    (s.removeConnectionInLoop conn).Placed := by
  have hout : (s.takeOut conn).Placed :=
    ⟨h.functors, h.rest, h.event, h.user, h.isLoop, h.next⟩
  exact hout.queueInLoop ⟨hlt, rfl⟩

theorem Placed.act (h : s.Placed) {thread conn : Nat} {a : Action} (hlt : conn < s.accepted)
    (hclose : a = .closeCallback → thread = (s.conns conn).loop_) :
    (s.act thread conn a).Placed := by
  cases a with
  | queueInLoop f => exact h.queueInLoop ⟨hlt, rfl⟩
  | closeCallback =>
      show (s.removeConnection thread conn).Placed
      unfold removeConnection
      by_cases hbase : thread = 0
      · rw [if_pos hbase]
        exact h.removeConnectionInLoop hlt
      · rw [if_neg hbase]
        exact h.queueInLoop ⟨hlt, rfl, fun h0 => hbase ((hclose rfl).trans h0)⟩
  | _ => exact h

@[simp] theorem act_accepted (thread conn : Nat) (a : Action) :
    (s.act thread conn a).accepted = s.accepted := by
  cases a with
  | closeCallback =>
      show (s.removeConnection thread conn).accepted = s.accepted
      unfold removeConnection
      split <;> rfl
  | _ => rfl

theorem acts_accepted (thread conn : Nat) (actions : List Action) :
    (s.acts thread conn actions).accepted = s.accepted := by
  induction actions generalizing s with
  | nil => rfl
  | cons a actions ih => exact ih.trans (act_accepted thread conn a)

@[simp] theorem finish_accepted (thread conn : Nat) (c : TcpConnection) (actions : List Action)
    (fs : List String) : (s.finish thread conn c actions fs).accepted = s.accepted :=
  acts_accepted ..

theorem Placed.acts (h : s.Placed) {thread conn : Nat} {actions : List Action}
    (hlt : conn < s.accepted) (hclose : .closeCallback ∈ actions → thread = (s.conns conn).loop_) :
    (s.acts thread conn actions).Placed := by
  induction actions generalizing s with
  | nil => exact h
  | cons a actions ih =>
      apply ih (h.act hlt fun ha => hclose (ha ▸ List.mem_cons_self))
      · rw [act_accepted]
        exact hlt
      · intro hmem
        rw [act_conns]
        exact hclose (List.mem_cons_of_mem _ hmem)

theorem Placed.enter (h : s.Placed) {thread : Nat} {code : Option ServerCode}
    (hcode : ∀ conn cb, code = some (.callback conn cb) →
      conn < s.accepted ∧ (s.conns conn).loop_ = thread) : (s.enter thread code).Placed := by
  refine h.modifyLoop (h.functors thread) (h.rest thread) (h.event thread) ?_
  intro conn cb huser
  cases code with
  | none => exact h.user thread conn cb huser
  | some code => exact hcode conn cb huser

theorem Placed.finish (h : s.Placed) {thread conn : Nat} {c : TcpConnection}
    {actions : List Action} {fs : List String} (hlt : conn < s.accepted)
    (hlocal : s.Local thread conn actions) : (s.finish thread conn c actions fs).Placed := by
  have hloop : ((s.setConn conn c actions fs).conns conn).loop_ = (s.conns conn).loop_ :=
    setConn_loop ..
  have hacts : ((s.setConn conn c actions fs).acts thread conn actions).Placed := by
    refine (h.setConn conn c actions fs).acts hlt ?_
    intro hclose
    rw [hloop]
    exact hlocal.resolve_right fun hnone => (hnone _ hclose).1 rfl
  refine hacts.enter ?_
  intro j cb hcode
  obtain ⟨a, ha, henter⟩ := List.exists_of_findSome?_eq_some hcode
  rw [acts_accepted, acts_conns]
  cases a with
  | callback cb' =>
      obtain ⟨rfl, -⟩ := ServerCode.callback.inj (Option.some.inj henter)
      refine ⟨hlt, hloop.trans ?_⟩
      exact (hlocal.resolve_right fun hnone => absurd (hnone _ ha).2 (by rintro ⟨⟩)).symm
  | _ => cases henter

/-! ## A new connection -/

theorem makeConnection_self (sockfd : Nat) :
    (s.makeConnection sockfd).conns s.accepted =
      { name_ := s.server.connName
        loop_ := s.server.threadPool_.getNextLoop.1
        conn := TcpConnection.new sockfd s.server.writeCompleteCallback_
        trace := []
        failed := [] } :=
  Function.update_self ..

theorem makeConnection_of_lt {j : Nat} (hj : j < s.accepted) (sockfd : Nat) :
    (s.makeConnection sockfd).conns j = s.conns j :=
  Function.update_of_ne (Nat.ne_of_lt hj) ..

theorem getNextLoop_le {pool : EventLoopThreadPool}
    (h : pool.numThreads_ ≠ 0 → pool.next_ < pool.numThreads_) :
    pool.getNextLoop.1 ≤ pool.numThreads_ ∧
      pool.getNextLoop.2.numThreads_ = pool.numThreads_ ∧
      (pool.numThreads_ ≠ 0 → pool.getNextLoop.2.next_ < pool.numThreads_) := by
  unfold EventLoopThreadPool.getNextLoop
  by_cases h0 : pool.numThreads_ = 0
  · rw [if_pos h0]
    exact ⟨Nat.zero_le _, rfl, fun hne => absurd h0 hne⟩
  · rw [if_neg h0]
    have hnext := h h0
    refine ⟨hnext, rfl, fun _ => ?_⟩
    show (if pool.numThreads_ ≤ pool.next_ + 1 then 0 else pool.next_ + 1) < pool.numThreads_
    split <;> omega

theorem Placed.makeConnection (h : s.Placed) (sockfd : Nat) :
    (s.makeConnection sockfd).Placed := by
  obtain ⟨hle, hthreads, hnext⟩ := getNextLoop_le h.next
  have hold : ∀ {j l}, j < s.accepted ∧ (s.conns j).loop_ = l →
      j < s.accepted + 1 ∧ ((s.makeConnection sockfd).conns j).loop_ = l := by
    rintro j l ⟨hj, hl⟩
    rw [makeConnection_of_lt hj]
    exact ⟨Nat.lt_succ_of_lt hj, hl⟩
  refine ⟨?_, h.rest, fun l j rest hj => hold (h.event l j rest hj),
    fun l j cb hj => hold (h.user l j cb hj), ?_, ?_⟩
  · intro l g hg
    have hbelongs := h.functors l g hg
    cases g with
    | connection j f => exact hold hbelongs
    | removeConnectionInLoop j =>
        obtain ⟨hj, hl, hne⟩ := hbelongs
        refine ⟨Nat.lt_succ_of_lt hj, hl, ?_⟩
        rw [makeConnection_of_lt hj]
        exact hne
    | user id => trivial
  · intro j hj
    show _ ≤ s.server.threadPool_.getNextLoop.2.numThreads_
    rw [hthreads]
    rcases Nat.lt_succ_iff_lt_or_eq.mp hj with hj | rfl
    · rw [makeConnection_of_lt hj]
      exact h.isLoop j hj
    · rw [makeConnection_self]
      exact hle
  · show s.server.threadPool_.getNextLoop.2.numThreads_ ≠ 0 →
      s.server.threadPool_.getNextLoop.2.next_ < s.server.threadPool_.getNextLoop.2.numThreads_
    rw [hthreads]
    exact hnext

/-- `newConnection` ends in `connectEstablished`, called or queued. -/
theorem newConnection_inv {sockfd : Nat} (h : s.newConnection sockfd = some s') :
    (((s.makeConnection sockfd).conns s.accepted).loop_ = 0 ∧ ∃ c actions fs,
      ((s.makeConnection sockfd).conns s.accepted).conn.connectEstablished = .ok (c, actions) fs ∧
      s' = ((s.makeConnection sockfd).record 0 s.accepted .connectEstablished).finish 0 s.accepted c
        actions fs) ∨
    ((s.makeConnection sockfd).conns s.accepted).loop_ ≠ 0 ∧
      s' = (s.makeConnection sockfd).queueInLoop
        ((s.makeConnection sockfd).conns s.accepted).loop_
        (.connection s.accepted .connectEstablished) := by
  unfold newConnection at h
  by_cases hbase : ((s.makeConnection sockfd).conns s.accepted).loop_ = 0
  · simp only [if_pos hbase] at h
    obtain ⟨c, actions, fs, hrun, rfl⟩ := call_inv h
    exact .inl ⟨hbase, c, actions, fs, hrun, rfl⟩
  · simp only [if_neg hbase, Option.some.injEq] at h
    exact .inr ⟨hbase, h.symm⟩

/-! ## Every step keeps everything in its place -/

theorem Placed.record (h : s.Placed) (thread conn : Nat) (entry : Entry) :
    (s.record thread conn entry).Placed :=
  ⟨h.functors, h.rest, h.event, h.user, h.isLoop, h.next⟩

theorem Placed.recordFunctor (h : s.Placed) (thread conn : Nat) (f : Functor) :
    (s.recordFunctor thread conn f).Placed := by
  unfold ServerRun.recordFunctor
  split
  · exact h.record ..
  · exact h.record ..
  · exact h

theorem recordFunctor_local {thread conn j : Nat} {f : Functor} {actions : List Action}
    (h : s.Local thread j actions) : (s.recordFunctor thread conn f).Local thread j actions := by
  unfold ServerRun.recordFunctor
  split <;> exact h

theorem recordFunctor_accepted (thread conn : Nat) (f : Functor) :
    (s.recordFunctor thread conn f).accepted = s.accepted := by
  unfold ServerRun.recordFunctor
  split <;> rfl

/-- What runs out of a queue is the first of what waited there. -/
theorem waiting_next {l : Nat} {g : ServerFunctor} {queue : EventLoop ServerFunctor}
    (hnext : (s.loops l).queue.nextFunctor = some (g, queue)) :
    g ∈ (s.loops l).queue.waiting ∧ ∀ g' ∈ queue.waiting, g' ∈ (s.loops l).queue.waiting := by
  rw [EventLoop.nextFunctor_waiting hnext]
  exact ⟨List.mem_cons_self, fun _ => List.mem_cons_of_mem _⟩

theorem Placed.next_queue (h : s.Placed) {l : Nat} {g : ServerFunctor}
    {queue : EventLoop ServerFunctor} (hat : s.At l .functors)
    (hnext : (s.loops l).queue.nextFunctor = some (g, queue)) : (s.setQueue l queue).Placed :=
  h.setQueue (waiting_next hnext).2 fun hne => absurd hat.1 hne

theorem local_of_inMessageCallback (h : s.Placed) {l conn : Nat}
    (hin : s.inMessageCallback l = some conn) :
    conn < s.accepted ∧ l = (s.conns conn).loop_ := by
  unfold inMessageCallback at hin
  split at hin
  · rename_i conn' arrived readable huser
    obtain rfl := Option.some.inj hin
    obtain ⟨hlt, hl⟩ := h.user l conn' _ huser
    exact ⟨hlt, hl.symm⟩
  · cases hin

theorem local_send {thread conn : Nat} {message : Message} {w : Write} {c : TcpConnection}
    {actions : List Action} {fs : List String}
    (hrun : (s.conns conn).conn.send (s.threadFor conn thread) message w = .ok (c, actions) fs) :
    s.Local thread conn actions := by
  unfold threadFor at hrun
  by_cases hthread : thread = (s.conns conn).loop_
  · exact .inl hthread
  · rw [if_neg hthread] at hrun
    right
    intro a ha
    rcases send_spec hrun with ⟨_, rfl, rfl, rfl⟩ | ⟨_, hcaller, _⟩ | ⟨_, _, rfl, rfl, rfl⟩
    · exact absurd ha List.not_mem_nil
    · cases hcaller
    · rcases List.mem_cons.mp ha with rfl | ha
      · exact ⟨by simp, rfl⟩
      · rw [List.mem_singleton.mp ha]
        exact ⟨by simp, rfl⟩

theorem local_shutdown {thread conn : Nat} {c : TcpConnection} {actions : List Action}
    {fs : List String}
    (hrun : (s.conns conn).conn.shutdown (s.threadFor conn thread) = .ok (c, actions) fs) :
    s.Local thread conn actions := by
  unfold threadFor at hrun
  by_cases hthread : thread = (s.conns conn).loop_
  · exact .inl hthread
  · rw [if_neg hthread] at hrun
    right
    intro a ha
    obtain ⟨-, ⟨_, rfl, rfl⟩ | ⟨_, rfl, rfl⟩⟩ := shutdown_spec hrun
    · exact absurd ha List.not_mem_nil
    · rcases List.mem_cons.mp ha with rfl | ha
      · exact ⟨by simp, rfl⟩
      · rw [if_neg (by simp)] at ha
        rw [List.mem_singleton.mp ha]
        exact ⟨by simp, rfl⟩

/-- User code of the users' own, or none. -/
theorem Placed.setUser_free (h : s.Placed) {l : Nat} {user : Option ServerCode}
    (huser : user = none ∨ user = some .other) : (s.setUser l user).Placed := by
  refine h.setUser ?_
  rintro conn cb rfl
  rcases huser with huser | huser <;> cases huser

theorem Placed.step (h : s.Placed) {e : Event} (hstep : s.step e = some s') : s'.Placed := by
  cases step_inv hstep with
  | refuse => exact h
  | @newConnection sockfd _ _ hrun =>
      have hmade := h.makeConnection sockfd
      -- on the base loop the connection is established at once, elsewhere by a functor
      rcases newConnection_inv hrun with ⟨hbase, c, actions, fs, -, rfl⟩ | ⟨-, rfl⟩
      · exact (hmade.record ..).finish (Nat.lt_succ_self _) (.inl hbase.symm)
      · exact hmade.queueInLoop ⟨Nat.lt_succ_self _, rfl⟩
  | @doPendingFunctors l _ hat =>
      have hrest := h.rest l (by rw [hat.1]; simp)
      -- the same functors wait, in the batch now
      refine h.setBatch ?_ ?_ (by simp)
      · intro g hg
        rw [EventLoop.waiting_swapFunctors hrest] at hg
        exact hg
      · intro hne
        exact absurd rfl hne
  | runFunctor hat hnext _ _ =>
      obtain ⟨hlt, hl⟩ := h.functors _ _ (waiting_next hnext).1
      have hnext := h.next_queue hat hnext
      refine (hnext.recordFunctor ..).finish ?_ (recordFunctor_local (.inl hl.symm))
      rw [recordFunctor_accepted]
      exact hlt
  | runRemoval hat hnext =>
      obtain ⟨hlt, -⟩ := h.functors _ _ (waiting_next hnext).1
      exact (h.next_queue hat hnext).removeConnectionInLoop hlt
  | runUser hat hnext => exact h.next_queue hat hnext
  | @endFunctors l hat hdone =>
      refine h.setBatch ?_ (fun _ => rfl) (by simp)
      intro g hg
      rw [EventLoop.waiting_endFunctors hdone] at hg
      exact hg
  | @handleEvent conn revents hlt hat _ _ =>
      have hphase : (s.setPhase (s.conns conn).loop_
          (.event conn (Channel.handleEventWithGuard revents))).Placed := by
        refine h.setPhase (fun _ => h.rest _ (by rw [hat.1]; simp)) ?_
        rintro conn' rest heq
        obtain ⟨rfl, -⟩ := LoopPhase.event.inj heq
        exact ⟨hlt, rfl⟩
      exact hphase.finish hlt (.inl rfl)
  | @runCallback l r w conn cb rest _ _ _ hat _ _ _ =>
      obtain ⟨hlt, hl⟩ := h.event _ _ _ hat.1
      have hphase : (s.setPhase l (.event conn rest)).Placed := by
        refine h.setPhase (fun _ => h.rest _ (by rw [hat.1]; simp)) ?_
        rintro conn' rest' heq
        obtain ⟨rfl, -⟩ := LoopPhase.event.inj heq
        exact ⟨hlt, hl⟩
      exact (hphase.record ..).finish hlt (.inl hl.symm)
  | @endEvent l conn hat =>
      obtain ⟨hlt, hl⟩ := h.event _ _ _ hat.1
      have hphase : (s.setPhase l .between).Placed := by
        refine h.setPhase (fun _ => h.rest _ (by rw [hat.1]; simp)) ?_
        rintro conn' rest' heq
        cases heq
      exact hphase.finish hlt (.inl hl.symm)
  | enterUser _ _ => exact h.setUser_free (.inr rfl)
  | leaveDown hinside _ =>
      obtain ⟨hlt, hl⟩ := h.user _ _ _ hinside
      exact (h.setUser_free (.inl rfl)).finish hlt (.inl hl.symm)
  | leaveUser _ _ => exact h.setUser_free (.inl rfl)
  | send hmay _ hrun => exact h.finish hmay.1 (local_send hrun)
  | shutdown hmay hrun => exact h.finish hmay.1 (local_shutdown hrun)
  | useInput hin _ _ =>
      obtain ⟨hlt, hl⟩ := local_of_inMessageCallback h hin
      exact h.finish hlt (.inl hl)
  | swapInput hin _ =>
      obtain ⟨hlt, hl⟩ := local_of_inMessageCallback h hin
      exact h.finish hlt (.inl hl)
  | setWriteCompleteCallback _ hmay => exact h.finish hmay.1 (.inl rfl)
  | setHighWaterMarkCallback _ hmay => exact h.finish hmay.1 (.inl rfl)
  | destroy _ _ => exact ⟨h.functors, h.rest, h.event, h.user, h.isLoop, h.next⟩

end ServerRun

end Simplev
