import Simplev.Net.Correctness.Overlap
import Simplev.Net.Correctness.Stop

/-!
# `Net.Correctness.Disconnect` — after `disconnect()`

`disconnect()` clears the client's flag and shuts down the connection there is. It does not tell the
connector, which goes on with the attempt it is at: of what is under way (`chances`), one connection may
still come, and nothing makes a new start. So a client that has no connection when it calls `disconnect()`
may get one afterwards, and only one; a client that has one gets no more.
-/

namespace Simplev

open Foundation

namespace Dialer

variable {s s' s₁ : Dialer} {e : Event} {savedErrno : Connector.SavedErrno} {writable : Bool} {n : Nat}

/-- What may come to a connection: the attempt in flight, and the timers and starts that make one. -/
def chances (s : Dialer) : Nat :=
  (if s.connector.state_ = .kConnecting then 1 else 0) + s.timers.length + starts s.loop

/-- **What comes, comes out of the chances**, and without one no socket is made. -/
structure Fades (s s' : Dialer) : Prop where
  handed : ∃ more, s'.handed = s.handed ++ more ∧ more.length + s'.chances ≤ s.chances
  made : s.chances = 0 → s'.nextFd = s.nextFd

theorem Fades.trans {s'' : Dialer} (h : Fades s s') (h' : Fades s' s'') : Fades s s'' := by
  obtain ⟨more, hmore, hle⟩ := h.handed
  obtain ⟨more', hmore', hle'⟩ := h'.handed
  refine ⟨⟨more ++ more', ?_, ?_⟩, ?_⟩
  · rw [hmore', hmore, List.append_assoc]
  · rw [List.length_append]
    omega
  · intro hzero
    rw [h'.made (by omega), h.made hzero]

/-- A step that hands nothing over, adds no chance and makes no socket. -/
theorem Fades.of_le (hhanded : s'.handed = s.handed) (hle : s'.chances ≤ s.chances)
    (hnext : s'.nextFd = s.nextFd) : Fades s s' :=
  ⟨⟨[], by rw [hhanded, List.append_nil], by rw [List.length_nil, Nat.zero_add]; exact hle⟩, fun _ => hnext⟩

/-- Whatever makes an attempt, apart from a call of `start()` and a restart, is a chance used up. -/
theorem Launching.chances_lt (h : Launching s e savedErrno s₁) (hcalm : e.setsConnect = false) :
    s₁.chances < s.chances ∧ s₁.handed = s.handed := by
  cases h with
  | start _ => cases hcalm
  | functor _ next =>
      have hstarts := starts_nextFunctor next
      rw [if_pos rfl] at hstarts
      refine ⟨?_, rfl⟩
      simp only [chances, hstarts]
      omega
  | @expire sequence _ _ active _ =>
      have hshorter : (s.timers.filter (· ≠ sequence)).length < s.timers.length :=
        List.length_filter_lt_length_iff_exists.mpr ⟨sequence, active, by simp⟩
      refine ⟨?_, rfl⟩
      simp only [chances]
      omega
  | restart _ _ _ => cases hcalm

/-- An attempt is one chance, in flight or behind a timer. -/
theorem Launched.chances_le (h : Launched s savedErrno s') :
    s'.chances ≤ s.chances + 1 ∧ s'.handed = s.handed := by
  cases h with
  | declined _ => exact ⟨Nat.le_succ _, rfl⟩
  | began _ _ _ =>
      refine ⟨?_, rfl⟩
      simp only [chances, Connector.watching, if_true]
      omega
  | retried _ _ =>
      refine ⟨?_, rfl⟩
      simp only [chances, Connector.retrying, reduceCtorEq, if_false, List.length_append,
        List.length_singleton]
      omega
  | gaveUp _ _ _ => exact ⟨Nat.le_succ _, rfl⟩

theorem Ended.fades (h : Ended s writable s') : Fades s s' := by
  -- the reset that is queued is no start
  have hstarts : ∀ fd, starts (s.loop.queueInLoop (.connector (.resetChannel fd))) = starts s.loop := by
    intro fd
    rw [starts_queueInLoop, if_neg (by simp)]
    rfl
  cases h with
  | ignored _ _ => exact .of_le rfl (Nat.le_refl _) rfl
  | retried busy _ _ =>
      refine .of_le rfl ?_ rfl
      simp only [chances, hstarts, Connector.retrying, reduceCtorEq, if_false, if_pos busy,
        List.length_append, List.length_singleton]
      omega
  | dropped busy _ _ =>
      refine .of_le rfl ?_ rfl
      simp only [chances, hstarts, Connector.leaving, reduceCtorEq, if_false, if_pos busy]
      omega
  | @handedOver channel busy _ _ _ =>
      refine ⟨⟨[channel.fd_], rfl, ?_⟩, fun _ => rfl⟩
      simp only [chances, hstarts, Connector.leaving, reduceCtorEq, if_false, if_pos busy,
        List.length_singleton]
      omega
  | cancelled busy _ _ _ =>
      refine .of_le rfl ?_ rfl
      simp only [chances, hstarts, Connector.leaving, reduceCtorEq, if_false, if_pos busy]
      omega

theorem Ending.chances_eq (h : Ending s e writable s₁) :
    s₁.chances = s.chances ∧ s₁.handed = s.handed ∧ s₁.nextFd = s.nextFd := by
  cases h with
  | stopInLoop _ next =>
      have hstarts := starts_nextFunctor next
      rw [if_neg (by simp)] at hstarts
      refine ⟨?_, rfl, rfl⟩
      simp only [chances, hstarts]
      rfl
  | handleError _ _ => exact ⟨rfl, rfl, rfl⟩
  | handleWrite _ _ => exact ⟨rfl, rfl, rfl⟩

/-- **One step** without `start()` or restart adds no chance. -/
theorem Moves.fades (hL : Lone n s) (hcalm : e.setsConnect = false) (h : Moves s e s') : Fades s s' := by
  have hqueued : ∀ (l : EventLoop Functor) {f : Functor}, f ≠ .connector .startInLoop →
      starts (l.queueInLoop f) = starts l := by
    intro l f hf
    rw [starts_queueInLoop, if_neg hf]
    rfl
  have hpopped : ∀ {f l}, s.loop.nextFunctor = some (f, l) → starts l ≤ starts s.loop := by
    intro f l hnext
    rw [starts_nextFunctor hnext]
    exact Nat.le_add_right _ _
  have hcancelled : ∀ sequence, (s.timers.filter (· ≠ sequence)).length ≤ s.timers.length :=
    fun sequence => List.length_filter_le ..
  cases h with
  | launch launching run =>
      obtain ⟨hlt, hhanded⟩ := launching.chances_lt hcalm
      obtain ⟨hle, hhanded'⟩ := run.chances_le
      refine ⟨⟨[], ?_, ?_⟩, fun hzero => absurd hlt (by rw [hzero]; exact Nat.not_lt_zero _)⟩
      · rw [hhanded', hhanded, List.append_nil]
      · rw [List.length_nil]
        omega
  | ends ending run =>
      obtain ⟨hchances, hhanded, hnext⟩ := ending.chances_eq
      exact Fades.trans (.of_le hhanded (Nat.le_of_eq hchances) hnext) run.fades
  | start => cases hcalm
  | stop _ =>
      refine .of_le rfl ?_ rfl
      have hle := hcancelled s.connector.timerId_
      simp only [chances, hqueued _ (f := .connector .stopInLoop) (by simp)]
      omega
  | stopLater =>
      refine .of_le rfl ?_ rfl
      simp only [chances, hqueued _ (f := .connector .stopInLoop) (by simp),
        hqueued _ (f := .connector (.cancelInLoop s.connector.timerId_)) (by simp)]
      exact Nat.le_refl _
  | doPendingFunctors phase =>
      refine .of_le rfl ?_ rfl
      simp only [chances, starts, EventLoop.waiting_swapFunctors (hL.settled (by simp [phase]))]
      exact Nat.le_refl _
  | endFunctors _ done =>
      refine .of_le rfl ?_ rfl
      simp only [chances, starts, EventLoop.waiting_endFunctors done]
      exact Nat.le_refl _
  | resetChannel _ next _ => exact .of_le rfl (Nat.add_le_add_left (hpopped next) _) rfl
  | @cancelInLoop _ sequence _ _ next =>
      refine .of_le rfl ?_ rfl
      have hle := hcancelled sequence
      have hstarts := hpopped next
      simp only [chances]
      omega
  | connection _ next => exact .of_le rfl (Nat.add_le_add_left (hpopped next) _) rfl
  | handleClose _ _ _ =>
      refine .of_le rfl ?_ rfl
      simp only [chances, hqueued _ (f := .connection _ .connectDestroyed) (by simp)]
      exact Nat.le_refl _
  | handleEvent _ _ => exact .of_le rfl (Nat.le_refl _) rfl
  | readCallback _ _ => exact .of_le rfl (Nat.le_refl _) rfl
  | leaveUser _ => exact .of_le rfl (Nat.le_refl _) rfl
  | endEvent _ _ => exact .of_le rfl (Nat.le_refl _) rfl
  | crash _ => exact .of_le rfl (Nat.le_refl _) rfl

/-- What is handed over is a connection that is open. -/
theorem Moves.opens (hopen : e.closes = false) (h : Moves s e s') :
    ∃ more, s'.handed = s.handed ++ more ∧ s'.connections = s.connections ++ more := by
  have hsame : s'.handed = s.handed → s'.connections = s.connections →
      ∃ more, s'.handed = s.handed ++ more ∧ s'.connections = s.connections ++ more := by
    intro hhanded hconnections
    exact ⟨[], by rw [hhanded, List.append_nil], by rw [hconnections, List.append_nil]⟩
  cases h with
  | launch launching run =>
      obtain ⟨hconnections, -, hhanded⟩ := run.same
      cases launching with
      | start _ => exact hsame hhanded hconnections
      | functor _ _ => exact hsame hhanded hconnections
      | expire _ _ _ => exact hsame hhanded hconnections
      | restart _ _ _ => cases hopen
  | @ends _ _ s₁ _ ending run =>
      have hbefore : s₁.handed = s.handed ∧ s₁.connections = s.connections := by
        cases ending <;> exact ⟨rfl, rfl⟩
      rw [← hbefore.1, ← hbefore.2] at hsame ⊢
      obtain ⟨hconnections, -, hhanded⟩ | ⟨-, -, sockfd, hconnections, -, hhanded⟩ := run.same_or
      · exact hsame hhanded hconnections
      · exact ⟨[sockfd], hhanded, hconnections⟩
  | handleClose _ _ _ => cases hopen
  | _ => exact hsame rfl rfl

end Dialer

namespace TcpClient

open Dialer

variable {s s' s₁ s₂ : TcpClient} {d d' : Dialer} {e : Event} {es : List Event}

/-- `connection_` is open. -/
def Points (s : TcpClient) : Prop := ∀ sockfd, s.connection_ = some sockfd → sockfd ∈ s.connector_.connections

/-- A member function of a connection changes neither. -/
theorem Points.ran (h : s.Points) {sockfd : Nat} {r : TcpConnection.Result}
    (hrun : s.ran sockfd r = some s') : s'.Points := by
  unfold TcpClient.ran at hrun
  split at hrun
  · obtain rfl := Option.some.inj hrun
    exact h
  · cases hrun

/-- The connector makes a step that closes nothing. -/
theorem Points.dialed (h : s.Points) {t : TcpClient} {de : Dialer.Event} (hopen : de.closes = false)
    (hcurrent : t.connection_ = s.connection_) (hconnector : t.connector_ = s.connector_)
    (hdialed : t.dialed de = some s') : s'.Points := by
  obtain ⟨d, hd, rfl⟩ := Option.map_eq_some_iff.mp hdialed
  rw [hconnector] at hd
  obtain ⟨more, -, hconnections⟩ := (step_moves hd).opens hopen
  intro sockfd hsockfd
  rw [show d.connections = s.connector_.connections ++ more from hconnections]
  exact List.mem_append_left _ (h sockfd (hcurrent ▸ hsockfd))

theorem Points.step (h : s.Points) (hstep : s.step e = some s') : s'.Points := by
  cases e with
  | connect caller savedErrno =>
      exact h.dialed (t := { s with connect_ := true, connects := s.connects + 1 }) rfl rfl rfl hstep
  | stop caller => exact h.dialed (t := { s with connect_ := false }) rfl rfl rfl hstep
  | doPendingFunctors => exact h.dialed rfl rfl rfl hstep
  | endFunctors => exact h.dialed rfl rfl rfl hstep
  | expire sequence savedErrno => exact h.dialed rfl rfl rfl hstep
  | handleEvent revents => exact h.dialed rfl rfl rfl hstep
  | leaveUser => exact h.dialed rfl rfl rfl hstep
  | endEvent => exact h.dialed rfl rfl rfl hstep
  | disconnect caller =>
      simp only [TcpClient.step, Option.ite_none_right_eq_some] at hstep
      obtain ⟨-, hstep⟩ := hstep
      have hoff : Points { s with connect_ := false } := h
      split at hstep
      · obtain ⟨conn, -, hstep⟩ := Option.bind_eq_some_iff.mp hstep
        exact hoff.ran hstep
      · obtain rfl := Option.some.inj hstep
        exact hoff
  | runFunctor savedErrno =>
      obtain ⟨t, hdialed, hstep⟩ := Option.bind_eq_some_iff.mp hstep
      have ht : t.Points := h.dialed rfl rfl rfl hdialed
      split at hstep
      · obtain ⟨conn, -, hstep⟩ := Option.bind_eq_some_iff.mp hstep
        exact ht.ran hstep
      · obtain ⟨conn, -, hstep⟩ := Option.bind_eq_some_iff.mp hstep
        exact ht.ran hstep
      · obtain rfl := Option.some.inj hstep
        exact ht
  | runCallback probe =>
      obtain ⟨t, hdialed, hstep⟩ := Option.bind_eq_some_iff.mp hstep
      have ht : t.Points := h.dialed rfl rfl rfl hdialed
      split at hstep
      · obtain rfl := Option.some.inj hstep
        exact ht
      · -- the connection that is handed over is the one that is pointed to
        rename_i sockfd rest hnew
        obtain ⟨d, hd, rfl⟩ := Option.map_eq_some_iff.mp hdialed
        obtain ⟨more, hhanded, hconnections⟩ := (step_moves hd).opens rfl
        rw [show d.handed = s.connector_.handed ++ more from hhanded, List.drop_left] at hnew
        refine Points.ran (s := { s with connector_ := d, connection_ := some sockfd }) ?_ hstep
        rintro fd ⟨⟩
        rw [show d.connections = s.connector_.connections ++ more from hconnections, hnew]
        exact List.mem_append_right _ List.mem_cons_self
  | handleRead sockfd savedErrno =>
      simp only [TcpClient.step, Option.ite_none_right_eq_some] at hstep
      obtain ⟨-, hstep⟩ := hstep
      obtain ⟨conn, -, hstep⟩ := Option.bind_eq_some_iff.mp hstep
      obtain ⟨t, -, hstep⟩ := Option.bind_eq_some_iff.mp hstep
      obtain ⟨d, -, rfl⟩ := Option.map_eq_some_iff.mp hstep
      rintro fd ⟨⟩

theorem reachable_points (h : clientMachine.Reachable s) : s.Points := by
  refine h.invariant ?_ ?_
  · rintro s ⟨retry, writeComplete, rfl⟩ fd ⟨⟩
  · intro s e s' _ hs _ hstep
    exact hs.step hstep

/-! ## With the client's flag off -/

theorem Queued.fades (h : Queued d d') : Fades d d' := by
  obtain ⟨fs, hfs, rfl⟩ := h
  refine .of_le rfl ?_ rfl
  show _ + starts (d.loop.queueAll fs) ≤ _
  rw [starts_queueAll _ hfs]
  exact Nat.le_refl _

/-- No restart, and no start. -/
theorem calm_of_off (hoff : s.connect_ = false) (hconnect : e.connected = 0) {de : Dialer.Event}
    (hevent : s.dialerEvent e = some de) : de.setsConnect = false := by
  cases e with
  | connect caller savedErrno => cases hconnect
  | disconnect caller => cases hevent
  | handleRead sockfd savedErrno =>
      obtain rfl := Option.some.inj hevent
      show (s.connect_ && s.retry_) = false
      rw [hoff]
      rfl
  | _ =>
      obtain rfl := Option.some.inj hevent
      rfl

theorem flagAfter_off (hoff : s.connect_ = false) (hconnect : e.connected = 0) :
    s.flagAfter e = false := by
  cases e with
  | connect caller savedErrno => cases hconnect
  | disconnect caller => rfl
  | stop caller => rfl
  | _ => exact hoff

theorem off_step (hoff : s.connect_ = false) {n : Nat} (hL : Lone n s.connector_)
    (hconnect : e.connected = 0) (hstep : s.step e = some s') :
    s'.connect_ = false ∧ Fades s.connector_ s'.connector_ := by
  obtain ⟨⟨d, d', hbefore, hdialed, hafter⟩, hflag, -⟩ := step_connector hstep
  refine ⟨hflag.trans (flagAfter_off hoff hconnect), ?_⟩
  have hmiddle : Fades d d' := by
    cases hevent : s.dialerEvent e with
    | none =>
        rw [hevent] at hdialed
        rw [show d' = d from hdialed]
        exact .of_le rfl (Nat.le_refl _) rfl
    | some de =>
        rw [hevent] at hdialed
        exact (step_moves hdialed).fades (hbefore.lone hL) (calm_of_off hoff hconnect hevent)
  exact hbefore.fades.trans (hmiddle.trans hafter.fades)

/-- **A run** without `connect()`, once the flag is off. -/
theorem off_run (hoff : s.connect_ = false) (hL : Lone s.connects s.connector_) (hone : s.connects ≤ 1)
    (hes : ∀ e ∈ es, e.connected = 0) (hrun : clientMachine.run s es = some s') :
    Fades s.connector_ s'.connector_ := by
  induction es generalizing s with
  | nil =>
      obtain rfl := Option.some.inj hrun
      exact .of_le rfl (Nat.le_refl _) rfl
  | cons e es ih =>
      obtain ⟨t, hstep, hrest⟩ := Option.bind_eq_some_iff.mp hrun
      obtain ⟨hconnect, hes⟩ := List.forall_mem_cons.mp hes
      have hone' : t.connects ≤ 1 := by
        rw [connects_of_step hconnect hstep]
        exact hone
      obtain ⟨hoff', hfades⟩ := off_step hoff hL hconnect hstep
      exact hfades.trans (ih hoff' (lone_step hL hone' hstep) hone' hes hrest)

/-- **After `disconnect()`**, on a client whose `connect()` is called once at most, and not again: what is
    handed over comes out of the attempt, the retry timer or the queued start that was under way, and there
    was one of these at most; a client that has a connection gets no other one, and its connector makes no
    more sockets. -/
theorem disconnect_ends_with_one {caller : Thread} (h : clientMachine.Reachable s) (hconnects : s.connects ≤ 1)
    (hdisconnect : s.step (.disconnect caller) = some s₁) (hrun : clientMachine.run s₁ es = some s₂)
    (hes : ∀ e ∈ es, e.connected = 0) :
    ∃ more, s₂.connector_.handed = s.connector_.handed ++ more ∧
      more.length + s₂.connector_.chances ≤ s.connector_.chances ∧ s.connector_.chances ≤ 1 ∧
      (s.connection_.isSome = true → more = [] ∧ s₂.connector_.nextFd = s.connector_.nextFd) := by
  have hL := reachable_lone h hconnects
  have hsame : s₁.connects = s.connects := connects_of_step rfl hdisconnect
  have hone : s₁.connects ≤ 1 := hsame ▸ hconnects
  have hoff : s₁.connect_ = false := (step_connector hdisconnect).2.1
  have hfirst : Fades s.connector_ s₁.connector_ := by
    obtain ⟨⟨d, d', hbefore, hdialed, hafter⟩, -, -⟩ := step_connector hdisconnect
    obtain rfl : d' = d := hdialed
    exact hbefore.fades.trans hafter.fades
  have hfades := hfirst.trans (off_run hoff (lone_step hL hone hdisconnect) hone hes hrun)
  obtain ⟨more, hmore, hle⟩ := hfades.handed
  have hlone := hL.one
  unfold outstanding at hlone
  refine ⟨more, hmore, hle, ?_, ?_⟩
  · unfold chances
    omega
  · intro hsome
    -- the connection takes the only place there is
    obtain ⟨sockfd, hsockfd⟩ := Option.isSome_iff_exists.mp hsome
    have hpos := List.length_pos_of_mem (reachable_points h sockfd hsockfd)
    have hzero : s.connector_.chances = 0 := by
      unfold chances
      omega
    refine ⟨List.length_eq_zero_iff.mp ?_, hfades.made hzero⟩
    omega

/-- `disconnect()` comes while the attempt is in flight, which then succeeds. -/
def afterDisconnect : List Event :=
  [.handleEvent ⟨false, false, true⟩, .runCallback ⟨false, false⟩, .leaveUser, .endEvent,
    .doPendingFunctors, .runFunctor .zero, .endFunctors]

theorem disconnect_ends_with_one_inFlight :
    ∃ s s₁ s₂, clientMachine.run (TcpClient.new true false)
        [.connect .loop .EINPROGRESS, .doPendingFunctors, .endFunctors] = some s ∧
      s.step (.disconnect (.other 1)) = some s₁ ∧ clientMachine.run s₁ afterDisconnect = some s₂ ∧
      s.connector_.chances = 1 ∧ s₂.connection_ = some 0 ∧ s₂.connector_.chances = 0 := by
  have hrun : ((clientMachine.run (TcpClient.new true false)
      [.connect .loop .EINPROGRESS, .doPendingFunctors, .endFunctors]).bind fun s =>
        (s.step (.disconnect (.other 1))).bind fun s₁ =>
          (clientMachine.run s₁ afterDisconnect).map fun s₂ =>
            (s.connects, s.connector_.handed, s₂.connector_.handed, s₂.connection_)) =
      some (1, [], [0], some 0) := by
    decide +kernel
  obtain ⟨s, hs, hrun⟩ := Option.bind_eq_some_iff.mp hrun
  obtain ⟨s₁, hs₁, hrun⟩ := Option.bind_eq_some_iff.mp hrun
  obtain ⟨s₂, hs₂, hvalues⟩ := Option.map_eq_some_iff.mp hrun
  simp only [Prod.mk.injEq] at hvalues
  obtain ⟨hconnects, hnone, hhanded, hcurrent⟩ := hvalues
  have hreach := Machine.run_reachable (M := clientMachine) ⟨true, false, rfl⟩ hs
  obtain ⟨more, hmore, hle, hone, -⟩ :=
    disconnect_ends_with_one hreach (Nat.le_of_eq hconnects) hs₁ hs₂ (by decide)
  rw [hhanded, hnone, List.nil_append] at hmore
  rw [← hmore, List.length_singleton] at hle
  exact ⟨s, s₁, s₂, hs, hs₁, hs₂, by omega, hcurrent, by omega⟩

end TcpClient

end Simplev
