import Simplev.Net.Correctness.HalfClose

/-!
# `Net.Correctness.Interest` — write interest and the deferred half-close

When `shutdownInLoop` finds the channel writing it does nothing and leaves the half-close to the
`handleWrite` that drains the buffer. Write interest matches the backlog (`Net.Correctness.Backlog`), so
such a `handleWrite` is still to come, and no other function empties the buffer.
-/

namespace Simplev

open Foundation TcpConnection

namespace Session

variable {s s' : Session} {t : Turn} {actions : List Action}

/-- `shutdownInLoop` has run for a `shutdown()`: fewer of its functors wait than `shutdown()` calls found
    `kConnected`. -/
def ShutdownRan (s : Session) : Prop :=
  s.loop.waiting.count .shutdownInLoop < s.trace.count .disconnect

instance (s : Session) : Decidable s.ShutdownRan := inferInstanceAs (Decidable (_ < _))

/-- **The half-close is not forgotten.** -/
structure Deferred (s : Session) : Prop where
  counted : s.loop.waiting.count .shutdownInLoop ≤ s.trace.count .disconnect
  pending : s.ShutdownRan → .shutdownWrite ∈ s.trace ∨ s.conn.outputBuffer_.readable ≠ []

/-- Functors that are not `shutdownInLoop` leave the count of those as it is. -/
theorem count_harmless {owner : Owner} (h : ∀ a ∈ actions, a ≠ .queueInLoop .shutdownInLoop ∧
      ∀ caller message, a ≠ .queueInLoop (.sendInLoop caller message)) :
    (actions.flatMap (queuedBy owner)).count .shutdownInLoop = 0 := by
  rw [List.count_eq_zero]
  intro hmem
  exact (queued_harmless (s := Session.new owner 0 false) h _ hmem).1 rfl

/-- A step that neither calls `shutdown()` nor takes a `shutdownInLoop` keeps the invariant, if it leaves
    the backlog or does the half-close itself. -/
theorem Deferred.keep (h : s.Deferred) (htrace : s'.trace = s.trace ++ actions)
    (hdisconnect : .disconnect ∉ actions)
    (hwaiting : s'.loop.waiting.count .shutdownInLoop = s.loop.waiting.count .shutdownInLoop)
    (hread : s.conn.outputBuffer_.readable ≠ [] →
      s'.conn.outputBuffer_.readable ≠ [] ∨ (s.ShutdownRan → .shutdownWrite ∈ actions)) :
    s'.Deferred := by
  have hcount : s'.trace.count .disconnect = s.trace.count .disconnect := by
    rw [htrace, List.count_append, List.count_eq_zero.mpr hdisconnect, Nat.add_zero]
  constructor
  · rw [hwaiting, hcount]
    exact h.counted
  · intro hran
    rw [ShutdownRan, hwaiting, hcount] at hran
    rw [htrace, List.mem_append]
    rcases h.pending hran with hdone | hsome
    · exact Or.inl (Or.inl hdone)
    · rcases hread hsome with hleft | hdone
      · exact Or.inr hleft
      · exact Or.inl (Or.inr (hdone hran))

/-- When `shutdownInLoop` runs it half-closes the connection, or bytes are left to drain. -/
theorem shutdownInLoop_mem (hmatched : Matched s.conn) :
    .shutdownWrite ∈ s.conn.shutdownInLoop ∨ s.conn.outputBuffer_.readable ≠ [] := by
  unfold shutdownInLoop
  split
  · exact Or.inl (List.mem_singleton_self _)
  · rename_i hwriting
    exact Or.inr (hmatched.mp (by simpa [Channel.isWriting] using hwriting))

/-- A `shutdown()` that has been accepted and not followed by `handleClose` leaves `kDisconnecting`. -/
theorem disconnecting_of_ran (hwired : s.Wired) (hordered : s.Ordered)
    (hopen : .closeCallback ∉ s.trace) (hran : s.ShutdownRan) : s.conn.state_ = .kDisconnecting := by
  have hmem : .disconnect ∈ s.trace := List.count_pos_iff.mp (Nat.zero_lt_of_lt hran)
  obtain ⟨hconnecting, hconnected⟩ := hordered.state hmem
  obtain ⟨stage, messages, hat⟩ := hwired.stage
  have hcloses := hat.closes
  rw [List.count_eq_zero.mpr hopen] at hcloses
  cases stage with
  | opening => exact absurd hat.state hconnecting
  | up => exact hat.state.resolve_left hconnected
  | closing => simp [Stage.closes] at hcloses
  | down => simp [Stage.closes] at hcloses

/-- The `handleWrite` that empties the buffer of a `kDisconnecting` connection half-closes it. -/
theorem wrote_half_closes {c c' : TcpConnection} {w : Write} (hstate : c.state_ = .kDisconnecting)
    (h : Wrote c w c' actions) (hsome : c.outputBuffer_.readable ≠ []) :
    c'.outputBuffer_.readable ≠ [] ∨ .shutdownWrite ∈ actions := by
  cases h with
  | closed _ => exact Or.inl hsome
  | kept _ _ => exact Or.inl hsome
  | partly _ _ hn _ hread =>
      left
      rw [hread, ne_eq, List.drop_eq_nil_iff]
      omega
  | drained _ _ _ _ =>
      right
      rw [if_pos hstate]
      simp

/-- **The step lemma**, up to `handleClose`. -/
theorem Deferred.step (h : s.Deferred) (hwired : s.Wired) (hordered : s.Ordered)
    (hmatched : Matched s.conn) (hopen : .closeCallback ∉ s.trace) (hmoves : Moves s s' t) :
    s'.Deferred := by
  cases hmoves with
  | pass _ _ _ houtput hwaiting htrace =>
      exact h.keep (htrace.trans (List.append_nil _).symm) (by simp) (by rw [hwaiting])
        (fun hsome => Or.inl (by rwa [houtput]))
  | accept _ _ hconn hwaiting htrace =>
      exact h.keep htrace (by simp) (by simp [hwaiting]) (fun hsome => Or.inl (by rwa [hconn]))
  | send _ hsent hwaiting htrace =>
      obtain ⟨hkinds, hdisconnect⟩ := sent_harmless hsent
      refine h.keep htrace (by simpa using hdisconnect) ?_ fun hsome => Or.inl ?_
      · rw [hwaiting, List.count_append, count_harmless hkinds, Nat.add_zero]
      · rw [hsent.readable]
        exact List.append_ne_nil_of_left_ne_nil hsome _
  | take htook hsent hwaiting htrace =>
      obtain ⟨hkinds, hdisconnect⟩ := sent_harmless hsent
      refine h.keep htrace hdisconnect ?_ fun hsome => Or.inl ?_
      · rw [hwaiting, htook, List.count_append, count_harmless hkinds]
        simp
      · rw [hsent.readable]
        exact List.append_ne_nil_of_left_ne_nil hsome _
  | shutdownHere _ hconn hwaiting htrace =>
      constructor
      · rw [hwaiting, htrace, List.count_append]
        exact Nat.le_add_right_of_le h.counted
      · intro _
        rw [htrace, hconn]
        rcases shutdownInLoop_mem hmatched with hdone | hsome
        · exact Or.inl (List.mem_append_right _ (List.mem_cons_of_mem _ hdone))
        · exact Or.inr hsome
  | shutdownElsewhere hk _ hconn hwaiting htrace =>
      -- the only accepted `shutdown()` is this one, and its functor waits
      have hfresh : s.trace.count .disconnect = 0 :=
        List.count_eq_zero.mpr fun hmem => (hordered.state hmem).2 hk
      have hcounts : s'.loop.waiting.count .shutdownInLoop = 1 ∧ s'.trace.count .disconnect = 1 := by
        have hnone := h.counted
        rw [hwaiting, htrace, List.count_append, List.count_append]
        simp only [hfresh, Nat.le_zero] at hnone
        simp [hfresh, hnone]
      constructor
      · exact Nat.le_of_eq (hcounts.1.trans hcounts.2.symm)
      · intro hran
        rw [ShutdownRan, hcounts.1, hcounts.2] at hran
        exact absurd hran (Nat.lt_irrefl 1)
  | shutdownInLoop htook hconn htrace =>
      have hnone : (s.conn.shutdownInLoop).count .disconnect = 0 :=
        List.count_eq_zero.mpr fun hmem => absurd (mem_shutdownInLoop hmem) (by simp)
      constructor
      · have hcounted := h.counted
        rw [htook, List.count_cons_self] at hcounted
        rw [htrace, List.count_append, hnone]
        omega
      · intro _
        rw [htrace, hconn]
        exact (shutdownInLoop_mem hmatched).imp_left (List.mem_append_right _)
  | connectEstablished _ _ hconn hwaiting htrace =>
      refine h.keep htrace (by simp) ?_ fun hsome => Or.inl (by rwa [hconn])
      rcases hwaiting with hsame | hhead
      · rw [hsame]
      · simp [hhead]
  | connectDestroyed _ hclosed _ _ _ => exact absurd hclosed hopen
  | handleRead _ _ hread hwaiting htrace =>
      obtain ⟨hkinds, hdisconnect⟩ := read_harmless hread
      refine h.keep htrace hdisconnect ?_ fun hsome => Or.inl (by rwa [hread.output])
      rw [hwaiting, List.count_append, count_harmless hkinds, Nat.add_zero]
  | handleWrite hwrote hwaiting htrace =>
      obtain ⟨hkinds, hdisconnect⟩ := wrote_harmless hwrote
      refine h.keep htrace hdisconnect ?_ fun hsome => ?_
      · rw [hwaiting, List.count_append, count_harmless hkinds, Nat.add_zero]
      · by_cases hran : s.ShutdownRan
        · have hstate := disconnecting_of_ran hwired hordered hopen hran
          exact (wrote_half_closes hstate hwrote hsome).imp_right fun hdone _ => hdone
        · exact Or.inr fun h => absurd h hran
  | @notify _ f htook hkind hconn htrace =>
      refine h.keep htrace (by simp) ?_ fun hsome => Or.inl (by rwa [hconn])
      rw [htook]
      rcases hkind with ⟨rfl, _⟩ | ⟨_, rfl, _⟩ <;> simp
  | removeConnectionInLoop hconn hwaiting htrace =>
      exact h.keep (htrace.trans (List.append_nil _).symm) (by simp) (by simp [hwaiting])
        (fun hsome => Or.inl (by rwa [hconn]))

theorem reachable_deferred (h : connectionMachine.Reachable s) :
    .closeCallback ∉ s.trace → s.Deferred := by
  refine h.invariant (I := fun s => .closeCallback ∉ s.trace → s.Deferred) ?_ ?_
  · rintro s ⟨owner, sockfd, writeComplete, rfl⟩ _
    constructor
    · cases hsame : owner.sameLoop <;> simp [Session.new, hsame]
    · intro hran
      simp [ShutdownRan, Session.new] at hran
  · intro s e s' hs hdeferred _ hstep hopen
    have hmoves := step_moves (reachable_wired hs) hstep
    have hbefore : .closeCallback ∉ s.trace := fun hmem => hopen (hmoves.trace_grows.subset hmem)
    exact (hdeferred hbefore).step (reachable_wired hs) (reachable_ordered hs)
      (reachable_matched hs hbefore) hbefore hmoves

/-- After the turn of a `shutdownInLoop` it has run. -/
theorem Deferred.ran (h : s.Deferred) (hmoves : Moves s s' t)
    (hturn : t = .shutdownInLoop ∨ t = .shutdown .loop) : s'.ShutdownRan := by
  rcases hturn with rfl | rfl
  · cases hmoves with
    | shutdownInLoop htook _ htrace =>
        have hcounted := h.counted
        rw [htook, List.count_cons_self] at hcounted
        rw [ShutdownRan, htrace, List.count_append]
        omega
  · cases hmoves with
    | shutdownHere _ _ hwaiting htrace =>
        have hcounted := h.counted
        rw [ShutdownRan, hwaiting, htrace, List.count_append, List.count_cons_self]
        omega
    | shutdownElsewhere _ hother _ _ _ => exact absurd rfl hother

/-- Only a `handleWrite` empties the buffer. -/
theorem empties (hwired : s.Wired) (hordered : s.Ordered) (hopen : .closeCallback ∉ s.trace)
    (hran : s.ShutdownRan) (hmoves : Moves s s' t) (hsome : s.conn.outputBuffer_.readable ≠ [])
    (hnone : s'.conn.outputBuffer_.readable = []) :
    ∃ w actions, t = .handleWrite w ∧ s'.trace = s.trace ++ actions ∧ .shutdownWrite ∈ actions := by
  have hsent : ∀ rest, s'.conn.outputBuffer_.readable ≠ s.conn.outputBuffer_.readable ++ rest := by
    intro rest heq
    rw [hnone] at heq
    exact List.append_ne_nil_of_left_ne_nil hsome rest heq.symm
  have hsame : s'.conn.outputBuffer_ ≠ s.conn.outputBuffer_ := by
    intro heq
    exact hsent [] (by rw [heq, List.append_nil])
  cases hmoves with
  | pass _ _ _ houtput _ _ => exact absurd houtput hsame
  | accept _ _ hconn _ _ => exact absurd (by rw [hconn]) hsame
  | send _ hsends _ _ => exact absurd hsends.readable (hsent _)
  | take _ hsends _ _ => exact absurd hsends.readable (hsent _)
  | shutdownHere _ hconn _ _ => exact absurd (by rw [hconn]) hsame
  | shutdownElsewhere _ _ hconn _ _ => exact absurd (by rw [hconn]) hsame
  | shutdownInLoop _ hconn _ => exact absurd (by rw [hconn]) hsame
  | connectEstablished _ _ hconn _ _ => exact absurd (by rw [hconn]) hsame
  | connectDestroyed _ _ hconn _ _ => exact absurd (by rw [hconn]) hsame
  | handleRead _ _ hread _ _ => exact absurd hread.output hsame
  | @handleWrite w actions hwrote _ htrace =>
      have hstate := disconnecting_of_ran hwired hordered hopen hran
      exact ⟨w, actions, rfl, htrace,
        (wrote_half_closes hstate hwrote hsome).resolve_left fun h => h hnone⟩
  | notify _ _ hconn _ => exact absurd (by rw [hconn]) hsame
  | removeConnectionInLoop hconn _ _ => exact absurd (by rw [hconn]) hsame

/-- **Write interest and the deferred half-close.** Up to `handleClose` the channel is writing if and only
    if the buffer holds bytes. Once `shutdownInLoop` has run, `shutdownWrite()` has been executed or
    bytes are left; and the step that takes the last of them is a `handleWrite` that executes it. -/
theorem write_interest (h : connectionMachine.Reachable s) (hopen : .closeCallback ∉ s.trace) :
    (s.conn.channel_.isWriting = true ↔ s.conn.outputBuffer_.readable ≠ []) ∧
      (s.ShutdownRan → .shutdownWrite ∈ s.trace ∨ s.conn.outputBuffer_.readable ≠ []) ∧
      ∀ e s', s.step e = some s' →
        (s.turn e = .shutdownInLoop ∨ s.turn e = .shutdown .loop → s'.ShutdownRan) ∧
        (s.ShutdownRan → s.conn.outputBuffer_.readable ≠ [] → s'.conn.outputBuffer_.readable = [] →
          ∃ w actions, s.turn e = .handleWrite w ∧ s'.trace = s.trace ++ actions ∧
            .shutdownWrite ∈ actions) := by
  have hdeferred := reachable_deferred h hopen
  refine ⟨reachable_matched h hopen, hdeferred.pending, ?_⟩
  intro e s' hstep
  have hmoves := step_moves (reachable_wired h) hstep
  exact ⟨hdeferred.ran hmoves,
    fun hran => empties (reachable_wired h) (reachable_ordered h) hopen hran hmoves⟩

/-- User code sends two bytes of which the socket takes one, and shuts down; the drain is to come. -/
def shutdownBehindBacklog : List Event :=
  [.connectEstablished, .send .loop ⟨[8, 9], by decide⟩ (.wrote 1), .shutdown .loop, .leaveUser,
   .handleEvent ⟨false, false, true⟩]

/-- The drain of `shutdownBehindBacklog` half-closes the connection. -/
theorem write_interest_shutdownBehindBacklog :
    ∃ s s', connectionMachine.run (Session.new (.tcpServer true) 9 false) shutdownBehindBacklog = some s ∧
      s.conn.channel_.isWriting = true ∧
      s.step (.runCallback (.error 0) (.wrote 1)) = some s' ∧
      ∃ actions, s'.trace = s.trace ++ actions ∧ .shutdownWrite ∈ actions := by
  have hrun : ((connectionMachine.run (Session.new (.tcpServer true) 9 false)
      shutdownBehindBacklog).bind fun s => (s.step (.runCallback (.error 0) (.wrote 1))).map fun s' =>
        (s.conn.outputBuffer_.readable, decide (.closeCallback ∈ s.trace), decide s.ShutdownRan,
          s'.conn.outputBuffer_.readable)) = some ([9], false, true, []) := by
    decide +kernel
  obtain ⟨s, hs, hmap⟩ := Option.bind_eq_some_iff.mp hrun
  obtain ⟨s', hstep, hvalues⟩ := Option.map_eq_some_iff.mp hmap
  simp only [Prod.mk.injEq, decide_eq_true_eq, decide_eq_false_iff_not] at hvalues
  obtain ⟨hread, hopen, hran, hdrained⟩ := hvalues
  have hsome : s.conn.outputBuffer_.readable ≠ [] := by simp [hread]
  obtain ⟨hwriting, _, hsteps⟩ := write_interest (reachable_of_run hs) hopen
  obtain ⟨_, actions, _, htrace, hdone⟩ := (hsteps _ _ hstep).2 hran hsome hdrained
  exact ⟨s, s', hs, hwriting.mpr hsome, hstep, actions, htrace, hdone⟩

end Session

end Simplev
