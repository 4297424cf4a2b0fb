import Simplev.Foundation.Trace
import Simplev.Net.Correctness.Stream

/-!
# `Net.Correctness.Silence` — what a connection does after `handleClose`

`handleClose` turns every interest off, and `handleWrite` knows that a connection may be down by then.
`sendInLoop` does not: `handleClose` leaves `state_` as it is, so `send()` goes on accepting messages
until `connectDestroyed`, a queued `sendInLoop` runs at any time after it, and both write to the socket
or buffer the message and turn writing back on. User callbacks queued before the close are made after it
as well.

`Quiet` is what a step after the close should be; `Spared` the steps that meet none of these paths.
`silence_after_close` proves that in runs of spared steps the connection is silent after the close, and
that there a step is quiet just when it is spared.
-/

namespace Simplev

open Foundation TcpConnection

namespace Session

/-! ## Silence -/

/-- An action that a closed connection should not do: write to the socket, queue a write-complete or
    high-water callback, or call user code other than the down call of `connectionCallback_`. -/
def isLoud : Action → Bool
  | .write _ _ => true
  | .queueInLoop .writeCompleteCallback => true
  | .queueInLoop (.highWaterMarkCallback _) => true
  | .callback (.connection connected) => connected
  | .callback _ => true
  | _ => false

/-- **A quiet step**: it does nothing loud, appends nothing to `outputBuffer_` and turns no interest
    on. -/
structure Quiet (s s' : Session) : Prop where
  actions : ∀ a ∈ s'.trace.drop s.trace.length, isLoud a = false
  output : s'.conn.outputBuffer_ = s.conn.outputBuffer_
  reading : s'.conn.channel_.reading = true → s.conn.channel_.reading = true
  writing : s'.conn.channel_.writing = true → s.conn.channel_.writing = true

/-- After `handleClose` nothing loud is done, and the down call is made at most once. -/
def SilentAfterClose (trace : List Action) : Prop :=
  ∀ early late, trace = early ++ .closeCallback :: late →
    (∀ a ∈ late, isLoud a = false) ∧ late.count (.callback (.connection false)) ≤ 1

/-- `sendInLoop` does not run, unless on an empty message behind bytes that are already buffered; and no
    write-complete or high-water callback is made. -/
def Spared (s : Session) : Turn → Prop
  | .send _ message _ => ¬ s.conn.Idle ∧ message.bytes = []
  | .take _ message _ => ¬ s.conn.Idle ∧ message.bytes = []
  | .notify _ => False
  | _ => True

/-- After `handleClose` the step is spared. -/
def SparedOnceClosed (s : Session) (e : Event) : Prop :=
  .closeCallback ∈ s.trace → s.Spared (s.turn e)

instance (s : Session) : (t : Turn) → Decidable (s.Spared t)
  | .send _ message _ => inferInstanceAs (Decidable (¬ s.conn.Idle ∧ message.bytes = []))
  | .take _ message _ => inferInstanceAs (Decidable (¬ s.conn.Idle ∧ message.bytes = []))
  | .notify _ => inferInstanceAs (Decidable False)
  | .pass => inferInstanceAs (Decidable True)
  | .accept _ _ => inferInstanceAs (Decidable True)
  | .shutdown _ => inferInstanceAs (Decidable True)
  | .shutdownInLoop => inferInstanceAs (Decidable True)
  | .connectEstablished => inferInstanceAs (Decidable True)
  | .connectDestroyed => inferInstanceAs (Decidable True)
  | .handleRead _ => inferInstanceAs (Decidable True)
  | .handleWrite _ => inferInstanceAs (Decidable True)
  | .removeConnectionInLoop => inferInstanceAs (Decidable True)

instance (s : Session) (e : Event) : Decidable (s.SparedOnceClosed e) :=
  inferInstanceAs (Decidable (_ → _))

/-! ## Which steps are quiet -/

variable {s s' : Session} {t : Turn} {actions : List Action}

theorem quiet_of (htrace : s'.trace = s.trace ++ actions) (hquiet : ∀ a ∈ actions, isLoud a = false)
    (houtput : s'.conn.outputBuffer_ = s.conn.outputBuffer_)
    (hreading : s'.conn.channel_.reading = true → s.conn.channel_.reading = true)
    (hwriting : s'.conn.channel_.writing = true → s.conn.channel_.writing = true) : Quiet s s' where
  actions := by
    rw [htrace, List.drop_left]
    exact hquiet
  output := houtput
  reading := hreading
  writing := hwriting

/-- A step that leaves the buffer and the channel alone is quiet if its actions are. -/
theorem quiet_of_same (htrace : s'.trace = s.trace ++ actions)
    (hquiet : ∀ a ∈ actions, isLoud a = false)
    (houtput : s'.conn.outputBuffer_ = s.conn.outputBuffer_)
    (hchannel : s'.conn.channel_ = s.conn.channel_) : Quiet s s' :=
  quiet_of htrace hquiet houtput (by rw [hchannel]; exact id) (by rw [hchannel]; exact id)

theorem Quiet.new (h : Quiet s s') (htrace : s'.trace = s.trace ++ actions) :
    ∀ a ∈ actions, isLoud a = false := by
  have hactions := h.actions
  rwa [htrace, List.drop_left] at hactions

/-- Running `sendInLoop` is loud, or it changes the output buffer, or the message is empty and has bytes
    in front of it. -/
theorem sent_quiet_iff {caller : Thread} {message : Message} {w : Write} {direct : Option Write}
    {rest : List Byte} (before : List Action)
    (hsent : Sent s.conn caller message w s'.conn actions direct rest)
    (hbefore : ∀ a ∈ before, isLoud a = false) (htrace : s'.trace = s.trace ++ (before ++ actions)) :
    Quiet s s' ↔ ¬ s.conn.Idle ∧ message.bytes = [] := by
  constructor
  · intro hquiet
    have hnone : ∀ w', direct ≠ some w' := by
      rintro w' rfl
      have hwrite := hquiet.new htrace (.write message.bytes w') (by rw [hsent.actions]; simp)
      simp [isLoud] at hwrite
    have hempty : rest = [] := by
      have hread := hsent.readable
      rw [hquiet.output] at hread
      simpa using hread
    cases hsent.disposes with
    | buffered hbusy => exact ⟨hbusy, hempty⟩
    | wrote _ _ _ => exact absurd rfl (hnone w)
    | refused _ _ _ => exact absurd rfl (hnone w)
    | dropped _ _ => exact absurd rfl (hnone w)
  · rintro ⟨hbusy, hempty⟩
    have hbuffered : direct = none ∧ rest = [] := by
      cases hsent.disposes with
      | buffered _ => exact ⟨rfl, hempty⟩
      | wrote hidle _ _ => exact absurd hidle hbusy
      | refused hidle _ _ => exact absurd hidle hbusy
      | dropped hidle _ => exact absurd hidle hbusy
    obtain ⟨rfl, rfl⟩ := hbuffered
    have hconn := hsent.unchanged rfl
    refine quiet_of_same htrace ?_ (by rw [hconn]) (by rw [hconn])
    intro a ha
    rcases List.mem_append.mp ha with hb | ha
    · exact hbefore a hb
    · rw [hsent.actions] at ha
      simp only [Option.toList_none, List.map_nil, completed, crossed, if_true, List.append_nil,
        List.mem_singleton] at ha
      rw [ha]
      rfl

/-- After the close, with writing still turned off, a step is quiet just when it is spared. -/
theorem quiet_iff_spared (hclosed : .closeCallback ∈ s.trace)
    (hoff : s.conn.channel_.writing = false) (hmoves : Moves s s' t) : Quiet s s' ↔ s.Spared t := by
  cases hmoves with
  | pass _ hreading hwriting houtput _ htrace =>
      refine iff_of_true ?_ trivial
      exact quiet_of (htrace.trans (List.append_nil _).symm) (by simp) houtput (by rw [hreading]; exact id)
        (by rw [hwriting]; exact id)
  | accept _ _ hconn _ htrace =>
      refine iff_of_true ?_ trivial
      exact quiet_of_same htrace (by simp [isLoud]) (by rw [hconn]) (by rw [hconn])
  | @send message w actions direct rest _ hsent _ htrace =>
      exact sent_quiet_iff [.accept .loop message] hsent (by simp [isLoud]) htrace
  | take _ hsent _ htrace => exact sent_quiet_iff [] hsent (by simp) htrace
  | shutdownHere _ hconn _ htrace =>
      refine iff_of_true ?_ trivial
      refine quiet_of_same htrace ?_ (by rw [hconn]) (by rw [hconn])
      unfold shutdownInLoop
      split <;> simp [isLoud]
  | shutdownElsewhere _ _ hconn _ htrace =>
      refine iff_of_true ?_ trivial
      exact quiet_of_same htrace (by simp [isLoud]) (by rw [hconn]) (by rw [hconn])
  | shutdownInLoop _ hconn htrace =>
      refine iff_of_true ?_ trivial
      refine quiet_of_same htrace ?_ (by rw [hconn]) (by rw [hconn])
      unfold shutdownInLoop
      split <;> simp [isLoud]
  | connectEstablished _ hopen _ _ _ => exact absurd hclosed hopen
  | connectDestroyed _ _ hconn _ htrace =>
      refine iff_of_true ?_ trivial
      exact quiet_of htrace (by simp [isLoud]) (by rw [hconn]) (by simp [hconn, Channel.disableAll])
        (by simp [hconn, Channel.disableAll])
  | handleRead _ hopen _ _ _ => exact absurd hclosed hopen
  | @handleWrite w actions hwrote _ htrace =>
      refine iff_of_true ?_ trivial
      -- the source's own case: the connection is down, no more writing
      generalize hc : s'.conn = c' at hwrote
      cases hwrote with
      | closed _ => exact quiet_of_same htrace (by simp) (by rw [hc]) (by rw [hc])
      | kept hwriting _ => exact absurd (hoff.symm.trans hwriting) (by simp)
      | partly hwriting _ _ _ _ => exact absurd (hoff.symm.trans hwriting) (by simp)
      | drained hwriting _ _ _ => exact absurd (hoff.symm.trans hwriting) (by simp)
  | @notify cb f _ hkind _ htrace =>
      refine iff_of_false ?_ id
      intro hquiet
      have hcall := hquiet.new htrace (.callback cb) (List.mem_singleton_self _)
      rcases hkind with ⟨_, rfl⟩ | ⟨_, _, rfl⟩ <;> simp [isLoud] at hcall
  | removeConnectionInLoop hconn _ htrace =>
      refine iff_of_true ?_ trivial
      exact quiet_of_same (htrace.trans (List.append_nil _).symm) (by simp) (by rw [hconn])
        (by rw [hconn])

/-! ## Runs of spared steps -/

/-- The close itself is the last action of its step, and turns writing off. -/
theorem closes_step (hopen : .closeCallback ∉ s.trace) (hclosed : .closeCallback ∈ s'.trace)
    (hmoves : Moves s s' t) :
    s'.trace = s.trace ++ [.closeCallback] ∧ s'.conn.channel_.writing = false := by
  have hnew : ∀ {actions}, s'.trace = s.trace ++ actions → .closeCallback ∈ actions := by
    intro actions htrace
    rw [htrace, List.mem_append] at hclosed
    exact hclosed.resolve_left hopen
  cases hmoves with
  | pass _ _ _ _ _ htrace => exact absurd (htrace ▸ hclosed) hopen
  | accept _ _ _ _ htrace => exact absurd (hnew htrace) (by simp)
  | send _ hsent _ htrace =>
      have hmem := hnew htrace
      rcases List.mem_cons.mp hmem with heq | hmem
      · simp at heq
      · exact absurd (sent_plain hsent _ hmem) (by simp [isPlain])
  | take _ hsent _ htrace => exact absurd (sent_plain hsent _ (hnew htrace)) (by simp [isPlain])
  | shutdownHere _ _ _ htrace =>
      rcases List.mem_cons.mp (hnew htrace) with heq | hmem
      · simp at heq
      · exact absurd (shutdownInLoop_plain _ _ hmem) (by simp [isPlain])
  | shutdownElsewhere _ _ _ _ htrace => exact absurd (hnew htrace) (by simp)
  | shutdownInLoop _ _ htrace =>
      exact absurd (shutdownInLoop_plain _ _ (hnew htrace)) (by simp [isPlain])
  | connectEstablished _ _ _ _ htrace => exact absurd (hnew htrace) (by simp)
  | connectDestroyed _ hwas _ _ _ => exact absurd hwas hopen
  | @handleRead r actions _ _ hread _ htrace =>
      have hmem := hnew htrace
      generalize hc : s'.conn = c' at hread
      cases hread with
      | error _ => simp at hmem
      | closed _ _ _ => exact ⟨htrace, rfl⟩
      | arrived _ _ _ _ => simp at hmem
  | handleWrite hwrote _ htrace => exact absurd (wrote_plain hwrote _ (hnew htrace)) (by simp [isPlain])
  | notify _ _ _ htrace => exact absurd (hnew htrace) (by simp)
  | removeConnectionInLoop _ _ htrace => exact absurd (htrace ▸ hclosed) hopen

/-- What holds after the close in runs of spared steps. -/
structure Hushed (s : Session) : Prop where
  off : .closeCallback ∈ s.trace → s.conn.channel_.writing = false
  quiet : ∀ early late, s.trace = early ++ .closeCallback :: late → ∀ a ∈ late, isLoud a = false

theorem Hushed.step (h : s.Hushed) (hspared : .closeCallback ∈ s.trace → s.Spared t)
    (hmoves : Moves s s' t) : s'.Hushed := by
  by_cases hclosed : .closeCallback ∈ s.trace
  · have hquiet := (quiet_iff_spared hclosed (h.off hclosed) hmoves).mpr (hspared hclosed)
    obtain ⟨new, hnew⟩ := hmoves.trace_grows
    refine ⟨fun _ => ?_, fun early late hsplit a ha => ?_⟩
    · by_contra hon
      have hwas := hquiet.writing (by simpa using hon)
      rw [h.off hclosed] at hwas
      simp at hwas
    · have hloud := hquiet.new hnew.symm
      rw [← hnew] at hsplit
      rcases append_eq_append_cons hsplit with ⟨mid, hmid, rfl⟩ | ⟨mid, _, hmid⟩
      · rcases List.mem_append.mp ha with ha | ha
        · exact h.quiet early mid hmid a ha
        · exact hloud a ha
      · exact hloud a (by rw [hmid]; exact List.mem_append_right _ (List.mem_cons_of_mem _ ha))
  · by_cases hnow : .closeCallback ∈ s'.trace
    · obtain ⟨htrace, hoff⟩ := closes_step hclosed hnow hmoves
      refine ⟨fun _ => hoff, fun early late hsplit a ha => ?_⟩
      rw [htrace] at hsplit
      rcases append_eq_append_cons hsplit with ⟨mid, hmid, _⟩ | ⟨mid, _, hmid⟩
      · exact absurd (by rw [hmid]; simp) hclosed
      · cases mid with
        | nil =>
            simp only [List.nil_append, List.cons.injEq, true_and] at hmid
            rw [← hmid] at ha
            simp at ha
        | cons b mid => simp at hmid
    · refine ⟨fun hmem => absurd hmem hnow, fun early late hsplit => ?_⟩
      exact absurd (by rw [hsplit]; simp) hnow

theorem via_hushed (h : connectionMachine.ReachableVia SparedOnceClosed s) : s.Hushed := by
  refine h.invariant ?_ ?_
  · rintro s ⟨owner, sockfd, writeComplete, rfl⟩
    refine ⟨fun hmem => ?_, fun early late hsplit => ?_⟩
    · simp [Session.new] at hmem
    · simp [Session.new] at hsplit
  · intro s e s' hs hhushed hspared hstep
    exact hhushed.step hspared (step_moves (reachable_wired (hs.mono fun _ _ _ => trivial)) hstep)

/-- The protocol calls count the down calls. -/
theorem count_down_eq (trace : List Action) :
    trace.count (.callback (.connection false)) =
      (protocolCalls trace).count (.connection false) := by
  rw [protocolCalls, List.count_filterMap, List.count_eq_countP]
  apply List.countP_congr
  intro a _
  have hsame : protocolCall a = some (.connection false) ↔ a = .callback (.connection false) := by
    unfold protocolCall
    split <;> simp_all
  simp [hsame]

/-- `connectDestroyed` makes its call once. -/
theorem count_down_le (h : s.Wired) : s.trace.count (.callback (.connection false)) ≤ 1 := by
  obtain ⟨stage, messages, hat⟩ := h.stage
  have hmessages : messages.count (.connection false) = 0 := by
    rw [List.count_eq_zero]
    intro hmem
    exact hat.bring _ hmem
  rw [count_down_eq, hat.calls]
  cases stage <;> simp [Stage.calls, List.count_append, hmessages]

/-- **Silence after close.** In every run whose steps after `handleClose` are spared, the connection is
    silent from then on; and the next step after the close is quiet just when it is spared. -/
theorem silence_after_close (h : connectionMachine.ReachableVia SparedOnceClosed s) :
    SilentAfterClose s.trace ∧
      ∀ e s', .closeCallback ∈ s.trace → s.step e = some s' → (Quiet s s' ↔ s.Spared (s.turn e)) := by
  have hwired := reachable_wired (h.mono fun _ _ _ => trivial)
  have hhushed := via_hushed h
  constructor
  · intro early late hsplit
    refine ⟨hhushed.quiet early late hsplit, ?_⟩
    have hall := count_down_le hwired
    rw [hsplit, List.count_append, List.count_cons] at hall
    omega
  · intro e s' hclosed hstep
    exact quiet_iff_spared hclosed (hhushed.off hclosed) (step_moves hwired hstep)

/-- A message accepted while the peer closes: its functor runs after `handleClose`. -/
def sendAsPeerCloses : List Event :=
  [.connectEstablished, .leaveUser, .handleEvent ⟨false, true, false⟩,
   .send (.other 1) ⟨[5], by decide⟩ (.wrote 0), .runCallback (.data []) (.wrote 0), .endEvent,
   .doPendingFunctors]

/-- `sendAsPeerCloses` goes on to write to the socket of the closed connection. -/
theorem writes_after_close :
    ¬ ∀ s e s', connectionMachine.Reachable s → .closeCallback ∈ s.trace → s.step e = some s' →
      Quiet s s' := by
  intro hclaim
  have hrun : ((connectionMachine.run (Session.new (.tcpServer true) 9 false) sendAsPeerCloses).map
      fun s => (decide (.closeCallback ∈ s.trace),
        (s.step (.runFunctor (.wrote 1))).map fun s' => s'.trace.drop s.trace.length)) =
      some (true, some [.take (.other 1) ⟨[5], by decide⟩ (some (.wrote 1)), .write [5] (.wrote 1)]) := by
    decide +kernel
  obtain ⟨s, hs, hvalues⟩ := Option.map_eq_some_iff.mp hrun
  simp only [Prod.mk.injEq, decide_eq_true_eq, Option.map_eq_some_iff] at hvalues
  obtain ⟨hclosed, s', hstep, hnew⟩ := hvalues
  have hquiet := (hclaim s _ s' (reachable_of_run hs) hclosed hstep).actions
  rw [hnew] at hquiet
  exact absurd (hquiet (.write [5] (.wrote 1)) (by simp)) (by decide)

/-- The peer closes in front of a backlog while another thread's empty message waits: its functor runs
    after `handleClose`, and then the connection is destroyed. -/
def sparedSends : List Event :=
  [.connectEstablished, .send .loop ⟨[41, 42, 43], by decide⟩ (.wrote 1), .leaveUser,
   .send (.other 1) ⟨[], by decide⟩ (.wrote 0), .handleEvent ⟨false, true, false⟩,
   .runCallback (.data []) (.wrote 0), .endEvent, .doPendingFunctors, .runFunctor (.wrote 0),
   .runFunctor (.wrote 0), .leaveUser, .endFunctors]

/-- It stays silent all that time, and a `send()` of the destroyed connection is quiet too. -/
theorem silence_after_close_sparedSends :
    ∃ s s', connectionMachine.run (Session.new .tcpClient 9 false) sparedSends = some s ∧
      s.step (.send (.other 1) ⟨[44], by decide⟩ (.wrote 0)) = some s' ∧
      .take (.other 1) ⟨[], by decide⟩ none ∈ s.trace.dropWhile (· ≠ .closeCallback) ∧
      s.conn.outputBuffer_.readable = [42, 43] ∧ SilentAfterClose s.trace ∧ Quiet s s' := by
  have hrun : ((connectionMachine.run (Session.new .tcpClient 9 false) sparedSends).bind fun s =>
      (s.step (.send (.other 1) ⟨[44], by decide⟩ (.wrote 0))).map fun s' => (s, s')).map (fun p =>
        (decide (.take (.other 1) ⟨[], by decide⟩ none ∈ p.1.trace.dropWhile (· ≠ .closeCallback)),
          p.1.conn.outputBuffer_.readable, decide (.closeCallback ∈ p.1.trace),
          decide (p.1.Spared (p.1.turn (.send (.other 1) ⟨[44], by decide⟩ (.wrote 0)))))) =
      some (true, [42, 43], true, true) := by
    decide +kernel
  obtain ⟨⟨s, s'⟩, hboth, hvalues⟩ := Option.map_eq_some_iff.mp hrun
  obtain ⟨s₁, hs, hmap⟩ := Option.bind_eq_some_iff.mp hboth
  obtain ⟨s₂, hstep, hpair⟩ := Option.map_eq_some_iff.mp hmap
  obtain ⟨rfl, rfl⟩ := Prod.mk.inj hpair
  simp only [Prod.mk.injEq, decide_eq_true_eq] at hvalues
  obtain ⟨htakes, hbacklog, hclosed, hspared⟩ := hvalues
  have hreach : connectionMachine.ReachableVia SparedOnceClosed s₁ :=
    Machine.run_reachableVia (.init ⟨.tcpClient, 9, false, rfl⟩) (by decide +kernel) hs
  obtain ⟨hsilent, hquiet⟩ := silence_after_close hreach
  exact ⟨s₁, s₂, hs, hstep, htakes, hbacklog, hsilent, (hquiet _ _ hclosed hstep).mpr hspared⟩

end Session

end Simplev
