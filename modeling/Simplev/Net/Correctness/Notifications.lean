import Mathlib.Data.Nat.Basic
import Simplev.Foundation.Crossings
import Simplev.Foundation.Trace
import Simplev.Net.Correctness.Backlog

/-!
# `Net.Correctness.Notifications` — high-water and write-complete functors

While both callbacks are set and the mark stays as it is, the high-water functors that a run queues are
the upward crossings of the mark by the backlog, in order.

When the backlog is empty, a write-complete functor is owed behind each message that had bytes and was not
dropped for `EPIPE` or `ECONNRESET`. `sendInLoop` also drops a message whose write failed otherwise, if the
log of that failure leaves one of the two in `errno`; nothing announces that.
`backlog_notifications_iff` proves that the notifications of a run are right if and only if that never
happens.
-/

namespace Simplev

open Foundation TcpConnection

namespace Session

/-- `outputBuffer_.readableBytes()`. -/
def backlog (s : Session) : Nat := s.conn.outputBuffer_.readableBytes

/-- What the high-water functors among `actions` carry. -/
def highWaters (actions : List Action) : List Nat :=
  actions.filterMap fun
    | .queueInLoop (.highWaterMarkCallback backlog) => some backlog
    | _ => none

/-- Both callbacks are set, and the mark is `mark`. -/
structure Notifies (mark : Nat) (c : TcpConnection) : Prop where
  complete : c.writeCompleteCallback_ = true
  highWater : c.highWaterMarkCallback_ = true
  mark : c.highWaterMark_ = mark

/-- The event leaves both callbacks set and the mark at `mark`. -/
def Event.KeepsCallbacks (mark : Nat) : Event → Prop
  | .setWriteCompleteCallback isSet => isSet = true
  | .setHighWaterMarkCallback isSet highWaterMark => isSet = true ∧ highWaterMark = mark
  | _ => True

instance (mark : Nat) : (e : Event) → Decidable (e.KeepsCallbacks mark) := by
  intro e
  cases e <;> unfold Event.KeepsCallbacks <;> infer_instance

/-- The messages that owe a write-complete functor: they had bytes, and were not dropped for the `EPIPE`
    or `ECONNRESET` of their own write. -/
def Owes (message : Message) (direct : Option Write) : Prop :=
  message.bytes ≠ [] ∧ direct.any (fun w => w.isFault && w.peerGone) = false

/-- A fault that `sendInLoop` finds in `errno` behind the log is one that the write had. -/
def FaultOwn (w : Write) : Prop := w.isFault = true → w.peerGone = true

instance : DecidablePred FaultOwn := fun _ => inferInstanceAs (Decidable (_ → _))

/-! ## The callbacks stay -/

variable {s s' : Session} {t : Turn} {mark : Nat} {actions : List Action}

theorem Notifies.of_eq {c c' : TcpConnection} (h : Notifies mark c)
    (hcomplete : c'.writeCompleteCallback_ = c.writeCompleteCallback_)
    (hhigh : c'.highWaterMarkCallback_ = c.highWaterMarkCallback_)
    (hmark : c'.highWaterMark_ = c.highWaterMark_) : Notifies mark c' :=
  ⟨hcomplete.trans h.complete, hhigh.trans h.highWater, hmark.trans h.mark⟩

theorem Notifies.read {c c' : TcpConnection} {r : Buffer.Readv} (h : Notifies mark c)
    (hread : Read c r c' actions) : Notifies mark c' := by
  cases hread with
  | error _ => exact h
  | closed _ _ _ => exact h.of_eq rfl rfl rfl
  | arrived _ _ _ _ => exact h.of_eq rfl rfl rfl

theorem Notifies.wrote {c c' : TcpConnection} {w : Write} (h : Notifies mark c)
    (hwrote : Wrote c w c' actions) : Notifies mark c' := by
  cases hwrote with
  | closed _ => exact h
  | kept _ _ => exact h
  | partly _ _ _ _ _ => exact h.of_eq rfl rfl rfl
  | drained _ _ _ _ => exact h.of_eq rfl rfl rfl

/-- A member function of the connection does not touch its callbacks. -/
theorem Notifies.moves (h : Notifies mark s.conn) (hmoves : Moves s s' t) (hturn : t ≠ .pass) :
    Notifies mark s'.conn := by
  cases hmoves with
  | pass _ _ _ _ _ _ => exact absurd rfl hturn
  | accept _ _ hconn _ _ => rwa [hconn]
  | send _ hsent _ _ => exact h.of_eq (by rw [hsent.conn]) (by rw [hsent.conn]) (by rw [hsent.conn])
  | take _ hsent _ _ => exact h.of_eq (by rw [hsent.conn]) (by rw [hsent.conn]) (by rw [hsent.conn])
  | shutdownHere _ hconn _ _ => exact h.of_eq (by rw [hconn]) (by rw [hconn]) (by rw [hconn])
  | shutdownElsewhere _ _ hconn _ _ => exact h.of_eq (by rw [hconn]) (by rw [hconn]) (by rw [hconn])
  | shutdownInLoop _ hconn _ => rwa [hconn]
  | connectEstablished _ _ hconn _ _ => exact h.of_eq (by rw [hconn]) (by rw [hconn]) (by rw [hconn])
  | connectDestroyed _ _ hconn _ _ => exact h.of_eq (by rw [hconn]) (by rw [hconn]) (by rw [hconn])
  | handleRead _ _ hread _ _ => exact h.read hread
  | handleWrite hwrote _ _ => exact h.wrote hwrote
  | notify _ _ hconn _ => rwa [hconn]
  | removeConnectionInLoop hconn _ _ => rwa [hconn]

theorem Notifies.step (h : Notifies mark s.conn) (hwired : s.Wired) {e : Event}
    (hkeeps : e.KeepsCallbacks mark) (hstep : s.step e = some s') : Notifies mark s'.conn := by
  by_cases hturn : s.turn e = .pass
  · obtain ⟨s₁, c, actions, fs, hbegins, rfl⟩ := step_inv hstep
    cases hbegins with
    | setWriteCompleteCallback _ => exact ⟨hkeeps, h.highWater, h.mark⟩
    | setHighWaterMarkCallback _ => exact ⟨h.complete, hkeeps.1, hkeeps.2⟩
    | leaveDown hinside hrun =>
        obtain ⟨rfl, rfl, rfl⟩ := removeChannel_spec (hwired.down hinside).2 hrun
        exact h.of_eq rfl rfl rfl
    | send _ hfit hrun =>
        rcases send_spec hrun with ⟨_, rfl, _, _⟩ | ⟨hk, rfl, _⟩ | ⟨hk, hother, _⟩
        · exact h
        · simp [turn, hk] at hturn
        · simp [turn, hk, hother] at hturn
    | shutdown _ hrun =>
        obtain ⟨_, ⟨_, rfl, _⟩ | ⟨hk, _⟩⟩ := shutdown_spec hrun
        · exact h
        · simp [turn, hk] at hturn
    | connectEstablished _ _ => simp [turn] at hturn
    | @runFunctor w f loop c actions fs _ _ hnext _ _ =>
        rw [turn, hnext] at hturn
        cases f <;> simp [functorTurn] at hturn
    | @runCallback r w cb rest c actions fs hphase _ _ _ hrun =>
        rw [turn, hphase] at hturn
        cases cb with
        | errorCallback =>
            simp only [handleEvent, Outcome.pure_eq, Outcome.ok.injEq, Prod.mk.injEq] at hrun
            obtain ⟨⟨rfl, rfl⟩, rfl⟩ := hrun
            exact h
        | readCallback => simp [callbackTurn] at hturn
        | writeCallback => simp [callbackTurn] at hturn
    | doPendingFunctors _ _ => exact h
    | endFunctors _ _ _ => exact h
    | handleEvent _ _ _ => exact h.of_eq rfl rfl rfl
    | endEvent _ _ => exact h.of_eq rfl rfl rfl
    | enterUser _ _ => exact h
    | useInput _ _ _ => exact h.of_eq rfl rfl rfl
    | swapInput _ _ => exact h.of_eq rfl rfl rfl
    | leaveUser _ _ => exact h
    | removeConnectionInLoop _ => exact h
  · exact h.moves (step_moves hwired hstep) hturn

/-! ## High water -/

section highWater

variable {c c' : TcpConnection}

@[simp] theorem highWaters_append (xs ys : List Action) :
    highWaters (xs ++ ys) = highWaters xs ++ highWaters ys := List.filterMap_append

theorem highWaters_eq_nil (h : ∀ a ∈ actions, ∀ n, a ≠ .queueInLoop (.highWaterMarkCallback n)) :
    highWaters actions = [] := by
  rw [highWaters, List.filterMap_eq_nil_iff]
  intro a ha
  split
  · exact absurd rfl (h _ ha _)
  · rfl

/-- A send queues the functor of the crossing it makes. -/
theorem highWaters_sent {caller : Thread} {message : Message} {w : Write} {direct : Option Write}
    {rest : List Byte} (hset : Notifies mark c) (hc : c.Sound)
    (h : Sent c caller message w c' actions direct rest) :
    highWaters actions =
      upCrossing mark c.outputBuffer_.readableBytes c'.outputBuffer_.readableBytes := by
  have hold := hc.output.length_readable
  have hnew : c'.outputBuffer_.readableBytes = c.outputBuffer_.readableBytes + rest.length := by
    rw [← h.valid.length_readable, h.readable, List.length_append, hold]
  have hfront : highWaters (.take caller message direct ::
      (direct.toList.map (.write message.bytes ·) ++ c.completed direct rest)) = [] := by
    apply highWaters_eq_nil
    intro a ha n heq
    subst heq
    rcases List.mem_cons.mp ha with htake | ha
    · simp at htake
    rcases List.mem_append.mp ha with hwrite | hcompleted
    · simp at hwrite
    · exact absurd (mem_completed hcompleted) (by simp)
  rw [h.actions, ← List.cons_append, highWaters_append, hfront, List.nil_append, hnew]
  by_cases hrest : rest = []
  · rw [crossed, if_pos hrest, hrest, List.length_nil, Nat.add_zero, upCrossing_of_le le_rfl]
    rfl
  · have hsum : sizeAdd c.outputBuffer_.readableBytes rest.length =
        c.outputBuffer_.readableBytes + rest.length := by
      apply sizeAdd_of_lt
      rw [← hnew, h.valid.readableBytes_eq]
      have hwriter := h.valid.writer_le
      have hsize := h.valid.size_le
      have hbound := Buffer.maxSize_lt
      omega
    rw [crossed, if_neg hrest]
    simp only [notifyHighWaterMark, hsum, hset.highWater, hset.mark, and_true]
    rw [upCrossing]
    by_cases hcross : c.outputBuffer_.readableBytes < mark ∧
        mark ≤ c.outputBuffer_.readableBytes + rest.length
    · rw [if_pos ⟨hcross.2, hcross.1⟩, if_pos hcross]
      rfl
    · rw [if_neg fun h => hcross ⟨h.2, h.1⟩, if_neg hcross]
      rfl

/-- A drain only goes down. -/
theorem wrote_readableBytes_le {w : Write} (hc : c.Sound) (h : Wrote c w c' actions) :
    c'.outputBuffer_.readableBytes ≤ c.outputBuffer_.readableBytes := by
  cases h with
  | closed _ => exact le_rfl
  | kept _ _ => exact le_rfl
  | partly _ _ _ hvalid hread =>
      show Buffer.readableBytes _ ≤ _
      rw [← hvalid.length_readable, hread, List.length_drop, hc.output.length_readable]
      exact Nat.sub_le _ _
  | drained _ _ hvalid hread =>
      show Buffer.readableBytes _ ≤ _
      rw [hvalid.readableBytes_eq_zero.mpr hread]
      exact Nat.zero_le _

end highWater

/-- A step that does not raise the backlog queues no high-water functor. -/
theorem highWaters_lower (htrace : s'.trace = s.trace ++ actions)
    (hnone : ∀ a ∈ actions, ∀ n, a ≠ .queueInLoop (.highWaterMarkCallback n))
    (hle : s'.backlog ≤ s.backlog) :
    highWaters s'.trace = highWaters s.trace ++ upCrossing mark s.backlog s'.backlog := by
  rw [htrace, highWaters_append, highWaters_eq_nil hnone, upCrossing_of_le hle]

/-- **The step lemma** for high water: a step queues the functor of the crossing it makes. -/
theorem highWaters_step (hset : Notifies mark s.conn) (hwired : s.Wired) (hmoves : Moves s s' t) :
    highWaters s'.trace = highWaters s.trace ++ upCrossing mark s.backlog s'.backlog := by
  cases hmoves with
  | pass _ _ _ houtput _ htrace =>
      refine highWaters_lower (htrace.trans (List.append_nil _).symm) (by simp) ?_
      rw [backlog, houtput, backlog]
  | accept _ _ hconn _ htrace | shutdownElsewhere _ _ hconn _ htrace
  | connectEstablished _ _ hconn _ htrace | connectDestroyed _ _ hconn _ htrace
  | notify _ _ hconn htrace =>
      -- neither the buffer nor the queue of `highWaterMarkCallback_` is touched
      exact highWaters_lower htrace (by simp) (by rw [backlog, hconn, backlog])
  | @send message w actions direct rest _ hsent _ htrace =>
      have hfront : highWaters [.accept .loop message] = [] := by simp [highWaters]
      rw [htrace, highWaters_append, ← List.singleton_append, highWaters_append, hfront,
        List.nil_append, highWaters_sent hset hwired.sound hsent, backlog, backlog]
  | take _ hsent _ htrace =>
      rw [htrace, highWaters_append, highWaters_sent hset hwired.sound hsent, backlog, backlog]
  | shutdownHere _ hconn _ htrace =>
      refine highWaters_lower htrace ?_ (by rw [backlog, hconn, backlog])
      intro a ha n heq
      subst heq
      rcases List.mem_cons.mp ha with heq | ha
      · simp at heq
      · exact absurd (mem_shutdownInLoop ha) (by simp)
  | shutdownInLoop _ hconn htrace =>
      refine highWaters_lower htrace ?_ (by rw [backlog, hconn, backlog])
      intro a ha n heq
      exact absurd (mem_shutdownInLoop (heq ▸ ha)) (by simp)
  | handleRead _ _ hread _ htrace =>
      refine highWaters_lower htrace ?_ (by rw [backlog, hread.output, backlog])
      intro a ha n heq
      rcases hread.mem_actions ha with hkind | ⟨_, _, hkind⟩
      · simp [heq] at hkind
      · simp [heq] at hkind
  | handleWrite hwrote _ htrace =>
      refine highWaters_lower htrace ?_ (wrote_readableBytes_le hwired.sound hwrote)
      intro a ha n heq
      rcases hwrote.mem_actions ha with hkind | hkind | hkind
      · simp [heq] at hkind
      · simp [heq] at hkind
      · simp [heq] at hkind
  | removeConnectionInLoop hconn _ htrace =>
      exact highWaters_lower (htrace.trans (List.append_nil _).symm) (by simp)
        (by rw [backlog, hconn, backlog])

/-- **The run lemma** for high water. -/
theorem highWaters_run {es : List Event} (hs : connectionMachine.Reachable s)
    (hset : Notifies mark s.conn) (hkeeps : ∀ e ∈ es, e.KeepsCallbacks mark)
    (hrun : connectionMachine.run s es = some s') :
    highWaters s'.trace =
      highWaters s.trace ++ upCrossings mark ((connectionMachine.trail s es).map backlog) := by
  induction es generalizing s with
  | nil =>
      simp only [Machine.run, Option.some.injEq] at hrun
      rw [← hrun, Machine.trail, List.map_singleton, upCrossings_singleton, List.append_nil]
  | cons e es ih =>
      rw [Machine.run, Option.bind_eq_some_iff] at hrun
      obtain ⟨mid, hstep, hrest⟩ := hrun
      obtain ⟨hkeep, hkeeps⟩ := List.forall_mem_cons.mp hkeeps
      have hwired := reachable_wired hs
      have hone := highWaters_step hset hwired (step_moves hwired hstep)
      have hmore := ih (.step hs trivial hstep) (hset.step hwired hkeep hstep) hkeeps hrest
      obtain ⟨later, hlater⟩ := connectionMachine.trail_head mid es
      rw [hmore, hone, Machine.trail_cons hstep, hlater, List.append_assoc, List.map_cons,
        List.map_cons, List.map_cons, upCrossings_cons_cons]

/-! ## Write complete -/

/-- **Nothing is owed**: behind each message that owes a write-complete functor, among the actions since
    `start`, one has been queued, or bytes are left to drain. -/
def Settled (start : List Action) (s : Session) : Prop :=
  ∀ early caller message direct late,
    s.trace = start ++ (early ++ .take caller message direct :: late) → Owes message direct →
      .queueInLoop .writeCompleteCallback ∈ late ∨ s.conn.outputBuffer_.readable ≠ []

section complete

variable {c c' : TcpConnection} {start : List Action}

theorem mem_notifyWriteComplete_of_set (hset : Notifies mark c) :
    .queueInLoop .writeCompleteCallback ∈ c.notifyWriteComplete := by
  rw [notifyWriteComplete, if_pos hset.complete]
  exact List.mem_singleton_self _

/-- A message that owes a functor and leaves no bytes behind was written whole. -/
theorem sent_completes {caller : Thread} {message : Message} {w : Write} {direct : Option Write}
    {rest : List Byte} (hset : Notifies mark c) (h : Sent c caller message w c' actions direct rest)
    (hown : c.Idle → message.bytes ≠ [] → FaultOwn w) (howes : Owes message direct) :
    .queueInLoop .writeCompleteCallback ∈ c.completed direct rest ∨
      c'.outputBuffer_.readable ≠ [] := by
  rw [h.readable]
  by_cases hrest : rest = []
  · left
    cases h.disposes with
    | buffered _ => exact absurd hrest howes.1
    | wrote _ hw _ =>
        subst hw
        rw [completed, if_pos hrest]
        exact mem_notifyWriteComplete_of_set hset
    | refused _ _ _ => exact absurd hrest howes.1
    | dropped hidle hfault =>
        -- the fault was the write's own, and nothing is owed for it
        have hgone := hown hidle howes.1 hfault
        have hnot := howes.2
        simp [hfault, hgone] at hnot
  · exact Or.inr (List.append_ne_nil_of_right_ne_nil _ hrest)

/-- A message with bytes dropped for a fault that is not its own owes a functor; nothing is queued for it,
    and nothing is left to drain. -/
theorem sent_stalls {caller : Thread} {message : Message} {w : Write} {direct : Option Write}
    {rest : List Byte} (h : Sent c caller message w c' actions direct rest) (hidle : c.Idle)
    (hsome : message.bytes ≠ []) (hnot : ¬ FaultOwn w) :
    Owes message direct ∧ actions = [.take caller message direct, .write message.bytes w] ∧
      c'.outputBuffer_.readable = [] := by
  have hforeign : w.isFault = true ∧ w.peerGone = false := by
    unfold FaultOwn at hnot
    cases hfault : w.isFault <;> cases hgone : w.peerGone <;> simp [hfault, hgone] at hnot ⊢
  have hactions := h.actions
  have hread := h.readable
  cases h.disposes with
  | buffered hbusy => exact absurd hidle hbusy
  | wrote _ hw _ =>
      subst hw
      simp [Write.isFault] at hforeign
  | refused _ _ hfault => simp [hfault] at hforeign
  | dropped _ hfault =>
      refine ⟨⟨hsome, by simp [hforeign]⟩, ?_, by rw [hread, hidle.2, List.append_nil]⟩
      cases w with
      | wrote n => simp [Write.isFault] at hfault
      | failed errno afterLog =>
          rw [hactions]
          simp [completed, crossed]

/-- A write of the backlog leaves some of it, or completes. -/
theorem wrote_completes {w : Write} (hset : Notifies mark c) (h : Wrote c w c' actions)
    (hsome : c.outputBuffer_.readable ≠ []) :
    c'.outputBuffer_.readable ≠ [] ∨ .queueInLoop .writeCompleteCallback ∈ actions := by
  cases h with
  | closed _ => exact Or.inl hsome
  | kept _ _ => exact Or.inl hsome
  | partly _ _ hn _ hread =>
      left
      rw [hread, ne_eq, List.drop_eq_nil_iff]
      omega
  | drained _ _ _ _ =>
      right
      apply List.mem_cons_of_mem
      exact List.mem_append_left _ (mem_notifyWriteComplete_of_set hset)

/-- A step that runs `sendInLoop` on no message keeps the book, if it leaves bytes to drain or queues the
    functor. -/
theorem Settled.keep (h : Settled start s) (hstart : start <+: s.trace)
    (htrace : s'.trace = s.trace ++ actions)
    (htake : NoTake actions)
    (hread : s.conn.outputBuffer_.readable ≠ [] → s'.conn.outputBuffer_.readable ≠ [] ∨
      .queueInLoop .writeCompleteCallback ∈ actions) : Settled start s' := by
  obtain ⟨middle, hmiddle⟩ := hstart
  intro early caller message direct late hsplit howes
  rw [htrace, ← hmiddle, List.append_assoc, List.append_cancel_left_eq] at hsplit
  obtain ⟨mid, hmid, rfl⟩ := append_eq_append_cons_of_not_mem hsplit (htake _ _ _)
  rw [List.mem_append]
  rcases h early caller message direct mid (by rw [← hmid, hmiddle]) howes with hdone | hsome
  · exact Or.inl (Or.inl hdone)
  · rcases hread hsome with hleft | hdone
    · exact Or.inr hleft
    · exact Or.inl (Or.inr hdone)

/-- `sendInLoop` keeps the book; `before` is what `send` did first. -/
theorem Settled.sent (h : Settled start s) (hstart : start <+: s.trace) (hset : Notifies mark s.conn)
    (before : List Action) (hbefore : NoTake before)
    {caller : Thread} {message : Message} {w : Write} {direct : Option Write} {rest : List Byte}
    (hsent : Sent s.conn caller message w s'.conn actions direct rest)
    (hown : s.conn.Idle → message.bytes ≠ [] → FaultOwn w)
    (htrace : s'.trace = s.trace ++ (before ++ actions)) : Settled start s' := by
  obtain ⟨middle, hmiddle⟩ := hstart
  intro early caller' message' direct' late hsplit howes
  rw [htrace, ← hmiddle, List.append_assoc, List.append_cancel_left_eq] at hsplit
  rcases append_eq_append_cons hsplit with ⟨mid, hmid, rfl⟩ | ⟨mid, rfl, hnew⟩
  · -- an old message: the buffer has not lost what it held
    rcases h early caller' message' direct' mid (by rw [← hmid, hmiddle]) howes with hdone | hsome
    · exact Or.inl (List.mem_append_left _ hdone)
    · right
      rw [hsent.readable]
      exact List.append_ne_nil_of_left_ne_nil hsome _
  · -- the message of this step
    obtain ⟨mid, rfl, htook⟩ : ∃ rear, mid = before ++ rear ∧
        actions = rear ++ .take caller' message' direct' :: late := by
      rcases append_eq_append_cons hnew with ⟨rear, hin, _⟩ | hback
      · exact absurd (by rw [hin]; simp) (hbefore caller' message' direct')
      · exact hback
    rw [hsent.actions] at htook
    cases mid with
    | nil =>
        obtain ⟨hhead, rfl⟩ := List.cons.inj htook
        simp only [Action.take.injEq] at hhead
        obtain ⟨rfl, rfl, rfl⟩ := hhead
        refine (sent_completes hset hsent hown howes).imp_left fun hdone => ?_
        exact List.mem_append_left _ (List.mem_append_right _ hdone)
    | cons a mid =>
        -- behind its own `take` a send does not run on another message
        obtain ⟨_, htail⟩ := List.cons.inj htook
        have hmem : .take caller' message' direct' ∈ direct.toList.map (.write message.bytes ·) ++
            s.conn.completed direct rest ++ s.conn.crossed rest := by
          rw [htail]
          simp
        rcases List.mem_append.mp hmem with hmem | hmem
        · rcases List.mem_append.mp hmem with hmem | hmem
          · simp at hmem
          · exact absurd (mem_completed hmem) (by simp)
        · obtain ⟨n, heq⟩ := mem_crossed hmem
          simp at heq

end complete

/-- A step whose direct write meets the condition keeps the book. -/
theorem Settled.step {start : List Action} (h : Settled start s) (hstart : start <+: s.trace)
    (hset : Notifies mark s.conn) (hown : DirectWrite FaultOwn s t) (hmoves : Moves s s' t) :
    Settled start s' := by
  cases hmoves with
  | pass _ _ _ houtput _ htrace =>
      exact h.keep hstart (htrace.trans (List.append_nil _).symm) (by simp [NoTake])
        (fun hsome => Or.inl (by rwa [houtput]))
  | accept _ _ hconn _ htrace | shutdownElsewhere _ _ hconn _ htrace
  | connectEstablished _ _ hconn _ htrace | connectDestroyed _ _ hconn _ htrace
  | notify _ _ hconn htrace =>
      -- what was left to drain is still there
      exact h.keep hstart htrace (by simp [NoTake]) (fun hsome => Or.inl (by rwa [hconn]))
  | @send message w actions direct rest _ hsent _ htrace =>
      exact h.sent hstart hset [.accept .loop message] (by simp [NoTake]) hsent (hown · (message, w) rfl) htrace
  | @take caller message w actions direct rest left _ hsent _ htrace =>
      exact h.sent hstart hset [] (by simp [NoTake]) hsent (hown · (message, w) rfl) htrace
  | shutdownHere _ hconn _ htrace =>
      refine h.keep hstart htrace ?_ (fun hsome => Or.inl (by rwa [hconn]))
      intro caller message direct hmem
      rcases List.mem_cons.mp hmem with heq | hmem
      · simp at heq
      · exact absurd (mem_shutdownInLoop hmem) (by simp)
  | shutdownInLoop _ hconn htrace =>
      refine h.keep hstart htrace ?_ (fun hsome => Or.inl (by rwa [hconn]))
      intro caller message direct hmem
      exact absurd (mem_shutdownInLoop hmem) (by simp)
  | handleRead _ _ hread _ htrace =>
      refine h.keep hstart htrace ?_ (fun hsome => Or.inl (by rwa [hread.output]))
      intro caller message direct hmem
      rcases hread.mem_actions hmem with hkind | ⟨_, _, hkind⟩
      · simp at hkind
      · simp at hkind
  | handleWrite hwrote _ htrace =>
      refine h.keep hstart htrace ?_ fun hsome => ?_
      · intro caller message direct hmem
        rcases hwrote.mem_actions hmem with hkind | hkind | hkind
        · simp at hkind
        · simp at hkind
        · simp at hkind
      · exact wrote_completes hset hwrote hsome
  | removeConnectionInLoop hconn _ htrace =>
      exact h.keep hstart (htrace.trans (List.append_nil _).symm) (by simp [NoTake])
        (fun hsome => Or.inl (by rwa [hconn]))

/-- **The step lemma** for write complete. -/
theorem settled_step {start : List Action} (h : Settled start s) (hstart : start <+: s.trace)
    (hset : Notifies mark s.conn) (hmoves : Moves s s' t) :
    Settled start s' ↔ DirectWrite FaultOwn s t := by
  refine ⟨fun hsettled => ?_, fun hown => h.step hstart hset hown hmoves⟩
  rcases hmoves.takes with ⟨hnot, _⟩ |
    ⟨before, caller, message, w, actions, direct, rest, hsending, hsent, _, htrace⟩
  · intro _ p hp
    simp [hnot] at hp
  · intro hidle p hp hsome
    rw [hsending, Option.mem_some_iff] at hp
    subst hp
    by_contra hnotOwn
    obtain ⟨howes, rfl, hempty⟩ := sent_stalls hsent hidle hsome hnotOwn
    obtain ⟨middle, hmiddle⟩ := hstart
    rcases hsettled (middle ++ before) caller message direct [.write message.bytes w]
      (by rw [htrace, ← hmiddle]; simp) howes with hdone | hleft
    · simp at hdone
    · exact hleft hempty

/-- The book of write-complete functors is right in every state of a run that keeps the callbacks just when
    no step drops a message for a fault that is not its own. -/
theorem settled_iff_along {es : List Event} (hs : connectionMachine.Reachable s)
    (hset : Notifies mark s.conn) (hkeeps : ∀ e ∈ es, e.KeepsCallbacks mark)
    (hrun : connectionMachine.run s es = some s') :
    (∀ es₁ mid, es₁ <+: es → connectionMachine.run s es₁ = some mid → Settled s.trace mid) ↔
      connectionMachine.Along (fun s e => DirectWrite FaultOwn s (s.turn e)) s es := by
  refine Machine.forall_prefix_iff_along (I := fun mid => connectionMachine.Reachable mid ∧
    Notifies mark mid.conn ∧ s.trace <+: mid.trace) ?_ ?_ ⟨hs, hset, List.prefix_rfl⟩
    (Machine.along_of_forall s hkeeps) ?_ hrun
  · intro mid e next ⟨hmid, hset, hstart⟩ hkeep hstep
    have hwired := reachable_wired hmid
    exact ⟨.step hmid trivial hstep, hset.step hwired hkeep hstep,
      hstart.trans (step_moves hwired hstep).trace_grows⟩
  · intro mid e next ⟨hmid, hset, hstart⟩ _ hsettled hstep
    exact settled_step hsettled hstart hset (step_moves (reachable_wired hmid) hstep)
  · -- nothing has been done since the start
    intro early caller message direct late hsplit _
    have hlength := congrArg List.length hsplit
    simp at hlength

/-! ## The notifications of a run -/

/-- **The notifications of the run `es` from `s` to `s'` are right**; `actions` is what it did. -/
structure Notified (mark : Nat) (s : Session) (es : List Event) (s' : Session) (actions : List Action) :
    Prop where
  trace : s'.trace = s.trace ++ actions
  /-- The high-water functors are the upward crossings, each with the backlog just after it. -/
  crossings : highWaters actions = upCrossings mark ((connectionMachine.trail s es).map backlog)
  /-- Between two of them the backlog was below the mark. -/
  between : ∀ xs b c ys, highWaters actions = xs ++ b :: c :: ys →
    ∃ es₁ es₂ mid, es = es₁ ++ es₂ ∧ connectionMachine.run s es₁ = some mid ∧
      highWaters mid.trace = highWaters s.trace ++ (xs ++ [b]) ∧ mid.backlog < mark
  /-- When the backlog is empty, nothing is owed. -/
  complete : s'.backlog = 0 → ∀ early caller message direct late,
    actions = early ++ .take caller message direct :: late → Owes message direct →
      .queueInLoop .writeCompleteCallback ∈ late

/-- The high-water half holds of every run; the write-complete half is the book. -/
theorem notified_iff {es : List Event} (hs : connectionMachine.Reachable s)
    (hset : Notifies mark s.conn) (hkeeps : ∀ e ∈ es, e.KeepsCallbacks mark)
    (hrun : connectionMachine.run s es = some s') :
    (∃ actions, Notified mark s es s' actions) ↔ Settled s.trace s' := by
  have hvalid := (reachable_wired (Machine.run_reachableVia hs (Machine.along_true s es) hrun)).sound
  have hempty : s'.backlog = 0 ↔ s'.conn.outputBuffer_.readable = [] :=
    hvalid.output.readableBytes_eq_zero
  constructor
  · rintro ⟨actions, hnotified⟩ early caller message direct late hsplit howes
    rw [hnotified.trace, List.append_cancel_left_eq] at hsplit
    by_cases hread : s'.conn.outputBuffer_.readable = []
    · exact Or.inl (hnotified.complete (hempty.mpr hread) early caller message direct late hsplit howes)
    · exact Or.inr hread
  · intro hsettled
    have hqueued := highWaters_run hs hset hkeeps hrun
    obtain ⟨actions, hactions⟩ := run_trace_grows hs hrun
    rw [← hactions, highWaters_append, List.append_cancel_left_eq] at hqueued
    refine ⟨actions, hactions.symm, hqueued, ?_, ?_⟩
    · intro xs b c ys hsplit
      rw [hqueued, List.append_cons] at hsplit
      obtain ⟨early, low, late, hhistory, hlow, hcrossed⟩ := upCrossings_low hsplit
      -- the low value is the backlog of a state on the way
      obtain ⟨before, after, htrail, hbefore, hafter⟩ := List.map_eq_append_iff.mp hhistory
      obtain ⟨mid, rest, rfl, rfl, _⟩ := List.map_eq_cons_iff.mp hafter
      obtain ⟨es₁, es₂, rfl, hrun₁, htrail₁⟩ := Machine.trail_split hrun htrail
      refine ⟨es₁, es₂, mid, rfl, hrun₁, ?_, hlow⟩
      have hkeeps₁ : ∀ e ∈ es₁, e.KeepsCallbacks mark := fun e he =>
        hkeeps e (List.mem_append_left _ he)
      rw [highWaters_run hs hset hkeeps₁ hrun₁, htrail₁, List.map_append, hbefore, List.map_singleton,
        hcrossed]
    · intro hnone early caller message direct late hsplit howes
      refine (hsettled early caller message direct late (by rw [← hsplit, hactions]) howes).resolve_right ?_
      exact fun hsome => hsome (hempty.mp hnone)

/-- **Backlog notifications.** While both callbacks are set and the mark is fixed, the notifications are
    right in every state of a run if and only if no log of a failed direct write leaves `EPIPE` or
    `ECONNRESET` in `errno` for a write of a message with bytes that had failed with neither. -/
theorem backlog_notifications_iff {es : List Event} (hs : connectionMachine.Reachable s)
    (hset : Notifies mark s.conn) (hkeeps : ∀ e ∈ es, e.KeepsCallbacks mark)
    (hrun : connectionMachine.run s es = some s') :
    (∀ es₁ mid, es₁ <+: es → connectionMachine.run s es₁ = some mid →
        ∃ actions, Notified mark s es₁ mid actions) ↔
      connectionMachine.Along (fun s e => DirectWrite FaultOwn s (s.turn e)) s es := by
  rw [← settled_iff_along hs hset hkeeps hrun]
  refine forall₄_congr fun es₁ mid hfront hmid => ?_
  exact notified_iff hs hset (fun e he => hkeeps e (hfront.subset he)) hmid

/-- User code sets the mark to two bytes. -/
def markAtTwo : List Event := [.connectEstablished, .setHighWaterMarkCallback true 2]

/-- Two messages go over the mark, and are drained one after the other. -/
def overTheMarkTwice : List Event :=
  [.send .loop ⟨[7, 8, 9], by decide⟩ (.wrote 1), .leaveUser, .handleEvent ⟨false, false, true⟩,
   .runCallback (.error 0) (.wrote 2), .endEvent, .enterUser,
   .send .loop ⟨[4, 5, 6], by decide⟩ (.failed .EWOULDBLOCK .EWOULDBLOCK), .leaveUser,
   .handleEvent ⟨false, false, true⟩, .runCallback (.error 0) (.wrote 3)]

theorem backlog_notifications_iff_overTheMarkTwice :
    ∃ s s' actions, connectionMachine.run s overTheMarkTwice = some s' ∧
      s'.trace = s.trace ++ actions ∧ highWaters actions = [2, 3] ∧
      (∃ es₁ es₂ mid, overTheMarkTwice = es₁ ++ es₂ ∧ connectionMachine.run s es₁ = some mid ∧
        highWaters mid.trace = [2] ∧ mid.backlog < 2) ∧
      ∀ early direct late, actions = early ++ .take .loop ⟨[4, 5, 6], by decide⟩ direct :: late →
        direct.any Write.isFault = false → .queueInLoop .writeCompleteCallback ∈ late := by
  have hrun : ((connectionMachine.run (Session.new (.tcpServer true) 9 true) markAtTwo).bind
      fun s => (connectionMachine.run s overTheMarkTwice).map fun s' =>
        ((s.conn.writeCompleteCallback_, s.conn.highWaterMarkCallback_, s.conn.highWaterMark_),
          highWaters s.trace, highWaters s'.trace, s'.backlog,
          decide (connectionMachine.Along (fun s e => DirectWrite FaultOwn s (s.turn e)) s
            overTheMarkTwice))) =
      some ((true, true, 2), [], [2, 3], 0, true) := by
    decide +kernel
  obtain ⟨s, hs, hmap⟩ := Option.bind_eq_some_iff.mp hrun
  obtain ⟨s', hs', hvalues⟩ := Option.map_eq_some_iff.mp hmap
  simp only [Prod.mk.injEq, decide_eq_true_eq] at hvalues
  obtain ⟨⟨hcomplete, hhigh, hmark⟩, hnone, htwo, hempty, hown⟩ := hvalues
  obtain ⟨actions, hnotified⟩ :=
    (backlog_notifications_iff (reachable_of_run hs) ⟨hcomplete, hhigh, hmark⟩ (by decide) hs').mpr hown
      overTheMarkTwice s' List.prefix_rfl hs'
  have hactions : highWaters actions = [2, 3] := by
    rw [hnotified.trace, highWaters_append, hnone, List.nil_append] at htwo
    exact htwo
  obtain ⟨es₁, es₂, mid, hsplit, hmid, hqueuedMid, hlow⟩ := hnotified.between [] 2 3 [] hactions
  refine ⟨s, s', actions, hs', hnotified.trace, hactions, ⟨es₁, es₂, mid, hsplit, hmid, ?_, hlow⟩, ?_⟩
  · rw [hqueuedMid, hnone]
    simp
  · intro early direct late hactions hfault
    refine hnotified.complete hempty early .loop _ direct late hactions ⟨by simp, ?_⟩
    cases direct with
    | none => rfl
    | some w => simpa using fun h => absurd h (by simpa using hfault)

/-- The first message of the producer meets a network interface out of buffers, and a log nobody reads. -/
def stalls : List Event := [.send .loop ⟨[13, 14], by decide⟩ (.failed (.other 105) .EPIPE), .leaveUser]

/-- The message is gone, the backlog is empty and no write-complete functor has been queued. -/
theorem backlog_notifications_stalls :
    ∃ s s', connectionMachine.run (Session.new (.tcpServer true) 9 true) markAtTwo = some s ∧
      Notifies 2 s.conn ∧ (∀ e ∈ stalls, e.KeepsCallbacks 2) ∧
      connectionMachine.run s stalls = some s' ∧ s'.backlog = 0 ∧
      .queueInLoop .writeCompleteCallback ∉ s'.trace ∧ s'.loop.waiting = [] ∧
      ¬ ∃ actions, Notified 2 s stalls s' actions := by
  have hrun : ((connectionMachine.run (Session.new (.tcpServer true) 9 true) markAtTwo).bind
      fun s => (connectionMachine.run s stalls).map fun s' =>
        ((s.conn.writeCompleteCallback_, s.conn.highWaterMarkCallback_, s.conn.highWaterMark_),
          (s'.backlog, s'.loop.waiting), s.trace, s'.trace)) =
      some ((true, true, 2), (0, []), [.callback (.connection true)],
        [.callback (.connection true), .accept .loop ⟨[13, 14], by decide⟩,
          .take .loop ⟨[13, 14], by decide⟩ (some (.failed (.other 105) .EPIPE)),
          .write [13, 14] (.failed (.other 105) .EPIPE)]) := by
    decide +kernel
  obtain ⟨s, hs, hmap⟩ := Option.bind_eq_some_iff.mp hrun
  obtain ⟨s', hs', hvalues⟩ := Option.map_eq_some_iff.mp hmap
  simp only [Prod.mk.injEq] at hvalues
  obtain ⟨⟨hcomplete, hhigh, hmark⟩, ⟨hempty, hwaiting⟩, hbefore, hafter⟩ := hvalues
  refine ⟨s, s', hs, ⟨hcomplete, hhigh, hmark⟩, by decide, hs', hempty, by simp [hafter], hwaiting, ?_⟩
  rintro ⟨actions, hnotified⟩
  have htrace := hnotified.trace
  rw [hafter, hbefore, List.singleton_append, List.cons.injEq] at htrace
  have hqueued := hnotified.complete hempty [.accept .loop ⟨[13, 14], by decide⟩] .loop
    ⟨[13, 14], by decide⟩ (some (.failed (.other 105) .EPIPE))
    [.write [13, 14] (.failed (.other 105) .EPIPE)] htrace.2.symm ⟨by simp, rfl⟩
  simp at hqueued

end Session

end Simplev
