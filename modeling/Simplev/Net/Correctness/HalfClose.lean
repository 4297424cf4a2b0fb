import Simplev.Foundation.Trace
import Simplev.Net.Correctness.Backlog

/-!
# `Net.Correctness.HalfClose` — when the write side is shut down

`shutdown()` promises to send what was accepted before it. The promise rests on the functor queue: a
queued `shutdownInLoop` stands behind every queued `sendInLoop` (`Ordered`), so when it runs nothing
waits. Two paths go round the queue. On the loop's own thread `shutdown()` runs `shutdownInLoop` at
once, and `handleWrite` runs it as soon as it has drained the buffer. Both look at the buffer only, and
half-close the connection in front of messages that another thread has queued.

`Orderly` says that neither happens while such a message waits. `half_close_orderly` proves that a run
keeps the promise if and only if its every step is orderly.
-/

namespace Simplev

open Foundation TcpConnection

namespace Session

/-! ## The promise -/

/-- The messages of `t` given to `sendInLoop` and not dropped. -/
def keptBy (t : Thread) (trace : List Action) : List Message :=
  trace.filterMap fun
    | .take caller message direct =>
      if caller = t ∧ direct.any Write.isFault = false then some message else none
    | _ => none

/-- Everything accepted in `early` has been written in full by `now`: each thread's bytes were given to
    `sendInLoop` and kept, and what was kept is on the socket. -/
def WrittenInFull (early now : List Action) : Prop :=
  (∀ t, bytesOf (acceptedBy t early) <+: bytesOf (keptBy t now)) ∧
    socketBytes now = bytesOf (kept now)

/-- **A graceful half-close**: whenever `shutdownWrite()` is executed, everything accepted before the
    `shutdown()` call that set `kDisconnecting` has been written in full. -/
def HalfClosed (trace : List Action) : Prop :=
  ∀ now rest, trace = now ++ .shutdownWrite :: rest →
    ∀ early late, now = early ++ .disconnect :: late → WrittenInFull early now

/-- The bytes a functor brings to send. -/
def dataOf : Functor → List Byte
  | .sendInLoop _ message => message.bytes
  | _ => []

/-- No functor that waits brings bytes to send. -/
def NoData (fs : List Functor) : Prop := ∀ f ∈ fs, dataOf f = []

instance (fs : List Functor) : Decidable (NoData fs) := inferInstanceAs (Decidable (∀ f ∈ fs, _))

/-- The result of a write that `sendInLoop` may make in this turn. -/
def Turn.directWrite : Turn → Option Write
  | .send _ _ w => some w
  | .take _ _ w => some w
  | _ => none

theorem directWrite_eq (t : Turn) : t.directWrite = t.sending.map Prod.snd := by
  cases t <;> rfl

/-- No direct write leads to a fault, so no message is dropped. -/
def Faultless (s : Session) (t : Turn) : Prop :=
  s.conn.Idle → t.directWrite.any Write.isFault = false

instance (s : Session) (t : Turn) : Decidable (s.Faultless t) := inferInstanceAs (Decidable (_ → _))

/-- The two paths that half-close without a functor of their own: `shutdown()` on the loop's thread when
    nothing is being written, and the `handleWrite` that takes the whole backlog after a
    `shutdown()`. -/
def goesAhead (s : Session) : Turn → Bool
  | .shutdown .loop => !s.conn.channel_.isWriting
  | .handleWrite w =>
    s.conn.channel_.isWriting && s.conn.state_ = .kDisconnecting &&
      w = .wrote s.conn.outputBuffer_.readable.length
  | _ => false

/-- Neither path is taken while bytes to send wait in the functor queue. -/
def Orderly (s : Session) (t : Turn) : Prop := s.goesAhead t = true → NoData s.loop.waiting

instance (s : Session) (t : Turn) : Decidable (s.Orderly t) := inferInstanceAs (Decidable (_ → _))

/-! ## The order of the queue -/

variable {s s' : Session} {t : Turn} {actions : List Action}

/-- A functor that sends. -/
def isSend : Functor → Bool
  | .sendInLoop _ _ => true
  | _ => false

/-- **The order invariant.** -/
structure Ordered (s : Session) : Prop where
  /-- After `shutdown()` the connection accepts nothing. -/
  state : .disconnect ∈ s.trace → s.conn.state_ ≠ .kConnecting ∧ s.conn.state_ ≠ .kConnected
  known : s.conn.state_ = .kDisconnecting → .disconnect ∈ s.trace
  accepted : ∀ early late, s.trace = early ++ .disconnect :: late → ∀ t, acceptedBy t late = []
  pending : .shutdownInLoop ∈ s.loop.waiting → .disconnect ∈ s.trace
  /-- Nothing to send stands behind a queued `shutdownInLoop`. -/
  queued : s.loop.waiting.Pairwise fun f g => f = .shutdownInLoop → isSend g = false

theorem new_ordered (owner : Owner) (sockfd : Nat) (writeComplete : Bool) :
    (Session.new owner sockfd writeComplete).Ordered where
  state h := by simp [Session.new] at h
  known h := by simp [Session.new, TcpConnection.new] at h
  accepted early late h := by simp [Session.new] at h
  pending h := by
    cases hsame : owner.sameLoop <;> simp [Session.new, hsame] at h
  queued := by
    cases hsame : owner.sameLoop <;> simp [Session.new, hsame]

/-- A step that accepts nothing and shuts nothing down keeps the order; it may take a functor from the
    front of the queue and put some that do not send at its end. -/
theorem Ordered.keep (h : s.Ordered) (popped new : List Functor) (hstate : s'.conn.state_ = s.conn.state_ ∨
      s'.conn.state_ = .kDisconnected ∨
      s'.conn.state_ = .kConnected ∧ .disconnect ∉ s.trace)
    (htrace : s'.trace = s.trace ++ actions) (hdisconnect : .disconnect ∉ actions)
    (haccept : .disconnect ∈ s.trace → ∀ t, acceptedBy t actions = [])
    (hwaiting : popped ++ s'.loop.waiting = s.loop.waiting ++ new)
    (hnew : ∀ f ∈ new, f ≠ .shutdownInLoop ∧
      (isSend f = true → .shutdownInLoop ∉ s.loop.waiting)) : s'.Ordered := by
  -- a disconnect in the trace is an old one
  have hold : .disconnect ∈ s'.trace → .disconnect ∈ s.trace := by
    intro hmem
    rw [htrace, List.mem_append] at hmem
    exact hmem.resolve_right hdisconnect
  have hsub : ∀ f ∈ s'.loop.waiting, f ∈ s.loop.waiting ∨ f ∈ new := by
    intro f hf
    have hmem : f ∈ popped ++ s'.loop.waiting := List.mem_append_right _ hf
    rw [hwaiting] at hmem
    exact List.mem_append.mp hmem
  refine ⟨?_, ?_, ?_, ?_, ?_⟩
  · intro hmem
    rcases hstate with hsame | hdown | ⟨_, hnot⟩
    · rw [hsame]
      exact h.state (hold hmem)
    · rw [hdown]
      simp
    · exact absurd (hold hmem) hnot
  · intro hk
    rcases hstate with hsame | hdown | ⟨hup, _⟩
    · rw [htrace]
      exact List.mem_append_left _ (h.known (hsame ▸ hk))
    · rw [hdown] at hk
      simp at hk
    · rw [hup] at hk
      simp at hk
  · intro early late hsplit t
    rw [htrace] at hsplit
    -- so that everything accepted after it was accepted by an earlier step, or is none
    obtain ⟨mid, hmid, rfl⟩ := append_eq_append_cons_of_not_mem hsplit hdisconnect
    rw [acceptedBy_append, h.accepted early mid hmid t, List.nil_append]
    exact haccept (by rw [hmid]; simp) t
  · intro hmem
    rw [htrace]
    rcases hsub _ hmem with hw | hn
    · exact List.mem_append_left _ (h.pending hw)
    · exact absurd rfl (hnew _ hn).1
  · -- what is put behind a `shutdownInLoop` does not send
    have hpair : (popped ++ s'.loop.waiting).Pairwise
        fun f g => f = .shutdownInLoop → isSend g = false := by
      rw [hwaiting, List.pairwise_append]
      refine ⟨h.queued, ?_, ?_⟩
      · rw [List.pairwise_iff_forall_sublist]
        intro f g hfg heq
        exact absurd heq (hnew f (hfg.subset (List.mem_cons_self ..))).1
      · intro f hf g hg heq
        subst heq
        by_contra hsend
        exact (hnew g hg).2 (by simpa using hsend) hf
    exact (List.pairwise_append.mp hpair).2.1

/-- The functors that a member function other than `send` and `shutdown` queues are user callbacks and
    `connectDestroyed`. -/
theorem queued_harmless {owner : Owner} (h : ∀ a ∈ actions, a ≠ .queueInLoop .shutdownInLoop ∧
      ∀ caller message, a ≠ .queueInLoop (.sendInLoop caller message)) :
    ∀ f ∈ actions.flatMap (queuedBy owner), f ≠ .shutdownInLoop ∧
      (isSend f = true → .shutdownInLoop ∉ s.loop.waiting) := by
  intro f hf
  obtain ⟨a, ha, hmem⟩ := List.mem_flatMap.mp hf
  have hkinds := h a ha
  cases a with
  | queueInLoop g =>
      obtain rfl := List.mem_singleton.mp hmem
      refine ⟨fun heq => hkinds.1 (by rw [heq]), fun hsend => ?_⟩
      cases f with
      | sendInLoop caller message => exact absurd rfl (hkinds.2 caller message)
      | _ => simp [isSend] at hsend
  | closeCallback =>
      simp only [queuedBy] at hmem
      split at hmem
      · rw [List.mem_singleton.mp hmem]
        simp [isSend]
      · simp at hmem
  | _ => simp [queuedBy] at hmem

section harmless

variable {c c' : TcpConnection}

theorem sent_harmless {caller : Thread} {message : Message} {w : Write} {direct : Option Write}
    {rest : List Byte} (h : Sent c caller message w c' actions direct rest) :
    (∀ a ∈ actions, a ≠ .queueInLoop .shutdownInLoop ∧
      ∀ caller message, a ≠ .queueInLoop (.sendInLoop caller message)) ∧ .disconnect ∉ actions := by
  constructor
  · intro a ha
    rcases h.mem_actions ha with rfl | ⟨_, _, rfl⟩ | rfl | ⟨_, rfl⟩ <;> simp
  · intro ha
    rcases h.mem_actions ha with heq | ⟨_, _, heq⟩ | heq | ⟨_, heq⟩ <;> simp at heq

theorem wrote_harmless {w : Write} (h : Wrote c w c' actions) :
    (∀ a ∈ actions, a ≠ .queueInLoop .shutdownInLoop ∧
      ∀ caller message, a ≠ .queueInLoop (.sendInLoop caller message)) ∧ .disconnect ∉ actions := by
  constructor
  · intro a ha
    rcases h.mem_actions ha with rfl | rfl | rfl <;> simp
  · intro ha
    rcases h.mem_actions ha with heq | heq | heq <;> simp at heq

theorem read_harmless {r : Buffer.Readv} (h : Read c r c' actions) :
    (∀ a ∈ actions, a ≠ .queueInLoop .shutdownInLoop ∧
      ∀ caller message, a ≠ .queueInLoop (.sendInLoop caller message)) ∧ .disconnect ∉ actions := by
  constructor
  · intro a ha
    rcases h.mem_actions ha with rfl | ⟨_, _, rfl⟩ <;> simp
  · intro ha
    rcases h.mem_actions ha with heq | ⟨_, _, heq⟩ <;> simp at heq

end harmless

theorem Ordered.step (h : s.Ordered) (hmoves : Moves s s' t) : s'.Ordered := by
  -- a connection that is still up has not been shut down
  have hnot : s.conn.state_ = .kConnecting ∨ s.conn.state_ = .kConnected → .disconnect ∉ s.trace := by
    intro hstate hmem
    rcases hstate with hk | hk
    · exact (h.state hmem).1 hk
    · exact (h.state hmem).2 hk
  cases hmoves with
  | pass hstate _ _ _ hwaiting htrace =>
      exact h.keep [] [] (Or.inl hstate) (htrace.trans (List.append_nil _).symm)
        (by simp) (fun _ _ => rfl) (by simp [hwaiting]) (by simp)
  | accept hk hother hconn hwaiting htrace =>
      have hfresh := hnot (Or.inr hk)
      refine h.keep [] _ (Or.inl (by rw [hconn])) htrace (by simp)
        (fun hmem => absurd hmem hfresh) hwaiting ?_
      intro f hf
      rw [List.mem_singleton.mp hf]
      exact ⟨by simp, fun _ hmem => hfresh (h.pending hmem)⟩
  | send hk hsent hwaiting htrace =>
      have hfresh := hnot (Or.inr hk)
      obtain ⟨hkinds, hdisconnect⟩ := sent_harmless hsent
      exact h.keep [] _ (Or.inl hsent.state) htrace (by simpa using hdisconnect)
        (fun hmem => absurd hmem hfresh) hwaiting (queued_harmless hkinds)
  | @take caller message w actions direct rest left htook hsent hwaiting htrace =>
      obtain ⟨hkinds, hdisconnect⟩ := sent_harmless hsent
      refine h.keep [.sendInLoop caller message] (actions.flatMap (queuedBy s.owner))
        (Or.inl hsent.state) htrace hdisconnect
        (fun _ t => (sent_moves hsent).2.2.1 t) ?_ (queued_harmless hkinds)
      rw [htook, hwaiting]
      rfl
  | shutdownHere hk hconn hwaiting htrace =>
      have hfresh := hnot (Or.inr hk)
      refine ⟨fun _ => by simp [hconn], fun _ => by simp [htrace], ?_, ?_, by rw [hwaiting]; exact h.queued⟩
      · intro early late hsplit t
        rw [htrace] at hsplit
        rcases append_eq_append_cons hsplit with ⟨mid, hmid, _⟩ | ⟨mid, _, hmid⟩
        · exact absurd (by rw [hmid]; simp) hfresh
        · rw [acceptedBy, List.filterMap_eq_nil_iff]
          intro a ha
          have hmem : a ∈ .disconnect :: s.conn.shutdownInLoop := by
            rw [hmid]
            exact List.mem_append_right _ (List.mem_cons_of_mem _ ha)
          rcases List.mem_cons.mp hmem with rfl | hmem
          · rfl
          · rw [mem_shutdownInLoop hmem]
      · intro _
        rw [htrace]
        simp
  | shutdownElsewhere hk _ hconn hwaiting htrace =>
      have hfresh := hnot (Or.inr hk)
      refine ⟨fun _ => by simp [hconn], fun _ => by simp [htrace], ?_, ?_, ?_⟩
      · intro early late hsplit t
        rw [htrace] at hsplit
        rcases append_eq_append_cons hsplit with ⟨mid, hmid, _⟩ | ⟨mid, _, hmid⟩
        · exact absurd (by rw [hmid]; simp) hfresh
        · rw [acceptedBy, List.filterMap_eq_nil_iff]
          intro a ha
          have hmem : a ∈ [Action.disconnect, .queueInLoop .shutdownInLoop] := by
            rw [hmid]
            exact List.mem_append_right _ (List.mem_cons_of_mem _ ha)
          simp only [List.mem_cons, List.not_mem_nil, or_false] at hmem
          rcases hmem with rfl | rfl <;> rfl
      · intro _
        rw [htrace]
        simp
      · rw [hwaiting, List.pairwise_append]
        refine ⟨h.queued, List.pairwise_singleton _ _, ?_⟩
        intro f _ g hg _
        rw [List.mem_singleton.mp hg]
        rfl
  | shutdownInLoop htook hconn htrace =>
      refine h.keep [.shutdownInLoop] [] (Or.inl (by rw [hconn])) htrace ?_ ?_
        (by rw [htook]; simp) (by simp)
      · intro ha
        exact absurd (mem_shutdownInLoop ha) (by simp)
      · intro _ t
        exact acceptedBy_of_silent (shutdownInLoop_silent _) t
  | connectEstablished hk _ hconn htook htrace =>
      have hfresh := hnot (Or.inl hk)
      rcases htook with hsame | hhead
      · exact h.keep [] [] (Or.inr (Or.inr ⟨by rw [hconn], hfresh⟩)) htrace (by simp)
          (fun _ _ => rfl) (by simp [hsame]) (by simp)
      · exact h.keep [.connectEstablished] [] (Or.inr (Or.inr ⟨by rw [hconn], hfresh⟩)) htrace (by simp)
          (fun _ _ => rfl) (by rw [hhead]; simp) (by simp)
  | connectDestroyed _ _ hconn htook htrace =>
      exact h.keep [.connectDestroyed] [] (Or.inr (Or.inl (by rw [hconn]))) htrace (by simp)
        (fun _ _ => rfl) (by rw [htook]; simp) (by simp)
  | handleRead _ _ hread hwaiting htrace =>
      obtain ⟨hkinds, hdisconnect⟩ := read_harmless hread
      exact h.keep [] _ (Or.inl hread.state) htrace hdisconnect
        (fun _ => acceptedBy_of_silent (read_silent hread)) hwaiting (queued_harmless hkinds)
  | handleWrite hwrote hwaiting htrace =>
      obtain ⟨hkinds, hdisconnect⟩ := wrote_harmless hwrote
      exact h.keep [] _ (Or.inl hwrote.state) htrace hdisconnect
        (fun _ => (wrote_moves hwrote).2.2.1) hwaiting (queued_harmless hkinds)
  | @notify _ f htook _ hconn htrace =>
      exact h.keep [f] [] (Or.inl (by rw [hconn])) htrace (by simp)
        (fun _ _ => rfl) (by rw [htook]; simp) (by simp)
  | removeConnectionInLoop hconn hwaiting htrace =>
      exact h.keep [] _ (Or.inl (by rw [hconn])) (htrace.trans (List.append_nil _).symm) (by simp)
        (fun _ _ => rfl) hwaiting (by simp [isSend])

theorem reachable_ordered (h : connectionMachine.Reachable s) : s.Ordered := by
  refine h.invariant ?_ ?_
  · rintro s ⟨owner, sockfd, writeComplete, rfl⟩
    exact new_ordered owner sockfd writeComplete
  · intro s e s' hs hordered _ hstep
    exact hordered.step (step_moves (reachable_wired hs) hstep)

/-! ## Runs without a dropped message -/

/-- No message was dropped. -/
def Undropped (trace : List Action) : Prop :=
  ∀ caller message direct, .take caller message direct ∈ trace → direct.any Write.isFault = false

theorem keptBy_eq_takenBy {trace : List Action} (h : Undropped trace) (t : Thread) :
    keptBy t trace = takenBy t trace := by
  unfold keptBy takenBy
  apply List.filterMap_congr
  intro a ha
  cases a with
  | take caller message direct =>
      have hkept := h caller message direct ha
      simp [hkept]
  | _ => rfl

theorem Undropped.sent {trace : List Action} {c c' : TcpConnection} {caller : Thread}
    {message : Message} {w : Write} {direct : Option Write} {rest : List Byte} (h : Undropped trace)
    (before : List Action) (hbefore : NoTake before)
    (hfault : c.Idle → w.isFault = false) (hsent : Sent c caller message w c' actions direct rest) :
    Undropped (trace ++ (before ++ actions)) := by
  intro caller' message' direct' hmem
  rcases List.mem_append.mp hmem with hold | hnew
  · exact h caller' message' direct' hold
  rcases List.mem_append.mp hnew with hb | ha
  · exact absurd hb (hbefore caller' message' direct')
  rcases hsent.mem_actions ha with heq | ⟨_, _, heq⟩ | heq | ⟨_, heq⟩
  · simp only [Action.take.injEq] at heq
    rw [heq.2.2]
    cases hsent.disposes with
    | buffered _ => rfl
    | wrote hidle _ _ => exact hfault hidle
    | refused hidle _ _ => exact hfault hidle
    | dropped hidle _ => exact hfault hidle
  · simp at heq
  · simp at heq
  · simp at heq

theorem Undropped.silent {trace : List Action} (h : Undropped trace) (hnone : NoTake actions) :
    Undropped (trace ++ actions) := by
  intro caller message direct hmem
  rcases List.mem_append.mp hmem with hold | hnew
  · exact h caller message direct hold
  · exact absurd hnew (hnone caller message direct)

theorem Undropped.step (h : Undropped s.trace) (hfault : s.Faultless t) (hmoves : Moves s s' t) :
    Undropped s'.trace := by
  rcases hmoves.takes with ⟨_, actions, htrace, hnone⟩ |
    ⟨before, caller, message, w, actions, direct, rest, hsending, hsent, hbefore, htrace⟩
  · exact htrace ▸ h.silent hnone
  · rw [htrace]
    refine h.sent before hbefore (fun hidle => ?_) hsent
    have hresult := hfault hidle
    rw [directWrite_eq, hsending] at hresult
    exact hresult

theorem via_undropped {C : Session → Event → Prop} (hC : ∀ s e, C s e → s.Faultless (s.turn e))
    (h : connectionMachine.ReachableVia C s) : Undropped s.trace := by
  refine h.invariant (I := fun s => Undropped s.trace) ?_ ?_
  · rintro s ⟨owner, sockfd, writeComplete, rfl⟩ caller message direct hmem
    simp [Session.new] at hmem
  · intro s e s' hs hundropped hce hstep
    have hwired := reachable_wired (hs.mono fun _ _ _ => trivial)
    exact hundropped.step (hC s e hce) (step_moves hwired hstep)

/-! ## Where the half-close happens -/

/-- Bytes to send wait when some thread's bytes wait. -/
theorem noData_iff {fs : List Functor} : NoData fs ↔ ∀ t, bytesOf (waitingOf t fs) = [] := by
  constructor
  · intro h t
    rw [bytesOf, List.flatMap_eq_nil_iff]
    intro message hmem
    obtain ⟨f, hf, heq⟩ := List.mem_filterMap.mp hmem
    cases f with
    | sendInLoop caller message' =>
        simp only [Option.ite_none_right_eq_some, Option.some.injEq] at heq
        exact heq.2 ▸ h _ hf
    | _ => simp at heq
  · intro h f hf
    cases f with
    | sendInLoop caller message =>
        have hnil := h caller
        rw [bytesOf, List.flatMap_eq_nil_iff] at hnil
        exact hnil message (List.mem_filterMap.mpr ⟨_, hf, by simp⟩)
    | _ => rfl

/-- `closes_or` for `handleWrite`. -/
theorem closes_or_write {w : Write} (hordered : s.Ordered) (hmatched : Matched s.conn)
    (hwrote : Wrote s.conn w s'.conn actions)
    (hwaiting : s'.loop.waiting = s.loop.waiting ++ actions.flatMap (queuedBy s.owner))
    (htrace : s'.trace = s.trace ++ actions) :
    (∃ actions, s'.trace = s.trace ++ actions ∧ .shutdownWrite ∉ actions ∧
      s.Orderly (.handleWrite w)) ∨
    (∃ actions, s'.trace = s.trace ++ (actions ++ [.shutdownWrite]) ∧ .shutdownWrite ∉ actions ∧
      .disconnect ∈ s.trace ++ actions ∧ s'.conn.outputBuffer_.readable = [] ∧
      (s.Orderly (.handleWrite w) ↔ NoData s'.loop.waiting)) := by
  have hnoData : NoData s'.loop.waiting ↔ NoData s.loop.waiting := by
    rw [noData_iff, noData_iff, hwaiting]
    simp only [waitingOf_append, (wrote_moves hwrote).2.2.2.2, List.append_nil]
  generalize hc : s'.conn = c' at hwrote
  cases hwrote with
  | closed hwriting =>
      refine Or.inl ⟨_, htrace, by simp, fun hahead => ?_⟩
      simp [goesAhead, hwriting] at hahead
  | kept hwriting hnone =>
      refine Or.inl ⟨_, htrace, by simp, fun hahead => ?_⟩
      -- a writing channel has bytes to write, so taking none is not taking all
      have hall : w = .wrote s.conn.outputBuffer_.readable.length := by
        simp only [goesAhead, Bool.and_eq_true, decide_eq_true_eq] at hahead
        exact hahead.2
      rw [hall, Write.accepted, List.take_length] at hnone
      exact absurd hnone (hmatched.mp hwriting)
  | partly _ hw hn _ _ =>
      refine Or.inl ⟨_, htrace, by simp, fun hahead => ?_⟩
      simp only [goesAhead, hw, Bool.and_eq_true, decide_eq_true_eq, Write.wrote.injEq] at hahead
      omega
  | drained hwriting hw _ hread =>
      by_cases hstate : s.conn.state_ = .kDisconnecting
      · rw [if_pos hstate] at htrace
        refine Or.inr ⟨.write s.conn.outputBuffer_.readable w :: s.conn.notifyWriteComplete, ?_, ?_, ?_,
          hread, ?_⟩
        · rw [htrace, List.cons_append]
        · intro hmem
          rcases List.mem_cons.mp hmem with heq | hmem
          · simp at heq
          · exact absurd (mem_notifyWriteComplete hmem) (by simp)
        · exact List.mem_append_left _ (hordered.known hstate)
        · rw [hnoData]
          exact ⟨fun h => h (by simp [goesAhead, hwriting, hstate, hw]), fun h _ => h⟩
      · rw [if_neg hstate, List.append_nil] at htrace
        refine Or.inl ⟨_, htrace, ?_, fun hahead => by simp [goesAhead, hstate] at hahead⟩
        intro hmem
        rcases List.mem_cons.mp hmem with heq | hmem
        · simp at heq
        · exact absurd (mem_notifyWriteComplete hmem) (by simp)

/-- A step either half-closes nothing, and then it is orderly; or `shutdownWrite()` is its last action,
    the buffer is empty then, and it is orderly just when nothing to send waits. -/
theorem closes_or (hordered : s.Ordered) (hmatched : Matched s.conn) (hmoves : Moves s s' t) :
    (∃ actions, s'.trace = s.trace ++ actions ∧ .shutdownWrite ∉ actions ∧ s.Orderly t) ∨
    (∃ actions, s'.trace = s.trace ++ (actions ++ [.shutdownWrite]) ∧ .shutdownWrite ∉ actions ∧
      .disconnect ∈ s.trace ++ actions ∧ s'.conn.outputBuffer_.readable = [] ∧
      (s.Orderly t ↔ NoData s'.loop.waiting)) := by
  have hempty : s.conn.channel_.isWriting = false → s.conn.outputBuffer_.readable = [] := by
    intro hwriting
    by_contra hsome
    have htrue : s.conn.channel_.isWriting = true := hmatched.mpr hsome
    rw [hwriting] at htrue
    simp at htrue
  cases hmoves with
  | pass _ _ _ _ _ htrace => exact Or.inl ⟨[], by simp [htrace], by simp, by rintro ⟨⟩⟩
  | accept _ _ _ _ htrace => exact Or.inl ⟨_, htrace, by simp, by rintro ⟨⟩⟩
  | send _ hsent _ htrace =>
      refine Or.inl ⟨_, htrace, ?_, by rintro ⟨⟩⟩
      intro hmem
      rcases List.mem_cons.mp hmem with heq | hmem
      · simp at heq
      · rcases hsent.mem_actions hmem with heq | ⟨_, _, heq⟩ | heq | ⟨_, heq⟩ <;> simp at heq
  | take _ hsent _ htrace =>
      refine Or.inl ⟨_, htrace, ?_, by rintro ⟨⟩⟩
      intro hmem
      rcases hsent.mem_actions hmem with heq | ⟨_, _, heq⟩ | heq | ⟨_, heq⟩ <;> simp at heq
  | shutdownHere _ hconn hwaiting htrace =>
      cases hwriting : s.conn.channel_.isWriting with
      | true =>
          refine Or.inl ⟨[.disconnect], ?_, by simp, ?_⟩
          · simpa [shutdownInLoop, hwriting] using htrace
          · intro hahead
            simp [goesAhead, hwriting] at hahead
      | false =>
          refine Or.inr ⟨[.disconnect], ?_, by simp, by simp, ?_, ?_⟩
          · simpa [shutdownInLoop, hwriting] using htrace
          · rw [hconn]
            exact hempty hwriting
          · rw [hwaiting]
            exact ⟨fun h => h (by simp [goesAhead, hwriting]), fun h _ => h⟩
  | @shutdownElsewhere caller _ hother _ _ htrace =>
      refine Or.inl ⟨_, htrace, by simp, ?_⟩
      cases caller with
      | loop => exact absurd rfl hother
      | other id => rintro ⟨⟩
  | shutdownInLoop htook hconn htrace =>
      cases hwriting : s.conn.channel_.isWriting with
      | true =>
          refine Or.inl ⟨[], ?_, by simp, by rintro ⟨⟩⟩
          simpa [shutdownInLoop, hwriting] using htrace
      | false =>
          have hpending : .disconnect ∈ s.trace := hordered.pending (by rw [htook]; simp)
          refine Or.inr ⟨[], ?_, by simp, by simpa using hpending, ?_, ?_⟩
          · simpa [shutdownInLoop, hwriting] using htrace
          · rw [hconn]
            exact hempty hwriting
          · refine ⟨fun _ f hf => ?_, fun _ => by rintro ⟨⟩⟩
            -- nothing to send stands behind the functor that just ran
            have hqueued := hordered.queued
            rw [htook, List.pairwise_cons] at hqueued
            have hno := hqueued.1 f hf rfl
            cases f with
            | sendInLoop caller message => simp [isSend] at hno
            | _ => rfl
  | connectEstablished _ _ _ _ htrace => exact Or.inl ⟨_, htrace, by simp, by rintro ⟨⟩⟩
  | connectDestroyed _ _ _ _ htrace => exact Or.inl ⟨_, htrace, by simp, by rintro ⟨⟩⟩
  | handleRead _ _ hread _ htrace =>
      refine Or.inl ⟨_, htrace, ?_, by rintro ⟨⟩⟩
      intro hmem
      rcases hread.mem_actions hmem with heq | ⟨_, _, heq⟩ <;> simp at heq
  | @handleWrite w actions hwrote hwaiting htrace =>
      exact closes_or_write hordered hmatched hwrote hwaiting htrace
  | notify _ _ _ htrace => exact Or.inl ⟨_, htrace, by simp, by rintro ⟨⟩⟩
  | removeConnectionInLoop _ _ htrace => exact Or.inl ⟨[], by simp [htrace], by simp, by rintro ⟨⟩⟩

/-- Where the trace ends in a half-close with an empty buffer, the promise is kept at its end just when
    nothing to send waits. -/
theorem writtenInFull_iff (hstream : s.Stream) (hordered : s.Ordered) (hundropped : Undropped s.trace)
    (hempty : s.conn.outputBuffer_.readable = []) {now early late : List Action}
    (htrace : s.trace = now ++ [.shutdownWrite]) (hnow : now = early ++ .disconnect :: late) :
    WrittenInFull early now ↔ NoData s.loop.waiting := by
  have hsame : socketBytes now = socketBytes s.trace ∧ kept now = kept s.trace ∧
      ∀ t, takenBy t now = takenBy t s.trace := by
    rw [htrace]
    refine ⟨?_, ?_, fun t => ?_⟩
    · rw [socketBytes_append]
      exact (List.append_nil _).symm
    · rw [kept_append]
      exact (List.append_nil _).symm
    · rw [takenBy_append]
      exact (List.append_nil _).symm
  have hsocket : socketBytes now = bytesOf (kept now) := by
    have hbytes := hstream.bytes
    rw [hempty, List.append_nil] at hbytes
    rw [hsame.1, hsame.2.1, hbytes]
  have hkept : ∀ t, keptBy t now = takenBy t now := by
    intro t
    refine keptBy_eq_takenBy (fun caller message direct hmem => ?_) t
    exact hundropped caller message direct (by rw [htrace]; exact List.mem_append_left _ hmem)
  -- nothing is accepted after `shutdown()`: what was accepted before it is all there is
  have haccepted : ∀ t, acceptedBy t early = takenBy t now ++ waitingOf t s.loop.waiting := by
    intro t
    have hlate : s.trace = early ++ .disconnect :: (late ++ [.shutdownWrite]) := by
      rw [htrace, hnow, List.append_assoc, List.cons_append]
    have hall : acceptedBy t s.trace = acceptedBy t early := by
      have hdisconnect : acceptedBy t [Action.disconnect] = [] := rfl
      rw [hlate, acceptedBy_append, ← List.singleton_append, acceptedBy_append, hdisconnect,
        hordered.accepted early _ hlate t, List.append_nil, List.append_nil]
    rw [← hall, hsame.2.2 t]
    exact hstream.fifo t
  rw [noData_iff]
  constructor
  · rintro ⟨hfront, _⟩ t
    have hle := (hfront t).length_le
    rw [haccepted, hkept, bytesOf_append, List.length_append] at hle
    exact List.length_eq_zero_iff.mp (by omega)
  · intro hnil
    refine ⟨fun t => ?_, hsocket⟩
    have hall : bytesOf (acceptedBy t early) = bytesOf (keptBy t now) := by
      rw [haccepted, hkept, bytesOf_append, hnil, List.append_nil]
    exact hall ▸ List.prefix_rfl

/-- **The step lemma**: the promise is kept up to and including a step just when it was kept before the
    step and the step is orderly. -/
theorem halfClosed_step (hstream : s'.Stream) (hordered : s.Ordered) (hordered' : s'.Ordered)
    (hundropped : Undropped s'.trace) (hmatched : Matched s.conn) (hmoves : Moves s s' t) :
    HalfClosed s'.trace ↔ HalfClosed s.trace ∧ s.Orderly t := by
  -- a half-close that was there before the step is there after it
  have hold : HalfClosed s'.trace → HalfClosed s.trace := by
    intro h now rest hsplit
    obtain ⟨new, hnew⟩ := hmoves.trace_grows
    refine h now (rest ++ new) ?_
    rw [← hnew, hsplit, List.append_assoc, List.cons_append]
  rcases closes_or hordered hmatched hmoves with
    ⟨actions, htrace, hnone, horderly⟩ | ⟨actions, htrace, hnone, hdisconnect, hempty, hiff⟩
  · refine ⟨fun h => ⟨hold h, horderly⟩, fun ⟨h, _⟩ now rest hsplit early late hnow => ?_⟩
    rw [htrace] at hsplit
    obtain ⟨mid, hmid, _⟩ := append_eq_append_cons_of_not_mem hsplit hnone
    exact h now mid hmid early late hnow
  · have hend : s'.trace = (s.trace ++ actions) ++ [.shutdownWrite] := by
      rw [htrace, List.append_assoc]
    constructor
    · intro h
      refine ⟨hold h, hiff.mpr ?_⟩
      obtain ⟨early, late, hnow⟩ := List.append_of_mem hdisconnect
      exact (writtenInFull_iff hstream hordered' hundropped hempty hend hnow).mp
        (h _ [] hend early late hnow)
    · rintro ⟨h, horderly⟩ now rest hsplit early late hnow
      rw [htrace] at hsplit
      rcases append_eq_append_cons hsplit with ⟨mid, hmid, _⟩ | ⟨mid, hnow', hys⟩
      · exact h now mid hmid early late hnow
      · -- the half-close is the one of this step
        have hmid : mid = actions := by
          rcases append_eq_append_cons hys with ⟨mid', hin, _⟩ | ⟨mid', hfront, hback⟩
          · exact absurd (by rw [hin]; simp) hnone
          · cases mid' with
            | nil => rw [hfront, List.append_nil]
            | cons a mid' => simp at hback
        rw [hmid] at hnow'
        rw [hnow'] at hnow ⊢
        exact (writtenInFull_iff hstream hordered' hundropped hempty hend hnow).mpr (hiff.mp horderly)

/-- **The run lemma.** -/
theorem halfClosed_run {es : List Event}
    (hs : connectionMachine.ReachableVia (fun s e => s.Faultless (s.turn e)) s)
    (hfault : connectionMachine.Along (fun s e => s.Faultless (s.turn e)) s es)
    (hrun : connectionMachine.run s es = some s') (hopen : .closeCallback ∉ s'.trace) :
    HalfClosed s'.trace ↔
      HalfClosed s.trace ∧ connectionMachine.Along (fun s e => s.Orderly (s.turn e)) s es := by
  induction es generalizing s with
  | nil =>
      simp only [Machine.run, Option.some.injEq] at hrun
      subst hrun
      simp [Machine.Along]
  | cons e es ih =>
      rw [Machine.run, Option.bind_eq_some_iff] at hrun
      obtain ⟨mid, hstep, hrest⟩ := hrun
      obtain ⟨hfe, hfes⟩ := (Machine.along_cons hstep).mp hfault
      have hmid : connectionMachine.ReachableVia (fun s e => s.Faultless (s.turn e)) mid :=
        .step hs hfe hstep
      have hreach : connectionMachine.Reachable s := hs.mono fun _ _ _ => trivial
      have hreach' : connectionMachine.Reachable mid := hmid.mono fun _ _ _ => trivial
      have hmoves := step_moves (reachable_wired hreach) hstep
      have hopen' : .closeCallback ∉ s.trace := fun hmem =>
        hopen ((hmoves.trace_grows.trans (run_trace_grows hreach' hrest)).subset hmem)
      have hone := halfClosed_step (reachable_stream hreach') (reachable_ordered hreach)
        (reachable_ordered hreach') (via_undropped (fun _ _ h => h) hmid)
        (reachable_matched hreach hopen') hmoves
      rw [ih hmid hfes hrest, hone, Machine.along_cons hstep, and_assoc]

/-- **Graceful half-close.** In a run up to `handleClose` in which no direct write leads to a fault, every
    half-close comes after everything accepted before the `shutdown()` call has been
    written in full if and only if every step is orderly. -/
theorem half_close_orderly {s₀ : Session} {es : List Event} (hinit : connectionMachine.init s₀)
    (hfault : connectionMachine.Along (fun s e => s.Faultless (s.turn e)) s₀ es)
    (hrun : connectionMachine.run s₀ es = some s) (hopen : .closeCallback ∉ s.trace) :
    HalfClosed s.trace ↔ connectionMachine.Along (fun s e => s.Orderly (s.turn e)) s₀ es := by
  rw [halfClosed_run (.init hinit) hfault hrun hopen]
  refine and_iff_right ?_
  obtain ⟨owner, sockfd, writeComplete, rfl⟩ := hinit
  intro now rest hsplit
  simp [Session.new] at hsplit

/-- A thread sends, the loop writes half of it, and the thread sends again and shuts down before the
    rest is drained. -/
def sendTwiceThenShutdown : List Event :=
  [.connectEstablished, .leaveUser, .send (.other 1) ⟨[1, 2], by decide⟩ (.wrote 0),
   .doPendingFunctors, .runFunctor (.wrote 1), .endFunctors,
   .send (.other 1) ⟨[3], by decide⟩ (.wrote 0), .shutdown (.other 1)]

/-- The drain comes before the queued functors. -/
def drainFirst : List Event :=
  sendTwiceThenShutdown ++ [.handleEvent ⟨false, false, true⟩, .runCallback (.error 0) (.wrote 1)]

/-- The queued functors come before the drain. -/
def functorsFirst : List Event :=
  sendTwiceThenShutdown ++ [.doPendingFunctors, .runFunctor (.wrote 0), .runFunctor (.wrote 0),
    .endFunctors, .handleEvent ⟨false, false, true⟩, .runCallback (.error 0) (.wrote 2)]

/-- What was done before the `shutdown()` call. -/
def beforeShutdown : List Action :=
  [.callback (.connection true), .accept (.other 1) ⟨[1, 2], by decide⟩,
   .queueInLoop (.sendInLoop (.other 1) ⟨[1, 2], by decide⟩),
   .take (.other 1) ⟨[1, 2], by decide⟩ (some (.wrote 1)), .write [1, 2] (.wrote 1),
   .accept (.other 1) ⟨[3], by decide⟩, .queueInLoop (.sendInLoop (.other 1) ⟨[3], by decide⟩)]

/-- `drainFirst` half-closes the connection while the second message still waits in the queue. -/
theorem half_close_loses_message :
    ¬ ∀ s, connectionMachine.ReachableVia (fun _ e => e.writesSucceed = true) s →
      .closeCallback ∉ s.trace → HalfClosed s.trace := by
  intro hclaim
  have hrun : ((connectionMachine.run (Session.new (.tcpServer true) 9 false) drainFirst).map
      fun s => s.trace) = some ((beforeShutdown ++
        .disconnect :: [.queueInLoop .shutdownInLoop, .write [2] (.wrote 1)]) ++ [.shutdownWrite]) := by
    decide +kernel
  obtain ⟨s, hs, htrace⟩ := Option.map_eq_some_iff.mp hrun
  have hreach : connectionMachine.ReachableVia (fun _ e => e.writesSucceed = true) s :=
    Machine.run_reachableVia (.init ⟨.tcpServer true, 9, false, rfl⟩) (by decide +kernel) hs
  have hclosed := hclaim s hreach (by rw [htrace]; decide)
  have hwritten := (hclosed _ [] htrace beforeShutdown _ rfl).1 (.other 1)
  exact absurd hwritten.length_le (by decide)

/-- `functorsFirst` is orderly to its end, and the last step of `drainFirst` is not. -/
theorem half_close_orderly_sendTwice :
    (∃ s, connectionMachine.run (Session.new (.tcpServer true) 9 false) functorsFirst = some s ∧
      .shutdownWrite ∈ s.trace ∧ HalfClosed s.trace) ∧
    (∃ s, connectionMachine.run (Session.new (.tcpServer true) 9 false) drainFirst = some s ∧
      .shutdownWrite ∈ s.trace ∧ ¬ HalfClosed s.trace) := by
  have hinit : connectionMachine.init (Session.new (.tcpServer true) 9 false) :=
    ⟨.tcpServer true, 9, false, rfl⟩
  constructor
  · have hrun : ((connectionMachine.run (Session.new (.tcpServer true) 9 false) functorsFirst).map
        fun s => (decide (.shutdownWrite ∈ s.trace), decide (.closeCallback ∈ s.trace))) =
        some (true, false) := by
      decide +kernel
    obtain ⟨s, hs, hvalues⟩ := Option.map_eq_some_iff.mp hrun
    simp only [Prod.mk.injEq, decide_eq_true_eq, decide_eq_false_iff_not] at hvalues
    exact ⟨s, hs, hvalues.1,
      (half_close_orderly hinit (by decide +kernel) hs hvalues.2).mpr (by decide +kernel)⟩
  · have hrun : ((connectionMachine.run (Session.new (.tcpServer true) 9 false) drainFirst).map
        fun s => (decide (.shutdownWrite ∈ s.trace), decide (.closeCallback ∈ s.trace))) =
        some (true, false) := by
      decide +kernel
    obtain ⟨s, hs, hvalues⟩ := Option.map_eq_some_iff.mp hrun
    simp only [Prod.mk.injEq, decide_eq_true_eq, decide_eq_false_iff_not] at hvalues
    refine ⟨s, hs, hvalues.1, fun hclosed => ?_⟩
    exact absurd ((half_close_orderly hinit (by decide +kernel) hs hvalues.2).mp hclosed)
      (by decide +kernel)

end Session

end Simplev
