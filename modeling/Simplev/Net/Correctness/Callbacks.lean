import Simplev.Net.Session
import Simplev.Net.TcpConnectionSpec

/-!
# `Net.Correctness.Callbacks` — the callback protocol of a connection

`handleClose` does not change `state_`, so nothing in the connection alone says that it runs once. What
does is its place in a round trip: interest in reading is turned on by `connectEstablished` only, off
by `handleClose`, and `connectDestroyed` is on its way exactly from `handleClose` on.

- **`Stage`.** Opening, up, closing, down: for each, the values of `state_`, the interest in reading,
  the calls of `connectEstablished` and `connectDestroyed` on their way, and the callbacks made.
- **`Wired`.** The invariant: a stage for the session, valid buffers, and what the loop's thread may
  rely on in the middle of an event or of `connectDestroyed`.
- **`callback_protocol`.** What users see.
-/

namespace Simplev

open Foundation TcpConnection

namespace Session

/-! ## The calls users see -/

/-- A call of `connectionCallback_` or `messageCallback_`. -/
def protocolCall : Action → Option Callback
  | .callback (.connection connected) => some (.connection connected)
  | .callback (.message arrived readable) => some (.message arrived readable)
  | _ => none

/-- The calls of `connectionCallback_` and `messageCallback_`, in order. -/
def protocolCalls (trace : List Action) : List Callback := trace.filterMap protocolCall

/-- A call of `messageCallback_` with at least one new byte at the end of the input buffer. -/
def BringsBytes : Callback → Prop
  | .message arrived readable => arrived ≠ [] ∧ arrived <:+ readable
  | _ => False

/-! ## Stages -/

inductive Stage where
  | opening
  | up
  | closing
  | down
deriving DecidableEq, Repr

namespace Stage

def Allows : Stage → StateE → Prop
  | opening, state => state = .kConnecting
  | up, state => state = .kConnected ∨ state = .kDisconnecting
  | closing, state => state = .kConnected ∨ state = .kDisconnecting
  | down, state => state = .kDisconnected

/-- Interest in reading. -/
def reading : Stage → Bool
  | up => true
  | _ => false

/-- Calls of `connectEstablished` on their way. -/
def opens : Stage → Nat
  | opening => 1
  | _ => 0

/-- Calls of `connectDestroyed` on their way. -/
def destroys : Stage → Nat
  | closing => 1
  | _ => 0

/-- Calls of `closeCallback_` made. -/
def closes : Stage → Nat
  | opening => 0
  | up => 0
  | closing => 1
  | down => 1

/-- The protocol calls made, around those of `messageCallback_`. -/
def calls : Stage → List Callback → List Callback
  | opening, _ => []
  | up, messages => .connection true :: messages
  | closing, messages => .connection true :: messages
  | down, messages => .connection true :: messages ++ [.connection false]

end Stage

/-- Calls of `connectEstablished` on their way: from `newConnection`, or in the queue. -/
def opensPending (s : Session) : Nat :=
  (if s.phase = .newConnection then 1 else 0) + s.loop.waiting.count .connectEstablished

/-- Calls of `connectDestroyed` on their way: behind a `removeConnectionInLoop`, or in the queue. -/
def destroysPending (s : Session) : Nat := s.removing + s.loop.waiting.count .connectDestroyed

/-- **The session is at `stage`**, with `messages` the calls of `messageCallback_` so far. -/
structure At (s : Session) (stage : Stage) (messages : List Callback) : Prop where
  state : stage.Allows s.conn.state_
  reading : s.conn.channel_.reading = stage.reading
  opens : s.opensPending = stage.opens
  destroys : s.destroysPending = stage.destroys
  closes : s.trace.count .closeCallback = stage.closes
  calls : protocolCalls s.trace = stage.calls messages
  bring : ∀ cb ∈ messages, BringsBytes cb

/-- **The invariant.** -/
structure Wired (s : Session) : Prop where
  stage : ∃ stage messages, s.At stage messages
  sound : s.conn.Sound
  failed : s.failed = []
  /-- Outside of `doPendingFunctors` its local vector is empty. -/
  rest : s.phase ≠ .functors → s.loop.rest = []
  /-- A read callback still to be made in this event was delivered on a live interest. -/
  event : ∀ rest, s.phase = .event rest → rest.Nodup ∧
    (.readCallback ∈ rest → s.conn.channel_.reading = true)
  /-- In the middle of `connectDestroyed` nothing can turn an interest back on. -/
  down : s.user = some (.callback (.connection false)) →
    s.conn.state_ = .kDisconnected ∧ s.conn.channel_.isNoneEvent = true

theorem opensPending_after (s : Session) (c : TcpConnection) (actions : List Action)
    (fs : List String) : (s.after c actions fs).opensPending =
      s.opensPending + (actions.flatMap (queuedBy s.owner)).count .connectEstablished := by
  rw [opensPending, after_waiting, List.count_append, after_phase, opensPending, Nat.add_assoc]

theorem destroysPending_after (s : Session) (c : TcpConnection) (actions : List Action)
    (fs : List String) : (s.after c actions fs).destroysPending =
      s.destroysPending + ((actions.map (removalsBy s.owner)).sum +
        (actions.flatMap (queuedBy s.owner)).count .connectDestroyed) := by
  rw [destroysPending, after_waiting, List.count_append, after_removing, destroysPending]
  omega

/-- Whoever the owner is, a close puts one `connectDestroyed` on its way. -/
theorem destroys_of_close (owner : Owner) :
    ([Action.closeCallback].map (removalsBy owner)).sum +
      ([Action.closeCallback].flatMap (queuedBy owner)).count .connectDestroyed = 1 := by
  cases h : owner.sameLoop <;> simp [removalsBy, queuedBy, h]

theorem opens_of_close (owner : Owner) :
    ([Action.closeCallback].flatMap (queuedBy owner)).count .connectEstablished = 0 := by
  cases h : owner.sameLoop <;> simp [queuedBy, h]

theorem new_at (owner : Owner) (sockfd : Nat) (writeComplete : Bool) :
    (Session.new owner sockfd writeComplete).At .opening [] where
  state := rfl
  reading := rfl
  opens := by
    cases h : owner.sameLoop <;> simp [opensPending, Session.new, h, Stage.opens]
  destroys := by
    cases h : owner.sameLoop <;> simp [destroysPending, Session.new, h, Stage.destroys]
  closes := rfl
  calls := rfl
  bring := by simp

theorem new_wired (owner : Owner) (sockfd : Nat) (writeComplete : Bool) :
    (Session.new owner sockfd writeComplete).Wired where
  stage := ⟨.opening, [], new_at owner sockfd writeComplete⟩
  sound := TcpConnection.new_sound sockfd writeComplete
  failed := rfl
  rest _ := by cases h : owner.sameLoop <;> simp [Session.new, h, EventLoop.new, EventLoop.queueInLoop]
  event rest hphase := by
    cases h : owner.sameLoop <;> simp [Session.new, h] at hphase
  down huser := by simp [Session.new] at huser

/-! ## What keeps the stage -/

/-- An action that has no part in the protocol. -/
def isPlain : Action → Bool
  | .queueInLoop .connectEstablished => false
  | .queueInLoop .connectDestroyed => false
  | .callback (.connection _) => false
  | .callback (.message _ _) => false
  | .closeCallback => false
  | _ => true

section plain

variable {actions : List Action}

/-- Plain actions queue neither end of the protocol. -/
theorem queued_of_plain (h : ∀ a ∈ actions, isPlain a = true) {owner : Owner} {f : Functor}
    (hf : f ∈ actions.flatMap (queuedBy owner)) :
    f ≠ .connectEstablished ∧ f ≠ .connectDestroyed := by
  obtain ⟨a, ha, hmem⟩ := List.mem_flatMap.mp hf
  have hplain := h a ha
  cases a with
  | queueInLoop g =>
      obtain rfl := List.mem_singleton.mp hmem
      constructor
      · rintro rfl
        simp [isPlain] at hplain
      · rintro rfl
        simp [isPlain] at hplain
  | closeCallback => simp [isPlain] at hplain
  | _ => simp [queuedBy] at hmem

theorem count_queued_of_plain (h : ∀ a ∈ actions, isPlain a = true) (owner : Owner) :
    (actions.flatMap (queuedBy owner)).count .connectEstablished = 0 ∧
      (actions.flatMap (queuedBy owner)).count .connectDestroyed = 0 :=
  ⟨List.count_eq_zero.mpr fun hmem => (queued_of_plain h hmem).1 rfl,
    List.count_eq_zero.mpr fun hmem => (queued_of_plain h hmem).2 rfl⟩

theorem removals_of_plain (h : ∀ a ∈ actions, isPlain a = true) (owner : Owner) :
    (actions.map (removalsBy owner)).sum = 0 := by
  induction actions with
  | nil => rfl
  | cons a actions ih =>
      have hplain := h a (List.mem_cons_self ..)
      have hzero : removalsBy owner a = 0 := by
        cases a with
        | closeCallback => simp [isPlain] at hplain
        | _ => rfl
      rw [List.map_cons, List.sum_cons, hzero, Nat.zero_add]
      exact ih fun b hb => h b (List.mem_cons_of_mem _ hb)

theorem count_closes_of_plain (h : ∀ a ∈ actions, isPlain a = true) :
    actions.count .closeCallback = 0 := by
  rw [List.count_eq_zero]
  intro hmem
  simpa [isPlain] using h _ hmem

theorem protocolCalls_of_plain (h : ∀ a ∈ actions, isPlain a = true) :
    protocolCalls actions = [] := by
  rw [protocolCalls, List.filterMap_eq_nil_iff]
  intro a ha
  have hplain := h a ha
  unfold protocolCall
  split
  · simp [isPlain] at hplain
  · simp [isPlain] at hplain
  · rfl

/-- Plain actions do not enter `connectionCallback_`. -/
theorem entersUser_of_plain (h : ∀ a ∈ actions, isPlain a = true) {user : Option UserCode}
    {connected : Bool}
    (hin : (actions.findSome? entersUser).or user = some (.callback (.connection connected))) :
    user = some (.callback (.connection connected)) := by
  cases hfind : actions.findSome? entersUser with
  | none =>
      rw [hfind] at hin
      exact hin
  | some code =>
      rw [hfind] at hin
      obtain ⟨a, ha, henter⟩ := List.exists_of_findSome?_eq_some hfind
      obtain rfl : code = .callback (.connection connected) := by simpa using hin
      have hplain := h a ha
      cases a with
      | callback cb =>
          simp only [entersUser, Option.some.injEq, UserCode.callback.injEq] at henter
          subst henter
          simp [isPlain] at hplain
      | _ => simp [entersUser] at henter

end plain

variable {s s₁ s' : Session} {stage : Stage} {messages : List Callback} {c : TcpConnection}
  {actions : List Action} {fs : List String}

/-- A member function that does plain things, keeps the interest in reading and stays within the
    states of the stage keeps the stage. -/
theorem At.plain (h : s₁.At stage messages) (hstate : stage.Allows c.state_)
    (hreading : c.channel_.reading = s₁.conn.channel_.reading)
    (hplain : ∀ a ∈ actions, isPlain a = true) : (s₁.after c actions fs).At stage messages where
  state := hstate
  reading := hreading.trans h.reading
  opens := by
    rw [opensPending_after, (count_queued_of_plain hplain _).1]
    exact h.opens
  destroys := by
    rw [destroysPending_after, (count_queued_of_plain hplain _).2, removals_of_plain hplain]
    exact h.destroys
  closes := by
    rw [after_trace, List.count_append, count_closes_of_plain hplain]
    exact h.closes
  calls := by
    rw [after_trace, protocolCalls, List.filterMap_append]
    exact (congrArg _ (protocolCalls_of_plain hplain)).trans
      ((List.append_nil _).trans h.calls)
  bring := h.bring

/-- Moving the loop's thread keeps the stage when the functors on their way stay the same. -/
theorem At.move (h : s.At stage messages) (hconn : s₁.conn = s.conn) (hopens : s₁.opensPending = s.opensPending)
    (hdestroys : s₁.destroysPending = s.destroysPending) (htrace : s₁.trace = s.trace) :
    s₁.At stage messages where
  state := hconn ▸ h.state
  reading := hconn ▸ h.reading
  opens := hopens.trans h.opens
  destroys := hdestroys.trans h.destroys
  closes := htrace ▸ h.closes
  calls := htrace ▸ h.calls
  bring := h.bring

/-- A member function that does plain things keeps the invariant, if it leaves the protocol's part of
    the connection alone: always the interest in reading, and everything once the connection is down. -/
theorem Wired.plain (h : s₁.Wired) (hsound : c.Sound)
    (hstate : c.state_ = s₁.conn.state_ ∨ s₁.conn.isUp ∧ c.isUp)
    (hreading : c.channel_.reading = s₁.conn.channel_.reading)
    (hwriting : s₁.conn.state_ = .kDisconnected →
      s₁.user = some (.callback (.connection false)) → c.channel_.writing = s₁.conn.channel_.writing)
    (hplain : ∀ a ∈ actions, isPlain a = true) : (s₁.after c actions []).Wired where
  stage := by
    obtain ⟨stage, messages, hat⟩ := h.stage
    refine ⟨stage, messages, hat.plain ?_ hreading hplain⟩
    rcases hstate with hsame | ⟨hup, hup'⟩
    · exact hsame ▸ hat.state
    · have hallows := hat.state
      cases stage with
      | opening => rcases hup with hk | hk <;> rw [hk] at hallows <;> simp [Stage.Allows] at hallows
      | up => exact hup'
      | closing => exact hup'
      | down => rcases hup with hk | hk <;> rw [hk] at hallows <;> simp [Stage.Allows] at hallows
  sound := hsound
  failed := by rw [after_failed, h.failed, List.append_nil]
  rest := h.rest
  event rest hphase := by
    rw [after_conn, hreading]
    exact h.event rest hphase
  down huser := by
    have hdown := entersUser_of_plain hplain huser
    obtain ⟨hk, hnone⟩ := h.down hdown
    rw [after_conn, Channel.isNoneEvent, hreading, hwriting hk hdown]
    refine ⟨?_, hnone⟩
    rcases hstate with hsame | ⟨hup, _⟩
    · exact hsame.trans hk
    · rcases hup with hu | hu <;> rw [hk] at hu <;> simp at hu

/-- Moving the loop's thread keeps the invariant. -/
theorem Wired.move (h : s.Wired) (hconn : s₁.conn = s.conn)
    (hopens : s₁.opensPending = s.opensPending)
    (hdestroys : s₁.destroysPending = s.destroysPending) (htrace : s₁.trace = s.trace)
    (hfailed : s₁.failed = s.failed) (hrest : s₁.phase ≠ .functors → s₁.loop.rest = [])
    (hevent : ∀ rest, s₁.phase = .event rest → rest.Nodup ∧
      (.readCallback ∈ rest → s.conn.channel_.reading = true))
    (huser : s₁.user = some (.callback (.connection false)) → s₁.user = s.user) : s₁.Wired where
  stage := by
    obtain ⟨stage, messages, hat⟩ := h.stage
    exact ⟨stage, messages, hat.move hconn hopens hdestroys htrace⟩
  sound := hconn ▸ h.sound
  failed := hfailed.trans h.failed
  rest := hrest
  event := hconn ▸ hevent
  down hdown := by
    rw [hconn]
    exact h.down ((huser hdown).symm.trans hdown)

/-! ## The round trip -/

/-- `connectEstablished`, from `newConnection` or from the queue. -/
theorem Wired.established (h : s.Wired) (hlast : s.opensPending = s₁.opensPending + 1)
    (hdestroys : s₁.destroysPending = s.destroysPending)
    (htrace : s₁.trace = s.trace) (hfailed : s₁.failed = s.failed)
    (hrest : s₁.phase ≠ .functors → s₁.loop.rest = []) (hevent : ∀ rest, s₁.phase ≠ .event rest)
    (hrun : s.conn.connectEstablished = .ok (c, actions) fs) : (s₁.after c actions fs).Wired := by
  obtain ⟨stage, messages, hat⟩ := h.stage
  have hopening : stage = .opening := by
    have hopens := hat.opens
    cases stage with
    | opening => rfl
    | up => simp only [Stage.opens] at hopens; omega
    | closing => simp only [Stage.opens] at hopens; omega
    | down => simp only [Stage.opens] at hopens; omega
  subst hopening
  obtain ⟨rfl, rfl, rfl⟩ := connectEstablished_spec hat.state hrun
  refine ⟨⟨.up, [], ?_⟩, ⟨h.sound.input, h.sound.output⟩, ?_, hrest, fun rest hphase =>
    absurd hphase (hevent rest), fun huser => by simp [entersUser] at huser⟩
  · refine ⟨Or.inl rfl, rfl, ?_, ?_, ?_, ?_, by simp⟩
    · have hopens := hat.opens
      simp only [Stage.opens] at hopens
      have hzero : s₁.opensPending = 0 := by omega
      rw [opensPending_after, hzero]
      rfl
    · rw [destroysPending_after, hdestroys, hat.destroys]
      rfl
    · rw [after_trace, htrace, List.count_append, hat.closes]
      rfl
    · rw [after_trace, htrace, protocolCalls, List.filterMap_append]
      exact congrArg (· ++ _) hat.calls
  · rw [after_failed, hfailed, h.failed]
    rfl

/-- `connectDestroyed`, from the queue. -/
theorem Wired.destroyed (h : s.Wired) (hlast : s.destroysPending = s₁.destroysPending + 1)
    (hopens : s₁.opensPending = s.opensPending) (htrace : s₁.trace = s.trace)
    (hfailed : s₁.failed = s.failed) (hrest : s₁.phase ≠ .functors → s₁.loop.rest = [])
    (hevent : ∀ rest, s₁.phase ≠ .event rest)
    (hrun : s.conn.connectDestroyed = .ok (c, actions) fs) : (s₁.after c actions fs).Wired := by
  obtain ⟨stage, messages, hat⟩ := h.stage
  have hclosing : stage = .closing := by
    have hdestroys := hat.destroys
    cases stage with
    | opening => simp only [Stage.destroys] at hdestroys; omega
    | up => simp only [Stage.destroys] at hdestroys; omega
    | closing => rfl
    | down => simp only [Stage.destroys] at hdestroys; omega
  subst hclosing
  obtain ⟨rfl, rfl, rfl⟩ := connectDestroyed_spec hat.state hrun
  refine ⟨⟨.down, messages, ?_⟩, ⟨h.sound.input, h.sound.output⟩, ?_, hrest, fun rest hphase =>
    absurd hphase (hevent rest), fun _ => ⟨rfl, rfl⟩⟩
  · refine ⟨rfl, rfl, ?_, ?_, ?_, ?_, hat.bring⟩
    · rw [opensPending_after, hopens, hat.opens]
      rfl
    · have hdestroys := hat.destroys
      simp only [Stage.destroys] at hdestroys
      have hzero : s₁.destroysPending = 0 := by omega
      rw [destroysPending_after, hzero]
      rfl
    · rw [after_trace, htrace, List.count_append, hat.closes]
      rfl
    · rw [after_trace, htrace, protocolCalls, List.filterMap_append]
      exact congrArg (· ++ _) hat.calls
  · rw [after_failed, hfailed, h.failed]
    rfl

/-- The stage of a session that is interested in reading. -/
theorem At.up_of_reading (h : s.At stage messages) (hreading : s.conn.channel_.reading = true) :
    stage = .up := by
  rw [h.reading] at hreading
  cases stage with
  | up => rfl
  | opening => simp [Stage.reading] at hreading
  | closing => simp [Stage.reading] at hreading
  | down => simp [Stage.reading] at hreading

/-- `handleRead`, on a live interest in reading that this event uses up. -/
theorem Wired.read (h : s₁.Wired) (hreading : s₁.conn.channel_.reading = true)
    (hused : ∀ rest, s₁.phase = .event rest → .readCallback ∉ rest)
    {r : Buffer.Readv} (hfit : r.Fits s₁.conn.inputBuffer_)
    (hrun : s₁.conn.handleRead r = .ok (c, actions) fs) : (s₁.after c actions fs).Wired := by
  obtain ⟨stage, messages, hat⟩ := h.stage
  obtain rfl := hat.up_of_reading hreading
  obtain ⟨rfl, hread⟩ := handleRead_spec h.sound hat.state hfit hrun
  cases hread with
  | error _ => exact h.plain h.sound (Or.inl rfl) rfl (fun _ _ => rfl) (by simp)
  | closed _ hvalid _ =>
      -- the peer has closed: `handleClose` queues the destruction, and messages are over
      refine ⟨⟨.closing, messages, ?_⟩, ⟨hvalid, h.sound.output⟩, ?_, h.rest, ?_, ?_⟩
      · refine ⟨hat.state, rfl, ?_, ?_, ?_, ?_, hat.bring⟩
        · rw [opensPending_after, opens_of_close, hat.opens]
          rfl
        · rw [destroysPending_after, destroys_of_close, hat.destroys]
          rfl
        · rw [after_trace, List.count_append, hat.closes]
          rfl
        · rw [after_trace, protocolCalls, List.filterMap_append]
          exact (List.append_nil _).trans hat.calls
      · rw [after_failed, h.failed]
        rfl
      · intro rest hphase
        exact ⟨(h.event rest hphase).1, fun hmem => absurd hmem (hused rest hphase)⟩
      · intro huser
        have hdown := (h.down (by simpa [entersUser] using huser)).1
        rcases hat.state with hk | hk <;> rw [hk] at hdown <;> simp at hdown
  | @arrived bytes b _ hsome hvalid hread =>
      -- bytes have arrived: one more message, with all that is unread
      refine ⟨⟨.up, messages ++ [.message bytes b.readable], ?_⟩, ⟨hvalid, h.sound.output⟩, ?_, h.rest, ?_, ?_⟩
      · refine ⟨hat.state, hat.reading, ?_, ?_, ?_, ?_, ?_⟩
        · rw [opensPending_after, hat.opens]
          rfl
        · rw [destroysPending_after, hat.destroys]
          rfl
        · rw [after_trace, List.count_append, hat.closes]
          rfl
        · rw [after_trace, protocolCalls, List.filterMap_append]
          exact congrArg (· ++ _) hat.calls
        · intro cb hcb
          rcases List.mem_append.mp hcb with hold | hnew
          · exact hat.bring cb hold
          · obtain rfl := List.mem_singleton.mp hnew
            exact ⟨hsome, _, hread.symm⟩
      · rw [after_failed, h.failed]
        rfl
      · intro rest hphase
        exact h.event rest hphase
      · intro huser
        simp [entersUser] at huser

/-! ## The other member functions are plain -/

theorem shutdownInLoop_plain (c : TcpConnection) : ∀ a ∈ c.shutdownInLoop, isPlain a = true := by
  unfold shutdownInLoop
  split <;> simp [isPlain]

theorem sent_plain {caller : Thread} {message : Message} {w : Write} {direct : Option Write}
    {rest : List Byte} {c₀ : TcpConnection} (h : Sent c₀ caller message w c actions direct rest) :
    ∀ a ∈ actions, isPlain a = true := by
  intro a ha
  rcases h.mem_actions ha with rfl | ⟨_, _, rfl⟩ | rfl | ⟨_, rfl⟩ <;> rfl

theorem wrote_plain {w : Write} {c₀ : TcpConnection} (h : Wrote c₀ w c actions) :
    ∀ a ∈ actions, isPlain a = true := by
  intro a ha
  rcases h.mem_actions ha with rfl | rfl | rfl <;> rfl

/-! ## Every step -/

/-- Taking a functor that is no end of the protocol out of the queue. -/
theorem Wired.next (h : s.Wired) {f : Functor} {loop : EventLoop Functor}
    (hphase : s.phase = .functors) (hnext : s.loop.nextFunctor = some (f, loop))
    (hopen : f ≠ .connectEstablished) (hdestroy : f ≠ .connectDestroyed) :
    ({ s with loop := loop } : Session).Wired := by
  have hwaiting := EventLoop.nextFunctor_waiting hnext
  refine h.move rfl ?_ ?_ rfl rfl (fun hnot => absurd hphase hnot) ?_ (fun _ => rfl)
  · simp only [opensPending, hwaiting, List.count_cons_of_ne hopen]
  · simp only [destroysPending, hwaiting, List.count_cons_of_ne hdestroy]
  · intro rest hevent
    rw [show s.phase = .event rest from hevent] at hphase
    exact absurd hphase (by simp)

/-- `sendInLoop`, also as the tail of `send`, outside of `connectDestroyed`. -/
theorem Wired.sent (h : s₁.Wired)
    (hfree : s₁.conn.state_ = .kDisconnected → s₁.user ≠ some (.callback (.connection false)))
    {caller : Thread} {message : Message} {w : Write} (before : List Action)
    (hfit : w.Fits message.bytes.length) (hbefore : ∀ a ∈ before, isPlain a = true)
    (hrun : s₁.conn.sendInLoop caller message w = .ok (c, actions) fs) :
    (s₁.after c (before ++ actions) fs).Wired := by
  obtain ⟨rfl, direct, rest, hsent⟩ := sendInLoop_spec h.sound hfit hrun
  refine h.plain (hsent.sound h.sound) (Or.inl hsent.state) hsent.reading ?_ ?_
  · intro hdown huser
    exact absurd huser (hfree hdown)
  · intro a ha
    rcases List.mem_append.mp ha with ha | ha
    · exact hbefore a ha
    · exact sent_plain hsent a ha

theorem Wired.step_send (h : s.Wired) {caller : Thread} {message : Message} {w : Write}
    (hfit : w.Fits message.bytes.length)
    (hrun : s.conn.send caller message w = .ok (c, actions) fs) : (s.after c actions fs).Wired := by
  rcases send_spec hrun with ⟨_, rfl, rfl, rfl⟩ | ⟨hk, _, sent, hsend, rfl⟩ |
    ⟨hk, _, rfl, rfl, rfl⟩
  · exact h.plain h.sound (Or.inl rfl) rfl (fun _ _ => rfl) (by simp)
  · refine h.sent ?_ [.accept caller message] hfit (by simp [isPlain]) hsend
    intro hdown
    rw [hk] at hdown
    exact absurd hdown (by simp)
  · exact h.plain h.sound (Or.inl rfl) rfl (fun _ _ => rfl) (by simp [isPlain])

theorem Wired.step_shutdown (h : s.Wired) {caller : Thread}
    (hrun : s.conn.shutdown caller = .ok (c, actions) fs) : (s.after c actions fs).Wired := by
  obtain ⟨rfl, ⟨_, rfl, rfl⟩ | ⟨hk, rfl, rfl⟩⟩ := shutdown_spec hrun
  · exact h.plain h.sound (Or.inl rfl) rfl (fun _ _ => rfl) (by simp)
  · refine h.plain ⟨h.sound.input, h.sound.output⟩ (Or.inr ⟨Or.inl hk, Or.inr rfl⟩) rfl
      (fun _ _ => rfl) ?_
    intro a ha
    rcases List.mem_cons.mp ha with rfl | ha
    · rfl
    split at ha
    · exact shutdownInLoop_plain _ a ha
    · rw [List.mem_singleton.mp ha]
      rfl

theorem Wired.step_functor (h : s.Wired) {f : Functor} {loop : EventLoop Functor} {w : Write}
    (hphase : s.phase = .functors) (hfree : s.user = none)
    (hnext : s.loop.nextFunctor = some (f, loop)) (hfit : WriteFits w f)
    (hrun : f.run s.conn w = .ok (c, actions) fs) :
    (({ s with loop := loop } : Session).after c actions fs).Wired := by
  have hwaiting := EventLoop.nextFunctor_waiting hnext
  have hnot : ∀ rest, ({ s with loop := loop } : Session).phase ≠ .event rest := by
    intro rest hevent
    rw [show s.phase = .event rest from hevent] at hphase
    exact absurd hphase (by simp)
  cases f with
  | connectEstablished =>
      refine h.established ?_ ?_ rfl rfl (fun hno => absurd hphase hno) hnot hrun
      · simp only [opensPending, hwaiting, List.count_cons_self]
        omega
      · simp [destroysPending, hwaiting]
  | connectDestroyed =>
      refine h.destroyed ?_ ?_ rfl rfl (fun hno => absurd hphase hno) hnot hrun
      · simp only [destroysPending, hwaiting, List.count_cons_self]
        omega
      · simp [opensPending, hwaiting]
  | sendInLoop caller message =>
      have h₁ := h.next hphase hnext (by simp) (by simp)
      refine h₁.sent ?_ [] hfit (by simp) hrun
      intro _ huser
      rw [show s.user = _ from huser] at hfree
      exact absurd hfree (by simp)
  | shutdownInLoop =>
      have h₁ := h.next hphase hnext (by simp) (by simp)
      simp only [Functor.run, Outcome.pure_eq, Outcome.ok.injEq, Prod.mk.injEq] at hrun
      obtain ⟨⟨rfl, rfl⟩, rfl⟩ := hrun
      exact h₁.plain h.sound (Or.inl rfl) rfl (fun _ _ => rfl) (shutdownInLoop_plain _)
  | writeCompleteCallback =>
      have h₁ := h.next hphase hnext (by simp) (by simp)
      simp only [Functor.run, Outcome.pure_eq, Outcome.ok.injEq, Prod.mk.injEq] at hrun
      obtain ⟨⟨rfl, rfl⟩, rfl⟩ := hrun
      exact h₁.plain h.sound (Or.inl rfl) rfl (fun _ _ => rfl) (by simp [isPlain])
  | highWaterMarkCallback backlog =>
      have h₁ := h.next hphase hnext (by simp) (by simp)
      simp only [Functor.run, Outcome.pure_eq, Outcome.ok.injEq, Prod.mk.injEq] at hrun
      obtain ⟨⟨rfl, rfl⟩, rfl⟩ := hrun
      exact h₁.plain h.sound (Or.inl rfl) rfl (fun _ _ => rfl) (by simp [isPlain])

theorem Wired.step_callback (h : s.Wired) {cb : EventCallback} {rest : List EventCallback}
    {r : Buffer.Readv} {w : Write} (hphase : s.phase = .event (cb :: rest)) (hfree : s.user = none)
    (hrfit : r.Fits s.conn.inputBuffer_) (hwfit : w.Fits s.conn.outputBuffer_.readable.length)
    (hrun : s.conn.handleEvent cb r w = .ok (c, actions) fs) :
    (({ s with phase := .event rest } : Session).after c actions fs).Wired := by
  obtain ⟨hnodup, hread⟩ := h.event _ hphase
  have h₁ : ({ s with phase := .event rest } : Session).Wired := by
    refine h.move rfl ?_ ?_ rfl rfl ?_ ?_ (fun _ => rfl)
    · simp [opensPending, hphase]
    · simp [destroysPending]
    · intro _
      exact h.rest (by simp [hphase])
    · intro rest' hevent
      obtain rfl : rest = rest' := by simpa using hevent
      exact ⟨(List.nodup_cons.mp hnodup).2, fun hmem => hread (List.mem_cons_of_mem _ hmem)⟩
  cases cb with
  | errorCallback =>
      simp only [handleEvent, Outcome.pure_eq, Outcome.ok.injEq, Prod.mk.injEq] at hrun
      obtain ⟨⟨rfl, rfl⟩, rfl⟩ := hrun
      exact h₁.plain h.sound (Or.inl rfl) rfl (fun _ _ => rfl) (by simp)
  | readCallback =>
      refine h₁.read (hread (List.mem_cons_self ..)) ?_ hrfit hrun
      intro rest' hevent
      obtain rfl : rest = rest' := by simpa using hevent
      exact (List.nodup_cons.mp hnodup).1
  | writeCallback =>
      obtain ⟨rfl, hwrote⟩ := handleWrite_spec h.sound hwfit hrun
      refine h₁.plain (hwrote.sound h.sound) (Or.inl hwrote.state) hwrote.reading ?_
        (wrote_plain hwrote)
      intro _ huser
      rw [show s.user = _ from huser] at hfree
      exact absurd hfree (by simp)

/-- What `begin` allows keeps the invariant. -/
theorem Wired.begins (h : s.Wired) {e : Event} (hbegins : Begins s e s₁ c actions fs) :
    (s₁.after c actions fs).Wired := by
  -- a thread that only moves does nothing plain
  have hquiet : ∀ {c}, s₁.Wired → s₁.conn = s.conn → c.Sound → c.state_ = s.conn.state_ →
      c.channel_.reading = s.conn.channel_.reading → c.channel_.writing = s.conn.channel_.writing →
      (s₁.after c [] []).Wired := by
    intro c hw hconn hsound hstate hreading hwriting
    exact hw.plain hsound (Or.inl (hconn ▸ hstate)) (hconn ▸ hreading)
      (fun _ _ => hconn ▸ hwriting) (by simp)
  cases hbegins with
  | send _ hfit hrun => exact h.step_send hfit hrun
  | shutdown _ hrun => exact h.step_shutdown hrun
  | connectEstablished hphase hrun =>
      refine h.established ?_ ?_ rfl rfl ?_ (by simp) hrun
      · simp [opensPending, hphase]
        omega
      · simp [destroysPending]
      · intro _
        exact h.rest (by simp [hphase])
  | doPendingFunctors hphase hfree =>
      refine hquiet (h.move rfl ?_ ?_ rfl rfl (by simp) (by simp) (fun _ => rfl)) rfl h.sound rfl rfl rfl
      · simp [opensPending, hphase, EventLoop.waiting_swapFunctors (h.rest (by simp [hphase]))]
      · simp [destroysPending, EventLoop.waiting_swapFunctors (h.rest (by simp [hphase]))]
  | runFunctor hphase hfree hnext hfit hrun => exact h.step_functor hphase hfree hnext hfit hrun
  | endFunctors hphase hfree hdone =>
      refine hquiet (h.move rfl ?_ ?_ rfl rfl (fun _ => rfl) (by simp) (fun _ => rfl)) rfl h.sound rfl rfl rfl
      · simp [opensPending, hphase, EventLoop.waiting_endFunctors hdone]
      · simp [destroysPending, EventLoop.waiting_endFunctors hdone]
  | handleEvent hphase hfree hdelivers =>
      refine hquiet (h.move rfl ?_ ?_ rfl rfl ?_ ?_ (fun _ => rfl)) rfl
        ⟨h.sound.input, h.sound.output⟩ rfl rfl rfl
      · simp [opensPending, hphase]
      · simp [destroysPending]
      · intro _
        exact h.rest (by simp [hphase])
      · intro rest hevent
        obtain rfl : Channel.handleEventWithGuard _ = rest := by simpa using hevent
        exact ⟨Channel.handleEventWithGuard_nodup _, fun hmem =>
          hdelivers.2.1 (Channel.mem_handleEventWithGuard.mp hmem)⟩
  | runCallback hphase hfree hrfit hwfit hrun => exact h.step_callback hphase hfree hrfit hwfit hrun
  | endEvent hphase hfree =>
      refine hquiet (h.move rfl ?_ ?_ rfl rfl ?_ (by simp) (fun _ => rfl)) rfl
        ⟨h.sound.input, h.sound.output⟩ rfl rfl rfl
      · simp [opensPending, hphase]
      · simp [destroysPending]
      · intro _
        exact h.rest (by simp [hphase])
  | enterUser hphase hfree =>
      exact hquiet (h.move rfl rfl rfl rfl rfl h.rest h.event (by simp)) rfl h.sound rfl rfl rfl
  | useInput _ hallowed hrun =>
      rcases Buffer.exec_spec h.sound.input hallowed with ⟨b, hexec, hvalid, _⟩ | ⟨what, hexec⟩
      · rw [hexec] at hrun
        obtain ⟨⟨rfl, rfl⟩, rfl⟩ : (_ ∧ _) ∧ _ := by simpa using hrun
        exact hquiet h rfl ⟨hvalid, h.sound.output⟩ rfl rfl rfl
      · rw [hexec] at hrun
        exact absurd hrun (by simp)
  | swapInput _ hvalid => exact hquiet h rfl ⟨hvalid, h.sound.output⟩ rfl rfl rfl
  | setWriteCompleteCallback _ => exact hquiet h rfl ⟨h.sound.input, h.sound.output⟩ rfl rfl rfl
  | setHighWaterMarkCallback _ => exact hquiet h rfl ⟨h.sound.input, h.sound.output⟩ rfl rfl rfl
  | leaveDown hinside hrun =>
      obtain ⟨rfl, rfl, rfl⟩ := removeChannel_spec (h.down hinside).2 hrun
      exact hquiet (h.move rfl rfl rfl rfl rfl h.rest h.event (by simp)) rfl
        ⟨h.sound.input, h.sound.output⟩ rfl rfl rfl
  | leaveUser _ _ =>
      exact hquiet (h.move rfl rfl rfl rfl rfl h.rest h.event (by simp)) rfl h.sound rfl rfl rfl
  | removeConnectionInLoop hwaits =>
      refine hquiet (h.move rfl ?_ ?_ rfl rfl h.rest h.event (fun _ => rfl)) rfl h.sound rfl rfl rfl
      · simp [opensPending]
      · simp only [destroysPending, EventLoop.waiting_queueInLoop, List.count_append,
          List.count_singleton_self]
        omega

/-- **The step lemma.** -/
theorem Wired.step (h : s.Wired) {e : Event} (hstep : s.step e = some s') : s'.Wired := by
  obtain ⟨s₁, c, actions, fs, hbegins, rfl⟩ := step_inv hstep
  exact h.begins hbegins

/-- **Every reachable session is wired.** -/
theorem reachable_wired (h : connectionMachine.Reachable s) : s.Wired := by
  refine h.invariant ?_ ?_
  · rintro s ⟨owner, sockfd, writeComplete, rfl⟩
    exact new_wired owner sockfd writeComplete
  · intro s e s' _ hw _ hstep
    exact hw.step hstep

/-- **The callback protocol.** In every run of a connection, whoever owns it: `connectionCallback_` is
    called at most twice, first with `connected()` true, then with it false; every call of
    `messageCallback_` lies between the two and brings at least one new byte; `closeCallback_` is called
    at most once; and no assert fails. -/
theorem callback_protocol (h : connectionMachine.Reachable s) :
    (protocolCalls s.trace = [] ∨ ∃ messages, (∀ cb ∈ messages, BringsBytes cb) ∧
      (protocolCalls s.trace = .connection true :: messages ∨
        protocolCalls s.trace = .connection true :: messages ++ [.connection false])) ∧
    s.trace.count .closeCallback ≤ 1 ∧
    s.failed = [] := by
  have hw := reachable_wired h
  obtain ⟨stage, messages, hat⟩ := hw.stage
  refine ⟨?_, ?_, hw.failed⟩
  · have hcalls := hat.calls
    cases stage with
    | opening => exact Or.inl hcalls
    | up => exact Or.inr ⟨messages, hat.bring, Or.inl hcalls⟩
    | closing => exact Or.inr ⟨messages, hat.bring, Or.inl hcalls⟩
    | down => exact Or.inr ⟨messages, hat.bring, Or.inr hcalls⟩
  · rw [hat.closes]
    cases stage <;> simp [Stage.closes]

/-- A client's connection that gets a message and is then closed by the peer, in an event that also
    says it is writable. -/
def messageThenClose : List Event :=
  [.connectEstablished, .leaveUser, .handleEvent ⟨false, true, false⟩,
   .runCallback (.data [1, 2]) (.wrote 0), .useInput (.retrieve 1), .leaveUser, .endEvent,
   .send (.other 1) ⟨[5, 6], by decide⟩ (.wrote 0), .doPendingFunctors, .runFunctor (.wrote 1),
   .endFunctors, .handleEvent ⟨false, true, true⟩, .runCallback (.data []) (.wrote 0),
   .runCallback (.error 0) (.wrote 0), .endEvent, .doPendingFunctors, .runFunctor (.wrote 0),
   .leaveUser, .endFunctors]

theorem callback_protocol_messageThenClose :
    ∃ s, connectionMachine.run (Session.new .tcpClient 9 false) messageThenClose = some s ∧
      protocolCalls s.trace =
        [.connection true, .message [1, 2] [1, 2], .connection false] ∧
      s.trace.count .closeCallback ≤ 1 ∧ s.failed = [] := by
  have hrun : ((connectionMachine.run (Session.new .tcpClient 9 false) messageThenClose).map
      fun s => protocolCalls s.trace) =
      some [.connection true, .message [1, 2] [1, 2], .connection false] := by
    decide +kernel
  obtain ⟨s, hs, hcalls⟩ := Option.map_eq_some_iff.mp hrun
  exact ⟨s, hs, hcalls, (callback_protocol (reachable_of_run hs)).2⟩

end Session

end Simplev
