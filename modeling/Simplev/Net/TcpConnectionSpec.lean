import Simplev.Net.TcpConnection

/-!
# `Net.TcpConnectionSpec` — what each member function of a connection can do

One inversion per member function, on a connection with valid buffers (`Sound`): which bytes moved
where, which functors were queued, what else changed. Nothing later unfolds the functions.

- **`Sent`** for `sendInLoop`: the message is dropped, written, or buffered from some point on
  (`Disposes`).
- **`Wrote`** for `handleWrite`: closed, kept, partly written or drained.
- **`Read`** for `handleRead`: an error, the end of the stream, or bytes.
-/

namespace Simplev

open Foundation

namespace TcpConnection

/-- The buffers keep the class invariant. -/
structure Sound (c : TcpConnection) : Prop where
  input : c.inputBuffer_.Valid
  output : c.outputBuffer_.Valid

theorem new_sound (sockfd : Nat) (writeComplete : Bool) : (new sockfd writeComplete).Sound :=
  ⟨Buffer.new_valid, Buffer.new_valid⟩

variable {c c' : TcpConnection} {actions : List Action} {fs : List String}

/-! ## Opening and closing -/

/-- The text of the assert in `handleClose` and `connectDestroyed`. -/
def isUp (c : TcpConnection) : Prop := c.state_ = .kConnected ∨ c.state_ = .kDisconnecting

instance (c : TcpConnection) : Decidable c.isUp := inferInstanceAs (Decidable (_ ∨ _))

theorem isUp_ne {c : TcpConnection} (hup : c.isUp) :
    c.state_ ≠ .kConnecting ∧ c.state_ ≠ .kDisconnected := by
  unfold isUp at hup
  rcases hup with hup | hup <;> rw [hup] <;> exact ⟨by simp, by simp⟩

theorem connectEstablished_spec (hstate : c.state_ = .kConnecting)
    (h : c.connectEstablished = .ok (c', actions) fs) :
    c' = { c with state_ := .kConnected, channel_ := c.channel_.enableReading } ∧
      actions = [.callback (.connection true)] ∧ fs = [] := by
  simp only [connectEstablished, Outcome.assert_true hstate, Outcome.ok_nil_bind, Outcome.pure_eq,
    Outcome.ok.injEq, Prod.mk.injEq] at h
  obtain ⟨⟨rfl, rfl⟩, rfl⟩ := h
  exact ⟨rfl, rfl, rfl⟩

theorem handleClose_spec (hup : c.isUp) (h : c.handleClose = .ok (c', actions) fs) :
    c' = { c with channel_ := c.channel_.disableAll } ∧ actions = [.closeCallback] ∧ fs = [] := by
  have hstate : c.state_ = .kConnected ∨ c.state_ = .kDisconnecting := hup
  simp only [handleClose, Outcome.assert_true hstate, Outcome.ok_nil_bind, Outcome.pure_eq,
    Outcome.ok.injEq, Prod.mk.injEq] at h
  obtain ⟨⟨rfl, rfl⟩, rfl⟩ := h
  exact ⟨rfl, rfl, rfl⟩

theorem connectDestroyed_spec (hup : c.isUp) (h : c.connectDestroyed = .ok (c', actions) fs) :
    c' = { c with state_ := .kDisconnected, channel_ := c.channel_.disableAll } ∧
      actions = [.callback (.connection false)] ∧ fs = [] := by
  have hstate : c.state_ = .kConnected ∨ c.state_ = .kDisconnecting := hup
  simp only [connectDestroyed, Outcome.assert_true hstate, Outcome.ok_nil_bind, Outcome.pure_eq,
    Outcome.ok.injEq, Prod.mk.injEq] at h
  obtain ⟨⟨rfl, rfl⟩, rfl⟩ := h
  exact ⟨rfl, rfl, rfl⟩

theorem removeChannel_spec (hnone : c.channel_.isNoneEvent = true)
    (h : c.removeChannel = .ok (c', actions) fs) :
    c' = { c with channel_ := c.channel_.stop } ∧ actions = [] ∧ fs = [] := by
  simp only [removeChannel, Channel.remove, Outcome.assert_true hnone, Outcome.ok_nil_bind,
    Outcome.pure_eq, Outcome.ok.injEq, Prod.mk.injEq] at h
  obtain ⟨⟨rfl, rfl⟩, rfl⟩ := h
  exact ⟨rfl, rfl, rfl⟩

theorem shutdown_spec {caller : Thread} (h : c.shutdown caller = .ok (c', actions) fs) :
    fs = [] ∧ ((c.state_ ≠ .kConnected ∧ c' = c ∧ actions = []) ∨
      (c.state_ = .kConnected ∧ c' = { c with state_ := .kDisconnecting } ∧
        actions = .disconnect ::
          (if caller = .loop then c.shutdownInLoop else [.queueInLoop .shutdownInLoop]))) := by
  unfold shutdown at h
  split at h
  · rename_i hstate
    cases caller with
    | loop =>
        simp only [Outcome.pure_eq, Outcome.ok.injEq, Prod.mk.injEq] at h
        obtain ⟨⟨rfl, rfl⟩, rfl⟩ := h
        exact ⟨rfl, Or.inr ⟨hstate, rfl, rfl⟩⟩
    | other id =>
        simp only [Outcome.pure_eq, Outcome.ok.injEq, Prod.mk.injEq] at h
        obtain ⟨⟨rfl, rfl⟩, rfl⟩ := h
        exact ⟨rfl, Or.inr ⟨hstate, rfl, rfl⟩⟩
  · rename_i hstate
    simp only [Outcome.pure_eq, Outcome.ok.injEq, Prod.mk.injEq] at h
    obtain ⟨⟨rfl, rfl⟩, rfl⟩ := h
    exact ⟨rfl, Or.inl ⟨hstate, rfl, rfl⟩⟩

/-! ## Sending -/

/-- `sendInLoop` may write directly: nothing is being written, and nothing is buffered. -/
def Idle (c : TcpConnection) : Prop :=
  c.channel_.isWriting = false ∧ c.outputBuffer_.readable = []

instance (c : TcpConnection) : Decidable c.Idle := inferInstanceAs (Decidable (_ ∧ _))

/-- How `sendInLoop` disposes of a message: the result of its own write, if it makes one, and the bytes
    it buffers. -/
inductive Disposes (c : TcpConnection) (message : Message) (w : Write) :
    Option Write → List Byte → Prop
  | buffered (hbusy : ¬ c.Idle) : Disposes c message w none message.bytes
  | wrote (hidle : c.Idle) {n : Nat} (hw : w = .wrote n) (hn : n ≤ message.bytes.length) :
      Disposes c message w (some w) (message.bytes.drop n)
  | refused (hidle : c.Idle) {errno afterLog : Errno} (hw : w = .failed errno afterLog)
      (hfault : w.isFault = false) : Disposes c message w (some w) message.bytes
  | dropped (hidle : c.Idle) (hfault : w.isFault = true) : Disposes c message w (some w) []

/-- The write-complete functor of a direct write that took the whole message. -/
def completed (c : TcpConnection) (direct : Option Write) (rest : List Byte) : List Action :=
  match direct with
  | some (.wrote _) => if rest = [] then c.notifyWriteComplete else []
  | _ => []

/-- The high-water functor of buffering `rest`. -/
def crossed (c : TcpConnection) (rest : List Byte) : List Action :=
  if rest = [] then [] else c.notifyHighWaterMark rest.length

theorem mem_notifyWriteComplete {a : Action} (ha : a ∈ c.notifyWriteComplete) :
    a = .queueInLoop .writeCompleteCallback := by
  unfold notifyWriteComplete at ha
  split at ha
  · exact List.mem_singleton.mp ha
  · simp at ha

theorem mem_shutdownInLoop {a : Action} (ha : a ∈ c.shutdownInLoop) : a = .shutdownWrite := by
  unfold shutdownInLoop at ha
  split at ha
  · exact List.mem_singleton.mp ha
  · simp at ha

theorem mem_completed {a : Action} {direct : Option Write} {rest : List Byte}
    (ha : a ∈ c.completed direct rest) : a = .queueInLoop .writeCompleteCallback := by
  unfold completed at ha
  split at ha
  · split at ha
    · exact mem_notifyWriteComplete ha
    · simp at ha
  · simp at ha

theorem mem_crossed {a : Action} {rest : List Byte} (ha : a ∈ c.crossed rest) :
    ∃ backlog, a = .queueInLoop (.highWaterMarkCallback backlog) := by
  unfold crossed at ha
  split at ha
  · simp at ha
  · simp only [notifyHighWaterMark] at ha
    split at ha
    · exact ⟨_, List.mem_singleton.mp ha⟩
    · simp at ha

/-- What `sendInLoop` did: it buffered `rest` and turned writing on, or buffered nothing. -/
structure Sent (c : TcpConnection) (caller : Thread) (message : Message) (w : Write)
    (c' : TcpConnection) (actions : List Action) (direct : Option Write) (rest : List Byte) :
    Prop where
  disposes : Disposes c message w direct rest
  valid : c'.outputBuffer_.Valid
  readable : c'.outputBuffer_.readable = c.outputBuffer_.readable ++ rest
  conn : c' = { c with
    outputBuffer_ := c'.outputBuffer_
    channel_ := if rest = [] then c.channel_ else c.channel_.enableWriting }
  unchanged : rest = [] → c' = c
  actions : actions = .take caller message direct ::
    (direct.toList.map (.write message.bytes ·) ++ c.completed direct rest ++ c.crossed rest)

namespace Sent

variable {caller : Thread} {message : Message} {w : Write} {direct : Option Write} {rest : List Byte}

theorem state (h : Sent c caller message w c' actions direct rest) : c'.state_ = c.state_ := by
  rw [h.conn]

theorem reading (h : Sent c caller message w c' actions direct rest) :
    c'.channel_.reading = c.channel_.reading := by
  rw [h.conn]
  show (if rest = [] then c.channel_ else c.channel_.enableWriting).reading = _
  split <;> rfl

theorem active (h : Sent c caller message w c' actions direct rest) :
    c'.channel_.active = c.channel_.active := by
  rw [h.conn]
  show (if rest = [] then c.channel_ else c.channel_.enableWriting).active = _
  split <;> rfl

theorem eventHandling (h : Sent c caller message w c' actions direct rest) :
    c'.channel_.eventHandling_ = c.channel_.eventHandling_ := by
  rw [h.conn]
  show (if rest = [] then c.channel_ else c.channel_.enableWriting).eventHandling_ = _
  split <;> rfl

theorem writing (h : Sent c caller message w c' actions direct rest) :
    c'.channel_.writing = (c.channel_.writing || rest != []) := by
  rw [h.conn]
  show (if rest = [] then c.channel_ else c.channel_.enableWriting).writing = _
  split
  · rename_i hnil
    simp [hnil]
  · rename_i hsome
    simp [Channel.enableWriting, hsome]

/-- The functors a send queues are user callbacks. -/
theorem mem_actions (h : Sent c caller message w c' actions direct rest) {a : Action}
    (ha : a ∈ actions) :
    a = .take caller message direct ∨ (∃ w', direct = some w' ∧ a = .write message.bytes w') ∨
      a = .queueInLoop .writeCompleteCallback ∨
      ∃ backlog, a = .queueInLoop (.highWaterMarkCallback backlog) := by
  rw [h.actions] at ha
  rcases List.mem_cons.mp ha with rfl | ha
  · exact Or.inl rfl
  rcases List.mem_append.mp ha with ha | ha
  · rcases List.mem_append.mp ha with ha | ha
    · obtain ⟨w', hw', rfl⟩ := List.mem_map.mp ha
      exact Or.inr (Or.inl ⟨w', by simpa using hw', rfl⟩)
    · exact Or.inr (Or.inr (Or.inl (mem_completed ha)))
  · exact Or.inr (Or.inr (Or.inr (mem_crossed ha)))

theorem sound (h : Sent c caller message w c' actions direct rest) (hc : c.Sound) : c'.Sound := by
  refine ⟨?_, h.valid⟩
  rw [h.conn]
  exact hc.input

end Sent

/-- The first part of `sendInLoop`, read off `Disposes`. -/
theorem writeDirectly_spec (hc : c.Sound) {message : Message} {w : Write}
    (hw : w.Fits message.bytes.length) :
    ∃ direct rest, Disposes c message w direct rest ∧
      (c.writeDirectly message w).write = direct ∧
      0 ≤ (c.writeDirectly message w).numWrite ∧
      (c.writeDirectly message w).actions =
        direct.toList.map (.write message.bytes ·) ++ c.completed direct rest ∧
      ((!(c.writeDirectly message w).faultError) = true ∧ 0 < (c.writeDirectly message w).remaining ↔
        rest ≠ []) ∧
      (rest ≠ [] → (c.writeDirectly message w).remaining = rest.length ∧
        (message.bytes.drop (c.writeDirectly message w).numWrite.toNat).take
          (c.writeDirectly message w).remaining = rest) := by
  have hidle_iff : ((!c.channel_.isWriting) = true ∧ c.outputBuffer_.readableBytes = 0) ↔ c.Idle := by
    rw [hc.output.readableBytes_eq_zero, Idle, Bool.not_eq_true']
  by_cases hidle : c.Idle
  · -- nothing is waiting: the message is written at once
    cases w with
    | wrote n =>
        have hn : n ≤ message.bytes.length := hw
        have hsub : sizeSub message.bytes.length n = message.bytes.length - n := by
          refine sizeSub_of_le hn ?_
          have := message.fits
          have := Buffer.maxSize_lt
          omega
        -- the remaining count is zero exactly when all was written
        have hzero : message.bytes.length - n = 0 ↔ message.bytes.drop n = [] := by
          rw [← List.length_drop, List.length_eq_zero_iff]
        have hdirect : c.writeDirectly message (.wrote n) =
            { numWrite := n, remaining := message.bytes.length - n, faultError := false
              write := some (.wrote n)
              actions := .write message.bytes (.wrote n) ::
                if message.bytes.length - n = 0 then c.notifyWriteComplete else [] } := by
          simp only [writeDirectly, if_pos (hidle_iff.mpr hidle), hsub]
        refine ⟨some (.wrote n), message.bytes.drop n, .wrote hidle rfl hn, ?_⟩
        rw [hdirect]
        refine ⟨rfl, Int.natCast_nonneg n, ?_, ?_, ?_⟩
        · simp only [completed, hzero, Option.toList_some, List.map_cons, List.map_nil,
            List.cons_append, List.nil_append]
        · simp only [Bool.not_false, true_and, Nat.pos_iff_ne_zero, ne_eq, hzero]
        · intro _
          refine ⟨List.length_drop.symm, ?_⟩
          simp only [Int.toNat_natCast]
          rw [← List.length_drop, List.take_length]
    | failed errno afterLog =>
        have hdirect : c.writeDirectly message (.failed errno afterLog) =
            { numWrite := 0, remaining := message.bytes.length
              faultError := (Write.failed errno afterLog).isFault
              write := some (.failed errno afterLog)
              actions := [.write message.bytes (.failed errno afterLog)] } := by
          simp only [writeDirectly, if_pos (hidle_iff.mpr hidle)]
        -- a fault drops the message, anything else leaves it whole for the buffer
        cases hfault : (Write.failed errno afterLog).isFault with
        | true =>
            refine ⟨some (.failed errno afterLog), [], .dropped hidle hfault, ?_⟩
            rw [hdirect]
            refine ⟨rfl, Int.le_refl _, rfl, ?_, fun h => absurd rfl h⟩
            simp [hfault]
        | false =>
            refine ⟨some (.failed errno afterLog), message.bytes, .refused hidle rfl hfault, ?_⟩
            rw [hdirect]
            refine ⟨rfl, Int.le_refl _, rfl, ?_, fun _ => ⟨rfl, ?_⟩⟩
            · simp [hfault, List.length_pos_iff]
            · rw [Int.toNat_zero, List.drop_zero, List.take_length]
  · -- something is waiting, or the channel writes already: the message goes behind it
    have hdirect : c.writeDirectly message w =
        { numWrite := 0, remaining := message.bytes.length, faultError := false
          write := none, actions := [] } := by
      simp only [writeDirectly, if_neg (fun h => hidle (hidle_iff.mp h))]
    refine ⟨none, message.bytes, .buffered hidle, ?_⟩
    rw [hdirect]
    refine ⟨rfl, Int.le_refl _, rfl, ?_, fun _ => ⟨rfl, ?_⟩⟩
    · simp [List.length_pos_iff]
    · rw [Int.toNat_zero, List.drop_zero, List.take_length]

theorem Disposes.length_le {message : Message} {w : Write} {direct : Option Write}
    {rest : List Byte} (h : Disposes c message w direct rest) : rest.length ≤ maxSize := by
  have hfits := message.fits
  cases h with
  | buffered _ => exact hfits
  | wrote _ _ _ =>
      rw [List.length_drop]
      omega
  | refused _ _ _ => exact hfits
  | dropped _ _ => exact Nat.zero_le _

/-- **`sendInLoop`**: unless it throws, it disposes of the whole message and passes its assert. -/
theorem sendInLoop_spec (hc : c.Sound) {caller : Thread} {message : Message} {w : Write}
    (hw : w.Fits message.bytes.length) (h : c.sendInLoop caller message w = .ok (c', actions) fs) :
    fs = [] ∧ ∃ direct rest, Sent c caller message w c' actions direct rest := by
  obtain ⟨direct, rest, hdisp, hwrite, hnum, hacts, hmore, hdata⟩ := writeDirectly_spec hc hw
  simp only [sendInLoop, Outcome.assert_true hnum, Outcome.ok_nil_bind, hwrite, hacts] at h
  by_cases hrest : rest = []
  · have hnot := fun hc => (hmore.mp hc) hrest
    rw [if_neg hnot] at h
    simp only [Outcome.pure_eq, Outcome.ok.injEq, Prod.mk.injEq] at h
    obtain ⟨⟨rfl, rfl⟩, rfl⟩ := h
    refine ⟨rfl, direct, rest, hdisp, hc.output, ?_, ?_, fun _ => rfl, ?_⟩
    · rw [hrest, List.append_nil]
    · rw [if_pos hrest]
    · rw [crossed, if_pos hrest, List.append_nil]
  · obtain ⟨hrem, hbytes⟩ := hdata hrest
    rw [if_pos (hmore.mpr hrest), hbytes, hrem] at h
    rcases Buffer.append_spec hc.output (hc.output.sizesFit hdisp.length_le) with
      ⟨b, happ, hvalid, hread⟩ | happ
    · have hchannel : (if (!c.channel_.isWriting) = true then c.channel_.enableWriting
          else c.channel_) = c.channel_.enableWriting := by
        cases hwriting : c.channel_.isWriting with
        | false => rfl
        | true => exact (Channel.enableWriting_of_isWriting hwriting).symm
      simp only [happ, Outcome.ok_nil_bind, Outcome.pure_eq, hchannel, Outcome.ok.injEq,
        Prod.mk.injEq] at h
      obtain ⟨⟨rfl, rfl⟩, rfl⟩ := h
      refine ⟨rfl, direct, rest, hdisp, hvalid, hread, ?_, fun hnil => absurd hnil hrest, ?_⟩
      · rw [if_neg hrest]
      · rw [crossed, if_neg hrest]
        rfl
    · simp only [happ, Outcome.thrown_bind] at h
      exact absurd h (by simp)

/-- `send` is refused, runs `sendInLoop` on the loop's own thread, or queues it from another one. -/
theorem send_spec {caller : Thread} {message : Message} {w : Write}
    (h : c.send caller message w = .ok (c', actions) fs) :
    (c.state_ ≠ .kConnected ∧ c' = c ∧ actions = [] ∧ fs = []) ∨
    (c.state_ = .kConnected ∧ caller = .loop ∧
      ∃ sent, c.sendInLoop caller message w = .ok (c', sent) fs ∧
        actions = .accept caller message :: sent) ∨
    (c.state_ = .kConnected ∧ caller ≠ .loop ∧ c' = c ∧ fs = [] ∧
      actions = [.accept caller message, .queueInLoop (.sendInLoop caller message)]) := by
  unfold send at h
  split at h
  · rename_i hstate
    cases caller with
    | loop =>
        obtain ⟨⟨c₁, sent⟩, fs₁, fs₂, hsend, hret, rfl⟩ := Outcome.bind_eq_ok h
        simp only [Outcome.pure_eq, Outcome.ok.injEq, Prod.mk.injEq] at hret
        obtain ⟨⟨rfl, rfl⟩, rfl⟩ := hret
        exact Or.inr (Or.inl ⟨hstate, rfl, sent, by rw [hsend, List.append_nil], rfl⟩)
    | other id =>
        simp only [Outcome.pure_eq, Outcome.ok.injEq, Prod.mk.injEq] at h
        obtain ⟨⟨rfl, rfl⟩, rfl⟩ := h
        exact Or.inr (Or.inr ⟨hstate, by simp, rfl, rfl, rfl⟩)
  · rename_i hstate
    simp only [Outcome.pure_eq, Outcome.ok.injEq, Prod.mk.injEq] at h
    obtain ⟨⟨rfl, rfl⟩, rfl⟩ := h
    exact Or.inl ⟨hstate, rfl, rfl, rfl⟩

/-! ## Events -/

/-- What `handleWrite` did. -/
inductive Wrote (c : TcpConnection) (w : Write) : TcpConnection → List Action → Prop
  /-- The channel is not writing: the connection was closed in the same event. -/
  | closed (hwriting : c.channel_.isWriting = false) : Wrote c w c []
  /-- The socket took nothing. -/
  | kept (hwriting : c.channel_.isWriting = true) (hnone : w.accepted c.outputBuffer_.readable = []) :
      Wrote c w c [.write c.outputBuffer_.readable w]
  /-- The socket took some of the backlog. -/
  | partly (hwriting : c.channel_.isWriting = true) {n : Nat} {b : Buffer} (hw : w = .wrote n)
      (hn : n < c.outputBuffer_.readable.length) (hvalid : b.Valid)
      (hread : b.readable = c.outputBuffer_.readable.drop n) :
      Wrote c w { c with outputBuffer_ := b } [.write c.outputBuffer_.readable w]
  /-- The socket took the whole backlog. -/
  | drained (hwriting : c.channel_.isWriting = true) {b : Buffer}
      (hw : w = .wrote c.outputBuffer_.readable.length) (hvalid : b.Valid) (hread : b.readable = []) :
      Wrote c w { c with outputBuffer_ := b, channel_ := c.channel_.disableWriting }
        (.write c.outputBuffer_.readable w ::
          (c.notifyWriteComplete ++ if c.state_ = .kDisconnecting then [.shutdownWrite] else []))

namespace Wrote

variable {w : Write}

theorem state (h : Wrote c w c' actions) : c'.state_ = c.state_ := by
  cases h <;> rfl

theorem reading (h : Wrote c w c' actions) : c'.channel_.reading = c.channel_.reading := by
  cases h <;> rfl

theorem active (h : Wrote c w c' actions) : c'.channel_.active = c.channel_.active := by
  cases h <;> rfl

theorem eventHandling (h : Wrote c w c' actions) :
    c'.channel_.eventHandling_ = c.channel_.eventHandling_ := by
  cases h <;> rfl

/-- A write queues user callbacks, and a half-close comes from a drain only. -/
theorem mem_actions (h : Wrote c w c' actions) {a : Action} (ha : a ∈ actions) :
    a = .write c.outputBuffer_.readable w ∨ a = .queueInLoop .writeCompleteCallback ∨
      a = .shutdownWrite := by
  cases h with
  | closed _ => simp at ha
  | kept _ _ => exact Or.inl (List.mem_singleton.mp ha)
  | partly _ _ _ _ _ => exact Or.inl (List.mem_singleton.mp ha)
  | drained _ _ _ _ =>
      rcases List.mem_cons.mp ha with rfl | ha
      · exact Or.inl rfl
      rcases List.mem_append.mp ha with ha | ha
      · exact Or.inr (Or.inl (mem_notifyWriteComplete ha))
      · split at ha
        · exact Or.inr (Or.inr (List.mem_singleton.mp ha))
        · simp at ha

theorem sound (h : Wrote c w c' actions) (hc : c.Sound) : c'.Sound := by
  cases h with
  | closed _ => exact hc
  | kept _ _ => exact hc
  | partly _ _ _ hvalid _ => exact ⟨hc.input, hvalid⟩
  | drained _ _ hvalid _ => exact ⟨hc.input, hvalid⟩

end Wrote

/-- **`handleWrite`** does one of the four, and passes its assert. -/
theorem handleWrite_spec (hc : c.Sound) {w : Write} (hw : w.Fits c.outputBuffer_.readable.length)
    (h : c.handleWrite w = .ok (c', actions) fs) : fs = [] ∧ Wrote c w c' actions := by
  unfold handleWrite at h
  by_cases hwriting : c.channel_.isWriting = true
  · rw [if_pos hwriting] at h
    cases w with
    | failed errno afterLog =>
        simp only [Outcome.pure_eq, Outcome.ok.injEq, Prod.mk.injEq] at h
        obtain ⟨⟨rfl, rfl⟩, rfl⟩ := h
        exact ⟨rfl, .kept hwriting rfl⟩
    | wrote m =>
        cases m with
        -- a write of nothing is taken for an error
        | zero =>
            simp only [Outcome.pure_eq, Outcome.ok.injEq, Prod.mk.injEq] at h
            obtain ⟨⟨rfl, rfl⟩, rfl⟩ := h
            exact ⟨rfl, .kept hwriting rfl⟩
        | succ n =>
            have hn : n + 1 ≤ c.outputBuffer_.readableBytes := hc.output.length_readable ▸ hw
            obtain ⟨b, hret, hvalid, hread⟩ := Buffer.retrieve_spec hc.output hn
            rw [← hc.output.length_readable] at hn
            simp only [hret, Outcome.ok_nil_bind] at h
            -- the buffer is drained, or some of it is left for the next event
            by_cases hempty : b.readableBytes = 0
            · have hall : b.readable = [] := hvalid.readableBytes_eq_zero.mp hempty
              have hlen : n + 1 = c.outputBuffer_.readable.length := by
                rw [hread, List.drop_eq_nil_iff] at hall
                omega
              rw [if_pos hempty] at h
              simp only [Outcome.pure_eq, Outcome.ok.injEq, Prod.mk.injEq] at h
              obtain ⟨⟨rfl, rfl⟩, rfl⟩ := h
              refine ⟨rfl, ?_⟩
              have hdrained := Wrote.drained (w := .wrote (n + 1)) hwriting (by rw [hlen]) hvalid hall
              exact hdrained
            · rw [if_neg hempty] at h
              simp only [Outcome.pure_eq, Outcome.ok.injEq, Prod.mk.injEq] at h
              obtain ⟨⟨rfl, rfl⟩, rfl⟩ := h
              have hlt : n + 1 < c.outputBuffer_.readable.length := by
                rw [hvalid.readableBytes_eq_zero, hread, List.drop_eq_nil_iff] at hempty
                omega
              exact ⟨rfl, .partly hwriting rfl hlt hvalid hread⟩
  · rw [if_neg hwriting] at h
    simp only [Outcome.pure_eq, Outcome.ok.injEq, Prod.mk.injEq] at h
    obtain ⟨⟨rfl, rfl⟩, rfl⟩ := h
    exact ⟨rfl, .closed (by simpa using hwriting)⟩

/-- What `handleRead` did. -/
inductive Read (c : TcpConnection) (r : Buffer.Readv) : TcpConnection → List Action → Prop
  | error {errno : Nat} (hr : r = .error errno) : Read c r c []
  /-- The peer has closed: `handleClose` ran. -/
  | closed {b : Buffer} (hr : r = .data []) (hvalid : b.Valid)
      (hread : b.readable = c.inputBuffer_.readable) :
      Read c r { c with inputBuffer_ := b, channel_ := c.channel_.disableAll } [.closeCallback]
  | arrived {bytes : List Byte} {b : Buffer} (hr : r = .data bytes) (hsome : bytes ≠ [])
      (hvalid : b.Valid) (hread : b.readable = c.inputBuffer_.readable ++ bytes) :
      Read c r { c with inputBuffer_ := b } [.callback (.message bytes b.readable)]

namespace Read

variable {r : Buffer.Readv}

theorem output (h : Read c r c' actions) : c'.outputBuffer_ = c.outputBuffer_ := by
  cases h <;> rfl

theorem state (h : Read c r c' actions) : c'.state_ = c.state_ := by
  cases h <;> rfl

theorem active (h : Read c r c' actions) : c'.channel_.active = c.channel_.active := by
  cases h <;> rfl

theorem eventHandling (h : Read c r c' actions) :
    c'.channel_.eventHandling_ = c.channel_.eventHandling_ := by
  cases h <;> rfl

theorem mem_actions (h : Read c r c' actions) {a : Action} (ha : a ∈ actions) :
    a = .closeCallback ∨ ∃ arrived readable, a = .callback (.message arrived readable) := by
  cases h with
  | error _ => simp at ha
  | closed _ _ _ => exact Or.inl (List.mem_singleton.mp ha)
  | arrived _ _ _ _ => exact Or.inr ⟨_, _, List.mem_singleton.mp ha⟩

end Read

/-- **`handleRead`** of a connection that is up does one of the three, and passes the asserts. -/
theorem handleRead_spec (hc : c.Sound) (hup : c.isUp) {r : Buffer.Readv}
    (hr : r.Fits c.inputBuffer_) (h : c.handleRead r = .ok (c', actions) fs) :
    fs = [] ∧ Read c r c' actions := by
  cases r with
  | error errno =>
      simp only [handleRead, Buffer.readFd, Outcome.ok_nil_bind, Outcome.pure_eq, Outcome.ok.injEq,
        Prod.mk.injEq] at h
      obtain ⟨⟨rfl, rfl⟩, rfl⟩ := h
      exact ⟨rfl, .error rfl⟩
  | data bytes =>
      rcases Buffer.readFd_data_spec hc.input hr with ⟨b, hret, hvalid, hread⟩ | ⟨what, hret⟩
      · simp only [handleRead, hret, Outcome.ok_nil_bind] at h
        cases bytes with
        | nil =>
            have hup' : ({ c with inputBuffer_ := b } : TcpConnection).isUp := hup
            obtain ⟨rfl, rfl, rfl⟩ := handleClose_spec hup' h
            exact ⟨rfl, .closed rfl hvalid (by rw [hread, List.append_nil])⟩
        | cons byte bytes =>
            simp only [List.length_cons, Outcome.pure_eq, Outcome.ok.injEq, Prod.mk.injEq] at h
            obtain ⟨⟨rfl, rfl⟩, rfl⟩ := h
            exact ⟨rfl, .arrived rfl (by simp) hvalid hread⟩
      · simp only [handleRead, hret, Outcome.thrown_bind] at h
        exact absurd h (by simp)

end TcpConnection

end Simplev
