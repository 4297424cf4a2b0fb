import Simplev.Net.SessionTurns

/-!
# `Net.Correctness.Stream` — the output byte stream of a connection

Bytes reach the socket by three ways: a direct write of `sendInLoop`, the drain of the buffer by
`handleWrite`, and both after a message has waited in the functor queue. `Stream` is the invariant that
holds over all of them: what the socket accepted and what is still buffered make up the messages taken
and kept, in the order in which they were taken; and each thread's messages wait in the order of its
calls (`reachable_stream`).

The stream is to hold every message but those whose own direct write failed with `EPIPE` or `ECONNRESET`
(`Whole`). `sendInLoop` decides by an `errno` that it reads only after the failure has been logged, so it
loses other messages, or keeps those, when the log changes `errno`. `output_stream_iff` proves that the
stream of a run is whole if and only if the log never does that to a message with bytes.
-/

namespace Simplev

open Foundation TcpConnection

namespace Session

/-! ## Reading the trace -/

/-- The bytes a write put on the socket. -/
def socketBytesOf : Action → List Byte
  | .write data result => result.accepted data
  | _ => []

/-- The bytes the socket accepted, in order. -/
def socketBytes (trace : List Action) : List Byte := trace.flatMap socketBytesOf

/-- The message `sendInLoop` ran on, unless it dropped it. -/
def keptOf : Action → Option Message
  | .take _ message direct => if direct.any Write.isFault then none else some message
  | _ => none

/-- The messages given to `sendInLoop` and kept, in the order in which it ran on them. -/
def kept (trace : List Action) : List Message := trace.filterMap keptOf

/-- The message `sendInLoop` ran on, unless its own direct write failed with `EPIPE` or
    `ECONNRESET`. -/
def dueOf : Action → Option Message
  | .take _ message direct => if direct.any Write.peerGone then none else some message
  | _ => none

/-- The messages the stream is to hold, in the order in which `sendInLoop` ran on them. -/
def due (trace : List Action) : List Message := trace.filterMap dueOf

def acceptedBy (t : Thread) (trace : List Action) : List Message :=
  trace.filterMap fun
    | .accept caller message => if caller = t then some message else none
    | _ => none

def takenBy (t : Thread) (trace : List Action) : List Message :=
  trace.filterMap fun
    | .take caller message _ => if caller = t then some message else none
    | _ => none

/-- The messages of `t` among functors that wait. -/
def waitingOf (t : Thread) (fs : List Functor) : List Message :=
  fs.filterMap fun
    | .sendInLoop caller message => if caller = t then some message else none
    | _ => none

/-- The bytes of messages, one after the other. -/
def bytesOf (messages : List Message) : List Byte := messages.flatMap Message.bytes

section append

variable (t : Thread) (xs ys : List Action)

@[simp] theorem socketBytes_append : socketBytes (xs ++ ys) = socketBytes xs ++ socketBytes ys :=
  List.flatMap_append

@[simp] theorem kept_append : kept (xs ++ ys) = kept xs ++ kept ys := List.filterMap_append

@[simp] theorem due_append : due (xs ++ ys) = due xs ++ due ys := List.filterMap_append

@[simp] theorem acceptedBy_append : acceptedBy t (xs ++ ys) = acceptedBy t xs ++ acceptedBy t ys :=
  List.filterMap_append

@[simp] theorem takenBy_append : takenBy t (xs ++ ys) = takenBy t xs ++ takenBy t ys :=
  List.filterMap_append

@[simp] theorem waitingOf_append (fs gs : List Functor) :
    waitingOf t (fs ++ gs) = waitingOf t fs ++ waitingOf t gs :=
  List.filterMap_append

@[simp] theorem bytesOf_append (ms ns : List Message) :
    bytesOf (ms ++ ns) = bytesOf ms ++ bytesOf ns :=
  List.flatMap_append

end append

/-! ## Actions that move no message -/

/-- Neither a write nor a step of a message towards one. -/
def isSilent : Action → Bool
  | .accept _ _ => false
  | .take _ _ _ => false
  | .write _ _ => false
  | .queueInLoop (.sendInLoop _ _) => false
  | _ => true

section silent

variable {actions : List Action}

theorem socketBytes_of_silent (h : ∀ a ∈ actions, isSilent a = true) : socketBytes actions = [] := by
  rw [socketBytes, List.flatMap_eq_nil_iff]
  intro a ha
  have hsilent := h a ha
  cases a with
  | write data result => simp [isSilent] at hsilent
  | _ => rfl

theorem kept_of_silent (h : ∀ a ∈ actions, isSilent a = true) : kept actions = [] := by
  rw [kept, List.filterMap_eq_nil_iff]
  intro a ha
  have hsilent := h a ha
  cases a with
  | take caller message direct => simp [isSilent] at hsilent
  | _ => rfl

theorem acceptedBy_of_silent (h : ∀ a ∈ actions, isSilent a = true) (t : Thread) :
    acceptedBy t actions = [] := by
  rw [acceptedBy, List.filterMap_eq_nil_iff]
  intro a ha
  have hsilent := h a ha
  cases a with
  | accept caller message => simp [isSilent] at hsilent
  | _ => rfl

theorem takenBy_of_silent (h : ∀ a ∈ actions, isSilent a = true) (t : Thread) :
    takenBy t actions = [] := by
  rw [takenBy, List.filterMap_eq_nil_iff]
  intro a ha
  have hsilent := h a ha
  cases a with
  | take caller message direct => simp [isSilent] at hsilent
  | _ => rfl

theorem waitingOf_of_silent (h : ∀ a ∈ actions, isSilent a = true) (t : Thread) (owner : Owner) :
    waitingOf t (actions.flatMap (queuedBy owner)) = [] := by
  rw [waitingOf, List.filterMap_eq_nil_iff]
  intro f hf
  obtain ⟨a, ha, hmem⟩ := List.mem_flatMap.mp hf
  have hsilent := h a ha
  cases a with
  | queueInLoop g =>
      obtain rfl := List.mem_singleton.mp hmem
      cases f with
      | sendInLoop caller message => simp [isSilent] at hsilent
      | _ => rfl
  | closeCallback =>
      simp only [queuedBy] at hmem
      split at hmem
      · rw [List.mem_singleton.mp hmem]
      · simp at hmem
  | _ => simp [queuedBy] at hmem

theorem shutdownInLoop_silent (c : TcpConnection) : ∀ a ∈ c.shutdownInLoop, isSilent a = true := by
  unfold shutdownInLoop
  split <;> simp [isSilent]

theorem notes_silent (c : TcpConnection) (direct : Option Write) (rest : List Byte) :
    ∀ a ∈ c.completed direct rest ++ c.crossed rest, isSilent a = true := by
  intro a ha
  rcases List.mem_append.mp ha with ha | ha
  · rw [mem_completed ha]
    rfl
  · obtain ⟨backlog, rfl⟩ := mem_crossed ha
    rfl

theorem read_silent {c c' : TcpConnection} {r : Buffer.Readv} (h : Read c r c' actions) :
    ∀ a ∈ actions, isSilent a = true := by
  intro a ha
  rcases h.mem_actions ha with rfl | ⟨_, _, rfl⟩ <;> rfl

end silent

/-! ## What `sendInLoop` and `handleWrite` move -/

variable {c c' : TcpConnection} {caller : Thread} {message : Message} {w : Write}
  {direct : Option Write} {rest : List Byte} {actions : List Action} {s s' : Session} {t : Turn}

/-- The bytes of a direct write and the bytes buffered are the message, unless it is dropped. -/
theorem disposes_bytes (h : Disposes c message w direct rest) :
    direct.elim [] (·.accepted message.bytes) ++ rest =
      if direct.any Write.isFault then [] else message.bytes := by
  cases h with
  | buffered _ => rfl
  | wrote _ hw _ =>
      subst hw
      exact List.take_append_drop _ _
  | refused _ hw hfault =>
      subst hw
      simp [Write.accepted, hfault]
  | dropped _ hfault =>
      cases w with
      | wrote n => simp [Write.isFault] at hfault
      | failed errno => simp [Write.accepted, hfault]

/-- A direct write is made on an empty buffer only. -/
theorem disposes_direct (h : Disposes c message w direct rest) :
    direct = none ∨ c.outputBuffer_.readable = [] := by
  cases h with
  | buffered _ => exact Or.inl rfl
  | wrote hidle _ _ => exact Or.inr hidle.2
  | refused hidle _ _ => exact Or.inr hidle.2
  | dropped hidle _ => exact Or.inr hidle.2

/-- What `sendInLoop` moves, read off its actions. -/
theorem sent_moves (h : Sent c caller message w c' actions direct rest) :
    socketBytes actions = direct.elim [] (·.accepted message.bytes) ∧
      kept actions = (if direct.any Write.isFault then [] else [message]) ∧
      (∀ t, acceptedBy t actions = []) ∧
      (∀ t, takenBy t actions = if caller = t then [message] else []) ∧
      (∀ t owner, waitingOf t (actions.flatMap (queuedBy owner)) = []) := by
  have hnotes := notes_silent c direct rest
  have hactions : actions = (.take caller message direct ::
      direct.toList.map (.write message.bytes ·)) ++ (c.completed direct rest ++ c.crossed rest) := by
    rw [h.actions, List.cons_append, List.append_assoc]
  rw [hactions]
  refine ⟨?_, ?_, ?_, ?_, ?_⟩
  · rw [socketBytes_append, socketBytes_of_silent hnotes]
    cases direct <;> simp [socketBytes, socketBytesOf]
  · rw [kept_append, kept_of_silent hnotes]
    cases direct with
    | none => simp [kept, keptOf]
    | some w => cases hfault : w.isFault <;> simp [kept, keptOf, hfault]
  · intro t
    rw [acceptedBy_append, acceptedBy_of_silent hnotes]
    cases direct <;> simp [acceptedBy]
  · intro t
    rw [takenBy_append, takenBy_of_silent hnotes]
    by_cases hcaller : caller = t <;> cases direct <;> simp [takenBy, hcaller]
  · intro t owner
    rw [List.flatMap_append, waitingOf_append, waitingOf_of_silent hnotes]
    cases direct <;> simp [queuedBy, waitingOf]

/-- `handleWrite` moves bytes from the front of the buffer to the socket. -/
theorem wrote_moves (h : Wrote c w c' actions) :
    socketBytes actions ++ c'.outputBuffer_.readable = c.outputBuffer_.readable ∧
      kept actions = [] ∧ (∀ t, acceptedBy t actions = []) ∧ (∀ t, takenBy t actions = []) ∧
      (∀ t owner, waitingOf t (actions.flatMap (queuedBy owner)) = []) := by
  cases h with
  | closed _ => exact ⟨rfl, rfl, fun _ => rfl, fun _ => rfl, fun _ _ => rfl⟩
  | kept _ hnone =>
      refine ⟨?_, rfl, fun _ => rfl, fun _ => rfl, fun _ _ => rfl⟩
      simp [socketBytes, socketBytesOf, hnone]
  | partly _ hw _ _ hread =>
      refine ⟨?_, rfl, fun _ => rfl, fun _ => rfl, fun _ _ => rfl⟩
      subst hw
      simp [socketBytes, socketBytesOf, Write.accepted, hread]
  | drained _ hw _ hread =>
      have hsilent : ∀ a ∈ c.notifyWriteComplete ++
          (if c.state_ = .kDisconnecting then [.shutdownWrite] else []), isSilent a = true := by
        intro a ha
        rcases List.mem_append.mp ha with ha | ha
        · rw [mem_notifyWriteComplete ha]
          rfl
        · split at ha
          · rw [List.mem_singleton.mp ha]
            rfl
          · simp at ha
      rw [← List.singleton_append]
      refine ⟨?_, ?_, ?_, ?_, ?_⟩
      · rw [socketBytes_append, socketBytes_of_silent hsilent, hread, hw]
        simp [socketBytes, socketBytesOf, Write.accepted]
      · rw [kept_append, kept_of_silent hsilent]
        rfl
      · intro t
        rw [acceptedBy_append, acceptedBy_of_silent hsilent]
        rfl
      · intro t
        rw [takenBy_append, takenBy_of_silent hsilent]
        rfl
      · intro t owner
        rw [List.flatMap_append, waitingOf_append, waitingOf_of_silent hsilent]
        rfl

/-! ## The invariant -/

/-- **The stream invariant.** -/
structure Stream (s : Session) : Prop where
  bytes : socketBytes s.trace ++ s.conn.outputBuffer_.readable = bytesOf (kept s.trace)
  fifo : ∀ t, acceptedBy t s.trace = takenBy t s.trace ++ waitingOf t s.loop.waiting
  /-- What the loop's own thread sends never waits. -/
  direct : waitingOf .loop s.loop.waiting = []

/-- A step that moves nothing keeps the stream. -/
theorem Stream.silent (h : s.Stream) (actions : List Action) (hsilent : ∀ a ∈ actions, isSilent a = true)
    (houtput : s'.conn.outputBuffer_ = s.conn.outputBuffer_)
    (hwaiting : ∀ t, waitingOf t s'.loop.waiting = waitingOf t s.loop.waiting)
    (htrace : s'.trace = s.trace ++ actions) : s'.Stream where
  bytes := by
    rw [htrace, houtput, socketBytes_append, socketBytes_of_silent hsilent, List.append_nil,
      kept_append, kept_of_silent hsilent, List.append_nil]
    exact h.bytes
  fifo t := by
    rw [htrace, hwaiting, acceptedBy_append, acceptedBy_of_silent hsilent, List.append_nil,
      takenBy_append, takenBy_of_silent hsilent, List.append_nil]
    exact h.fifo t
  direct := (hwaiting .loop).trans h.direct

/-- The bytes of the stream when `sendInLoop` ran, with `before` what `send` did first. -/
theorem Stream.sent_bytes (h : s.Stream) (before : List Action)
    (hsocket : socketBytes before = []) (hkept : kept before = [])
    (hsent : Sent s.conn caller message w c' actions direct rest) :
    socketBytes (s.trace ++ (before ++ actions)) ++ c'.outputBuffer_.readable =
      bytesOf (kept (s.trace ++ (before ++ actions))) := by
  obtain ⟨hbytes, hkeeps, _⟩ := sent_moves hsent
  have hmessage : direct.elim [] (·.accepted message.bytes) ++ rest =
      bytesOf (if direct.any Write.isFault then [] else [message]) := by
    rw [disposes_bytes hsent.disposes]
    split <;> simp [bytesOf]
  rw [socketBytes_append, socketBytes_append, kept_append, kept_append, hsocket, hkept, hbytes, hkeeps,
    List.nil_append, List.nil_append, bytesOf_append, ← hmessage, ← h.bytes, hsent.readable]
  -- the buffer is empty whenever the write was direct, so the new bytes come last
  rcases disposes_direct hsent.disposes with hnone | hempty
  · simp [hnone]
  · simp [hempty]

/-- **The step lemma.** -/
theorem Stream.step (h : s.Stream) (hmoves : Moves s s' t) : s'.Stream := by
  cases hmoves with
  | pass _ _ _ houtput hwaiting htrace =>
      exact h.silent [] (by simp) houtput (fun t => by rw [hwaiting]) (by simp [htrace])
  | @accept caller message _ hother hconn hwaiting htrace =>
      -- another thread's message: accepted, and waiting behind those of its thread
      have hnew : ∀ t, acceptedBy t s'.trace = takenBy t s'.trace ++ waitingOf t s'.loop.waiting := by
        intro t
        rw [htrace, hwaiting, acceptedBy_append, takenBy_append, waitingOf_append, h.fifo t]
        by_cases hcaller : caller = t <;> simp [acceptedBy, takenBy, waitingOf, hcaller]
      refine ⟨?_, hnew, ?_⟩
      · rw [htrace, hconn, socketBytes_append, kept_append]
        exact (congrArg (· ++ _) (List.append_nil _)).trans
          (h.bytes.trans (congrArg bytesOf (List.append_nil _).symm))
      · rw [hwaiting, waitingOf_append, h.direct]
        simp [waitingOf, hother]
  | @send message w actions direct rest _ hsent hwaiting htrace =>
      -- the loop's own: accepted and taken in one step, since none of its thread waits
      obtain ⟨_, _, haccepted, htaken, hqueued⟩ := sent_moves hsent
      have hwait : ∀ t, waitingOf t s'.loop.waiting = waitingOf t s.loop.waiting := by
        intro t
        rw [hwaiting, waitingOf_append, hqueued, List.append_nil]
      refine ⟨?_, ?_, (hwait .loop).trans h.direct⟩
      · rw [htrace]
        exact h.sent_bytes [.accept .loop message] rfl rfl hsent
      · intro t
        have hfifo := h.fifo t
        rw [htrace, hwait, ← List.singleton_append, acceptedBy_append, acceptedBy_append, haccepted,
          takenBy_append, takenBy_append, htaken, hfifo]
        by_cases hcaller : .loop = t
        · subst hcaller
          simp [acceptedBy, takenBy, h.direct]
        · simp [acceptedBy, takenBy, hcaller]
  | @take caller message w actions direct rest left htook hsent hwaiting htrace =>
      -- the oldest functor: the message goes from those that wait to those taken
      obtain ⟨_, _, haccepted, htaken, hqueued⟩ := sent_moves hsent
      have hwait : ∀ t, waitingOf t s'.loop.waiting = waitingOf t left := by
        intro t
        rw [hwaiting, waitingOf_append, hqueued, List.append_nil]
      have hhead : ∀ t, waitingOf t s.loop.waiting =
          (if caller = t then [message] else []) ++ waitingOf t left := by
        intro t
        rw [htook]
        by_cases hcaller : caller = t <;> simp [waitingOf, hcaller]
      refine ⟨?_, ?_, ?_⟩
      · rw [htrace]
        exact h.sent_bytes [] rfl rfl hsent
      · intro t
        rw [htrace, hwait, acceptedBy_append, haccepted, List.append_nil, takenBy_append, htaken,
          h.fifo t, hhead, List.append_assoc]
      · have hnone := h.direct
        rw [hhead, List.append_eq_nil_iff] at hnone
        exact (hwait .loop).trans hnone.2
  | shutdownHere _ hconn hwaiting htrace =>
      refine h.silent _ ?_ (by rw [hconn]) (fun t => by rw [hwaiting]) htrace
      intro a ha
      rcases List.mem_cons.mp ha with rfl | ha
      · rfl
      · exact shutdownInLoop_silent _ a ha
  | shutdownElsewhere _ _ hconn hwaiting htrace =>
      refine h.silent _ (by simp [isSilent]) (by rw [hconn]) ?_ htrace
      intro t
      rw [hwaiting, waitingOf_append]
      exact List.append_nil _
  | shutdownInLoop htook hconn htrace =>
      exact h.silent _ (shutdownInLoop_silent _) (by rw [hconn]) (fun t => by rw [htook]; rfl) htrace
  | connectEstablished _ _ hconn htook htrace =>
      refine h.silent _ (by simp [isSilent]) (by rw [hconn]) ?_ htrace
      intro t
      rcases htook with hsame | hhead
      · rw [hsame]
      · rw [hhead]
        rfl
  | connectDestroyed _ _ hconn htook htrace =>
      exact h.silent _ (by simp [isSilent]) (by rw [hconn]) (fun t => by rw [htook]; rfl) htrace
  | handleRead _ _ hread hwaiting htrace =>
      have hsilent : ∀ a ∈ _, isSilent a = true := read_silent hread
      refine h.silent _ hsilent hread.output ?_ htrace
      intro t
      rw [hwaiting, waitingOf_append, waitingOf_of_silent hsilent, List.append_nil]
  | handleWrite hwrote hwaiting htrace =>
      -- what the socket takes leaves the front of the output buffer
      obtain ⟨hbytes, hkeeps, haccepted, htaken, hqueued⟩ := wrote_moves hwrote
      have hwait : ∀ t, waitingOf t s'.loop.waiting = waitingOf t s.loop.waiting := by
        intro t
        rw [hwaiting, waitingOf_append, hqueued, List.append_nil]
      refine ⟨?_, ?_, (hwait .loop).trans h.direct⟩
      · rw [htrace, socketBytes_append, kept_append, hkeeps, List.append_nil, List.append_assoc, hbytes]
        exact h.bytes
      · intro t
        rw [htrace, hwait, acceptedBy_append, haccepted, List.append_nil, takenBy_append, htaken,
          List.append_nil]
        exact h.fifo t
  | notify htook hkind hconn htrace =>
      refine h.silent _ (by simp [isSilent]) (by rw [hconn]) ?_ htrace
      intro t
      rw [htook]
      rcases hkind with ⟨rfl, _⟩ | ⟨backlog, rfl, _⟩ <;> rfl
  | removeConnectionInLoop hconn hwaiting htrace =>
      refine h.silent [] (by simp) (by rw [hconn]) ?_ (by simp [htrace])
      intro t
      rw [hwaiting, waitingOf_append]
      exact List.append_nil _

theorem new_stream (owner : Owner) (sockfd : Nat) (writeComplete : Bool) :
    (Session.new owner sockfd writeComplete).Stream where
  bytes := Buffer.new_readable
  fifo t := by
    cases h : owner.sameLoop <;>
      simp [Session.new, h, acceptedBy, takenBy, waitingOf]
  direct := by
    cases h : owner.sameLoop <;> simp [Session.new, h, waitingOf]

/-- In every run of a connection the bytes the socket accepted, followed by the readable bytes of
    `outputBuffer_`, are the messages given to `sendInLoop` and kept, one after the other in the order in
    which it ran on them; and the messages of any one thread were taken in the order of its accepted
    `send()` calls, those not yet taken waiting in that order. -/
theorem reachable_stream (h : connectionMachine.Reachable s) : s.Stream := by
  refine h.invariant ?_ ?_
  · rintro s ⟨owner, sockfd, writeComplete, rfl⟩
    exact new_stream owner sockfd writeComplete
  · intro s e s' hs hstream _ hstep
    exact hstream.step (step_moves (reachable_wired hs) hstep)

/-! ## The stream that was asked for -/

/-- **The output stream is whole.** The bytes the socket accepted, followed by those in `outputBuffer_`,
    are all the messages given to `sendInLoop` in the order in which it ran on them, but for those whose own
    direct write failed with `EPIPE` or `ECONNRESET`; and each thread's messages were taken in the order
    of its `send()` calls. -/
structure Whole (s : Session) : Prop where
  bytes : socketBytes s.trace ++ s.conn.outputBuffer_.readable = bytesOf (due s.trace)
  fifo : ∀ t, acceptedBy t s.trace = takenBy t s.trace ++ waitingOf t s.loop.waiting

/-- The log of a failed write leaves the fault as it was: `sendInLoop` finds `EPIPE` or `ECONNRESET` in
    `errno` behind it just when the write had failed with one of them. -/
def FaultKept (w : Write) : Prop := w.isFault = w.peerGone

instance : DecidablePred FaultKept := fun w => inferInstanceAs (Decidable (w.isFault = w.peerGone))

theorem due_of_noTake (h : NoTake actions) : due actions = [] := by
  rw [due, List.filterMap_eq_nil_iff]
  intro a ha
  cases a with
  | take caller message direct => exact absurd ha (h caller message direct)
  | _ => rfl

theorem kept_of_noTake (h : NoTake actions) : kept actions = [] := by
  rw [kept, List.filterMap_eq_nil_iff]
  intro a ha
  cases a with
  | take caller message direct => exact absurd ha (h caller message direct)
  | _ => rfl

/-- The message of a run of `sendInLoop`, unless it was not due. -/
theorem sent_due (h : Sent c caller message w c' actions direct rest) :
    due actions = if direct.any Write.peerGone then [] else [message] := by
  -- behind the `take` no other message is run on
  have hnone : NoTake (direct.toList.map (.write message.bytes ·) ++ c.completed direct rest ++
      c.crossed rest) := by
    intro caller' message' direct' hmem
    rcases List.mem_append.mp hmem with hmem | hmem
    · rcases List.mem_append.mp hmem with hmem | hmem
      · simp at hmem
      · exact absurd (mem_completed hmem) (by simp)
    · obtain ⟨backlog, heq⟩ := mem_crossed hmem
      simp at heq
  rw [h.actions, ← List.singleton_append, due_append, due_of_noTake hnone, List.append_nil]
  cases hgone : direct.any Write.peerGone <;> simp [due, dueOf, hgone]

/-- A message goes as it is due just when it has no bytes, or the log leaves the fault of its write as it
    was. -/
theorem sent_due_iff (h : Sent c caller message w c' actions direct rest) :
    bytesOf (due actions) = bytesOf (kept actions) ↔ (c.Idle → message.bytes ≠ [] → FaultKept w) := by
  rw [sent_due h, (sent_moves h).2.1]
  cases h.disposes with
  | buffered hbusy => exact ⟨fun _ hidle => absurd hidle hbusy, fun _ => rfl⟩
  | wrote hidle hw _ =>
      subst hw
      exact ⟨fun _ _ _ => rfl, fun _ => rfl⟩
  | refused hidle _ hfault =>
      cases hgone : w.peerGone <;> simp [bytesOf, FaultKept, hfault, hgone, hidle]
  | dropped hidle hfault =>
      cases hgone : w.peerGone <;> simp [bytesOf, FaultKept, hfault, hgone, hidle]

/-- **The step lemma**: a stream that is whole stays so just when the step's own write meets the
    condition. -/
theorem whole_step (hstream : s.Stream) (hstream' : s'.Stream) (hwhole : s.Whole)
    (hmoves : Moves s s' t) : s'.Whole ↔ DirectWrite FaultKept s t := by
  -- what was kept so far is what was due so far
  have hold : bytesOf (due s.trace) = bytesOf (kept s.trace) := hwhole.bytes.symm.trans hstream.bytes
  have hiff : s'.Whole ↔ bytesOf (due s'.trace) = bytesOf (kept s'.trace) :=
    ⟨fun h => h.bytes.symm.trans hstream'.bytes, fun h => ⟨hstream'.bytes.trans h.symm, hstream'.fifo⟩⟩
  rcases hmoves.takes with ⟨hnot, actions, htrace, hnone⟩ |
    ⟨before, caller, message, w, actions, direct, rest, hsending, hsent, hbefore, htrace⟩
  · rw [hiff, htrace, due_append, kept_append, due_of_noTake hnone, kept_of_noTake hnone,
      List.append_nil, List.append_nil]
    exact ⟨fun _ _ p hp => by simp [hnot] at hp, fun _ => hold⟩
  · rw [hiff, htrace, due_append, due_append, kept_append, kept_append, due_of_noTake hbefore,
      kept_of_noTake hbefore, List.nil_append, List.nil_append, bytesOf_append, bytesOf_append, hold,
      List.append_cancel_left_eq, sent_due_iff hsent]
    simp [DirectWrite, hsending]

/-- **The output stream is whole in every state of a run if and only if** the log of a failed direct write
    never makes or hides a fault in `errno` before `sendInLoop` looks, as far as messages with bytes are
    concerned. -/
theorem output_stream_iff {es : List Event} (h0 : connectionMachine.init s)
    (hrun : connectionMachine.run s es = some s') :
    (∀ es₁ mid, es₁ <+: es → connectionMachine.run s es₁ = some mid → mid.Whole) ↔
      connectionMachine.Along (fun s e => DirectWrite FaultKept s (s.turn e)) s es := by
  have hnew : s.Whole := by
    obtain ⟨owner, sockfd, writeComplete, rfl⟩ := h0
    have hstream := new_stream owner sockfd writeComplete
    exact ⟨hstream.bytes, hstream.fifo⟩
  refine Machine.forall_prefix_iff_along (I := connectionMachine.Reachable) ?_ ?_ (.init h0)
    (Machine.along_true s es) hnew hrun
  · intro s e s' hs _ hstep
    exact .step hs trivial hstep
  · intro s e s' hs _ hwhole hstep
    have hs' := hs.step trivial hstep
    exact whole_step (reachable_stream hs) (reachable_stream hs') hwhole
      (step_moves (reachable_wired hs) hstep)

/-- A server's connection on another loop: a write the peer has reset, a short one, a message from
    another thread, and a short drain. -/
def shortWrites : List Event :=
  [.doPendingFunctors, .runFunctor (.wrote 0),
   .send .loop ⟨[12], by decide⟩ (.failed .ECONNRESET .ECONNRESET),
   .send .loop ⟨[1, 2, 3], by decide⟩ (.wrote 1), .leaveUser, .endFunctors,
   .send (.other 1) ⟨[4], by decide⟩ (.wrote 0), .handleEvent ⟨false, false, true⟩,
   .runCallback (.error 0) (.wrote 1), .endEvent, .doPendingFunctors, .runFunctor (.wrote 0),
   .endFunctors]

theorem output_stream_iff_shortWrites :
    ∃ s, connectionMachine.run (Session.new (.tcpServer false) 9 true) shortWrites = some s ∧
      socketBytes s.trace = [1, 2] ∧ s.conn.outputBuffer_.readable = [3, 4] ∧
      bytesOf (due s.trace) = [1, 2, 3, 4] := by
  have hrun : ((connectionMachine.run (Session.new (.tcpServer false) 9 true) shortWrites).map
      fun s => (socketBytes s.trace, s.conn.outputBuffer_.readable)) = some ([1, 2], [3, 4]) := by
    decide +kernel
  obtain ⟨s, hs, hvalues⟩ := Option.map_eq_some_iff.mp hrun
  simp only [Prod.mk.injEq] at hvalues
  have hwhole := (output_stream_iff ⟨_, _, _, rfl⟩ hs).mpr (by decide +kernel) shortWrites s
    List.prefix_rfl hs
  refine ⟨s, hs, hvalues.1, hvalues.2, ?_⟩
  rw [← hwhole.bytes, hvalues.1, hvalues.2]
  rfl

/-- The network interface is out of buffers, and standard output is a pipe that nobody reads. -/
def brokenLog : List Event :=
  [.connectEstablished, .send .loop ⟨[10, 11], by decide⟩ (.failed (.other 105) .EPIPE)]

/-- The message is neither on the socket nor in the buffer, though its write did not fail with `EPIPE`. -/
theorem output_stream_brokenLog :
    ∃ s, connectionMachine.run (Session.new (.tcpServer true) 9 true) brokenLog = some s ∧
      socketBytes s.trace ++ s.conn.outputBuffer_.readable = [] ∧ bytesOf (due s.trace) = [10, 11] ∧
      ¬ s.Whole := by
  have hrun : ((connectionMachine.run (Session.new (.tcpServer true) 9 true) brokenLog).map
      fun s => (socketBytes s.trace ++ s.conn.outputBuffer_.readable, bytesOf (due s.trace))) =
      some ([], [10, 11]) := by
    decide +kernel
  obtain ⟨s, hs, hvalues⟩ := Option.map_eq_some_iff.mp hrun
  simp only [Prod.mk.injEq] at hvalues
  refine ⟨s, hs, hvalues.1, hvalues.2, fun hwhole => ?_⟩
  have hbytes := hwhole.bytes
  rw [hvalues.1, hvalues.2] at hbytes
  simp at hbytes

/-- A message whose write did fail with `EPIPE` is kept when the disk of the log is full. -/
example : ((connectionMachine.run (Session.new (.tcpServer true) 9 true)
    [.connectEstablished, .send .loop ⟨[10, 11], by decide⟩ (.failed .EPIPE (.other 28))]).map
      fun s => (s.conn.outputBuffer_.readable, bytesOf (due s.trace))) = some ([10, 11], []) := by
  decide +kernel

end Session

end Simplev
