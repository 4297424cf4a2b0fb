import Simplev.Net.Correctness.Callbacks

/-!
# `Net.Correctness.Scattered` — what is read from the socket reaches `messageCallback_`

`readFd` reads into the end of the buffer and into `extrabuf`; the second part then goes through
`append`, which may move the first. `readsScattered` says that the readable bytes grow by exactly the
bytes delivered, wherever the indices stood.

`inputMachine` is the session with two histories beside it: what `readv` delivered, and what
`messageCallback_` took out of `inputBuffer_`. Only `handleRead` and the callback touch that buffer
(`Kept`), so the two histories differ by what is still readable.
-/

namespace Simplev

open Foundation TcpConnection

namespace Buffer

/-- **What a read is**: the bytes delivered stand behind the readable ones, unless the vector cannot
    hold those that came in `extrabuf`; after an error nothing has changed but `*savedErrno`. -/
def ReadsScattered (b : Buffer) (r : Readv) : Prop :=
  match r with
  | .data bytes =>
    (∃ b', b.readFd r = .ok (some bytes.length, none, b') [] ∧ b'.InOrder ∧
      b'.readable = b.readable ++ bytes) ∨
    maxSize < b.buffer_.length + extrabufSize ∧ ∃ w, b.readFd r = .thrown w
  | .error errno => b.readFd r = .ok (none, some errno, b) []

theorem readsScattered {b : Buffer} (ho : b.InOrder) {r : Readv} (hfit : r.Fits b) :
    b.ReadsScattered r := by
  cases r with
  | data bytes =>
      rcases ho.readFd_data hfit with ⟨b', hret, ho', -, hread⟩ | hthrown
      · exact Or.inl ⟨b', hret, ho', hread⟩
      · exact Or.inr hthrown
  | error errno => rfl

/-- The bytes `readv` delivered. -/
def Readv.delivered : Readv → List Byte
  | .data bytes => bytes
  | .error _ => []

/-- The bytes a call takes out of the buffer. -/
def Op.taken (s : List Byte) : Op → List Byte
  | .retrieve len => s.take len
  | .retrieveUntil n => s.take n
  | .retrieveAll => s
  | .retrieveAsString => s
  | _ => []

/-- The call puts nothing into the buffer. -/
def Op.Consumes : Op → Prop
  | .retrieve _ => True
  | .retrieveUntil _ => True
  | .retrieveAll => True
  | .retrieveAsString => True
  | .ensureWritableBytes _ => True
  | _ => False

instance : (op : Op) → Decidable op.Consumes
  | .append _ => inferInstanceAs (Decidable False)
  | .prepend _ => inferInstanceAs (Decidable False)
  | .retrieve _ => inferInstanceAs (Decidable True)
  | .retrieveUntil _ => inferInstanceAs (Decidable True)
  | .retrieveAll => inferInstanceAs (Decidable True)
  | .retrieveAsString => inferInstanceAs (Decidable True)
  | .ensureWritableBytes _ => inferInstanceAs (Decidable True)
  | .write _ _ => inferInstanceAs (Decidable False)

/-- A call that puts nothing in splits the string it finds. -/
theorem Op.Consumes.splits {op : Op} (h : op.Consumes) (s : List Byte) :
    op.taken s ++ (op.abstract s).2 = s := by
  cases op with
  | retrieve len => exact List.take_append_drop len s
  | retrieveUntil n => exact List.take_append_drop n s
  | retrieveAll => exact List.append_nil s
  | retrieveAsString => exact List.append_nil s
  | ensureWritableBytes len => rfl
  | append data => exact h.elim
  | prepend data => exact h.elim
  | write data n => exact h.elim

end Buffer

namespace TcpConnection

variable {c c' : TcpConnection} {actions : List Action} {fs : List String}

/-! ## Who touches the input buffer -/

theorem shutdown_input {caller : Thread} (h : c.shutdown caller = .ok (c', actions) fs) :
    c'.inputBuffer_ = c.inputBuffer_ := by
  rcases (shutdown_spec h).2 with ⟨-, rfl, -⟩ | ⟨-, rfl, -⟩
  · rfl
  · rfl

theorem connectEstablished_input (h : c.connectEstablished = .ok (c', actions) fs) :
    c'.inputBuffer_ = c.inputBuffer_ := by
  obtain ⟨gs, hret, -⟩ := Outcome.assert_bind_eq_ok h
  simp only [Outcome.pure_eq, Outcome.ok.injEq, Prod.mk.injEq] at hret
  obtain ⟨⟨rfl, -⟩, -⟩ := hret
  rfl

theorem handleClose_input (h : c.handleClose = .ok (c', actions) fs) :
    c'.inputBuffer_ = c.inputBuffer_ := by
  obtain ⟨gs, hret, -⟩ := Outcome.assert_bind_eq_ok h
  simp only [Outcome.pure_eq, Outcome.ok.injEq, Prod.mk.injEq] at hret
  obtain ⟨⟨rfl, -⟩, -⟩ := hret
  rfl

theorem connectDestroyed_input (h : c.connectDestroyed = .ok (c', actions) fs) :
    c'.inputBuffer_ = c.inputBuffer_ := by
  obtain ⟨gs, hret, -⟩ := Outcome.assert_bind_eq_ok h
  simp only [Outcome.pure_eq, Outcome.ok.injEq, Prod.mk.injEq] at hret
  obtain ⟨⟨rfl, -⟩, -⟩ := hret
  rfl

theorem removeChannel_input (h : c.removeChannel = .ok (c', actions) fs) :
    c'.inputBuffer_ = c.inputBuffer_ := by
  obtain ⟨channel, gs, hs, -, hret, -⟩ := Outcome.bind_eq_ok h
  simp only [Outcome.pure_eq, Outcome.ok.injEq, Prod.mk.injEq] at hret
  obtain ⟨⟨rfl, -⟩, -⟩ := hret
  rfl

theorem Sent.input {caller : Thread} {message : Message} {w : Write} {direct : Option Write}
    {rest : List Byte} (h : Sent c caller message w c' actions direct rest) :
    c'.inputBuffer_ = c.inputBuffer_ := by
  rw [h.conn]

theorem Wrote.input {w : Write} (h : Wrote c w c' actions) : c'.inputBuffer_ = c.inputBuffer_ := by
  cases h with
  | closed _ => rfl
  | kept _ _ => rfl
  | partly _ _ _ _ _ => rfl
  | drained _ _ _ _ => rfl

theorem send_input (hc : c.Sound) {caller : Thread} {message : Message} {w : Write}
    (hw : w.Fits message.bytes.length) (h : c.send caller message w = .ok (c', actions) fs) :
    c'.inputBuffer_ = c.inputBuffer_ := by
  rcases send_spec h with ⟨-, rfl, -, -⟩ | ⟨-, -, sent, hsend, -⟩ | ⟨-, -, rfl, -, -⟩
  · rfl
  · obtain ⟨-, direct, rest, hsent⟩ := sendInLoop_spec hc hw hsend
    exact hsent.input
  · rfl

theorem functor_input (hc : c.Sound) {f : Functor} {w : Write} (hw : Session.WriteFits w f)
    (h : f.run c w = .ok (c', actions) fs) : c'.inputBuffer_ = c.inputBuffer_ := by
  cases f with
  | connectEstablished => exact connectEstablished_input h
  | connectDestroyed => exact connectDestroyed_input h
  | sendInLoop caller message =>
      obtain ⟨-, direct, rest, hsent⟩ := sendInLoop_spec hc hw h
      exact hsent.input
  | shutdownInLoop =>
      simp only [Functor.run, Outcome.pure_eq, Outcome.ok.injEq, Prod.mk.injEq] at h
      obtain ⟨⟨rfl, -⟩, -⟩ := h
      rfl
  | writeCompleteCallback =>
      simp only [Functor.run, Outcome.pure_eq, Outcome.ok.injEq, Prod.mk.injEq] at h
      obtain ⟨⟨rfl, -⟩, -⟩ := h
      rfl
  | highWaterMarkCallback backlog =>
      simp only [Functor.run, Outcome.pure_eq, Outcome.ok.injEq, Prod.mk.injEq] at h
      obtain ⟨⟨rfl, -⟩, -⟩ := h
      rfl

/-- `handleRead` adds what `readv` delivered. -/
theorem handleRead_input (hc : c.Sound) {r : Buffer.Readv} (hr : r.Fits c.inputBuffer_)
    (h : c.handleRead r = .ok (c', actions) fs) :
    c'.inputBuffer_.readable = c.inputBuffer_.readable ++ r.delivered := by
  cases r with
  | error errno =>
      simp only [handleRead, Buffer.readFd, Outcome.ok_nil_bind, Outcome.pure_eq, Outcome.ok.injEq,
        Prod.mk.injEq] at h
      obtain ⟨⟨rfl, -⟩, -⟩ := h
      exact (List.append_nil _).symm
  | data bytes =>
      rcases Buffer.readFd_data_spec hc.input hr with ⟨b, hret, -, hread⟩ | ⟨what, hret⟩
      · simp only [handleRead, hret, Outcome.ok_nil_bind] at h
        cases bytes with
        | nil =>
            rw [handleClose_input h]
            exact hread
        | cons byte bytes =>
            simp only [List.length_cons, Outcome.pure_eq, Outcome.ok.injEq, Prod.mk.injEq] at h
            obtain ⟨⟨rfl, -⟩, -⟩ := h
            exact hread
      · simp only [handleRead, hret, Outcome.thrown_bind] at h
        cases h

end TcpConnection

/-! ## The histories -/

/-- A session, the bytes its reads delivered, and the bytes taken out of its input buffer. -/
structure Reading where
  session : Session
  received : List Byte
  consumed : List Byte

namespace Session

/-- The bytes delivered in a step. -/
def delivers (s : Session) : Event → List Byte
  | .runCallback r _ =>
    match s.phase with
    | .event (.readCallback :: _) => r.delivered
    | _ => []
  | _ => []

/-- The bytes `messageCallback_` takes in a step. -/
def takes (s : Session) : Event → List Byte
  | .useInput op => op.taken s.conn.inputBuffer_.readable
  | .swapInput _ => s.conn.inputBuffer_.readable
  | _ => []

/-- `messageCallback_` only consumes: it puts no bytes of its own into the input buffer. -/
def Consuming : Event → Prop
  | .useInput op => op.Consumes
  | .swapInput b => b.readable = []
  | _ => True

instance : (e : Event) → Decidable (Consuming e)
  | .useInput op => inferInstanceAs (Decidable op.Consumes)
  | .swapInput b => inferInstanceAs (Decidable (b.readable = []))
  | .send _ _ _ => inferInstanceAs (Decidable True)
  | .shutdown _ => inferInstanceAs (Decidable True)
  | .connectEstablished => inferInstanceAs (Decidable True)
  | .doPendingFunctors => inferInstanceAs (Decidable True)
  | .runFunctor _ => inferInstanceAs (Decidable True)
  | .endFunctors => inferInstanceAs (Decidable True)
  | .handleEvent _ => inferInstanceAs (Decidable True)
  | .runCallback _ _ => inferInstanceAs (Decidable True)
  | .endEvent => inferInstanceAs (Decidable True)
  | .enterUser => inferInstanceAs (Decidable True)
  | .setWriteCompleteCallback _ => inferInstanceAs (Decidable True)
  | .setHighWaterMarkCallback _ _ => inferInstanceAs (Decidable True)
  | .leaveUser => inferInstanceAs (Decidable True)
  | .removeConnectionInLoop => inferInstanceAs (Decidable True)

/-- All runs of one connection, with the two histories. -/
def inputMachine : Machine Reading Event where
  init r := ∃ s, connectionMachine.init s ∧ r = ⟨s, [], []⟩
  step r e := (r.session.step e).map fun s =>
    ⟨s, r.received ++ r.session.delivers e, r.consumed ++ r.session.takes e⟩

variable {s s' : Session} {e : Event}

/-- **The step lemma**: what is taken and what is left is what there was and what is delivered. -/
theorem step_input (hw : s.Wired) (hc : Consuming e) (hstep : s.step e = some s') :
    s.takes e ++ s'.conn.inputBuffer_.readable =
      s.conn.inputBuffer_.readable ++ s.delivers e := by
  -- most steps leave the input buffer alone, and neither take nor deliver
  have hkept : ∀ {b : Buffer}, b = s.conn.inputBuffer_ →
      [] ++ b.readable = s.conn.inputBuffer_.readable ++ [] := by
    rintro b rfl
    rw [List.nil_append, List.append_nil]
  obtain ⟨s₁, c, actions, fs, hbegins, rfl⟩ := step_inv hstep
  cases hbegins with
  | send _ hfit hrun => exact hkept (send_input hw.sound hfit hrun)
  | shutdown _ hrun => exact hkept (shutdown_input hrun)
  | connectEstablished _ hrun => exact hkept (connectEstablished_input hrun)
  | runFunctor _ _ _ hfit hrun => exact hkept (functor_input hw.sound hfit hrun)
  | runCallback hphase hfree hrfit hwfit hrun =>
      rename_i r w cb rest
      cases cb with
      | readCallback =>
          simp only [takes, delivers, hphase, after_conn, List.nil_append]
          exact handleRead_input hw.sound hrfit hrun
      | writeCallback =>
          simp only [takes, delivers, hphase, after_conn]
          obtain ⟨-, hwrote⟩ := handleWrite_spec hw.sound hwfit hrun
          exact hkept hwrote.input
      | errorCallback =>
          simp only [takes, delivers, hphase, after_conn]
          simp only [handleEvent, Outcome.pure_eq, Outcome.ok.injEq, Prod.mk.injEq] at hrun
          obtain ⟨⟨rfl, -⟩, -⟩ := hrun
          exact hkept rfl
  | useInput hinside hallowed hrun =>
      rename_i op str b
      rcases Buffer.exec_spec hw.sound.input hallowed with ⟨b', hexec, -, hread⟩ | ⟨what, hexec⟩
      · rw [hexec] at hrun
        simp only [Outcome.ok.injEq, Prod.mk.injEq] at hrun
        obtain ⟨⟨-, rfl⟩, -⟩ := hrun
        -- the user takes bytes from the front, and nothing else
        have hsplit := Buffer.Op.Consumes.splits hc s.conn.inputBuffer_.readable
        rw [← hread] at hsplit
        exact hsplit.trans (List.append_nil _).symm
      · rw [hexec] at hrun
        cases hrun
  | swapInput hinside hvalid =>
      rename_i b
      have hempty : b.readable = [] := hc
      show s.conn.inputBuffer_.readable ++ b.readable = s.conn.inputBuffer_.readable ++ []
      rw [hempty]
  | leaveDown _ hrun => exact hkept (removeChannel_input hrun)
  | doPendingFunctors _ _ => exact hkept rfl
  | endFunctors _ _ _ => exact hkept rfl
  | handleEvent _ _ _ => exact hkept rfl
  | endEvent _ _ => exact hkept rfl
  | enterUser _ _ => exact hkept rfl
  | setWriteCompleteCallback _ => exact hkept rfl
  | setHighWaterMarkCallback _ => exact hkept rfl
  | leaveUser _ _ => exact hkept rfl
  | removeConnectionInLoop _ => exact hkept rfl

/-- What was consumed and what is readable make up what was received. -/
structure Accounts (r : Reading) : Prop where
  wired : r.session.Wired
  bytes : r.consumed ++ r.session.conn.inputBuffer_.readable = r.received

theorem Accounts.step {r r' : Reading} (h : Accounts r) (hc : Consuming e)
    (hstep : inputMachine.step r e = some r') : Accounts r' := by
  obtain ⟨s', hs, rfl⟩ := Option.map_eq_some_iff.mp hstep
  refine ⟨h.wired.step hs, ?_⟩
  show (r.consumed ++ r.session.takes e) ++ s'.conn.inputBuffer_.readable =
    r.received ++ r.session.delivers e
  rw [List.append_assoc, step_input h.wired hc hs, ← List.append_assoc, h.bytes]

/-- **A scattered read is a plain append.** On every buffer with its indices in order, whatever `readv`
    returns, `readFd` appends what was delivered or reports the error; and in every run in which
    `messageCallback_` only consumes, what it took followed by what is readable is what was read. -/
theorem scattered_read :
    (∀ (b : Buffer) (r : Buffer.Readv), b.InOrder → r.Fits b → b.ReadsScattered r) ∧
    ∀ r : Reading, inputMachine.ReachableVia (fun _ e => Consuming e) r →
      r.consumed ++ r.session.conn.inputBuffer_.readable = r.received := by
  constructor
  · intro b r ho hfit
    exact Buffer.readsScattered ho hfit
  · intro r hr
    have hinv : Accounts r := by
      refine hr.invariant ?_ ?_
      · rintro r ⟨s, ⟨owner, sockfd, writeComplete, rfl⟩, rfl⟩
        exact ⟨new_wired owner sockfd writeComplete, Buffer.new_readable⟩
      · intro r e r' _ h hc hstep
        exact h.step hc hstep
    exact hinv.bytes

/-- A read that overflows the buffer, of which part is taken, and a second read. -/
def readTwice : List Event :=
  [.connectEstablished, .leaveUser, .handleEvent ⟨false, true, false⟩,
   .runCallback (.data (List.replicate 1500 7)) (.wrote 0), .useInput (.retrieve 1400), .leaveUser,
   .endEvent, .handleEvent ⟨false, true, false⟩, .runCallback (.data [1, 2]) (.wrote 0)]

theorem scattered_read_readTwice :
    Buffer.new.ReadsScattered (.data (List.replicate 1500 7)) ∧
    ∃ r, inputMachine.run ⟨Session.new (.tcpServer true) 5 false, [], []⟩ readTwice = some r ∧
      r.received = List.replicate 1500 7 ++ [1, 2] ∧
      r.consumed ++ r.session.conn.inputBuffer_.readable = List.replicate 1500 7 ++ [1, 2] := by
  have hrun : (inputMachine.run ⟨Session.new (.tcpServer true) 5 false, [], []⟩ readTwice).map
      (·.received) = some (List.replicate 1500 7 ++ [1, 2]) := by decide +kernel
  obtain ⟨r, hr, hreceived⟩ := Option.map_eq_some_iff.mp hrun
  have hreach := Machine.run_reachableVia (M := inputMachine) (C := fun _ e => Consuming e)
    (.init ⟨_, ⟨_, _, _, rfl⟩, rfl⟩) (by decide +kernel) hr
  exact ⟨scattered_read.1 _ _ Buffer.new_valid.inOrder (by decide +kernel), r, hr, hreceived,
    hreceived ▸ scattered_read.2 r hreach⟩

end Session

end Simplev
