import Simplev.Foundation.Pipe
import Simplev.Net.Correctness.Interest
import Simplev.Net.Correctness.Scattered

/-!
# `Net.Peers` — two connections, one at each end of a stream

`peersMachine` runs two connections of this library against each other: what one writes to its socket the
other reads from its own. The network between them is a `Pipe` each way, which may be torn at any time. A
step of an end is any step of `Net.Session` whose system calls have results that the two pipes allow.

`Carried` is the invariant. Along one direction it joins the four places where a byte can be: the output
buffer of the sender, the network, the input buffer of the receiver, and the hands of its user.
-/

namespace Simplev

open Foundation TcpConnection

inductive Side where
  | left
  | right
deriving DecidableEq, Repr

namespace Side

def other : Side → Side
  | left => right
  | right => left

@[simp] theorem other_other (x : Side) : x.other.other = x := by cases x <;> rfl

theorem other_ne (x : Side) : x.other ≠ x := by cases x <;> simp [other]

theorem eq_or (x y : Side) : x = y ∨ x = y.other := by cases x <;> cases y <;> simp [other]

end Side

structure Peers where
  ends : Side → Reading
  /-- From each side to the other. -/
  pipes : Side → Pipe Byte
  /-- The socket of the side is closed. -/
  closed : Side → Bool
  /-- The side has read the end of the stream. -/
  atEnd : Side → Bool

namespace Session

/-- What an action does to the stream. -/
def effectOf : Action → List (Pipe.Effect Byte)
  | .write data w => [.write (w.accepted data)]
  | .shutdownWrite => [.shutdown]
  | _ => []

/-- What `readv` returned in a step, if it returned bytes or the end of the stream. -/
def fetches (s : Session) : Event → Option (List Byte)
  | .runCallback (.data bytes) _ =>
    match s.phase with
    | .event (.readCallback :: _) => some bytes
    | _ => none
  | _ => none

/-- The actions of a step from `s` to `s'`. -/
def actionsSince (s s' : Session) : List Action := s'.trace.drop s.trace.length

end Session

namespace Peers

open Session

inductive Event where
  | step (side : Side) (e : Session.Event)
  /-- The last pointer to the connection goes, and `~Socket` closes the descriptor. -/
  | close (side : Side)
  /-- The stream from the side is lost. -/
  | reset (side : Side)
deriving DecidableEq

/-- The pipe after `readv`. -/
def fetch (pipe : Pipe Byte) : Option (List Byte) → Option (Pipe Byte)
  | some bytes => pipe.read bytes
  | none => some pipe

def step (p : Peers) : Event → Option Peers
  | .step x e =>
    if p.closed x then none else do
      let r ← inputMachine.step (p.ends x) e
      let incoming ← fetch (p.pipes x.other) ((p.ends x).session.fetches e)
      let outgoing ← (p.pipes x).acts (((p.ends x).session.actionsSince r.session).flatMap effectOf)
      return { p with
        ends := Function.update p.ends x r
        pipes := Function.update (Function.update p.pipes x.other incoming) x outgoing
        atEnd := Function.update p.atEnd x
          (p.atEnd x || (p.ends x).session.fetches e = some []) }
  | .close x =>
    if p.closed x = false ∧ (p.ends x).session.conn.state_ = .kDisconnected ∧
        (p.ends x).session.loop.alive = [] then
      some { p with
        pipes := Function.update p.pipes x (p.pipes x).close
        closed := Function.update p.closed x true }
    else none
  | .reset x => some { p with pipes := Function.update p.pipes x (p.pipes x).tear }

end Peers

/-- All runs of two connections, under any owners. -/
def peersMachine : Machine Peers Peers.Event where
  init p := (∀ x, Session.inputMachine.init (p.ends x)) ∧ (∀ x, p.pipes x = .empty) ∧
    (∀ x, p.closed x = false) ∧ ∀ x, p.atEnd x = false
  step := Peers.step

namespace Peers

open Session

/-- The user of an end puts nothing into its input buffer. -/
def Consumes : Event → Prop
  | .step _ e => Consuming e
  | _ => True

instance : (e : Event) → Decidable (Consumes e)
  | .step _ e => inferInstanceAs (Decidable (Consuming e))
  | .close _ => inferInstanceAs (Decidable True)
  | .reset _ => inferInstanceAs (Decidable True)

/-! ## The step -/

variable {p p' : Peers} {x y : Side}

/-- What a step of an end comes to. -/
structure Advances (p : Peers) (x : Side) (e : Session.Event) (p' : Peers) : Prop where
  /-- The end takes a step. -/
  session : (p.ends x).session.step e = some (p'.ends x).session
  received : (p'.ends x).received = (p.ends x).received ++ (p.ends x).session.delivers e
  consumed : (p'.ends x).consumed = (p.ends x).consumed ++ (p.ends x).session.takes e
  other : p'.ends x.other = p.ends x.other
  /-- It reads from one pipe and writes to the other. -/
  incoming : fetch (p.pipes x.other) ((p.ends x).session.fetches e) = some (p'.pipes x.other)
  outgoing : (p.pipes x).acts
    (((p.ends x).session.actionsSince (p'.ends x).session).flatMap effectOf) = some (p'.pipes x)
  atEnd : p'.atEnd x = (p.atEnd x || (p.ends x).session.fetches e = some [])
  atEnd_other : p'.atEnd x.other = p.atEnd x.other

theorem step_advances {e : Session.Event} (h : p.step (.step x e) = some p') : Advances p x e p' := by
  simp only [step, Option.ite_none_left_eq_some] at h
  obtain ⟨-, h⟩ := h
  obtain ⟨r, hr, h⟩ := Option.bind_eq_some_iff.mp h
  obtain ⟨incoming, hin, h⟩ := Option.bind_eq_some_iff.mp h
  obtain ⟨outgoing, hout, h⟩ := Option.bind_eq_some_iff.mp h
  obtain rfl := Option.some.inj h
  obtain ⟨s', hs', rfl⟩ := Option.map_eq_some_iff.mp hr
  have hne := x.other_ne
  constructor <;> simp only [Function.update_self, Function.update_of_ne hne]
  · exact hs'
  · exact hin
  · exact hout

/-- The bytes of a step that gives no bytes to read are none. -/
theorem delivers_eq (s : Session) (e : Session.Event) : s.delivers e = (s.fetches e).getD [] := by
  cases e with
  | runCallback r w =>
      cases r with
      | data bytes =>
          simp only [delivers, fetches]
          split <;> simp [Buffer.Readv.delivered, *]
      | error errno =>
          simp only [delivers, fetches]
          split <;> rfl
  | _ => rfl

theorem flatMap_written (actions : List Action) :
    (actions.flatMap effectOf).flatMap Pipe.Effect.written = socketBytes actions := by
  rw [socketBytes, List.flatMap_assoc]
  congr 1
  funext a
  cases a <;> simp [effectOf, Pipe.Effect.written, socketBytesOf]

theorem shutdown_mem {actions : List Action} (h : .shutdownWrite ∈ actions) :
    .shutdown ∈ actions.flatMap effectOf :=
  List.mem_flatMap.mpr ⟨_, h, List.mem_singleton_self _⟩

/-! ## The invariant -/

/-- The actions of an end, in order. -/
def trace (p : Peers) (x : Side) : List Action := (p.ends x).session.trace

/-- **What the stream carries.** -/
structure Carried (p : Peers) : Prop where
  reachable : ∀ x, connectionMachine.Reachable (p.ends x).session
  accounts : ∀ x, Accounts (p.ends x)
  /-- What a side put on its socket is what the other has received and what is in flight. -/
  carried : ∀ x, socketBytes (p.trace x) = (p.ends x.other).received ++ (p.pipes x).inFlight
  shut : ∀ x, .shutdownWrite ∈ p.trace x → (p.pipes x).shut = true
  /-- A half-close comes when everything is written, and nothing is written behind it. -/
  whole : ∀ x before after, p.trace x = before ++ .shutdownWrite :: after → .closeCallback ∉ before →
    socketBytes before = bytesOf (kept before) ∧ socketBytes after = []
  ended : ∀ x, p.atEnd x.other = true → (p.pipes x).reset = false →
    (p.pipes x).shut = true ∧ (p.pipes x).inFlight = []

/-- What the writer of a pipe does in a step. -/
theorem Advances.writes {e : Session.Event} (h : Advances p x e p') (hp : p.Carried) :
    ∃ actions, p'.trace x = p.trace x ++ actions ∧
      (p'.pipes x).inFlight = (p.pipes x).inFlight ++ socketBytes actions ∧
      (p'.pipes x).reset = (p.pipes x).reset ∧
      ((p.pipes x).shut = true → socketBytes actions = [] ∧ (p'.pipes x).shut = true) ∧
      (.shutdownWrite ∈ actions → (p'.pipes x).shut = true) := by
  have hmoves := step_moves (reachable_wired (hp.reachable x)) h.session
  obtain ⟨actions, hactions⟩ := hmoves.trace_grows
  have hsince : (p.ends x).session.actionsSince (p'.ends x).session = actions := by
    rw [actionsSince, ← hactions, List.drop_left]
  have hacts := h.outgoing
  rw [hsince] at hacts
  obtain ⟨hflight, hreset, hshut, hend⟩ := Pipe.acts_conserves hacts
  rw [flatMap_written] at hflight hshut
  exact ⟨actions, hactions.symm, hflight, hreset, hshut, fun hmem => hend (shutdown_mem hmem)⟩

/-- What the reader of a pipe does in a step. -/
theorem Advances.reads {e : Session.Event} (h : Advances p x e p') :
    (p.pipes x.other).inFlight = (p.ends x).session.delivers e ++ (p'.pipes x.other).inFlight ∧
      (p'.pipes x.other).reset = (p.pipes x.other).reset ∧
      (p'.pipes x.other).shut = (p.pipes x.other).shut ∧
      ((p.ends x).session.fetches e = some [] → (p.pipes x.other).reset = true ∨
        (p.pipes x.other).shut = true ∧ (p.pipes x.other).inFlight = []) := by
  have hincoming := h.incoming
  rw [delivers_eq]
  cases hfetch : (p.ends x).session.fetches e with
  | none =>
      rw [hfetch] at hincoming
      obtain heq := Option.some.inj hincoming
      rw [heq]
      exact ⟨rfl, rfl, rfl, by simp⟩
  | some bytes =>
      rw [hfetch] at hincoming
      obtain ⟨hflight, hreset, hshut, hend⟩ := Pipe.read_conserves hincoming
      exact ⟨hflight, hreset, hshut, fun hnil => hend (Option.some.inj hnil)⟩

/-- **The step lemma** for the half-close of the side that takes the step. -/
theorem Advances.whole {e : Session.Event} (h : Advances p x e p') (hp : p.Carried)
    {before after : List Action} (hsplit : p'.trace x = before ++ .shutdownWrite :: after)
    (hopen : .closeCallback ∉ before) :
    socketBytes before = bytesOf (kept before) ∧ socketBytes after = [] := by
  obtain ⟨actions, htrace, -, -, hshut, -⟩ := h.writes hp
  have hmoves := step_moves (reachable_wired (hp.reachable x)) h.session
  rw [htrace] at hsplit
  rcases append_eq_append_cons hsplit with ⟨mid, hold, rfl⟩ | ⟨mid, rfl, hnew⟩
  · -- an old half-close: the pipe is shut, so nothing is written any more
    obtain ⟨hbefore, hmid⟩ := hp.whole x before mid hold hopen
    have hmem : .shutdownWrite ∈ p.trace x := by
      rw [hold]
      simp
    rw [socketBytes_append, hmid, (hshut (hp.shut x hmem)).1]
    exact ⟨hbefore, rfl⟩
  · -- the half-close of this step is its last action, and the buffer is empty then
    have hstill : .closeCallback ∉ p.trace x := fun hmem => hopen (List.mem_append_left _ hmem)
    have hmatched := reachable_matched (hp.reachable x) hstill
    rcases closes_or (reachable_ordered (hp.reachable x)) hmatched hmoves with
      ⟨actions', htrace', hnone, -⟩ | ⟨actions', htrace', hnone, -, hempty, -⟩
    · have hsame : actions = actions' := List.append_cancel_left (htrace.symm.trans htrace')
      rw [← hsame, hnew] at hnone
      simp at hnone
    · have hsame : actions = actions' ++ [.shutdownWrite] :=
        List.append_cancel_left (htrace.symm.trans htrace')
      rcases append_eq_append_cons (hsame.symm.trans hnew) with ⟨_, hin, _⟩ | ⟨rest, rfl, hlast⟩
      · rw [hin] at hnone
        simp at hnone
      · obtain ⟨rfl, rfl⟩ : rest = [] ∧ after = [] := by
          cases rest with
          | nil => exact ⟨rfl, (List.cons.inj hlast).2.symm⟩
          | cons a rest => simp at hlast
        rw [List.append_nil]
        have hbytes := (reachable_stream ((hp.reachable x).step trivial h.session)).bytes
        rw [hempty, List.append_nil, htrace', socketBytes_append, socketBytes_append, kept_append,
          kept_append] at hbytes
        have hclose : socketBytes [Action.shutdownWrite] = [] ∧ kept [Action.shutdownWrite] = [] :=
          ⟨rfl, rfl⟩
        rw [hclose.1, hclose.2, List.append_nil, List.append_nil] at hbytes
        refine ⟨?_, rfl⟩
        rw [socketBytes_append, kept_append]
        exact hbytes

/-- **The step lemma**: a step of an end keeps the invariant, in both directions. -/
theorem Carried.advances (hp : p.Carried) {e : Session.Event} (hc : Consuming e)
    (h : Advances p x e p') : p'.Carried := by
  have hother : p'.trace x.other = p.trace x.other := by
    rw [trace, h.other, trace]
  obtain ⟨actions, htrace, hflight, hreset, hshut, hend⟩ := h.writes hp
  obtain ⟨hflight', hreset', hshut', hend'⟩ := h.reads
  -- the side that steps is the writer of one pipe and the reader of the other
  have both : ∀ {P : Side → Prop}, P x → P x.other → ∀ y, P y := by
    intro P hx hxo y
    rcases Side.eq_or y x with rfl | rfl
    · exact hx
    · exact hxo
  refine ⟨both ?_ ?_, both ?_ ?_, both ?_ ?_, both ?_ ?_, both ?_ ?_, both ?_ ?_⟩
  · exact (hp.reachable x).step trivial h.session
  · rw [h.other]
    exact hp.reachable x.other
  · refine (hp.accounts x).step hc (Option.map_eq_some_iff.mpr ⟨_, h.session, ?_⟩)
    rw [← h.received, ← h.consumed]
  · rw [h.other]
    exact hp.accounts x.other
  · rw [htrace, socketBytes_append, h.other, hflight, ← List.append_assoc, hp.carried x]
  · rw [hother, Side.other_other, h.received, hp.carried x.other, Side.other_other, hflight',
      List.append_assoc]
  · intro hmem
    rw [htrace] at hmem
    rcases List.mem_append.mp hmem with hold | hnew
    · exact (hshut (hp.shut x hold)).2
    · exact hend hnew
  · rw [hother, hshut']
    exact hp.shut x.other
  · intro before after
    exact h.whole hp
  · rw [hother]
    exact hp.whole x.other
  · intro hdone hintact
    rw [h.atEnd_other] at hdone
    rw [hreset] at hintact
    obtain ⟨hwas, hnone⟩ := hp.ended x hdone hintact
    obtain ⟨hsilent, hstill⟩ := hshut hwas
    exact ⟨hstill, by rw [hflight, hnone, hsilent, List.append_nil]⟩
  · intro hdone hintact
    rw [Side.other_other, h.atEnd, Bool.or_eq_true, decide_eq_true_eq] at hdone
    rw [hreset'] at hintact
    have hwas : (p.pipes x.other).shut = true ∧ (p.pipes x.other).inFlight = [] := by
      rcases hdone with hbefore | hnow
      · refine hp.ended x.other ?_ hintact
        rw [Side.other_other]
        exact hbefore
      · exact (hend' hnow).resolve_left (by rw [hintact]; simp)
    rw [hshut']
    refine ⟨hwas.1, ?_⟩
    have hnone := hwas.2
    rw [hflight', List.append_eq_nil_iff] at hnone
    exact hnone.2

/-- Closing and tearing a pipe touch neither an end nor what is in flight. -/
theorem Carried.pipe (hp : p.Carried) {pipe : Pipe Byte} {closed : Side → Bool}
    (hflight : pipe.inFlight = (p.pipes x).inFlight) (hshut : (p.pipes x).shut = true → pipe.shut = true)
    (hreset : pipe.reset = false → (p.pipes x).reset = false) :
    ({ p with pipes := Function.update p.pipes x pipe, closed := closed } : Peers).Carried := by
  have hpipe : ∀ y, (Function.update p.pipes x pipe y).inFlight = (p.pipes y).inFlight ∧
      ((p.pipes y).shut = true → (Function.update p.pipes x pipe y).shut = true) ∧
      ((Function.update p.pipes x pipe y).reset = false → (p.pipes y).reset = false) := by
    intro y
    by_cases hy : y = x
    · subst hy
      rw [Function.update_self]
      exact ⟨hflight, hshut, hreset⟩
    · rw [Function.update_of_ne hy]
      exact ⟨rfl, id, id⟩
  refine ⟨hp.reachable, hp.accounts, ?_, ?_, hp.whole, ?_⟩
  · intro y
    show _ = _ ++ (Function.update p.pipes x pipe y).inFlight
    rw [(hpipe y).1]
    exact hp.carried y
  · intro y hmem
    exact (hpipe y).2.1 (hp.shut y hmem)
  · intro y hdone hintact
    obtain ⟨hwas, hnone⟩ := hp.ended y hdone ((hpipe y).2.2 hintact)
    exact ⟨(hpipe y).2.1 hwas, (hpipe y).1.trans hnone⟩

theorem Carried.step (hp : p.Carried) {e : Event} (hc : Consumes e) (h : p.step e = some p') :
    p'.Carried := by
  cases e with
  | step x e => exact hp.advances hc (step_advances h)
  | close x =>
      simp only [Peers.step, Option.ite_none_right_eq_some, Option.some.injEq] at h
      obtain ⟨-, rfl⟩ := h
      exact hp.pipe rfl (fun _ => rfl) id
  | reset x =>
      obtain rfl := Option.some.inj h
      exact hp.pipe rfl id fun htorn => by simp [Pipe.tear] at htorn

theorem init_carried (h : peersMachine.init p) : p.Carried := by
  obtain ⟨hends, hpipes, -, hend⟩ := h
  have htrace : ∀ x, p.trace x = [] ∧ (p.ends x).received = [] ∧ (p.ends x).consumed = [] ∧
      (p.ends x).session.Wired ∧ connectionMachine.Reachable (p.ends x).session ∧
      (p.ends x).session.conn.inputBuffer_.readable = [] := by
    intro x
    obtain ⟨s, ⟨owner, sockfd, writeComplete, rfl⟩, hx⟩ := hends x
    rw [trace, hx]
    exact ⟨rfl, rfl, rfl, new_wired owner sockfd writeComplete, .init ⟨_, _, _, rfl⟩, Buffer.new_readable⟩
  constructor
  · intro x
    exact (htrace x).2.2.2.2.1
  · intro x
    obtain ⟨-, hreceived, hconsumed, hwired, -, hinput⟩ := htrace x
    exact ⟨hwired, by rw [hreceived, hconsumed, hinput, List.append_nil]⟩
  · intro x
    rw [(htrace x).1, (htrace x.other).2.1, hpipes x]
    rfl
  · intro x hmem
    rw [(htrace x).1] at hmem
    simp at hmem
  · intro x before after hsplit
    rw [(htrace x).1] at hsplit
    simp at hsplit
  · intro x hdone
    rw [hend x.other] at hdone
    cases hdone

theorem reachable_carried (h : peersMachine.ReachableVia (fun _ e => Consumes e) p) : p.Carried := by
  refine h.invariant ?_ ?_
  · intro p hinit
    exact init_carried hinit
  · intro p e p' _ hp hc hstep
    exact hp.step hc hstep

/-! ## End to end -/

/-- **Delivery.** What the messages that one side's `sendInLoop` kept come to is, in order: what the user of
    the other side has consumed, what is in its input buffer, what is in flight, and what is in the
    sender's output buffer. -/
theorem delivered_end_to_end (h : peersMachine.ReachableVia (fun _ e => Consumes e) p) (x : Side) :
    (p.ends x.other).consumed ++ (p.ends x.other).session.conn.inputBuffer_.readable ++
      (p.pipes x).inFlight ++ (p.ends x).session.conn.outputBuffer_.readable =
        bytesOf (kept (p.trace x)) := by
  have hp := reachable_carried h
  rw [(hp.accounts x.other).bytes, ← hp.carried x]
  exact (reachable_stream (hp.reachable x)).bytes

/-- The left end sends three bytes, of which its socket takes two, and shuts down; the right end reads one of
    them and takes it. The drain half-closes the stream, and the right end reads the rest and the end. -/
def sendAndShutdown : List Event :=
  [.step .left .connectEstablished, .step .left (.send .loop ⟨[21, 22, 23], by decide⟩ (.wrote 2)),
   .step .left (.shutdown .loop), .step .left .leaveUser, .step .right .connectEstablished,
   .step .right .leaveUser, .step .right (.handleEvent ⟨false, true, false⟩),
   .step .right (.runCallback (.data [21]) (.wrote 0)), .step .right (.useInput .retrieveAll),
   .step .right .leaveUser, .step .right .endEvent, .step .left (.handleEvent ⟨false, false, true⟩),
   .step .left (.runCallback (.error 0) (.wrote 1)), .step .left .endEvent,
   .step .right (.handleEvent ⟨false, true, false⟩), .step .right (.runCallback (.data [22, 23]) (.wrote 0)),
   .step .right .leaveUser, .step .right .endEvent, .step .right (.handleEvent ⟨false, true, false⟩),
   .step .right (.runCallback (.data []) (.wrote 0))]

/-- A server's connection on the left, a client's on the right. -/
def start : Peers where
  ends
    | .left => ⟨Session.new (.tcpServer true) 7 false, [], []⟩
    | .right => ⟨Session.new .tcpClient 9 false, [], []⟩
  pipes _ := .empty
  closed _ := false
  atEnd _ := false

theorem start_init : peersMachine.init start := by
  refine ⟨?_, fun _ => rfl, fun _ => rfl, fun _ => rfl⟩
  rintro (_ | _)
  · exact ⟨_, ⟨_, _, _, rfl⟩, rfl⟩
  · exact ⟨_, ⟨_, _, _, rfl⟩, rfl⟩

/-- What a run of `sendAndShutdown` leaves. -/
theorem run_sendAndShutdown : ∃ p, peersMachine.run start sendAndShutdown = some p ∧
    peersMachine.ReachableVia (fun _ e => Consumes e) p ∧ p.atEnd .right = true ∧
    (p.pipes .left).reset = false ∧ (p.ends .right).consumed = [21] ∧
    .closeCallback ∉ p.trace .left ∧ ∃ before, p.trace .left = before ++ [.shutdownWrite] := by
  have hrun : (peersMachine.run start sendAndShutdown).map (fun p => (p.atEnd .right,
      (p.pipes .left).reset, (p.ends .right).consumed, decide (.closeCallback ∈ p.trace .left),
      (p.trace .left).getLast?)) = some (true, false, [21], false, some .shutdownWrite) := by decide +kernel
  obtain ⟨p, hp, hvalues⟩ := Option.map_eq_some_iff.mp hrun
  simp only [Prod.mk.injEq, decide_eq_false_iff_not] at hvalues
  obtain ⟨hend, hreset, hconsumed, hopen, hlast⟩ := hvalues
  have hreach := Machine.run_reachableVia (M := peersMachine) (C := fun _ e => Consumes e)
    (.init start_init) (by decide +kernel) hp
  exact ⟨p, hp, hreach, hend, hreset, hconsumed, hopen, _, (List.dropLast_append_getLast? _ hlast).symm⟩

theorem delivered_end_to_end_sendAndShutdown :
    ∃ p, peersMachine.run start sendAndShutdown = some p ∧ (p.ends .right).consumed = [21] ∧
      (p.ends .right).consumed ++ (p.ends .right).session.conn.inputBuffer_.readable ++
        (p.pipes .left).inFlight ++ (p.ends .left).session.conn.outputBuffer_.readable =
          bytesOf (kept (p.trace .left)) := by
  obtain ⟨p, hp, hreach, -, -, hconsumed, -⟩ := run_sendAndShutdown
  exact ⟨p, hp, hconsumed, delivered_end_to_end hreach .left⟩

/-- **The end of the stream.** When a side reads the end and the stream was not reset, every message that
    the other side's `sendInLoop` kept before its half-close has arrived, and nothing else has. -/
theorem end_means_everything (h : peersMachine.ReachableVia (fun _ e => Consumes e) p) (x : Side)
    (hend : p.atEnd x.other = true) (hintact : (p.pipes x).reset = false) {before after : List Action}
    (hsplit : p.trace x = before ++ .shutdownWrite :: after) (hopen : .closeCallback ∉ before) :
    (p.ends x.other).consumed ++ (p.ends x.other).session.conn.inputBuffer_.readable =
      bytesOf (kept before) := by
  have hp := reachable_carried h
  obtain ⟨-, hnone⟩ := hp.ended x hend hintact
  obtain ⟨hbefore, hafter⟩ := hp.whole x before after hsplit hopen
  have hcarried := hp.carried x
  have hclose : socketBytesOf .shutdownWrite = [] := rfl
  rw [hsplit, socketBytes_append, socketBytes, socketBytes, List.flatMap_cons, hclose, List.nil_append,
    hnone, List.append_nil] at hcarried
  rw [(hp.accounts x.other).bytes, ← hcarried, ← hbefore, socketBytes]
  rw [socketBytes] at hafter
  rw [hafter, List.append_nil]

theorem end_means_everything_sendAndShutdown :
    ∃ p before, peersMachine.run start sendAndShutdown = some p ∧
      p.trace .left = before ++ [.shutdownWrite] ∧
      (p.ends .right).consumed ++ (p.ends .right).session.conn.inputBuffer_.readable =
        bytesOf (kept before) := by
  obtain ⟨p, hp, hreach, hend, hreset, -, hopen, before, hlast⟩ := run_sendAndShutdown
  refine ⟨p, before, hp, hlast, end_means_everything hreach .left hend hreset hlast ?_⟩
  rw [hlast] at hopen
  exact fun hmem => hopen (List.mem_append_left _ hmem)

end Peers

end Simplev
