import Simplev.Net.Correctness.Attempts

/-!
# `Net.Correctness.Overlap` — the end of one connection and the next attempt

`handleClose` queues `connectDestroyed` and restarts the connector in one step, so the old connection is
still there when the next attempt begins. `Overlap` is what keeps the two apart: the functor runs in the
batch before the next poll, and no event of the new attempt comes before that poll. `Trades` lists what a
step may do to the connection that is there.
-/

namespace Simplev

open Foundation

namespace Dialer

def Functor.destroyed? : Functor → Option Nat
  | .connection sockfd .connectDestroyed => some sockfd
  | _ => none

/-- The connections whose `connectDestroyed` has not run. -/
def destroys (l : EventLoop Functor) : List Nat := l.waitingOf Functor.destroyed?

variable {s s' s₁ : Dialer} {e : Event} {savedErrno : Connector.SavedErrno} {writable : Bool}

/-- **The invariant**: `connectDestroyed` waits for one connection at most, with no other open and no event
    of the next attempt to be delivered before it. -/
structure Overlap (s : Dialer) : Prop where
  event : ∀ rest, s.phase = .event rest → destroys s.loop = []
  batch : s.phase = .functors → s.loop.pendingOf Functor.destroyed? = []
  attempt : destroys s.loop ≠ [] → s.connector.state_ = .kConnecting →
    ∀ ch, s.connector.channel_ = some ch → .io ch.fd_ ∈ s.fresh
  single : destroys s.loop = [] ∨ s.connections = [] ∧ ∃ fd, destroys s.loop = [fd]

theorem overlap_new : Overlap Dialer.new where
  event _ _ := rfl
  batch _ := rfl
  attempt h := absurd rfl h
  single := .inl rfl

/-- A loop with the same connections to destroy does as well. -/
theorem Overlap.of_loop (hO : Overlap s) {l : EventLoop Functor} (hdestroys : destroys l = destroys s.loop)
    (hpending : l.pendingOf Functor.destroyed? = s.loop.pendingOf Functor.destroyed?) :
    Overlap { s with loop := l } where
  event := by rw [hdestroys]; exact hO.event
  batch := by rw [hpending]; exact hO.batch
  attempt := by rw [hdestroys]; exact hO.attempt
  single := by rw [hdestroys]; exact hO.single

theorem Overlap.queueInLoop (hO : Overlap s) {f : Functor} (hf : f.destroyed? = none) :
    Overlap { s with loop := s.loop.queueInLoop f } := by
  apply hO.of_loop
  · unfold destroys
    rw [EventLoop.waitingOf_queueInLoop, hf]
    exact List.append_nil _
  · rw [EventLoop.pendingOf_queueInLoop, hf]
    exact List.append_nil _

theorem Overlap.nextFunctor (hO : Overlap s) {f : Functor} {l : EventLoop Functor}
    (hf : f.destroyed? = none) (hnext : s.loop.nextFunctor = some (f, l)) :
    Overlap { s with loop := l } := by
  apply hO.of_loop
  · unfold destroys
    rw [EventLoop.waitingOf_nextFunctor _ hnext, hf]
    rfl
  · exact EventLoop.pendingOf_nextFunctor _ hnext

/-- An open connection is not about to be destroyed, and no other one is. -/
theorem Overlap.opened (hO : Overlap s) {sockfd : Nat} (h : sockfd ∈ s.connections) :
    destroys s.loop = [] := by
  obtain hnone | ⟨hclosed, -⟩ := hO.single
  · exact hnone
  · exact absurd (hclosed ▸ h) (by simp)

/-- `handleClose` queues the `connectDestroyed` of the one connection there was. -/
theorem Overlap.close (hO : Overlap s) (hS : Solo s) {sockfd : Nat} (hphase : s.phase = .between)
    (h : sockfd ∈ s.connections) :
    Overlap { s with
      connections := s.connections.filter (· ≠ sockfd)
      loop := s.loop.queueInLoop (.connection sockfd .connectDestroyed) } where
  event rest hevent := absurd (hphase.symm.trans hevent) (by simp)
  batch hbatch := absurd (hphase.symm.trans hbatch) (by simp)
  attempt _ hbusy := absurd ((hS.close h).2.1.symm.trans hbusy) (by decide)
  single := by
    refine .inr ⟨(hS.close h).1, sockfd, ?_⟩
    unfold destroys
    rw [EventLoop.waitingOf_queueInLoop]
    exact congrArg (· ++ [sockfd]) (hO.opened h)

theorem Overlap.launching (hO : Overlap s) (hS : Solo s) (h : Launching s e savedErrno s₁) :
    Overlap s₁ := by
  cases h with
  | start _ => exact { hO with }
  | functor _ next => exact hO.nextFunctor rfl next
  | expire _ _ _ => exact { hO with }
  | restart phase opened _ =>
      exact { hO.close hS phase opened with attempt := by rintro _ ⟨⟩ }

theorem Overlap.launched (hO : Overlap s) (h : Launched s savedErrno s') : Overlap s' := by
  cases h with
  | declined _ => exact { hO with }
  | began _ _ _ =>
      refine { hO with attempt := ?_ }
      rintro _ _ ch ⟨⟩
      exact List.mem_append_right _ (List.mem_singleton_self _)
  | retried _ _ => exact { hO with attempt := by rintro _ ⟨⟩ }
  | gaveUp _ _ _ => exact { hO with }

theorem Overlap.ending (hO : Overlap s) (h : Ending s e writable s₁) : Overlap s₁ := by
  cases h with
  | stopInLoop _ next => exact hO.nextFunctor rfl next
  | handleError phase _ =>
      exact { hO with event := fun _ _ => hO.event _ phase, batch := fun hbatch => absurd hbatch (by simp) }
  | handleWrite phase _ =>
      exact { hO with event := fun _ _ => hO.event _ phase, batch := fun hbatch => absurd hbatch (by simp) }

theorem Overlap.ended (hO : Overlap s) (hwritable : writable = true → ∃ rest, s.phase = .event rest)
    (h : Ended s writable s') : Overlap s' := by
  have hqueued : ∀ sockfd, Overlap
      { s with loop := s.loop.queueInLoop (.connector (.resetChannel sockfd)) } :=
    fun _ => hO.queueInLoop rfl
  cases h with
  | ignored _ _ => exact { hO with }
  | retried _ _ _ => exact { hqueued _ with attempt := by rintro _ ⟨⟩ }
  | dropped _ _ _ => exact { hqueued _ with attempt := by rintro _ ⟨⟩ }
  | handedOver _ _ _ connected =>
      obtain ⟨rest, hevent⟩ := hwritable connected
      exact { hqueued _ with
        attempt := by rintro _ ⟨⟩
        single := .inl ((hqueued _).event rest hevent) }
  | cancelled _ _ _ _ => exact { hqueued _ with attempt := by rintro _ ⟨⟩ }

/-- **One step** keeps the invariant. -/
theorem Overlap.step (hO : Overlap s) (hS : Solo s) (h : Moves s e s') : Overlap s' := by
  cases h with
  | launch launching run => exact (hO.launching hS launching).launched run
  | ends ending run => exact (hO.ending ending).ended ending.inside run
  | start => exact { hO.queueInLoop (f := .connector .startInLoop) rfl with }
  | stop _ => exact { hO.queueInLoop (f := .connector .stopInLoop) rfl with }
  | stopLater =>
      have hqueued := hO.queueInLoop (f := .connector .stopInLoop) rfl
      have hboth := hqueued.queueInLoop (f := .connector (.cancelInLoop s.connector.timerId_)) rfl
      exact { hboth with }
  | doPendingFunctors phase =>
      have hdestroys : destroys s.loop.swapFunctors = destroys s.loop :=
        EventLoop.waitingOf_swapFunctors _ (hS.moored.settled (by rw [phase]; simp))
      exact {
        event := by simp
        batch := fun _ => rfl
        attempt := by rw [hdestroys]; exact hO.attempt
        single := by rw [hdestroys]; exact hO.single }
  | resetChannel _ next _ =>
      exact { hO.nextFunctor rfl next with attempt := fun _ _ _ hch => absurd hch (by simp) }
  | cancelInLoop _ next => exact { hO.nextFunctor rfl next with }
  | connection phase next =>
      rename_i sockfd f loop
      have hdestroys : destroys s.loop = (Functor.destroyed? (.connection sockfd f)).toList ++
          destroys loop := EventLoop.waitingOf_nextFunctor _ next
      have hsub : destroys loop ≠ [] → destroys s.loop ≠ [] := by
        intro hne heq
        rw [hdestroys] at heq
        exact hne (List.append_eq_nil_iff.mp heq).2
      refine {
        event := fun rest hevent => absurd (phase.symm.trans hevent) (by simp)
        batch := fun hbatch => ?_
        attempt := fun hne => hO.attempt (hsub hne)
        single := ?_ }
      · rw [EventLoop.pendingOf_nextFunctor _ next]
        exact hO.batch hbatch
      · obtain hnone | ⟨hclosed, fd, hone⟩ := hO.single
        · left
          by_contra hne
          exact hsub hne hnone
        · rw [hone] at hdestroys
          cases hd : Functor.destroyed? (.connection sockfd f) with
          | none =>
              rw [hd] at hdestroys
              exact .inr ⟨hclosed, fd, hdestroys.symm⟩
          | some fd' =>
              rw [hd, Option.toList_some, List.singleton_append, List.cons.injEq] at hdestroys
              exact .inl hdestroys.2.symm
  | endFunctors phase done =>
      -- the batch is over, and no `connectDestroyed` was queued in it
      have hdestroys : destroys s.loop.endFunctors = [] := by
        unfold destroys
        rw [EventLoop.waitingOf_endFunctors _ done, EventLoop.waitingOf_of_rest _ done]
        exact hO.batch phase
      exact {
        event := by simp
        batch := by simp
        attempt := fun hne => absurd hdestroys hne
        single := .inl hdestroys }
  | handleEvent phase delivers =>
      -- an event is delivered to an attempt that was there at the last poll
      have hnone : destroys s.loop = [] := by
        by_contra hne
        unfold Delivers at delivers
        cases hch : s.connector.channel_ with
        | none => simp [hch] at delivers
        | some ch =>
            simp only [hch] at delivers
            by_cases hbusy : s.connector.state_ = .kConnecting
            · exact delivers.2 (hO.attempt hne hbusy ch hch)
            · have hstopped := (hS.left ch hch hbusy).2
              exact absurd (delivers.1.1.symm.trans hstopped) (by decide)
      exact {
        event := fun _ _ => hnone
        batch := by simp
        attempt := fun hne => absurd hnone hne
        single := .inl hnone }
  | readCallback phase _ =>
      exact { hO with event := fun _ _ => hO.event _ phase, batch := by simp }
  | leaveUser _ => exact { hO with }
  | endEvent phase _ =>
      have hnone := hO.event _ phase
      exact {
        event := by simp
        batch := by simp
        attempt := fun hne => absurd hnone hne
        single := .inl hnone }
  | handleClose phase opened _ => exact hO.close hS phase opened
  | crash _ => exact { hO with }

/-! ## What a step does to the connections -/

/-- The `handleClose` of a connection. -/
def Event.closes : Event → Bool
  | .handleClose _ _ _ => true
  | _ => false

/-- A connection is handed over, or closes, or a functor of one runs, or none of these. -/
inductive Trades (s : Dialer) : Event → Dialer → Prop
  | same {e t} (stays : e.closes = false) (connections : t.connections = s.connections)
      (destroys : destroys t.loop = destroys s.loop) (handed : t.handed = s.handed) : Trades s e t
  | opened {probe t} (sockfd : Nat) (none : s.connections = []) (idle : destroys s.loop = [])
      (connections : t.connections = [sockfd]) (destroys : destroys t.loop = [])
      (handed : t.handed = s.handed ++ [sockfd]) : Trades s (.runCallback probe) t
  | closed {sockfd restart savedErrno t} (one : s.connections = [sockfd]) (idle : destroys s.loop = [])
      (connections : t.connections = []) (destroys : destroys t.loop = [sockfd])
      (handed : t.handed = s.handed) : Trades s (.handleClose sockfd restart savedErrno) t
  | ran {savedErrno sockfd f loop} (next : s.loop.nextFunctor = some (.connection sockfd f, loop)) :
      Trades s (.runFunctor savedErrno) { s with loop := loop }

/-- The event is none that a connection takes part in. -/
def Event.apart : Event → Bool
  | .runFunctor _ | .runCallback _ | .handleClose _ _ _ => false
  | _ => true

theorem Trades.of_apart (h : Trades s e s') (hapart : e.apart = true) :
    s'.connections = s.connections ∧ destroys s'.loop = destroys s.loop ∧ s'.handed = s.handed := by
  cases h with
  | same _ hconnections hdestroys hhanded => exact ⟨hconnections, hdestroys, hhanded⟩
  | opened _ _ _ _ _ _ => cases hapart
  | closed _ _ _ _ _ => cases hapart
  | ran _ => cases hapart

/-- Queueing anything but a `connectDestroyed`. -/
theorem destroys_queueInLoop (l : EventLoop Functor) {f : Functor} (hf : f.destroyed? = none) :
    destroys (l.queueInLoop f) = destroys l := by
  unfold destroys
  rw [EventLoop.waitingOf_queueInLoop, hf]
  exact List.append_nil _

/-- Popping anything but a `connectDestroyed`. -/
theorem destroys_nextFunctor {l l' : EventLoop Functor} {f : Functor} (hf : f.destroyed? = none)
    (h : l.nextFunctor = some (f, l')) : destroys l' = destroys l := by
  unfold destroys
  rw [EventLoop.waitingOf_nextFunctor _ h, hf]
  rfl

/-- The one connection closes. -/
theorem Overlap.closes (hO : Overlap s) (hS : Solo s) {sockfd : Nat} (h : sockfd ∈ s.connections) :
    s.connections = [sockfd] ∧ destroys s.loop = [] ∧ s.connections.filter (· ≠ sockfd) = [] ∧
      destroys (s.loop.queueInLoop (.connection sockfd .connectDestroyed)) = [sockfd] := by
  have hidle := hO.opened h
  refine ⟨?_, hidle, (hS.close h).1, ?_⟩
  · obtain hnone | ⟨-, fd, hone, -⟩ := hS.open_
    · exact absurd (hnone ▸ h) (by simp)
    · rw [hone] at h ⊢
      rw [List.mem_singleton.mp h]
  · unfold destroys at hidle ⊢
    rw [EventLoop.waitingOf_queueInLoop, hidle]
    rfl

/-- `startInLoop` does nothing to a connection. -/
theorem Launched.same (h : Launched s savedErrno s') :
    s'.connections = s.connections ∧ s'.loop = s.loop ∧ s'.handed = s.handed := by
  cases h <;> exact ⟨rfl, rfl, rfl⟩

/-- The end of an attempt hands its socket over, or does nothing to a connection. -/
theorem Ended.same_or (h : Ended s writable s') :
    s'.connections = s.connections ∧ destroys s'.loop = destroys s.loop ∧ s'.handed = s.handed ∨
    writable = true ∧ s.connector.state_ = .kConnecting ∧
      ∃ sockfd, s'.connections = s.connections ++ [sockfd] ∧ destroys s'.loop = destroys s.loop ∧
        s'.handed = s.handed ++ [sockfd] := by
  cases h with
  | ignored _ _ => exact .inl ⟨rfl, rfl, rfl⟩
  | retried _ _ _ => exact .inl ⟨rfl, destroys_queueInLoop _ rfl, rfl⟩
  | dropped _ _ _ => exact .inl ⟨rfl, destroys_queueInLoop _ rfl, rfl⟩
  | cancelled _ _ _ _ => exact .inl ⟨rfl, destroys_queueInLoop _ rfl, rfl⟩
  | handedOver busy _ _ connected =>
      exact .inr ⟨connected, busy, _, rfl, destroys_queueInLoop _ rfl, rfl⟩

theorem Moves.trades (hO : Overlap s) (hS : Solo s) (h : Moves s e s') : Trades s e s' := by
  cases h with
  | launch launching run =>
      obtain ⟨hconnections, hloop, hhanded⟩ := run.same
      cases launching with
      | start _ => exact .same rfl hconnections (by rw [hloop]) hhanded
      | functor _ next => exact .same rfl hconnections (by rw [hloop, destroys_nextFunctor rfl next]) hhanded
      | expire _ _ _ => exact .same rfl hconnections (by rw [hloop]) hhanded
      | restart _ opened _ =>
          -- with `retry_` on, the connection closes before the connector starts again
          obtain ⟨hone, hidle, hclosed, hdestroys⟩ := hO.closes hS opened
          exact .closed hone hidle (hconnections.trans hclosed) (by rw [hloop, hdestroys]) hhanded
  | ends ending run =>
      cases ending with
      | stopInLoop _ next =>
          obtain ⟨hconnections, hdestroys, hhanded⟩ | ⟨hwritable, -⟩ := run.same_or
          · exact .same rfl hconnections (hdestroys.trans (destroys_nextFunctor rfl next)) hhanded
          · cases hwritable
      | handleError _ _ =>
          obtain ⟨hconnections, hdestroys, hhanded⟩ | ⟨hwritable, -⟩ := run.same_or
          · exact .same rfl hconnections hdestroys hhanded
          · cases hwritable
      | handleWrite phase _ =>
          obtain ⟨hconnections, hdestroys, hhanded⟩ | ⟨-, hbusy, sockfd, hopened, hdestroys, hhanded⟩ :=
            run.same_or
          · exact .same rfl hconnections hdestroys hhanded
          · -- no connection is up while the connector tries, so the new one is alone
            have hnone := (hS.alone hbusy).2
            have hidle := hO.event _ phase
            refine .opened sockfd hnone hidle ?_ (hdestroys.trans hidle) hhanded
            rw [hopened]
            exact congrArg (· ++ [sockfd]) hnone
  | start => exact .same rfl rfl (destroys_queueInLoop _ rfl) rfl
  | stop _ => exact .same rfl rfl (destroys_queueInLoop _ rfl) rfl
  | stopLater =>
      exact .same rfl rfl ((destroys_queueInLoop _ rfl).trans (destroys_queueInLoop _ rfl)) rfl
  | doPendingFunctors phase =>
      exact .same rfl rfl (EventLoop.waitingOf_swapFunctors _ (hS.moored.settled (by rw [phase]; simp))) rfl
  | resetChannel _ next _ => exact .same rfl rfl (destroys_nextFunctor rfl next) rfl
  | cancelInLoop _ next => exact .same rfl rfl (destroys_nextFunctor rfl next) rfl
  | connection _ next => exact .ran next
  | endFunctors _ done => exact .same rfl rfl (EventLoop.waitingOf_endFunctors _ done) rfl
  | handleEvent _ _ => exact .same rfl rfl rfl rfl
  | readCallback _ _ => exact .same rfl rfl rfl rfl
  | leaveUser _ => exact .same rfl rfl rfl rfl
  | endEvent _ _ => exact .same rfl rfl rfl rfl
  | handleClose _ opened _ =>
      obtain ⟨hone, hidle, hclosed, hdestroys⟩ := hO.closes hS opened
      exact .closed hone hidle hclosed hdestroys rfl
  | crash dangles =>
      -- a connector that tries has its channel, so there is nothing to crash on
      obtain ⟨-, ch, hch, -⟩ := hS.moored.connecting dangles.1
      exact absurd (hch.symm.trans dangles.2) (by simp)

end Dialer

end Simplev
