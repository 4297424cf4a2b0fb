import Simplev.Net.Correctness.Descriptors

/-!
# `Net.Correctness.Attempts` — one connection attempt at a time

An attempt is a channel in `kConnecting`, a retry timer, or a connection that is open. `restart` and the
retry timers take the place of the attempt they come from. `start()` does not: it checks nothing before it
runs `startInLoop`, so it must not run beside an attempt, nor while the channel of the last one waits for
its `resetChannel`. `StartsAlone` is that condition, and `Solo` the invariant of the runs that meet it.

A retry timer may be started by `stopInLoop`, after a `stop()` that a later `start()` overtook. Then the
reset waits for the next batch, and the timer must not expire before that.
-/

namespace Simplev

open Foundation

namespace Dialer

/-- How many attempts are outstanding. -/
def outstanding (s : Dialer) : Nat :=
  (if s.connector.state_ = .kConnecting then 1 else 0) + s.timers.length + s.connections.length

/-- **One attempt**: at most one is outstanding, and no assert of the connector failed. -/
structure OneAttempt (s : Dialer) : Prop where
  one : s.outstanding ≤ 1
  asserts : AssertsHold s

/-- The `startInLoop` of a `start()` call finds `kDisconnected`; with `connect_` on it finds no retry
    timer, unless `connect(2)` fails for good, and no reset that waits, if the attempt begins. -/
def Idle (s : Dialer) (connect_ : Bool) (savedErrno : Connector.SavedErrno) : Prop :=
  s.connector.state_ = .kDisconnected ∧
    (connect_ = true → savedErrno.begins = true → resets s.loop = [] ∧ s.timers = []) ∧
    (connect_ = true → savedErrno.retries = true → s.timers = [])

instance (s : Dialer) (connect_ : Bool) (savedErrno : Connector.SavedErrno) :
    Decidable (s.Idle connect_ savedErrno) :=
  inferInstanceAs (Decidable (_ ∧ _))

/-- **The condition**: `start()` acts on an idle connector, and a retry timer that begins an attempt does
    not expire while a reset waits. -/
def StartsAlone (s : Dialer) : Event → Prop
  | .start .loop savedErrno => s.Idle true savedErrno
  | .runFunctor savedErrno =>
    s.loop.nextFunctor.map Prod.fst = some (.connector .startInLoop) →
      s.Idle s.connector.connect_ savedErrno
  | .expire _ savedErrno =>
    s.connector.connect_ = true → savedErrno.begins = true → resets s.loop = []
  | _ => True

instance (s : Dialer) : (e : Event) → Decidable (s.StartsAlone e)
  | .start .loop savedErrno => inferInstanceAs (Decidable (s.Idle true savedErrno))
  | .start (.other _) _ => inferInstanceAs (Decidable True)
  | .runFunctor _ => inferInstanceAs (Decidable (_ → _))
  | .expire _ _ => inferInstanceAs (Decidable (_ → _ → _))
  | .stop _ => inferInstanceAs (Decidable True)
  | .doPendingFunctors => inferInstanceAs (Decidable True)
  | .endFunctors => inferInstanceAs (Decidable True)
  | .handleEvent _ => inferInstanceAs (Decidable True)
  | .runCallback _ => inferInstanceAs (Decidable True)
  | .leaveUser => inferInstanceAs (Decidable True)
  | .endEvent => inferInstanceAs (Decidable True)
  | .handleClose _ _ _ => inferInstanceAs (Decidable True)

/-- **The invariant.** A channel whose attempt is over is stopped and waits for its reset. A retry timer
    stands alone in `kDisconnected`, an open connection alone in `kConnected`; the reset of its attempt
    runs before the first event of the connection. -/
structure Solo (s : Dialer) : Prop where
  moored : Moored s
  left : ∀ ch, s.connector.channel_ = some ch → s.connector.state_ ≠ .kConnecting →
    resets s.loop ≠ [] ∧ ch.active = false
  waiting : s.timers = [] ∨ s.connector.state_ = .kDisconnected ∧ ∃ t, s.timers = [t]
  open_ : s.connections = [] ∨ s.connector.state_ = .kConnected ∧ ∃ fd, s.connections = [fd] ∧
    (resets s.loop ≠ [] → .io fd ∈ s.fresh) ∧ (s.phase = .functors → s.loop.pendingOf Functor.reset? = [])
  events : ∀ rest, s.phase = .event rest →
    rest.Nodup ∧ (.writeCallback ∈ rest → s.connector.state_ ≠ .kConnected)
  failed : s.failed = []

theorem solo_new : Solo Dialer.new where
  moored := moored_new
  left ch h := absurd h (by simp [Dialer.new, Connector.new])
  waiting := .inl rfl
  open_ := .inl rfl
  events rest h := absurd h (by simp [Dialer.new])
  failed := rfl

variable {s s' s₁ : Dialer} {e : Event} {savedErrno : Connector.SavedErrno} {writable : Bool}

/-- An attempt that is on has neither a timer nor a connection beside it. -/
theorem Solo.alone (hS : Solo s) (hbusy : s.connector.state_ = .kConnecting) :
    s.timers = [] ∧ s.connections = [] := by
  constructor
  · obtain hnone | ⟨hstate, -⟩ := hS.waiting
    · exact hnone
    · exact absurd (hbusy.symm.trans hstate) (by decide)
  · obtain hnone | ⟨hstate, -⟩ := hS.open_
    · exact hnone
    · exact absurd (hbusy.symm.trans hstate) (by decide)

theorem Solo.oneAttempt (hS : Solo s) : OneAttempt s where
  one := by
    unfold outstanding
    by_cases hbusy : s.connector.state_ = .kConnecting
    · obtain ⟨htimers, hconnections⟩ := hS.alone hbusy
      rw [if_pos hbusy, htimers, hconnections]
      decide
    · rw [if_neg hbusy]
      obtain htimers | ⟨hstate, t, htimers⟩ := hS.waiting
      · obtain hconnections | ⟨-, fd, hconnections, -⟩ := hS.open_
        · rw [htimers, hconnections]
          decide
        · rw [htimers, hconnections]
          simp
      · obtain hconnections | ⟨hconnected, -⟩ := hS.open_
        · rw [htimers, hconnections]
          simp
        · exact absurd (hstate.symm.trans hconnected) (by decide)
  asserts := by simp [AssertsHold, hS.failed]

/-- A loop with the same resets, none of them new, does as well. -/
theorem Solo.of_resets (hS : Solo s) {l : EventLoop Functor} (hM : Moored { s with loop := l })
    (hresets : resets l = resets s.loop) (hpending : l.pendingOf Functor.reset? = s.loop.pendingOf Functor.reset?) :
    Solo { s with loop := l } where
  moored := hM
  left := by rw [hresets]; exact hS.left
  waiting := hS.waiting
  open_ := by rw [hresets, hpending]; exact hS.open_
  events := hS.events
  failed := hS.failed

theorem Solo.queueInLoop (hS : Solo s) {f : Functor} (hf : f.reset? = none) :
    Solo { s with loop := s.loop.queueInLoop f } := by
  apply hS.of_resets (hS.moored.queueInLoop hf)
  · rw [resets_queueInLoop, hf]
    exact List.append_nil _
  · rw [EventLoop.pendingOf_queueInLoop, hf]
    exact List.append_nil _

theorem Solo.nextFunctor (hS : Solo s) {f : Functor} {l : EventLoop Functor}
    (hf : f.reset? = none) (hphase : s.phase = .functors) (hnext : s.loop.nextFunctor = some (f, l)) :
    Solo { s with loop := l } := by
  apply hS.of_resets (hS.moored.nextFunctor hf hphase hnext)
  · rw [resets_nextFunctor hnext, hf]
    rfl
  · exact EventLoop.pendingOf_nextFunctor _ hnext

/-- A cancelled timer was the only one, or none was. -/
theorem Solo.cancel (hS : Solo s) (sequence : Nat) :
    Solo { s with timers := s.timers.filter (· ≠ sequence) } where
  moored := { hS.moored with }
  left := hS.left
  waiting := by
    obtain hnone | ⟨hstate, t, hone⟩ := hS.waiting
    · left
      simp [hnone]
    · by_cases ht : t = sequence
      · left
        simp [hone, ht]
      · right
        exact ⟨hstate, t, by simp [hone, ht]⟩
  open_ := hS.open_
  events := hS.events
  failed := hS.failed

/-- The one open connection closes. -/
theorem Solo.close (hS : Solo s) {sockfd : Nat} (h : sockfd ∈ s.connections) :
    s.connections.filter (· ≠ sockfd) = [] ∧ s.connector.state_ = .kConnected ∧ s.timers = [] ∧
      (.io sockfd ∉ s.fresh → resets s.loop = []) := by
  obtain hnone | ⟨hstate, fd, hone, hreset, -⟩ := hS.open_
  · exact absurd (hnone ▸ h) (by simp)
  · rw [hone, List.mem_singleton] at h
    subst h
    refine ⟨by simp [hone], hstate, ?_, fun hpolled => ?_⟩
    · obtain hnone | ⟨hdisconnected, -⟩ := hS.waiting
      · exact hnone
      · exact absurd (hstate.symm.trans hdisconnected) (by decide)
    · by_contra hwaits
      exact hpolled (hreset hwaits)

/-- What the condition leaves for `startInLoop`: it runs in `kDisconnected`, and makes an attempt only
    when none is outstanding and, if it begins, no reset waits. -/
theorem Solo.launching (hS : Solo s) (halone : s.StartsAlone e) (h : Launching s e savedErrno s₁) :
    Solo s₁ ∧ s₁.Idle s₁.connector.connect_ savedErrno := by
  have hmoored := hS.moored.launching h
  cases h with
  | start _ => exact ⟨{ hS with moored := hmoored }, halone⟩
  | functor phase next =>
      have hidle := halone (by rw [next]; rfl)
      have hresets := resets_nextFunctor next
      refine ⟨hS.nextFunctor rfl phase next, hidle.1, fun hon hbegins => ?_, hidle.2.2⟩
      obtain ⟨hnone, htimers⟩ := hidle.2.1 hon hbegins
      exact ⟨hresets.symm.trans hnone, htimers⟩
  | expire _ active _ =>
      rename_i sequence _ _
      obtain hnone | ⟨hstate, t, hone⟩ := hS.waiting
      · exact absurd (hnone ▸ active) (by simp)
      · -- the timer that expires was the only one
        have hexpired : s.timers.filter (· ≠ sequence) = [] := by
          rw [hone, List.mem_singleton] at active
          simp [hone, active]
        refine ⟨hS.cancel sequence, hstate, fun hon hbegins => ⟨halone hon hbegins, hexpired⟩, ?_⟩
        exact fun _ _ => hexpired
  | restart phase opened polled =>
      rename_i sockfd
      obtain ⟨hclosed, hstate, htimers, hfree⟩ := hS.close opened
      have hqueued := hS.queueInLoop (f := .connection sockfd .connectDestroyed) rfl
      have hresets : resets (s.loop.queueInLoop (.connection sockfd .connectDestroyed)) = [] := by
        rw [resets_queueInLoop, hfree polled]
        rfl
      refine ⟨{
        moored := hmoored
        left := fun ch hch _ => hqueued.left ch hch (by rw [hstate]; decide)
        waiting := .inl htimers
        open_ := .inl hclosed
        events := fun rest hevent => absurd (phase.symm.trans hevent) (by simp)
        failed := hS.failed }, rfl, fun _ _ => ⟨hresets, htimers⟩, fun _ _ => htimers⟩

/-- `startInLoop` on an idle connector. -/
theorem Solo.launched (hS : Solo s) (hidle : s.Idle s.connector.connect_ savedErrno)
    (houtside : ∀ rest, s.phase = .event rest → s.user = true)
    (h : Launched s savedErrno s') : Solo s' := by
  obtain ⟨hstate, hbegin, hretry⟩ := hidle
  have hmoored := hS.moored.launched (fun hon hbegins => (hbegin hon hbegins).1) houtside h
  have hconnections : s.connections = [] := by
    obtain hnone | ⟨hconnected, -⟩ := hS.open_
    · exact hnone
    · exact absurd (hstate.symm.trans hconnected) (by decide)
  have hassert : Outcome.unmet (s.connector.state_ = .kDisconnected) "state_ == kDisconnected" = [] :=
    Outcome.unmet_eq_nil.mpr hstate
  cases h with
  | declined off => exact { hS with moored := hmoored, failed := by rw [hassert, hS.failed]; rfl }
  | began on begins old =>
      obtain ⟨hfree, htimers⟩ := hbegin on begins
      have hchannel : s.connector.channel_ = none := by
        cases hch : s.connector.channel_ with
        | none => rfl
        | some ch => exact absurd hfree (hS.left ch hch (by rw [hstate]; decide)).1
      have hgs := Connector.destroyChannel_outside (by simp [hchannel]) old
      exact {
        moored := hmoored
        left := fun _ _ hne => absurd rfl hne
        waiting := .inl htimers
        open_ := .inl hconnections
        events := fun rest hevent => ⟨(hS.events rest hevent).1, fun _ => by rintro ⟨⟩⟩
        failed := by
          rw [hassert, hgs, hS.failed, Outcome.unmet_eq_nil.mpr hchannel]
          rfl }
  | retried on retries =>
      exact {
        moored := hmoored
        left := fun ch hch _ => hS.left ch hch (by rw [hstate]; decide)
        waiting := .inr ⟨rfl, _, congrArg (· ++ [s.numCreated + 1]) (hretry on retries)⟩
        open_ := .inl hconnections
        events := fun rest hevent => ⟨(hS.events rest hevent).1, fun _ => by rintro ⟨⟩⟩
        failed := by rw [hassert, hS.failed]; rfl }
  | gaveUp on begins retries =>
      exact { hS with moored := hmoored, failed := by rw [hassert, hS.failed]; rfl }

/-- Up to its member function, an event that may end an attempt keeps the invariant; and after
    `handleWrite` the event has no other write callback. -/
theorem Solo.ending (hS : Solo s) (h : Ending s e writable s₁) : Solo s₁ ∧
    (writable = true → s₁.connector.state_ ≠ .kConnected ∧
      ∀ rest, s₁.phase = .event rest → .writeCallback ∉ rest) := by
  have hmoored := hS.moored.ending h
  cases h with
  | stopInLoop phase next =>
      exact ⟨hS.nextFunctor rfl phase next, fun h => absurd h (by decide)⟩
  | handleError phase free =>
      obtain ⟨hnodup, hstate⟩ := hS.events _ phase
      refine ⟨{ hS with
        moored := hmoored
        open_ := ?_
        events := ?_ }, fun h => absurd h (by decide)⟩
      · obtain hnone | ⟨hconnected, fd, hone, hfresh, -⟩ := hS.open_
        · exact .inl hnone
        · exact .inr ⟨hconnected, fd, hone, hfresh, by simp⟩
      · rintro rest ⟨⟩
        exact ⟨hnodup.of_cons, fun hmem => hstate (List.mem_cons_of_mem _ hmem)⟩
  | handleWrite phase free =>
      obtain ⟨hnodup, hstate⟩ := hS.events _ phase
      refine ⟨{ hS with
        moored := hmoored
        open_ := ?_
        events := ?_ }, fun _ => ⟨hstate List.mem_cons_self, ?_⟩⟩
      · obtain hnone | ⟨hconnected, fd, hone, hfresh, -⟩ := hS.open_
        · exact .inl hnone
        · exact .inr ⟨hconnected, fd, hone, hfresh, by simp⟩
      · rintro rest ⟨⟩
        exact ⟨hnodup.of_cons, fun hmem => hstate (List.mem_cons_of_mem _ hmem)⟩
      · rintro rest ⟨⟩
        exact (List.nodup_cons.mp hnodup).1

/-- The attempt is over and nothing is outstanding, but what the end of the attempt put there. -/
theorem Solo.leave (hS : Solo s) {channel : Channel} (hM : Moored s')
    (hbusy : s.connector.state_ = .kConnecting)
    (hloop : s'.loop = s.loop.queueInLoop (.connector (.resetChannel channel.fd_)))
    (hchannel : s'.connector.channel_ = some channel.disableAll.stop)
    (hwaiting : s'.timers = [] ∨ s'.connector.state_ = .kDisconnected ∧ ∃ t, s'.timers = [t])
    (hopen : s'.connections = [] ∨ s'.connector.state_ = .kConnected ∧
      s'.connections = [channel.fd_] ∧ .io channel.fd_ ∈ s'.fresh ∧ ∃ rest, s'.phase = .event rest)
    (hphase : s'.phase = s.phase)
    (hlast : ∀ rest, s.phase = .event rest → .writeCallback ∈ rest → s'.connector.state_ ≠ .kConnected)
    (hfailed : s'.failed = s.failed) : Solo s' where
  moored := hM
  left := by
    intro ch hch _
    rw [hchannel, Option.some.injEq] at hch
    refine ⟨?_, by rw [← hch]; rfl⟩
    rw [hloop, resets_queueInLoop, (hS.moored.connecting hbusy).1]
    exact List.cons_ne_nil _ _
  waiting := hwaiting
  open_ := by
    obtain hnone | ⟨hstate, hone, hfresh, rest, hevent⟩ := hopen
    · exact .inl hnone
    · exact .inr ⟨hstate, _, hone, fun _ => hfresh, fun h => absurd (hevent.symm.trans h) (by simp)⟩
  events := by
    intro rest hevent
    rw [hphase] at hevent
    exact ⟨(hS.events rest hevent).1, hlast rest hevent⟩
  failed := by rw [hfailed, hS.failed]

theorem Solo.ended (hS : Solo s) (hwritable : writable = true → ∃ rest, s.phase = .event rest)
    (hlast : writable = true → s.connector.state_ ≠ .kConnected ∧
      ∀ rest, s.phase = .event rest → .writeCallback ∉ rest)
    (h : Ended s writable s') : Solo s' := by
  have hmoored := hS.moored.ended hwritable h
  cases h with
  | ignored idle failed =>
      rename_i fs
      have hnone : fs = [] := by
        apply List.eq_nil_iff_forall_not_mem.mpr
        intro a ha
        obtain ⟨-, hne, hw⟩ := failed a ha
        cases hstate : s.connector.state_ with
        | kDisconnected => exact hne hstate
        | kConnecting => exact idle hstate
        | kConnected => exact (hlast hw).1 hstate
      exact { hS with moored := hmoored, failed := by rw [hnone, hS.failed]; rfl }
  | retried busy watched on =>
      obtain ⟨htimers, hconnections⟩ := hS.alone busy
      refine hS.leave hmoored busy rfl rfl (.inr ⟨rfl, s.numCreated + 1, ?_⟩) (.inl hconnections) rfl
        (fun _ _ _ => by rintro ⟨⟩) rfl
      exact congrArg (· ++ [s.numCreated + 1]) htimers
  | dropped busy watched off =>
      obtain ⟨htimers, hconnections⟩ := hS.alone busy
      exact hS.leave hmoored busy rfl rfl (.inl htimers) (.inl hconnections) rfl
        (fun _ _ _ => by rintro ⟨⟩) rfl
  | handedOver busy watched on connected =>
      rename_i channel
      obtain ⟨htimers, hconnections⟩ := hS.alone busy
      refine hS.leave hmoored busy rfl rfl (.inl htimers) (.inr ⟨rfl, ?_, ?_, hwritable connected⟩) rfl
        (fun rest hevent hmem => absurd hmem ((hlast connected).2 rest hevent)) rfl
      · exact congrArg (· ++ [channel.fd_]) hconnections
      · exact List.mem_append_right _ (List.mem_singleton_self _)
  | cancelled busy watched off connected =>
      obtain ⟨htimers, hconnections⟩ := hS.alone busy
      exact hS.leave hmoored busy rfl rfl (.inl htimers) (.inl hconnections) rfl
        (fun rest hevent hmem => absurd hmem ((hlast connected).2 rest hevent)) rfl

/-- What the condition leaves for the resets: attempts wait for them. -/
theorem Solo.resetsFirst (hS : Solo s) (halone : s.StartsAlone e) (h : Moves s e s') :
    s.ResetsFirst e := by
  apply resetsFirst_of_began hS.moored h
  intro savedErrno s₁ launching _ hon hbegins
  rw [← launching.resets_eq]
  exact ((hS.launching halone launching).2.2.1 hon hbegins).1

/-- **One step** that meets the condition keeps the invariant. -/
theorem Solo.step (hS : Solo s) (halone : s.StartsAlone e) (h : Moves s e s') : Solo s' := by
  have hmoored := hS.moored.step (hS.resetsFirst halone h) h
  cases h with
  | launch launching run =>
      obtain ⟨hsolo, hidle⟩ := hS.launching halone launching
      exact hsolo.launched hidle (fun _ hevent => launching.outside hevent) run
  | ends ending run =>
      obtain ⟨hsolo, hlast⟩ := hS.ending ending
      exact hsolo.ended ending.inside hlast run
  | start => exact { hS.queueInLoop (f := .connector .startInLoop) rfl with moored := hmoored }
  | stop _ =>
      have hqueued := hS.queueInLoop (f := .connector .stopInLoop) rfl
      exact { hqueued.cancel s.connector.timerId_ with moored := hmoored }
  | stopLater =>
      have hqueued := hS.queueInLoop (f := .connector .stopInLoop) rfl
      have hboth := hqueued.queueInLoop (f := .connector (.cancelInLoop s.connector.timerId_)) rfl
      exact { hboth with moored := hmoored }
  | doPendingFunctors phase =>
      -- what waits is taken into the batch: a reset that waited for the descriptor is in it now
      have hresets := resets_swapFunctors (hS.moored.settled (by rw [phase]; simp))
      refine { hS with moored := hmoored, left := ?_, open_ := ?_, events := by simp }
      · rw [hresets]
        exact hS.left
      · obtain hnone | ⟨hstate, fd, hone, hfresh, -⟩ := hS.open_
        · exact .inl hnone
        · refine .inr ⟨hstate, fd, hone, ?_, fun _ => rfl⟩
          rw [hresets]
          exact hfresh
  | resetChannel phase next old =>
      obtain ⟨hnone, hidle, rfl⟩ := hS.moored.resetChannel phase next old
      refine { hS with moored := hmoored, left := ?_, open_ := ?_, failed := ?_ }
      · intro ch hch
        exact absurd hch (by simp)
      · -- the descriptor that is open belongs to a connection, whose close has yet to run
        obtain hclosed | ⟨hstate, fd, hone, -, hpending⟩ := hS.open_
        · exact .inl hclosed
        · refine .inr ⟨hstate, fd, hone, fun hwaits => absurd hnone hwaits, fun _ => ?_⟩
          rw [EventLoop.pendingOf_nextFunctor _ next]
          exact hpending phase
      · rw [hS.failed]
        rfl
  | cancelInLoop phase next =>
      rename_i sequence _
      exact { (hS.nextFunctor rfl phase next).cancel sequence with moored := hmoored }
  | connection phase next => exact hS.nextFunctor rfl phase next
  | endFunctors phase done =>
      -- the batch has been run to its end, and the reset with it
      have hresets := resets_endFunctors done
      refine { hS with moored := hmoored, left := ?_, open_ := ?_, events := by simp }
      · rw [hresets]
        exact hS.left
      · obtain hnone | ⟨hstate, fd, hone, -, hpending⟩ := hS.open_
        · exact .inl hnone
        · refine .inr ⟨hstate, fd, hone, fun hwaits => absurd ?_ hwaits, by simp⟩
          rw [hresets, resets, EventLoop.waitingOf_of_rest _ done]
          exact hpending phase
  | handleEvent phase delivers =>
      -- a channel that libev reports is not stopped, so its attempt is on
      have hbusy : s.connector.state_ = .kConnecting := by
        unfold Delivers at delivers
        cases hch : s.connector.channel_ with
        | none => simp [hch] at delivers
        | some ch =>
            simp only [hch] at delivers
            by_contra hne
            have hstopped := (hS.left ch hch hne).2
            exact absurd (delivers.1.1.symm.trans hstopped) (by decide)
      refine { hS with moored := hmoored, left := ?_, open_ := ?_, events := ?_ }
      · intro _ _ hne
        exact absurd hbusy hne
      · exact .inl (hS.alone hbusy).2
      · rintro rest ⟨⟩
        exact ⟨Channel.handleEventWithGuard_nodup _, fun _ => by rw [hbusy]; exact (by simp)⟩
  | readCallback phase free =>
      obtain ⟨hnodup, hstate⟩ := hS.events _ phase
      refine { hS with moored := hmoored, open_ := ?_, events := ?_ }
      · -- outside the functors nothing is said about the batch
        obtain hnone | ⟨hconnected, fd, hone, hfresh, -⟩ := hS.open_
        · exact .inl hnone
        · exact .inr ⟨hconnected, fd, hone, hfresh, by simp⟩
      · rintro rest ⟨⟩
        exact ⟨hnodup.of_cons, fun hmem => hstate (List.mem_cons_of_mem _ hmem)⟩
  | leaveUser _ => exact { hS with moored := hmoored }
  | endEvent phase free =>
      refine { hS with moored := hmoored, left := ?_, open_ := ?_, events := by simp }
      · intro ch hch hne
        obtain ⟨old, hold, rfl⟩ := Option.map_eq_some_iff.mp hch
        exact hS.left old hold hne
      · obtain hnone | ⟨hconnected, fd, hone, hfresh, -⟩ := hS.open_
        · exact .inl hnone
        · exact .inr ⟨hconnected, fd, hone, hfresh, by simp⟩
  | handleClose phase opened polled =>
      rename_i sockfd _
      have hqueued := hS.queueInLoop (f := .connection sockfd .connectDestroyed) rfl
      exact { hqueued with moored := hmoored, open_ := .inl (hS.close opened).1 }
  | crash dangles =>
      obtain ⟨-, ch, hch, -⟩ := hS.moored.connecting dangles.1
      exact absurd (hch.symm.trans dangles.2) (by simp)

theorem reachableVia_solo (h : dialerMachine.ReachableVia StartsAlone s) : Solo s := by
  refine h.invariant (I := Solo) ?_ ?_
  · rintro s rfl
    exact solo_new
  · intro s e s' _ hS halone hstep
    exact hS.step halone (step_moves hstep)

/-! ## The condition is exact -/

/-- A `startInLoop` that leaves one attempt and no failed assert ran on an idle connector. -/
theorem Launched.idle_of_oneAttempt (h : Launched s savedErrno s') (hM : Moored s)
    (hattempt : OneAttempt s') : s.Idle s.connector.connect_ savedErrno := by
  have hone := hattempt.one
  refine ⟨h.idle hattempt.asserts, fun hon hbegins => ?_, fun hon hretries => ?_⟩
  · have hnull := (h.began_eq hon hbegins).2.2 hattempt.asserts.2
    constructor
    · obtain hfree | ⟨ch, hch, -⟩ := hM.own
      · exact hfree
      · exact absurd (hch.symm.trans hnull) (by simp)
    · cases h with
      | declined off => exact absurd (hon.symm.trans off) (by decide)
      | began _ _ _ =>
          -- the new attempt is the one
          apply List.length_eq_zero_iff.mp
          change 1 + s.timers.length + s.connections.length ≤ 1 at hone
          omega
      | retried _ retries =>
          have hfails := Connector.SavedErrno.begins_of_retries retries
          exact absurd (hbegins.symm.trans hfails) (by decide)
      | gaveUp _ begins _ => exact absurd (hbegins.symm.trans begins) (by decide)
  · cases h with
    | declined off => exact absurd (hon.symm.trans off) (by decide)
    | began _ begins _ =>
        have hfails := Connector.SavedErrno.begins_of_retries hretries
        exact absurd (begins.symm.trans hfails) (by decide)
    | retried _ _ =>
        apply List.length_eq_zero_iff.mp
        unfold outstanding at hone
        simp only [List.length_append, List.length_singleton] at hone
        omega
    | gaveUp _ _ retries => exact absurd (hretries.symm.trans retries) (by decide)

/-- A step that breaks the condition breaks the promise. -/
theorem startsAlone_of_oneAttempt (hS : Solo s) (h : Moves s e s') (hattempt : OneAttempt s') :
    s.StartsAlone e := by
  cases h with
  | launch launching run =>
      have hidle := run.idle_of_oneAttempt (hS.moored.launching launching) hattempt
      have hresets := launching.resets_eq
      cases launching with
      | start _ => exact hidle
      | functor _ _ =>
          intro _
          refine ⟨hidle.1, fun hon hbegins => ?_, hidle.2.2⟩
          obtain ⟨hnone, htimers⟩ := hidle.2.1 hon hbegins
          exact ⟨hresets.symm.trans hnone, htimers⟩
      | expire _ _ _ => exact fun hon hbegins => (hidle.2.1 hon hbegins).1
      | restart _ _ _ => trivial
  | ends ending run =>
      cases ending with
      | stopInLoop _ next => simp [StartsAlone, next]
      | handleError _ _ => trivial
      | handleWrite _ _ => trivial
  | crash dangles =>
      obtain ⟨-, ch, hch, -⟩ := hS.moored.connecting dangles.1
      exact absurd (hch.symm.trans dangles.2) (by simp)
  | resetChannel _ next _ => simp [StartsAlone, next]
  | cancelInLoop _ next => simp [StartsAlone, next]
  | connection _ next => simp [StartsAlone, next]
  | start => trivial
  | stop _ => trivial
  | stopLater => trivial
  | doPendingFunctors _ => trivial
  | endFunctors _ _ => trivial
  | handleEvent _ _ => trivial
  | readCallback _ _ => trivial
  | leaveUser _ => trivial
  | endEvent _ _ => trivial
  | handleClose _ _ _ => trivial

/-- **One attempt at a time.** In every run in which `start()` acts on an idle connector, and no retry
    timer that begins an attempt expires while a reset waits, at most one attempt is outstanding and no
    assert of the connector fails; and the next step keeps it so just when it meets the condition. -/
theorem one_attempt_at_a_time (h : dialerMachine.ReachableVia StartsAlone s) :
    OneAttempt s ∧ ∀ e s', s.step e = some s' → (OneAttempt s' ↔ s.StartsAlone e) := by
  have hS := reachableVia_solo h
  refine ⟨hS.oneAttempt, fun e s' hstep => ?_⟩
  have hmoves := step_moves hstep
  constructor
  · exact startsAlone_of_oneAttempt hS hmoves
  · intro halone
    exact (hS.step halone hmoves).oneAttempt

/-- `start()` while the retry timer of the last `start()` is active: the new attempt and the timer are
    both outstanding. -/
theorem two_attempts_at_a_time : ¬ ∀ s, dialerMachine.Reachable s → OneAttempt s := by
  intro hclaim
  have hrun : ((dialerMachine.run Dialer.new
      [.start .loop .ECONNREFUSED, .start .loop .EINPROGRESS]).map outstanding) = some 2 := by
    decide +kernel
  obtain ⟨s, hs, htwo⟩ := Option.map_eq_some_iff.mp hrun
  have hone := (hclaim s (Machine.run_reachable rfl hs)).one
  rw [htwo] at hone
  exact absurd hone (by decide)

/-- A refused attempt, its retry, the connection and the restart after it. -/
def retryThenRestart : List Event :=
  [.start (.other 1) .zero, .doPendingFunctors, .runFunctor .ECONNREFUSED, .endFunctors,
   .expire 1 .EINPROGRESS, .doPendingFunctors, .endFunctors, .handleEvent ⟨false, false, true⟩,
   .runCallback ⟨false, false⟩, .leaveUser, .endEvent, .doPendingFunctors, .runFunctor .zero,
   .endFunctors, .handleClose 1 true .EINPROGRESS]

theorem one_attempt_at_a_time_retryThenRestart :
    ∃ s, dialerMachine.run Dialer.new retryThenRestart = some s ∧
      s.connector.state_ = .kConnecting ∧ OneAttempt s := by
  have hrun : ((dialerMachine.run Dialer.new retryThenRestart).map
      fun s => s.connector.state_) = some .kConnecting := by
    decide +kernel
  obtain ⟨s, hs, hstate⟩ := Option.map_eq_some_iff.mp hrun
  have hreach : dialerMachine.ReachableVia StartsAlone s :=
    Machine.run_reachableVia (.init rfl) (by decide +kernel) hs
  exact ⟨s, hs, hstate, (one_attempt_at_a_time hreach).1⟩

end Dialer

end Simplev
