import Simplev.Net.Dialer

/-!
# `Net.Correctness.ChannelReset` — what the deferred `resetChannel` hits

`removeAndResetChannel` leaves the channel in `channel_` for a functor to reset. The functor resets
whatever `channel_` holds when it runs, so it hits the channel it was queued for only if no attempt was
begun in between. `stop()` followed by `start()` on another thread begins one: both work in one batch,
`stopInLoop` queues the reset for the next one, and `startInLoop` begins an attempt ahead of it.

`Moored` is the invariant of the runs in which every attempt waits for the reset (`ResetsFirst`).
-/

namespace Simplev

open Foundation

namespace Dialer

/-! ## The resets that wait -/

def Functor.reset? : Functor → Option Nat
  | .connector (.resetChannel sockfd) => some sockfd
  | _ => none

/-- The `resetChannel` functors that have not run, by the descriptor they were queued for. -/
def resets (l : EventLoop Functor) : List Nat := l.waitingOf Functor.reset?

section resets

variable {l l' : EventLoop Functor} {f : Functor}

theorem mem_resets {sockfd : Nat} :
    sockfd ∈ resets l ↔ .connector (.resetChannel sockfd) ∈ l.waiting := by
  unfold resets EventLoop.waitingOf
  rw [List.mem_filterMap]
  constructor
  · rintro ⟨f, hf, hreset⟩
    unfold Functor.reset? at hreset
    split at hreset
    · rw [Option.some.injEq] at hreset
      exact hreset ▸ hf
    · exact absurd hreset (by simp)
  · intro h
    exact ⟨_, h, rfl⟩

theorem resets_queueInLoop (l : EventLoop Functor) (f : Functor) :
    resets (l.queueInLoop f) = resets l ++ f.reset?.toList :=
  EventLoop.waitingOf_queueInLoop _ l f

theorem resets_swapFunctors (h : l.rest = []) : resets l.swapFunctors = resets l :=
  EventLoop.waitingOf_swapFunctors _ h

theorem resets_endFunctors (h : l.rest = []) : resets l.endFunctors = resets l :=
  EventLoop.waitingOf_endFunctors _ h

theorem resets_nextFunctor (h : l.nextFunctor = some (f, l')) :
    resets l = f.reset?.toList ++ resets l' :=
  EventLoop.waitingOf_nextFunctor _ h

end resets

/-! ## The invariant -/

/-- An attempt that gets a channel is begun only when no `resetChannel` waits. -/
def ResetsFirst (s : Dialer) (e : Event) : Prop :=
  match s.launch e with
  | some (savedErrno, s₁) =>
    s₁.connector.connect_ = true → savedErrno.begins = true → resets s.loop = []
  | none => True

instance (s : Dialer) (e : Event) : Decidable (s.ResetsFirst e) := by
  unfold ResetsFirst
  cases s.launch e with
  | none => infer_instance
  | some r => infer_instance

/-- **The invariant**: at most one reset waits, for the channel that `channel_` holds, and none while an
    attempt is on. -/
structure Moored (s : Dialer) : Prop where
  settled : s.phase ≠ .functors → s.loop.rest = []
  inside : s.user = true → resets s.loop ≠ [] ∧ ∃ rest, s.phase = .event rest
  handling : ∀ ch, s.connector.channel_ = some ch → ch.eventHandling_ = true →
    ∃ rest, s.phase = .event rest
  connecting : s.connector.state_ = .kConnecting →
    resets s.loop = [] ∧
      ∃ ch, s.connector.channel_ = some ch ∧ s.attempt = some ch.fd_ ∧ ch.IsWatched
  own : resets s.loop = [] ∨ ∃ ch, s.connector.channel_ = some ch ∧ resets s.loop = [ch.fd_]
  notNull : "px != 0" ∉ s.failed
  notInside : "!eventHandling_" ∉ s.failed

theorem moored_new : Moored Dialer.new where
  settled _ := rfl
  inside h := absurd h (by decide)
  handling ch h := absurd h (by simp [Dialer.new, Connector.new])
  connecting h := absurd h (by decide)
  own := .inl rfl
  notNull := by simp [Dialer.new]
  notInside := by simp [Dialer.new]

variable {s s' s₁ : Dialer} {e : Event} {savedErrno : Connector.SavedErrno} {writable : Bool}

/-- `startInLoop` runs outside `handleEvent`, or in `newConnectionCallback_`. -/
theorem Launching.outside (h : Launching s e savedErrno s₁) {rest : List EventCallback}
    (hevent : s₁.phase = .event rest) : s₁.user = true := by
  cases h with
  | start may =>
      rcases may rfl with h | h | h
      · exact absurd (h.symm.trans hevent) (by simp)
      · exact absurd (h.symm.trans hevent) (by simp)
      · exact h
  | functor phase _ => exact absurd (phase.symm.trans hevent) (by simp)
  | expire phase _ _ => exact absurd (phase.symm.trans hevent) (by simp)
  | restart phase _ _ => exact absurd (phase.symm.trans hevent) (by simp)

theorem Launching.resets_eq (h : Launching s e savedErrno s₁) : resets s₁.loop = resets s.loop := by
  cases h with
  | start _ => rfl
  | functor _ next =>
      rw [resets_nextFunctor next]
      rfl
  | expire _ _ _ => rfl
  | restart _ _ _ =>
      rw [resets_queueInLoop]
      exact List.append_nil _

/-- A loop with the same resets does as well. -/
theorem Moored.of_resets (hM : Moored s) {l : EventLoop Functor} (hresets : resets l = resets s.loop)
    (hrest : s.phase ≠ .functors → l.rest = []) : Moored { s with loop := l } where
  settled := hrest
  inside := by rw [hresets]; exact hM.inside
  handling := hM.handling
  connecting := by rw [hresets]; exact hM.connecting
  own := by rw [hresets]; exact hM.own
  notNull := hM.notNull
  notInside := hM.notInside

/-- Queueing anything but a reset. -/
theorem Moored.queueInLoop (hM : Moored s) {f : Functor} (hf : f.reset? = none) :
    Moored { s with loop := s.loop.queueInLoop f } :=
  hM.of_resets (by rw [resets_queueInLoop, hf]; exact List.append_nil _) hM.settled

/-- Popping anything but a reset. -/
theorem Moored.nextFunctor (hM : Moored s) {f : Functor} {l : EventLoop Functor}
    (hf : f.reset? = none) (hphase : s.phase = .functors) (hnext : s.loop.nextFunctor = some (f, l)) :
    Moored { s with loop := l } := by
  apply hM.of_resets
  · rw [resets_nextFunctor hnext, hf]
    rfl
  · exact fun hne => absurd hphase hne

/-- Up to its `startInLoop`, an event keeps the invariant. -/
theorem Moored.launching (hM : Moored s) (h : Launching s e savedErrno s₁) : Moored s₁ := by
  cases h with
  | start _ => exact { hM with }
  | functor phase next => exact hM.nextFunctor rfl phase next
  | expire _ _ _ => exact { hM with }
  | restart phase _ _ =>
      rename_i sockfd _ _
      have hqueued := hM.queueInLoop (f := .connection sockfd .connectDestroyed) rfl
      exact { hqueued with connecting := fun hc => absurd hc (by simp) }

/-- `startInLoop` keeps the invariant if no reset waits for the channel it makes. -/
theorem Moored.launched (hM : Moored s) (hfirst : s.connector.connect_ = true →
    savedErrno.begins = true → resets s.loop = [])
    (houtside : ∀ rest, s.phase = .event rest → s.user = true)
    (h : Launched s savedErrno s') : Moored s' := by
  cases h with
  | declined off =>
      exact { hM with
        notNull := by simp [Outcome.mem_unmet, hM.notNull]
        notInside := by simp [Outcome.mem_unmet, hM.notInside] }
  | began on begins old =>
      have hnone := hfirst on begins
      -- a handler would be `newConnectionCallback_`, and then a reset waits
      have hquiet : ∀ ch, s.connector.channel_ = some ch → ch.eventHandling_ = false := by
        intro ch hch
        apply Bool.eq_false_iff.mpr
        intro hhandling
        obtain ⟨rest, hevent⟩ := hM.handling ch hch hhandling
        exact (hM.inside (houtside rest hevent)).1 hnone
      have hgs := Connector.destroyChannel_outside hquiet old
      subst hgs
      exact {
        settled := hM.settled
        inside := hM.inside
        handling := by
          intro ch hch hhandling
          simp only [Connector.watching, Option.some.injEq] at hch
          rw [← hch] at hhandling
          exact absurd hhandling (by simp [Channel.new, Channel.enableWriting])
        connecting := fun _ => ⟨hnone, _, rfl, rfl, rfl, rfl⟩
        own := .inl hnone
        notNull := by simp [Outcome.mem_unmet, hM.notNull]
        notInside := by simp [Outcome.mem_unmet, hM.notInside] }
  | retried on retries =>
      exact { hM with
        connecting := fun hc => absurd hc (by simp [Connector.retrying])
        notNull := by simp [Outcome.mem_unmet, hM.notNull]
        notInside := by simp [Outcome.mem_unmet, hM.notInside] }
  | gaveUp on begins retries =>
      exact { hM with
        notNull := by simp [Outcome.mem_unmet, hM.notNull]
        notInside := by simp [Outcome.mem_unmet, hM.notInside] }

/-- A callback of the channel is about to run. -/
theorem Moored.callback (hM : Moored s) {cb : EventCallback} {rest : List EventCallback}
    (hphase : s.phase = .event (cb :: rest)) : Moored { s with phase := .event rest } :=
  { hM with
    settled := fun _ => hM.settled (by rw [hphase]; simp)
    inside := fun hu => ⟨(hM.inside hu).1, _, rfl⟩
    handling := fun _ _ _ => ⟨_, rfl⟩ }

/-- The loop goes from one phase to the next outside `handleEvent`, with the same resets waiting. -/
theorem Moored.turn (hM : Moored s) {phase : Phase} {loop : EventLoop Functor}
    (houtside : ∀ rest, s.phase ≠ .event rest) (hresets : resets loop = resets s.loop)
    (hsettled : phase ≠ .functors → loop.rest = []) {fresh : List Watcher} :
    Moored { s with phase := phase, loop := loop, fresh := fresh } :=
  { hM with
    settled := hsettled
    inside := fun hu => absurd (hM.inside hu).2 (by simpa using houtside)
    handling := fun ch hch hh => absurd (hM.handling ch hch hh) (by simpa using houtside)
    connecting := by rw [hresets]; exact hM.connecting
    own := by rw [hresets]; exact hM.own }

/-- An event marks the channel of an attempt. It is the same channel afterwards. -/
theorem Moored.marked (hM : Moored s) {m : Channel → Channel} (hfd : ∀ ch, (m ch).fd_ = ch.fd_)
    (hwatched : ∀ ch, ch.IsWatched → (m ch).IsWatched) :
    (s.connector.state_ = .kConnecting → resets s.loop = [] ∧
      ∃ ch, s.connector.channel_.map m = some ch ∧ s.attempt = some ch.fd_ ∧ ch.IsWatched) ∧
    (resets s.loop = [] ∨
      ∃ ch, s.connector.channel_.map m = some ch ∧ resets s.loop = [ch.fd_]) := by
  constructor
  · intro hc
    obtain ⟨hnone, ch, hch, hattempt, hch'⟩ := hM.connecting hc
    exact ⟨hnone, m ch, congrArg (Option.map m) hch, by rw [hfd]; exact hattempt, hwatched ch hch'⟩
  · rcases hM.own with hnone | ⟨ch, hch, hone⟩
    · exact .inl hnone
    · exact .inr ⟨m ch, congrArg (Option.map m) hch, by rw [hfd]; exact hone⟩

/-- Up to its member function, an event that may end an attempt keeps the invariant. -/
theorem Moored.ending (hM : Moored s) (h : Ending s e writable s₁) : Moored s₁ := by
  cases h with
  | stopInLoop phase next => exact hM.nextFunctor rfl phase next
  | handleError phase free => exact hM.callback phase
  | handleWrite phase free => exact hM.callback phase

/-- The functor queued at the end of an attempt is the only reset, and it is for the channel left in
    `channel_`. -/
theorem Moored.left (hM : Moored s) {channel : Channel}
    (hbusy : s.connector.state_ = .kConnecting) (hwatched : s.connector.channel_ = some channel)
    (hloop : s'.loop = s.loop.queueInLoop (.connector (.resetChannel channel.fd_)))
    (hchannel : s'.connector.channel_ = some channel.disableAll.stop)
    (hstate : s'.connector.state_ ≠ .kConnecting) (hphase : s'.phase = s.phase)
    (huser : s'.user = true → ∃ rest, s.phase = .event rest) (hfailed : s'.failed = s.failed) :
    Moored s' := by
  have hresets : resets s'.loop = [channel.fd_] := by
    rw [hloop, resets_queueInLoop, (hM.connecting hbusy).1]
    rfl
  exact {
    settled := by rw [hphase, hloop]; exact hM.settled
    inside := fun hu => ⟨by rw [hresets]; exact List.cons_ne_nil _ _, by rw [hphase]; exact huser hu⟩
    handling := by
      intro ch hch hhandling
      rw [hchannel, Option.some.injEq] at hch
      rw [hphase]
      exact hM.handling channel hwatched (by rw [← hch] at hhandling; exact hhandling)
    connecting := fun hc => absurd hc hstate
    own := .inr ⟨_, hchannel, hresets⟩
    notNull := by rw [hfailed]; exact hM.notNull
    notInside := by rw [hfailed]; exact hM.notInside }

theorem Moored.ended (hM : Moored s) (hwritable : writable = true → ∃ rest, s.phase = .event rest)
    (h : Ended s writable s') : Moored s' := by
  cases h with
  | ignored idle failed =>
      rename_i fs
      have hother : ∀ a, a ∈ fs → a ≠ "px != 0" ∧ a ≠ "!eventHandling_" := by
        intro a ha
        rw [(failed a ha).1]
        decide
      exact { hM with
        notNull := by
          rw [List.mem_append, not_or]
          exact ⟨hM.notNull, fun ha => (hother _ ha).1 rfl⟩
        notInside := by
          rw [List.mem_append, not_or]
          exact ⟨hM.notInside, fun ha => (hother _ ha).2 rfl⟩ }
  | retried busy watched on =>
      exact hM.left busy watched rfl rfl (by rintro ⟨⟩) rfl
        (fun hu => (hM.inside hu).2) rfl
  | dropped busy watched off =>
      exact hM.left busy watched rfl rfl (by rintro ⟨⟩) rfl
        (fun hu => (hM.inside hu).2) rfl
  | handedOver busy watched on connected =>
      exact hM.left busy watched rfl rfl (by rintro ⟨⟩) rfl
        (fun _ => hwritable connected) rfl
  | cancelled busy watched off connected =>
      exact hM.left busy watched rfl rfl (by rintro ⟨⟩) rfl
        (fun hu => (hM.inside hu).2) rfl

theorem Ending.inside (h : Ending s e writable s₁) (hw : writable = true) :
    ∃ rest, s₁.phase = .event rest := by
  cases h with
  | stopInLoop _ _ => exact absurd hw (by decide)
  | handleError _ _ => exact absurd hw (by decide)
  | handleWrite _ _ => exact ⟨_, rfl⟩

/-- The `resetChannel` that runs is the only one; it runs after its attempt, outside `handleEvent`. -/
theorem Moored.resetChannel (hM : Moored s) {sockfd : Nat} {l : EventLoop Functor}
    {destroyed : List Connector.Action} {fs : List String} (hphase : s.phase = .functors)
    (hnext : s.loop.nextFunctor = some (.connector (.resetChannel sockfd), l))
    (hold : s.connector.destroyChannel = .ok destroyed fs) :
    resets l = [] ∧ s.connector.state_ ≠ .kConnecting ∧ fs = [] := by
  have hresets := resets_nextFunctor hnext
  simp only [Functor.reset?, Option.toList_some, List.singleton_append] at hresets
  obtain hnone | ⟨ch, hch, hone⟩ := hM.own
  · exact absurd (hnone.symm.trans hresets) (by simp)
  · rw [hone, List.cons.injEq] at hresets
    refine ⟨hresets.2.symm, fun hbusy => ?_, ?_⟩
    · exact absurd ((hM.connecting hbusy).1.symm.trans hone) (by simp)
    · apply Connector.destroyChannel_outside _ hold
      intro ch hch
      apply Bool.eq_false_iff.mpr
      intro hhandling
      obtain ⟨rest, hevent⟩ := hM.handling ch hch hhandling
      exact absurd (hphase.symm.trans hevent) (by simp)

/-- **One step** in which every attempt waits for the reset keeps the invariant. -/
theorem Moored.step (hM : Moored s) (hfirst : s.ResetsFirst e) (h : Moves s e s') : Moored s' := by
  cases h with
  | launch launching run =>
      rw [ResetsFirst, launching.launch_eq] at hfirst
      refine (hM.launching launching).launched ?_ (fun rest hevent => launching.outside hevent) run
      intro hon hbegins
      rw [launching.resets_eq]
      exact hfirst hon hbegins
  | ends ending run => exact (hM.ending ending).ended ending.inside run
  | start => exact { hM.queueInLoop (f := .connector .startInLoop) rfl with }
  | stop may => exact { hM.queueInLoop (f := .connector .stopInLoop) rfl with }
  | stopLater =>
      have hqueued := hM.queueInLoop (f := .connector .stopInLoop) rfl
      exact { hqueued.queueInLoop (f := .connector (.cancelInLoop _)) rfl with }
  | doPendingFunctors phase =>
      have hresets := resets_swapFunctors (hM.settled (by rw [phase]; simp))
      exact hM.turn (by simp [phase]) hresets fun hne => absurd rfl hne
  | resetChannel phase next old =>
      obtain ⟨hnone, hidle, rfl⟩ := hM.resetChannel phase next old
      exact {
        settled := fun hne => absurd phase hne
        inside := fun hu => absurd (hM.inside hu).2 (by simp [phase])
        handling := fun ch hch => absurd hch (by simp)
        connecting := fun hc => absurd hc hidle
        own := .inl hnone
        notNull := by simpa using hM.notNull
        notInside := by simpa using hM.notInside }
  | cancelInLoop phase next => exact { hM.nextFunctor rfl phase next with }
  | connection phase next => exact hM.nextFunctor rfl phase next
  | endFunctors phase done =>
      exact hM.turn (by simp [phase]) (resets_endFunctors done) fun _ => rfl
  | handleEvent phase delivers =>
      have hmarked := hM.marked (m := Channel.beginEvent) (fun _ => rfl) fun _ hch => hch
      exact { hM with
        settled := fun _ => hM.settled (by rw [phase]; simp)
        inside := fun hu => ⟨(hM.inside hu).1, _, rfl⟩
        handling := fun _ _ _ => ⟨_, rfl⟩
        connecting := hmarked.1
        own := hmarked.2 }
  | readCallback phase free => exact hM.callback phase
  | leaveUser inside => exact { hM with inside := fun hu => absurd hu (by simp) }
  | endEvent phase free =>
      have hmarked := hM.marked (m := Channel.endEvent) (fun _ => rfl) fun _ hch => hch
      exact { hM with
        settled := fun _ => hM.settled (by rw [phase]; simp)
        inside := fun hu => absurd hu (by rw [free]; decide)
        handling := by
          intro ch hch hhandling
          obtain ⟨old, -, rfl⟩ := Option.map_eq_some_iff.mp hch
          exact absurd hhandling (by simp [Channel.endEvent])
        connecting := hmarked.1
        own := hmarked.2 }
  | handleClose phase opened polled =>
      exact { hM.queueInLoop (f := .connection _ .connectDestroyed) rfl with }
  | crash dangles =>
      obtain ⟨-, ch, hch, -⟩ := hM.connecting dangles.1
      exact absurd (hch.symm.trans dangles.2) (by simp)

/-- Runs in which every attempt waits for the reset stay moored. -/
theorem reachableVia_moored (h : dialerMachine.ReachableVia ResetsFirst s) : Moored s := by
  refine h.invariant (I := Moored) ?_ ?_
  · rintro s rfl
    exact moored_new
  · intro s e s' _ hM hfirst hstep
    exact hM.step hfirst (step_moves hstep)

/-! ## The promise -/

/-- **A reset hits its own channel**: an attempt that is on has its channel, on its own descriptor, and
    no reset waits; a reset that waits finds the channel it was queued for; no null `channel_` was used
    and no channel was destroyed inside its `handleEvent`. -/
structure ResetsOwn (s : Dialer) : Prop where
  connecting : s.connector.state_ = .kConnecting →
    (∃ ch, s.connector.channel_ = some ch ∧ s.attempt = some ch.fd_) ∧
      ∀ sockfd, .connector (.resetChannel sockfd) ∉ s.loop.waiting
  own : ∀ sockfd, .connector (.resetChannel sockfd) ∈ s.loop.waiting →
    ∃ ch, s.connector.channel_ = some ch ∧ ch.fd_ = sockfd
  notNull : "px != 0" ∉ s.failed
  notInside : "!eventHandling_" ∉ s.failed

theorem Moored.resetsOwn (hM : Moored s) : ResetsOwn s where
  connecting hc := by
    obtain ⟨hnone, ch, hch, hattempt, -⟩ := hM.connecting hc
    refine ⟨⟨ch, hch, hattempt⟩, fun sockfd hmem => ?_⟩
    rw [← mem_resets, hnone] at hmem
    exact absurd hmem (by simp)
  own sockfd hmem := by
    rw [← mem_resets] at hmem
    obtain hnone | ⟨ch, hch, hone⟩ := hM.own
    · exact absurd (hnone ▸ hmem) (by simp)
    · rw [hone, List.mem_singleton] at hmem
      exact ⟨ch, hch, hmem.symm⟩
  notNull := hM.notNull
  notInside := hM.notInside

/-- Only the beginning of an attempt has to wait for the resets. -/
theorem resetsFirst_of_began (hM : Moored s) (h : Moves s e s')
    (hbegan : ∀ savedErrno s₁, Launching s e savedErrno s₁ → Launched s₁ savedErrno s' →
      s₁.connector.connect_ = true → savedErrno.begins = true → resets s.loop = []) :
    s.ResetsFirst e := by
  unfold ResetsFirst
  cases h with
  | launch launching run =>
      rw [launching.launch_eq]
      exact hbegan _ _ launching run
  | crash dangles =>
      obtain ⟨-, ch, hch, -⟩ := hM.connecting dangles.1
      exact absurd (hch.symm.trans dangles.2) (by simp)
  | ends ending run =>
      cases ending with
      | stopInLoop _ next => simp [launch, next]
      | handleError _ _ => trivial
      | handleWrite _ _ => trivial
  | resetChannel _ next _ => simp [launch, next]
  | cancelInLoop _ next => simp [launch, next]
  | connection _ next => simp [launch, next]
  | start => trivial
  | stop _ => trivial
  | stopLater => trivial
  | doPendingFunctors _ => trivial
  | endFunctors _ _ => trivial
  | handleEvent _ _ => trivial
  | readCallback _ _ => trivial
  | leaveUser _ => trivial
  | endEvent _ _ => trivial
  | handleClose _ _ _ => trivial

/-- `startInLoop` with `connect_` on, and a `connect(2)` that goes on. -/
theorem Launched.began_eq (h : Launched s savedErrno s') (hon : s.connector.connect_ = true)
    (hbegins : savedErrno.begins = true) : s'.connector = s.connector.watching s.nextFd ∧
      s'.loop = s.loop ∧ ("!channel_" ∉ s'.failed → s.connector.channel_ = none) := by
  cases h with
  | declined off => exact absurd (hon.symm.trans off) (by decide)
  | began _ _ _ =>
      refine ⟨rfl, rfl, fun hassert => ?_⟩
      by_contra hchannel
      apply hassert
      simp [Outcome.mem_unmet, hchannel]
  | retried _ retries =>
      have hfails := Connector.SavedErrno.begins_of_retries retries
      exact absurd (hbegins.symm.trans hfails) (by decide)
  | gaveUp _ begins _ => exact absurd (hbegins.symm.trans begins) (by decide)

/-- An attempt begun while a reset waits is one that the reset will hit. -/
theorem resetsFirst_of_resetsOwn (hM : Moored s) (h : Moves s e s') (hown : ResetsOwn s') :
    s.ResetsFirst e := by
  apply resetsFirst_of_began hM h
  intro savedErrno s₁ launching run hon hbegins
  obtain ⟨hconnector, hloop, -⟩ := run.began_eq hon hbegins
  rw [← launching.resets_eq, ← hloop]
  apply List.eq_nil_iff_forall_not_mem.mpr
  intro sockfd hmem
  exact (hown.connecting (by rw [hconnector]; rfl)).2 sockfd (mem_resets.mp hmem)

/-- **The deferred reset.** In every run in which no attempt is begun while a reset waits, every reset
    hits its own channel; and the next step keeps it so just when it begins no such attempt. -/
theorem reset_hits_own_channel (h : dialerMachine.ReachableVia ResetsFirst s) :
    ResetsOwn s ∧ ∀ e s', s.step e = some s' → (ResetsOwn s' ↔ s.ResetsFirst e) := by
  have hM := reachableVia_moored h
  refine ⟨hM.resetsOwn, fun e s' hstep => ?_⟩
  have hmoves := step_moves hstep
  constructor
  · exact resetsFirst_of_resetsOwn hM hmoves
  · intro hfirst
    exact (hM.step hfirst hmoves).resetsOwn

/-- Another thread calls `stop()` and `start()` while an attempt is on, and one batch runs both. -/
def stopThenStart : List Event :=
  [.start .loop .EINPROGRESS, .doPendingFunctors, .endFunctors, .stop (.other 1),
   .start (.other 1) .zero, .doPendingFunctors, .runFunctor .zero, .runFunctor .zero,
   .runFunctor .EINPROGRESS]

/-- The reset of the first attempt waits for the channel of the second. -/
theorem reset_hits_later_attempt :
    ¬ ∀ s, dialerMachine.Reachable s → ResetsOwn s := by
  intro hclaim
  have hrun : ((dialerMachine.run Dialer.new stopThenStart).map
      fun s => (s.connector.state_, s.connector.channel_.map Channel.fd_,
        decide (.connector (.resetChannel 0) ∈ s.loop.waiting))) =
      some (.kConnecting, some 1, true) := by
    decide +kernel
  obtain ⟨s, hs, hvalues⟩ := Option.map_eq_some_iff.mp hrun
  simp only [Prod.mk.injEq, decide_eq_true_eq] at hvalues
  obtain ⟨hstate, hchannel, hwaits⟩ := hvalues
  exact ((hclaim s (Machine.run_reachable rfl hs)).connecting hstate).2 0 hwaits

/-- An attempt that fails, its reset and the retry. -/
def failThenRetry : List Event :=
  [.start .loop .EINPROGRESS, .doPendingFunctors, .endFunctors, .handleEvent ⟨true, false, true⟩,
   .runCallback ⟨true, false⟩, .runCallback ⟨true, false⟩, .endEvent, .doPendingFunctors,
   .runFunctor .zero, .endFunctors, .expire 1 .EINPROGRESS]

theorem reset_hits_own_channel_failThenRetry :
    ∃ s, dialerMachine.run Dialer.new failThenRetry = some s ∧
      s.connector.state_ = .kConnecting ∧ s.attempt = some 1 ∧ ResetsOwn s := by
  have hrun : ((dialerMachine.run Dialer.new failThenRetry).map
      fun s => (s.connector.state_, s.attempt)) = some (.kConnecting, some 1) := by
    decide +kernel
  obtain ⟨s, hs, hvalues⟩ := Option.map_eq_some_iff.mp hrun
  rw [Prod.mk.injEq] at hvalues
  have hreach : dialerMachine.ReachableVia ResetsFirst s :=
    Machine.run_reachableVia (.init rfl) (by decide +kernel) hs
  exact ⟨s, hs, hvalues.1, hvalues.2, (reset_hits_own_channel hreach).1⟩

end Dialer

end Simplev
