import Simplev.Net.Correctness.ChannelReset

/-!
# `Net.Correctness.Descriptors` — every socket of a connector is in one place

`connect` makes a socket, and six paths end its attempt: two kinds of `connect(2)` errors, an error or a
self-connect found by `handleWrite`, its success with `connect_` off, `handleError` and `stopInLoop`. Each
closes the socket once or hands it over once, as long as the connector's own asserts hold; several of the
paths may be taken in one event, and then only the first of them finds the attempt still on.
-/

namespace Simplev

open Foundation

/-- The descriptor the connector works on. -/
def Connector.owned (c : Connector) : Option Nat :=
  if c.state_ = .kConnecting then c.channel_.map Channel.fd_ else none

theorem Connector.owned_of_idle {c : Connector} (h : c.state_ ≠ .kConnecting) : c.owned = none :=
  if_neg h

theorem Connector.owned_of_busy {c : Connector} {channel : Channel} (hbusy : c.state_ = .kConnecting)
    (hwatched : c.channel_ = some channel) : c.owned = some channel.fd_ := by
  unfold Connector.owned
  rw [if_pos hbusy, hwatched]
  rfl

theorem Connector.owned_map {c : Connector} (f : Channel → Channel) (hf : ∀ ch, (f ch).fd_ = ch.fd_) :
    { c with channel_ := c.channel_.map f }.owned = c.owned := by
  unfold Connector.owned
  have hsame : Channel.fd_ ∘ f = Channel.fd_ := funext hf
  rw [Option.map_map, hsame]

namespace Dialer

/-- The asserts written in `Connector.cc` held so far. -/
def AssertsHold (s : Dialer) : Prop :=
  "state_ == kDisconnected" ∉ s.failed ∧ "!channel_" ∉ s.failed

/-- The places a socket can be in, with what is there. -/
def places (s : Dialer) : List Nat := s.connector.owned.toList ++ (s.closed ++ s.handed)

/-- **Conservation**: each socket created is in one place once, watched while the attempt is on; and an
    idle connector owns none. -/
structure Conserved (s : Dialer) : Prop where
  once : ∀ fd, s.places.count fd = if fd < s.nextFd then 1 else 0
  watched : ∀ fd, s.connector.owned = some fd →
    ∃ ch, s.connector.channel_ = some ch ∧ ch.fd_ = fd ∧ ch.IsWatched
  idle : s.connector.state_ = .kDisconnected →
    ∀ fd, fd < s.nextFd → s.closed.count fd + s.handed.count fd = 1

variable {s s' s₁ : Dialer} {e : Event} {savedErrno : Connector.SavedErrno} {writable : Bool}

/-- Each socket created is in one place. -/
def Counted (s : Dialer) : Prop := ∀ fd, s.places.count fd = if fd < s.nextFd then 1 else 0

/-- A new socket that goes to one place. -/
theorem Counted.create (hC : Counted s) (hnext : s'.nextFd = s.nextFd + 1)
    (hplaces : ∀ fd, s'.places.count fd = s.places.count fd + [s.nextFd].count fd) : Counted s' := by
  intro fd
  have hfd := hC fd
  rw [hplaces, hnext, hfd]
  rcases Nat.lt_trichotomy fd s.nextFd with hlt | rfl | hgt
  · have hother : [s.nextFd].count fd = 0 := List.count_eq_zero.mpr (by simp; omega)
    rw [if_pos hlt, if_pos (by omega), hother]
  · rw [if_neg (by omega), if_pos (by omega), List.count_singleton_self]
  · have hother : [s.nextFd].count fd = 0 := List.count_eq_zero.mpr (by simp; omega)
    rw [if_neg (by omega), if_neg (by omega), hother]

/-- No socket is created, and those there are only change places. -/
theorem Counted.move (hC : Counted s) (hnext : s'.nextFd = s.nextFd)
    (hplaces : ∀ fd, s'.places.count fd = s.places.count fd) : Counted s' := by
  intro fd
  rw [hplaces, hnext]
  exact hC fd

theorem Counted.launched (hC : Counted s) (hasserts : AssertsHold s') (h : Launched s savedErrno s') :
    Counted s' := by
  have hidle : s.connector.state_ = .kDisconnected := by
    by_contra hne
    apply hasserts.1
    cases h with
    | declined _ => simp [Outcome.mem_unmet, hne]
    | began _ _ _ => simp [Outcome.mem_unmet, hne]
    | retried _ _ => simp [Outcome.mem_unmet, hne]
    | gaveUp _ _ _ => simp [Outcome.mem_unmet, hne]
  have howned : s.connector.owned = none := Connector.owned_of_idle (by rw [hidle]; decide)
  cases h with
  | declined off => exact hC.move rfl fun _ => rfl
  | began on begins old =>
      apply hC.create rfl
      intro fd
      have hnew : (s.connector.watching s.nextFd).owned = some s.nextFd := rfl
      simp only [places, hnew, howned, List.count_append, Option.toList_some, Option.toList_none]
      rw [List.count_nil]
      omega
  | retried on retries =>
      apply hC.create rfl
      intro fd
      have hnew : (s.connector.retrying (s.numCreated + 1)).owned = none := rfl
      simp only [places, hnew, howned, List.count_append, Option.toList_none]
      omega
  | gaveUp on begins retries =>
      apply hC.create rfl
      intro fd
      simp only [places, List.count_append]
      omega

/-- The socket of the attempt is closed or handed over. -/
theorem Counted.left (hC : Counted s) {channel : Channel} (hbusy : s.connector.state_ = .kConnecting)
    (hwatched : s.connector.channel_ = some channel) (hnext : s'.nextFd = s.nextFd)
    (hidle : s'.connector.owned = none)
    (hmoved : ∀ fd, s'.closed.count fd + s'.handed.count fd =
      s.closed.count fd + s.handed.count fd + [channel.fd_].count fd) : Counted s' := by
  refine hC.move hnext fun fd => ?_
  have hfd := hmoved fd
  simp only [places, hidle, Connector.owned_of_busy hbusy hwatched, List.count_append,
    Option.toList_some, Option.toList_none, List.count_nil]
  omega

theorem Counted.ended (hC : Counted s) (h : Ended s writable s') : Counted s' := by
  cases h with
  | ignored idle failed => exact hC.move rfl fun _ => rfl
  | retried busy watched on =>
      refine hC.left busy watched rfl rfl fun fd => ?_
      simp only [List.count_append]
      omega
  | dropped busy watched off =>
      refine hC.left busy watched rfl rfl fun fd => ?_
      simp only [List.count_append]
      omega
  | handedOver busy watched on connected =>
      refine hC.left busy watched rfl rfl fun fd => ?_
      simp only [List.count_append]
      omega
  | cancelled busy watched off connected =>
      refine hC.left busy watched rfl rfl fun fd => ?_
      simp only [List.count_append]
      omega

/-! ## Runs in which the asserts hold -/

/-- **The invariant** while the asserts hold: a connection that is open is the only one, and the
    connector is done with its attempt. -/
structure Kept (s : Dialer) : Prop where
  moored : Moored s
  counted : Counted s
  open_ : s.connections = [] ∨ s.connector.state_ = .kConnected ∧ ∃ fd, s.connections = [fd]

theorem kept_new : Kept Dialer.new where
  moored := moored_new
  counted _ := rfl
  open_ := .inl rfl

theorem AssertsHold.before (h : AssertsHold s') (hmoves : Moves s e s') : AssertsHold s := by
  obtain ⟨fs, hfailed⟩ := hmoves.failed_append
  rw [AssertsHold, hfailed, List.mem_append, List.mem_append, not_or, not_or] at h
  exact ⟨h.1.1, h.2.1⟩

/-- `startInLoop` ran in `kDisconnected`. -/
theorem Launched.idle (h : Launched s savedErrno s') (hasserts : AssertsHold s') :
    s.connector.state_ = .kDisconnected := by
  by_contra hne
  apply hasserts.1
  cases h with
  | declined _ => simp [Outcome.mem_unmet, hne]
  | began _ _ _ => simp [Outcome.mem_unmet, hne]
  | retried _ _ => simp [Outcome.mem_unmet, hne]
  | gaveUp _ _ _ => simp [Outcome.mem_unmet, hne]

/-- A connection that is not the only one does not exist. -/
theorem Kept.close (hK : Kept s) {sockfd : Nat} (h : sockfd ∈ s.connections) :
    s.connections.filter (· ≠ sockfd) = [] ∧ s.connector.state_ = .kConnected := by
  obtain hnone | ⟨hstate, fd, hone⟩ := hK.open_
  · exact absurd (hnone ▸ h) (by simp)
  · rw [hone, List.mem_singleton] at h
    subst h
    refine ⟨?_, hstate⟩
    rw [hone]
    simp

/-- Up to its `startInLoop`, an event keeps the invariant. -/
theorem Kept.launching (hK : Kept s) (h : Launching s e savedErrno s₁) : Kept s₁ := by
  have hmoored := hK.moored.launching h
  cases h with
  | start _ => exact ⟨hmoored, hK.counted.move rfl fun _ => rfl, hK.open_⟩
  | functor _ _ => exact ⟨hmoored, hK.counted.move rfl fun _ => rfl, hK.open_⟩
  | expire _ _ _ => exact ⟨hmoored, hK.counted.move rfl fun _ => rfl, hK.open_⟩
  | restart phase opened polled =>
      obtain ⟨hclosed, hstate⟩ := hK.close opened
      refine ⟨hmoored, hK.counted.move rfl fun fd => ?_, .inl hclosed⟩
      -- no attempt is on while the connection is open
      have howned : s.connector.owned = none := Connector.owned_of_idle (by rw [hstate]; decide)
      simp only [places, howned]
      rfl

theorem Kept.launched (hK : Kept s) (hasserts : AssertsHold s')
    (houtside : ∀ rest, s.phase = .event rest → s.user = true)
    (h : Launched s savedErrno s') : Kept s' := by
  have hidle := h.idle hasserts
  have hnone : s.connections = [] := by
    obtain hnone | ⟨hstate, -⟩ := hK.open_
    · exact hnone
    · exact absurd (hidle.symm.trans hstate) (by decide)
  refine ⟨hK.moored.launched ?_ houtside h, hK.counted.launched hasserts h, .inl ?_⟩
  · intro hon hbegins
    obtain hfree | ⟨ch, hch, -⟩ := hK.moored.own
    · exact hfree
    · have hnull := (h.began_eq hon hbegins).2.2 hasserts.2
      exact absurd (hch.symm.trans hnull) (by simp)
  · cases h <;> exact hnone

theorem Kept.ended (hK : Kept s) (hwritable : writable = true → ∃ rest, s.phase = .event rest)
    (h : Ended s writable s') : Kept s' := by
  refine ⟨hK.moored.ended hwritable h, hK.counted.ended h, ?_⟩
  -- an attempt that is on has no connection beside it
  have hbusy : s.connector.state_ = .kConnecting → s.connections = [] := by
    intro hbusy
    obtain hnone | ⟨hstate, -⟩ := hK.open_
    · exact hnone
    · exact absurd (hbusy.symm.trans hstate) (by decide)
  cases h with
  | ignored idle failed => exact hK.open_
  | retried busy watched on => exact .inl (hbusy busy)
  | dropped busy watched off => exact .inl (hbusy busy)
  | handedOver busy watched on connected =>
      rename_i channel
      refine .inr ⟨rfl, channel.fd_, ?_⟩
      exact congrArg (· ++ [channel.fd_]) (hbusy busy)
  | cancelled busy watched off connected => exact .inl (hbusy busy)

/-- **One step** that fails no assert of the connector keeps the invariant. -/
theorem Kept.step (hK : Kept s) (hasserts : AssertsHold s') (h : Moves s e s') : Kept s' := by
  have hfirst : s.ResetsFirst e := by
    apply resetsFirst_of_began hK.moored h
    intro savedErrno s₁ launching run hon hbegins
    rw [← launching.resets_eq]
    obtain hfree | ⟨ch, hch, -⟩ := (hK.launching launching).moored.own
    · exact hfree
    · have hnull := (run.began_eq hon hbegins).2.2 hasserts.2
      exact absurd (hch.symm.trans hnull) (by simp)
  have hmoored := hK.moored.step hfirst h
  cases h with
  | launch launching run =>
      exact (hK.launching launching).launched hasserts (fun _ hevent => launching.outside hevent) run
  | ends ending run =>
      rename_i s₁
      have hending : Kept s₁ := by
        refine ⟨hK.moored.ending ending, ?_, ?_⟩
        · cases ending <;> exact hK.counted.move rfl fun _ => rfl
        · cases ending <;> exact hK.open_
      exact hending.ended ending.inside run
  | resetChannel phase next old =>
      refine ⟨hmoored, hK.counted.move rfl fun fd => ?_, hK.open_⟩
      -- a reset waits, so no attempt is on
      obtain ⟨-, hidle, -⟩ := hK.moored.resetChannel phase next old
      have hreset : { s.connector with channel_ := none }.owned = none :=
        Connector.owned_of_idle hidle
      simp only [places, hreset, Connector.owned_of_idle hidle]
  | handleEvent phase delivers =>
      refine ⟨hmoored, hK.counted.move rfl fun fd => ?_, hK.open_⟩
      simp only [places, Connector.owned_map Channel.beginEvent (fun _ => rfl)]
  | endEvent phase free =>
      refine ⟨hmoored, hK.counted.move rfl fun fd => ?_, hK.open_⟩
      simp only [places, Connector.owned_map Channel.endEvent (fun _ => rfl)]
  | handleClose phase opened polled =>
      exact ⟨hmoored, hK.counted.move rfl fun _ => rfl, .inl (hK.close opened).1⟩
  | start => exact ⟨hmoored, hK.counted.move rfl fun _ => rfl, hK.open_⟩
  | stop _ => exact ⟨hmoored, hK.counted.move rfl fun _ => rfl, hK.open_⟩
  | stopLater => exact ⟨hmoored, hK.counted.move rfl fun _ => rfl, hK.open_⟩
  | doPendingFunctors _ => exact ⟨hmoored, hK.counted.move rfl fun _ => rfl, hK.open_⟩
  | cancelInLoop _ _ => exact ⟨hmoored, hK.counted.move rfl fun _ => rfl, hK.open_⟩
  | connection _ _ => exact ⟨hmoored, hK.counted.move rfl fun _ => rfl, hK.open_⟩
  | endFunctors _ _ => exact ⟨hmoored, hK.counted.move rfl fun _ => rfl, hK.open_⟩
  | readCallback _ _ => exact ⟨hmoored, hK.counted.move rfl fun _ => rfl, hK.open_⟩
  | leaveUser _ => exact ⟨hmoored, hK.counted.move rfl fun _ => rfl, hK.open_⟩
  | crash _ => exact ⟨hmoored, hK.counted.move rfl fun _ => rfl, hK.open_⟩

/-- The asserts of the connector are enough for the invariant. -/
theorem reachable_kept (h : dialerMachine.Reachable s) : AssertsHold s → Kept s := by
  refine h.invariant (I := fun s => AssertsHold s → Kept s) ?_ ?_
  · rintro s rfl _
    exact kept_new
  · intro s e s' _ hkept _ hstep hasserts
    have hmoves := step_moves hstep
    exact (hkept (hasserts.before hmoves)).step hasserts hmoves

/-- **Descriptor conservation.** While the asserts of `Connector.cc` hold, each socket that `connect`
    made is in one place once: watched by `channel_` of an attempt that is on, closed, or handed over. An
    idle connector owns none. -/
theorem descriptors_conserved (h : dialerMachine.Reachable s) (hasserts : AssertsHold s) :
    Conserved s where
  once := (reachable_kept h hasserts).counted
  watched := by
    intro fd howned
    unfold Connector.owned at howned
    by_cases hbusy : s.connector.state_ = .kConnecting
    · obtain ⟨-, ch, hch, -, hwatched⟩ := (reachable_kept h hasserts).moored.connecting hbusy
      rw [if_pos hbusy, hch, Option.map_some, Option.some.injEq] at howned
      exact ⟨ch, hch, howned, hwatched⟩
    · rw [if_neg hbusy] at howned
      exact absurd howned (by simp)
  idle := by
    intro hidle fd hfd
    have honce := (reachable_kept h hasserts).counted fd
    have howned : s.connector.owned = none := Connector.owned_of_idle (by rw [hidle]; decide)
    rw [places, howned, Option.toList_none, List.nil_append, List.count_append, if_pos hfd] at honce
    exact honce

/-- A failed attempt, found by an event with both bits, and one that is handed over. -/
def failThenConnect : List Event :=
  [.start .loop .EINPROGRESS, .doPendingFunctors, .endFunctors, .handleEvent ⟨true, false, true⟩,
   .runCallback ⟨true, false⟩, .runCallback ⟨true, false⟩, .endEvent, .doPendingFunctors,
   .runFunctor .zero, .endFunctors, .expire 1 .EINPROGRESS, .doPendingFunctors, .endFunctors,
   .handleEvent ⟨false, false, true⟩, .runCallback ⟨false, false⟩]

theorem descriptors_conserved_failThenConnect :
    ∃ s, dialerMachine.run Dialer.new failThenConnect = some s ∧ s.closed = [0] ∧ s.handed = [1] ∧
      Conserved s := by
  have hrun : ((dialerMachine.run Dialer.new failThenConnect).map
      fun s => (s.closed, s.handed, s.failed)) = some ([0], [1], []) := by
    decide +kernel
  obtain ⟨s, hs, hvalues⟩ := Option.map_eq_some_iff.mp hrun
  simp only [Prod.mk.injEq] at hvalues
  obtain ⟨hclosed, hhanded, hfailed⟩ := hvalues
  have hasserts : AssertsHold s := by simp [AssertsHold, hfailed]
  exact ⟨s, hs, hclosed, hhanded, descriptors_conserved (Machine.run_reachable rfl hs) hasserts⟩

end Dialer

end Simplev
