import Simplev.Net.Channel
import Simplev.Net.EventLoop

/-!
# `Net.Connector` — connection attempts (`Connector.h`, `Connector.cc`)

Each member function takes the connector with the results of the system calls it makes, and returns
the connector it leaves with what it did on the outside, in order (`Action`). It throws where it uses
`channel_` while that is null.

- **Beginning.** `startInLoop` makes a socket and calls `connect(2)`; by its result the attempt goes on
  (`connecting`), is tried again later (`retry`) or is given up.
- **Ending.** `handleWrite`, `handleError` and `stopInLoop` take the descriptor out of `channel_`. The
  channel itself is reset by a functor, since `handleEvent` may still be inside it.
- **Spec relations.** `Launches` and `Ends` say what the two kinds of member function can do; the
  machine's proofs split on them.
-/

namespace Simplev

open Foundation

namespace Connector

inductive StateE where
  | kDisconnected
  | kConnecting
  | kConnected
deriving DecidableEq, Repr

/-- What is bound into a functor of the loop. `resetChannel` also names the descriptor that the channel
    had when it was queued, which the function does not use. -/
inductive Functor where
  | startInLoop
  | stopInLoop
  | resetChannel (sockfd : Nat)
  | cancelInLoop (sequence : Nat)
deriving DecidableEq, Repr

/-- `savedErrno` in `connect`. -/
inductive SavedErrno where
  | zero
  | EINPROGRESS
  | EINTR
  | EISCONN
  | EAGAIN
  | EADDRINUSE
  | EADDRNOTAVAIL
  | ECONNREFUSED
  | ENETUNREACH
  | EACCES
  | EPERM
  | EAFNOSUPPORT
  | EALREADY
  | EBADF
  | EFAULT
  | ENOTSOCK
  | other (code : Nat)
deriving DecidableEq, Repr

/-- What a socket that became writable says: `SO_ERROR` is set, it is connected to itself, or neither. -/
structure Probe where
  err : Bool
  selfConnect : Bool
deriving DecidableEq, Repr

/-- What the next calls of `::socket` and of the `Timer` constructor return. -/
structure Fresh where
  sockfd : Nat
  sequence : Nat
deriving DecidableEq, Repr

/-- What a member function does on the outside. -/
inductive Action where
  /-- `createNonblockingOrDie()` returned `sockfd`. -/
  | socket (sockfd : Nat)
  /-- A new channel watches `sockfd`. -/
  | watch (sockfd : Nat)
  /-- `sockets::close(sockfd)`. -/
  | close (sockfd : Nat)
  /-- `newConnectionCallback_(sockfd)`. -/
  | newConnection (sockfd : Nat)
  /-- The channel of `sockfd` is destroyed. -/
  | destroy (sockfd : Nat)
  | queueInLoop (f : Functor)
  /-- A timer for `startInLoop` is started. -/
  | runAfter (sequence delayMs : Nat)
  /-- `cancelInLoop` runs. -/
  | cancel (sequence : Nat)
deriving DecidableEq, Repr

def kMaxRetryDelayMs : Nat := 30 * 1000
def kInitRetryDelayMs : Nat := 500

end Connector

open Connector in
structure Connector where
  connect_ : Bool
  state_ : StateE
  channel_ : Option Channel
  retryDelayMs_ : Nat
  /-- The sequence of the timer; `0` for the default `TimerId`. -/
  timerId_ : Nat
deriving DecidableEq, Repr

namespace Connector

def new : Connector where
  connect_ := false
  state_ := .kDisconnected
  channel_ := none
  retryDelayMs_ := kInitRetryDelayMs
  timerId_ := 0

/-- What a member function returns. -/
abbrev Result := Outcome (Connector × List Action)

/-- `~Channel` of what `channel_` holds. -/
def destroyChannel (c : Connector) : Outcome (List Action) :=
  match c.channel_ with
  | none => return []
  | some channel => do
    Outcome.assert (channel.eventHandling_ = false) "!eventHandling_"
    return [.destroy channel.fd_]

def resetChannel (c : Connector) : Result := do
  let destroyed ← c.destroyChannel
  return ({ c with channel_ := none }, destroyed)

/-- Returns `channel_->fd()`, for a `channel_` that is not null. -/
def removeAndResetChannel (c : Connector) : Outcome (Nat × Connector × List Action) :=
  match c.channel_ with
  | none => .thrown "px != 0"
  | some channel => do
    let channel ← channel.disableAll.remove
    return (channel.fd_, { c with channel_ := some channel },
      [.queueInLoop (.resetChannel channel.fd_)])

def retry (c : Connector) (sockfd : Nat) (u : Fresh) : Connector × List Action :=
  let c := { c with state_ := .kDisconnected }
  if c.connect_ then
    ({ c with timerId_ := u.sequence, retryDelayMs_ := min (c.retryDelayMs_ * 2) kMaxRetryDelayMs },
      [.close sockfd, .runAfter u.sequence c.retryDelayMs_])
  else
    (c, [.close sockfd])

def connecting (c : Connector) (sockfd : Nat) : Result := do
  let c := { c with state_ := .kConnecting }
  Outcome.assert (c.channel_ = none) "!channel_"
  let destroyed ← c.destroyChannel
  return ({ c with channel_ := some (Channel.new sockfd).enableWriting },
    destroyed ++ [.watch sockfd])

def connect (c : Connector) (u : Fresh) (savedErrno : SavedErrno) : Result :=
  let sockfd := u.sockfd
  match savedErrno with
  | .zero | .EINPROGRESS | .EINTR | .EISCONN => do
    let (c, actions) ← c.connecting sockfd
    return (c, .socket sockfd :: actions)
  | .EAGAIN | .EADDRINUSE | .EADDRNOTAVAIL | .ECONNREFUSED | .ENETUNREACH =>
    let (c, actions) := c.retry sockfd u
    return (c, .socket sockfd :: actions)
  | .EACCES | .EPERM | .EAFNOSUPPORT | .EALREADY | .EBADF | .EFAULT | .ENOTSOCK =>
    return (c, [.socket sockfd, .close sockfd])
  | .other _ =>
    return (c, [.socket sockfd, .close sockfd])

def startInLoop (c : Connector) (u : Fresh) (savedErrno : SavedErrno) : Result := do
  Outcome.assert (c.state_ = .kDisconnected) "state_ == kDisconnected"
  if c.connect_ then c.connect u savedErrno else return (c, [])

def start (c : Connector) (caller : Thread) (u : Fresh) (savedErrno : SavedErrno) : Result :=
  let c := { c with connect_ := true }
  match caller with
  | .loop => c.startInLoop u savedErrno
  | .other _ => return (c, [.queueInLoop .startInLoop])

def restart (c : Connector) (u : Fresh) (savedErrno : SavedErrno) : Result :=
  let c := { c with state_ := .kDisconnected, retryDelayMs_ := kInitRetryDelayMs, connect_ := true }
  c.startInLoop u savedErrno

def handleWrite (c : Connector) (u : Fresh) (probe : Probe) : Result :=
  if c.state_ = .kConnecting then do
    let (sockfd, c, queued) ← c.removeAndResetChannel
    if probe.err then
      let (c, actions) := c.retry sockfd u
      return (c, queued ++ actions)
    else if probe.selfConnect then
      let (c, actions) := c.retry sockfd u
      return (c, queued ++ actions)
    else
      let c := { c with state_ := .kConnected }
      if c.connect_ then
        return (c, queued ++ [.newConnection sockfd])
      else
        return (c, queued ++ [.close sockfd])
  else do
    -- what happened?
    Outcome.assert (c.state_ = .kDisconnected) "state_ == kDisconnected"
    return (c, [])

def handleError (c : Connector) (u : Fresh) : Result :=
  if c.state_ = .kConnecting then do
    let (sockfd, c, queued) ← c.removeAndResetChannel
    let (c, actions) := c.retry sockfd u
    return (c, queued ++ actions)
  else
    return (c, [])

/-- `loop_->cancel(timerId_)` goes through `runInLoop`. -/
def stop (c : Connector) (caller : Thread) : Connector × List Action :=
  let c := { c with connect_ := false }
  match caller with
  | .loop => (c, [.queueInLoop .stopInLoop, .cancel c.timerId_])
  | .other _ => (c, [.queueInLoop .stopInLoop, .queueInLoop (.cancelInLoop c.timerId_)])

def stopInLoop (c : Connector) (u : Fresh) : Result :=
  if c.state_ = .kConnecting then do
    let c := { c with state_ := .kDisconnected }
    let (sockfd, c, queued) ← c.removeAndResetChannel
    let (c, actions) := c.retry sockfd u
    return (c, queued ++ actions)
  else
    return (c, [])

def Functor.run (f : Functor) (c : Connector) (u : Fresh) (savedErrno : SavedErrno) : Result :=
  match f with
  | .startInLoop => c.startInLoop u savedErrno
  | .stopInLoop => c.stopInLoop u
  | .resetChannel _ => c.resetChannel
  | .cancelInLoop sequence => return (c, [.cancel sequence])

/-- Running an event callback of the channel. The connector sets no read callback. -/
def handleEvent (c : Connector) (cb : EventCallback) (u : Fresh) (probe : Probe) : Result :=
  match cb with
  | .errorCallback => c.handleError u
  | .readCallback => return (c, [])
  | .writeCallback => c.handleWrite u probe

/-! ## What the member functions can do -/

/-- `connect` goes on to `connecting`. -/
def SavedErrno.begins : SavedErrno → Bool
  | .zero | .EINPROGRESS | .EINTR | .EISCONN => true
  | _ => false

/-- `connect` tries again later. -/
def SavedErrno.retries : SavedErrno → Bool
  | .EAGAIN | .EADDRINUSE | .EADDRNOTAVAIL | .ECONNREFUSED | .ENETUNREACH => true
  | _ => false

theorem SavedErrno.begins_of_retries {savedErrno : SavedErrno} (h : savedErrno.retries = true) :
    savedErrno.begins = false := by
  cases savedErrno <;> first | rfl | exact absurd h (by simp [retries])

/-- The connector after `retry` started the timer `sequence`. -/
def retrying (c : Connector) (sequence : Nat) : Connector :=
  { c with
    state_ := .kDisconnected
    timerId_ := sequence
    retryDelayMs_ := min (c.retryDelayMs_ * 2) kMaxRetryDelayMs }

/-- The connector that watches `sockfd`. -/
def watching (c : Connector) (sockfd : Nat) : Connector :=
  { c with state_ := .kConnecting, channel_ := some (Channel.new sockfd).enableWriting }

/-- The connector that is done with the attempt of `channel`. -/
def leaving (c : Connector) (channel : Channel) (state : StateE) : Connector :=
  { c with state_ := state, channel_ := some channel.disableAll.stop }

/-- **What `startInLoop` can do**: nothing, begin an attempt, or fail to begin one. -/
inductive Launches (c : Connector) (u : Fresh) (savedErrno : SavedErrno) :
    Connector → List Action → List String → Prop
  | declined (off : c.connect_ = false) :
      Launches c u savedErrno c [] (Outcome.unmet (c.state_ = .kDisconnected) "state_ == kDisconnected")
  | began {destroyed gs} (on : c.connect_ = true) (begins : savedErrno.begins = true)
      (old : c.destroyChannel = .ok destroyed gs) :
      Launches c u savedErrno (c.watching u.sockfd)
        (.socket u.sockfd :: (destroyed ++ [.watch u.sockfd]))
        (Outcome.unmet (c.state_ = .kDisconnected) "state_ == kDisconnected" ++
          (Outcome.unmet (c.channel_ = none) "!channel_" ++ gs))
  | retried (on : c.connect_ = true) (retries : savedErrno.retries = true) :
      Launches c u savedErrno (c.retrying u.sequence)
        [.socket u.sockfd, .close u.sockfd, .runAfter u.sequence c.retryDelayMs_]
        (Outcome.unmet (c.state_ = .kDisconnected) "state_ == kDisconnected")
  | gaveUp (on : c.connect_ = true) (begins : savedErrno.begins = false)
      (retries : savedErrno.retries = false) :
      Launches c u savedErrno c [.socket u.sockfd, .close u.sockfd]
        (Outcome.unmet (c.state_ = .kDisconnected) "state_ == kDisconnected")

/-- **What `handleWrite`, `handleError` and `stopInLoop` can do**: nothing, or end the attempt in one of
    four ways. The last two are for `handleWrite` alone, where the socket is `writable`. -/
inductive Ends (c : Connector) (u : Fresh) (writable : Bool) :
    Connector → List Action → List String → Prop
  | ignored {fs} (idle : c.state_ ≠ .kConnecting)
      (failed : ∀ a ∈ fs, a = "state_ == kDisconnected" ∧ c.state_ ≠ .kDisconnected ∧
        writable = true) :
      Ends c u writable c [] fs
  | retried {channel} (busy : c.state_ = .kConnecting) (watched : c.channel_ = some channel)
      (on : c.connect_ = true) :
      Ends c u writable ((c.leaving channel .kDisconnected).retrying u.sequence)
        [.queueInLoop (.resetChannel channel.fd_), .close channel.fd_,
          .runAfter u.sequence c.retryDelayMs_] []
  | dropped {channel} (busy : c.state_ = .kConnecting) (watched : c.channel_ = some channel)
      (off : c.connect_ = false) :
      Ends c u writable (c.leaving channel .kDisconnected)
        [.queueInLoop (.resetChannel channel.fd_), .close channel.fd_] []
  | handedOver {channel} (busy : c.state_ = .kConnecting) (watched : c.channel_ = some channel)
      (on : c.connect_ = true) (connected : writable = true) :
      Ends c u writable (c.leaving channel .kConnected)
        [.queueInLoop (.resetChannel channel.fd_), .newConnection channel.fd_] []
  | cancelled {channel} (busy : c.state_ = .kConnecting) (watched : c.channel_ = some channel)
      (off : c.connect_ = false) (connected : writable = true) :
      Ends c u writable (c.leaving channel .kConnected)
        [.queueInLoop (.resetChannel channel.fd_), .close channel.fd_] []

variable {c c' : Connector} {u : Fresh} {savedErrno : SavedErrno} {probe : Probe}
  {actions : List Action} {fs : List String}

theorem connect_of_begins (h : savedErrno.begins = true) :
    c.connect u savedErrno = (do
      let (c, actions) ← c.connecting u.sockfd
      return (c, .socket u.sockfd :: actions)) := by
  cases savedErrno <;> first | rfl | exact absurd h (by simp [SavedErrno.begins])

theorem connect_of_retries (h : savedErrno.retries = true) :
    c.connect u savedErrno =
      .ok ((c.retry u.sockfd u).1, .socket u.sockfd :: (c.retry u.sockfd u).2) [] := by
  cases savedErrno <;> first | rfl | exact absurd h (by simp [SavedErrno.retries])

theorem connect_of_fails (hb : savedErrno.begins = false) (hr : savedErrno.retries = false) :
    c.connect u savedErrno = .ok (c, [.socket u.sockfd, .close u.sockfd]) [] := by
  cases savedErrno <;> first | rfl | exact absurd hb (by decide) | exact absurd hr (by decide)

theorem retry_of_on (sockfd : Nat) (h : c.connect_ = true) :
    c.retry sockfd u =
      (c.retrying u.sequence, [.close sockfd, .runAfter u.sequence c.retryDelayMs_]) := by
  simp only [retry, h, if_true, retrying]

theorem retry_of_off (sockfd : Nat) (h : c.connect_ = false) :
    c.retry sockfd u = ({ c with state_ := .kDisconnected }, [.close sockfd]) := by
  simp only [retry, h, Bool.false_eq_true, if_false]

/-- An attempt that is taken out of `channel_` leaves it disabled, for the functor to reset. -/
theorem removeAndResetChannel_of_some {channel : Channel} (h : c.channel_ = some channel) :
    c.removeAndResetChannel =
      .ok (channel.fd_, { c with channel_ := some channel.disableAll.stop },
        [.queueInLoop (.resetChannel channel.fd_)]) [] := by
  simp only [removeAndResetChannel, h]
  rfl

theorem startInLoop_launches (h : c.startInLoop u savedErrno = .ok (c', actions) fs) :
    Launches c u savedErrno c' actions fs := by
  unfold startInLoop at h
  obtain ⟨gs, hrest, rfl⟩ := Outcome.assert_bind_eq_ok h
  by_cases hon : c.connect_ = true
  · rw [if_pos hon] at hrest
    by_cases hbegins : savedErrno.begins = true
    · rw [connect_of_begins hbegins] at hrest
      obtain ⟨⟨c₁, acts⟩, hs, gs', hconnecting, hret, rfl⟩ := Outcome.bind_eq_ok hrest
      unfold connecting at hconnecting
      obtain ⟨gs₂, hafter, rfl⟩ := Outcome.assert_bind_eq_ok hconnecting
      obtain ⟨destroyed, hs₃, gs₃, hold, hdone, rfl⟩ := Outcome.bind_eq_ok hafter
      simp only [Outcome.pure_eq, Outcome.ok.injEq, Prod.mk.injEq] at hdone hret
      obtain ⟨⟨rfl, rfl⟩, rfl⟩ := hdone
      obtain ⟨⟨rfl, rfl⟩, rfl⟩ := hret
      rw [List.append_nil, List.append_nil]
      exact .began hon hbegins hold
    · by_cases hretries : savedErrno.retries = true
      · rw [connect_of_retries hretries, retry_of_on _ hon] at hrest
        simp only [Outcome.ok.injEq, Prod.mk.injEq] at hrest
        obtain ⟨⟨rfl, rfl⟩, rfl⟩ := hrest
        rw [List.append_nil]
        exact .retried hon hretries
      · have hb := Bool.eq_false_iff.mpr hbegins
        have hr := Bool.eq_false_iff.mpr hretries
        rw [connect_of_fails hb hr] at hrest
        simp only [Outcome.ok.injEq, Prod.mk.injEq] at hrest
        obtain ⟨⟨rfl, rfl⟩, rfl⟩ := hrest
        rw [List.append_nil]
        exact .gaveUp hon hb hr
  · rw [if_neg hon] at hrest
    simp only [Outcome.pure_eq, Outcome.ok.injEq, Prod.mk.injEq] at hrest
    obtain ⟨⟨rfl, rfl⟩, rfl⟩ := hrest
    rw [List.append_nil]
    exact .declined (Bool.eq_false_iff.mpr hon)

/-- `removeAndResetChannel` and `retry`, one after the other. -/
theorem endAndRetry_ends {channel : Channel} {writable : Bool} (hbusy : c.state_ = .kConnecting)
    (hwatched : c.channel_ = some channel)
    (h : ((c.leaving channel .kDisconnected).retry channel.fd_ u).1 = c' ∧
      .queueInLoop (.resetChannel channel.fd_) ::
        ((c.leaving channel .kDisconnected).retry channel.fd_ u).2 = actions) :
    Ends c u writable c' actions [] := by
  by_cases hon : c.connect_ = true
  · rw [retry_of_on channel.fd_ (show (c.leaving channel .kDisconnected).connect_ = true from hon)] at h
    obtain ⟨rfl, rfl⟩ := h
    exact .retried hbusy hwatched hon
  · have hoff := Bool.eq_false_iff.mpr hon
    rw [retry_of_off channel.fd_ (show (c.leaving channel .kDisconnected).connect_ = false from hoff)]
      at h
    obtain ⟨rfl, rfl⟩ := h
    exact .dropped hbusy hwatched hoff

theorem handleError_ends (h : c.handleError u = .ok (c', actions) fs) :
    Ends c u false c' actions fs := by
  unfold handleError at h
  by_cases hbusy : c.state_ = .kConnecting
  · rw [if_pos hbusy] at h
    cases hwatched : c.channel_ with
    | none => simp [removeAndResetChannel, hwatched] at h
    | some channel =>
        rw [removeAndResetChannel_of_some hwatched, Outcome.ok_nil_bind] at h
        simp only [Outcome.pure_eq, Outcome.ok.injEq, Prod.mk.injEq] at h
        obtain ⟨⟨hconn, hacts⟩, rfl⟩ := h
        exact endAndRetry_ends hbusy hwatched ⟨hconn, hacts⟩
  · rw [if_neg hbusy] at h
    simp only [Outcome.pure_eq, Outcome.ok.injEq, Prod.mk.injEq] at h
    obtain ⟨⟨rfl, rfl⟩, rfl⟩ := h
    exact .ignored hbusy (by simp)

theorem stopInLoop_ends (h : c.stopInLoop u = .ok (c', actions) fs) :
    Ends c u false c' actions fs := by
  unfold stopInLoop at h
  by_cases hbusy : c.state_ = .kConnecting
  · rw [if_pos hbusy] at h
    cases hwatched : c.channel_ with
    | none => simp [removeAndResetChannel, hwatched] at h
    | some channel =>
        have hremove := removeAndResetChannel_of_some (c := { c with state_ := .kDisconnected }) hwatched
        simp only [hremove, Outcome.ok_nil_bind] at h
        simp only [Outcome.pure_eq, Outcome.ok.injEq, Prod.mk.injEq] at h
        obtain ⟨⟨hconn, hacts⟩, rfl⟩ := h
        exact endAndRetry_ends hbusy hwatched ⟨hconn, hacts⟩
  · rw [if_neg hbusy] at h
    simp only [Outcome.pure_eq, Outcome.ok.injEq, Prod.mk.injEq] at h
    obtain ⟨⟨rfl, rfl⟩, rfl⟩ := h
    exact .ignored hbusy (by simp)

theorem handleWrite_ends (h : c.handleWrite u probe = .ok (c', actions) fs) :
    Ends c u true c' actions fs := by
  unfold handleWrite at h
  by_cases hbusy : c.state_ = .kConnecting
  · rw [if_pos hbusy] at h
    cases hwatched : c.channel_ with
    | none => simp [removeAndResetChannel, hwatched] at h
    | some channel =>
        rw [removeAndResetChannel_of_some hwatched, Outcome.ok_nil_bind] at h
        by_cases hfailed : probe.err = true ∨ probe.selfConnect = true
        · -- both bad answers end in the same `retry`
          have hretry : ((c.leaving channel .kDisconnected).retry channel.fd_ u).1 = c' ∧
              .queueInLoop (.resetChannel channel.fd_) ::
                ((c.leaving channel .kDisconnected).retry channel.fd_ u).2 = actions ∧ fs = [] := by
            rcases hfailed with herr | hself
            · simp only [herr, if_true, Outcome.pure_eq, Outcome.ok.injEq, Prod.mk.injEq] at h
              exact ⟨h.1.1, h.1.2, h.2.symm⟩
            · cases herr : probe.err with
              | true =>
                  simp only [herr, if_true, Outcome.pure_eq, Outcome.ok.injEq, Prod.mk.injEq] at h
                  exact ⟨h.1.1, h.1.2, h.2.symm⟩
              | false =>
                  simp only [herr, hself, Bool.false_eq_true, if_false, if_true, Outcome.pure_eq,
                    Outcome.ok.injEq, Prod.mk.injEq] at h
                  exact ⟨h.1.1, h.1.2, h.2.symm⟩
          obtain ⟨hconn, hacts, rfl⟩ := hretry
          exact endAndRetry_ends hbusy hwatched ⟨hconn, hacts⟩
        · obtain ⟨herr, hself⟩ := not_or.mp hfailed
          simp only [if_neg herr, if_neg hself] at h
          by_cases hon : c.connect_ = true
          · simp only [if_pos hon, Outcome.pure_eq, Outcome.ok.injEq, Prod.mk.injEq] at h
            obtain ⟨⟨rfl, rfl⟩, rfl⟩ := h
            exact .handedOver hbusy hwatched hon rfl
          · simp only [if_neg hon, Outcome.pure_eq, Outcome.ok.injEq, Prod.mk.injEq] at h
            obtain ⟨⟨rfl, rfl⟩, rfl⟩ := h
            exact .cancelled hbusy hwatched (Bool.eq_false_iff.mpr hon) rfl
  · rw [if_neg hbusy] at h
    obtain ⟨gs, hrest, rfl⟩ := Outcome.assert_bind_eq_ok h
    simp only [Outcome.pure_eq, Outcome.ok.injEq, Prod.mk.injEq] at hrest
    obtain ⟨⟨rfl, rfl⟩, rfl⟩ := hrest
    apply Ends.ignored hbusy
    intro a ha
    rw [List.append_nil, Outcome.mem_unmet] at ha
    exact ⟨ha.2, ha.1, rfl⟩

/-! ## When a null `channel_` is used -/

theorem startInLoop_ne_thrown (what : String) : c.startInLoop u savedErrno ≠ .thrown what := by
  have hconnecting : ∀ c : Connector, ∃ r fs, c.connecting u.sockfd = .ok r fs := by
    intro c
    obtain ⟨connect_, state_, _ | channel, retryDelayMs_, timerId_⟩ := c
    · exact ⟨_, _, rfl⟩
    · exact ⟨_, _, rfl⟩
  have hconnect : ∀ c : Connector, ∃ r fs, c.connect u savedErrno = .ok r fs := by
    intro c
    obtain ⟨r, fs, hr⟩ := hconnecting c
    by_cases hb : savedErrno.begins = true
    · rw [connect_of_begins hb, hr]
      exact ⟨_, _, rfl⟩
    · by_cases hre : savedErrno.retries = true
      · exact ⟨_, _, connect_of_retries hre⟩
      · exact ⟨_, _, connect_of_fails (Bool.eq_false_iff.mpr hb) (Bool.eq_false_iff.mpr hre)⟩
  obtain ⟨r, fs, hr⟩ := hconnect c
  unfold startInLoop
  rw [Outcome.assert_eq, hr]
  by_cases hon : c.connect_ = true
  · rw [if_pos hon]
    rintro ⟨⟩
  · rw [if_neg hon]
    rintro ⟨⟩

theorem resetChannel_eq :
    ∃ destroyed fs, c.resetChannel = .ok ({ c with channel_ := none }, destroyed) fs ∧
      c.destroyChannel = .ok destroyed fs := by
  have hdestroy : ∃ destroyed fs, c.destroyChannel = .ok destroyed fs := by
    unfold destroyChannel
    cases c.channel_ with
    | none => exact ⟨_, _, rfl⟩
    | some channel => exact ⟨_, _, rfl⟩
  obtain ⟨destroyed, fs, hd⟩ := hdestroy
  refine ⟨destroyed, fs, ?_, hd⟩
  unfold resetChannel
  rw [hd]
  show Outcome.ok _ (fs ++ []) = _
  rw [List.append_nil]

/-- A channel destroyed outside its `handleEvent` fails no assert. -/
theorem destroyChannel_outside {destroyed : List Action}
    (houtside : ∀ ch, c.channel_ = some ch → ch.eventHandling_ = false)
    (h : c.destroyChannel = .ok destroyed fs) : fs = [] := by
  unfold destroyChannel at h
  cases hchannel : c.channel_ with
  | none =>
      simp only [hchannel, Outcome.pure_eq, Outcome.ok.injEq] at h
      exact h.2.symm
  | some channel =>
      simp only [hchannel] at h
      obtain ⟨gs, hret, rfl⟩ := Outcome.assert_bind_eq_ok h
      simp only [Outcome.pure_eq, Outcome.ok.injEq] at hret
      rw [← hret.2, List.append_nil, Outcome.unmet_eq_nil]
      exact houtside channel hchannel

/-- A member function that ends an attempt uses a null `channel_`. -/
def Dangles (c : Connector) : Prop := c.state_ = .kConnecting ∧ c.channel_ = none

theorem handleError_dangles {what : String} (h : c.handleError u = .thrown what) :
    c.Dangles ∧ what = "px != 0" := by
  unfold handleError at h
  by_cases hbusy : c.state_ = .kConnecting
  · rw [if_pos hbusy] at h
    cases hwatched : c.channel_ with
    | none =>
        rw [removeAndResetChannel, hwatched, Outcome.thrown_bind, Outcome.thrown.injEq] at h
        exact ⟨⟨hbusy, hwatched⟩, h.symm⟩
    | some channel =>
        rw [removeAndResetChannel_of_some hwatched, Outcome.ok_nil_bind] at h
        simp at h
  · rw [if_neg hbusy] at h
    simp at h

theorem stopInLoop_dangles {what : String} (h : c.stopInLoop u = .thrown what) :
    c.Dangles ∧ what = "px != 0" := by
  unfold stopInLoop at h
  by_cases hbusy : c.state_ = .kConnecting
  · rw [if_pos hbusy] at h
    cases hwatched : c.channel_ with
    | none =>
        simp only [removeAndResetChannel, hwatched, Outcome.thrown_bind, Outcome.thrown.injEq] at h
        exact ⟨⟨hbusy, hwatched⟩, h.symm⟩
    | some channel =>
        have hremove := removeAndResetChannel_of_some (c := { c with state_ := .kDisconnected }) hwatched
        simp only [hremove, Outcome.ok_nil_bind] at h
        simp at h
  · rw [if_neg hbusy] at h
    simp at h

theorem handleWrite_dangles {what : String} (h : c.handleWrite u probe = .thrown what) :
    c.Dangles ∧ what = "px != 0" := by
  unfold handleWrite at h
  by_cases hbusy : c.state_ = .kConnecting
  · rw [if_pos hbusy] at h
    cases hwatched : c.channel_ with
    | none =>
        rw [removeAndResetChannel, hwatched, Outcome.thrown_bind, Outcome.thrown.injEq] at h
        exact ⟨⟨hbusy, hwatched⟩, h.symm⟩
    | some channel =>
        rw [removeAndResetChannel_of_some hwatched, Outcome.ok_nil_bind] at h
        by_cases herr : probe.err = true
        · simp [herr] at h
        · by_cases hself : probe.selfConnect = true
          · simp [herr, hself] at h
          · by_cases hon : c.connect_ = true <;> simp [herr, hself, hon] at h
  · rw [if_neg hbusy] at h
    cases h

end Connector

end Simplev
