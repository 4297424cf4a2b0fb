import Simplev.Net.Correctness.Attempts
import Simplev.Net.TcpClient

/-!
# `Net.Correctness.Stop` — after `stop()`

`stop()` clears two flags and queues `stopInLoop`. What it leaves behind may still run: a queued
`startInLoop`, a retry timer, the attempt in flight, the restart of a connection that closes. Each of them
looks at a flag before it makes a new attempt, and `stopInLoop` ends the one in flight.

The asserts of the connector play no part here: a client that calls `connect()` once has one attempt at a
time (`Lone`), also where one of them would fail.
-/

namespace Simplev

open Foundation

namespace Dialer

variable {s s' s₁ : Dialer} {e : Event} {savedErrno : Connector.SavedErrno} {writable : Bool} {n : Nat}

/-! ## The starts that wait -/

/-- How many `startInLoop` functors have not run. -/
def starts (l : EventLoop Functor) : Nat := l.waiting.countP fun f => f = .connector .startInLoop

theorem starts_queueInLoop (l : EventLoop Functor) (f : Functor) :
    starts (l.queueInLoop f) = starts l + if f = .connector .startInLoop then 1 else 0 := by
  rw [starts, EventLoop.waiting_queueInLoop, List.countP_append, List.countP_singleton]
  simp [starts]

theorem starts_nextFunctor {l l' : EventLoop Functor} {f : Functor} (h : l.nextFunctor = some (f, l')) :
    starts l = starts l' + if f = .connector .startInLoop then 1 else 0 := by
  rw [starts, EventLoop.nextFunctor_waiting h, List.countP_cons]
  simp [starts]

/-! ## One attempt at a time -/

/-- The descriptor of the attempt in flight. -/
def inFlight (s : Dialer) : List Nat :=
  if s.connector.state_ = .kConnecting then s.attempt.toList else []

/-- **One attempt at a time**, whatever the asserts of the connector say: after `n` calls of `start()`, at
    most `n` things are attempts or will make one, and each socket is in flight, closed or handed over. -/
structure Lone (n : Nat) (s : Dialer) : Prop where
  settled : s.phase ≠ .functors → s.loop.rest = []
  one : s.outstanding + starts s.loop ≤ n
  channel : s.connector.state_ = .kConnecting → ∀ ch, s.connector.channel_ = some ch →
    s.attempt = some ch.fd_
  once : ∀ fd, (s.inFlight ++ (s.closed ++ s.handed)).count fd = if fd < s.nextFd then 1 else 0

theorem lone_new : Lone 0 Dialer.new where
  settled _ := rfl
  one := Nat.le_refl 0
  channel := by rintro ⟨⟩
  once _ := rfl

theorem outstanding_busy (h : s.connector.state_ = .kConnecting) :
    s.outstanding = 1 + s.timers.length + s.connections.length := by
  rw [outstanding, if_pos h]

theorem outstanding_idle (h : s.connector.state_ ≠ .kConnecting) :
    s.outstanding = s.timers.length + s.connections.length := by
  rw [outstanding, if_neg h, Nat.zero_add]

theorem idle_of_outstanding (hzero : s.outstanding = 0) : s.connector.state_ ≠ .kConnecting := by
  intro hbusy
  rw [outstanding_busy hbusy] at hzero
  omega

theorem inFlight_idle (h : s.connector.state_ ≠ .kConnecting) : s.inFlight = [] := if_neg h

/-- Something is taken out of a list that has one element at most. -/
theorem length_filter_of_mem {l : List Nat} {a : Nat} (h : a ∈ l) (hone : l.length ≤ 1) :
    (l.filter (· ≠ a)).length = 0 ∧ l.length = 1 := by
  have hpos := List.length_pos_of_mem h
  obtain ⟨b, rfl⟩ := List.length_eq_one_iff.mp (Nat.le_antisymm hone hpos)
  rw [List.mem_singleton.mp h]
  simp

/-- How many calls of `start()` an event is. -/
def Event.started : Event → Nat
  | .start _ _ => 1
  | _ => 0

/-- What makes the next attempt is used up by it. -/
theorem Lone.launching (hL : Lone n s) (hn : n + e.started ≤ 1) (h : Launching s e savedErrno s₁) :
    Lone 1 s₁ ∧ s₁.outstanding + starts s₁.loop = 0 := by
  have hone := hL.one
  cases h with
  | start _ =>
      -- the one start allowed is this one, and nothing else is outstanding
      have hzero : s.outstanding + starts s.loop = 0 := by
        simp only [Event.started] at hn
        omega
      exact ⟨{ hL with one := Nat.le_trans (Nat.le_of_eq hzero) (Nat.zero_le 1) }, hzero⟩
  | @functor _ loop phase next =>
      have hstarts := starts_nextFunctor next
      rw [if_pos rfl] at hstarts
      -- the functor was what was outstanding
      have hzero : s.outstanding + starts loop = 0 := by
        simp only [Event.started] at hn
        omega
      exact ⟨{ hL with
        settled := fun hphase => absurd phase hphase
        one := Nat.le_trans (Nat.le_of_eq hzero) (Nat.zero_le 1) }, hzero⟩
  | @expire sequence _ phase active _ =>
      simp only [Event.started] at hn
      -- the timer that expires was
      have hbound : s.timers.length ≤ 1 := by
        unfold outstanding at hone
        omega
      obtain ⟨hexpired, hlength⟩ := length_filter_of_mem active hbound
      have hzero : outstanding { s with timers := s.timers.filter (· ≠ sequence) } + starts s.loop = 0 := by
        simp only [outstanding] at hone ⊢
        omega
      exact ⟨{ hL with one := Nat.le_trans (Nat.le_of_eq hzero) (Nat.zero_le 1) }, hzero⟩
  | @restart sockfd _ phase opened _ =>
      simp only [Event.started] at hn
      -- the connection that is closed was, so that no attempt is on
      have hbound : s.connections.length ≤ 1 := by
        unfold outstanding at hone
        omega
      obtain ⟨hclosed, hlength⟩ := length_filter_of_mem opened hbound
      have hidle : s.connector.state_ ≠ .kConnecting := by
        intro hbusy
        rw [outstanding_busy hbusy] at hone
        omega
      rw [outstanding_idle hidle] at hone
      have hstarts := starts_queueInLoop s.loop (.connection sockfd .connectDestroyed)
      rw [if_neg (by simp)] at hstarts
      have honce := hL.once
      rw [inFlight_idle hidle] at honce
      refine ⟨⟨fun hphase => hL.settled hphase, ?_, by simp, honce⟩, ?_⟩
      · simp only [outstanding, reduceCtorEq, if_false]
        omega
      · simp only [outstanding, reduceCtorEq, if_false]
        omega

/-- What `startInLoop` leaves, when nothing else makes an attempt. -/
theorem Lone.launched (hL : Lone 1 s) (hzero : s.outstanding + starts s.loop = 0)
    (h : Launched s savedErrno s') : Lone 1 s' := by
  have hidle := idle_of_outstanding (Nat.eq_zero_of_add_eq_zero_right hzero)
  have honce := hL.once
  rw [inFlight_idle hidle] at honce
  -- a new socket that is in one place
  have hcreate : ∀ fd (places : List Nat), places.count fd =
      ([] ++ (s.closed ++ s.handed)).count fd + [s.nextFd].count fd →
      places.count fd = if fd < s.nextFd + 1 then 1 else 0 := by
    intro fd places hplaces
    rw [hplaces, honce fd, List.count_singleton]
    rcases Nat.lt_trichotomy fd s.nextFd with hlt | rfl | hgt
    · rw [if_pos hlt, if_neg (by simpa using Nat.ne_of_gt hlt), if_pos (by omega)]
    · simp
    · rw [if_neg (by omega), if_neg (by simpa using Nat.ne_of_lt hgt), if_neg (by omega)]
  rw [outstanding_idle hidle] at hzero
  cases h with
  | declined _ => exact { hL with }
  | began _ _ _ =>
      refine ⟨hL.settled, ?_, ?_, fun fd => hcreate fd _ ?_⟩
      · simp only [outstanding, Connector.watching, if_true]
        omega
      · rintro - ch ⟨⟩
        rfl
      · simp only [inFlight, Connector.watching, if_true, Option.toList_some, List.count_append,
          List.count_nil]
        omega
  | retried _ _ =>
      refine ⟨hL.settled, ?_, by rintro ⟨⟩, fun fd => hcreate fd _ ?_⟩
      · simp only [outstanding, Connector.retrying, reduceCtorEq, if_false, List.length_append,
          List.length_singleton]
        omega
      · simp only [inFlight, Connector.retrying, reduceCtorEq, if_false, List.count_append, List.count_nil]
        omega
  | gaveUp _ _ _ =>
      refine ⟨hL.settled, hL.one, hL.channel, fun fd => hcreate fd _ ?_⟩
      simp only [inFlight, if_neg hidle, List.count_append, List.count_nil]
      omega

theorem Lone.ending (hL : Lone n s) (h : Ending s e writable s₁) : Lone n s₁ := by
  cases h with
  | stopInLoop phase next =>
      have hstarts := starts_nextFunctor next
      rw [if_neg (by simp)] at hstarts
      have hone := hL.one
      refine { hL with settled := fun hphase => absurd phase hphase, one := ?_ }
      rw [hstarts] at hone
      exact hone
  | handleError phase _ => exact { hL with settled := fun _ => hL.settled (by simp [phase]) }
  | handleWrite phase _ => exact { hL with settled := fun _ => hL.settled (by simp [phase]) }

/-- The attempt in flight is over, and its socket is closed or handed over. -/
theorem Lone.leave (hL : Lone n s) {channel : Channel} (hbusy : s.connector.state_ = .kConnecting)
    (hwatched : s.connector.channel_ = some channel)
    (hphase : s'.phase = s.phase)
    (hloop : s'.loop = s.loop.queueInLoop (.connector (.resetChannel channel.fd_)))
    (hidle : s'.connector.state_ ≠ .kConnecting)
    (hone : s'.timers.length + s'.connections.length ≤ 1 + s.timers.length + s.connections.length)
    (hnext : s'.nextFd = s.nextFd)
    (hplaces : ∀ fd, (s'.closed ++ s'.handed).count fd =
      (s.closed ++ s.handed).count fd + [channel.fd_].count fd) : Lone n s' where
  settled hne := by
    rw [hloop]
    exact hL.settled (hphase ▸ hne)
  one := by
    have hbound := hL.one
    have hstarts := starts_queueInLoop s.loop (.connector (.resetChannel channel.fd_))
    rw [if_neg (by simp)] at hstarts
    rw [outstanding_busy hbusy] at hbound
    rw [outstanding_idle hidle, hloop]
    omega
  channel hbusy' := absurd hbusy' hidle
  once fd := by
    have honce := hL.once fd
    have hfd := hplaces fd
    simp only [inFlight, if_pos hbusy, hL.channel hbusy channel hwatched, Option.toList_some,
      List.count_append] at honce hfd ⊢
    rw [if_neg hidle, List.count_nil, hnext]
    omega

theorem Lone.ended (hL : Lone n s) (h : Ended s writable s') : Lone n s' := by
  cases h with
  | ignored _ _ => exact { hL with }
  | retried busy watched _ =>
      refine hL.leave busy watched rfl rfl (by simp [Connector.retrying]) ?_ rfl fun fd => ?_
      · simp only [List.length_append, List.length_singleton]
        omega
      · simp only [List.count_append]
        omega
  | dropped busy watched _ =>
      refine hL.leave busy watched rfl rfl (by simp [Connector.leaving]) ?_ rfl fun fd => ?_
      · exact Nat.add_le_add_right (Nat.le_add_left _ _) _
      · simp only [List.count_append]
        omega
  | handedOver busy watched _ _ =>
      refine hL.leave busy watched rfl rfl (by simp [Connector.leaving]) ?_ rfl fun fd => ?_
      · simp only [List.length_append, List.length_singleton]
        omega
      · simp only [List.count_append]
        omega
  | cancelled busy watched _ _ =>
      refine hL.leave busy watched rfl rfl (by simp [Connector.leaving]) ?_ rfl fun fd => ?_
      · exact Nat.add_le_add_right (Nat.le_add_left _ _) _
      · simp only [List.count_append]
        omega

/-- A functor that is not a start is queued. -/
theorem Lone.queueInLoop (hL : Lone n s) {f : Functor} (hf : f ≠ .connector .startInLoop) :
    Lone n { s with loop := s.loop.queueInLoop f } where
  settled := hL.settled
  one := by
    have hstarts := starts_queueInLoop s.loop f
    rw [if_neg hf] at hstarts
    show s.outstanding + starts (s.loop.queueInLoop f) ≤ n
    rw [hstarts]
    exact hL.one
  channel := hL.channel
  once := hL.once

theorem Lone.cancel (hL : Lone n s) (sequence : Nat) :
    Lone n { s with timers := s.timers.filter (· ≠ sequence) } where
  settled := hL.settled
  one := by
    have hone := hL.one
    have hlength := List.length_filter_le (fun t => decide (t ≠ sequence)) s.timers
    simp only [outstanding] at hone ⊢
    omega
  channel := hL.channel
  once := hL.once

/-- A functor that is not a start is taken from the queue. -/
theorem Lone.nextFunctor (hL : Lone n s) {f : Functor} {l : EventLoop Functor}
    (hf : f ≠ .connector .startInLoop) (hphase : s.phase = .functors)
    (hnext : s.loop.nextFunctor = some (f, l)) : Lone n { s with loop := l } where
  settled hne := absurd hphase hne
  one := by
    have hone := hL.one
    have hstarts := starts_nextFunctor hnext
    rw [if_neg hf] at hstarts
    rw [hstarts] at hone
    exact hone
  channel := hL.channel
  once := hL.once

theorem Lone.mono (hL : Lone n s) {m : Nat} (hm : n ≤ m) : Lone m s :=
  { hL with one := Nat.le_trans hL.one hm }

/-- What makes an attempt was made by a start. -/
theorem Lone.started_pos (hL : Lone n s) (h : Launching s e savedErrno s₁) : 1 ≤ n + e.started := by
  have hone := hL.one
  cases h with
  | start _ => exact Nat.le_add_left 1 n
  | functor _ next =>
      have hstarts := starts_nextFunctor next
      rw [if_pos rfl] at hstarts
      simp only [Event.started]
      omega
  | expire _ active _ =>
      have hpos := List.length_pos_of_mem active
      unfold outstanding at hone
      simp only [Event.started]
      omega
  | restart _ opened _ =>
      have hpos := List.length_pos_of_mem opened
      unfold outstanding at hone
      simp only [Event.started]
      omega

/-- **One step** keeps the invariant, if it makes no second `start()`. -/
theorem Lone.step (hL : Lone n s) (hn : n + e.started ≤ 1) (h : Moves s e s') :
    Lone (n + e.started) s' := by
  cases h with
  | launch launching run =>
      obtain ⟨hlone, hzero⟩ := hL.launching hn launching
      exact (hlone.launched hzero run).mono (hL.started_pos launching)
  | ends ending run => exact ((hL.ending ending).ended run).mono (Nat.le_add_right _ _)
  | start =>
      have hone := hL.one
      have hstarts := starts_queueInLoop s.loop (.connector .startInLoop)
      rw [if_pos rfl] at hstarts
      refine ⟨hL.settled, ?_, hL.channel, hL.once⟩
      show s.outstanding + starts (s.loop.queueInLoop (.connector .startInLoop)) ≤ n + 1
      omega
  | stop _ =>
      have hqueued := hL.queueInLoop (f := .connector .stopInLoop) (by simp)
      exact { hqueued.cancel s.connector.timerId_ with }
  | stopLater =>
      have hqueued := hL.queueInLoop (f := .connector .stopInLoop) (by simp)
      have hboth := hqueued.queueInLoop (f := .connector (.cancelInLoop s.connector.timerId_)) (by simp)
      exact { hboth with }
  | doPendingFunctors phase =>
      -- the batch is empty between rounds, so that swapping moves all that waits
      have hrest := hL.settled (by simp [phase])
      refine { hL with settled := fun hne => absurd rfl hne, one := ?_ }
      show s.outstanding + starts s.loop.swapFunctors ≤ n
      rw [starts, EventLoop.waiting_swapFunctors hrest]
      exact hL.one
  | resetChannel phase next _ =>
      have hpopped := hL.nextFunctor (by simp) phase next
      exact { hpopped with channel := by simp }
  | cancelInLoop phase next =>
      have hpopped := hL.nextFunctor (by simp) phase next
      exact { hpopped.cancel _ with }
  | connection phase next => exact { hL.nextFunctor (by simp) phase next with }
  | endFunctors phase done =>
      refine { hL with settled := fun _ => rfl, one := ?_ }
      show s.outstanding + starts s.loop.endFunctors ≤ n
      rw [starts, EventLoop.waiting_endFunctors done]
      exact hL.one
  | readCallback phase _ => exact { hL with settled := fun _ => hL.settled (by simp [phase]) }
  | leaveUser _ => exact { hL with }
  | handleEvent phase _ | endEvent phase _ =>
      -- only the channel's own mark is written
      refine { hL with settled := fun _ => hL.settled (by simp [phase]), channel := ?_ }
      intro hbusy ch hch
      obtain ⟨ch', hch', rfl⟩ := Option.map_eq_some_iff.mp hch
      exact hL.channel hbusy ch' hch'
  | @handleClose sockfd _ phase opened _ =>
      have hqueued := hL.queueInLoop (f := .connection sockfd .connectDestroyed) (by simp)
      refine { hqueued with one := ?_ }
      have hone := hqueued.one
      have hlength := List.length_filter_le (fun fd => decide (fd ≠ sockfd)) s.connections
      simp only [outstanding] at hone ⊢
      omega
  | crash _ => exact { hL.mono (Nat.le_add_right _ _) with }

/-! ## With `connect_` off -/

/-- `start()`, or a connection that closes and restarts the connector. -/
def Event.setsConnect : Event → Bool
  | .start _ _ => true
  | .handleClose _ restart _ => restart
  | _ => false

def Event.runsFunctor : Event → Bool
  | .runFunctor _ => true
  | _ => false

/-- What stays as it is once `connect_` is off: no socket is made, none is handed over, and no attempt
    begins. -/
structure Stays (s s' : Dialer) : Prop where
  off : s'.connector.connect_ = false
  nextFd : s'.nextFd = s.nextFd
  handed : s'.handed = s.handed
  idle : s.connector.state_ ≠ .kConnecting → s'.connector.state_ ≠ .kConnecting

theorem Stays.trans {s'' : Dialer} (h : Stays s s') (h' : Stays s' s'') : Stays s s'' where
  off := h'.off
  nextFd := h'.nextFd.trans h.nextFd
  handed := h'.handed.trans h.handed
  idle hidle := h'.idle (h.idle hidle)

/-- A step that begins with what is nothing to the connector. -/
theorem Stays.of_same (h : Stays s₁ s') (hconnector : s₁.connector = s.connector)
    (hnext : s₁.nextFd = s.nextFd) (hhanded : s₁.handed = s.handed) : Stays s s' where
  off := h.off
  nextFd := h.nextFd.trans hnext
  handed := h.handed.trans hhanded
  idle hidle := by
    apply h.idle
    rw [hconnector]
    exact hidle

theorem Launched.stays (h : Launched s savedErrno s') (hoff : s.connector.connect_ = false) :
    Stays s s' := by
  cases h with
  | declined _ => exact ⟨hoff, rfl, rfl, id⟩
  | began on _ _ => exact absurd (hoff.symm.trans on) (by simp)
  | retried on _ => exact absurd (hoff.symm.trans on) (by simp)
  | gaveUp on _ _ => exact absurd (hoff.symm.trans on) (by simp)

theorem Ended.stays (h : Ended s writable s') (hoff : s.connector.connect_ = false) : Stays s s' := by
  cases h with
  | ignored _ _ => exact ⟨hoff, rfl, rfl, id⟩
  | retried _ _ on => exact absurd (hoff.symm.trans on) (by simp)
  | dropped _ _ _ => exact ⟨hoff, rfl, rfl, fun _ => by rintro ⟨⟩⟩
  | handedOver _ _ on _ => exact absurd (hoff.symm.trans on) (by simp)
  | cancelled _ _ _ _ => exact ⟨hoff, rfl, rfl, fun _ => by rintro ⟨⟩⟩

/-- **One step** that does not set `connect_` makes nothing. -/
theorem Moves.stays (hoff : s.connector.connect_ = false) (hcalm : e.setsConnect = false)
    (h : Moves s e s') : Stays s s' := by
  cases h with
  | launch launching run =>
      -- a timer or a queued start finds `connect_` off; the other two routes set it
      cases launching with
      | start _ => cases hcalm
      | functor _ _ => exact (run.stays hoff).of_same rfl rfl rfl
      | expire _ _ _ => exact (run.stays hoff).of_same rfl rfl rfl
      | restart _ _ _ => cases hcalm
  | ends ending run =>
      cases ending with
      | stopInLoop _ _ => exact (run.stays hoff).of_same rfl rfl rfl
      | handleError _ _ => exact (run.stays hoff).of_same rfl rfl rfl
      | handleWrite _ _ => exact (run.stays hoff).of_same rfl rfl rfl
  | start => cases hcalm
  | stop _ => exact ⟨rfl, rfl, rfl, id⟩
  | stopLater => exact ⟨rfl, rfl, rfl, id⟩
  | _ => exact ⟨hoff, rfl, rfl, id⟩

/-- `stopInLoop` ends the attempt in flight. -/
theorem Ended.not_connecting (h : Ended s false s') : s'.connector.state_ ≠ .kConnecting := by
  cases h with
  | ignored idle _ => exact idle
  | retried _ _ _ => rintro ⟨⟩
  | dropped _ _ _ => rintro ⟨⟩
  | handedOver _ _ _ connected => cases connected
  | cancelled _ _ _ connected => cases connected

/-! ## The way of `stopInLoop` through the queue -/

/-- Behind `m` functors, `stopInLoop` waits. -/
def Comes (l : EventLoop Functor) (m : Nat) : Prop := l.waiting[m]? = some (.connector .stopInLoop)

section Comes

variable {l l' : EventLoop Functor} {f : Functor} {m : Nat}

theorem Comes.queueAll (h : Comes l m) (fs : List Functor) : Comes (l.queueAll fs) m := by
  obtain ⟨hlt, -⟩ := List.getElem?_eq_some_iff.mp h
  rw [Comes, EventLoop.waiting_queueAll, List.getElem?_append_left hlt]
  exact h

theorem Comes.queueInLoop (h : Comes l m) (f : Functor) : Comes (l.queueInLoop f) m := h.queueAll [f]

/-- It has its turn, or comes one place nearer. -/
theorem Comes.nextFunctor (h : Comes l m) (hnext : l.nextFunctor = some (f, l')) :
    f = .connector .stopInLoop ∨ ∃ k, m = k + 1 ∧ Comes l' k := by
  rw [Comes, EventLoop.nextFunctor_waiting hnext] at h
  cases m with
  | zero => exact .inl (Option.some.inj h)
  | succ k => exact .inr ⟨k, rfl, h⟩

end Comes

/-- `stopInLoop` comes nearer with every functor that runs, and when it has run, no attempt is in flight. -/
theorem Moves.comes {m : Nat} (hL : Lone n s) (hcomes : Comes s.loop m) (h : Moves s e s') :
    s'.crashed = true ∨
    e.runsFunctor = false ∧ Comes s'.loop m ∨
    e.runsFunctor = true ∧
      (s'.connector.state_ ≠ .kConnecting ∨ ∃ k, m = k + 1 ∧ Comes s'.loop k) := by
  -- a functor that is not `stopInLoop` has run
  have hother : ∀ {f loop}, s.loop.nextFunctor = some (f, loop) → f ≠ .connector .stopInLoop →
      ∃ k, m = k + 1 ∧ Comes loop k := by
    intro f loop hnext hne
    exact (hcomes.nextFunctor hnext).resolve_left hne
  cases h with
  | @launch _ _ s₁ _ launching run =>
      -- an attempt queues nothing, whatever comes of it
      have hloop : s'.loop = s₁.loop := by
        cases run <;> rfl
      rw [hloop]
      cases launching with
      | start _ => exact .inr (.inl ⟨rfl, hcomes⟩)
      | functor _ next => exact .inr (.inr ⟨rfl, .inr (hother next (by simp))⟩)
      | expire _ _ _ => exact .inr (.inl ⟨rfl, hcomes⟩)
      | restart _ _ _ => exact .inr (.inl ⟨rfl, hcomes.queueInLoop _⟩)
  | ends ending run =>
      cases ending with
      | stopInLoop _ _ => exact .inr (.inr ⟨rfl, .inl run.not_connecting⟩)
      | handleError _ _ =>
          refine .inr (.inl ⟨rfl, ?_⟩)
          cases run with
          | ignored _ _ => exact hcomes
          | _ => exact hcomes.queueInLoop _
      | handleWrite _ _ =>
          refine .inr (.inl ⟨rfl, ?_⟩)
          cases run with
          | ignored _ _ => exact hcomes
          | _ => exact hcomes.queueInLoop _
  | start => exact .inr (.inl ⟨rfl, hcomes.queueInLoop _⟩)
  | stop _ => exact .inr (.inl ⟨rfl, hcomes.queueInLoop _⟩)
  | stopLater => exact .inr (.inl ⟨rfl, (hcomes.queueInLoop _).queueInLoop _⟩)
  | doPendingFunctors phase =>
      refine .inr (.inl ⟨rfl, ?_⟩)
      rw [Comes, EventLoop.waiting_swapFunctors (hL.settled (by simp [phase]))]
      exact hcomes
  | resetChannel _ next _ => exact .inr (.inr ⟨rfl, .inr (hother next (by simp))⟩)
  | cancelInLoop _ next => exact .inr (.inr ⟨rfl, .inr (hother next (by simp))⟩)
  | connection _ next => exact .inr (.inr ⟨rfl, .inr (hother next (by simp))⟩)
  | endFunctors _ done =>
      refine .inr (.inl ⟨rfl, ?_⟩)
      rw [Comes, EventLoop.waiting_endFunctors done]
      exact hcomes
  | handleEvent _ _ => exact .inr (.inl ⟨rfl, hcomes⟩)
  | readCallback _ _ => exact .inr (.inl ⟨rfl, hcomes⟩)
  | leaveUser _ => exact .inr (.inl ⟨rfl, hcomes⟩)
  | endEvent _ _ => exact .inr (.inl ⟨rfl, hcomes⟩)
  | handleClose _ _ _ => exact .inr (.inl ⟨rfl, hcomes.queueInLoop _⟩)
  | crash _ => exact .inl rfl

/-- `stop()` clears `connect_` and queues `stopInLoop`. -/
theorem step_stop {caller : Thread} (h : s.step (.stop caller) = some s') :
    s'.connector.connect_ = false ∧ s'.nextFd = s.nextFd ∧ s'.handed = s.handed ∧
      Comes s'.loop s.loop.waiting.length := by
  have hqueued : Comes (s.loop.queueInLoop (.connector .stopInLoop)) s.loop.waiting.length := by
    rw [Comes, EventLoop.waiting_queueInLoop, List.getElem?_concat_length]
  by_cases hcrashed : s.crashed = true
  · exact absurd ((if_pos hcrashed).symm.trans h) (by simp)
  · by_cases hmay : s.MayCall caller
    · simp only [Dialer.step, if_neg hcrashed, begin, if_pos hmay] at h
      cases caller with
      | loop =>
          obtain rfl := Option.some.inj h
          exact ⟨rfl, rfl, rfl, hqueued⟩
      | other id =>
          obtain rfl := Option.some.inj h
          exact ⟨rfl, rfl, rfl, hqueued.queueInLoop _⟩
    · simp [Dialer.step, hcrashed, begin, hmay] at h

end Dialer

namespace TcpClient

open Dialer

variable {s s' s₁ s₂ : TcpClient} {d d' : Dialer} {e : Event} {es : List Event} {n m : Nat}

/-! ## The client around the connector -/

theorem starts_queueAll (l : EventLoop Dialer.Functor) {fs : List Dialer.Functor}
    (hfs : ∀ f ∈ fs, ∃ sockfd g, f = .connection sockfd g) : starts (l.queueAll fs) = starts l := by
  have hnone : fs.countP (fun f => f = .connector .startInLoop) = 0 := by
    rw [List.countP_eq_zero]
    intro f hf
    obtain ⟨sockfd, g, rfl⟩ := hfs f hf
    simp
  rw [starts, EventLoop.waiting_queueAll, List.countP_append, hnone]
  rfl

theorem Queued.lone (hL : Lone n d) (h : Queued d d') : Lone n d' := by
  obtain ⟨fs, hfs, rfl⟩ := h
  refine ⟨hL.settled, ?_, hL.channel, hL.once⟩
  show d.outstanding + starts (d.loop.queueAll fs) ≤ n
  rw [starts_queueAll _ hfs]
  exact hL.one

theorem Queued.stays (hoff : d.connector.connect_ = false) (h : Queued d d') : Stays d d' := by
  obtain ⟨fs, -, rfl⟩ := h
  exact ⟨hoff, rfl, rfl, id⟩

theorem Queued.comes (hcomes : Comes d.loop m) (h : Queued d d') : Comes d'.loop m := by
  obtain ⟨fs, -, rfl⟩ := h
  exact hcomes.queueAll fs

theorem Queued.crashed (h : Queued d d') : d'.crashed = d.crashed := by
  obtain ⟨fs, -, rfl⟩ := h
  rfl

/-- The events of the connector that start it are the calls of `connect()`. -/
theorem dialerEvent_started {de : Dialer.Event} (h : s.dialerEvent e = some de) :
    de.started = e.connected := by
  cases e with
  | disconnect caller => cases h
  | _ =>
      obtain rfl := Option.some.inj h
      rfl

theorem lone_step (hL : Lone s.connects s.connector_) (hone : s'.connects ≤ 1)
    (hstep : s.step e = some s') : Lone s'.connects s'.connector_ := by
  obtain ⟨⟨d, d', hbefore, hdialed, hafter⟩, -, hconnects⟩ := step_connector hstep
  rw [hconnects] at hone ⊢
  replace hL := hbefore.lone hL
  apply hafter.lone
  cases hevent : s.dialerEvent e with
  | none =>
      rw [hevent] at hdialed
      rw [show d' = d from hdialed]
      exact hL.mono (Nat.le_add_right _ _)
  | some de =>
      rw [hevent] at hdialed
      rw [← dialerEvent_started hevent] at hone ⊢
      exact hL.step hone (step_moves hdialed)

/-- A client makes one attempt at a time, if it calls `connect()` once at most. -/
theorem reachable_lone (h : clientMachine.Reachable s) :
    s.connects ≤ 1 → Lone s.connects s.connector_ := by
  refine h.invariant (I := fun s => s.connects ≤ 1 → Lone s.connects s.connector_) ?_ ?_
  · rintro s ⟨retry, writeComplete, rfl⟩ -
    exact lone_new
  · intro s e s' _ hI _ hstep hone
    have hconnects := (step_connector hstep).2.2
    exact lone_step (hI (by omega)) hone hstep

/-- A step that is no `connect()` leaves the number of its calls. -/
theorem connects_of_step (hconnect : e.connected = 0) (hstep : s.step e = some s') :
    s'.connects = s.connects := by
  rw [(step_connector hstep).2.2, hconnect, Nat.add_zero]

/-! ## After `stop()` -/

/-- `stop()` has been called, and no `connect()` since. -/
structure Stopped (s : TcpClient) : Prop where
  client : s.connect_ = false
  connector : s.connector_.connector.connect_ = false

/-- `doPendingFunctors` runs a functor. -/
def Event.runsFunctor : Event → Bool
  | .runFunctor _ => true
  | _ => false

theorem Stopped.calm (h : s.Stopped) (hconnect : e.connected = 0) {de : Dialer.Event}
    (hevent : s.dialerEvent e = some de) :
    de.setsConnect = false ∧ de.runsFunctor = e.runsFunctor := by
  cases e with
  | connect caller savedErrno => cases hconnect
  | handleRead sockfd savedErrno =>
      obtain rfl := Option.some.inj hevent
      refine ⟨?_, rfl⟩
      show (s.connect_ && s.retry_) = false
      rw [h.client]
      rfl
  | disconnect caller => cases hevent
  | _ =>
      obtain rfl := Option.some.inj hevent
      exact ⟨rfl, rfl⟩

/-- **One step** after `stop()`: nothing is made, and `stopInLoop` comes nearer. -/
theorem Stopped.step (h : s.Stopped) (hL : Lone n s.connector_) (hconnect : e.connected = 0)
    (hstep : s.step e = some s') :
    s'.Stopped ∧ Stays s.connector_ s'.connector_ ∧
      (Comes s.connector_.loop m → s'.connector_.crashed = true ∨
        e.runsFunctor = false ∧ Comes s'.connector_.loop m ∨
        e.runsFunctor = true ∧
          (s'.connector_.connector.state_ ≠ .kConnecting ∨
            ∃ k, m = k + 1 ∧ Comes s'.connector_.loop k)) := by
  obtain ⟨⟨d, d', hbefore, hdialed, hafter⟩, hflag, -⟩ := step_connector hstep
  have hclient : s'.connect_ = false := by
    rw [hflag]
    cases e with
    | connect caller savedErrno => cases hconnect
    | disconnect caller => rfl
    | stop caller => rfl
    | _ => exact h.client
  have hstays := hbefore.stays h.connector
  cases hevent : s.dialerEvent e with
  | none =>
      rw [hevent] at hdialed
      obtain rfl : d' = d := hdialed
      have hstays' := hstays.trans (hafter.stays hstays.off)
      refine ⟨⟨hclient, hstays'.off⟩, hstays', fun hcomes => .inr (.inl ⟨?_, ?_⟩)⟩
      · cases e with
        | disconnect caller => rfl
        | _ => cases hevent
      · exact hafter.comes (hbefore.comes hcomes)
  | some de =>
      rw [hevent] at hdialed
      have hmoves := step_moves hdialed
      obtain ⟨hcalm, hruns⟩ := h.calm hconnect hevent
      have hmoved := hmoves.stays hstays.off hcalm
      have hqueued := hafter.stays hmoved.off
      have hstays' := hstays.trans (hmoved.trans hqueued)
      refine ⟨⟨hclient, hstays'.off⟩, hstays', fun hcomes => ?_⟩
      rw [← hruns, hafter.crashed]
      refine (hmoves.comes (hbefore.lone hL) (hbefore.comes hcomes)).imp id (Or.imp ?_ ?_)
      · exact And.imp id hafter.comes
      · refine And.imp id (Or.imp hqueued.idle ?_)
        rintro ⟨k, hk, hcomes'⟩
        exact ⟨k, hk, hafter.comes hcomes'⟩

/-- After a null `channel_` was used nothing happens in the loop. -/
theorem crashed_step (h : s.connector_.crashed = true) (hstep : s.step e = some s') :
    s'.connector_.crashed = true := by
  obtain ⟨⟨d, d', hbefore, hdialed, hafter⟩, -, -⟩ := step_connector hstep
  rw [← hbefore.crashed] at h
  rw [hafter.crashed]
  cases hevent : s.dialerEvent e with
  | none =>
      rw [hevent] at hdialed
      rw [show d' = d from hdialed]
      exact h
  | some de =>
      rw [hevent] at hdialed
      have hnone : d.step de = none := if_pos h
      exact absurd (hnone.symm.trans hdialed) (by simp)

theorem crashed_run (h : s.connector_.crashed = true) (hrun : clientMachine.run s es = some s') :
    s'.connector_.crashed = true := by
  induction es generalizing s with
  | nil =>
      obtain rfl := Option.some.inj hrun
      exact h
  | cons e es ih =>
      obtain ⟨t, hstep, hrest⟩ := Option.bind_eq_some_iff.mp hrun
      exact ih (crashed_step h hstep) hrest

/-- **A run** after `stop()` makes nothing. -/
theorem Stopped.run (h : s.Stopped) (hL : Lone s.connects s.connector_) (hone : s.connects ≤ 1)
    (hes : ∀ e ∈ es, e.connected = 0) (hrun : clientMachine.run s es = some s') :
    s'.Stopped ∧ Stays s.connector_ s'.connector_ ∧ Lone s'.connects s'.connector_ := by
  induction es generalizing s with
  | nil =>
      obtain rfl := Option.some.inj hrun
      exact ⟨h, ⟨h.connector, rfl, rfl, id⟩, hL⟩
  | cons e es ih =>
      obtain ⟨t, hstep, hrest⟩ := Option.bind_eq_some_iff.mp hrun
      obtain ⟨hconnect, hes⟩ := List.forall_mem_cons.mp hes
      have hone' : t.connects ≤ 1 := by
        rw [connects_of_step hconnect hstep]
        exact hone
      obtain ⟨hstopped, hstays, -⟩ := h.step (m := 0) hL hconnect hstep
      obtain ⟨hstopped', hstays', hL'⟩ := ih hstopped (lone_step hL hone' hstep) hone' hes hrest
      exact ⟨hstopped', hstays.trans hstays', hL'⟩

/-- When more functors have run than were ahead of `stopInLoop`, no attempt is in flight. -/
theorem Stopped.run_comes (h : s.Stopped) (hL : Lone s.connects s.connector_) (hone : s.connects ≤ 1)
    (hes : ∀ e ∈ es, e.connected = 0) (hrun : clientMachine.run s es = some s')
    (hcomes : Comes s.connector_.loop m) (hran : m < es.countP Event.runsFunctor) :
    s'.connector_.crashed = true ∨ s'.connector_.connector.state_ ≠ .kConnecting := by
  induction es generalizing s m with
  | nil => exact absurd hran (Nat.not_lt_zero m)
  | cons e es ih =>
      obtain ⟨t, hstep, hrest⟩ := Option.bind_eq_some_iff.mp hrun
      obtain ⟨hconnect, hes⟩ := List.forall_mem_cons.mp hes
      have hone' : t.connects ≤ 1 := by
        rw [connects_of_step hconnect hstep]
        exact hone
      have hL' := lone_step hL hone' hstep
      obtain ⟨hstopped, -, hmoved⟩ := h.step (m := m) hL hconnect hstep
      rw [List.countP_cons] at hran
      rcases hmoved hcomes with hcrashed | ⟨hruns, hcomes'⟩ | ⟨hruns, hidle | ⟨k, rfl, hcomes'⟩⟩
      · exact .inl (crashed_run hcrashed hrest)
      · rw [hruns] at hran
        exact ih hstopped hL' hone' hes hrest hcomes' hran
      · exact .inr ((hstopped.run hL' hone' hes hrest).2.1.idle hidle)
      · rw [if_pos hruns] at hran
        exact ih hstopped hL' hone' hes hrest hcomes' (Nat.lt_of_succ_lt_succ hran)

/-- The `stopInLoop` that `stop()` queued in `s` has run by the time that `es` has led to `s'`: as many
    functors as were ahead of it, and one more. -/
def StopInLoopRan (s : TcpClient) (es : List Event) (s' : TcpClient) : Prop :=
  s.connector_.loop.waiting.length < es.countP Event.runsFunctor ∧ s'.connector_.crashed = false

instance (s : TcpClient) (es : List Event) (s' : TcpClient) : Decidable (s.StopInLoopRan es s') :=
  inferInstanceAs (Decidable (_ ∧ _))

/-- **Stop is final.** After `stop()` the connector makes no socket and calls `newConnectionCallback_` no
    more; and when its `stopInLoop` has run, no attempt is in flight and every socket that the connector
    made has been closed or handed over. -/
theorem stop_is_final {caller : Thread} (h : clientMachine.Reachable s) (hconnects : s.connects = 1)
    (hstop : s.step (.stop caller) = some s₁) (hrun : clientMachine.run s₁ es = some s₂)
    (hes : ∀ e ∈ es, e.connected = 0) :
    s₂.connector_.nextFd = s.connector_.nextFd ∧ s₂.connector_.handed = s.connector_.handed ∧
      (s.StopInLoopRan es s₂ →
        s₂.connector_.connector.state_ ≠ .kConnecting ∧
          ∀ fd, fd < s₂.connector_.nextFd →
            s₂.connector_.closed.count fd + s₂.connector_.handed.count fd = 1) := by
  have hL := reachable_lone h (Nat.le_of_eq hconnects)
  have hsame : s₁.connects = s.connects := connects_of_step rfl hstop
  have hone : s₁.connects ≤ 1 := Nat.le_of_eq (hsame.trans hconnects)
  have hL₁ := lone_step hL hone hstop
  obtain ⟨d, hd, rfl⟩ := Option.map_eq_some_iff.mp hstop
  obtain ⟨hoff, hnext, hhanded, hcomes⟩ := step_stop hd
  have hstopped : Stopped { s with connect_ := false, connector_ := d } := ⟨rfl, hoff⟩
  obtain ⟨-, hstays, hL₂⟩ := hstopped.run hL₁ hone hes hrun
  refine ⟨hstays.nextFd.trans hnext, hstays.handed.trans hhanded, ?_⟩
  rintro ⟨hran, hcrashed⟩
  have hidle : s₂.connector_.connector.state_ ≠ .kConnecting := by
    refine (hstopped.run_comes hL₁ hone hes hrun hcomes hran).resolve_left ?_
    rw [hcrashed]
    simp
  refine ⟨hidle, fun fd hfd => ?_⟩
  have honce := hL₂.once fd
  rw [inFlight_idle hidle, List.nil_append, List.count_append, if_pos hfd] at honce
  exact honce

/-- The attempt in flight succeeds after another thread has called `stop()`. -/
def afterStop : List Event :=
  [.handleEvent ⟨false, false, true⟩, .runCallback ⟨false, false⟩, .endEvent, .doPendingFunctors,
    .runFunctor .zero, .runFunctor .zero, .runFunctor .zero, .endFunctors]

theorem stop_is_final_connecting :
    ∃ s s₁ s₂, clientMachine.run (TcpClient.new true false)
        [.connect .loop .EINPROGRESS, .doPendingFunctors, .endFunctors] = some s ∧
      s.step (.stop (.other 1)) = some s₁ ∧ clientMachine.run s₁ afterStop = some s₂ ∧
      s.connector_.connector.state_ = .kConnecting ∧
      s₂.connector_.handed = [] ∧ s₂.connector_.closed.count 0 + s₂.connector_.handed.count 0 = 1 := by
  have hrun : ((clientMachine.run (TcpClient.new true false)
      [.connect .loop .EINPROGRESS, .doPendingFunctors, .endFunctors]).bind fun s =>
        (s.step (.stop (.other 1))).bind fun s₁ =>
          (clientMachine.run s₁ afterStop).map fun s₂ =>
            (s.connects, s.connector_.connector.state_, s.connector_.handed, s₂.connector_.nextFd,
              decide (s.StopInLoopRan afterStop s₂))) =
      some (1, .kConnecting, [], 1, true) := by
    decide +kernel
  obtain ⟨s, hs, hrun⟩ := Option.bind_eq_some_iff.mp hrun
  obtain ⟨s₁, hs₁, hrun⟩ := Option.bind_eq_some_iff.mp hrun
  obtain ⟨s₂, hs₂, hvalues⟩ := Option.map_eq_some_iff.mp hrun
  simp only [Prod.mk.injEq, decide_eq_true_eq] at hvalues
  obtain ⟨hconnects, hbusy, hhanded, hnext, hran⟩ := hvalues
  have hreach := Machine.run_reachable (M := clientMachine) ⟨true, false, rfl⟩ hs
  obtain ⟨-, hsame, hover⟩ := stop_is_final hreach hconnects hs₁ hs₂ (by decide)
  refine ⟨s, s₁, s₂, hs, hs₁, hs₂, hbusy, hsame.trans hhanded, (hover hran).2 0 ?_⟩
  rw [hnext]
  exact Nat.one_pos

end TcpClient

end Simplev
