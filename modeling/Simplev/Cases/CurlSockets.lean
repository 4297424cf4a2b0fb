import Mathlib.Logic.Function.Basic
import Simplev.Foundation.Machine
import Simplev.Net.Channel

/-!
# `Cases.CurlSockets` — the channels of the transfers (`Curl.cc`)

libcurl says which descriptors it wants watched, and for what, in calls of `socketCallback`; the request of
the transfer makes the Channel for it, and removes it again. Most of these calls come in the middle of that
Channel's own `handleEvent`. A removed Channel therefore lives on in a functor of the loop, and `tie_` keeps
the request until the handler has returned.

`sockets` is what libcurl keeps about its sockets, and one step is a call that the loop, libcurl or the
user's code makes. The asserts that have failed are kept in `failed`.
-/

namespace Simplev

open Foundation

namespace CurlSockets

/-- The argument `what` of `socketCallback`, `CURL_POLL_NONE` to `CURL_POLL_REMOVE`. -/
inductive Poll where
  | pollNone
  | pollIn
  | pollOut
  | pollInout
  | pollRemove
deriving DecidableEq, Repr

/-- `what & CURL_POLL_OUT`. -/
def Poll.out : Poll → Bool
  | .pollOut | .pollInout => true
  | .pollNone | .pollIn | .pollRemove => false

/-- libcurl's entry for a descriptor it has asked for: the handle it first asked for, what it asked last, and
    the pointer of `curl_multi_assign`. -/
structure Socket where
  fd : Nat
  easy : Nat
  what : Poll
  socketp : Option Nat
deriving DecidableEq, Repr

structure Request where
  channel_ : Option Nat
  /-- The user's code has a `RequestPtr`. -/
  held : Bool
deriving DecidableEq, Repr

/-- A Channel that `setChannel` made, and the request that `tie_` names. -/
structure TiedChannel where
  channel : Channel
  tie_ : Nat
deriving DecidableEq, Repr

/-- A `handleEvent` that runs: the callbacks it has still to make, and what `guard` holds. -/
structure Handling where
  channel : Nat
  guard : Nat
  callbacks : List EventCallback
deriving DecidableEq, Repr

structure State where
  requests : Nat → Option Request
  numRequests : Nat
  channels : Nat → Option TiedChannel
  numChannels : Nat
  sockets : List Socket
  /-- The Channels bound in the functors `dummy`. -/
  pendingFunctors_ : List Nat
  /-- Those of the `doPendingFunctors` that runs. -/
  functors : Option (List Nat)
  handling : Option Handling
  /-- In `curl_multi_socket_action`. -/
  acting : Bool
  /-- In the `curl_multi_remove_handle` of a `~Request`. -/
  destroying : Option Nat
  /-- The asserts that have failed. -/
  failed : List String

def State.new : State where
  requests _ := none
  numRequests := 0
  channels _ := none
  numChannels := 0
  sockets := []
  pendingFunctors_ := []
  functors := none
  handling := none
  acting := false
  destroying := none
  failed := []

inductive Event where
  | getUrl
  /-- The user's code takes a `RequestPtr` of a request. -/
  | keep (i : Nat)
  /-- The user's code lets its `RequestPtr`s of a request go. -/
  | release (i : Nat)
  | onTimer
  /-- libev calls a watcher. -/
  | handleEvent (c : Nat) (revents : Revents)
  /-- `handleEventWithGuard` makes its next callback: `onRead` or `onWrite`. -/
  | callback
  /-- libcurl calls `socketCallback`. -/
  | socketCallback (easy fd : Nat) (what : Poll)
  /-- The last `curl_multi_socket_action` of `onTimer`, `onRead` or `onWrite` returns. -/
  | actionReturns
  | handlerReturns
  /-- `curl_multi_remove_handle` returns. -/
  | removeReturns
  | doPendingFunctors
  | endFunctors
deriving DecidableEq, Repr

namespace State

def assert (s : State) (c : Prop) [Decidable c] (expr : String) : State :=
  { s with failed := s.failed ++ Outcome.unmet c expr }

/-- What `guard` holds, if a handler runs. -/
def guard (s : State) : Option Nat := s.handling.map Handling.guard

/-- The loop is between two callbacks. -/
def Idle (s : State) : Prop :=
  s.handling = none ∧ s.acting = false ∧ s.destroying = none ∧ s.functors = none

instance (s : State) : Decidable s.Idle := inferInstanceAs (Decidable (_ ∧ _))

def setRequest (s : State) (i : Nat) (r : Request) : State :=
  { s with requests := Function.update s.requests i (some r) }

/-- A call of a member of a Channel. -/
def update (s : State) (c : Nat) (f : Channel → Channel) : State :=
  { s with
    channels := Function.update s.channels c
      ((s.channels c).map fun t => { t with channel := f t.channel }) }

/-- The last `shared_ptr` to a Channel goes: `~Channel`. -/
def free (s : State) (c : Nat) : State :=
  match s.channels c with
  | none => s
  | some t =>
    { s.assert (t.channel.eventHandling_ = false) "!eventHandling_" with
      channels := Function.update s.channels c none }

/-- What `channel_` points to goes. -/
def reset (s : State) (r : Request) : State :=
  match r.channel_ with
  | none => s
  | some c => s.free c

def setChannel (s : State) (i fd : Nat) (r : Request) : State :=
  let s := s.assert (r.channel_ = none) "channel_.get() == NULL"
  let s := s.reset r
  { s.setRequest i { r with channel_ := some s.numChannels } with
    channels := Function.update s.channels s.numChannels (some ⟨Channel.new fd, i⟩)
    numChannels := s.numChannels + 1 }

/-- `Channel::remove`, with `EventLoop::removeChannel`. -/
def remove (s : State) (c : Nat) : State :=
  match s.channels c with
  | none => s
  | some t => (s.assert (t.channel.isNoneEvent = true) "isNoneEvent()").update c Channel.stop

def removeChannel (s : State) (i : Nat) (r : Request) : State :=
  match r.channel_ with
  -- boost asserts this in `operator->`
  | none => s.assert False "px != 0"
  | some c =>
    let s := (s.update c Channel.disableAll).remove c
    { s.setRequest i { r with channel_ := none } with pendingFunctors_ := s.pendingFunctors_ ++ [c] }

/-- libcurl's entry for a descriptor. -/
def socket (s : State) (fd : Nat) : Option Socket := s.sockets.find? (·.fd == fd)

def setSocket (s : State) (fd : Nat) (f : Socket → Socket) : State :=
  { s with sockets := s.sockets.map fun x => if x.fd = fd then f x else x }

/-- `curl_multi_assign`. -/
def assign (s : State) (fd : Nat) (socketp : Option Nat) : State :=
  s.setSocket fd fun x => { x with socketp := socketp }

def getChannel (s : State) (i : Nat) : Option Nat := (s.requests i).bind Request.channel_

/-- `update`, the end of `Curl::socketCallback`. -/
def poll (s : State) (i ch : Nat) (what : Poll) : State :=
  let s := s.assert (s.getChannel i = some ch) "req->getChannel() == ch"
  s.update ch (if what.out then Channel.enableWriting else Channel.disableWriting)

def socketCallback (s : State) (easy fd : Nat) (what : Poll) (socketp : Option Nat) : State :=
  match s.requests easy with
  | none => s
  | some req =>
    if what = .pollRemove then
      let s := s.assert (req.channel_ = socketp) "req->getChannel() == ch"
      (s.removeChannel easy req).assign fd none
    else
      match socketp with
      | none =>
        let ch := s.numChannels
        let s := (s.setChannel easy fd req).update ch Channel.enableReading
        (s.assign fd (some ch)).poll easy ch what
      | some ch => s.poll easy ch what

/-- libcurl's part of the call. -/
def callSocketFunction (s : State) (easy fd : Nat) (what : Poll) : State :=
  match s.socket fd with
  | none =>
    let s : State := { s with sockets := s.sockets ++ [⟨fd, easy, what, none⟩] }
    s.socketCallback easy fd what none
  | some x =>
    if what = .pollRemove then
      let s := s.socketCallback easy fd what x.socketp
      { s with sockets := s.sockets.filter (·.fd ≠ fd) }
    else
      (s.setSocket fd fun x => { x with what := what }).socketCallback easy fd what x.socketp

/-- `!channel_ || channel_->isNoneEvent()` -/
def isNoneEvent (s : State) (r : Request) : Bool :=
  match r.channel_.bind s.channels with
  | none => true
  | some t => t.channel.isNoneEvent

/-- The beginning of `~Request`. -/
def destroy (s : State) (i : Nat) (r : Request) : State :=
  { s.assert (s.isNoneEvent r = true) "!channel_ || channel_->isNoneEvent()" with destroying := some i }

/-- A `RequestPtr` of the request goes, and the request with the last one. -/
def unref (s : State) (i : Nat) : State :=
  match s.requests i with
  | none => s
  | some r => if r.held = true ∨ s.guard = some i then s else s.destroy i r

def step (s : State) : Event → Option State
  | .getUrl =>
    if s.destroying = none then
      some { s.setRequest s.numRequests ⟨none, true⟩ with numRequests := s.numRequests + 1 }
    else none
  | .keep i =>
    match s.requests i with
    | none => none
    | some r => if s.destroying = none then some (s.setRequest i { r with held := true }) else none
  | .release i =>
    match s.requests i with
    | none => none
    | some r =>
      -- libcurl forbids `curl_multi_remove_handle` in its callbacks
      if r.held = true ∧ s.destroying = none ∧ (s.acting = false ∨ s.guard = some i) then
        some ((s.setRequest i { r with held := false }).unref i)
      else none
  | .onTimer => if s.Idle then some { s with acting := true } else none
  | .handleEvent c revents =>
    match s.channels c with
    | none => none
    | some t =>
      if s.Idle ∧ t.channel.Delivers revents then
        -- `tie_.lock()`
        match s.requests t.tie_ with
        | none => some s
        | some _ =>
          some { s.update c Channel.beginEvent with
            handling := some ⟨c, t.tie_, Channel.handleEventWithGuard revents⟩ }
      else none
  | .callback =>
    match s.handling with
    | none => none
    | some h =>
      if s.acting = false ∧ s.destroying = none then
        match h.callbacks with
        | [] => none
        -- `errorCallback_` is not set
        | .errorCallback :: rest => some { s with handling := some { h with callbacks := rest } }
        | .readCallback :: rest | .writeCallback :: rest =>
          some { s with handling := some { h with callbacks := rest }, acting := true }
      else none
  | .socketCallback easy fd what =>
    if (s.acting = true ∨ s.destroying = some easy ∧ what = .pollRemove) ∧
        (s.requests easy).isSome ∧ (what = .pollRemove → (s.socket fd).isSome) then
      some (s.callSocketFunction easy fd what)
    else none
  | .actionReturns => if s.acting = true then some { s with acting := false } else none
  | .handlerReturns =>
    match s.handling with
    | none => none
    | some h =>
      if h.callbacks = [] ∧ s.acting = false ∧ s.destroying = none then
        some ({ s.update h.channel Channel.endEvent with handling := none }.unref h.guard)
      else none
  | .removeReturns =>
    match s.destroying with
    | none => none
    | some i =>
      match s.requests i with
      | none => none
      | some r =>
        let s := s.reset r
        some { s with requests := Function.update s.requests i none, destroying := none }
  | .doPendingFunctors =>
    if s.Idle then some { s with functors := some s.pendingFunctors_, pendingFunctors_ := [] } else none
  | .endFunctors =>
    match s.functors with
    | none => none
    | some functors =>
      if s.acting = false ∧ s.destroying = none then
        some { functors.foldl free s with functors := none }
      else none

/-! ## What the asserts ask of libcurl and of the user -/

/-- libcurl has no socket for the handle. -/
def Unused (s : State) (i : Nat) : Prop := ∀ x ∈ s.sockets, x.easy ≠ i

instance (s : State) (i : Nat) : Decidable (s.Unused i) :=
  inferInstanceAs (Decidable (∀ x ∈ s.sockets, x.easy ≠ i))

/-- A socket belongs to one handle, a handle has one socket at a time, and a request does not go while it has
    one. -/
def Fits (s : State) : Event → Prop
  | .socketCallback easy fd _ =>
    match s.socket fd with
    | none => s.Unused easy
    | some x => x.easy = easy
  | .release i => s.guard = some i ∨ s.Unused i
  | .handlerReturns =>
    ∀ h, s.handling = some h → ∀ r, s.requests h.guard = some r → r.held = true ∨ s.Unused h.guard
  | _ => True

end State

/-- All runs of the channels of a `Curl`. -/
def machine : Machine State Event where
  init s := s = State.new
  step := State.step

namespace State

variable {s s' : State}

/-! ## The operations -/

theorem assert_true {c : Prop} [Decidable c] (h : c) (expr : String) : s.assert c expr = s := by
  unfold assert Outcome.unmet
  rw [if_pos h, List.append_nil]

/-- What an assert asks for holds when none has failed after it. -/
theorem assert_failed {c : Prop} [Decidable c] {expr : String} :
    (s.assert c expr).failed = [] ↔ s.failed = [] ∧ c := by
  show s.failed ++ Outcome.unmet c expr = [] ↔ s.failed = [] ∧ c
  rw [List.append_eq_nil_iff, Outcome.unmet_eq_nil]

theorem update_self {c : Nat} {t : TiedChannel} (h : s.channels c = some t) (f : Channel → Channel) :
    (s.update c f).channels c = some { t with channel := f t.channel } := by
  show Function.update s.channels c _ c = _
  rw [Function.update_self, h]
  rfl

theorem update_of_ne {c d : Nat} (hne : d ≠ c) (f : Channel → Channel) :
    (s.update c f).channels d = s.channels d :=
  Function.update_of_ne hne _ _

theorem free_failed {c : Nat} (h : (s.free c).failed = []) : s.failed = [] := by
  unfold free at h
  split at h
  · exact h
  · exact (assert_failed.mp h).1

theorem reset_failed {r : Request} (h : (s.reset r).failed = []) : s.failed = [] := by
  unfold reset at h
  split at h
  · exact h
  · exact free_failed h

theorem setChannel_failed {i fd : Nat} {r : Request} (h : (s.setChannel i fd r).failed = []) :
    s.failed = [] ∧ r.channel_ = none :=
  assert_failed.mp (reset_failed h)

theorem remove_failed {c : Nat} (h : (s.remove c).failed = []) : s.failed = [] := by
  unfold remove at h
  split at h
  · exact h
  · exact (assert_failed.mp h).1

theorem removeChannel_failed {i : Nat} {r : Request} (h : (s.removeChannel i r).failed = []) :
    s.failed = [] := by
  unfold removeChannel at h
  split at h
  · exact (assert_failed.mp h).1
  · exact remove_failed (s := s.update _ Channel.disableAll) h

theorem poll_failed {i ch : Nat} {what : Poll} (h : (s.poll i ch what).failed = []) :
    s.failed = [] ∧ s.getChannel i = some ch :=
  assert_failed.mp h

theorem socketCallback_failed {easy fd : Nat} {what : Poll} {socketp : Option Nat}
    (h : (s.socketCallback easy fd what socketp).failed = []) : s.failed = [] := by
  unfold socketCallback at h
  split at h
  · exact h
  · split at h
    · exact (assert_failed.mp (removeChannel_failed h)).1
    · split at h
      · have hset : (s.setChannel easy fd _).failed = [] := (poll_failed h).1
        exact (setChannel_failed hset).1
      · exact (poll_failed h).1

theorem callSocketFunction_failed {easy fd : Nat} {what : Poll}
    (h : (s.callSocketFunction easy fd what).failed = []) : s.failed = [] := by
  unfold callSocketFunction at h
  split at h
  · exact socketCallback_failed (s := { s with sockets := s.sockets ++ [_] }) h
  · split at h
    · exact socketCallback_failed (s := s) h
    · exact socketCallback_failed (s := s.setSocket fd _) h

theorem unref_failed {i : Nat} (h : (s.unref i).failed = []) : s.failed = [] := by
  unfold unref at h
  split at h
  · exact h
  · split at h
    · exact h
    · exact (assert_failed.mp h).1

theorem foldl_free_failed {cs : List Nat} (h : (cs.foldl free s).failed = []) : s.failed = [] := by
  induction cs generalizing s with
  | nil => exact h
  | cons c cs ih => exact free_failed (ih h)

/-! ## The steps -/

/-- What a step does, and when. -/
inductive Step (s : State) : Event → State → Prop where
  | getUrl : s.destroying = none →
      Step s .getUrl { s.setRequest s.numRequests ⟨none, true⟩ with numRequests := s.numRequests + 1 }
  | keep {i : Nat} {r : Request} : s.requests i = some r → s.destroying = none →
      Step s (.keep i) (s.setRequest i { r with held := true })
  | release {i : Nat} {r : Request} : s.requests i = some r → s.destroying = none →
      (s.acting = false ∨ s.guard = some i) →
      Step s (.release i) ((s.setRequest i { r with held := false }).unref i)
  | onTimer : s.Idle → Step s .onTimer { s with acting := true }
  | expired {c : Nat} {revents : Revents} {t : TiedChannel} : s.channels c = some t →
      t.channel.Delivers revents → s.requests t.tie_ = none → Step s (.handleEvent c revents) s
  | handleEvent {c : Nat} {revents : Revents} {t : TiedChannel} {r : Request} : s.channels c = some t →
      s.Idle → t.channel.Delivers revents → s.requests t.tie_ = some r →
      Step s (.handleEvent c revents) { s.update c Channel.beginEvent with
        handling := some ⟨c, t.tie_, Channel.handleEventWithGuard revents⟩ }
  | callback {h : Handling} {rest : List EventCallback} {acting : Bool} : s.handling = some h →
      s.acting = false → s.destroying = none →
      Step s .callback { s with handling := some { h with callbacks := rest }, acting := acting }
  | socketCallback {easy fd : Nat} {what : Poll} {r : Request} :
      (s.acting = true ∨ s.destroying = some easy ∧ what = .pollRemove) → s.requests easy = some r →
      (what = .pollRemove → (s.socket fd).isSome) →
      Step s (.socketCallback easy fd what) (s.callSocketFunction easy fd what)
  | actionReturns : s.acting = true → Step s .actionReturns { s with acting := false }
  | handlerReturns {h : Handling} : s.handling = some h → s.acting = false → s.destroying = none →
      Step s .handlerReturns ({ s.update h.channel Channel.endEvent with handling := none }.unref h.guard)
  | removeReturns {i : Nat} {r : Request} : s.destroying = some i → s.requests i = some r →
      Step s .removeReturns { s.reset r with
        requests := Function.update (s.reset r).requests i none, destroying := none }
  | doPendingFunctors : s.Idle →
      Step s .doPendingFunctors { s with functors := some s.pendingFunctors_, pendingFunctors_ := [] }
  | endFunctors {functors : List Nat} : s.functors = some functors → s.acting = false →
      s.destroying = none → Step s .endFunctors { functors.foldl free s with functors := none }

theorem step_inv {e : Event} (h : s.step e = some s') : s.Step e s' := by
  cases e with
  | getUrl =>
      simp only [step, Option.ite_none_right_eq_some, Option.some.injEq] at h
      obtain ⟨hnone, rfl⟩ := h
      exact .getUrl hnone
  | keep i =>
      simp only [step] at h
      split at h
      · cases h
      · rename_i r hr
        simp only [Option.ite_none_right_eq_some, Option.some.injEq] at h
        obtain ⟨hnone, rfl⟩ := h
        exact .keep hr hnone
  | release i =>
      simp only [step] at h
      split at h
      · cases h
      · rename_i r hr
        simp only [Option.ite_none_right_eq_some, Option.some.injEq] at h
        obtain ⟨⟨-, hnone, hplace⟩, rfl⟩ := h
        exact .release hr hnone hplace
  | onTimer =>
      simp only [step, Option.ite_none_right_eq_some, Option.some.injEq] at h
      obtain ⟨hidle, rfl⟩ := h
      exact .onTimer hidle
  | handleEvent c revents =>
      simp only [step] at h
      split at h
      · cases h
      · rename_i t ht
        rw [Option.ite_none_right_eq_some] at h
        obtain ⟨⟨hidle, hdelivers⟩, h⟩ := h
        split at h
        · rename_i hr
          obtain rfl := Option.some.inj h
          exact .expired ht hdelivers hr
        · rename_i r hr
          obtain rfl := Option.some.inj h
          exact .handleEvent ht hidle hdelivers hr
  | callback =>
      simp only [step] at h
      split at h
      · cases h
      · rename_i handling hhandling
        rw [Option.ite_none_right_eq_some] at h
        obtain ⟨⟨hacting, hnone⟩, h⟩ := h
        split at h
        · cases h
        all_goals
          obtain rfl := Option.some.inj h
          exact .callback hhandling hacting hnone
  | socketCallback easy fd what =>
      simp only [step, Option.ite_none_right_eq_some, Option.some.injEq] at h
      obtain ⟨⟨hplace, hreq, hsocket⟩, rfl⟩ := h
      obtain ⟨r, hr⟩ := Option.isSome_iff_exists.mp hreq
      exact .socketCallback hplace hr hsocket
  | actionReturns =>
      simp only [step, Option.ite_none_right_eq_some, Option.some.injEq] at h
      obtain ⟨hacting, rfl⟩ := h
      exact .actionReturns hacting
  | handlerReturns =>
      simp only [step] at h
      split at h
      · cases h
      · rename_i handling hhandling
        simp only [Option.ite_none_right_eq_some, Option.some.injEq] at h
        obtain ⟨⟨-, hacting, hnone⟩, rfl⟩ := h
        exact .handlerReturns hhandling hacting hnone
  | removeReturns =>
      simp only [step] at h
      split at h
      · cases h
      · rename_i i hi
        split at h
        · cases h
        · rename_i r hr
          obtain rfl := Option.some.inj h
          exact .removeReturns hi hr
  | doPendingFunctors =>
      simp only [step, Option.ite_none_right_eq_some, Option.some.injEq] at h
      obtain ⟨hidle, rfl⟩ := h
      exact .doPendingFunctors hidle
  | endFunctors =>
      simp only [step] at h
      split at h
      · cases h
      · rename_i functors hfunctors
        simp only [Option.ite_none_right_eq_some, Option.some.injEq] at h
        obtain ⟨⟨hacting, hnone⟩, rfl⟩ := h
        exact .endFunctors hfunctors hacting hnone

/-- A failed assert stays on record. -/
theorem step_failed {e : Event} (hstep : s.step e = some s') (h : s'.failed = []) : s.failed = [] := by
  cases step_inv hstep with
  | release _ _ _ => exact unref_failed (s := s.setRequest _ _) h
  | socketCallback _ _ _ => exact callSocketFunction_failed h
  | handlerReturns _ _ _ => exact unref_failed (s := { s.update _ Channel.endEvent with handling := none }) h
  | removeReturns _ _ => exact reset_failed (s := s) h
  | endFunctors _ _ _ => exact foldl_free_failed (s := s) h
  | _ => exact h

end State

end CurlSockets

end Simplev
