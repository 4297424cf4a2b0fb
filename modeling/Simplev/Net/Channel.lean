import Simplev.Foundation.Outcome

/-!
# `Net.Channel` — one watched descriptor (`Channel.h`, `Channel.cc`)

The interest set of `ioWatcher_` is two bits. No owner under `net` ties its channel, so `handleEvent` is
`handleEventWithGuard`, and that is a list of callbacks fixed by the bits libev delivered: the error
callback, then the read callback, then the write callback. The machines call them one by one, between
`beginEvent` and `endEvent`.
-/

namespace Simplev

open Foundation

structure Channel where
  fd_ : Nat
  /-- `ioWatcher_.events & ev::READ`. -/
  reading : Bool
  /-- `ioWatcher_.events & ev::WRITE`. -/
  writing : Bool
  /-- `ioWatcher_` is started. -/
  active : Bool
  eventHandling_ : Bool
deriving DecidableEq, Repr

/-- The bits libev passes to `handleEvent`. -/
structure Revents where
  error : Bool
  read : Bool
  write : Bool
deriving DecidableEq, Repr

/-- The callbacks an owner sets. -/
inductive EventCallback where
  | errorCallback
  | readCallback
  | writeCallback
deriving DecidableEq, Repr

namespace Channel

def new (fd : Nat) : Channel where
  fd_ := fd
  reading := false
  writing := false
  active := true
  eventHandling_ := false

def enableReading (ch : Channel) : Channel := { ch with reading := true }
def disableReading (ch : Channel) : Channel := { ch with reading := false }
def enableWriting (ch : Channel) : Channel := { ch with writing := true }
def disableWriting (ch : Channel) : Channel := { ch with writing := false }
def isWriting (ch : Channel) : Bool := ch.writing
def disableAll (ch : Channel) : Channel := { ch with reading := false, writing := false }
def isNoneEvent (ch : Channel) : Bool := !ch.reading && !ch.writing
def stop (ch : Channel) : Channel := { ch with active := false }

/-- `remove`, with `EventLoop::removeChannel`. -/
def remove (ch : Channel) : Outcome Channel := do
  Outcome.assert (ch.isNoneEvent = true) "isNoneEvent()"
  return ch.stop

/-- libev calls a started watcher, and only for events in its interest set. -/
def Delivers (ch : Channel) (revents : Revents) : Prop :=
  ch.active = true ∧ (revents.read = true → ch.reading = true) ∧
    (revents.write = true → ch.writing = true)

instance (ch : Channel) (revents : Revents) : Decidable (ch.Delivers revents) :=
  inferInstanceAs (Decidable (_ ∧ _))

/-- The callbacks `handleEventWithGuard` makes, in its order. -/
def handleEventWithGuard (revents : Revents) : List EventCallback :=
  (if revents.error then [.errorCallback] else []) ++
  (if revents.read then [.readCallback] else []) ++
  (if revents.write then [.writeCallback] else [])

/-- libev will report that the descriptor is writable. -/
def IsWatched (ch : Channel) : Prop := ch.active = true ∧ ch.writing = true

def beginEvent (ch : Channel) : Channel := { ch with eventHandling_ := true }
def endEvent (ch : Channel) : Channel := { ch with eventHandling_ := false }

theorem enableWriting_of_isWriting {ch : Channel} (h : ch.isWriting = true) :
    ch.enableWriting = ch := by
  cases ch
  simp only [isWriting] at h
  rw [enableWriting, h]

theorem mem_handleEventWithGuard {revents : Revents} {cb : EventCallback} :
    cb ∈ handleEventWithGuard revents ↔
      match cb with
      | .errorCallback => revents.error = true
      | .readCallback => revents.read = true
      | .writeCallback => revents.write = true := by
  obtain ⟨_ | _, _ | _, _ | _⟩ := revents <;> cases cb <;> simp [handleEventWithGuard]

/-- The read callback comes before the write callback, and neither comes twice. -/
theorem handleEventWithGuard_nodup (revents : Revents) : (handleEventWithGuard revents).Nodup := by
  obtain ⟨_ | _, _ | _, _ | _⟩ := revents <;> decide

end Channel

end Simplev
