import Mathlib.Data.List.Basic

/-!
# `Net.EventLoop` — the functor queue of a loop (`EventLoop.cc`)

`queueInLoop` pushes at the back of `pendingFunctors_`; `doPendingFunctors` swaps the queue with a
local vector and runs that vector from front to back. The vector is kept in two parts: the functors
that ran (they hold their bound arguments until the vector dies) and those still to run. The wakeup
descriptor is left out: it decides when the loop runs, not what it runs.
-/

namespace Simplev

/-- Which thread makes a call: the loop's own, or another one. -/
inductive Thread where
  | loop
  | other (id : Nat)
deriving DecidableEq, Repr

/-- The queue of one loop, over the type of its functors. -/
structure EventLoop (φ : Type) where
  pendingFunctors_ : List φ
  /-- `doPendingFunctors` is between its swap and its return. -/
  callingPendingFunctors_ : Bool
  /-- The functors of the local vector that ran. -/
  ran : List φ
  /-- The functors of the local vector still to run. -/
  rest : List φ
deriving DecidableEq, Repr

namespace EventLoop

variable {φ : Type}

def new : EventLoop φ := ⟨[], false, [], []⟩

def queueInLoop (l : EventLoop φ) (f : φ) : EventLoop φ :=
  { l with pendingFunctors_ := l.pendingFunctors_ ++ [f] }

/-- Several functors queued one after the other. -/
def queueAll (l : EventLoop φ) (fs : List φ) : EventLoop φ :=
  { l with pendingFunctors_ := l.pendingFunctors_ ++ fs }

/-- `doPendingFunctors` up to its loop. -/
def swapFunctors (l : EventLoop φ) : EventLoop φ :=
  { pendingFunctors_ := [], callingPendingFunctors_ := true, ran := [], rest := l.pendingFunctors_ }

/-- The next `functors[i]()`, and the loop as that functor finds it. -/
def nextFunctor (l : EventLoop φ) : Option (φ × EventLoop φ) :=
  match l.rest with
  | [] => none
  | f :: fs => some (f, { l with ran := l.ran ++ [f], rest := fs })

/-- `doPendingFunctors` returns: the local vector dies. -/
def endFunctors (l : EventLoop φ) : EventLoop φ :=
  { l with callingPendingFunctors_ := false, ran := [], rest := [] }

/-- The functors that have not run, in the order in which they will. -/
def waiting (l : EventLoop φ) : List φ := l.rest ++ l.pendingFunctors_

/-- The functors whose bound arguments are alive. -/
def alive (l : EventLoop φ) : List φ := l.ran ++ l.waiting

@[simp] theorem queueAll_nil (l : EventLoop φ) : l.queueAll [] = l := by
  unfold queueAll
  rw [List.append_nil]

theorem queueAll_append (l : EventLoop φ) (fs gs : List φ) :
    l.queueAll (fs ++ gs) = (l.queueAll fs).queueAll gs := by
  unfold queueAll
  rw [List.append_assoc]

@[simp] theorem waiting_new : (new : EventLoop φ).waiting = [] := rfl

@[simp] theorem waiting_queueAll (l : EventLoop φ) (fs : List φ) :
    (l.queueAll fs).waiting = l.waiting ++ fs :=
  (List.append_assoc _ _ _).symm

@[simp] theorem waiting_queueInLoop (l : EventLoop φ) (f : φ) :
    (l.queueInLoop f).waiting = l.waiting ++ [f] :=
  waiting_queueAll l [f]

/-- A new batch may begin once the old one has run out; it changes no order. -/
theorem waiting_swapFunctors {l : EventLoop φ} (h : l.rest = []) :
    l.swapFunctors.waiting = l.waiting := by
  simp only [waiting, swapFunctors, h, List.nil_append, List.append_nil]

/-- What `nextFunctor` leaves: the rest of the batch, and everything else as it was. -/
theorem nextFunctor_eq {l l' : EventLoop φ} {f : φ} (h : l.nextFunctor = some (f, l')) :
    l.rest = f :: l'.rest ∧ l'.pendingFunctors_ = l.pendingFunctors_ ∧
      l'.callingPendingFunctors_ = l.callingPendingFunctors_ := by
  unfold nextFunctor at h
  split at h
  · cases h
  · rename_i g gs hrest
    simp only [Option.some.injEq, Prod.mk.injEq] at h
    obtain ⟨rfl, rfl⟩ := h
    exact ⟨hrest, rfl, rfl⟩

theorem ran_nextFunctor {l l' : EventLoop φ} {f : φ} (h : l.nextFunctor = some (f, l')) :
    l'.ran = l.ran ++ [f] := by
  unfold nextFunctor at h
  split at h
  · cases h
  · obtain ⟨rfl, rfl⟩ := Prod.mk.inj (Option.some.inj h)
    rfl

/-- The next functor is the first of those that wait. -/
theorem nextFunctor_waiting {l l' : EventLoop φ} {f : φ} (h : l.nextFunctor = some (f, l')) :
    l.waiting = f :: l'.waiting := by
  obtain ⟨hrest, hpending, -⟩ := nextFunctor_eq h
  unfold waiting
  rw [hrest, hpending, List.cons_append]

theorem waiting_endFunctors {l : EventLoop φ} (h : l.rest = []) :
    l.endFunctors.waiting = l.waiting := by
  simp only [waiting, endFunctors, h]

/-! ## The functors of one kind -/

variable {α : Type} (g : φ → Option α)

/-- What `g` finds in the functors that wait. -/
def waitingOf (l : EventLoop φ) : List α := l.waiting.filterMap g

/-- What it finds in those of the next batch. -/
def pendingOf (l : EventLoop φ) : List α := l.pendingFunctors_.filterMap g

@[simp] theorem waitingOf_queueInLoop (l : EventLoop φ) (f : φ) :
    (l.queueInLoop f).waitingOf g = l.waitingOf g ++ (g f).toList := by
  unfold waitingOf
  rw [waiting_queueInLoop, List.filterMap_append]
  cases hf : g f <;> simp [hf]

@[simp] theorem pendingOf_queueInLoop (l : EventLoop φ) (f : φ) :
    (l.queueInLoop f).pendingOf g = l.pendingOf g ++ (g f).toList := by
  unfold pendingOf queueInLoop
  rw [List.filterMap_append]
  cases hf : g f <;> simp [hf]

theorem waitingOf_nextFunctor {l l' : EventLoop φ} {f : φ} (h : l.nextFunctor = some (f, l')) :
    l.waitingOf g = (g f).toList ++ l'.waitingOf g := by
  unfold waitingOf
  rw [nextFunctor_waiting h, List.filterMap_cons]
  cases hf : g f <;> simp

theorem pendingOf_nextFunctor {l l' : EventLoop φ} {f : φ} (h : l.nextFunctor = some (f, l')) :
    l'.pendingOf g = l.pendingOf g := by
  unfold pendingOf
  rw [(nextFunctor_eq h).2.1]

theorem waitingOf_swapFunctors {l : EventLoop φ} (h : l.rest = []) :
    l.swapFunctors.waitingOf g = l.waitingOf g := by
  unfold waitingOf
  rw [waiting_swapFunctors h]

theorem waitingOf_endFunctors {l : EventLoop φ} (h : l.rest = []) :
    l.endFunctors.waitingOf g = l.waitingOf g := by
  unfold waitingOf
  rw [waiting_endFunctors h]

/-- Once a batch has run out, what waits is pending. -/
theorem waitingOf_of_rest {l : EventLoop φ} (h : l.rest = []) : l.waitingOf g = l.pendingOf g := by
  unfold waitingOf waiting pendingOf
  rw [h, List.nil_append]

/-- The queue as one sees it who looks for the functors of that kind only. -/
def only (l : EventLoop φ) : EventLoop α where
  pendingFunctors_ := l.pendingFunctors_.filterMap g
  callingPendingFunctors_ := l.callingPendingFunctors_
  ran := l.ran.filterMap g
  rest := l.rest.filterMap g

@[simp] theorem waiting_only (l : EventLoop φ) : (l.only g).waiting = l.waitingOf g := by
  unfold waiting waitingOf only waiting
  rw [List.filterMap_append]

theorem only_queueInLoop {l : EventLoop φ} {f : φ} :
    (l.queueInLoop f).only g = (l.only g).queueAll (g f).toList := by
  unfold only queueInLoop queueAll
  rw [List.filterMap_append, List.filterMap_cons]
  cases g f <;> rfl

theorem only_nextFunctor {l l' : EventLoop φ} {f : φ} (h : l.nextFunctor = some (f, l')) :
    match g f with
    | some a => (l.only g).nextFunctor = some (a, l'.only g)
    | none => l'.only g = l.only g := by
  unfold nextFunctor at h
  split at h
  · cases h
  · rename_i f' fs hrest
    obtain ⟨rfl, rfl⟩ := Prod.mk.inj (Option.some.inj h)
    unfold only nextFunctor
    cases hf : g f' with
    | some a => simp [hrest, hf]
    | none => simp [hrest, hf]

end EventLoop

end Simplev
