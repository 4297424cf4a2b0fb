import Mathlib.Logic.Function.Basic
import Simplev.Foundation.Machine

/-!
# `Base.Mutex` — who holds a mutex (`Mutex.h`, `Condition.h`, `CurrentThread.h`)

`MutexLock` keeps the id of its holder beside the pthread mutex, and writes it in statements of its own.
Here `lock`, `unlock` and `wait` are the lists of their statements; a thread has the rest of such a list
left to run, and threads take turns between statements. A pthread operation is one step, but
`pthread_cond_wait` is three: it releases the mutex and sleeps, it is woken, it gets the mutex again.

- **The users** are scopes of `MutexLockGuard`, in any number of threads. `wait` is called under a guard. A
  guard under another guard of the same mutex never gets it.
- **Wakeups.** A sleeper may be woken at any time, so there is no need for `notify`: a signal, a broadcast,
  a timeout and a wakeup for no reason are all `wake`.
- **`Place`.** Where a thread can be, and whether it owns the mutex and is named by `holder_` there.
  `Sound` says that the threads are at such places and `holder_` agrees.
- **`holder_is_owner`.** What follows for `holder_` and `assertLocked` in every run.
-/

namespace Simplev

open Foundation

namespace Mutex

/-- What `gettid()` returns. A thread is its id. -/
abbrev Tid := { id : Int // 0 < id }

/-- The two ways of waiting for a condition. -/
inductive CondWait where
  | pthread_cond_wait (cond : Nat)
  | pthread_cond_timedwait (cond : Nat)
deriving DecidableEq, Repr

inductive Stmt where
  | pthread_mutex_lock
  | pthread_mutex_unlock
  | assignHolder
  | unassignHolder
  /-- Release the mutex and sleep. -/
  | release (call : CondWait)
  /-- In the sleep. -/
  | asleep (call : CondWait)
  /-- Get the mutex again. -/
  | reacquire
deriving DecidableEq, Repr

/-- `MutexLock::lock()`. -/
def lock : List Stmt := [.pthread_mutex_lock, .assignHolder]

/-- `MutexLock::unlock()`. -/
def unlock : List Stmt := [.unassignHolder, .pthread_mutex_unlock]

/-- An `UnassignGuard` around the call. -/
def waitBy (call : CondWait) : List Stmt := [.unassignHolder, .release call, .assignHolder]

/-- `Condition::wait()`. -/
def wait (cond : Nat) : List Stmt := waitBy (.pthread_cond_wait cond)

/-- `Condition::waitForSeconds()`. -/
def waitForSeconds (cond : Nat) : List Stmt := waitBy (.pthread_cond_timedwait cond)

structure MutexLock where
  /-- The owner of the pthread mutex. -/
  mutex_ : Option Tid
  holder_ : Int
deriving DecidableEq, Repr

structure Thread where
  t_cachedTid : Int
  /-- The guards whose constructor has been called, and whose destructor has not. -/
  guards : Nat
  /-- The statements of `lock`, `unlock` or `wait` that are left to run; none in the code of the user. -/
  code : List Stmt
deriving DecidableEq, Repr

namespace Thread

def new : Thread := ⟨0, 0, []⟩

/-- `CurrentThread::tid()`. -/
def tid (th : Thread) (t : Tid) : Int := if th.t_cachedTid = 0 then t else th.t_cachedTid

/-- What `CurrentThread::tid()` leaves. -/
def cacheTid (th : Thread) (t : Tid) : Thread := { th with t_cachedTid := th.tid t }

end Thread

/-- A `MutexLock` and the threads that use it. -/
structure State where
  lock : MutexLock
  threads : Tid → Thread
  /-- The mutex was released by a thread that did not own it. -/
  misused : Bool

inductive Event where
  /-- The constructor of a `MutexLockGuard` is called. -/
  | construct (t : Tid)
  /-- The destructor of the last one is called. -/
  | destruct (t : Tid)
  | wait (t : Tid) (cond : Nat)
  | waitForSeconds (t : Tid) (cond : Nat)
  | assertLocked (t : Tid)
  /-- The next statement of `t` runs. -/
  | run (t : Tid)
  | wake (t : Tid)
  /-- The thread ends. A new one may get its id. -/
  | exit (t : Tid)
deriving DecidableEq, Repr

namespace State

def new : State := ⟨⟨none, 0⟩, fun _ => .new, false⟩

def setThread (s : State) (t : Tid) (th : Thread) : State :=
  { s with threads := Function.update s.threads t th }

/-- `isLockedByThisThread()`, which `assertLocked()` asserts. -/
def isLockedByThisThread (s : State) (t : Tid) : Bool := s.lock.holder_ == (s.threads t).tid t

/-- Thread `t` runs one statement, with `rest` to follow. -/
def exec (s : State) (t : Tid) (rest : List Stmt) : Stmt → Option State
  | .pthread_mutex_lock | .reacquire =>
    if s.lock.mutex_ = none then
      some ({ s with lock := { s.lock with mutex_ := some t } }.setThread t
        { s.threads t with code := rest })
    else none
  | .pthread_mutex_unlock =>
    some ({ s with
      lock := { s.lock with mutex_ := none }
      misused := s.misused || decide (s.lock.mutex_ ≠ some t) }.setThread t
        { s.threads t with code := rest })
  | .assignHolder =>
    some ({ s with lock := { s.lock with holder_ := (s.threads t).tid t } }.setThread t
      { (s.threads t).cacheTid t with code := rest })
  | .unassignHolder =>
    some ({ s with lock := { s.lock with holder_ := 0 } }.setThread t
      { s.threads t with code := rest })
  | .release call =>
    some ({ s with
      lock := { s.lock with mutex_ := none }
      misused := s.misused || decide (s.lock.mutex_ ≠ some t) }.setThread t
        { s.threads t with code := .asleep call :: rest })
  | .asleep _ => none

def step (s : State) : Event → Option State
  | .construct t =>
    if (s.threads t).code = [] then
      some (s.setThread t { s.threads t with guards := (s.threads t).guards + 1, code := Mutex.lock })
    else none
  | .destruct t =>
    if (s.threads t).code = [] ∧ 0 < (s.threads t).guards then
      some (s.setThread t { s.threads t with guards := (s.threads t).guards - 1, code := unlock })
    else none
  | .wait t cond =>
    if (s.threads t).code = [] ∧ 0 < (s.threads t).guards then
      some (s.setThread t { s.threads t with code := Mutex.wait cond })
    else none
  | .waitForSeconds t cond =>
    if (s.threads t).code = [] ∧ 0 < (s.threads t).guards then
      some (s.setThread t { s.threads t with code := Mutex.waitForSeconds cond })
    else none
  | .assertLocked t =>
    if (s.threads t).code = [] then some (s.setThread t ((s.threads t).cacheTid t)) else none
  | .run t =>
    match (s.threads t).code with
    | [] => none
    | stmt :: rest => s.exec t rest stmt
  | .wake t =>
    match (s.threads t).code with
    | .asleep _ :: rest => some (s.setThread t { s.threads t with code := .reacquire :: rest })
    | _ => none
  | .exit t =>
    if (s.threads t).code = [] ∧ (s.threads t).guards = 0 then some (s.setThread t .new) else none

/-- The thread that writes `holder_` at this step. -/
def writer (s : State) : Event → Option Tid
  | .run t =>
    match (s.threads t).code with
    | .assignHolder :: _ | .unassignHolder :: _ => some t
    | _ => none
  | _ => none

end State

/-- All runs of the users of one mutex. -/
def machine : Machine State Event where
  init s := s = State.new
  step := State.step

/-! ## Where a thread can be -/

inductive Place where
  /-- Under no guard. -/
  | out
  /-- In the constructor of a guard, before it has the mutex. -/
  | locking
  /-- It has the mutex, and has not written its id. -/
  | assigning
  /-- In the user's code under a guard. -/
  | inside
  /-- It waits for the mutex it owns. -/
  | nested
  /-- In the destructor. -/
  | leaving
  /-- It has cleared `holder_`, and still has the mutex. -/
  | unlocking
  /-- In `wait`, before `holder_` is cleared. -/
  | waiting (call : CondWait)
  | releasing (call : CondWait)
  | asleep (call : CondWait)
  | reacquiring

namespace Place

def guards : Place → Nat
  | out | leaving | unlocking => 0
  | locking | assigning | inside | waiting _ | releasing _ | asleep _ | reacquiring => 1
  | nested => 2

/-- What is left to run there. -/
def code : Place → List Stmt
  | out | inside => []
  | locking | nested => Mutex.lock
  | assigning => [.assignHolder]
  | leaving => unlock
  | unlocking => [.pthread_mutex_unlock]
  | waiting call => waitBy call
  | releasing call => [.release call, .assignHolder]
  | asleep call => [.asleep call, .assignHolder]
  | reacquiring => [.reacquire, .assignHolder]

/-- The thread owns the pthread mutex. -/
def owns : Place → Bool
  | out | locking | asleep _ | reacquiring => false
  | assigning | inside | nested | leaving | unlocking | waiting _ | releasing _ => true

/-- `holder_` is its id. -/
def named : Place → Bool
  | inside | nested | leaving | waiting _ => true
  | out | locking | assigning | unlocking | releasing _ | asleep _ | reacquiring => false

end Place

structure Thread.At (th : Thread) (t : Tid) (p : Place) : Prop where
  guards : th.guards = p.guards
  code : th.code = p.code
  cached : th.t_cachedTid = 0 ∨ th.t_cachedTid = t

/-- What the lock says of a thread at `p`. -/
structure MutexLock.Agrees (l : MutexLock) (t : Tid) (p : Place) : Prop where
  owner : l.mutex_ = some t ↔ p.owns = true
  holder : p.owns = true → l.holder_ = if p.named then (t : Int) else 0

/-- **The invariant of a mutex.** -/
structure State.Sound (s : State) : Prop where
  place : ∀ t, ∃ p, (s.threads t).At t p ∧ s.lock.Agrees t p
  free : s.lock.mutex_ = none → s.lock.holder_ = 0
  proper : s.misused = false

theorem Thread.new_at (t : Tid) : Thread.new.At t .out := ⟨rfl, rfl, Or.inl rfl⟩

theorem Thread.At.tid_eq {th : Thread} {t : Tid} {p : Place} (h : th.At t p) : th.tid t = t := by
  unfold Thread.tid
  split
  · rfl
  · rename_i hne
    exact h.cached.resolve_left hne

theorem Thread.At.cacheTid {th : Thread} {t : Tid} {p : Place} (h : th.At t p) :
    (th.cacheTid t).At t p :=
  ⟨h.guards, h.code, Or.inr h.tid_eq⟩

/-- A thread goes from one place to another under the same guards. -/
theorem Thread.At.goto {th : Thread} {t : Tid} {p q : Place} {code : List Stmt} (h : th.At t p)
    (hcode : code = q.code) (hguards : q.guards = p.guards) :
    ({ th with code := code } : Thread).At t q :=
  ⟨h.guards.trans hguards.symm, hcode, h.cached⟩

/-- An owner is the only one. -/
theorem MutexLock.Agrees.other_ne {l : MutexLock} {t : Tid} {p : Place} (h : l.Agrees t p)
    (howns : p.owns = true) (u : Tid) (hu : u ≠ t) : l.mutex_ ≠ some u := by
  rw [h.owner.mpr howns]
  intro heq
  exact hu (Option.some.inj heq).symm

namespace State

variable {s s' : State}

@[simp] theorem setThread_lock (t : Tid) (th : Thread) : (s.setThread t th).lock = s.lock := rfl

@[simp] theorem setThread_misused (t : Tid) (th : Thread) : (s.setThread t th).misused = s.misused := rfl

@[simp] theorem setThread_self (t : Tid) (th : Thread) : (s.setThread t th).threads t = th := by
  simp [setThread]

theorem setThread_ne {t u : Tid} (h : u ≠ t) (th : Thread) : (s.setThread t th).threads u = s.threads u := by
  simp [setThread, h]

theorem new_sound : State.new.Sound where
  place t := ⟨.out, Thread.new_at t, by simp [new, Place.owns], by simp [Place.owns]⟩
  free _ := rfl
  proper := rfl

/-- A step of a thread that leaves the lock as it is. -/
theorem Sound.stay (h : s.Sound) {t : Tid} {p q : Place} {th : Thread} (hlock : s.lock.Agrees t p)
    (hth : th.At t q) (howns : q.owns = p.owns) (hnamed : q.named = p.named) :
    (s.setThread t th).Sound where
  place u := by
    by_cases hu : u = t
    · subst hu
      refine ⟨q, by rw [setThread_self]; exact hth, ?_, ?_⟩
      · rw [howns]
        exact hlock.owner
      · rw [howns, hnamed]
        exact hlock.holder
    · rw [setThread_ne hu]
      exact h.place u
  free := h.free
  proper := h.proper

/-- A step of a thread that writes the lock: no other thread owns it, before or after. -/
theorem Sound.write (h : s.Sound) {t : Tid} {p : Place} {th : Thread} {lock : MutexLock}
    (hold : ∀ u, u ≠ t → s.lock.mutex_ ≠ some u) (hnew : ∀ u, u ≠ t → lock.mutex_ ≠ some u)
    (hth : th.At t p) (hlock : lock.Agrees t p) (hfree : lock.mutex_ = none → lock.holder_ = 0) :
    ({ s with lock := lock } : State).setThread t th |>.Sound where
  place u := by
    by_cases hu : u = t
    · subst hu
      exact ⟨p, by rw [setThread_self]; exact hth, hlock⟩
    · rw [setThread_ne hu]
      obtain ⟨q, hq, hagrees⟩ := h.place u
      have hnot : ¬ q.owns = true := fun howns => hold u hu (hagrees.owner.mpr howns)
      exact ⟨q, hq, iff_of_false (hnew u hu) hnot, fun howns => absurd howns hnot⟩
  free := hfree
  proper := h.proper

/-- The pthread mutex is got by a thread that does not have it. -/
theorem Sound.acquire (h : s.Sound) {t : Tid} {p : Place} (hat : (s.threads t).At t p)
    (hguards : p.guards = 1) (hmutex : s.lock.mutex_ = none) :
    (({ s with lock := { s.lock with mutex_ := some t } } : State).setThread t
      { s.threads t with code := [.assignHolder] }).Sound := by
  refine h.write ?_ ?_ (hat.goto (q := .assigning) rfl hguards.symm) ?_ ?_
  · intro u _ hu
    rw [hmutex] at hu
    simp at hu
  · intro u hu heq
    exact hu (Option.some.inj heq).symm
  · exact ⟨iff_of_true rfl rfl, fun _ => h.free hmutex⟩
  · intro hnone
    simp at hnone

/-- Its owner gives it back, with `holder_` cleared. -/
theorem Sound.release (h : s.Sound) {t : Tid} {p q : Place} (hat : (s.threads t).At t p)
    (hagrees : s.lock.Agrees t p) (howns : p.owns = true) (hnamed : p.named = false)
    (hguards : q.guards = p.guards) (hgone : q.owns = false) :
    (({ s with
      lock := { s.lock with mutex_ := none }
      misused := s.misused || decide (s.lock.mutex_ ≠ some t) } : State).setThread t
        { s.threads t with code := q.code }).Sound := by
  have hproper : (s.misused || decide (s.lock.mutex_ ≠ some t)) = s.misused := by
    rw [hagrees.owner.mpr howns]
    simp
  have hzero : s.lock.holder_ = 0 := by
    rw [hagrees.holder howns, hnamed]
    rfl
  rw [hproper]
  refine h.write (hagrees.other_ne howns) ?_ (hat.goto rfl hguards) ?_ fun _ => hzero
  · intro u _ hu
    simp at hu
  · refine ⟨iff_of_false (by simp) (by simp [hgone]), fun howns' => ?_⟩
    rw [hgone] at howns'
    simp at howns'

/-- Its owner writes `holder_`. -/
theorem Sound.writeHolder (h : s.Sound) {t : Tid} {p q : Place} {th : Thread} {holder : Int}
    (hagrees : s.lock.Agrees t p) (howns : p.owns = true) (hth : th.At t q) (howns' : q.owns = true)
    (hholder : holder = if q.named then (t : Int) else 0) :
    (({ s with lock := { s.lock with holder_ := holder } } : State).setThread t th).Sound := by
  have hmutex := hagrees.owner.mpr howns
  refine h.write (hagrees.other_ne howns) (hagrees.other_ne howns) hth ?_ ?_
  · exact ⟨iff_of_true hmutex howns', fun _ => hholder⟩
  · intro hnone
    rw [show s.lock.mutex_ = none from hnone] at hmutex
    simp at hmutex

/-- **A statement of a thread.** -/
theorem Sound.run (h : s.Sound) {t : Tid} (hstep : s.step (.run t) = some s') : s'.Sound := by
  obtain ⟨p, hat, hagrees⟩ := h.place t
  have hcode := hat.code
  cases p with
  | out | inside => simp [step, hcode, Place.code] at hstep
  | asleep call => simp [step, hcode, Place.code, exec] at hstep
  | locking | reacquiring =>
      simp only [step, hcode, Place.code, Mutex.lock, exec, Option.ite_none_right_eq_some,
        Option.some.injEq] at hstep
      obtain ⟨hmutex, rfl⟩ := hstep
      exact h.acquire hat rfl hmutex
  | nested =>
      -- the mutex is not free, and never will be
      simp only [step, hcode, Place.code, Mutex.lock, exec, Option.ite_none_right_eq_some,
        Option.some.injEq] at hstep
      have howner := hagrees.owner.mpr rfl
      rw [hstep.1] at howner
      simp at howner
  | assigning =>
      simp only [step, hcode, Place.code, exec, Option.some.injEq] at hstep
      obtain rfl := hstep
      exact h.writeHolder (q := .inside) hagrees rfl ⟨hat.guards, rfl, Or.inr hat.tid_eq⟩ rfl hat.tid_eq
  | leaving =>
      simp only [step, hcode, Place.code, unlock, exec, Option.some.injEq] at hstep
      obtain rfl := hstep
      exact h.writeHolder (q := .unlocking) hagrees rfl (hat.goto rfl rfl) rfl rfl
  | waiting call =>
      simp only [step, hcode, Place.code, waitBy, exec, Option.some.injEq] at hstep
      obtain rfl := hstep
      exact h.writeHolder (q := .releasing call) hagrees rfl (hat.goto rfl rfl) rfl rfl
  | unlocking =>
      simp only [step, hcode, Place.code, exec, Option.some.injEq] at hstep
      obtain rfl := hstep
      exact h.release (q := .out) hat hagrees rfl rfl rfl rfl
  | releasing call =>
      simp only [step, hcode, Place.code, exec, Option.some.injEq] at hstep
      obtain rfl := hstep
      exact h.release (q := .asleep call) hat hagrees rfl rfl rfl rfl

/-- Where a thread is that runs the user's code. -/
theorem Sound.user (h : s.Sound) {t : Tid} (hcode : (s.threads t).code = []) :
    ((s.threads t).At t .out ∧ s.lock.Agrees t .out) ∨
      ((s.threads t).At t .inside ∧ s.lock.Agrees t .inside) := by
  obtain ⟨p, hat, hagrees⟩ := h.place t
  have hplace : p.code = [] := hat.code.symm.trans hcode
  cases p with
  | out => exact Or.inl ⟨hat, hagrees⟩
  | inside => exact Or.inr ⟨hat, hagrees⟩
  | _ => simp [Place.code, Mutex.lock, unlock, waitBy] at hplace

theorem Sound.user_out (h : s.Sound) {t : Tid} (hcode : (s.threads t).code = [])
    (hguards : (s.threads t).guards = 0) : (s.threads t).At t .out ∧ s.lock.Agrees t .out := by
  rcases h.user hcode with hout | ⟨hat, _⟩
  · exact hout
  · rw [hat.guards] at hguards
    exact absurd hguards Nat.one_ne_zero

theorem Sound.user_guarded (h : s.Sound) {t : Tid} (hcode : (s.threads t).code = [])
    (hguards : 0 < (s.threads t).guards) : (s.threads t).At t .inside ∧ s.lock.Agrees t .inside := by
  rcases h.user hcode with ⟨hat, _⟩ | hinside
  · rw [hat.guards] at hguards
    exact absurd hguards (Nat.lt_irrefl 0)
  · exact hinside

/-- **The step lemma.** -/
theorem Sound.step (h : s.Sound) {e : Event} (hstep : s.step e = some s') : s'.Sound := by
  cases e with
  | run t => exact h.run hstep
  | construct t =>
      simp only [State.step, Option.ite_none_right_eq_some, Option.some.injEq] at hstep
      obtain ⟨hcode, rfl⟩ := hstep
      rcases h.user hcode with ⟨hat, hagrees⟩ | ⟨hat, hagrees⟩
      · exact h.stay (q := .locking) hagrees ⟨by rw [hat.guards]; rfl, rfl, hat.cached⟩ rfl rfl
      · -- a second guard on a mutex that the thread has: it will wait for itself
        exact h.stay (q := .nested) hagrees ⟨by rw [hat.guards]; rfl, rfl, hat.cached⟩ rfl rfl
  | destruct t =>
      simp only [State.step, Option.ite_none_right_eq_some, Option.some.injEq] at hstep
      obtain ⟨⟨hcode, hguards⟩, rfl⟩ := hstep
      obtain ⟨hat, hagrees⟩ := h.user_guarded hcode hguards
      exact h.stay (q := .leaving) hagrees ⟨by rw [hat.guards]; rfl, rfl, hat.cached⟩ rfl rfl
  | wait t cond =>
      simp only [State.step, Option.ite_none_right_eq_some, Option.some.injEq] at hstep
      obtain ⟨⟨hcode, hguards⟩, rfl⟩ := hstep
      obtain ⟨hat, hagrees⟩ := h.user_guarded hcode hguards
      exact h.stay (q := .waiting (.pthread_cond_wait cond)) hagrees (hat.goto rfl rfl) rfl rfl
  | waitForSeconds t cond =>
      simp only [State.step, Option.ite_none_right_eq_some, Option.some.injEq] at hstep
      obtain ⟨⟨hcode, hguards⟩, rfl⟩ := hstep
      obtain ⟨hat, hagrees⟩ := h.user_guarded hcode hguards
      exact h.stay (q := .waiting (.pthread_cond_timedwait cond)) hagrees (hat.goto rfl rfl) rfl rfl
  | assertLocked t =>
      simp only [State.step, Option.ite_none_right_eq_some, Option.some.injEq] at hstep
      obtain ⟨_, rfl⟩ := hstep
      obtain ⟨p, hat, hagrees⟩ := h.place t
      exact h.stay hagrees hat.cacheTid rfl rfl
  | wake t =>
      obtain ⟨p, hat, hagrees⟩ := h.place t
      have hcode := hat.code
      cases p with
      | asleep call =>
          simp only [State.step, hcode, Place.code, Option.some.injEq] at hstep
          obtain rfl := hstep
          exact h.stay (q := .reacquiring) hagrees (hat.goto rfl rfl) rfl rfl
      | _ => simp [State.step, hcode, Place.code, Mutex.lock, unlock, waitBy] at hstep
  | exit t =>
      simp only [State.step, Option.ite_none_right_eq_some, Option.some.injEq] at hstep
      obtain ⟨⟨hcode, hguards⟩, rfl⟩ := hstep
      exact h.stay (h.user_out hcode hguards).2 (Thread.new_at t) rfl rfl

theorem reachable_sound (h : machine.Reachable s) : s.Sound := by
  refine h.invariant ?_ ?_
  · rintro s rfl
    exact new_sound
  · intro s e s' _ hs _ hstep
    exact hs.step hstep

/-! ## The holder -/

/-- Thread `t` is between the construction and the destruction of a guard and not in `wait`: in the user's
    code, or in the constructor of another guard. -/
def UnderGuard (s : State) (t : Tid) : Prop :=
  (0 < (s.threads t).guards ∧ (s.threads t).code = []) ∨
    (1 < (s.threads t).guards ∧ (s.threads t).code = Mutex.lock)

theorem Sound.underGuard (h : s.Sound) {t : Tid} (hunder : s.UnderGuard t) :
    s.lock.mutex_ = some t ∧ s.lock.holder_ = t := by
  rcases hunder with ⟨hguards, hcode⟩ | ⟨hguards, hcode⟩
  · obtain ⟨_, hagrees⟩ := h.user_guarded hcode hguards
    exact ⟨hagrees.owner.mpr rfl, hagrees.holder rfl⟩
  · obtain ⟨p, hat, hagrees⟩ := h.place t
    have hplace : p.code = Mutex.lock := hat.code.symm.trans hcode
    have hcount := hat.guards
    cases p with
    -- inside the constructor of the second guard the first one still holds
    | nested => exact ⟨hagrees.owner.mpr rfl, hagrees.holder rfl⟩
    | locking =>
        rw [hcount] at hguards
        exact absurd hguards (Nat.lt_irrefl 1)
    | _ => simp [Place.code, Mutex.lock, unlock, waitBy] at hplace

/-- Where `holder_` is written, the writer owns the mutex. -/
theorem Sound.writer_owns (h : s.Sound) {e : Event} {t : Tid} (hwriter : s.writer e = some t) :
    s.lock.mutex_ = some t := by
  cases e with
  | run u =>
      obtain ⟨p, hat, hagrees⟩ := h.place u
      have hcode := hat.code
      cases p with
      | assigning | leaving | waiting _ =>
          simp only [writer, hcode, Place.code, unlock, waitBy, Option.some.injEq] at hwriter
          obtain rfl := hwriter
          exact hagrees.owner.mpr rfl
      | _ => simp [writer, hcode, Place.code, Mutex.lock] at hwriter
  | _ => simp [writer] at hwriter

theorem exec_holder {t : Tid} {rest : List Stmt} {stmt : Stmt} (hstep : s.exec t rest stmt = some s')
    (hassign : stmt ≠ .assignHolder) (hunassign : stmt ≠ .unassignHolder) :
    s'.lock.holder_ = s.lock.holder_ := by
  cases stmt with
  | assignHolder => exact absurd rfl hassign
  | unassignHolder => exact absurd rfl hunassign
  | asleep _ => simp [exec] at hstep
  | pthread_mutex_lock | reacquire =>
      simp only [exec, Option.ite_none_right_eq_some, Option.some.injEq] at hstep
      obtain ⟨_, rfl⟩ := hstep
      rfl
  | pthread_mutex_unlock | release _ =>
      obtain rfl := Option.some.inj hstep
      rfl

/-- No other step changes `holder_`. -/
theorem holder_kept {e : Event} (hstep : s.step e = some s') (hwriter : s.writer e = none) :
    s'.lock.holder_ = s.lock.holder_ := by
  cases e with
  | run t =>
      cases hcode : (s.threads t).code with
      | nil => simp [step, hcode] at hstep
      | cons stmt rest =>
          simp only [step, hcode] at hstep
          refine exec_holder hstep ?_ ?_
          · rintro rfl
            simp [writer, hcode] at hwriter
          · rintro rfl
            simp [writer, hcode] at hwriter
  | wake t =>
      simp only [step] at hstep
      split at hstep
      · obtain rfl := Option.some.inj hstep
        rfl
      · simp at hstep
  | construct _ | destruct _ | wait _ _ | waitForSeconds _ _ | assertLocked _ | exit _ =>
      simp only [step, Option.ite_none_right_eq_some, Option.some.injEq] at hstep
      obtain ⟨_, rfl⟩ := hstep
      rfl

/-- `holder_` is 0 or names the owner. -/
theorem Sound.holder_cases (h : s.Sound) :
    s.lock.holder_ = 0 ∨ ∃ t : Tid, s.lock.mutex_ = some t ∧ s.lock.holder_ = t := by
  cases hmutex : s.lock.mutex_ with
  | none => exact Or.inl (h.free hmutex)
  | some t =>
      obtain ⟨p, _, hagrees⟩ := h.place t
      have hholder := hagrees.holder (hagrees.owner.mp hmutex)
      split at hholder
      · exact Or.inr ⟨t, rfl, hholder⟩
      · exact Or.inl hholder

/-- `assertLocked()` holds in the user's code under a guard, and nowhere else in it. -/
theorem Sound.isLocked_iff (h : s.Sound) {t : Tid} (hcode : (s.threads t).code = []) :
    s.isLockedByThisThread t = true ↔ 0 < (s.threads t).guards := by
  rcases h.user hcode with ⟨hat, hagrees⟩ | ⟨hat, hagrees⟩
  · -- the thread has no guard, so another one is named, or none
    refine iff_of_false ?_ (by rw [hat.guards]; exact Nat.lt_irrefl 0)
    rw [isLockedByThisThread, hat.tid_eq, beq_iff_eq]
    intro hholder
    rcases h.holder_cases with hzero | ⟨u, howner, hu⟩
    · have hpos := t.property
      omega
    · -- ids tell threads apart, so that `t` would be the owner
      obtain rfl : u = t := Subtype.ext (hu.symm.trans hholder)
      exact absurd (hagrees.owner.mp howner) (by simp [Place.owns])
  · refine iff_of_true ?_ (by rw [hat.guards]; exact Nat.one_pos)
    rw [isLockedByThisThread, hat.tid_eq, beq_iff_eq]
    exact hagrees.holder rfl

/-- Two threads are never under a guard at once. -/
theorem Sound.exclusive (h : s.Sound) {t u : Tid} (ht : s.UnderGuard t) (hu : s.UnderGuard u) : t = u := by
  have howner := (h.underGuard ht).1
  rw [(h.underGuard hu).1] at howner
  exact (Option.some.inj howner).symm

/-- The assert of `~MutexLock()`, once no thread uses the mutex any more. -/
theorem Sound.destructible (h : s.Sound)
    (hunused : ∀ t, (s.threads t).code = [] ∧ (s.threads t).guards = 0) : s.lock.holder_ = 0 := by
  apply h.free
  cases hmutex : s.lock.mutex_ with
  | none => rfl
  | some t =>
      obtain ⟨hcode, hguards⟩ := hunused t
      obtain ⟨_, hagrees⟩ := h.user_out hcode hguards
      exact absurd (hagrees.owner.mp hmutex) (by simp [Place.owns])

/-- **The holder is the owner.** -/
structure HolderIsOwner (s : State) : Prop where
  owner : s.lock.holder_ = 0 ∨ ∃ t : Tid, s.lock.mutex_ = some t ∧ s.lock.holder_ = t
  /-- A thread that is about to write `holder_` owns the mutex. -/
  written : ∀ e t, s.writer e = some t → s.lock.mutex_ = some t
  kept : ∀ e s', s.step e = some s' → s.writer e = none → s'.lock.holder_ = s.lock.holder_
  free : s.lock.mutex_ = none → s.lock.holder_ = 0
  guarded : ∀ t, s.UnderGuard t → s.lock.mutex_ = some t ∧ s.lock.holder_ = t
  /-- `assertLocked()`, wherever a user may call it. -/
  asserted : ∀ t, (s.threads t).code = [] →
    (s.isLockedByThisThread t = true ↔ 0 < (s.threads t).guards)
  /-- The pthread calls that only an owner may make are made by the owner. -/
  proper : s.misused = false

/-- **The holder of a mutex is its owner**, whatever the threads do and in whatever order. -/
theorem holder_is_owner (h : machine.Reachable s) : s.HolderIsOwner :=
  have hs := reachable_sound h
  { owner := hs.holder_cases
    written := fun _ _ hwriter => hs.writer_owns hwriter
    kept := fun _ _ hstep hwriter => holder_kept hstep hwriter
    free := hs.free
    guarded := fun _ hunder => hs.underGuard hunder
    asserted := fun _ hcode => hs.isLocked_iff hcode
    proper := hs.proper }

def thread (n : Nat) : Tid := ⟨n + 1, by omega⟩

/-- The first thread waits; the second one takes the mutex and wakes it, and it has to wait for the
    mutex. -/
def handover : List Event :=
  [.construct (thread 0), .run (thread 0), .run (thread 0), .wait (thread 0) 7, .construct (thread 1),
    .run (thread 0), .run (thread 0), .run (thread 1), .run (thread 1), .assertLocked (thread 1),
    .wake (thread 0), .destruct (thread 1), .run (thread 1), .run (thread 1), .run (thread 0),
    .run (thread 0)]

theorem holder_is_owner_handover :
    ∃ s, machine.Reachable s ∧ s.lock.mutex_ = some (thread 0) ∧ s.lock.holder_ = 1 ∧
      s.HolderIsOwner := by
  have hrun : (machine.run State.new handover).map
      (fun s => (s.lock.mutex_, s.lock.holder_)) = some (some (thread 0), 1) := by decide +kernel
  obtain ⟨s, hs, hvalue⟩ := Option.map_eq_some_iff.mp hrun
  have hreach : machine.Reachable s := Machine.run_reachable rfl hs
  obtain ⟨hmutex, hholder⟩ := Prod.mk.inj hvalue
  exact ⟨s, hreach, hmutex, hholder, holder_is_owner hreach⟩

end State

end Mutex

end Simplev
