import Simplev.Foundation.Machine
import Simplev.Foundation.Shared

/-!
# `Base.Thread` — a Thread object and the thread it starts (`Thread.h`, `Thread.cc`)

Two threads run here: the owner of the object, who starts, joins and destroys it, and the new one, which is in
`startThread`. They share the number `*tid_`. The object holds it by a `shared_ptr`, and the new thread has a
weak pointer to it, in its `ThreadData`, since the object may be gone by the time it runs.

A build with asserts is modelled: a failed assert ends the process, and so does `abort()`.
-/

namespace Simplev

open Foundation

namespace ThreadRun

structure Thread where
  started_ : Bool
  joined_ : Bool
  name_ : String
deriving DecidableEq, Repr

/-- What `t_threadName` of the new thread points to. -/
inductive ThreadName where
  | unknown
  | simplevThread
  /-- The text of `name_`, inside its `ThreadData`. -/
  | own
  | finished
  | crashed
deriving DecidableEq, Repr

/-- Where the new thread is in `startThread`. -/
inductive Stage where
  /-- Before `wkTid_.lock()`. -/
  | starting
  /-- `ptid` is set. -/
  | locked
  | wrote
  /-- Behind the block of `ptid`. -/
  | naming
  | running
  /-- `runInThread` has returned. -/
  | returned
  | ended
deriving DecidableEq, Repr

/-- The new thread, with what the system knows of it. -/
structure Pthread where
  tid : Nat
  stage : Stage
  t_threadName : ThreadName
  /-- `data->name_` is not empty. -/
  named : Bool
  /-- Its `ThreadData` exists. -/
  data : Bool
  joins : Nat
  detaches : Nat
deriving DecidableEq, Repr

structure State where
  /-- The object, until it is destroyed. -/
  thread : Option Thread
  /-- The owner is in `pthread_join`. -/
  joining : Bool
  tid_ : Shared Nat
  pthread : Option Pthread
  /-- What ended the process. -/
  stopped : Option String
deriving DecidableEq, Repr

def State.new (name : String) : State where
  thread := some ⟨false, false, name⟩
  joining := false
  tid_ := Shared.make 0
  pthread := none
  stopped := none

inductive Event where
  /-- `pthread_create` makes a thread with this id, or fails. -/
  | start (tid : Option Nat)
  | join
  | joinReturns
  /-- `~Thread`. -/
  | destroy
  | lock
  | write
  | reset
  | callFunc
  | funcReturns
  | funcThrows
  /-- `delete data` and `return`. -/
  | deleteData
deriving DecidableEq, Repr

namespace State

def start (s : State) (t : Thread) (tid : Option Nat) : State :=
  if t.started_ then { s with stopped := some "!started_" }
  else
    match tid with
    | none => { s with stopped := some "abort" }
    | some tid =>
      { s with
        thread := some { t with started_ := true }
        pthread := some ⟨tid, .starting, .unknown, t.name_ ≠ "", true, 0, 0⟩ }

def join (s : State) (t : Thread) : State :=
  if t.started_ = false then { s with stopped := some "started_" }
  else if t.joined_ then { s with stopped := some "!joined_" }
  else { s with thread := some { t with joined_ := true }, joining := true }

def destroy (s : State) (t : Thread) : State :=
  { s with
    thread := none
    tid_ := s.tid_.release
    pthread :=
      if t.started_ && !t.joined_ then s.pthread.map fun p => { p with detaches := p.detaches + 1 }
      else s.pthread }

/-- The new thread goes on. -/
def setStage (s : State) (p : Pthread) (stage : Stage) : State :=
  { s with pthread := some { p with stage := stage } }

/-- A call of the owner. -/
def own (s : State) (f : Thread → State) : Option State :=
  match s.thread with
  | some t => if s.stopped = none ∧ s.joining = false then some (f t) else none
  | none => none

/-- A step of the new thread. -/
def goOn (s : State) (stage : Stage) (f : Pthread → State) : Option State :=
  match s.pthread with
  | some p => if s.stopped = none ∧ p.stage = stage then some (f p) else none
  | none => none

def step (s : State) : Event → Option State
  | .start tid => s.own fun t => s.start t tid
  | .join => s.own s.join
  | .joinReturns =>
    if s.joining = true then
      s.goOn .ended fun p =>
        { s with joining := false, pthread := some { p with joins := p.joins + 1 } }
    else none
  | .destroy => s.own s.destroy
  | .lock => s.goOn .starting fun p =>
      match s.tid_.lock with
      | none => s.setStage p .naming
      | some tid => { s.setStage p .locked with tid_ := tid }
  | .write => s.goOn .locked fun p => { s.setStage p .wrote with tid_ := s.tid_.write p.tid }
  | .reset => s.goOn .wrote fun p => { s.setStage p .naming with tid_ := s.tid_.release }
  | .callFunc => s.goOn .naming fun p =>
      let name : ThreadName := if p.named then .own else .simplevThread
      s.setStage { p with t_threadName := name } .running
  | .funcReturns => s.goOn .running fun p => s.setStage { p with t_threadName := .finished } .returned
  -- the handlers of `Exception` and `std::exception` abort, and what is rethrown ends the process too
  | .funcThrows => s.goOn .running fun p =>
      { s.setStage { p with t_threadName := .crashed } .running with stopped := some "abort" }
  | .deleteData => s.goOn .returned fun p => s.setStage { p with data := false } .ended

end State

/-- All runs of a Thread object and the thread it starts. -/
def machine : Machine State Event where
  init s := ∃ name, s = State.new name
  step := State.step

/-- `ptid` of the new thread is set. -/
def Stage.ptid : Stage → Bool
  | .locked | .wrote => true
  | _ => false

/-- `*ptid = tid` is behind it, or was skipped. -/
def Stage.past : Stage → Bool
  | .starting | .locked => false
  | _ => true

namespace State

variable {s s' : State} {t : Thread} {p : Pthread}

theorem own_inv {f : Thread → State} (h : s.own f = some s') :
    ∃ t, s.thread = some t ∧ s.stopped = none ∧ s.joining = false ∧ s' = f t := by
  unfold own at h
  split at h
  · rename_i t ht
    rw [Option.ite_none_right_eq_some, Option.some.injEq] at h
    obtain ⟨⟨hover, hjoining⟩, rfl⟩ := h
    exact ⟨t, ht, hover, hjoining, rfl⟩
  · cases h

theorem goOn_inv {stage : Stage} {f : Pthread → State} (h : s.goOn stage f = some s') :
    ∃ p, s.pthread = some p ∧ p.stage = stage ∧ s' = f p := by
  unfold goOn at h
  split at h
  · rename_i p hp
    rw [Option.ite_none_right_eq_some, Option.some.injEq] at h
    obtain ⟨⟨-, hstage⟩, rfl⟩ := h
    exact ⟨p, hp, hstage, rfl⟩
  · cases h

/-! ## The number -/

/-- The pointers to the number. -/
def holders (s : State) : Nat :=
  (if s.thread.isSome then 1 else 0) + if s.pthread.any (·.stage.ptid) then 1 else 0

/-- **The number is there for whoever uses it**, and while the object exists it is the new thread's id once
    that has written it. -/
structure Numbered (s : State) : Prop where
  counts : s.tid_.Counts s.holders
  written : ∀ p, s.thread.isSome = true → s.pthread = some p → p.stage.past = true →
    s.tid_.object = some p.tid

theorem new_numbered (name : String) : (State.new name).Numbered where
  counts := Shared.counts_make 0
  written _ _ h := by cases h

/-- The new thread goes on, and its pointer stays as it is. -/
theorem Numbered.goOn (h : s.Numbered) (hp : s.pthread = some p) {p' : Pthread}
    (hp' : s'.pthread = some p') (htid : p'.tid = p.tid) (hptid : p'.stage.ptid = p.stage.ptid)
    (hpast : p'.stage.past = true → p.stage.past = true)
    (hthread : s'.thread.isSome = s.thread.isSome) (hshared : s'.tid_ = s.tid_) : s'.Numbered where
  counts := by
    have hcounts := h.counts
    unfold holders at hcounts ⊢
    rw [hp, Option.any_some] at hcounts
    rw [hshared, hthread, hp', Option.any_some, hptid]
    exact hcounts
  written q hq hq' hpast' := by
    obtain rfl := Option.some.inj (hp'.symm.trans hq')
    rw [hshared, htid]
    exact h.written p (hthread ▸ hq) hp (hpast hpast')

theorem Numbered.step (h : s.Numbered)
    (hnone : ∀ t, s.thread = some t → t.started_ = false → s.pthread = none) {e : Event}
    (hstep : s.step e = some s') : s'.Numbered := by
  cases e with
  | start tid =>
      obtain ⟨t, ht, -, -, rfl⟩ := own_inv hstep
      unfold State.start
      split
      · exact ⟨h.counts, h.written⟩
      · rename_i hstarted
        split
        · exact ⟨h.counts, h.written⟩
        · have hcounts := h.counts
          unfold holders at hcounts
          rw [hnone t ht (Bool.eq_false_iff.mpr hstarted), ht] at hcounts
          refine ⟨hcounts, ?_⟩
          rintro p - ⟨⟩ hpast
          cases hpast
  | join =>
      obtain ⟨t, ht, -, -, rfl⟩ := own_inv hstep
      unfold State.join
      split
      · exact ⟨h.counts, h.written⟩
      · split
        · exact ⟨h.counts, h.written⟩
        · have hsome : s.thread.isSome = true := by rw [ht]; rfl
          have hcounts := h.counts
          unfold holders at hcounts
          rw [hsome] at hcounts
          exact ⟨hcounts, fun p _ => h.written p hsome⟩
  | joinReturns =>
      simp only [State.step, Option.ite_none_right_eq_some] at hstep
      obtain ⟨p, hp, -, rfl⟩ := goOn_inv hstep.2
      exact h.goOn hp rfl rfl rfl id rfl rfl
  | destroy =>
      obtain ⟨t, ht, -, -, rfl⟩ := own_inv hstep
      have hcounts := h.counts
      have hany : (destroy s t).pthread.any (·.stage.ptid) = s.pthread.any (·.stage.ptid) := by
        unfold State.destroy
        cases s.pthread with
        | none => cases t.started_ && !t.joined_ <;> rfl
        | some p => cases t.started_ && !t.joined_ <;> rfl
      unfold holders at hcounts
      rw [ht, if_pos Option.isSome_some, Nat.add_comm] at hcounts
      refine ⟨?_, fun p hp => by cases hp⟩
      show s.tid_.release.Counts (0 + if (destroy s t).pthread.any (·.stage.ptid) then 1 else 0)
      rw [hany, Nat.zero_add]
      exact hcounts.release
  | lock =>
      obtain ⟨p, hp, hstage, rfl⟩ := goOn_inv hstep
      have hcounts := h.counts
      have hbefore : s.holders = (if s.thread.isSome then 1 else 0) + 0 := by
        unfold holders
        rw [hp, Option.any_some, hstage]
        rfl
      split
      · -- the object is gone
        rename_i hlock
        have hzero := hcounts.lock_eq_none.mp hlock
        have hgone : s.thread.isSome = false := by
          rw [hbefore] at hzero
          cases hthread : s.thread.isSome with
          | false => rfl
          | true => rw [hthread] at hzero; cases hzero
        have hafter : (s.setStage p .naming).holders = s.holders := by
          rw [hbefore]
          rfl
        refine ⟨hafter.symm ▸ hcounts, fun q hq => ?_⟩
        rw [show s.thread.isSome = true from hq] at hgone
        cases hgone
      · rename_i tid hlock
        obtain ⟨-, hmore, -⟩ := hcounts.lock hlock
        rw [hbefore] at hmore
        refine ⟨hmore, ?_⟩
        rintro q - ⟨⟩ hpast
        cases hpast
  | write =>
      obtain ⟨p, hp, hstage, rfl⟩ := goOn_inv hstep
      have hbefore : s.holders = (if s.thread.isSome then 1 else 0) + 1 := by
        unfold holders
        rw [hp, Option.any_some, hstage]
        rfl
      have hcounts := hbefore ▸ h.counts
      refine ⟨hcounts.write p.tid, ?_⟩
      rintro q - ⟨⟩ -
      exact hcounts.write_object (Nat.succ_pos _) p.tid
  | reset =>
      obtain ⟨p, hp, hstage, rfl⟩ := goOn_inv hstep
      have hbefore : s.holders = (if s.thread.isSome then 1 else 0) + 1 := by
        unfold holders
        rw [hp, Option.any_some, hstage]
        rfl
      have hcounts := hbefore ▸ h.counts
      refine ⟨hcounts.release, ?_⟩
      rintro q hq ⟨⟩ -
      have hpos : 0 < if s.thread.isSome then 1 else 0 := by
        rw [show s.thread.isSome = true from hq]
        exact Nat.one_pos
      exact (hcounts.release_object hpos).trans (h.written p hq hp (by rw [hstage]; rfl))
  | callFunc =>
      obtain ⟨p, hp, hstage, rfl⟩ := goOn_inv hstep
      exact h.goOn hp rfl rfl (by rw [hstage]; rfl) (fun _ => by rw [hstage]; rfl) rfl rfl
  | funcReturns =>
      obtain ⟨p, hp, hstage, rfl⟩ := goOn_inv hstep
      exact h.goOn hp rfl rfl (by rw [hstage]; rfl) (fun _ => by rw [hstage]; rfl) rfl rfl
  | funcThrows =>
      obtain ⟨p, hp, hstage, rfl⟩ := goOn_inv hstep
      exact h.goOn hp rfl rfl (congrArg Stage.ptid hstage.symm) (fun _ => by rw [hstage]; rfl) rfl rfl
  | deleteData =>
      obtain ⟨p, hp, hstage, rfl⟩ := goOn_inv hstep
      exact h.goOn hp rfl rfl (by rw [hstage]; rfl) (fun _ => by rw [hstage]; rfl) rfl rfl

/-! ## Joins -/

/-- **The system's record of the new thread** goes with the flags of the object. -/
structure Recorded (s : State) : Prop where
  started : ∀ t, s.thread = some t → (t.started_ = true ↔ s.pthread.isSome = true)
  order : ∀ t, s.thread = some t → t.joined_ = true → t.started_ = true
  joining : s.joining = true → ∃ t, s.thread = some t ∧ t.joined_ = true
  joined : ∀ t p, s.thread = some t → s.pthread = some p →
    p.detaches = 0 ∧ p.joins = if t.joined_ = true ∧ s.joining = false then 1 else 0
  gone : ∀ p, s.thread = none → s.pthread = some p → p.joins + p.detaches = 1
  sane : ∀ p, s.pthread = some p → (p.data = true ↔ p.stage ≠ .ended) ∧
    (p.t_threadName = .own → p.stage = .running) ∧ (0 < p.joins → p.stage = .ended)

theorem new_recorded (name : String) : (State.new name).Recorded where
  started t ht := by
    obtain rfl := Option.some.inj ht
    simp [State.new]
  order t ht h := by
    obtain rfl := Option.some.inj ht
    cases h
  joining h := by cases h
  joined _ _ _ h := by cases h
  gone _ _ h := by cases h
  sane _ h := by cases h

/-- The process ends. -/
theorem Recorded.ends (h : s.Recorded) (stopped : Option String) : { s with stopped := stopped }.Recorded :=
  ⟨h.started, h.order, h.joining, h.joined, h.gone, h.sane⟩

/-- The new thread goes on, and is not joined by it. -/
theorem Recorded.goOn (h : s.Recorded) (hp : s.pthread = some p) {p' : Pthread}
    (hp' : s'.pthread = some p') (hlive : p.stage ≠ .ended) (hthread : s'.thread = s.thread)
    (hjoining : s'.joining = s.joining) (hjoins : p'.joins = p.joins) (hdetaches : p'.detaches = p.detaches)
    (hdata : p'.data = true ↔ p'.stage ≠ .ended) (hname : p'.t_threadName = .own → p'.stage = .running) :
    s'.Recorded where
  started t ht := by
    rw [hthread] at ht
    have hstarted := h.started t ht
    rw [hp] at hstarted
    rw [hp']
    exact hstarted
  order t ht := h.order t (hthread ▸ ht)
  joining hj := by
    rw [hthread]
    exact h.joining (hjoining ▸ hj)
  joined t q ht hq := by
    obtain rfl := Option.some.inj (hp'.symm.trans hq)
    rw [hthread] at ht
    rw [hjoins, hdetaches, hjoining]
    exact h.joined t p ht hp
  gone q ht hq := by
    obtain rfl := Option.some.inj (hp'.symm.trans hq)
    rw [hjoins, hdetaches]
    exact h.gone p (hthread ▸ ht) hp
  sane q hq := by
    obtain rfl := Option.some.inj (hp'.symm.trans hq)
    refine ⟨hdata, hname, fun hpos => absurd ((h.sane p hp).2.2 ?_) hlive⟩
    rw [← hjoins]
    exact hpos

theorem Recorded.start (h : s.Recorded) (ht : s.thread = some t) (hjoining : s.joining = false)
    (tid : Option Nat) : (s.start t tid).Recorded := by
  unfold State.start
  split
  · exact h.ends _
  · rename_i hstarted
    split
    · exact h.ends _
    · have hjoined : t.joined_ ≠ true := fun hjoined => hstarted (h.order t ht hjoined)
      refine ⟨?_, ?_, fun hj => ?_, ?_, fun _ hgone => ?_, ?_⟩
      · rintro u ⟨⟩
        exact iff_of_true rfl rfl
      · rintro u ⟨⟩ -
        rfl
      · rw [show s.joining = true from hj] at hjoining
        cases hjoining
      · rintro u p ⟨⟩ ⟨⟩
        exact ⟨rfl, (if_neg fun hboth => hjoined hboth.1).symm⟩
      · cases hgone
      · rintro p ⟨⟩
        exact ⟨iff_of_true rfl (by simp), fun hname => (by cases hname), fun hpos => (by cases hpos)⟩

theorem Recorded.join (h : s.Recorded) (ht : s.thread = some t) : (s.join t).Recorded := by
  unfold State.join
  split
  · exact h.ends _
  · rename_i hstarted
    split
    · exact h.ends _
    · rename_i hjoined
      refine ⟨?_, ?_, fun _ => ⟨_, rfl, rfl⟩, ?_, fun _ hgone => ?_, h.sane⟩
      · rintro u ⟨⟩
        exact h.started t ht
      · rintro u ⟨⟩ -
        exact Bool.not_eq_false _ ▸ hstarted
      · rintro u p ⟨⟩ hp
        obtain ⟨hdetaches, hjoins⟩ := h.joined t p ht hp
        rw [if_neg fun hboth => hjoined hboth.1] at hjoins
        exact ⟨hdetaches, hjoins.trans (if_neg (by simp)).symm⟩
      · cases hgone

theorem Recorded.joinReturns (h : s.Recorded) (hjoining : s.joining = true) (hp : s.pthread = some p)
    (hstage : p.stage = .ended) :
    ({ s with joining := false, pthread := some { p with joins := p.joins + 1 } } : State).Recorded := by
  obtain ⟨t, ht, hjoined⟩ := h.joining hjoining
  obtain ⟨hdetaches, hjoins⟩ := h.joined t p ht hp
  rw [if_neg (by rw [hjoining]; simp)] at hjoins
  refine ⟨fun u hu => ?_, h.order, fun hj => ?_, ?_, fun q hgone => ?_, ?_⟩
  · have hstarted := h.started u hu
    rw [hp] at hstarted
    exact hstarted
  · cases hj
  · rintro u q hu ⟨⟩
    obtain rfl := Option.some.inj (ht.symm.trans hu)
    refine ⟨hdetaches, ?_⟩
    rw [if_pos ⟨hjoined, rfl⟩, hjoins]
  · rw [show s.thread = none from hgone] at ht
    cases ht
  · rintro q ⟨⟩
    obtain ⟨hdata, hname, -⟩ := h.sane p hp
    exact ⟨hdata, hname, fun _ => hstage⟩

/-- `~Thread` detaches the thread, unless it was joined. -/
theorem Recorded.destroy (h : s.Recorded) (ht : s.thread = some t) (hjoining : s.joining = false) :
    (s.destroy t).Recorded := by
  unfold State.destroy
  refine ⟨fun _ hu => ?_, fun _ hu => ?_, fun hj => ?_, fun _ _ hu => ?_, fun q _ hq => ?_, fun q hq => ?_⟩
  · cases hu
  · cases hu
  · rw [show s.joining = true from hj] at hjoining
    cases hjoining
  · cases hu
  · by_cases hdetach : (t.started_ && !t.joined_) = true
    · obtain ⟨p, hp, rfl⟩ := Option.map_eq_some_iff.mp ((if_pos hdetach).symm.trans hq)
      obtain ⟨hdetaches, hjoins⟩ := h.joined t p ht hp
      simp only [Bool.and_eq_true, Bool.not_eq_true'] at hdetach
      rw [if_neg (by rw [hdetach.2]; simp)] at hjoins
      show p.joins + (p.detaches + 1) = 1
      rw [hjoins, hdetaches]
    · have hp := (if_neg hdetach).symm.trans hq
      obtain ⟨hdetaches, hjoins⟩ := h.joined t q ht hp
      have hstarted : t.started_ = true := (h.started t ht).mpr (by rw [hp]; rfl)
      have hjoined : t.joined_ = true := by simpa [hstarted] using hdetach
      rw [if_pos ⟨hjoined, hjoining⟩] at hjoins
      rw [hjoins, hdetaches]
  · by_cases hdetach : (t.started_ && !t.joined_) = true
    · obtain ⟨p, hp, rfl⟩ := Option.map_eq_some_iff.mp ((if_pos hdetach).symm.trans hq)
      exact h.sane p hp
    · exact h.sane q ((if_neg hdetach).symm.trans hq)

/-- `t_threadName` points into the `ThreadData` only while `func_` runs. -/
theorem Recorded.not_own (h : s.Recorded) (hp : s.pthread = some p) (hstage : p.stage ≠ .running) :
    p.t_threadName ≠ .own :=
  fun hname => hstage ((h.sane p hp).2.1 hname)

theorem Recorded.step (h : s.Recorded) {e : Event} (hstep : s.step e = some s') : s'.Recorded := by
  -- a step of the new thread to a stage in which its `ThreadData` exists
  have hgoOn : ∀ {p p' : Pthread} {s' : State}, s.pthread = some p → s'.pthread = some p' →
      p.stage ≠ .ended → p'.data = p.data → p'.stage ≠ .ended → s'.thread = s.thread →
      s'.joining = s.joining → p'.joins = p.joins → p'.detaches = p.detaches →
      (p'.t_threadName = .own → p'.stage = .running) → s'.Recorded :=
    fun {p p' s'} hp hp' hlive hdata hlive' hthread hjoining hjoins hdetaches hname =>
      h.goOn hp hp' hlive hthread hjoining hjoins hdetaches
        (iff_of_true (hdata.trans ((h.sane p hp).1.mpr hlive)) hlive') hname
  cases e with
  | start tid =>
      obtain ⟨t, ht, -, hjoining, rfl⟩ := own_inv hstep
      exact h.start ht hjoining tid
  | join =>
      obtain ⟨t, ht, -, -, rfl⟩ := own_inv hstep
      exact h.join ht
  | joinReturns =>
      simp only [State.step, Option.ite_none_right_eq_some] at hstep
      obtain ⟨hjoining, hstep⟩ := hstep
      obtain ⟨p, hp, hstage, rfl⟩ := goOn_inv hstep
      exact h.joinReturns hjoining hp hstage
  | destroy =>
      obtain ⟨t, ht, -, hjoining, rfl⟩ := own_inv hstep
      exact h.destroy ht hjoining
  | lock =>
      obtain ⟨p, hp, hstage, rfl⟩ := goOn_inv hstep
      have hlive : p.stage ≠ .ended := by simp [hstage]
      have hname := h.not_own hp (by simp [hstage])
      split
      · exact hgoOn hp rfl hlive rfl (by simp) rfl rfl rfl rfl fun hown => absurd hown hname
      · exact hgoOn hp rfl hlive rfl (by simp) rfl rfl rfl rfl fun hown => absurd hown hname
  | write =>
      obtain ⟨p, hp, hstage, rfl⟩ := goOn_inv hstep
      have hname := h.not_own hp (by simp [hstage])
      exact hgoOn hp rfl (by simp [hstage]) rfl (by simp) rfl rfl rfl rfl fun hown => absurd hown hname
  | reset =>
      obtain ⟨p, hp, hstage, rfl⟩ := goOn_inv hstep
      have hname := h.not_own hp (by simp [hstage])
      exact hgoOn hp rfl (by simp [hstage]) rfl (by simp) rfl rfl rfl rfl fun hown => absurd hown hname
  | callFunc =>
      obtain ⟨p, hp, hstage, rfl⟩ := goOn_inv hstep
      exact hgoOn hp rfl (by simp [hstage]) rfl (by simp) rfl rfl rfl rfl fun _ => rfl
  | funcReturns =>
      obtain ⟨p, hp, hstage, rfl⟩ := goOn_inv hstep
      exact hgoOn hp rfl (by simp [hstage]) rfl (by simp) rfl rfl rfl rfl fun hname => (by cases hname)
  | funcThrows =>
      obtain ⟨p, hp, hstage, rfl⟩ := goOn_inv hstep
      exact hgoOn hp rfl (by simp [hstage]) rfl (by simp) rfl rfl rfl rfl fun hname => (by cases hname)
  | deleteData =>
      obtain ⟨p, hp, hstage, rfl⟩ := goOn_inv hstep
      have hname := h.not_own hp (by simp [hstage])
      exact h.goOn hp rfl (by simp [hstage]) rfl rfl rfl rfl (by simp) fun hown => absurd hown hname

theorem reachable_kept (h : machine.Reachable s) : s.Recorded ∧ s.Numbered := by
  refine h.invariant (I := fun s => s.Recorded ∧ s.Numbered) ?_ ?_
  · rintro s ⟨name, rfl⟩
    exact ⟨new_recorded name, new_numbered name⟩
  · intro s e s' _ ⟨hrecorded, hnumbered⟩ _ hstep
    refine ⟨hrecorded.step hstep, hnumbered.step (fun t ht hstarted => ?_) hstep⟩
    cases hp : s.pthread with
    | none => rfl
    | some p =>
        have hstarted' := (hrecorded.started t ht).mpr (by rw [hp]; rfl)
        rw [hstarted] at hstarted'
        cases hstarted'

end State

/-- **A thread and its object.** In every run: the thread is joined or detached once at most, and by the time the
    object has been destroyed, once; after `join()` it has ended, its `ThreadData` has been deleted, and
    `tid()` is its id; it writes the id only to a number that exists, which is deleted once, when the object
    and the pointer of the thread are both gone; and `t_threadName` never points into a deleted
    `ThreadData`. -/
theorem thread_lifecycle {s : State} (h : machine.Reachable s) :
    (∀ p, s.pthread = some p → p.joins + p.detaches ≤ 1 ∧ (s.thread = none → p.joins + p.detaches = 1)) ∧
    (∀ t p, s.thread = some t → s.pthread = some p → p.joins = 1 →
      p.stage = .ended ∧ p.data = false ∧ s.tid_.object = some p.tid) ∧
    ((∃ p, s.pthread = some p ∧ p.stage.ptid = true) → s.tid_.object.isSome = true) ∧
    s.tid_.deletions = (if s.thread = none ∧ ∀ p, s.pthread = some p → p.stage.ptid = false then 1 else 0) ∧
    ∀ p, s.pthread = some p → p.t_threadName = .own → p.data = true := by
  obtain ⟨hrecorded, hnumbered⟩ := State.reachable_kept h
  refine ⟨fun p hp => ?_, fun t p ht hp hjoined => ?_, ?_, ?_, fun p hp hname => ?_⟩
  · cases ht : s.thread with
    | none =>
        have hone := hrecorded.gone p ht hp
        exact ⟨Nat.le_of_eq hone, fun _ => hone⟩
    | some t =>
        obtain ⟨hdetaches, hjoins⟩ := hrecorded.joined t p ht hp
        refine ⟨?_, fun hgone => by cases hgone⟩
        rw [hdetaches, hjoins]
        split
        · exact Nat.le_refl _
        · exact Nat.zero_le _
  · obtain ⟨hdata, -, hended⟩ := hrecorded.sane p hp
    have hstage := hended (hjoined ▸ Nat.one_pos)
    refine ⟨hstage, ?_, hnumbered.written p (by rw [ht]; rfl) hp (by rw [hstage]; rfl)⟩
    exact Bool.eq_false_iff.mpr fun hthere => hdata.mp hthere hstage
  · rintro ⟨p, hp, hptid⟩
    refine hnumbered.counts.object.mpr ?_
    unfold State.holders
    rw [hp, Option.any_some, hptid]
    exact Nat.succ_pos _
  · rw [hnumbered.counts.deletions]
    refine if_congr ?_ rfl rfl
    unfold State.holders
    rw [Nat.add_eq_zero_iff]
    refine and_congr ?_ ?_
    · cases s.thread with
      | none => simp
      | some t => simp
    · cases s.pthread with
      | none => simp
      | some p => simp
  · obtain ⟨hdata, hrunning, -⟩ := hrecorded.sane p hp
    exact hdata.mpr (by rw [hrunning hname]; simp)

/-- The object is destroyed between the lock of the new thread and its write. -/
def destroyedEarly : List Event :=
  [.start (some 4711), .lock, .destroy, .write, .reset, .callFunc, .funcReturns]

theorem thread_lifecycle_destroyedEarly :
    ∃ s p, machine.run (State.new "worker") destroyedEarly = some s ∧ s.pthread = some p ∧
      p.joins + p.detaches = 1 ∧ s.tid_.deletions = 1 := by
  have hrun : (machine.run (State.new "worker") destroyedEarly).map (fun s => (s.thread, s.pthread)) =
      some (none, some ⟨4711, .returned, .finished, true, true, 0, 1⟩) := by decide +kernel
  obtain ⟨s, hs, hvalues⟩ := Option.map_eq_some_iff.mp hrun
  obtain ⟨hthread, hp⟩ := Prod.mk.inj hvalues
  obtain ⟨hjoins, -, -, hdeletions, -⟩ := thread_lifecycle (Machine.run_reachable ⟨"worker", rfl⟩ hs)
  refine ⟨s, _, hs, hp, (hjoins _ hp).2 hthread, hdeletions.trans (if_pos ⟨hthread, fun p hp' => ?_⟩)⟩
  obtain rfl := Option.some.inj (hp.symm.trans hp')
  rfl

end ThreadRun

end Simplev
