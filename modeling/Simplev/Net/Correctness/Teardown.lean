import Simplev.Net.ThreadPoolBook

/-!
# `Net.Correctness.Teardown` — is a pool destroyed without using a loop that is not there?

`~EventLoopThread` calls `loop_->quit()` without a test of `loop_`, and its call has three uses of the
loop. The thread may set `loop_` to `NULL` and destroy the loop while the call is on its way: after a user's
`quit()`, and as soon as the destructor's own one has set `quit_`.

`Timely` is the condition, on the order of the events alone; `Told` says what the events so far tell of the
threads, and `misuse_step` that a step is a misuse just when it breaks the condition.
-/

namespace Simplev

open Foundation

namespace ThreadPool

namespace State

variable {s s' : State}

/-! ## Uses of a loop -/

/-- **The condition** on the calls of `quit()` and on how far the thread has got. When `~EventLoopThread`
    reads `loop_`, a thread whose loop a user has told to quit is not past `loop_ = NULL`; and no thread
    has returned when the destructor's own call of `quit()` comes to each use of the loop. -/
def Timely (before : List Event) : Event → Prop
  | .readLoop i => .quit i ∈ before → .clearLoop i ∉ before
  | .storeQuit i | .readThreadId i | .wakeup i => .threadReturns i ∉ before
  | _ => True

instance (before : List Event) (e : Event) : Decidable (Timely before e) :=
  match e with
  | .readLoop i => inferInstanceAs (Decidable (.quit i ∈ before → .clearLoop i ∉ before))
  | .storeQuit i | .readThreadId i | .wakeup i =>
    inferInstanceAs (Decidable (.threadReturns i ∉ before))
  | .start | .create | .lock | .wake | .stir | .returnLoop | .publish .. | .loopReturns _
  | .clearLoop _ | .threadReturns _ | .quit _ | .destroy | .join => .isTrue trivial

/-- What the events before a state tell of its threads. -/
structure Told (before : List Event) (s : State) : Prop where
  cleared : ∀ i, (s.threads i).stage.Late ↔ .clearLoop i ∈ before
  ended : ∀ i, (s.threads i).stage = .ended ↔ .threadReturns i ∈ before
  /-- A loop is not asked to quit by itself. -/
  asked : ∀ i, s.destroyed ≤ i → s.owner.asked ≠ some i → (s.threads i).quit_ = true →
    .quit i ∈ before

theorem new_told (numThreads : Nat) : Told [] (State.new numThreads) where
  cleared i := iff_of_false (by simp [State.new, PoolThread.new, Stage.Late]) List.not_mem_nil
  ended i := iff_of_false (by simp [State.new, PoolThread.new]) List.not_mem_nil
  asked _ _ _ hquit := absurd hquit (by simp [State.new, PoolThread.new])

/-- A step that moves thread `k`, or none. -/
theorem Told.step_thread {before : List Event} (h : Told before s) {e : Event} (k : Nat)
    (hothers : ∀ i, i ≠ k → s'.threads i = s.threads i)
    (hevent : ∀ i, i ≠ k → e ≠ .clearLoop i ∧ e ≠ .threadReturns i)
    (hcleared : (s'.threads k).stage.Late ↔ (s.threads k).stage.Late ∨ e = .clearLoop k)
    (hended : (s'.threads k).stage = .ended ↔ (s.threads k).stage = .ended ∨ e = .threadReturns k)
    (hquit : s'.owner.asked ≠ some k → (s'.threads k).quit_ = true →
      (s.threads k).quit_ = true ∨ e = .quit k)
    (howner : ∀ i, s'.destroyed ≤ i → s'.owner.asked ≠ some i →
      s.destroyed ≤ i ∧ s.owner.asked ≠ some i) : Told (before ++ [e]) s' where
  cleared i := by
    rw [List.mem_append, List.mem_singleton, ← h.cleared i, eq_comm (b := e)]
    by_cases hi : i = k
    · rw [hi]
      exact hcleared
    · rw [hothers i hi]
      exact (or_iff_left (hevent i hi).1).symm
  ended i := by
    rw [List.mem_append, List.mem_singleton, ← h.ended i, eq_comm (b := e)]
    by_cases hi : i = k
    · rw [hi]
      exact hended
    · rw [hothers i hi]
      exact (or_iff_left (hevent i hi).2).symm
  asked i hle hasked hask := by
    obtain ⟨hle', hasked'⟩ := howner i hle hasked
    by_cases hi : i = k
    · subst hi
      rcases hquit hasked hask with hbefore | rfl
      · exact List.mem_append_left _ (h.asked i hle' hasked' hbefore)
      · exact List.mem_append_right _ List.mem_cons_self
    · rw [hothers i hi] at hask
      exact List.mem_append_left _ (h.asked i hle' hasked' hask)

/-- A step of the owner, or of a thread that does not come to its end. -/
theorem Told.same {before : List Event} (h : Told before s) {e : Event}
    (hevent : ∀ i, e ≠ .clearLoop i ∧ e ≠ .threadReturns i)
    (hcleared : ∀ i, (s'.threads i).stage.Late ↔ (s.threads i).stage.Late)
    (hended : ∀ i, (s'.threads i).stage = .ended ↔ (s.threads i).stage = .ended)
    (hquit : ∀ i, (s'.threads i).quit_ = (s.threads i).quit_)
    (howner : ∀ i, s'.destroyed ≤ i → s'.owner.asked ≠ some i →
      s.destroyed ≤ i ∧ s.owner.asked ≠ some i) : Told (before ++ [e]) s' where
  cleared i := by
    rw [List.mem_append, List.mem_singleton, ← h.cleared i, hcleared i, eq_comm (b := e)]
    exact (or_iff_left (hevent i).1).symm
  ended i := by
    rw [List.mem_append, List.mem_singleton, ← h.ended i, hended i, eq_comm (b := e)]
    exact (or_iff_left (hevent i).2).symm
  asked i hle hasked hask := by
    obtain ⟨hle', hasked'⟩ := howner i hle hasked
    exact List.mem_append_left _ (h.asked i hle' hasked' (hquit i ▸ hask))

/-- A step that moves thread `k` and leaves the owner where it is. -/
theorem Told.setThread {before : List Event} (h : Told before s) {e : Event} {k : Nat} {t : PoolThread}
    (hevent : ∀ i, i ≠ k → e ≠ .clearLoop i ∧ e ≠ .threadReturns i)
    (hcleared : t.stage.Late ↔ (s.threads k).stage.Late ∨ e = .clearLoop k)
    (hended : t.stage = .ended ↔ (s.threads k).stage = .ended ∨ e = .threadReturns k)
    (hquit : t.quit_ = true → (s.threads k).quit_ = true ∨ e = .quit k) :
    Told (before ++ [e]) (s.setThread k t) := by
  refine h.step_thread k setThread_others hevent ?_ ?_ ?_ fun _ hle hasked => ⟨hle, hasked⟩
  · rw [setThread_self]
    exact hcleared
  · rw [setThread_self]
    exact hended
  · rw [setThread_self]
    exact fun _ => hquit

/-- A step that changes an object only. -/
theorem Told.setObject {before : List Event} (h : Told before s) {e : Event} {k : Nat}
    {object : EventLoopThread} {owner : Owner} {misuse : Option Misuse}
    (hevent : ∀ i, e ≠ .clearLoop i ∧ e ≠ .threadReturns i)
    (howner : ∀ i, ({ s with owner := owner } : State).destroyed ≤ i → owner.asked ≠ some i →
      s.destroyed ≤ i ∧ s.owner.asked ≠ some i) :
    Told (before ++ [e]) { s.setObject k object with owner := owner, misuse := misuse } := by
  have hthread : ∀ i, ((s.setObject k object).threads i).stage = (s.threads i).stage ∧
      ((s.setObject k object).threads i).quit_ = (s.threads i).quit_ := by
    intro i
    by_cases hi : i = k
    · subst hi
      unfold State.setObject
      rw [setThread_self]
      exact ⟨rfl, rfl⟩
    · unfold State.setObject
      rw [setThread_others i hi]
      exact ⟨rfl, rfl⟩
  refine h.same hevent (fun i => ?_) (fun i => ?_) (fun i => (hthread i).2) howner
  · show ((s.setObject k object).threads i).stage.Late ↔ _
    rw [(hthread i).1]
  · show ((s.setObject k object).threads i).stage = .ended ↔ _
    rw [(hthread i).1]

/-- The owner goes on and no thread moves. -/
theorem Told.move {before : List Event} (h : Told before s) {e : Event}
    (hevent : ∀ i, e ≠ .clearLoop i ∧ e ≠ .threadReturns i) (hthreads : s'.threads = s.threads)
    (howner : ∀ i, s'.destroyed ≤ i → s'.owner.asked ≠ some i →
      s.destroyed ≤ i ∧ s.owner.asked ≠ some i) : Told (before ++ [e]) s' := by
  refine h.same hevent ?_ ?_ ?_ howner
  · simp [hthreads]
  · simp [hthreads]
  · simp [hthreads]

/-- Before the owner destroys a thread it has asked none to quit. -/
theorem asked_of_not_destroying (hasked : s.owner.asked = none) (hdestroyed : s.destroyed = 0) (i : Nat) :
    s.destroyed ≤ i ∧ s.owner.asked ≠ some i := by
  rw [hasked, hdestroyed]
  exact ⟨Nat.zero_le i, by simp⟩

theorem Told.look {before : List Event} (h : Told before s) {e : Event} {k : Nat}
    {object : EventLoopThread} (hevent : ∀ i, e ≠ .clearLoop i ∧ e ≠ .threadReturns i)
    (hasked : s.owner.asked = none) (hdestroyed : s.destroyed = 0) :
    Told (before ++ [e]) (s.look k object) := by
  have howner := asked_of_not_destroying hasked hdestroyed
  unfold State.look
  split
  · exact h.setObject hevent fun i _ _ => howner i
  · exact h.setObject hevent fun i _ _ => howner i

/-- A use of a loop that is there, or not. -/
theorem Told.useLoop {before : List Event} (h : Told before s) {e : Event} {loop : Nat} {next : State}
    (hevent : ∀ i, e ≠ .clearLoop i ∧ e ≠ .threadReturns i) (hnext : Told (before ++ [e]) next) :
    Told (before ++ [e]) (s.useLoop loop next) := by
  unfold State.useLoop
  split
  · exact hnext
  · exact h.move hevent rfl fun _ hle hasked => ⟨hle, hasked⟩

theorem Told.step {before : List Event} (h : Told before s) (hsound : s.Sound) {e : Event}
    (hsteps : Steps s e s') : Told (before ++ [e]) s' := by
  cases hsteps with
  | start howner =>
      refine h.move (by simp) rfl fun i _ _ => asked_of_not_destroying ?_ ?_ i
      · simp [howner, Owner.asked]
      · simp [destroyed, howner]
  | @create k howner =>
      have hunborn : (s.threads k).stage = .unborn := by
        have hplaced := hsound.placed
        rw [Placed, howner] at hplaced
        exact (hsound.threads k).unborn.mpr (Nat.le_of_eq hplaced.2.1)
      have hk : (s.create k).threads k = { s.threads k with
          object := { (s.threads k).object with started_ := true }, stage := .constructing } :=
        Function.update_self _ _ _
      refine h.step_thread k (fun i hne => Function.update_of_ne hne _ _) (by simp) ?_ ?_ ?_
        fun i _ _ => asked_of_not_destroying ?_ ?_ i
      · simp [hk, hunborn, Stage.Late]
      · simp [hk, hunborn]
      · simp [hk]
      · simp [howner, Owner.asked]
      · simp [destroyed, howner]
  | lock howner => exact h.look (by simp) (by simp [howner, Owner.asked]) (by simp [destroyed, howner])
  | wake howner _ =>
      exact h.look (by simp) (by simp [howner, Owner.asked]) (by simp [destroyed, howner])
  | stir _ _ => exact h.setObject (by simp) fun _ hle hasked => ⟨hle, hasked⟩
  | returnLoop howner =>
      refine h.move (by simp) rfl fun i _ _ => asked_of_not_destroying ?_ ?_ i
      · simp [howner, Owner.asked]
      · simp [destroyed, howner]
  | publish hstage =>
      exact h.setThread (by simp) (by simp [hstage, Stage.Late]) (by simp [hstage]) .inl
  | loopReturns hstage _ =>
      exact h.setThread (by simp) (by simp [hstage, Stage.Late]) (by simp [hstage]) .inl
  | clearLoop hstage =>
      refine h.setThread ?_ (by simp [Stage.Late]) (by simp [hstage]) .inl
      intro i hne
      exact ⟨fun heq => hne (Event.clearLoop.inj heq).symm, by simp⟩
  | threadReturns hstage =>
      refine h.setThread ?_ (by simp [hstage, Stage.Late]) (by simp) .inl
      intro i hne
      exact ⟨by simp, fun heq => hne (Event.threadReturns.inj heq).symm⟩
  | quit _ => exact h.setThread (by simp) (by simp) (by simp) fun _ => .inr rfl
  | destroy howner =>
      refine h.move (by simp) rfl fun i _ _ => asked_of_not_destroying ?_ ?_ i
      · rcases howner with howner | howner <;> simp [howner, Owner.asked]
      · rcases howner with howner | howner <;> simp [destroyed, howner]
  | @readLoop k howner =>
      have hdestroyed : s.destroyed = k := by simp [destroyed, howner]
      unfold State.readLoop
      split
      · exact h.setObject (by simp) fun _ hle hasked => ⟨hle, hasked⟩
      · refine h.setObject (by simp) fun i hle _ => ⟨?_, by simp [howner, Owner.asked]⟩
        rw [hdestroyed]
        exact hle
  | @storeQuit k loop howner =>
      have hplaced := hsound.placed
      rw [Placed, howner] at hplaced
      obtain ⟨-, -, rfl⟩ := hplaced
      have hdestroyed : s.destroyed = loop := by simp [destroyed, howner]
      have hk : (s.quit loop).threads loop = { s.threads loop with quit_ := true } := setThread_self
      refine h.useLoop (by simp) (h.step_thread loop setThread_others (by simp) ?_ ?_ ?_ ?_)
      · simp [hk]
      · simp [hk]
      · -- this loop is asked to quit by its destructor
        intro hasked
        exact absurd rfl hasked
      · intro i hle _
        refine ⟨?_, by simp [howner, Owner.asked]⟩
        rw [hdestroyed]
        exact hle
  | @readThreadId k loop howner =>
      refine h.useLoop (by simp) (h.move (by simp) rfl fun i hle hasked => ⟨?_, ?_⟩)
      · simpa [destroyed, howner] using hle
      · simpa [howner, Owner.asked] using hasked
  | @wakeup k loop howner =>
      refine h.useLoop (by simp) (h.move (by simp) rfl fun i hle hasked => ⟨?_, ?_⟩)
      · simpa [destroyed, howner] using hle
      · simpa [howner, Owner.asked] using hasked
  | @join k howner hended =>
      have hplaced := hsound.placed
      rw [Placed, howner] at hplaced
      have hnext : (s.join k).destroyed = k + 1 := destroyed_beforeDestroy (s := s) hplaced.1
      have hk : (s.join k).threads k = { s.threads k with
          object := { (s.threads k).object with joined_ := true }, joins := (s.threads k).joins + 1 } :=
        Function.update_self _ _ _
      refine h.step_thread k (fun i hne => Function.update_of_ne hne _ _) (by simp) ?_ ?_ ?_ ?_
      · simp [hk]
      · simp [hk]
      · simp [hk]
      · intro i hle _
        rw [hnext] at hle
        refine ⟨?_, ?_⟩
        · simp only [destroyed, howner]
          omega
        · simp only [howner, Owner.asked, ne_eq, Option.some.injEq]
          omega

/-! ## The condition -/

theorem look_misuse (s : State) (k : Nat) (object : EventLoopThread) :
    (s.look k object).misuse = s.misuse := by
  unfold State.look
  split <;> rfl

/-- The read of `loop_` goes wrong when it finds `NULL`. -/
theorem Sound.readLoop_misuse (h : s.Sound) {before : List Event} (htold : Told before s)
    (hunused : s.misuse = none) {k : Nat} (howner : s.owner = .destroying k) :
    (s.readLoop k).misuse = none ↔ Timely before (.readLoop k) := by
  have hplaced := h.placed
  rw [Placed, howner] at hplaced
  have hk := h.threads k
  have hnull := hk.loop_of_handed (by omega) hplaced.1
  rw [htold.cleared k] at hnull
  have hread : (s.readLoop k).misuse = none ↔ (s.threads k).object.loop_ ≠ none := by
    unfold State.readLoop
    cases (s.threads k).object.loop_ with
    | none => simp
    | some loop => simpa [State.setObject, State.setThread] using hunused
  rw [hread, Ne, hnull]
  constructor
  · exact fun hnot _ => hnot
  · intro htimely hcleared
    -- a thread that has come so far was asked to quit, and not yet by its destructor
    have hquit := hk.asked (.inr ((htold.cleared k).mpr hcleared))
    refine htimely (htold.asked k ?_ ?_ hquit) hcleared
    · simp [destroyed, howner]
    · simp [howner, Owner.asked]

/-- A use of the loop goes wrong when its thread has returned. -/
theorem Sound.useLoop_misuse (h : s.Sound) {before : List Event} (htold : Told before s) {loop : Nat}
    {next : State} (hlt : loop < s.made) (hreturned : s.returned.length = s.made)
    (hnext : next.misuse = none) :
    (s.useLoop loop next).misuse = none ↔ .threadReturns loop ∉ before := by
  have halive : s.LoopAlive loop ↔ .threadReturns loop ∉ before := by
    rw [← htold.ended loop]
    exact (h.threads loop).alive_of_handed (by omega) hlt
  rw [← halive]
  unfold State.useLoop
  by_cases hloop : s.LoopAlive loop
  · rw [if_pos hloop]
    exact iff_of_true hnext hloop
  · rw [if_neg hloop]
    exact iff_of_false (by simp) hloop

/-- What goes wrong is a use of a loop by its destructor, at the wrong moment. -/
theorem Sound.misuse_step (h : s.Sound) {before : List Event} (htold : Told before s)
    (hunused : s.misuse = none) {e : Event} (hsteps : Steps s e s') :
    s'.misuse = none ↔ Timely before e := by
  have hplaced := h.placed
  unfold Placed at hplaced
  cases hsteps with
  | lock _ => exact iff_of_true ((look_misuse _ _ _).trans hunused) trivial
  | wake _ _ => exact iff_of_true ((look_misuse _ _ _).trans hunused) trivial
  | readLoop howner => exact h.readLoop_misuse htold hunused howner
  | storeQuit howner =>
      rw [howner] at hplaced
      obtain ⟨hlt, hreturned, rfl⟩ := hplaced
      exact h.useLoop_misuse htold hlt hreturned hunused
  | readThreadId howner =>
      rw [howner] at hplaced
      obtain ⟨hlt, hreturned, rfl, -⟩ := hplaced
      exact h.useLoop_misuse htold hlt hreturned hunused
  | wakeup howner =>
      rw [howner] at hplaced
      obtain ⟨hlt, hreturned, rfl, -⟩ := hplaced
      exact h.useLoop_misuse htold hlt hreturned hunused
  | _ => exact iff_of_true hunused trivial

/-- After a misuse nothing happens. -/
theorem step_of_misuse (h : s.misuse ≠ none) (e : Event) : s.step e = none :=
  if_pos (Option.isSome_iff_ne_none.mpr h)

/-- **A safe teardown.** `startLoop` has returned the loops of the threads it started, and sleeps only
    while there is none; no null `loop_` and no destroyed loop has been used; no thread has been joined
    twice, and those that have been destroyed were asked to quit, have ended and have been joined. -/
structure Safe (s : State) : Prop where
  returned : ∀ r ∈ s.returned, r.2 = some r.1
  sleeping : ∀ i, s.owner = .sleeping i → (s.threads i).object.cond_.asleep ≠ [] →
    (s.threads i).object.loop_ = none
  misuse : s.misuse = none
  asked : ∀ i, s.owner = .joining i → (s.threads i).quit_ = true
  joins : ∀ i, (s.threads i).joins ≤ 1
  joined : ∀ i, i < s.destroyed →
    (s.threads i).quit_ = true ∧ (s.threads i).stage = .ended ∧ (s.threads i).joins = 1
  gone : s.owner = .gone → s.destroyed = s.made
  failed : s.failed = []

theorem Sound.safe_iff (h : s.Sound) : s.Safe ↔ s.misuse = none := by
  constructor
  · exact Safe.misuse
  · intro hunused
    refine ⟨fun r hr => (h.mem_returned hr).2, ?_, hunused, ?_, fun i => ?_, fun i hi => ?_, ?_, h.failed⟩
    · intro i howner hasleep
      rw [(h.threads i).loop, h.constructing howner hasleep]
      rfl
    · intro i howner
      have hplaced := h.placed
      rw [Placed, howner] at hplaced
      exact hplaced.2.2
    · rcases Nat.lt_or_ge i s.destroyed with hlt | hge
      · exact Nat.le_of_eq ((h.threads i).joined hlt).1
      · rw [((h.threads i).unjoined hge).1]
        exact Nat.zero_le 1
    · obtain ⟨hjoins, hended⟩ := (h.threads i).joined hi
      exact ⟨(h.threads i).asked (.inr (.inr hended)), hended, hjoins⟩
    · intro howner
      simp [destroyed, howner]

/-- **Starting and destroying a pool.** A run is safe if and only if each thread is in time: when its
    destructor reads `loop_` it has not come to `loop_ = NULL`, if a user has told its loop to quit, and
    it does not return before the destructor's own call of `quit()` has ended. -/
theorem teardown_iff (numThreads : Nat) (es : List Event)
    (hrun : machine.run (State.new numThreads) es = some s) :
    s.Safe ↔ ∀ before e after, es = before ++ e :: after → Timely before e := by
  obtain ⟨⟨hsound, -⟩, hiff⟩ := Machine.run_iff_scheduled (C := Timely)
    (I := fun before s => s.Sound ∧ Told before s) (G := fun s => s.misuse = none)
    (fun _ _ _ _ ⟨hsound, htold⟩ hstep =>
      have hsteps := (step_inv hstep).2
      ⟨hsound.step hsteps, htold.step hsound hsteps⟩)
    (fun _ _ _ _ ⟨hsound, htold⟩ hunused hstep =>
      hsound.misuse_step htold hunused (step_inv hstep).2)
    (fun _ e hused => step_of_misuse hused e) ⟨new_sound numThreads, new_told numThreads⟩ rfl hrun
  rw [hsound.safe_iff, hiff, Machine.scheduled_iff]
  exact Iff.rfl

/-- A loop that a user ends is gone before the destructor asks for it. -/
def endedEarlier : List Event :=
  [.start, .create, .publish 0 true, .lock, .returnLoop, .quit 0, .loopReturns 0, .clearLoop 0,
    .threadReturns 0, .destroy, .readLoop 0]

theorem teardown_null :
    ∃ s, machine.run (State.new 1) endedEarlier = some s ∧ s.misuse = some .null ∧ ¬ s.Safe := by
  have hrun : ((machine.run (State.new 1) endedEarlier).map fun s => s.misuse) =
      some (some .null) := by decide
  obtain ⟨s, hs, hused⟩ := Option.map_eq_some_iff.mp hrun
  refine ⟨s, hs, hused, fun hsafe => ?_⟩
  rw [hsafe.misuse] at hused
  cases hused

/-- The destructor's own `quit_ = true` may be enough for the loop to end before `wakeup()`. -/
example : (machine.run (State.new 1)
    [.start, .create, .publish 0 true, .lock, .returnLoop, .destroy, .readLoop 0, .storeQuit 0,
      .loopReturns 0, .clearLoop 0, .threadReturns 0, .readThreadId 0]).map (·.misuse) =
        some (some .dead) := by decide

/-- Two threads; `startLoop` waits for the first, and a user ends the loop of the second, which is still
    to set `loop_` to `NULL` when the destructor reads it, and to return when the destructor has called
    `quit()`. -/
def endedInTime : List Event :=
  [.start, .create, .lock, .publish 0 false, .wake, .returnLoop, .create, .publish 1 true, .lock,
    .returnLoop, .quit 1, .loopReturns 1, .destroy, .readLoop 0, .storeQuit 0, .readThreadId 0,
    .loopReturns 0, .wakeup 0, .clearLoop 0, .threadReturns 0, .join, .readLoop 1, .clearLoop 1,
    .storeQuit 1, .readThreadId 1, .wakeup 1, .threadReturns 1, .join]

theorem teardown_twoThreads :
    ∃ s, machine.run (State.new 2) endedInTime = some s ∧ s.owner = .gone ∧ s.Safe := by
  have hrun : ((machine.run (State.new 2) endedInTime).map fun s => s.owner) = some .gone := by
    decide
  obtain ⟨s, hs, hgone⟩ := Option.map_eq_some_iff.mp hrun
  have htimely : Machine.Scheduled Timely [] endedInTime := by decide
  exact ⟨s, hs, hgone, (teardown_iff 2 _ hs).mpr (Machine.scheduled_iff.mp htimely)⟩

end State

end ThreadPool

end Simplev
