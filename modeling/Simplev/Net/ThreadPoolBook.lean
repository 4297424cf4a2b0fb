import Simplev.Net.ThreadPool

/-!
# `Net.ThreadPoolBook` — what every state of a pool keeps

`PoolThread.Sound` is what is known of one thread: how far it has got, what its `loop_` holds, whether its
loop has been asked to quit, and how often it has been joined. `State.Sound` says it of all threads, with
where the owner is. `Sound.step` keeps it, one lemma for each function of the model.
-/

namespace Simplev

open Foundation

namespace ThreadPool

/-! ## What is known of each thread -/

/-- It has set `loop_` to `NULL`. -/
def Stage.Late (stage : Stage) : Prop := stage = .cleared ∨ stage = .ended

/-- **What is known of thread `i`** when the loops of the first `handed` threads have been returned, the
    first `made` threads have been made, and the first `destroyed` have been destroyed. -/
structure PoolThread.Sound (t : PoolThread) (i handed made destroyed : Nat) : Prop where
  loop : t.object.loop_ = if t.stage = .running ∨ t.stage = .left then some i else none
  asked : t.stage = .left ∨ t.stage.Late → t.quit_ = true
  known : t.quit_ = true → i < handed
  unborn : t.stage = .unborn ↔ made ≤ i
  published : i < handed → t.stage ≠ .constructing
  started : t.object.started_ = decide (i < made)
  joined : i < destroyed → t.joins = 1 ∧ t.stage = .ended
  unjoined : destroyed ≤ i → t.joins = 0 ∧ t.object.joined_ = false

namespace PoolThread.Sound

variable {i handed made destroyed : Nat} {t : PoolThread} {object : EventLoopThread}

theorem new (i : Nat) : PoolThread.new.Sound i 0 0 0 where
  loop := rfl
  asked := by simp [PoolThread.new, Stage.Late]
  known := by rintro ⟨⟩
  unborn := iff_of_true rfl (Nat.zero_le i)
  published h := absurd h (Nat.not_lt_zero i)
  started := by simp [PoolThread.new, EventLoopThread.new]
  joined h := absurd h (Nat.not_lt_zero i)
  unjoined _ := ⟨rfl, rfl⟩

/-- What is known depends only on where `i` lies. -/
theorem congr (h : t.Sound i handed made destroyed) {handed' made' destroyed' : Nat}
    (hhanded : i < handed' ↔ i < handed) (hmade : i < made' ↔ i < made)
    (hdestroyed : i < destroyed' ↔ i < destroyed) : t.Sound i handed' made' destroyed' where
  loop := h.loop
  asked := h.asked
  known hquit := hhanded.mpr (h.known hquit)
  unborn := by rw [h.unborn, ← Nat.not_lt, ← Nat.not_lt, hmade]
  published hlt := h.published (hhanded.mp hlt)
  started := by rw [h.started, decide_eq_decide, hmade]
  joined hlt := h.joined (hdestroyed.mp hlt)
  unjoined hle := h.unjoined (by omega)

/-- A thread that runs has not been joined. -/
theorem not_joined (h : t.Sound i handed made destroyed) (hstage : t.stage ≠ .ended) : ¬ i < destroyed :=
  fun hlt => hstage (h.joined hlt).2

/-- The other members of the object do not matter. -/
theorem setObject (h : t.Sound i handed made destroyed) (hloop : object.loop_ = t.object.loop_)
    (hstarted : object.started_ = t.object.started_) (hjoined : object.joined_ = t.object.joined_) :
    ({ t with object := object } : PoolThread).Sound i handed made destroyed where
  loop := hloop.trans h.loop
  asked := h.asked
  known := h.known
  unborn := h.unborn
  published := h.published
  started := hstarted.trans h.started
  joined := h.joined
  unjoined hle := ⟨(h.unjoined hle).1, hjoined.trans (h.unjoined hle).2⟩

theorem setQuit (h : t.Sound i handed made destroyed) (hlt : i < handed) :
    ({ t with quit_ := true } : PoolThread).Sound i handed made destroyed where
  loop := h.loop
  asked _ := rfl
  known _ := hlt
  unborn := h.unborn
  published := h.published
  started := h.started
  joined := h.joined
  unjoined := h.unjoined

/-- A thread that has been made and not handed out constructs its loop or runs it. -/
theorem fresh (h : t.Sound i handed made destroyed) (hmade : i < made) (hhanded : handed ≤ i) :
    t.stage = .constructing ∨ t.stage = .running := by
  have hquit : ¬ t.quit_ = true := fun hquit => absurd (h.known hquit) (by omega)
  cases hstage : t.stage with
  | unborn => exact absurd (h.unborn.mp hstage) (by omega)
  | constructing => exact Or.inl rfl
  | running => exact Or.inr rfl
  | left => exact absurd (h.asked (Or.inl hstage)) hquit
  | cleared => exact absurd (h.asked (Or.inr (Or.inl hstage))) hquit
  | ended => exact absurd (h.asked (Or.inr (Or.inr hstage))) hquit

/-- A thread that has been handed out publishes its loop until it clears it. -/
theorem loop_of_handed (h : t.Sound i handed made destroyed) (hhanded : i < handed) (hmade : i < made) :
    t.object.loop_ = none ↔ t.stage.Late := by
  have hconstructing := h.published hhanded
  have hunborn : t.stage ≠ .unborn := fun hstage => absurd (h.unborn.mp hstage) (by omega)
  rw [h.loop]
  cases hstage : t.stage with
  | unborn => exact absurd hstage hunborn
  | constructing => exact absurd hstage hconstructing
  | _ => simp [Stage.Late]

/-- The loop of such a thread lives until the thread returns. -/
theorem alive_of_handed (h : t.Sound i handed made destroyed) (hhanded : i < handed) (hmade : i < made) :
    (t.stage = .running ∨ t.stage = .left ∨ t.stage = .cleared) ↔ t.stage ≠ .ended := by
  have hconstructing := h.published hhanded
  have hunborn : t.stage ≠ .unborn := fun hstage => absurd (h.unborn.mp hstage) (by omega)
  cases hstage : t.stage with
  | unborn => exact absurd hstage hunborn
  | constructing => exact absurd hstage hconstructing
  | _ => simp

end PoolThread.Sound

/-- The thread that the owner itself has asked to quit. -/
def Owner.asked : Owner → Option Nat
  | .testing k _ | .waking k _ | .joining k => some k
  | _ => none

namespace State

variable {s s' : State}

/-- The number of threads that the owner has destroyed. -/
def destroyed (s : State) : Nat :=
  match s.owner with
  | .destroying k | .quitting k _ | .testing k _ | .waking k _ | .joining k => k
  | .gone => s.made
  | _ => 0

/-- What is true where the owner is. -/
def Placed (s : State) : Prop :=
  match s.owner with
  | .idle => s.made = 0 ∧ s.returned.length = 0
  | .creating k => k < s.numThreads_ ∧ s.made = k ∧ s.returned.length = k
  | .locking k => s.made = k + 1 ∧ s.returned.length = k
  | .sleeping k =>
    s.made = k + 1 ∧ s.returned.length = k ∧
      ((s.threads k).object.cond_.asleep ≠ [] → (s.threads k).stage = .constructing)
  | .returning k => s.made = k + 1 ∧ s.returned.length = k ∧ (s.threads k).stage ≠ .constructing
  | .started | .gone => s.returned.length = s.made
  | .destroying k => k < s.made ∧ s.returned.length = s.made
  | .quitting k loop => k < s.made ∧ s.returned.length = s.made ∧ loop = k
  | .testing k loop | .waking k loop =>
    k < s.made ∧ s.returned.length = s.made ∧ loop = k ∧ (s.threads k).quit_ = true
  | .joining k => k < s.made ∧ s.returned.length = s.made ∧ (s.threads k).quit_ = true

/-- **The invariant of the pool.** -/
structure Sound (s : State) : Prop where
  placed : s.Placed
  threads : ∀ i, (s.threads i).Sound i s.returned.length s.made s.destroyed
  waiters : ∀ i, (s.threads i).object.cond_.waiters.length = if s.owner = .sleeping i then 1 else 0
  returned : s.returned = (List.range s.returned.length).map fun i => (i, some i)
  failed : s.failed = []

theorem new_sound (numThreads : Nat) : (State.new numThreads).Sound where
  placed := ⟨rfl, rfl⟩
  threads := PoolThread.Sound.new
  waiters _ := rfl
  returned := rfl
  failed := rfl

/-! ## The steps -/

/-- While `startLoop` sleeps, the thread it waits for is still to publish its loop. -/
theorem Sound.constructing (h : s.Sound) {k : Nat} (howner : s.owner = .sleeping k)
    (hasleep : (s.threads k).object.cond_.asleep ≠ []) : (s.threads k).stage = .constructing := by
  have hplaced := h.placed
  rw [Placed, howner] at hplaced
  exact hplaced.2.2 hasleep

/-- What holds of a thread and is kept by the update of one of them, with the changes it allows. -/
theorem Sound.update (h : s.Sound) {k : Nat} {t : PoolThread} {handed made destroyed : Nat}
    (hk : t.Sound k handed made destroyed)
    (hhanded : ∀ i, i ≠ k → (i < handed ↔ i < s.returned.length))
    (hmade : ∀ i, i ≠ k → (i < made ↔ i < s.made))
    (hdestroyed : ∀ i, i ≠ k → (i < destroyed ↔ i < s.destroyed)) (i : Nat) :
    (Function.update s.threads k t i).Sound i handed made destroyed := by
  revert i
  rw [Function.forall_update_iff s.threads fun i t => t.Sound i handed made destroyed]
  refine ⟨hk, fun i hne => ?_⟩
  exact (h.threads i).congr (hhanded i hne) (hmade i hne) (hdestroyed i hne)

/-- The number of waiters of each thread, when one of them and the owner have moved. -/
theorem Sound.update_waiters (h : s.Sound) {k : Nat} {t : PoolThread} {owner : Owner}
    (hk : t.object.cond_.waiters.length = if owner = .sleeping k then 1 else 0)
    (howner : ∀ i, i ≠ k → (owner = .sleeping i ↔ s.owner = .sleeping i)) (i : Nat) :
    (Function.update s.threads k t i).object.cond_.waiters.length =
      if owner = .sleeping i then 1 else 0 := by
  revert i
  rw [Function.forall_update_iff s.threads fun i t =>
    t.object.cond_.waiters.length = if owner = .sleeping i then 1 else 0]
  refine ⟨hk, fun i hne => ?_⟩
  rw [h.waiters i]
  exact if_congr (howner i hne).symm rfl rfl

/-- A step of the owner that touches no thread. -/
theorem Sound.move (h : s.Sound) {owner : Owner} (hplaced : ({ s with owner := owner } : State).Placed)
    (hdestroyed : ({ s with owner := owner } : State).destroyed = s.destroyed)
    (howner : ∀ i, owner ≠ .sleeping i) (hsleeping : ∀ i, s.owner ≠ .sleeping i) :
    ({ s with owner := owner } : State).Sound where
  placed := hplaced
  threads i := by
    rw [hdestroyed]
    exact h.threads i
  waiters i := by
    rw [h.waiters i, if_neg (hsleeping i), if_neg (howner i)]
  returned := h.returned
  failed := h.failed

theorem Sound.start (h : s.Sound) (howner : s.owner = .idle) :
    ({ s with owner := s.afterStart 0 } : State).Sound := by
  have hplaced := h.placed
  rw [Placed, howner] at hplaced
  obtain ⟨hmade, hreturned⟩ := hplaced
  have hsleeping : ∀ i, s.owner ≠ .sleeping i := fun i => by simp [howner]
  unfold afterStart
  split
  · rename_i hlt
    exact h.move ⟨hlt, hmade, hreturned⟩ (by simp [destroyed, howner]) (by simp) hsleeping
  · exact h.move (hreturned.trans hmade.symm) (by simp [destroyed, howner]) (by simp) hsleeping

theorem Sound.create (h : s.Sound) {k : Nat} (howner : s.owner = .creating k) :
    (s.create k).Sound := by
  have hplaced := h.placed
  rw [Placed, howner] at hplaced
  obtain ⟨-, hmade, hreturned⟩ := hplaced
  have hk := h.threads k
  have hunborn : (s.threads k).stage = .unborn := hk.unborn.mpr (Nat.le_of_eq hmade)
  have hunjoined := hk.unjoined (by simp [destroyed, howner])
  -- a new thread: nobody has been given its loop, has asked it to quit or has joined it
  refine ⟨⟨rfl, hreturned⟩, h.update ?_ (fun _ _ => Iff.rfl) ?_ ?_, h.update_waiters ?_ ?_,
    h.returned, ?_⟩
  · constructor
    · have hloop := hk.loop
      rw [hunborn] at hloop
      exact hloop
    · simp [Stage.Late]
    · exact hk.known
    · simp [State.create]
    · intro hlt
      exact absurd hlt (Nat.not_lt.mpr (Nat.le_of_eq hreturned))
    · simp [State.create]
    · intro hlt
      exact absurd hlt (Nat.not_lt_zero k)
    · intro _
      exact hunjoined
  · intro i hne
    show i < k + 1 ↔ i < s.made
    omega
  · intro i _
    simp [destroyed, State.create, howner]
  · have hwaiters := h.waiters k
    rw [if_neg (by simp [howner])] at hwaiters
    exact hwaiters
  · intro i _
    simp [State.create, howner]
  · -- the assert in `start()`: thread `k` is started once
    have hstarted : (s.threads k).object.started_ = false := by
      rw [hk.started, decide_eq_false_iff_not]
      omega
    show s.failed ++ (if (s.threads k).object.started_ then _ else []) = []
    rw [hstarted]
    show s.failed ++ [] = []
    rw [List.append_nil]
    exact h.failed

/-- `startLoop` looks at `loop_`: it leaves, or it goes to sleep before the loop is published. -/
theorem Sound.look (h : s.Sound) {k : Nat} {object : EventLoopThread} (hmade : s.made = k + 1)
    (hreturned : s.returned.length = k) (hdestroyed : s.destroyed = 0)
    (howner : ∀ i, i ≠ k → s.owner ≠ .sleeping i) (hloop : object.loop_ = (s.threads k).object.loop_)
    (hstarted : object.started_ = (s.threads k).object.started_)
    (hjoined : object.joined_ = (s.threads k).object.joined_) (hwaiters : object.cond_.waiters.length = 0) :
    (s.look k object).Sound := by
  have hk := h.threads k
  have hstage := hk.fresh (by omega) (Nat.le_of_eq hreturned)
  unfold State.look
  split
  · -- the loop is not published, so its thread is still on the way to it
    rename_i hpublished
    have hconstructing : (s.threads k).stage = .constructing := by
      refine hstage.resolve_right fun hrunning => ?_
      rw [hpublished, hk.loop, if_pos (Or.inl hrunning)] at hloop
      cases hloop
    refine ⟨⟨hmade, hreturned, fun _ => ?_⟩, h.update ?_ (fun _ _ => Iff.rfl) (fun _ _ => Iff.rfl) ?_,
      h.update_waiters ?_ ?_, h.returned, h.failed⟩
    · show (Function.update s.threads k _ k).stage = .constructing
      rw [Function.update_self]
      exact hconstructing
    · rw [hdestroyed] at hk
      exact hk.setObject hloop hstarted hjoined
    · intro i _
      rw [hdestroyed]
      rfl
    · rw [if_pos rfl]
      exact Condition.length_waiters_wait.trans (congrArg (· + 1) hwaiters)
    · intro i hne
      exact iff_of_false (by simpa using hne.symm) (howner i hne)
  · -- the loop is published, and its thread past its constructor
    rename_i loop hpublished
    refine ⟨⟨hmade, hreturned, ?_⟩, h.update ?_ (fun _ _ => Iff.rfl) (fun _ _ => Iff.rfl) ?_,
      h.update_waiters ?_ ?_, h.returned, h.failed⟩
    · show (Function.update s.threads k _ k).stage ≠ .constructing
      rw [Function.update_self]
      intro hconstructing
      rw [hpublished, hk.loop, hconstructing] at hloop
      cases hloop
    · rw [hdestroyed] at hk
      exact hk.setObject hloop hstarted hjoined
    · intro i _
      rw [hdestroyed]
      rfl
    · rw [if_neg (by simp)]
      exact hwaiters
    · intro i hne
      exact iff_of_false (by simp) (howner i hne)

/-- A thread moves, and the owner and the numbers stay. -/
theorem Sound.thread (h : s.Sound) {k : Nat} {t : PoolThread}
    (hplaced : (s.setThread k t).Placed)
    (hk : t.Sound k s.returned.length s.made s.destroyed)
    (hwaiters : t.object.cond_.waiters.length = (s.threads k).object.cond_.waiters.length) :
    (s.setThread k t).Sound where
  placed := hplaced
  threads := h.update hk (fun _ _ => Iff.rfl) (fun _ _ => Iff.rfl) (fun _ _ => Iff.rfl)
  waiters := h.update_waiters (hwaiters.trans (h.waiters k)) (fun _ _ => Iff.rfl)
  returned := h.returned
  failed := h.failed

/-- Where the owner is stays true when a thread moves on, once that thread is past publication. -/
theorem Placed.thread (h : s.Placed) {k : Nat} {t : PoolThread}
    (hasleep : s.owner = .sleeping k → t.object.cond_.asleep ≠ [] → t.stage = .constructing)
    (hstage : t.stage = .constructing → (s.threads k).stage = .constructing)
    (hquit : (s.threads k).quit_ = true → t.quit_ = true) :
    (s.setThread k t).Placed := by
  unfold Placed setThread at *
  cases howner : s.owner with
  | sleeping j =>
      rw [howner] at h
      refine ⟨h.1, h.2.1, ?_⟩
      by_cases hj : j = k
      · subst hj
        simp only [Function.update_self]
        exact hasleep howner
      · simp only [Function.update_of_ne hj]
        exact h.2.2
  | returning j =>
      rw [howner] at h
      refine ⟨h.1, h.2.1, ?_⟩
      by_cases hj : j = k
      · subst hj
        simp only [Function.update_self]
        exact fun hconstructing => h.2.2 (hstage hconstructing)
      · simp only [Function.update_of_ne hj]
        exact h.2.2
  | testing j loop | waking j loop =>
      rw [howner] at h
      refine ⟨h.1, h.2.1, h.2.2.1, ?_⟩
      by_cases hj : j = k
      · subst hj
        simp only [Function.update_self]
        exact hquit h.2.2.2
      · simp only [Function.update_of_ne hj]
        exact h.2.2.2
  | joining j =>
      rw [howner] at h
      refine ⟨h.1, h.2.1, ?_⟩
      by_cases hj : j = k
      · subst hj
        simp only [Function.update_self]
        exact hquit h.2.2
      · simp only [Function.update_of_ne hj]
        exact h.2.2
  | _ =>
      rw [howner] at h
      exact h

theorem Sound.stir (h : s.Sound) {k : Nat} {cond : Condition Unit} (howner : s.owner = .sleeping k)
    (hstir : (s.threads k).object.cond_.stir () = some cond) :
    (s.setObject k { (s.threads k).object with cond_ := cond }).Sound := by
  refine h.thread (h.placed.thread ?_ id id) ((h.threads k).setObject rfl rfl rfl)
    (Condition.length_waiters_stir hstir)
  intro _ _
  exact h.constructing howner (Condition.asleep_of_stir hstir)

theorem Sound.returnLoop (h : s.Sound) {k : Nat} (howner : s.owner = .returning k) :
    (s.returnLoop k).Sound := by
  have hplaced := h.placed
  rw [Placed, howner] at hplaced
  obtain ⟨hmade, hreturned, hstage⟩ := hplaced
  have hrunning := ((h.threads k).fresh (by omega) (Nat.le_of_eq hreturned)).resolve_left hstage
  have hloop : (s.threads k).object.loop_ = some k := by
    rw [(h.threads k).loop, if_pos (Or.inl hrunning)]
  have hlength : (s.returnLoop k).returned.length = k + 1 := by
    show (s.returned ++ [_]).length = k + 1
    rw [List.length_append, hreturned]
    rfl
  have hsleeping : ∀ i, (s.returnLoop k).owner ≠ .sleeping i := by
    intro i
    unfold State.returnLoop afterStart
    split <;> simp
  refine ⟨?_, fun i => ?_, fun i => ?_, ?_, h.failed⟩
  · unfold Placed State.returnLoop afterStart at *
    by_cases hlt : k + 1 < s.numThreads_
    · rw [if_pos hlt]
      exact ⟨hlt, hmade, hlength⟩
    · rw [if_neg hlt]
      exact hlength.trans hmade.symm
  · rw [hlength]
    have hdestroyed : (s.returnLoop k).destroyed = s.destroyed := by
      simp only [destroyed, howner, State.returnLoop, afterStart]
      by_cases hlt : k + 1 < s.numThreads_
      · rw [if_pos hlt]
      · rw [if_neg hlt]
    rw [hdestroyed]
    have hi := h.threads i
    -- thread `k` is handed out by this step; for the others nothing changes
    by_cases hik : i = k
    · subst hik
      constructor
      · exact hi.loop
      · exact hi.asked
      · intro _
        exact Nat.lt_succ_self i
      · exact hi.unborn
      · intro _
        exact hstage
      · exact hi.started
      · exact hi.joined
      · exact hi.unjoined
    · exact hi.congr (by omega) Iff.rfl Iff.rfl
  · rw [if_neg (hsleeping i)]
    exact (h.waiters i).trans (if_neg (by simp [howner]))
  · rw [hlength, List.range_succ, List.map_append, ← hreturned, ← h.returned, hreturned]
    show s.returned ++ [(k, (s.threads k).object.loop_)] = s.returned ++ [(k, some k)]
    rw [hloop]

theorem Sound.publish (h : s.Sound) {k : Nat} (hstage : (s.threads k).stage = .constructing)
    (picked : Bool) : (s.publish k picked).Sound := by
  have hk := h.threads k
  have hwaiters := Condition.length_waiters_notify (c := (s.threads k).object.cond_) fun _ => picked
  refine h.thread (h.placed.thread ?_ (by simp) id) ?_ hwaiters
  · -- the owner is the only waiter, and the signal has woken it
    intro howner hasleep
    have hcovers : (s.threads k).object.cond_.Covers 0 := fun _ => Nat.zero_le _
    have hsignalled := hcovers.notify (fun _ => picked) hasleep
    have hpos := List.length_pos_iff.mpr hasleep
    have hone := h.waiters k
    rw [if_pos howner, ← hwaiters, Condition.length_waiters] at hone
    simp only at hpos
    omega
  · constructor
    · rfl
    · intro hended
      exact absurd hended (by simp [Stage.Late])
    · exact hk.known
    · rw [← hk.unborn, hstage]
      simp
    · intro _
      simp
    · exact hk.started
    · intro hlt
      exact absurd hlt (hk.not_joined (by simp [hstage]))
    · exact hk.unjoined

theorem Sound.loopReturns (h : s.Sound) {k : Nat} (hstage : (s.threads k).stage = .running)
    (hquit : (s.threads k).quit_ = true) : (s.loopReturns k).Sound := by
  have hk := h.threads k
  refine h.thread (h.placed.thread ?_ (by simp) id) ?_ rfl
  · intro howner hasleep
    exact absurd (hstage.symm.trans (h.constructing howner hasleep)) (by simp)
  · constructor
    · have hloop := hk.loop
      rw [hstage] at hloop
      exact hloop
    · intro _
      exact hquit
    · exact hk.known
    · rw [← hk.unborn, hstage]
      simp
    · intro _
      simp
    · exact hk.started
    · intro hlt
      exact absurd hlt (hk.not_joined (by simp [hstage]))
    · exact hk.unjoined

theorem Sound.clearLoop (h : s.Sound) {k : Nat} (hstage : (s.threads k).stage = .left) :
    (s.clearLoop k).Sound := by
  have hk := h.threads k
  have hquit := hk.asked (Or.inl hstage)
  refine h.thread (h.placed.thread ?_ (by simp) id) ?_ rfl
  · intro howner hasleep
    exact absurd (hstage.symm.trans (h.constructing howner hasleep)) (by simp)
  · constructor
    · rfl
    · intro _
      exact hquit
    · exact hk.known
    · rw [← hk.unborn, hstage]
      simp
    · intro _
      simp
    · exact hk.started
    · intro hlt
      exact absurd hlt (hk.not_joined (by simp [hstage]))
    · exact hk.unjoined

theorem Sound.threadReturns (h : s.Sound) {k : Nat} (hstage : (s.threads k).stage = .cleared) :
    (s.threadReturns k).Sound := by
  have hk := h.threads k
  have hquit := hk.asked (Or.inr (Or.inl hstage))
  refine h.thread (h.placed.thread ?_ (by simp) id) ?_ rfl
  · intro howner hasleep
    exact absurd (hstage.symm.trans (h.constructing howner hasleep)) (by simp)
  · constructor
    · have hloop := hk.loop
      rw [hstage] at hloop
      exact hloop
    · intro _
      exact hquit
    · exact hk.known
    · rw [← hk.unborn, hstage]
      simp
    · intro _
      simp
    · exact hk.started
    · intro hlt
      exact ⟨(hk.joined hlt).1, rfl⟩
    · exact hk.unjoined

theorem Sound.mem_returned (h : s.Sound) {r : Nat × Option Nat} (hr : r ∈ s.returned) :
    r.1 < s.returned.length ∧ r.2 = some r.1 := by
  rw [h.returned] at hr
  obtain ⟨k, hk, rfl⟩ := List.mem_map.mp hr
  exact ⟨List.mem_range.mp hk, rfl⟩

theorem Sound.quit (h : s.Sound) {k : Nat} (hlt : k < s.returned.length) : (s.quit k).Sound := by
  refine h.thread (h.placed.thread ?_ id fun _ => rfl) ((h.threads k).setQuit hlt) rfl
  exact h.constructing

theorem placed_beforeDestroy (k : Nat) (hreturned : s.returned.length = s.made) :
    ({ s with owner := s.beforeDestroy k } : State).Placed := by
  unfold Placed beforeDestroy
  by_cases hlt : k < s.made
  · rw [if_pos hlt]
    exact ⟨hlt, hreturned⟩
  · rw [if_neg hlt]
    exact hreturned

theorem destroyed_beforeDestroy {k : Nat} (hle : k ≤ s.made) :
    ({ s with owner := s.beforeDestroy k } : State).destroyed = k := by
  unfold destroyed beforeDestroy
  by_cases hlt : k < s.made
  · rw [if_pos hlt]
  · rw [if_neg hlt]
    show s.made = k
    omega

theorem beforeDestroy_ne_sleeping (s : State) (k i : Nat) : s.beforeDestroy k ≠ .sleeping i := by
  unfold beforeDestroy
  split <;> simp

theorem Sound.destroy (h : s.Sound) (howner : s.owner = .idle ∨ s.owner = .started) :
    ({ s with owner := s.beforeDestroy 0 } : State).Sound := by
  have hplaced := h.placed
  have hreturned : s.returned.length = s.made := by
    rcases howner with howner | howner
    · rw [Placed, howner] at hplaced
      exact hplaced.2.trans hplaced.1.symm
    · rw [Placed, howner] at hplaced
      exact hplaced
  refine h.move (placed_beforeDestroy 0 hreturned) ?_ (beforeDestroy_ne_sleeping s 0) ?_
  · rw [destroyed_beforeDestroy (Nat.zero_le _)]
    rcases howner with howner | howner <;> simp [destroyed, howner]
  · intro i
    rcases howner with howner | howner <;> simp [howner]

/-- `~EventLoopThread` sets `exiting_`. -/
theorem Sound.exiting (h : s.Sound) {k : Nat} (howner : s.owner = .destroying k) :
    (s.setObject k { (s.threads k).object with exiting_ := true }).Sound := by
  refine h.thread (h.placed.thread ?_ id id) ((h.threads k).setObject rfl rfl rfl) rfl
  intro hsleeping
  simp [howner] at hsleeping

theorem Sound.misused (h : s.Sound) (misuse : Option Misuse) : { s with misuse := misuse }.Sound :=
  ⟨h.placed, h.threads, h.waiters, h.returned, h.failed⟩

theorem Sound.readLoop (h : s.Sound) {k : Nat} (howner : s.owner = .destroying k) :
    (s.readLoop k).Sound := by
  have hplaced := h.placed
  rw [Placed, howner] at hplaced
  obtain ⟨hlt, hreturned⟩ := hplaced
  have hexiting := h.exiting howner
  unfold State.readLoop
  cases hloop : (s.threads k).object.loop_ with
  | none => exact hexiting.misused (some .null)
  | some loop =>
      have hread : loop = k := by
        rw [(h.threads k).loop, Option.ite_none_right_eq_some] at hloop
        exact (Option.some.inj hloop.2).symm
      refine hexiting.move ⟨hlt, hreturned, hread⟩ ?_ (by simp) ?_
      · simp [destroyed, setObject, setThread, howner]
      · simp [setObject, setThread, howner]

theorem Sound.useLoop (h : s.Sound) {next : State} (hnext : next.Sound) (loop : Nat) :
    (s.useLoop loop next).Sound := by
  unfold State.useLoop
  split
  · exact hnext
  · exact h.misused (some .dead)

theorem Sound.storeQuit (h : s.Sound) {k loop : Nat} (howner : s.owner = .quitting k loop) :
    ({ s.quit loop with owner := .testing k loop } : State).Sound := by
  have hplaced := h.placed
  rw [Placed, howner] at hplaced
  obtain ⟨hlt, hreturned, rfl⟩ := hplaced
  have hquit : ((s.quit loop).threads loop).quit_ = true := by
    unfold State.quit
    rw [setThread_self]
  refine (h.quit (by omega)).move ⟨hlt, hreturned, rfl, hquit⟩ ?_ (by simp) ?_
  · simp [destroyed, State.quit, setThread, howner]
  · simp [State.quit, setThread, howner]

theorem Sound.readThreadId (h : s.Sound) {k loop : Nat} (howner : s.owner = .testing k loop) :
    ({ s with owner := .waking k loop } : State).Sound := by
  have hplaced := h.placed
  rw [Placed, howner] at hplaced
  exact h.move hplaced (by simp [destroyed, howner]) (by simp) (by simp [howner])

theorem Sound.wakeup (h : s.Sound) {k loop : Nat} (howner : s.owner = .waking k loop) :
    ({ s with owner := .joining k } : State).Sound := by
  have hplaced := h.placed
  rw [Placed, howner] at hplaced
  obtain ⟨hlt, hreturned, -, hquit⟩ := hplaced
  exact h.move ⟨hlt, hreturned, hquit⟩ (by simp [destroyed, howner]) (by simp) (by simp [howner])

theorem Sound.join (h : s.Sound) {k : Nat} (howner : s.owner = .joining k)
    (hended : (s.threads k).stage = .ended) : (s.join k).Sound := by
  have hplaced := h.placed
  rw [Placed, howner] at hplaced
  obtain ⟨hlt, hreturned, hquit⟩ := hplaced
  have hk := h.threads k
  have hdestroyed : s.destroyed = k := by
    simp [destroyed, howner]
  obtain ⟨hjoins, hjoined⟩ := hk.unjoined (Nat.le_of_eq hdestroyed)
  have hstarted : (s.threads k).object.started_ = true := by
    rw [hk.started]
    exact decide_eq_true hlt
  have hnext := destroyed_beforeDestroy (s := s) (k := k + 1) hlt
  -- the asserts in `join()`: the thread was started, and this is the first time it is joined
  refine ⟨placed_beforeDestroy (s := { s with
      threads := Function.update s.threads k
        { s.threads k with
          object := { (s.threads k).object with joined_ := true }, joins := (s.threads k).joins + 1 } })
      (k + 1) hreturned, ?_, h.update_waiters ?_ ?_, h.returned, ?_⟩
  · refine h.update ?_ (fun _ _ => Iff.rfl) (fun _ _ => Iff.rfl) ?_
    · constructor
      · exact hk.loop
      · exact hk.asked
      · exact hk.known
      · exact hk.unborn
      · exact hk.published
      · exact hk.started
      · intro _
        exact ⟨congrArg (· + 1) hjoins, hended⟩
      · intro hle
        exact absurd (Nat.le_trans (Nat.le_of_eq hnext.symm) hle) (Nat.not_succ_le_self k)
    · intro i hne
      rw [hdestroyed]
      have hiff : i < k + 1 ↔ i < k := by omega
      exact (iff_of_eq (congrArg (i < ·) hnext)).trans hiff
  · have hwaiters := h.waiters k
    rw [if_neg (by simp [howner])] at hwaiters
    rw [if_neg (show (s.join k).owner ≠ .sleeping k from beforeDestroy_ne_sleeping s _ _)]
    exact hwaiters
  · intro i _
    exact iff_of_false (beforeDestroy_ne_sleeping s _ _) (by simp [howner])
  · show s.failed ++ (if (s.threads k).object.started_ then [] else _) ++
      (if (s.threads k).object.joined_ then _ else []) = []
    rw [hstarted, hjoined]
    show s.failed ++ [] ++ [] = []
    rw [List.append_nil, List.append_nil]
    exact h.failed

/-! ## Runs -/

theorem Sound.step (h : s.Sound) {e : Event} (hsteps : Steps s e s') : s'.Sound := by
  cases hsteps with
  | start howner => exact h.start howner
  | create howner => exact h.create howner
  | lock howner =>
      have hplaced := h.placed
      rw [Placed, howner] at hplaced
      have hwaiters := h.waiters
      simp only [howner, reduceCtorEq, if_false] at hwaiters
      exact h.look hplaced.1 hplaced.2 (by simp [destroyed, howner]) (by simp [howner]) rfl rfl rfl
        (hwaiters _)
  | @wake k cond howner hresume =>
      have hplaced := h.placed
      rw [Placed, howner] at hplaced
      -- the owner is the one waiter there is, and it is awake again
      have hwaiters := h.waiters k
      rw [if_pos howner, ← Condition.length_waiters_resume hresume] at hwaiters
      refine h.look hplaced.1 hplaced.2.1 (by simp [destroyed, howner]) ?_ rfl rfl rfl
        (Nat.succ.inj hwaiters)
      intro i hne hsleeping
      rw [howner, Owner.sleeping.injEq] at hsleeping
      exact hne hsleeping.symm
  | stir howner hstir => exact h.stir howner hstir
  | returnLoop howner => exact h.returnLoop howner
  | publish hstage => exact h.publish hstage _
  | loopReturns hstage hquit => exact h.loopReturns hstage hquit
  | clearLoop hstage => exact h.clearLoop hstage
  | threadReturns hstage => exact h.threadReturns hstage
  | quit hknown => exact h.quit (h.mem_returned hknown).1
  | destroy howner => exact h.destroy howner
  | readLoop howner => exact h.readLoop howner
  | storeQuit howner => exact h.useLoop (h.storeQuit howner) _
  | readThreadId howner => exact h.useLoop (h.readThreadId howner) _
  | wakeup howner => exact h.useLoop (h.wakeup howner) _
  | join howner hended => exact h.join howner hended

end State

end ThreadPool

end Simplev
