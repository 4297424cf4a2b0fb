import Simplev.Net.LoopRun

/-!
# `Net.Correctness.Wakeup` — does the loop poll while work waits?

`queueInLoop` skips the wakeup on the loop's own thread unless `callingPendingFunctors_` is set: the
loop will look at the queue again before it polls. That is so from the event callbacks and from
`clearExpiredTimer`, which come before the swap, and the functors themselves find the flag set. But the
flag is cleared before the local vector of `doPendingFunctors` dies, so a destructor of something that
a functor held queues behind the swap and wakes nobody.

`Awake` is the property, `Notifies` the condition on a step, and `Noticed` the invariant that carries it
from the swap to the poll.
-/

namespace Simplev

open Foundation

namespace LoopRun

variable {φ : Type} {s s' : LoopRun φ} {e : Event φ}

/-- The poll returns at once, or another thread is about to make it return. -/
def Alarm (s : LoopRun φ) : Prop := 0 < s.counter ∨ ∃ id, .other id ∈ s.waking

/-- **No lost wakeup**: with the loop on its way into poll, or in it, neither a functor nor `quit_` goes
    unnoticed. -/
def Awake (s : LoopRun φ) : Prop :=
  s.stage = .polling → s.loop.pendingFunctors_ ≠ [] ∨ s.quit_ = true → s.Alarm

/-- A destructor that runs when the local vector dies queues a functor only when `loop()` is about to
    return, the counter is positive, or another thread is about to wake the loop. -/
def Notifies (s : LoopRun φ) : Event φ → Prop
  | .queueInLoop .loop _ => s.stage = .dying → s.quit_ = true ∨ s.Alarm
  | _ => True

/-- Somebody has written, or will write, to the eventfd. -/
def Rung (s : LoopRun φ) : Prop := 0 < s.counter ∨ s.waking ≠ []

/-- **The invariant.** -/
structure Noticed (s : LoopRun φ) : Prop where
  tidy : s.Tidy
  /-- What was queued behind the swap. -/
  behind : s.stage = .batch ∨ s.stage = .dying → s.loop.pendingFunctors_ ≠ [] →
    s.quit_ = true ∨ s.Rung
  polling : s.stage = .polling → s.loop.pendingFunctors_ ≠ [] ∨ s.quit_ = true → s.Rung

theorem Alarm.rung (h : s.Alarm) : s.Rung := by
  rcases h with hcounter | ⟨id, hmem⟩
  · exact Or.inl hcounter
  · exact Or.inr (List.ne_nil_of_mem hmem)

/-- When the loop's thread is not in a call, whoever rings is another thread. -/
theorem Rung.alarm (h : s.Rung) (hloop : .loop ∉ s.waking) : s.Alarm := by
  rcases h with hcounter | hwaking
  · exact Or.inl hcounter
  · obtain ⟨t, ht⟩ := List.exists_mem_of_ne_nil _ hwaking
    cases t with
    | loop => exact absurd ht hloop
    | other id => exact Or.inr ⟨id, ht⟩

theorem Noticed.awake (h : s.Noticed) : s.Awake := by
  intro hpoll hwork
  exact (h.polling hpoll hwork).alarm (h.tidy.polling hpoll)

/-- A stage in which nothing has to be noticed. -/
theorem Noticed.elsewhere (ht : s'.Tidy) (hbatch : s'.stage ≠ .batch) (hdying : s'.stage ≠ .dying)
    (hpoll : s'.stage ≠ .polling) : s'.Noticed := by
  refine ⟨ht, ?_, fun hp => absurd hp hpoll⟩
  rintro (hb | hd)
  · exact absurd hb hbatch
  · exact absurd hd hdying

/-- A call that rings, or that the loop will look at before it polls. -/
theorem Noticed.queueInLoop (h : s.Noticed) {caller : Thread} {functor : φ}
    (hmay : s.MayCall caller)
    (hdying : caller = .loop → s.stage = .dying → s.quit_ = true ∨ s.Alarm) :
    (s.queueInLoop caller functor).Noticed := by
  have hrings : (caller ≠ .loop ∨ s.loop.callingPendingFunctors_ = true) →
      (s.queueInLoop caller functor).Rung := by
    intro hcond
    apply Or.inr
    unfold LoopRun.queueInLoop
    simp only [if_pos hcond]
    simp
  have hkeeps : s.Rung → (s.queueInLoop caller functor).Rung := by
    rintro (hcounter | hwaking)
    · exact Or.inl hcounter
    · apply Or.inr
      unfold LoopRun.queueInLoop
      split
      · simp
      · exact hwaking
  refine ⟨h.tidy.queueInLoop hmay, ?_, ?_⟩
  · intro hstage _
    by_cases hloop : caller = .loop
    · rcases hstage with hbatch | hdead
      · -- a functor of the batch finds the flag set
        exact Or.inr (hrings (Or.inr (h.tidy.calling.mpr hbatch)))
      · exact (hdying hloop hdead).imp id fun ha => hkeeps ha.rung
    · exact Or.inr (hrings (Or.inl hloop))
  · intro hpoll _
    exact hrings (Or.inl (hmay.other hpoll))

/-- **The step lemma.** -/
theorem Noticed.step (h : s.Noticed) (hn : s.Notifies e) (hstep : s.step e = some s') :
    s'.Noticed := by
  have ht := h.tidy.step hstep
  cases step_inv hstep with
  | loop _ => exact .elsewhere ht (by simp) (by simp) (by simp)
  | queueInLoop hmay =>
      refine h.queueInLoop hmay ?_
      rintro rfl
      exact hn
  | runHere _ => exact h
  | runThere hmay => exact h.queueInLoop hmay (by simp)
  | quit hmay =>
      refine ⟨ht, fun _ _ => Or.inl rfl, ?_⟩
      intro hpoll _
      apply Or.inr
      unfold LoopRun.quit
      -- the loop is in `poll`, so the caller is another thread and wakes it up
      rw [if_pos (hmay.other hpoll)]
      simp
  | wakeup _ => exact ⟨ht, fun _ _ => Or.inr (Or.inl (Nat.succ_pos _)), fun _ _ => Or.inl (Nat.succ_pos _)⟩
  | prepareCallBack _ => exact .elsewhere ht (by simp) (by simp) (by simp)
  | doPendingFunctors _ => exact ⟨ht, fun _ hne => absurd rfl hne, by rintro ⟨⟩⟩
  | runFunctor hat hnext =>
      rename_i push loop
      obtain ⟨-, hpending, -⟩ := EventLoop.nextFunctor_eq hnext
      refine ⟨ht, ?_, ?_⟩
      · intro hstage hne
        exact h.behind hstage (hpending ▸ hne)
      · intro hpoll
        exact absurd (hat.1.symm.trans hpoll) (by simp)
  | endFunctors hat _ => exact ⟨ht, fun _ hne => h.behind (Or.inl hat.1) hne, by simp⟩
  | testQuit hat =>
      cases hquit : s.quit_ with
      | true =>
          rw [testQuit_of_quit hquit] at ht ⊢
          exact .elsewhere ht (by simp) (by simp) (by simp)
      | false =>
          rw [testQuit_of_not_quit hquit] at ht ⊢
          refine ⟨ht, by simp, ?_⟩
          rintro - (hne | hq)
          · -- `quit_` was seen unset here, so what is pending has a wakeup behind it
            exact (h.behind (Or.inr hat.1) hne).resolve_left (by simp [hquit])
          · exact absurd (hquit.symm.trans hq) (by simp)
  | poll _ => exact .elsewhere ht (by simp) (by simp) (by simp)
  | handleRead hat => exact .elsewhere ht (by simp [hat.1]) (by simp [hat.1]) (by simp [hat.1])

theorem reachable_noticed (h : (loopMachine φ).ReachableVia Notifies s) : s.Noticed := by
  refine h.invariant ?_ ?_
  · rintro s rfl
    exact .elsewhere new_tidy nofun nofun nofun
  · intro s e s' _ hs hn hstep
    exact hs.step hn hstep

/-- **No wakeup is lost** in the runs in which the dying local vector queues nothing unnoticed; and
    where it does, the loop goes on into poll with that functor in its queue and nobody to wake it. -/
theorem no_lost_wakeup (h : (loopMachine φ).ReachableVia Notifies s) :
    s.Awake ∧ ∀ functor s₁, s.step (.queueInLoop .loop functor) = some s₁ →
      ¬ s.Notifies (.queueInLoop .loop functor) → ∃ s₂, s₁.step .testQuit = some s₂ ∧ ¬ s₂.Awake := by
  have hs := reachable_noticed h
  refine ⟨hs.awake, ?_⟩
  intro functor s₁ hstep hnot
  simp only [Notifies, Classical.not_imp, not_or, Bool.not_eq_true] at hnot
  obtain ⟨hdying, hquit, halarm⟩ := hnot
  simp only [LoopRun.step, Option.ite_none_right_eq_some, Option.some.injEq] at hstep
  obtain ⟨hmay, rfl⟩ := hstep
  have hcalling : ¬ s.loop.callingPendingFunctors_ = true := by
    rw [hs.tidy.calling, hdying]
    simp
  have hwaking : (s.queueInLoop .loop functor).waking = s.waking := by
    unfold LoopRun.queueInLoop
    rw [if_neg]
    rintro (hne | hc)
    · exact hne rfl
    · exact hcalling hc
  have hat : (s.queueInLoop .loop functor).At .dying := ⟨hdying, hwaking ▸ hmay.1⟩
  have hquit' : (s.queueInLoop .loop functor).quit_ = false := hquit
  refine ⟨_, if_pos hat, ?_⟩
  rw [testQuit_of_not_quit hquit']
  intro hawake
  apply halarm
  have hpending : (s.queueInLoop .loop functor).loop.pendingFunctors_ ≠ [] := by
    simp [LoopRun.queueInLoop, EventLoop.queueInLoop]
  rcases hawake rfl (Or.inl hpending) with hcounter | ⟨id, hmem⟩
  · exact Or.inl hcounter
  · exact Or.inr ⟨id, hwaking ▸ hmem⟩

/-- A functor is queued before `loop()` and one by another thread during its batch. -/
def quietVector : List (Event Nat) :=
  [.queueInLoop .loop 1, .loop .loop, .prepareCallBack, .doPendingFunctors, .runFunctor,
   .queueInLoop (.other 7) 2, .endFunctors, .queueInLoop .loop 3, .testQuit]

instance (s : LoopRun φ) : Decidable s.Alarm :=
  decidable_of_iff (0 < s.counter ∨ ∃ t ∈ s.waking, t ≠ .loop) (by
    constructor
    · rintro (hcounter | ⟨t, hmem, hne⟩)
      · exact Or.inl hcounter
      · cases t with
        | loop => exact absurd rfl hne
        | other id => exact Or.inr ⟨id, hmem⟩
    · rintro (hcounter | ⟨id, hmem⟩)
      · exact Or.inl hcounter
      · exact Or.inr ⟨_, hmem, nofun⟩)

instance (s : LoopRun φ) : (e : Event φ) → Decidable (s.Notifies e)
  | .queueInLoop .loop _ => inferInstanceAs (Decidable (_ → _))
  | .queueInLoop (.other _) _ => inferInstanceAs (Decidable True)
  | .loop _ => inferInstanceAs (Decidable True)
  | .runInLoop _ _ => inferInstanceAs (Decidable True)
  | .quit _ => inferInstanceAs (Decidable True)
  | .wakeup _ => inferInstanceAs (Decidable True)
  | .prepareCallBack => inferInstanceAs (Decidable True)
  | .doPendingFunctors => inferInstanceAs (Decidable True)
  | .runFunctor => inferInstanceAs (Decidable True)
  | .endFunctors => inferInstanceAs (Decidable True)
  | .testQuit => inferInstanceAs (Decidable True)
  | .poll => inferInstanceAs (Decidable True)
  | .handleRead => inferInstanceAs (Decidable True)

theorem no_lost_wakeup_quietVector :
    ∃ s, (loopMachine Nat).run new quietVector = some s ∧ s.stage = .polling ∧ s.Awake := by
  have hrun : ((loopMachine Nat).run new quietVector).map (·.stage) = some .polling := by
    decide +kernel
  obtain ⟨s, hs, hstage⟩ := Option.map_eq_some_iff.mp hrun
  have hreach := Machine.run_reachableVia (M := loopMachine Nat) (C := Notifies) (.init rfl)
    (by decide +kernel) hs
  exact ⟨s, hs, hstage, (no_lost_wakeup hreach).1⟩

/-- A functor holds the last reference to an object whose destructor queues a functor: the loop polls
    with that functor in its queue. -/
theorem wakeup_lost :
    ∃ s, (loopMachine Nat).run new
      [.queueInLoop .loop 1, .loop .loop, .prepareCallBack, .doPendingFunctors, .runFunctor,
       .endFunctors, .queueInLoop .loop 2, .testQuit] = some s ∧ ¬ s.Awake := by
  have hrun : ((loopMachine Nat).run new
      [.queueInLoop .loop 1, .loop .loop, .prepareCallBack, .doPendingFunctors, .runFunctor,
       .endFunctors, .queueInLoop .loop 2, .testQuit]).map
        (fun s => (s.stage, s.loop.pendingFunctors_.length, decide s.Alarm)) =
      some (.polling, 1, false) := by decide +kernel
  obtain ⟨s, hs, hvalue⟩ := Option.map_eq_some_iff.mp hrun
  simp only [Prod.mk.injEq, decide_eq_false_iff_not] at hvalue
  obtain ⟨hstage, hlength, halarm⟩ := hvalue
  refine ⟨s, hs, ?_⟩
  intro hawake
  apply halarm
  refine hawake hstage (Or.inl ?_)
  intro hnil
  rw [hnil] at hlength
  cases hlength

end LoopRun

end Simplev
