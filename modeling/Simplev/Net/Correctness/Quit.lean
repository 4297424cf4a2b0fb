import Simplev.Net.Correctness.Rounds

/-!
# `Net.Correctness.Quit` — what `quit()` leaves undone

`prepareCallBack` tests `quit_` after the batch, "execute doPendingFunctors() after last iteration". A
`quit()` that comes before the swap is fine: everything queued before it is in that batch. But between
the swap and the test it takes effect at once, and what its thread had queued since the swap stays in
`pendingFunctors_` when `loop()` returns.

`Finished` is the property, `Settled` the condition on a step, `Answered` the invariant. `Doomed` holds
after a `quit()` that breaks the condition, and keeps holding until the test.
-/

namespace Simplev

open Foundation

namespace LoopRun

variable {φ : Type} {s s' : LoopRun φ} {e : Event φ}

/-- The functor is the `i`-th that was queued, and the thread of `q` queued it before calling `quit()`. -/
def Precedes (s : LoopRun φ) (q : Quit) (i : Nat) (p : Push φ) : Prop :=
  i < q.pushes ∧ s.pushed[i]? = some p ∧ p.caller = q.caller

/-- The functor that was queued `i`-th has run. -/
def Executed (s : LoopRun φ) (i : Nat) (p : Push φ) : Prop := s.ran[i]?.map (·.push) = some p

/-- **`quit()` drops nothing**: of every `quit()` that `loop()` returned because of, what its thread had
    queued before has run. -/
def Finished (s : LoopRun φ) : Prop :=
  ∀ q ∈ s.causes, ∀ i p, s.Precedes q i p → s.Executed i p

/-- Between the swap and the test, a thread calls `quit()` only with nothing of its own in
    `pendingFunctors_`. -/
def Settled (s : LoopRun φ) : Event φ → Prop
  | .quit caller => s.stage = .batch ∨ s.stage = .dying →
      ∀ p ∈ s.loop.pendingFunctors_, p.caller ≠ caller
  | _ => True

/-- **The invariant.** -/
structure Answered (s : LoopRun φ) : Prop where
  ordered : s.Ordered
  bounded : ∀ q ∈ s.quits, q.pushes ≤ s.pushed.length
  causes : ∀ q ∈ s.causes, q.pushes ≤ s.pushed.length ∧
    ∀ i p, s.Precedes q i p → i < s.ran.length
  /-- Between the swap and the test, what a `quit()` must wait for is in the batch. -/
  batch : s.stage = .batch ∨ s.stage = .dying → ∀ q ∈ s.quits, ∀ i p, s.Precedes q i p →
    i < s.ran.length + s.loop.rest.length

/-- What ran is the front of what was pushed. -/
theorem Ordered.executed (h : s.Ordered) {i : Nat} {p : Push φ} (hi : i < s.ran.length)
    (hp : s.pushed[i]? = some p) : s.Executed i p := by
  rw [h.fifo, List.getElem?_append_left (by simpa using hi), List.getElem?_map] at hp
  exact hp

theorem Answered.finished (h : s.Answered) : s.Finished := by
  intro q hq i p hprec
  exact h.ordered.executed ((h.causes q hq).2 i p hprec) hprec.2.1

/-- Something queued later comes before no `quit()` that was called already. -/
theorem Precedes.of_push {q : Quit} {i : Nat} {p push : Push φ} (hq : q.pushes ≤ s.pushed.length)
    (hpushed : s'.pushed = s.pushed ++ [push]) (h : s'.Precedes q i p) : s.Precedes q i p := by
  obtain ⟨hi, hp, hcaller⟩ := h
  rw [hpushed, List.getElem?_append_left (Nat.lt_of_lt_of_le hi hq)] at hp
  exact ⟨hi, hp, hcaller⟩

theorem Precedes.congr {q : Quit} {i : Nat} {p : Push φ} (hpushed : s'.pushed = s.pushed)
    (h : s'.Precedes q i p) : s.Precedes q i p := by
  unfold Precedes at h ⊢
  rwa [hpushed] at h

/-- A step between the swap and the test, or one that does not come there, which queues nothing. -/
theorem Answered.same (h : s.Answered) (ho : s'.Ordered) (hpushed : s'.pushed = s.pushed)
    (hquits : s'.quits = s.quits) (hcauses : s'.causes = s.causes)
    (hran : s.ran.length ≤ s'.ran.length)
    (hbatch : s'.stage = .batch ∨ s'.stage = .dying → (s.stage = .batch ∨ s.stage = .dying) ∧
      s.ran.length + s.loop.rest.length = s'.ran.length + s'.loop.rest.length) : s'.Answered where
  ordered := ho
  bounded := by
    rw [hquits, hpushed]
    exact h.bounded
  causes := by
    rw [hcauses, hpushed]
    intro q hq
    refine ⟨(h.causes q hq).1, ?_⟩
    intro i p hprec
    exact Nat.lt_of_lt_of_le ((h.causes q hq).2 i p (hprec.congr hpushed)) hran
  batch := by
    intro hstage q hq i p hprec
    obtain ⟨hstage', hsum⟩ := hbatch hstage
    rw [hquits] at hq
    rw [← hsum]
    exact h.batch hstage' q hq i p (hprec.congr hpushed)

theorem Answered.queueInLoop (h : s.Answered) {caller : Thread} {functor : φ}
    (hmay : s.MayCall caller) : (s.queueInLoop caller functor).Answered where
  ordered := h.ordered.queueInLoop hmay
  bounded := by
    intro q hq
    refine Nat.le_trans (h.bounded q hq) ?_
    show s.pushed.length ≤ (s.pushed ++ [_]).length
    simp
  causes := by
    intro q hq
    obtain ⟨hle, hran⟩ := h.causes q hq
    refine ⟨Nat.le_trans hle ?_, ?_⟩
    · show s.pushed.length ≤ (s.pushed ++ [_]).length
      simp
    · intro i p hprec
      exact hran i p (hprec.of_push hle rfl)
  batch := by
    intro hstage q hq i p hprec
    exact h.batch hstage q hq i p (hprec.of_push (h.bounded q hq) rfl)

/-- What was pushed `i`-th and is neither run nor in the batch is pending. -/
theorem Ordered.mem_pending (h : s.Ordered) {i : Nat} {p : Push φ} (hp : s.pushed[i]? = some p)
    (hi : s.ran.length + s.loop.rest.length ≤ i) : p ∈ s.loop.pendingFunctors_ := by
  rw [h.fifo, EventLoop.waiting, ← List.append_assoc, List.getElem?_append_right] at hp
  · exact List.mem_of_getElem? hp
  · rw [List.length_append, List.length_map]
    exact hi

theorem Answered.quit (h : s.Answered) {caller : Thread} (hs : s.Settled (.quit caller))
    (ho : (s.quit caller).Ordered) : (s.quit caller).Answered where
  ordered := ho
  bounded := by
    intro q hq
    rcases List.mem_append.mp hq with hq | hq
    · exact h.bounded q hq
    · obtain rfl := List.mem_singleton.mp hq
      exact Nat.le_refl _
  causes := h.causes
  batch := by
    intro hstage q hq i p hprec
    rcases List.mem_append.mp hq with hq | hq
    · exact h.batch hstage q hq i p hprec
    · obtain rfl := List.mem_singleton.mp hq
      obtain ⟨-, hp, hcaller⟩ := hprec
      apply Nat.lt_of_not_le
      intro hlate
      exact hs hstage p (h.ordered.mem_pending hp hlate) hcaller

/-- **The step lemma.** -/
theorem Answered.step (h : s.Answered) (hs : s.Settled e) (hstep : s.step e = some s') :
    s'.Answered := by
  have ho := h.ordered.step hstep
  cases step_inv hstep with
  | loop _ => exact h.same ho rfl rfl rfl (Nat.le_refl _) (by simp)
  | queueInLoop hmay => exact h.queueInLoop hmay
  | runHere _ => exact h
  | runThere hmay => exact h.queueInLoop hmay
  | quit _ => exact h.quit hs ho
  | wakeup _ => exact h.same ho rfl rfl rfl (Nat.le_refl _) fun hstage => ⟨hstage, rfl⟩
  | prepareCallBack _ => exact h.same ho rfl rfl rfl (Nat.le_refl _) (by simp)
  | doPendingFunctors hat =>
      -- the swap takes in everything queued so far
      refine ⟨ho, h.bounded, h.causes, ?_⟩
      intro _ q hq i p hprec
      have hrest := h.ordered.tidy.rest (by simp [hat.1])
      have hlen : s.pushed.length = s.ran.length + s.loop.pendingFunctors_.length := by
        rw [h.ordered.fifo, EventLoop.waiting, hrest, List.nil_append, List.length_append,
          List.length_map]
      show i < s.ran.length + s.loop.pendingFunctors_.length
      rw [← hlen]
      exact Nat.lt_of_lt_of_le hprec.1 (h.bounded q hq)
  | runFunctor hat hnext =>
      rename_i push loop
      obtain ⟨hrest, -, -⟩ := EventLoop.nextFunctor_eq hnext
      refine h.same ho rfl rfl rfl (by simp) ?_
      intro _
      refine ⟨Or.inl hat.1, ?_⟩
      simp only [hrest, List.length_append, List.length_cons, List.length_nil]
      omega
  | endFunctors hat hdone =>
      refine h.same ho rfl rfl rfl (Nat.le_refl _) ?_
      intro _
      refine ⟨Or.inl hat.1, ?_⟩
      simp [EventLoop.endFunctors, hdone]
  | testQuit hat =>
      cases hquit : s.quit_ with
      | true =>
          rw [testQuit_of_quit hquit] at ho ⊢
          refine ⟨ho, h.bounded, ?_, by simp⟩
          intro q hq
          refine ⟨h.bounded q hq, ?_⟩
          intro i p hprec
          have hrun := h.batch (Or.inr hat.1) q hq i p hprec
          rw [h.ordered.tidy.rest (by simp [hat.1])] at hrun
          exact hrun
      | false =>
          rw [testQuit_of_not_quit hquit] at ho ⊢
          exact h.same ho rfl rfl rfl (Nat.le_refl _) (by simp)
  | poll _ => exact h.same ho rfl rfl rfl (Nat.le_refl _) (by simp)
  | handleRead hat => exact h.same ho rfl rfl rfl (Nat.le_refl _) fun hstage => ⟨hstage, rfl⟩

theorem reachable_answered (h : (loopMachine φ).ReachableVia Settled s) : s.Answered := by
  refine h.invariant ?_ ?_
  · rintro s rfl
    exact ⟨new_ordered, nofun, nofun, by simp [new]⟩
  · intro s e s' _ hs hc hstep
    exact hs.step hc hstep

/-! ## After a `quit()` that breaks the condition -/

/-- Between the swap and the test, a `quit()` must wait for something behind the batch. -/
structure Doomed (s : LoopRun φ) : Prop where
  stage : s.stage = .batch ∨ s.stage = .dying
  quit : s.quit_ = true
  behind : ∃ q ∈ s.quits, ∃ i p, s.Precedes q i p ∧ s.ran.length + s.loop.rest.length ≤ i

theorem Precedes.append {q : Quit} {i : Nat} {p : Push φ} (h : s.Precedes q i p)
    (hpushed : ∃ more, s'.pushed = s.pushed ++ more) : s'.Precedes q i p := by
  obtain ⟨hi, hp, hcaller⟩ := h
  obtain ⟨more, hmore⟩ := hpushed
  refine ⟨hi, ?_, hcaller⟩
  rw [hmore, List.getElem?_append_left (List.getElem?_eq_some_iff.mp hp).1]
  exact hp

/-- A step between the swap and the test that runs nothing of what is behind the batch. -/
theorem Doomed.same (h : s.Doomed) (hstage : s'.stage = .batch ∨ s'.stage = .dying)
    (hquit : s'.quit_ = true) (hpushed : ∃ more, s'.pushed = s.pushed ++ more)
    (hquits : ∃ more, s'.quits = s.quits ++ more)
    (hsum : s'.ran.length + s'.loop.rest.length = s.ran.length + s.loop.rest.length) :
    s'.Doomed := by
  obtain ⟨q, hq, i, p, hprec, hi⟩ := h.behind
  obtain ⟨more, hmore⟩ := hquits
  refine ⟨hstage, hquit, q, ?_, i, p, hprec.append hpushed, ?_⟩
  · rw [hmore]
    exact List.mem_append_left _ hq
  · rw [hsum]
    exact hi

/-- Only the test of `quit_` leaves the two stages. -/
theorem Doomed.step (h : s.Doomed) (he : e ≠ .testQuit) (hstep : s.step e = some s') :
    s'.Doomed := by
  have hnot : ∀ stage, s.stage = stage → stage = .batch ∨ stage = .dying := by
    rintro stage rfl
    exact h.stage
  cases step_inv hstep with
  | loop hat => exact absurd (hnot _ hat.1) (by simp)
  | queueInLoop _ => exact h.same h.stage h.quit ⟨_, rfl⟩ ⟨[], (List.append_nil _).symm⟩ rfl
  | runHere _ => exact h
  | runThere _ => exact h.same h.stage h.quit ⟨_, rfl⟩ ⟨[], (List.append_nil _).symm⟩ rfl
  | quit _ => exact h.same h.stage rfl ⟨[], (List.append_nil _).symm⟩ ⟨_, rfl⟩ rfl
  | wakeup _ =>
      exact h.same h.stage h.quit ⟨[], (List.append_nil _).symm⟩ ⟨[], (List.append_nil _).symm⟩ rfl
  | prepareCallBack hat => exact absurd (hnot _ hat.1) (by simp)
  | doPendingFunctors hat => exact absurd (hnot _ hat.1) (by simp)
  | runFunctor hat hnext =>
      rename_i push loop
      obtain ⟨hrest, -, -⟩ := EventLoop.nextFunctor_eq hnext
      refine h.same h.stage h.quit ⟨[], (List.append_nil _).symm⟩ ⟨[], (List.append_nil _).symm⟩ ?_
      simp only [hrest, List.length_append, List.length_cons, List.length_nil]
      omega
  | endFunctors _ hdone =>
      refine h.same (Or.inr rfl) h.quit ⟨[], (List.append_nil _).symm⟩
        ⟨[], (List.append_nil _).symm⟩ ?_
      simp [EventLoop.endFunctors, hdone]
  | testQuit _ => exact absurd rfl he
  | poll hpoll => exact absurd (hnot _ hpoll) (by simp)
  | handleRead hat => exact absurd (hnot _ hat.1) (by simp)

theorem Doomed.run (h : s.Doomed) {es : List (Event φ)} (hes : .testQuit ∉ es)
    (hrun : (loopMachine φ).run s es = some s') : s'.Doomed := by
  induction es generalizing s with
  | nil =>
      obtain rfl := Option.some.inj hrun
      exact h
  | cons e es ih =>
      rw [Machine.run, Option.bind_eq_some_iff] at hrun
      obtain ⟨t, hst, hrest⟩ := hrun
      rw [List.mem_cons, not_or] at hes
      exact ih (h.step (Ne.symm hes.1) hst) hes.2 hrest

/-- Then `loop()` returns without having run it. -/
theorem Doomed.unfinished (h : s.Doomed) (htest : s.step .testQuit = some s') : ¬ s'.Finished := by
  obtain ⟨q, hq, i, p, hprec, hi⟩ := h.behind
  simp only [LoopRun.step, Option.ite_none_right_eq_some, Option.some.injEq] at htest
  obtain ⟨-, rfl⟩ := htest
  rw [testQuit_of_quit h.quit]
  intro hfinished
  have hran : s.ran[i]?.map (·.push) = some p := hfinished q hq i p hprec
  rw [List.getElem?_eq_none (by omega)] at hran
  cases hran

/-- A `quit()` that breaks the condition. -/
theorem Ordered.doomed (h : s.Ordered) {caller : Thread} (hnot : ¬ s.Settled (.quit caller)) :
    (s.quit caller).Doomed := by
  simp only [Settled, Classical.not_imp, not_forall, Decidable.not_not] at hnot
  obtain ⟨hstage, p, hp, hcaller⟩ := hnot
  obtain ⟨k, hk⟩ := List.getElem?_of_mem hp
  have hindex : s.pushed[s.ran.length + s.loop.rest.length + k]? = some p := by
    have hlen : ((s.ran.map (·.push)) ++ s.loop.rest).length =
        s.ran.length + s.loop.rest.length := by
      rw [List.length_append, List.length_map]
    rw [h.fifo, EventLoop.waiting, ← List.append_assoc, ← hlen, List.getElem?_append_right
      (Nat.le_add_right _ _), Nat.add_sub_cancel_left]
    exact hk
  refine ⟨hstage, rfl, ⟨caller, s.pushed.length⟩, ?_, _, p, ⟨?_, hindex, hcaller⟩, Nat.le_add_right _ _⟩
  · exact List.mem_append_right _ (List.mem_singleton_self _)
  · exact (List.getElem?_eq_some_iff.mp hindex).1

/-- **`quit()` drops nothing** in the runs in which no thread calls it, between the swap and the test,
    with a functor of its own pending; and after a call that does so `loop()` returns, whatever
    happens until its test, with that functor dropped. -/
theorem quit_drops_nothing (h : (loopMachine φ).ReachableVia Settled s) :
    s.Finished ∧ ∀ caller s₁ es s₂ s₃, s.step (.quit caller) = some s₁ →
      ¬ s.Settled (.quit caller) → .testQuit ∉ es → (loopMachine φ).run s₁ es = some s₂ →
      s₂.step .testQuit = some s₃ → ¬ s₃.Finished := by
  have hs := reachable_answered h
  refine ⟨hs.finished, ?_⟩
  intro caller s₁ es s₂ s₃ hstep hnot hes hrun htest
  simp only [LoopRun.step, Option.ite_none_right_eq_some, Option.some.injEq] at hstep
  obtain ⟨-, rfl⟩ := hstep
  exact ((hs.ordered.doomed hnot).run hes hrun).unfinished htest

instance (s : LoopRun φ) : (e : Event φ) → Decidable (s.Settled e)
  | .quit caller => inferInstanceAs (Decidable (_ ∨ _ → ∀ p ∈ s.loop.pendingFunctors_, p.caller ≠ caller))
  | .loop _ => inferInstanceAs (Decidable True)
  | .queueInLoop _ _ => inferInstanceAs (Decidable True)
  | .runInLoop _ _ => inferInstanceAs (Decidable True)
  | .wakeup _ => inferInstanceAs (Decidable True)
  | .prepareCallBack => inferInstanceAs (Decidable True)
  | .doPendingFunctors => inferInstanceAs (Decidable True)
  | .runFunctor => inferInstanceAs (Decidable True)
  | .endFunctors => inferInstanceAs (Decidable True)
  | .testQuit => inferInstanceAs (Decidable True)
  | .poll => inferInstanceAs (Decidable True)
  | .handleRead => inferInstanceAs (Decidable True)

/-- An event callback queues a functor and calls `quit()`. -/
def quitFromCallback : List (Event Nat) :=
  [.loop .loop, .queueInLoop .loop 1, .quit .loop, .prepareCallBack, .doPendingFunctors, .runFunctor,
   .endFunctors, .testQuit]

theorem quit_drops_nothing_quitFromCallback :
    ∃ s, (loopMachine Nat).run new quitFromCallback = some s ∧
      s.causes = [⟨.loop, 1⟩] ∧ s.Finished := by
  have hrun : ((loopMachine Nat).run new quitFromCallback).map (·.causes) = some [⟨.loop, 1⟩] := by
    decide +kernel
  obtain ⟨s, hs, hcauses⟩ := Option.map_eq_some_iff.mp hrun
  have hreach := Machine.run_reachableVia (M := loopMachine Nat) (C := Settled) (.init rfl)
    (by decide +kernel) hs
  exact ⟨s, hs, hcauses, (quit_drops_nothing hreach).1⟩

/-- A functor queues another one and calls `quit()`: the other one never runs. -/
theorem quit_drops_functor :
    ∃ s, (loopMachine Nat).run new
      [.queueInLoop .loop 1, .loop .loop, .prepareCallBack, .doPendingFunctors, .runFunctor,
       .queueInLoop .loop 2, .wakeup .loop, .quit .loop, .endFunctors, .testQuit] = some s ∧
      ¬ s.Finished := by
  have hrun : ((loopMachine Nat).run new
      [.queueInLoop .loop 1, .loop .loop, .prepareCallBack, .doPendingFunctors, .runFunctor,
       .queueInLoop .loop 2, .wakeup .loop, .quit .loop, .endFunctors, .testQuit]).map
        (fun s => (s.causes, s.pushed[1]?, s.ran[1]?)) =
      some ([⟨.loop, 2⟩], some ⟨.loop, 2, 1⟩, none) := by decide +kernel
  obtain ⟨s, hs, hvalue⟩ := Option.map_eq_some_iff.mp hrun
  simp only [Prod.mk.injEq] at hvalue
  obtain ⟨hcauses, hpushed, hran⟩ := hvalue
  refine ⟨s, hs, ?_⟩
  intro hfinished
  have hexecuted := hfinished ⟨.loop, 2⟩ (hcauses ▸ List.mem_singleton_self _) 1 _
    ⟨by decide, hpushed, rfl⟩
  rw [Executed, hran] at hexecuted
  cases hexecuted

end LoopRun

end Simplev
