import Simplev.Net.LoopRun

/-!
# `Net.Correctness.Rounds` — functors run exactly once, in order, in rounds

`Ordered` is the invariant: what was pushed is what ran followed by what waits (the rest of the batch,
then `pendingFunctors_`); each batch is what its swap took out; and a functor runs in a batch that was
swapped out after it was queued. Nothing a functor or another thread queues can reach the batch that
runs, because the swap has taken the local vector away from `pendingFunctors_`.
-/

namespace Simplev

open Foundation

namespace LoopRun

variable {φ : Type} {s s' : LoopRun φ} {e : Event φ}

/-- The functors that ran in the batch `k`, in order. -/
def ranIn (s : LoopRun φ) (k : Nat) : List (Push φ) :=
  (s.ran.filter fun r => r.batch = k).map (·.push)

/-- The functors of the batch `k` that have yet to run. -/
def restOf (s : LoopRun φ) (k : Nat) : List (Push φ) := if k = s.swaps.length then s.loop.rest else []

/-- **The invariant.** -/
structure Ordered (s : LoopRun φ) : Prop where
  tidy : s.Tidy
  fifo : s.pushed = s.ran.map (·.push) ++ s.loop.waiting
  /-- Every functor that ran was queued before its batch was swapped out. -/
  later : ∀ r ∈ s.ran, r.push.batch < r.batch ∧ r.batch ≤ s.swaps.length
  swapped : ∀ p ∈ s.loop.rest, p.batch < s.swaps.length
  pending : ∀ p ∈ s.loop.pendingFunctors_, p.batch ≤ s.swaps.length
  batches : ∀ k present, s.swaps[k]? = some present → s.ranIn (k + 1) ++ s.restOf (k + 1) = present
  thread : s.looper = .loop ∧ ∀ r ∈ s.ran, r.thread = .loop

theorem new_ordered : (new : LoopRun φ).Ordered where
  tidy := new_tidy
  fifo := rfl
  later := by simp [new]
  swapped := by intro _ h; cases h
  pending := by intro _ h; cases h
  batches := by simp [new]
  thread := ⟨rfl, by simp [new]⟩

/-- A step that moves no functor. -/
theorem Ordered.same (h : s.Ordered) (ht : s'.Tidy) (hloop : s'.loop = s.loop)
    (hpushed : s'.pushed = s.pushed) (hran : s'.ran = s.ran) (hswaps : s'.swaps = s.swaps)
    (hlooper : s'.looper = s.looper) : s'.Ordered where
  tidy := ht
  fifo := by rw [hpushed, hran, hloop, h.fifo]
  later := by rw [hran, hswaps]; exact h.later
  swapped := by rw [hloop, hswaps]; exact h.swapped
  pending := by rw [hloop, hswaps]; exact h.pending
  batches := by
    unfold ranIn restOf
    rw [hran, hswaps, hloop]
    exact h.batches
  thread := by rw [hran, hlooper]; exact h.thread

theorem Ordered.queueInLoop (h : s.Ordered) {caller : Thread} {functor : φ}
    (hmay : s.MayCall caller) : (s.queueInLoop caller functor).Ordered where
  tidy := h.tidy.queueInLoop hmay
  fifo := by
    show s.pushed ++ [_] = s.ran.map (·.push) ++ (s.loop.queueInLoop _).waiting
    rw [EventLoop.waiting_queueInLoop, h.fifo, List.append_assoc]
  later := h.later
  swapped := h.swapped
  pending := by
    intro p hp
    rcases List.mem_append.mp hp with hp | hp
    · exact h.pending p hp
    · obtain rfl := List.mem_singleton.mp hp
      exact Nat.le_refl _
  batches := h.batches
  thread := h.thread

/-- What runs next is the first of the batch, and of those that wait. -/
theorem Ordered.runFunctor (h : s.Ordered) {push : Push φ} {loop : EventLoop (Push φ)}
    (hnext : s.loop.nextFunctor = some (push, loop))
    (ht : ({ s with loop := loop, ran := s.ran ++ [⟨push, s.swaps.length, s.looper⟩] } :
      LoopRun φ).Tidy) :
    ({ s with loop := loop, ran := s.ran ++ [⟨push, s.swaps.length, s.looper⟩] } :
      LoopRun φ).Ordered := by
  have hwaiting := EventLoop.nextFunctor_waiting hnext
  obtain ⟨hrest, hpending, -⟩ := EventLoop.nextFunctor_eq hnext
  have hpush : push.batch < s.swaps.length := h.swapped push (hrest ▸ List.mem_cons_self ..)
  refine ⟨ht, ?_, ?_, ?_, ?_, ?_, h.thread.1, ?_⟩
  · show s.pushed = List.map Ran.push (s.ran ++ [⟨push, s.swaps.length, s.looper⟩]) ++ loop.waiting
    rw [h.fifo, hwaiting, List.map_append, List.append_assoc]
    rfl
  · intro r hr
    rcases List.mem_append.mp hr with hr | hr
    · exact h.later r hr
    · obtain rfl := List.mem_singleton.mp hr
      exact ⟨hpush, Nat.le_refl _⟩
  · intro p hp
    exact h.swapped p (hrest ▸ List.mem_cons_of_mem _ hp)
  · intro p hp
    exact h.pending p (hpending ▸ hp)
  · intro k present hk
    rw [← h.batches k present hk]
    unfold ranIn restOf
    show ((s.ran ++ [_]).filter _).map _ ++ (if k + 1 = s.swaps.length then loop.rest else []) = _
    rw [List.filter_append, List.map_append]
    by_cases hlast : k + 1 = s.swaps.length
    · rw [if_pos hlast, if_pos hlast, hrest, List.append_assoc]
      simp [hlast]
    · rw [if_neg hlast, if_neg hlast]
      simp [Ne.symm hlast]
  · intro r hr
    rcases List.mem_append.mp hr with hr | hr
    · exact h.thread.2 r hr
    · obtain rfl := List.mem_singleton.mp hr
      exact h.thread.1

/-- A swap takes out exactly what is pending, when the last batch has run out. -/
theorem Ordered.swapFunctors (h : s.Ordered) (hrest : s.loop.rest = [])
    (ht : s.swapFunctors.Tidy) : s.swapFunctors.Ordered := by
  refine ⟨ht, ?_, ?_, ?_, nofun, ?_, h.thread⟩
  · show s.pushed = s.ran.map (·.push) ++ s.loop.swapFunctors.waiting
    rw [EventLoop.waiting_swapFunctors hrest, h.fifo]
  · intro r hr
    obtain ⟨hlt, hle⟩ := h.later r hr
    refine ⟨hlt, Nat.le_trans hle ?_⟩
    show s.swaps.length ≤ (s.swaps ++ [_]).length
    simp
  · intro p hp
    show p.batch < (s.swaps ++ [_]).length
    rw [List.length_append]
    exact Nat.lt_succ_of_le (h.pending p hp)
  · intro k present hk
    have hlen : s.swapFunctors.swaps.length = s.swaps.length + 1 := List.length_append
    have hk' : (s.swaps ++ [s.loop.pendingFunctors_])[k]? = some present := hk
    unfold restOf
    rw [hlen]
    by_cases hlast : k = s.swaps.length
    · -- nothing has run in the new batch
      subst hlast
      rw [List.getElem?_concat_length, Option.some.injEq] at hk'
      have hnone : s.swapFunctors.ranIn (s.swaps.length + 1) = [] := by
        unfold ranIn
        rw [List.map_eq_nil_iff, List.filter_eq_nil_iff]
        intro r hr hbatch
        have hle := (h.later r hr).2
        simp only [decide_eq_true_eq] at hbatch
        omega
      rw [hnone, if_pos rfl, List.nil_append]
      exact hk'
    · have hlt : k < s.swaps.length := by
        have hbound := (List.getElem?_eq_some_iff.mp hk').1
        rw [List.length_append, List.length_singleton] at hbound
        omega
      rw [List.getElem?_append_left hlt] at hk'
      have hbatch := h.batches k present hk'
      unfold restOf at hbatch
      rw [if_neg (by omega)]
      rw [hrest, ite_self] at hbatch
      exact hbatch

/-- **The step lemma.** -/
theorem Ordered.step (h : s.Ordered) (hstep : s.step e = some s') : s'.Ordered := by
  have ht := h.tidy.step hstep
  cases step_inv hstep with
  | loop _ => exact h.same ht rfl rfl rfl rfl h.thread.1.symm
  | queueInLoop hmay => exact h.queueInLoop hmay
  | runHere _ => exact h
  | runThere hmay => exact h.queueInLoop hmay
  | quit _ => exact h.same ht rfl rfl rfl rfl rfl
  | wakeup _ => exact h.same ht rfl rfl rfl rfl rfl
  | prepareCallBack _ => exact h.same ht rfl rfl rfl rfl rfl
  | doPendingFunctors hat => exact h.swapFunctors (h.tidy.rest (by simp [hat.1])) ht
  | runFunctor _ hnext => exact h.runFunctor hnext ht
  | endFunctors _ hdone =>
      have hkeeps : s.loop.endFunctors.waiting = s.loop.waiting := EventLoop.waiting_endFunctors hdone
      refine ⟨ht, ?_, h.later, nofun, h.pending, ?_, h.thread⟩
      · show s.pushed = s.ran.map (·.push) ++ s.loop.endFunctors.waiting
        rw [hkeeps, h.fifo]
      · intro k present hk
        rw [← h.batches k present hk]
        unfold restOf
        rw [hdone]
        rfl
  | testQuit _ =>
      cases hquit : s.quit_ with
      | true =>
          rw [testQuit_of_quit hquit] at ht ⊢
          exact h.same ht rfl rfl rfl rfl rfl
      | false =>
          rw [testQuit_of_not_quit hquit] at ht ⊢
          exact h.same ht rfl rfl rfl rfl rfl
  | poll _ => exact h.same ht rfl rfl rfl rfl rfl
  | handleRead _ => exact h.same ht rfl rfl rfl rfl rfl

theorem reachable_ordered {C : LoopRun φ → Event φ → Prop}
    (h : (loopMachine φ).ReachableVia C s) : s.Ordered := by
  refine h.invariant ?_ ?_
  · rintro s rfl
    exact new_ordered
  · intro s e s' _ hs _ hstep
    exact hs.step hstep

/-- **Functors run exactly once, first-in first-out, in rounds.** In every reachable state: those that
    ran, in the order in which they ran, followed by those that wait are all that were pushed, in the
    order of their `push_back`s; each ran in a batch swapped out after it was queued; every batch is
    what was pending at its swap; and all ran on the loop's own thread. -/
theorem functors_in_rounds (h : (loopMachine φ).Reachable s) :
    s.pushed = s.ran.map (·.push) ++ s.loop.waiting ∧
    (∀ r ∈ s.ran, r.push.batch < r.batch) ∧
    (∀ k present, s.swaps[k]? = some present →
      s.ranIn (k + 1) ++ s.restOf (k + 1) = present) ∧
    ∀ r ∈ s.ran, r.thread = .loop := by
  have hs := reachable_ordered h
  exact ⟨hs.fifo, fun r hr => (hs.later r hr).1, hs.batches, hs.thread.2⟩

/-- A functor queues itself again while another thread queues one as well. -/
def requeue : List (Event Nat) :=
  [.queueInLoop (.other 7) 1, .wakeup (.other 7), .loop .loop, .prepareCallBack, .doPendingFunctors,
   .runFunctor, .queueInLoop .loop 1, .wakeup .loop, .queueInLoop (.other 7) 2, .endFunctors,
   .testQuit, .wakeup (.other 7), .poll, .handleRead, .prepareCallBack, .doPendingFunctors,
   .runFunctor]

theorem functors_in_rounds_requeue :
    ∃ s, (loopMachine Nat).run new requeue = some s ∧
      s.ran.map (fun r => (r.push.functor, r.batch)) = [(1, 1), (1, 2)] ∧
      s.pushed = s.ran.map (·.push) ++ s.loop.waiting := by
  have hrun : ((loopMachine Nat).run new requeue).map
      (fun s => s.ran.map fun r => (r.push.functor, r.batch)) = some [(1, 1), (1, 2)] := by
    decide +kernel
  obtain ⟨s, hs, hran⟩ := Option.map_eq_some_iff.mp hrun
  exact ⟨s, hs, hran, (functors_in_rounds (Machine.run_reachable rfl hs)).1⟩

end LoopRun

end Simplev
