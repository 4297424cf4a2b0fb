import Simplev.Net.TimerRun

/-!
# `Net.Correctness.Registry` — timers whose addresses are used again

`Registered` joins the invariant of the queue's memory (`TimerQueue.Sound`) with where
`clearExpiredTimer` is: the iterator points at an entry, no expiry is undelivered and no callback runs
while it is on its way, and a Timer under deletion stays inactive, whatever the destructor of its
callback adds or cancels. An address may be used again the moment it is free; a pointer with the
sequence number of its Timer still names one Timer only, since `s_numCreated_` never comes back to a
number.

The TimerId that another thread's `addTimer` returns is not always such a pair: its last line reads the
sequence number when the Timer may be gone (`Handed`). Where that line finds another Timer, cancelling
what it returns stops that one (`registry_safe_otherStopped`); where it does not (`ReadsOwn`), a TimerId
stops no Timer but its own.
-/

namespace Simplev

open Foundation

namespace TimerQueue

variable {q q' q'' : TimerQueue}

/-- What `clearExpiredTimer` relies on while user code runs under one of its deletions. -/
structure Keeps (q q' : TimerQueue) : Prop where
  valid : ∀ p ∈ q.validTimers_, p ∈ q'.validTimers_
  inactive : ∀ p ∈ q.validTimers_, q'.Active p.timer_ → q.Active p.timer_
  pendings : q.pendings = [] → q'.pendings = []
  destroyed : q'.destroyed = q.destroyed

theorem Keeps.refl (q : TimerQueue) : q.Keeps q :=
  ⟨fun _ hp => hp, fun _ _ ha => ha, fun h => h, rfl⟩

theorem Keeps.trans (h : q.Keeps q') (h' : q'.Keeps q'') : q.Keeps q'' where
  valid p hp := h'.valid p (h.valid p hp)
  inactive p hp ha := h.inactive p hp (h'.inactive p (h.valid p hp) ha)
  pendings hnil := h'.pendings (h.pendings hnil)
  destroyed := h'.destroyed.trans h.destroyed

theorem keeps_newTimer (a : Nat) (repeats : Bool) : q.Keeps (q.newTimer a repeats) where
  valid _ hp := hp
  inactive _ _ ha := (newTimer_active ha).1
  pendings h := h
  destroyed := rfl

/-- What is taken in lives somewhere else than what was. -/
theorem Sound.keeps_addTimerInLoop {untaken : List TimerId} {p : TimerId}
    (h : q.Sound (p :: untaken)) : q.Keeps (q.addTimerInLoop p) where
  valid r hr := by
    unfold TimerQueue.addTimerInLoop
    split
    · exact mem_insertValid.mpr (.inr hr)
    · exact hr
  inactive r hr ha := by
    obtain ⟨hlive, -, hvalid⟩ := h.untaken_live p List.mem_cons_self
    rcases active_update rfl ha with ⟨ha, -⟩ | ⟨heq, -⟩
    · exact ha
    · exact absurd ((h.valid_live r hr).unique hlive heq ▸ hr) hvalid
  pendings hnil := hnil
  destroyed := rfl

theorem keeps_stop (p : TimerId) : q.Keeps (q.stop p) where
  valid _ hr := hr
  inactive _ _ ha := (stop_active ha).1
  pendings hnil := by
    show q.pendings.filter _ = []
    rw [hnil, List.filter_nil]
  destroyed := rfl

theorem keeps_cancelInLoop (p : TimerId) : q.Keeps (q.cancelInLoop p) := by
  unfold TimerQueue.cancelInLoop
  split
  · exact keeps_stop p
  · exact .refl q

/-- A TimerId that is not in the set cancels nothing. -/
theorem cancelInLoop_of_not_mem {p : TimerId} (h : p ∉ q.validTimers_) : q.cancelInLoop p = q :=
  if_neg h

/-- A TimerId stops no Timer but its own. -/
theorem Sound.cancelInLoop_other {untaken : List TimerId} (h : q.Sound untaken) {p r : TimerId}
    (hr : q.Live r) (hne : r ≠ p) :
    (q.cancelInLoop p).timers r.timer_ = q.timers r.timer_ := by
  unfold TimerQueue.cancelInLoop
  split
  · rename_i hvalid
    have haddr : r.timer_ ≠ p.timer_ := fun heq => hne (hr.unique (h.valid_live p hvalid) heq)
    exact Function.update_of_ne haddr _ _
  · rfl

/-- No Timer has this TimerId, and none will: its number has been given out. -/
def Spent (q : TimerQueue) (p : TimerId) : Prop := ¬ q.Live p ∧ p.sequence_ ≤ q.s_numCreated_

theorem Spent.of_live {p : TimerId} (h : q.Spent p) (hlive : q'.Live p → q.Live p)
    (hcreated : q.s_numCreated_ ≤ q'.s_numCreated_) : q'.Spent p :=
  ⟨fun hp => h.1 (hlive hp), h.2.trans hcreated⟩

theorem Spent.newTimer {p : TimerId} (h : q.Spent p) (a : Nat) (repeats : Bool) :
    (q.newTimer a repeats).Spent p := by
  refine ⟨?_, Nat.le_succ_of_le h.2⟩
  intro hlive
  rcases live_newTimer hlive with rfl | ⟨hlive, -⟩
  · exact Nat.not_succ_le_self _ h.2
  · exact h.1 hlive

theorem Spent.addTimerInLoop {p : TimerId} (h : q.Spent p) (r : TimerId) :
    (q.addTimerInLoop r).Spent p := by
  refine h.of_live ?_ (Nat.le_refl _)
  intro hlive
  unfold Live at hlive ⊢
  rw [← found_start r p]
  exact hlive

theorem Spent.cancelInLoop {p : TimerId} (h : q.Spent p) (r : TimerId) :
    (q.cancelInLoop r).Spent p := by
  unfold TimerQueue.cancelInLoop
  split
  · refine h.of_live ?_ (Nat.le_refl _)
    intro hlive
    unfold Live at hlive ⊢
    rw [← found_stop r p]
    exact hlive
  · exact h

/-- It cancels nothing. -/
theorem Sound.cancelInLoop_spent {untaken : List TimerId} (h : q.Sound untaken) {p : TimerId}
    (hp : q.Spent p) : q.cancelInLoop p = q := by
  apply cancelInLoop_of_not_mem
  intro hvalid
  exact hp.1 (h.valid_live p hvalid)

end TimerQueue

namespace TimerRun

variable {s s' : TimerRun}

/-! ## The Timers on their way to the set -/

/-- The Timer that a functor takes in. -/
def added : TimerFunctor → Option TimerId
  | .addTimerInLoop timer => some timer
  | _ => none

/-- The Timers that a thread has made and not queued, or whose functor waits. -/
def untaken (s : TimerRun) : List TimerId :=
  s.adding.map Prod.snd ++ s.loop.functors.filterMap added

theorem untaken_step {loop : LoopRun TimerFunctor} {e : LoopRun.Event TimerFunctor}
    (htidy : s.loop.Tidy) (hturn : s.loop.step e = some loop) (hrun : e ≠ .runFunctor) :
    { s with loop := loop }.untaken = s.untaken ++ e.queued.filterMap added := by
  unfold untaken
  rw [htidy.functors_step hturn hrun, List.filterMap_append, List.append_assoc]

/-- The loop's own calls queue functors of no timer. -/
theorem queued_of_allows {e : LoopRun.Event TimerFunctor} (h : s.Allows e) :
    e.queued = [] ∨ ∃ id, e.queued = [.user id] := by
  cases e with
  | queueInLoop caller functor =>
      cases functor with
      | user id => exact .inr ⟨id, rfl⟩
      | _ => exact h.2.elim
  | runInLoop caller functor =>
      cases functor with
      | user id =>
          cases caller with
          | loop => exact .inl rfl
          | other thread => exact .inr ⟨id, rfl⟩
      | _ => exact h.2.elim
  | _ => exact .inl rfl

theorem added_of_allows {e : LoopRun.Event TimerFunctor} (h : s.Allows e) :
    e.queued.filterMap added = [] := by
  rcases queued_of_allows h with hqueued | ⟨id, hqueued⟩ <;> rw [hqueued] <;> rfl

theorem untaken_queueTimer {loop : LoopRun TimerFunctor} {thread : Nat} {entry : Nat × TimerId}
    (htidy : s.loop.Tidy) (hmem : entry ∈ s.adding)
    (hpush : s.loop.step (.runInLoop (.other thread) (.addTimerInLoop entry.2)) = some loop) :
    { s with
      loop := loop
      adding := s.adding.erase entry
      returning := s.returning ++ [entry] }.untaken.Perm s.untaken := by
  unfold untaken
  have hfunctors := htidy.functors_step hpush (by simp)
  have hqueued : loop.functors.filterMap added = s.loop.functors.filterMap added ++ [entry.2] := by
    rw [hfunctors, List.filterMap_append]
    rfl
  show ((s.adding.erase entry).map Prod.snd ++ loop.functors.filterMap added).Perm _
  rw [hqueued, ← List.append_assoc]
  -- the entry moves from one part to the other
  have hmove := ((List.perm_cons_erase hmem).map Prod.snd).append_right
    (s.loop.functors.filterMap added)
  exact (List.perm_append_singleton _ _).trans hmove.symm

theorem untaken_runFunctor {push : Push TimerFunctor} {rest : EventLoop (Push TimerFunctor)}
    {loop : LoopRun TimerFunctor} (hnext : s.loop.loop.nextFunctor = some (push, rest))
    (hturn : s.loop.step .runFunctor = some loop) :
    s.untaken.Perm ((added push.functor).toList ++ { s with loop := loop }.untaken) := by
  unfold untaken
  rw [LoopRun.functors_runFunctor hnext hturn, List.filterMap_cons]
  cases added push.functor with
  | none => exact .refl _
  | some p => exact List.perm_middle

/-! ## The invariant -/

structure Registered (s : TimerRun) : Prop where
  sound : s.queue.Sound s.untaken
  iterator : ∀ it, s.itBegin = some it →
    it ∈ s.queue.validTimers_ ∧ s.loop.stage = .clearing
  quiet : s.loop.stage = .clearing → s.queue.pendings = [] ∧ s.running = none
  deleting : s.deleting = true → ∃ it, s.itBegin = some it ∧ ¬ s.queue.Active it.timer_
  deletions : s.deletions.map Deletion.timer =
    s.queue.destroyed ++ if s.deleting then s.itBegin.toList else []
  calm : ∀ d ∈ s.deletions, d.active = false ∧ d.pending = false ∧ d.running = false

theorem new_registered : new.Registered where
  sound := .new
  iterator := by simp [new]
  quiet := by rintro ⟨⟩
  deleting := by rintro ⟨⟩
  deletions := rfl
  calm := by simp [new]

/-- A call, of any thread, wherever `clearExpiredTimer` is. -/
theorem Registered.call (h : s.Registered) (hsound : s'.queue.Sound s'.untaken)
    (hkeeps : s.queue.Keeps s'.queue)
    (hstage : s'.loop.stage = .clearing ↔ s.loop.stage = .clearing)
    (hit : s'.itBegin = s.itBegin) (hdeleting : s'.deleting = s.deleting)
    (hrunning : s'.running = s.running) (hdeletions : s'.deletions = s.deletions) :
    s'.Registered where
  sound := hsound
  iterator it h0 := by
    obtain ⟨hvalid, hclearing⟩ := h.iterator it (hit ▸ h0)
    exact ⟨hkeeps.valid it hvalid, hstage.mpr hclearing⟩
  quiet hclearing := by
    obtain ⟨hpendings, hnone⟩ := h.quiet (hstage.mp hclearing)
    exact ⟨hkeeps.pendings hpendings, hrunning ▸ hnone⟩
  deleting hbusy := by
    obtain ⟨it, h0, hidle⟩ := h.deleting (hdeleting ▸ hbusy)
    refine ⟨it, hit ▸ h0, ?_⟩
    intro ha
    exact hidle (hkeeps.inactive it (h.iterator it h0).1 ha)
  deletions := by rw [hdeletions, hkeeps.destroyed, hdeleting, hit, h.deletions]
  calm := by rw [hdeletions]; exact h.calm

theorem stage_runInLoop {loop loop' : LoopRun TimerFunctor} {caller : Thread}
    {functor : TimerFunctor} (h : loop.step (.runInLoop caller functor) = some loop') :
    loop'.stage = .clearing ↔ loop.stage = .clearing := by
  constructor
  · intro hclearing
    rcases LoopRun.clearing_of_step h hclearing with hclearing | heq
    · exact hclearing
    · cases heq
  · intro hclearing
    exact LoopRun.clearing_step h hclearing (by simp)

theorem Registered.exec (h : s.Registered) (functor : TimerFunctor) (loop : LoopRun TimerFunctor)
    (hstage : loop.stage = .clearing ↔ s.loop.stage = .clearing)
    (huntaken : s.untaken.Perm ((added functor).toList ++ { s with loop := loop }.untaken)) :
    { s.exec functor with loop := loop }.Registered := by
  have hsound := h.sound.perm huntaken.symm
  cases functor with
  | addTimerInLoop timer =>
      exact h.call hsound.addTimerInLoop hsound.keeps_addTimerInLoop hstage rfl rfl rfl rfl
  | cancelInLoop handle =>
      exact h.call (hsound.cancelInLoop handle.timerId)
        (TimerQueue.keeps_cancelInLoop handle.timerId) hstage rfl rfl rfl rfl
  | user id => exact h.call hsound (.refl _) hstage rfl rfl rfl rfl

/-- `clearExpiredTimer` is not on its way when the loop goes on. -/
theorem Registered.loop (h : s.Registered) (htidy : s.loop.Tidy)
    {e : LoopRun.Event TimerFunctor} {loop : LoopRun TimerFunctor} (hallows : s.Allows e)
    (hprepare : e ≠ .prepareCallBack) (hrun : e ≠ .runFunctor)
    (hturn : s.loop.step e = some loop) : { s with loop := loop }.Registered := by
  have hback : loop.stage = .clearing → s.loop.stage = .clearing := fun hclearing =>
    (LoopRun.clearing_of_step hturn hclearing).resolve_right hprepare
  refine ⟨?_, ?_, fun hclearing => h.quiet (hback hclearing), h.deleting, h.deletions, h.calm⟩
  · rw [untaken_step htidy hturn hrun, added_of_allows hallows, List.append_nil]
    exact h.sound
  · intro it hit
    obtain ⟨hvalid, hclearing⟩ := h.iterator it hit
    refine ⟨hvalid, LoopRun.clearing_step hturn hclearing ?_⟩
    rintro rfl
    exact absurd (hit.symm.trans hallows) (by simp)

/-! ## The steps of `clearExpiredTimer` -/

theorem Registered.skip (h : s.Registered) {it : TimerId} (hit : s.itBegin = some it)
    (hidle : s.deleting = false) : (s.skip it).Registered := by
  obtain ⟨hvalid, hclearing⟩ := h.iterator it hit
  refine ⟨h.sound.touch (h.sound.valid_live it hvalid), ?_, h.quiet, ?_, ?_, h.calm⟩
  · intro next hnext
    exact ⟨nextValid_mem h.sound.valid_nodup hnext, hclearing⟩
  · intro hbusy
    exact absurd (hidle.symm.trans hbusy) (by simp)
  · have hdeletions := h.deletions
    rw [hidle] at hdeletions
    show s.deletions.map Deletion.timer = s.queue.destroyed ++ if s.deleting then _ else []
    rw [hidle]
    exact hdeletions

theorem Registered.beginDelete (h : s.Registered) {it : TimerId} {t : Timer}
    (hit : s.itBegin = some it) (ht : s.queue.timers it.timer_ = some t)
    (hinactive : t.active = false) (hidle : s.deleting = false) :
    (s.beginDelete it t.active).Registered := by
  obtain ⟨hvalid, hclearing⟩ := h.iterator it hit
  obtain ⟨hpendings, hrunning⟩ := h.quiet hclearing
  refine ⟨h.sound.touch (h.sound.valid_live it hvalid), h.iterator, h.quiet, ?_, ?_, ?_⟩
  · intro _
    refine ⟨it, hit, ?_⟩
    show ¬ (s.queue.timers it.timer_).map Timer.active = some true
    rw [ht, Option.map_some, hinactive]
    simp
  · show (s.deletions ++ [_]).map Deletion.timer = s.queue.destroyed ++ s.itBegin.toList
    have hdeletions := h.deletions
    rw [hidle] at hdeletions
    rw [List.map_append, hdeletions, hit]
    simp
  · intro d hd
    rcases List.mem_append.mp hd with hd | hd
    · exact h.calm d hd
    · rw [List.mem_singleton.mp hd]
      exact ⟨hinactive, by simp [hpendings], by simp [hrunning]⟩

theorem Registered.endDelete (h : s.Registered) {it : TimerId} (hit : s.itBegin = some it)
    (hbusy : s.deleting = true) : (s.endDelete it).Registered := by
  obtain ⟨hvalid, hclearing⟩ := h.iterator it hit
  obtain ⟨hpendings, hrunning⟩ := h.quiet hclearing
  refine ⟨h.sound.destroy hvalid, ?_, ?_, by rintro ⟨⟩, ?_, h.calm⟩
  · intro next hnext
    -- the iterator moved on before the entry was erased
    exact ⟨nextValid_mem_erase h.sound.valid_nodup hnext, hclearing⟩
  · intro _
    refine ⟨?_, hrunning⟩
    show s.queue.pendings.filter _ = []
    rw [hpendings, List.filter_nil]
  · show s.deletions.map Deletion.timer = (s.queue.destroyed ++ [it]) ++ []
    rw [h.deletions, hbusy, hit, List.append_nil]
    rfl

theorem Registered.prepareCallBack (h : s.Registered) (htidy : s.loop.Tidy)
    {loop : LoopRun TimerFunctor} (hnone : s.running = none) (hpendings : s.queue.pendings = [])
    (hturn : s.loop.step .prepareCallBack = some loop) :
    { s with itBegin := s.queue.validTimers_.head?, loop := loop }.Registered := by
  have huntaken := untaken_step htidy hturn (by simp)
  cases LoopRun.step_inv hturn with
  | prepareCallBack hat =>
      -- the pass before has ended, so no deletion is on its way
      have hidle : s.deleting = false := by
        apply Bool.eq_false_iff.mpr
        intro hbusy
        obtain ⟨it, hit, -⟩ := h.deleting hbusy
        exact absurd (hat.1.symm.trans (h.iterator it hit).2) (by simp)
      refine ⟨?_, ?_, fun _ => ⟨hpendings, hnone⟩, ?_, ?_, h.calm⟩
      · exact h.sound.perm (.of_eq (huntaken.trans (List.append_nil _)))
      · intro it hit
        exact ⟨List.mem_of_mem_head? (Option.mem_def.mpr hit), rfl⟩
      · intro hbusy
        exact absurd (hidle.symm.trans hbusy) (by simp)
      · have hdeletions := h.deletions
        rw [hidle] at hdeletions
        show s.deletions.map Deletion.timer = s.queue.destroyed ++ if s.deleting then _ else []
        rw [hidle]
        exact hdeletions

theorem Registered.step (h : s.Registered) (htidy : s.loop.Tidy) {e : Event}
    (hstep : s.step e = some s') : s'.Registered := by
  cases step_inv hstep with
  | @newTimer thread timer repeats _ hnull hfree =>
      -- the new timer is in none of the sets until `addTimerInLoop` has run
      have hsound := h.sound.newTimer hnull hfree repeats
      refine h.call (hsound.perm ?_) (TimerQueue.keeps_newTimer timer repeats) .rfl rfl rfl rfl rfl
      show ((s.adding ++ [_]).map Prod.snd ++ s.loop.functors.filterMap added).Perm
        (_ :: (s.adding.map Prod.snd ++ s.loop.functors.filterMap added))
      rw [List.map_append, List.append_assoc]
      exact List.perm_middle
  | queueTimer hmem hpush =>
      exact h.call (h.sound.perm (untaken_queueTimer htidy hmem hpush)) (.refl _)
        (stage_runInLoop hpush) rfl rfl rfl rfl
  | returnTimer _ => exact h.call h.sound (.refl _) .rfl rfl rfl rfl rfl
  | @addTimer timer repeats _ hnull hfree =>
      have hsound := h.sound.newTimer hnull hfree repeats
      have hkeeps := (TimerQueue.keeps_newTimer timer repeats).trans hsound.keeps_addTimerInLoop
      exact h.call hsound.addTimerInLoop hkeeps .rfl rfl rfl rfl rfl
  | elsewhere =>
      have hkeeps : s.queue.Keeps { s.queue with s_numCreated_ := s.queue.s_numCreated_ + 1 } :=
        ⟨fun _ hp => hp, fun _ _ ha => ha, fun hnil => hnil, rfl⟩
      exact h.call h.sound.elsewhere hkeeps .rfl rfl rfl rfl rfl
  | cancelHere _ _ => exact h.exec (.cancelInLoop _) s.loop .rfl (.refl _)
  | cancelThere _ hpush =>
      refine h.call ?_ (.refl _) (stage_runInLoop hpush) rfl rfl rfl rfl
      rw [untaken_step htidy hpush (by simp)]
      show s.queue.Sound (s.untaken ++ [])
      rw [List.append_nil]
      exact h.sound
  | prepareCallBack hnone hpendings hturn =>
      exact h.prepareCallBack htidy hnone hpendings hturn
  | runFunctor hnext hturn =>
      refine h.exec _ _ ?_ (untaken_runFunctor hnext hturn)
      constructor
      · -- clearing is not interrupted by a functor of the loop
        intro hclearing
        exact (LoopRun.clearing_of_step hturn hclearing).resolve_right (by simp)
      · intro hclearing
        exact LoopRun.clearing_step hturn hclearing (by simp)
  | loop hallows hprepare hrun hturn => exact h.loop htidy hallows hprepare hrun hturn
  | expire hpolling ht hactive =>
      refine ⟨h.sound.expire ht hactive, ?_, ?_, ?_, h.deletions, h.calm⟩
      · exact h.iterator
      · intro hclearing
        exact absurd (hpolling.symm.trans hclearing) (by simp)
      · -- a timer on its way to be deleted is in no set, so it is not the one that expires
        intro hbusy
        obtain ⟨it, hit, hidle⟩ := h.deleting hbusy
        exact ⟨it, hit, fun ha => hidle (TimerQueue.expire_active ht hactive ha)⟩
  | deliver hat hpending =>
      refine ⟨h.sound.deliver hpending, h.iterator, ?_, h.deleting, h.deletions, h.calm⟩
      intro hclearing
      exact absurd (hat.1.symm.trans hclearing) (by simp)
  | leave hat =>
      exact ⟨h.sound, h.iterator, fun hclearing => ⟨(h.quiet hclearing).1, rfl⟩, h.deleting,
        h.deletions, h.calm⟩
  | skip hit hidle => exact h.skip hit hidle
  | delete hit ht hinactive hidle => exact h.beginDelete hit ht hinactive hidle
  | endDelete hit hbusy => exact h.endDelete hit hbusy

theorem reachable_registered {C : TimerRun → Event → Prop} (h : timerMachine.ReachableVia C s) :
    s.Registered := by
  refine h.invariant ?_ ?_
  · rintro s rfl
    exact new_registered
  · intro s e s' hs hregistered _ hstep
    exact hregistered.step (LoopRun.reachable_tidy (reachable_loop hs)) hstep

/-! ## The TimerIds that calls return -/

/-- The Timers that were queued once: their functor waits, or it has run. -/
def queued (s : TimerRun) : List TimerId := s.loop.functors.filterMap added ++ s.queue.takenIn

theorem exec_takenIn (functor : TimerFunctor) :
    (s.exec functor).queue.takenIn = s.queue.takenIn ++ (added functor).toList := by
  cases functor with
  | addTimerInLoop timer => rfl
  | cancelInLoop handle =>
      show (s.queue.cancelInLoop handle.timerId).takenIn = s.queue.takenIn ++ []
      rw [List.append_nil]
      unfold TimerQueue.cancelInLoop
      split <;> rfl
  | user id => exact (List.append_nil _).symm

theorem exec_destroyed (functor : TimerFunctor) :
    (s.exec functor).queue.destroyed = s.queue.destroyed := by
  cases functor with
  | cancelInLoop handle => exact (TimerQueue.keeps_cancelInLoop handle.timerId).destroyed
  | _ => rfl

theorem exec_returning (functor : TimerFunctor) :
    (s.exec functor).returning = s.returning := by
  cases functor with
  | _ => rfl

theorem exec_returned (functor : TimerFunctor) : (s.exec functor).returned = s.returned := by
  cases functor with
  | _ => rfl

/-- The TimerId that a call returned is that of the Timer it made, unless that one was deleted before
    the call ended. -/
structure Handed (s : TimerRun) : Prop where
  returning : ∀ entry ∈ s.returning, entry.2 ∈ s.queued
  returned : ∀ handle ∈ s.returned, handle.timerId = handle.made ∨ handle.made ∈ s.queue.destroyed
  cancels : ∀ handle, .cancelInLoop handle ∈ s.loop.functors →
    handle = .null ∨ handle ∈ s.returned

theorem new_handed : new.Handed where
  returning := by simp [new]
  returned := by simp [new]
  cancels := by intro _ h; cases h

/-- A step in which no call returns. -/
theorem Handed.same (h : s.Handed) (hreturning : s'.returning = s.returning)
    (hreturned : s'.returned = s.returned) (hqueued : s.queued ⊆ s'.queued)
    (hdestroyed : s.queue.destroyed ⊆ s'.queue.destroyed)
    (hcancels : ∀ handle, .cancelInLoop handle ∈ s'.loop.functors →
      .cancelInLoop handle ∈ s.loop.functors ∨ handle = .null ∨ handle ∈ s.returned) :
    s'.Handed where
  returning entry hentry := hqueued (h.returning entry (hreturning ▸ hentry))
  returned handle hhandle := by
    rw [hreturned] at hhandle
    exact (h.returned handle hhandle).imp_right fun hdead => hdestroyed hdead
  cancels handle hhandle := by
    rw [hreturned]
    exact (hcancels handle hhandle).elim (h.cancels handle) id

/-- A functor is queued and the rest of the timers stays as it is. -/
theorem Handed.push (h : s.Handed) {loop : LoopRun TimerFunctor} {more : List TimerFunctor}
    (hloop : loop.functors = s.loop.functors ++ more)
    (hmore : ∀ handle, .cancelInLoop handle ∈ more → handle = .null ∨ handle ∈ s.returned) :
    { s with loop := loop }.Handed := by
  refine h.same rfl rfl ?_ (List.Subset.refl _) ?_
  · show s.queued ⊆ loop.functors.filterMap added ++ s.queue.takenIn
    rw [hloop, List.filterMap_append, List.append_assoc]
    exact List.append_subset.mpr
      ⟨List.subset_append_left _ _, fun _ hp => List.mem_append_right _ (List.mem_append_right _ hp)⟩
  · intro handle hhandle
    have hhandle : .cancelInLoop handle ∈ loop.functors := hhandle
    rw [hloop] at hhandle
    exact (List.mem_append.mp hhandle).imp_right (hmore handle)

theorem Handed.queueTimer (h : s.Handed) {entry : Nat × TimerId} {loop : LoopRun TimerFunctor}
    (hloop : loop.functors = s.loop.functors ++ [.addTimerInLoop entry.2]) :
    { s with
      loop := loop
      adding := s.adding.erase entry
      returning := s.returning ++ [entry] }.Handed := by
  have hpush := h.push hloop fun handle hhandle => by
    exact absurd (List.mem_singleton.mp hhandle) (by simp)
  refine ⟨?_, hpush.returned, hpush.cancels⟩
  intro e he
  rcases List.mem_append.mp he with he | he
  · exact hpush.returning e he
  · rw [List.mem_singleton.mp he]
    apply List.mem_append_left
    show entry.2 ∈ loop.functors.filterMap added
    rw [hloop, List.filterMap_append]
    exact List.mem_append_right _ List.mem_cons_self

/-- While the Timer is not deleted, it is what lives at its address. -/
theorem Handed.live_or_destroyed (h : s.Handed) (hreg : s.Registered) {entry : Nat × TimerId}
    (hentry : entry ∈ s.returning) : s.queue.Live entry.2 ∨ entry.2 ∈ s.queue.destroyed := by
  by_cases hdead : entry.2 ∈ s.queue.destroyed
  · exact .inr hdead
  · left
    rcases List.mem_append.mp (h.returning entry hentry) with hwaits | htaken
    · exact (hreg.sound.untaken_live _ (List.mem_append_right _ hwaits)).1
    · exact hreg.sound.valid_live _ ((hreg.sound.taken _).mpr ⟨htaken, hdead⟩)

/-- Of a Timer that lives, the sequence number read is its own. -/
theorem sequence_of_live {timer : TimerId} (hlive : s.queue.Live timer) (memory : Nat) :
    s.sequence timer memory = timer.sequence_ := by
  unfold sequence
  rw [show s.queue.found timer = some timer.sequence_ from hlive, Option.getD_some]

/-- A call returns `timerId`. -/
theorem Handed.handOut (h : s.Handed) {made timerId : TimerId}
    (hown : timerId = made ∨ made ∈ s.queue.destroyed) : (s.handOut made timerId).Handed where
  returning := h.returning
  returned handle hhandle := by
    rcases List.mem_append.mp hhandle with hhandle | hhandle
    · exact h.returned handle hhandle
    · rw [List.mem_singleton.mp hhandle]
      exact hown
  cancels handle hhandle :=
    (h.cancels handle hhandle).imp_right fun hmem => List.mem_append_left _ hmem

theorem Handed.returnTimer (h : s.Handed) (hreg : s.Registered) {entry : Nat × TimerId}
    (hentry : entry ∈ s.returning) (memory : Nat) : (s.returnTimer entry memory).Handed := by
  have hown : (⟨entry.2.timer_, s.sequence entry.2 memory⟩ : TimerId) = entry.2 ∨
      entry.2 ∈ s.queue.destroyed := by
    rcases h.live_or_destroyed hreg hentry with hlive | hdead
    · left
      rw [sequence_of_live hlive]
    · exact .inr hdead
  have hhanded := h.handOut hown
  exact ⟨fun e he => h.returning e (List.mem_of_mem_erase he), hhanded.returned, hhanded.cancels⟩

/-- A functor runs; `loop` is the loop after it. -/
theorem Handed.exec (h : s.Handed) {functor : TimerFunctor} {loop : LoopRun TimerFunctor}
    (hloop : s.loop.functors = functor :: loop.functors) :
    { s.exec functor with loop := loop }.Handed := by
  refine h.same (exec_returning functor) (exec_returned functor) ?_ ?_ ?_
  · show s.loop.functors.filterMap added ++ s.queue.takenIn ⊆
      loop.functors.filterMap added ++ (s.exec functor).queue.takenIn
    rw [hloop, exec_takenIn, List.filterMap_cons]
    -- what it takes in moves from what waits to what has been taken in
    cases hadded : added functor with
    | none => simp
    | some timer => simp
  · show s.queue.destroyed ⊆ (s.exec functor).queue.destroyed
    rw [exec_destroyed]
    exact List.Subset.refl _
  · intro handle hhandle
    rw [hloop]
    exact .inl (List.mem_cons_of_mem _ hhandle)

theorem Handed.step (h : s.Handed) (hreg : s.Registered) (htidy : s.loop.Tidy) {e : Event}
    (hstep : s.step e = some s') : s'.Handed := by
  cases step_inv hstep with
  | newTimer _ _ _ =>
      exact h.same rfl rfl (List.Subset.refl _) (List.Subset.refl _) fun _ hmem => .inl hmem
  | queueTimer hmem hpush => exact h.queueTimer (htidy.functors_step hpush (by simp))
  | returnTimer hfound => exact h.returnTimer hreg (List.mem_of_find?_eq_some hfound) _
  | @addTimer timer repeats _ _ _ =>
      have hhanded : (s.handOut (s.newTimer timer repeats).2 (s.newTimer timer repeats).2).Handed :=
        h.handOut (.inl rfl)
      refine hhanded.same rfl rfl ?_ (List.Subset.refl _) fun _ hmem => .inl hmem
      intro p hp
      rcases List.mem_append.mp hp with hp | hp
      · exact List.mem_append_left _ hp
      · exact List.mem_append_right _ (List.mem_append_left _ hp)
  | @elsewhere timer =>
      have hhanded : (s.handOut ⟨timer, s.queue.s_numCreated_ + 1⟩
          ⟨timer, s.queue.s_numCreated_ + 1⟩).Handed := h.handOut (.inl rfl)
      exact ⟨hhanded.returning, hhanded.returned, hhanded.cancels⟩
  | @cancelHere handle _ _ =>
      refine h.same rfl rfl ?_ ?_ fun _ hmem => .inl hmem
      · unfold queued
        rw [exec_takenIn, exec_loop]
        exact List.append_subset.mpr ⟨List.subset_append_left _ _, fun _ hp =>
          List.mem_append_right _ (List.mem_append_left _ hp)⟩
      · rw [exec_destroyed]
        exact List.Subset.refl _
  | cancelThere hknown hpush =>
      refine h.push (htidy.functors_step hpush (by simp)) ?_
      intro handle hhandle
      cases List.mem_singleton.mp hhandle
      exact hknown
  | @prepareCallBack loop _ _ hturn =>
      have hloop : loop.functors = s.loop.functors ++ [] := htidy.functors_step hturn (by simp)
      have hhanded := h.push hloop (by simp)
      exact ⟨hhanded.returning, hhanded.returned, hhanded.cancels⟩
  | runFunctor hnext hturn => exact h.exec (LoopRun.functors_runFunctor hnext hturn)
  | loop hallows _ hrun hturn =>
      refine h.push (htidy.functors_step hturn hrun) ?_
      intro handle hhandle
      rcases queued_of_allows hallows with hqueued | ⟨id, hqueued⟩
      · rw [hqueued] at hhandle
        exact absurd hhandle List.not_mem_nil
      · rw [hqueued] at hhandle
        exact absurd (List.mem_singleton.mp hhandle) (by simp)
  | endDelete _ _ =>
      exact h.same rfl rfl (List.Subset.refl _) (List.subset_append_left _ _)
        fun _ hmem => .inl hmem
  | _ => exact h.same rfl rfl (List.Subset.refl _) (List.Subset.refl _) fun _ hmem => .inl hmem

theorem reachable_handed {C : TimerRun → Event → Prop} (h : timerMachine.ReachableVia C s) :
    s.Handed := by
  refine h.invariant ?_ ?_
  · rintro s rfl
    exact new_handed
  · intro s e s' hs hhanded _ hstep
    have htidy := LoopRun.reachable_tidy (reachable_loop hs)
    exact hhanded.step (reachable_registered hs) htidy hstep

/-! ## Whose sequence number is read -/

/-- **The condition**: where the last line of another thread's `addTimer` reads `timer->sequence()` no
    other Timer lives, and what free memory holds there is no number that has yet to be given out. -/
def ReadsOwn (s : TimerRun) : Event → Prop
  | .returnTimer thread memory =>
    match s.returning.find? (·.1 = thread) with
    | some entry =>
      s.queue.Live entry.2 ∨
        s.queue.timers entry.2.timer_ = none ∧ memory ≤ s.queue.s_numCreated_
    | none => True
  | _ => True

instance (s : TimerRun) (e : Event) : Decidable (s.ReadsOwn e) :=
  match e with
  | .returnTimer thread _ =>
    match h : s.returning.find? (·.1 = thread) with
    | some _ => decidable_of_iff (_ ∨ _ ∧ _) (by rw [ReadsOwn, h])
    | none => .isTrue (by rw [ReadsOwn, h]; trivial)
  | .newTimer .. | .queueTimer _ | .addTimer .. | .elsewhere _ | .cancel .. | .loop _ | .expire _
  | .deliver _ | .leave | .sweep | .endDelete => .isTrue trivial

/-- A TimerId that a call returned is that of the Timer it made, or no Timer's any more. -/
def Named (s : TimerRun) : Prop :=
  ∀ handle ∈ s.returned, handle.timerId = handle.made ∨ s.queue.Spent handle.timerId

theorem spent_exec {p : TimerId} (h : s.queue.Spent p) (functor : TimerFunctor) :
    (s.exec functor).queue.Spent p := by
  cases functor with
  | addTimerInLoop timer => exact h.addTimerInLoop timer
  | cancelInLoop handle => exact h.cancelInLoop handle.timerId
  | user id => exact h

theorem spent_step {p : TimerId} (h : s.queue.Spent p) {e : Event} (hstep : s.step e = some s') :
    s'.queue.Spent p := by
  cases step_inv hstep with
  | @newTimer _ timer repeats _ _ _ => exact h.newTimer timer repeats
  | @addTimer timer repeats _ _ _ => exact (h.newTimer timer repeats).addTimerInLoop _
  | elsewhere => exact ⟨h.1, Nat.le_succ_of_le h.2⟩
  | @cancelHere handle _ _ => exact h.cancelInLoop handle.timerId
  | runFunctor _ _ => exact spent_exec h _
  | expire _ hfound _ =>
      refine h.of_live ?_ (Nat.le_refl _)
      intro hlive
      unfold TimerQueue.Live at hlive ⊢
      rw [← TimerQueue.found_expire hfound p]
      exact hlive
  | endDelete _ _ =>
      exact h.of_live (fun hlive => (TimerQueue.live_destroy hlive).1) (Nat.le_refl _)
  | _ => exact h

/-- A call returns a TimerId; the others stay what they are. -/
theorem Named.handOut (h : s.Named) {made timerId : TimerId}
    (hown : timerId = made ∨ s.queue.Spent timerId) : (s.handOut made timerId).Named := by
  intro handle hhandle
  rcases List.mem_append.mp hhandle with hhandle | hhandle
  · exact h handle hhandle
  · rw [List.mem_singleton.mp hhandle]
    exact hown

theorem Named.same (h : s.Named) (hreturned : s'.returned = s.returned)
    (hspent : ∀ p, s.queue.Spent p → s'.queue.Spent p) : s'.Named := by
  intro handle hhandle
  exact (h handle (hreturned ▸ hhandle)).imp_right (hspent _)

theorem Named.returnTimer (h : s.Named) {thread memory : Nat} {entry : Nat × TimerId}
    (hfound : s.returning.find? (·.1 = thread) = some entry)
    (hreads : s.ReadsOwn (.returnTimer thread memory)) : (s.returnTimer entry memory).Named := by
  have hreads : s.queue.Live entry.2 ∨
      s.queue.timers entry.2.timer_ = none ∧ memory ≤ s.queue.s_numCreated_ := by
    rw [ReadsOwn, hfound] at hreads
    exact hreads
  refine (h.handOut ?_ : (s.handOut entry.2 _).Named)
  rcases hreads with hlive | ⟨hfree, hle⟩
  · left
    rw [sequence_of_live hlive]
  · right
    have hnone : s.queue.found entry.2 = none := by
      unfold TimerQueue.found
      rw [hfree, Option.map_none]
    refine ⟨?_, ?_⟩
    · intro hlive
      exact absurd (hnone.symm.trans hlive) (by simp)
    · show (s.queue.found entry.2).getD memory ≤ s.queue.s_numCreated_
      rw [hnone, Option.getD_none]
      exact hle

theorem Named.step (h : s.Named) {e : Event} (hreads : s.ReadsOwn e)
    (hstep : s.step e = some s') : s'.Named := by
  have hspent : ∀ p, s.queue.Spent p → s'.queue.Spent p := fun p hp => spent_step hp hstep
  cases step_inv hstep with
  | returnTimer hfound => exact h.returnTimer hfound hreads
  | @addTimer timer repeats _ _ _ =>
      have hnamed : (s.handOut (s.newTimer timer repeats).2 (s.newTimer timer repeats).2).Named :=
        h.handOut (.inl rfl)
      exact hnamed.same rfl hspent
  | @elsewhere timer =>
      have hnamed : (s.handOut ⟨timer, s.queue.s_numCreated_ + 1⟩
          ⟨timer, s.queue.s_numCreated_ + 1⟩).Named := h.handOut (.inl rfl)
      exact hnamed.same rfl hspent
  | runFunctor _ _ => exact h.same (exec_returned _) hspent
  | _ => exact h.same rfl hspent

theorem reachable_named (h : timerMachine.ReachableVia ReadsOwn s) : s.Named := by
  refine h.invariant ?_ ?_
  · rintro s rfl handle hhandle
    exact absurd hhandle List.not_mem_nil
  · intro s e s' _ hnamed hreads hstep
    exact hnamed.step hreads hstep

/-! ## The registry -/

structure Safe (s : TimerRun) : Prop where
  /-- `validTimers_` are the Timers taken in and not destroyed. -/
  taken : ∀ id, id ∈ s.queue.validTimers_ ↔ id ∈ s.queue.takenIn ∧ id ∉ s.queue.destroyed
  /-- Every pointer dereferenced pointed at the Timer it was made for. -/
  touched : ∀ p found, (p, found) ∈ s.queue.touched → found = some p.sequence_
  deletedOnce : (s.deletions.map Deletion.timer).Nodup
  calm : ∀ d ∈ s.deletions, d.active = false ∧ d.pending = false ∧ d.running = false
  /-- So it stays until the deletion ends. -/
  deleting : ∀ it, s.deleting = true → s.itBegin = some it →
    ¬ s.queue.Active it.timer_ ∧ it ∉ s.queue.pendings ∧ s.running ≠ some it
  /-- The TimerId of a deleted Timer cancels nothing. -/
  cancels : ∀ handle ∈ s.returned, handle.made ∈ s.queue.destroyed →
    s.queue.cancelInLoop handle.timerId = s.queue
  /-- A TimerId stops no Timer but its own. -/
  own : ∀ handle ∈ s.returned, ∀ p, s.queue.Live p → p ≠ handle.made →
    (s.queue.cancelInLoop handle.timerId).timers p.timer_ = s.queue.timers p.timer_

theorem Registered.deletedOnce (h : s.Registered) : (s.deletions.map Deletion.timer).Nodup := by
  rw [h.deletions]
  split
  · rename_i hbusy
    obtain ⟨it, hit, -⟩ := h.deleting hbusy
    have hvalid := (h.iterator it hit).1
    rw [hit]
    apply List.nodup_append.mpr
    refine ⟨h.sound.destroyed_nodup, List.nodup_singleton it, ?_⟩
    rintro p hp p' hp' rfl
    rw [List.mem_singleton.mp hp'] at hp
    exact ((h.sound.taken it).mp hvalid).2 hp
  · rw [List.append_nil]
    exact h.sound.destroyed_nodup

theorem Registered.calmUntilDeleted (h : s.Registered) {it : TimerId} (hbusy : s.deleting = true)
    (hit : s.itBegin = some it) :
    ¬ s.queue.Active it.timer_ ∧ it ∉ s.queue.pendings ∧ s.running ≠ some it := by
  obtain ⟨it', hit', hidle⟩ := h.deleting hbusy
  obtain rfl := Option.some.inj (hit.symm.trans hit')
  obtain ⟨hpendings, hrunning⟩ := h.quiet (h.iterator it hit).2
  refine ⟨hidle, ?_, ?_⟩
  · rw [hpendings]
    exact List.not_mem_nil
  · rw [hrunning]
    simp

theorem Registered.safe (h : s.Registered) (hnamed : s.Named) : s.Safe where
  taken := h.sound.taken
  touched _ _ hmem := h.sound.touched _ hmem
  deletedOnce := h.deletedOnce
  calm := h.calm
  deleting _ hbusy hit := h.calmUntilDeleted hbusy hit
  cancels handle hhandle hdead := by
    rcases hnamed handle hhandle with hown | hspent
    · rw [hown]
      exact h.sound.cancelInLoop_spent (h.sound.destroyed _ hdead)
    · exact h.sound.cancelInLoop_spent hspent
  own handle hhandle p hp hne := by
    rcases hnamed handle hhandle with hown | hspent
    · rw [hown]
      exact h.sound.cancelInLoop_other hp hne
    · rw [h.sound.cancelInLoop_spent hspent]

/-- **The registry is safe** in every state that calls from any threads, expirations, callbacks,
    destructors of callbacks and passes of `clearExpiredTimer` reach, where no other thread's `addTimer`
    reads the sequence number of a Timer that is not its own. -/
theorem registry_safe (h : timerMachine.ReachableVia ReadsOwn s) : s.Safe :=
  (reachable_registered h).safe (reachable_named h)

/-- A one-shot timer expires and is deleted (its callback cancels it, and so does the destructor of
    that callback); another thread's timer gets its address, and its call returns. -/
def addressReused : List Event :=
  [.addTimer 8 false, .loop (.loop .loop), .loop .prepareCallBack, .sweep, .loop .doPendingFunctors,
   .loop .endFunctors, .loop .testQuit, .expire 8, .loop .poll, .deliver ⟨8, 1⟩,
   .cancel .loop ⟨⟨8, 1⟩, ⟨8, 1⟩⟩, .leave, .loop .prepareCallBack, .sweep,
   .cancel .loop ⟨⟨8, 1⟩, ⟨8, 1⟩⟩, .endDelete, .newTimer 1 8 true, .queueTimer 1,
   .loop .doPendingFunctors, .loop .runFunctor, .loop (.wakeup (.other 1)), .returnTimer 1 0]

theorem registry_safe_addressReused :
    ∃ s, timerMachine.ReachableVia ReadsOwn s ∧ s.queue.destroyed = [⟨8, 1⟩] ∧
      s.queue.validTimers_ = [⟨8, 2⟩] ∧
      s.returned = [⟨⟨8, 1⟩, ⟨8, 1⟩⟩, ⟨⟨8, 2⟩, ⟨8, 2⟩⟩] ∧
      s.queue.cancelInLoop ⟨8, 1⟩ = s.queue := by
  have hrun : (timerMachine.run new addressReused).map
      (fun s => (s.queue.destroyed, s.queue.validTimers_, s.returned)) =
        some ([⟨8, 1⟩], [⟨8, 2⟩], [⟨⟨8, 1⟩, ⟨8, 1⟩⟩, ⟨⟨8, 2⟩, ⟨8, 2⟩⟩]) := by decide +kernel
  obtain ⟨s, hs, hvalue⟩ := Option.map_eq_some_iff.mp hrun
  obtain ⟨hdestroyed, hrest⟩ := Prod.mk.inj hvalue
  obtain ⟨hvalid, hreturned⟩ := Prod.mk.inj hrest
  have hreach := Machine.run_reachableVia (M := timerMachine) (C := ReadsOwn) (.init rfl)
    (by decide +kernel) hs
  refine ⟨s, hreach, hdestroyed, hvalid, hreturned, ?_⟩
  apply (registry_safe hreach).cancels ⟨⟨8, 1⟩, ⟨8, 1⟩⟩
  · rw [hreturned]
    exact List.mem_cons_self
  · rw [hdestroyed]
    exact List.mem_cons_self

/-- Where the line reads the number of another Timer that is active, the TimerId it returns stops that
    one. -/
theorem Registered.returnTimer_unsafe (h : s.Registered) {entry : Nat × TimerId} {p : TimerId}
    (haddr : p.timer_ = entry.2.timer_) (hne : p ≠ entry.2) (hvalid : p ∈ s.queue.validTimers_)
    (hactive : s.queue.Active p.timer_) (memory : Nat) : ¬ (s.returnTimer entry memory).Safe := by
  have hlive := h.sound.valid_live p hvalid
  have hread : s.queue.found entry.2 = some p.sequence_ := by
    unfold TimerQueue.found
    rw [← haddr]
    exact hlive
  intro hsafe
  have hown := hsafe.own ⟨entry.2, ⟨entry.2.timer_, s.sequence entry.2 memory⟩⟩
    (List.mem_append_right _ List.mem_cons_self) p hlive hne
  have hid : (⟨entry.2.timer_, s.sequence entry.2 memory⟩ : TimerId) = p := by
    unfold sequence
    rw [hread, Option.getD_some, ← haddr]
  have hstopped : (s.queue.stop p).timers p.timer_ = s.queue.timers p.timer_ := by
    rw [hid] at hown
    have hcancel : s.queue.cancelInLoop p = s.queue.stop p := if_pos hvalid
    exact hcancel ▸ hown
  refine (TimerQueue.stop_active (q := s.queue) (p := p) (a := p.timer_) ?_).2 rfl
  unfold TimerQueue.Active at hactive ⊢
  rw [hstopped]
  exact hactive

/-- The timer of thread 1 runs and is deleted while its `addTimer` has one line to go; the timer of
    thread 2 gets its address. -/
def readsOther : List Event :=
  [.loop (.loop .loop), .newTimer 1 8 false, .queueTimer 1, .loop (.wakeup (.other 1)),
   .loop .prepareCallBack, .loop .doPendingFunctors, .loop .runFunctor, .loop .endFunctors,
   .loop .testQuit, .expire 8, .loop .poll, .deliver ⟨8, 1⟩, .leave, .loop .prepareCallBack, .sweep,
   .endDelete, .newTimer 2 8 true, .queueTimer 2, .loop .doPendingFunctors, .loop .runFunctor,
   .returnTimer 1 0]

/-- A functor then cancels the timer of thread 1, which was deleted: that of thread 2 stops. -/
theorem registry_safe_otherStopped :
    ∃ s s', timerMachine.run new readsOther = some s ∧
      s.step (.cancel .loop ⟨⟨8, 1⟩, ⟨8, 2⟩⟩) = some s' ∧ s.queue.destroyed = [⟨8, 1⟩] ∧
      s.queue.timers 8 = some ⟨2, true, true⟩ ∧ s'.queue.timers 8 = some ⟨2, true, false⟩ ∧
      ¬ s.Safe := by
  have hrun : (timerMachine.run new readsOther).map (fun s => (s.queue.destroyed, s.queue.timers 8,
      (s.step (.cancel .loop ⟨⟨8, 1⟩, ⟨8, 2⟩⟩)).map (·.queue.timers 8))) =
        some ([⟨8, 1⟩], some ⟨2, true, true⟩, some (some ⟨2, true, false⟩)) := by decide +kernel
  obtain ⟨s, hs, hvalue⟩ := Option.map_eq_some_iff.mp hrun
  obtain ⟨hdestroyed, hrest⟩ := Prod.mk.inj hvalue
  obtain ⟨hbefore, hcancel⟩ := Prod.mk.inj hrest
  obtain ⟨s', hs', hafter⟩ := Option.map_eq_some_iff.mp hcancel
  refine ⟨s, s', hs, hs', hdestroyed, hbefore, hafter, ?_⟩
  intro hsafe
  cases step_inv hs' with
  | cancelHere _ hknown =>
      have hlive : s.queue.Live ⟨8, 2⟩ := by
        unfold TimerQueue.Live TimerQueue.found
        rw [hbefore]
        rfl
      have hown := hsafe.own _ (hknown.resolve_left (by decide)) ⟨8, 2⟩ hlive (by decide)
      have hsame : (s.queue.cancelInLoop ⟨8, 2⟩).timers 8 = some ⟨2, true, true⟩ :=
        hown.trans hbefore
      exact absurd (hafter.symm.trans hsame) (by decide)

end TimerRun

end Simplev
