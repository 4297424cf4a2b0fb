import Simplev.Net.Correctness.Once

/-!
# `Net.Correctness.Sweep` — `clearExpiredTimer` leaves no dead Timer behind

A Timer that has expired or was cancelled stays in memory until a pass of `clearExpiredTimer` finds it
inactive. While the pass is on its way destructors of callbacks may add timers, in front of the iterator or
behind it, and cancel timers. Only an active timer that the pass has gone past and that such a destructor
cancels is missed (`Quietly` leaves this out), and the next pass finds it.

`Housed` says where the Timers in memory are, `Swept` which of them the pass has left behind it.
-/

namespace Simplev

open Foundation

namespace TimerQueue

variable {q q' : TimerQueue} {p r it : TimerId} {untaken : List TimerId}

/-! ## The rest of a pass -/

/-- What is behind the iterator, and not at it, is behind the next one, also when its entry is erased. -/
theorem mem_dropWhile_next {timers : List TimerId} (hnodup : timers.Nodup) (hit : it ∈ timers)
    (hp : p ∈ timers.dropWhile (· ≠ it)) (hne : p ≠ it) :
    ∃ next, nextValid timers it = some next ∧ p ∈ timers.dropWhile (· ≠ next) ∧
      p ∈ (timers.erase it).dropWhile (· ≠ next) := by
  obtain ⟨before, rest, rfl, hbefore⟩ := List.eq_append_cons_of_mem hit
  have hpass : ∀ x, x ∉ before → ∀ y ∈ before, decide (y ≠ x) = true := by
    intro x hx y hy
    exact decide_eq_true fun heq => hx (heq ▸ hy)
  have hdrop : (before ++ it :: rest).dropWhile (· ≠ it) = it :: rest := by
    rw [List.dropWhile_append_of_pos (hpass it hbefore), List.dropWhile_cons_of_neg (by simp)]
  rw [hdrop] at hp
  have hrest := (List.mem_cons.mp hp).resolve_left hne
  obtain ⟨next, rest, rfl⟩ := List.exists_cons_of_ne_nil (List.ne_nil_of_mem hrest)
  obtain ⟨-, hnodup', hdisjoint⟩ := List.nodup_append.mp hnodup
  have hnext : next ∉ before := fun hmem =>
    hdisjoint next hmem next (List.mem_cons_of_mem _ List.mem_cons_self) rfl
  have hother : it ≠ next := by
    rintro rfl
    exact (List.nodup_cons.mp hnodup').1 List.mem_cons_self
  refine ⟨next, ?_, ?_, ?_⟩
  · rw [nextValid, hdrop]
    rfl
  · rw [List.dropWhile_append_of_pos (hpass next hnext), List.dropWhile_cons_of_pos (by simp [hother]),
      List.dropWhile_cons_of_neg (by simp)]
    exact hrest
  · rw [List.erase_append_right _ hbefore, List.erase_cons_head,
      List.dropWhile_append_of_pos (hpass next hnext), List.dropWhile_cons_of_neg (by simp)]
    exact hrest

/-- What is behind the iterator stays behind it when another entry comes in. -/
theorem mem_dropWhile_orderedInsert {timers : List TimerId} (hne : r ≠ it)
    (hp : p ∈ timers.dropWhile (· ≠ it)) :
    p ∈ (timers.orderedInsert TimerId.Le r).dropWhile (· ≠ it) := by
  induction timers with
  | nil => exact absurd hp List.not_mem_nil
  | cons b timers ih =>
      rw [List.orderedInsert_cons]
      split
      · rw [List.dropWhile_cons_of_pos (by simp [hne])]
        exact hp
      · by_cases hb : b = it
        · rw [List.dropWhile_cons_of_neg (by simp [hb])] at hp ⊢
          rcases List.mem_cons.mp hp with rfl | hp
          · exact List.mem_cons_self
          · exact List.mem_cons_of_mem _ ((List.mem_orderedInsert _).mpr (.inr hp))
        · rw [List.dropWhile_cons_of_pos (by simp [hb])] at hp ⊢
          exact ih hp

theorem mem_dropWhile_insertValid {timers : List TimerId} (hne : r ≠ it)
    (hp : p ∈ timers.dropWhile (· ≠ it)) : p ∈ (insertValid timers r).dropWhile (· ≠ it) := by
  unfold insertValid
  split
  · exact hp
  · exact mem_dropWhile_orderedInsert hne hp

/-! ## A Timer of the loop's own thread -/

theorem validTimers_addTimer (q : TimerQueue) (a : Nat) (repeats : Bool) :
    ((q.newTimer a repeats).addTimerInLoop ⟨a, q.s_numCreated_ + 1⟩).validTimers_ =
      insertValid q.validTimers_ ⟨a, q.s_numCreated_ + 1⟩ := by
  unfold TimerQueue.addTimerInLoop
  rw [newTimer_made]
  rfl

theorem timers_addTimer (q : TimerQueue) (a : Nat) (repeats : Bool) :
    ((q.newTimer a repeats).addTimerInLoop ⟨a, q.s_numCreated_ + 1⟩).timers =
      Function.update q.timers a (some ⟨q.s_numCreated_ + 1, repeats, true⟩) := by
  have hmade : (q.newTimer a repeats).timers a = some ⟨q.s_numCreated_ + 1, repeats, false⟩ :=
    Function.update_self _ _ _
  show Function.update (q.newTimer a repeats).timers a (((q.newTimer a repeats).timers a).map _) = _
  rw [hmade]
  exact Function.update_idem _ _ _

end TimerQueue

namespace TimerRun

variable {s s' : TimerRun} {p : TimerId}

/-! ## Where the Timers are -/

/-- **No Timer leaks.** What lives is in the set, or on its way to it. -/
def Housed (s : TimerRun) : Prop := ∀ p, s.queue.Live p → p ∈ s.queue.validTimers_ ∨ p ∈ s.untaken

/-- At the iterator, or still to come. -/
def Ahead (s : TimerRun) (p : TimerId) : Prop :=
  ∃ it, s.itBegin = some it ∧ p ∈ s.queue.validTimers_.dropWhile (· ≠ it)

/-- No destructor of a callback cancels an active timer that the pass has gone past. -/
def Quietly (s : TimerRun) : Event → Prop
  | .cancel .loop handle =>
    s.deleting = true → handle.timerId ∈ s.queue.validTimers_ →
      s.queue.Active handle.timerId.timer_ → s.Ahead handle.timerId
  | _ => True

instance (s : TimerRun) (p : TimerId) : Decidable (s.Ahead p) :=
  match h : s.itBegin with
  | none => isFalse fun ⟨_, hit, _⟩ => by simp [h] at hit
  | some it =>
    decidable_of_iff (p ∈ s.queue.validTimers_.dropWhile (· ≠ it))
      ⟨fun hmem => ⟨it, h, hmem⟩, fun ⟨_, hit, hmem⟩ => Option.some.inj (h.symm.trans hit) ▸ hmem⟩

instance (s : TimerRun) (e : Event) : Decidable (s.Quietly e) :=
  match e with
  | .cancel .loop ⟨_, timerId⟩ =>
    inferInstanceAs (Decidable (s.deleting = true → timerId ∈ s.queue.validTimers_ →
      (s.queue.timers timerId.timer_).map Timer.active = some true → s.Ahead timerId))
  | .cancel (.other _) _ | .newTimer .. | .queueTimer _ | .returnTimer .. | .addTimer ..
  | .elsewhere _ | .loop _ | .expire _ | .deliver _ | .leave | .sweep | .endDelete =>
    instDecidableTrue

/-- **What the pass has left behind it is active.** -/
def Swept (s : TimerRun) : Prop :=
  s.loop.stage = .clearing → ∀ p ∈ s.queue.validTimers_, s.queue.Active p.timer_ ∨ s.Ahead p

/-! ## Steps -/

theorem Housed.exec (h : s.Housed) (hreg : s.Registered) (functor : TimerFunctor) (loop : LoopRun TimerFunctor)
    (huntaken : s.untaken.Perm ((added functor).toList ++ { s with loop := loop }.untaken)) :
    { s.exec functor with loop := loop }.Housed := by
  have hsound := hreg.sound.perm huntaken.symm
  intro p hp
  cases functor with
  | addTimerInLoop timer =>
      have hlive : s.queue.Live p := by
        have hfound := TimerQueue.found_start (q := s.queue) timer p
        exact hfound.symm.trans hp
      obtain ⟨htimer, -, -⟩ := hsound.untaken_live timer List.mem_cons_self
      have hvalid : (s.queue.addTimerInLoop timer).validTimers_ = insertValid s.queue.validTimers_ timer := by
        unfold TimerQueue.addTimerInLoop
        rw [htimer]
      rw [show ({ s.exec (.addTimerInLoop timer) with loop := loop } : TimerRun).queue.validTimers_ = _ from
        hvalid, mem_insertValid]
      rcases h p hlive with hmem | hmem
      · exact .inl (.inr hmem)
      · rcases List.mem_cons.mp (huntaken.mem_iff.mp hmem) with hnew | hrest
        · exact .inl (.inl hnew)
        · exact .inr hrest
  | cancelInLoop handle =>
      have hsame : (s.queue.cancelInLoop handle.timerId).validTimers_ = s.queue.validTimers_ ∧
          ((s.queue.cancelInLoop handle.timerId).Live p → s.queue.Live p) := by
        unfold TimerQueue.cancelInLoop
        split
        · refine ⟨rfl, fun hlive => ?_⟩
          exact (TimerQueue.found_stop (q := s.queue) handle.timerId p).symm.trans hlive
        · exact ⟨rfl, id⟩
      rcases h p (hsame.2 hp) with hmem | hmem
      · refine .inl ?_
        show p ∈ (s.queue.cancelInLoop handle.timerId).validTimers_
        rw [hsame.1]
        exact hmem
      · exact .inr (huntaken.mem_iff.mp hmem)
  | user id => exact (h p hp).imp_right huntaken.mem_iff.mp

theorem Housed.step (h : s.Housed) (hreg : s.Registered) (htidy : s.loop.Tidy) {e : Event}
    (hstep : s.step e = some s') : s'.Housed := by
  cases step_inv hstep with
  | @newTimer thread timer repeats _ _ _ =>
      intro p hp
      have hadding : ∀ v, v ∈ s.untaken ∨ v = (s.newTimer timer repeats).2 →
          v ∈ (s.adding ++ [(thread, (s.newTimer timer repeats).2)]).map Prod.snd ++
            s.loop.functors.filterMap added := by
        intro v hv
        rw [List.map_append]
        rcases hv with hv | rfl
        · rcases List.mem_append.mp hv with hv | hv
          · exact List.mem_append_left _ (List.mem_append_left _ hv)
          · exact List.mem_append_right _ hv
        · exact List.mem_append_left _ (List.mem_append_right _ (List.mem_singleton_self _))
      rcases TimerQueue.live_newTimer hp with rfl | ⟨hp, -⟩
      · exact .inr (hadding _ (.inr rfl))
      · exact (h p hp).imp_right fun hmem => hadding p (.inl hmem)
  | queueTimer hmem hpush =>
      intro p hp
      exact (h p hp).imp_right (untaken_queueTimer htidy hmem hpush).mem_iff.mpr
  | returnTimer _ => exact h
  | @addTimer timer repeats _ _ _ =>
      intro p hp
      have hlive : (s.queue.newTimer timer repeats).Live p :=
        (TimerQueue.found_start (q := s.queue.newTimer timer repeats) _ p).symm.trans hp
      have hgoal : p ∈ insertValid s.queue.validTimers_ ⟨timer, s.queue.s_numCreated_ + 1⟩ ∨
          p ∈ s.untaken := by
        rw [mem_insertValid]
        rcases TimerQueue.live_newTimer hlive with hnew | ⟨hold, -⟩
        · exact .inl (.inl hnew)
        · exact (h p hold).imp_left .inr
      have hvalid := TimerQueue.validTimers_addTimer s.queue timer repeats
      exact hgoal.imp_left fun hmem => hvalid.symm ▸ hmem
  | elsewhere => exact h
  | cancelHere _ _ => exact h.exec hreg (.cancelInLoop _) s.loop (.refl _)
  | cancelThere _ hpush =>
      intro p hp
      have huntaken := untaken_step htidy hpush (by simp)
      refine (h p hp).imp_right fun hmem => ?_
      rw [huntaken]
      exact List.mem_append_left _ hmem
  | prepareCallBack _ _ hturn =>
      intro p hp
      have huntaken := untaken_step htidy hturn (by simp)
      refine (h p hp).imp_right fun hmem => ?_
      show p ∈ { s with loop := _ }.untaken
      rw [huntaken]
      exact List.mem_append_left _ hmem
  | runFunctor hnext hturn => exact h.exec hreg _ _ (untaken_runFunctor hnext hturn)
  | loop _ _ hrun hturn =>
      intro p hp
      have huntaken := untaken_step htidy hturn hrun
      refine (h p hp).imp_right fun hmem => ?_
      rw [huntaken]
      exact List.mem_append_left _ hmem
  | expire _ ht _ =>
      intro p hp
      exact h p ((TimerQueue.found_expire ht p).symm.trans hp)
  | endDelete hit _ =>
      intro p hp
      obtain ⟨hlive, hother⟩ := TimerQueue.live_destroy hp
      refine (h p hlive).imp_left fun hmem => (List.mem_erase_of_ne ?_).mpr hmem
      rintro rfl
      exact hother rfl
  | deliver _ _ => exact h
  | leave _ => exact h
  | skip _ _ => exact h
  | delete _ _ _ _ => exact h

/-- What a pass has left behind it stays active under a step that leaves the Timers as they are. -/
theorem Swept.same (h : s.Swept) (hstage : s'.loop.stage = .clearing → s.loop.stage = .clearing)
    (hvalid : s'.queue.validTimers_ = s.queue.validTimers_) (hit : s'.itBegin = s.itBegin)
    (hactive : ∀ p ∈ s.queue.validTimers_, s.queue.Active p.timer_ → s'.queue.Active p.timer_) :
    s'.Swept := by
  intro hclearing p hp
  rw [hvalid] at hp
  refine (h (hstage hclearing) p hp).imp (hactive p hp) ?_
  rintro ⟨it, hat, hbehind⟩
  exact ⟨it, hit.trans hat, hvalid.symm ▸ hbehind⟩

/-- A destructor adds a timer, in front of the iterator or behind it. -/
theorem Swept.addTimer (h : s.Swept) (hreg : s.Registered) {timer : Nat} {repeats : Bool} :
    (((s.newTimer timer repeats).1.handOut (s.newTimer timer repeats).2
      (s.newTimer timer repeats).2).exec (.addTimerInLoop (s.newTimer timer repeats).2)).Swept := by
  have hvalid := TimerQueue.validTimers_addTimer s.queue timer repeats
  have htimers := TimerQueue.timers_addTimer s.queue timer repeats
  have hnot : ⟨timer, s.queue.s_numCreated_ + 1⟩ ∉ s.queue.validTimers_ := by
    intro hmem
    exact absurd (hreg.sound.numbered _ (hreg.sound.valid_live _ hmem)) (Nat.not_succ_le_self _)
  intro hclearing p hp
  replace hp : p ∈ ((s.queue.newTimer timer repeats).addTimerInLoop
      ⟨timer, s.queue.s_numCreated_ + 1⟩).validTimers_ := hp
  rw [hvalid, mem_insertValid] at hp
  have hactive : ((s.queue.newTimer timer repeats).addTimerInLoop
      ⟨timer, s.queue.s_numCreated_ + 1⟩).Active p.timer_ ↔
        p.timer_ = timer ∨ s.queue.Active p.timer_ := by
    unfold TimerQueue.Active
    rw [htimers]
    by_cases haddr : p.timer_ = timer
    · rw [haddr, Function.update_self]
      exact iff_of_true rfl (.inl rfl)
    · rw [Function.update_of_ne haddr]
      exact (or_iff_right haddr).symm
  rcases hp with rfl | hp
  · exact .inl (hactive.mpr (.inl rfl))
  · refine (h hclearing p hp).imp (fun ha => hactive.mpr (.inr ha)) ?_
    rintro ⟨it, hat, hbehind⟩
    have hother : (⟨timer, s.queue.s_numCreated_ + 1⟩ : TimerId) ≠ it := by
      rintro rfl
      exact hnot (hreg.iterator _ hat).1
    exact ⟨it, hat, hvalid.symm ▸ TimerQueue.mem_dropWhile_insertValid hother hbehind⟩

/-- A destructor cancels a timer. -/
theorem Swept.cancelInLoop (h : s.Swept) (hreg : s.Registered) {handle : Handle}
    (hahead : s.loop.stage = .clearing → handle.timerId ∈ s.queue.validTimers_ →
      s.queue.Active handle.timerId.timer_ → s.Ahead handle.timerId) :
    (s.exec (.cancelInLoop handle)).Swept := by
  by_cases hvalid : handle.timerId ∈ s.queue.validTimers_
  · have hstop : s.queue.cancelInLoop handle.timerId = s.queue.stop handle.timerId := if_pos hvalid
    intro hclearing p hp
    replace hp : p ∈ (s.queue.cancelInLoop handle.timerId).validTimers_ := hp
    rw [hstop] at hp
    have hsame : (s.exec (.cancelInLoop handle)).Ahead p ↔ s.Ahead p := by
      show (∃ it, s.itBegin = some it ∧
        p ∈ (s.queue.cancelInLoop handle.timerId).validTimers_.dropWhile _) ↔ _
      rw [hstop]
      exact .rfl
    rcases h hclearing p hp with ha | hbehind
    · by_cases haddr : p.timer_ = handle.timerId.timer_
      · obtain rfl := (hreg.sound.valid_live p hp).unique (hreg.sound.valid_live handle.timerId hvalid) haddr
        exact .inr (hsame.mpr (hahead hclearing hvalid ha))
      · refine .inl ?_
        show (s.queue.cancelInLoop handle.timerId).Active p.timer_
        rw [hstop]
        show (Function.update s.queue.timers handle.timerId.timer_ _ p.timer_).map _ = _
        rw [Function.update_of_ne haddr]
        exact ha
    · exact .inr (hsame.mpr hbehind)
  · have hsame : s.queue.cancelInLoop handle.timerId = s.queue := if_neg hvalid
    refine h.same id (congrArg TimerQueue.validTimers_ hsame) rfl fun p _ ha => ?_
    show (s.queue.cancelInLoop handle.timerId).Active p.timer_
    rw [hsame]
    exact ha

/-- What the iterator goes past is active. -/
theorem active_of_skip {it : TimerId} (hit : s.itBegin = some it) (hstep : s.step .sweep = some (s.skip it)) :
    s.queue.timers it.timer_ = none ∨ s.queue.Active it.timer_ := by
  simp only [TimerRun.step, hit, Option.ite_none_right_eq_some] at hstep
  obtain ⟨⟨-, hidle⟩, hstep⟩ := hstep
  cases hfound : s.queue.timers it.timer_ with
  | none => exact .inl rfl
  | some t =>
      rw [hfound] at hstep
      refine .inr ?_
      rw [TimerQueue.Active, hfound]
      by_cases hactive : t.active = true
      · exact congrArg some hactive
      · -- a deletion would have begun
        have hdeleting := congrArg TimerRun.deleting (Option.some.inj hstep)
        rw [if_neg hactive] at hdeleting
        exact absurd (hdeleting.trans hidle) (by simp [beginDelete])

theorem Swept.skip (h : s.Swept) (hreg : s.Registered) {it : TimerId} (hit : s.itBegin = some it)
    (hpast : s.queue.timers it.timer_ = none ∨ s.queue.Active it.timer_) : (s.skip it).Swept := by
  obtain ⟨hvalid, -⟩ := hreg.iterator it hit
  intro hclearing p hp
  rcases h hclearing p hp with ha | ⟨it', hit', hbehind⟩
  · exact .inl ha
  · obtain rfl := Option.some.inj (hit.symm.trans hit')
    by_cases hne : p = it
    · subst hne
      refine .inl (hpast.resolve_left ?_)
      intro hnone
      have hlive := hreg.sound.valid_live p hvalid
      rw [TimerQueue.Live, TimerQueue.found, hnone] at hlive
      cases hlive
    · obtain ⟨next, hnext, hrest, -⟩ :=
        TimerQueue.mem_dropWhile_next hreg.sound.valid_nodup hvalid hbehind hne
      exact .inr ⟨next, hnext, hrest⟩

theorem Swept.endDelete (h : s.Swept) (hreg : s.Registered) {it : TimerId} (hit : s.itBegin = some it) :
    (s.endDelete it).Swept := by
  obtain ⟨hvalid, -⟩ := hreg.iterator it hit
  intro hclearing p hp
  obtain ⟨hne, hmem⟩ := (hreg.sound.valid_nodup.mem_erase_iff).mp hp
  have haddr : p.timer_ ≠ it.timer_ := fun heq =>
    hne ((hreg.sound.valid_live p hmem).unique (hreg.sound.valid_live it hvalid) heq)
  rcases h hclearing p hmem with ha | ⟨it', hit', hbehind⟩
  · refine .inl ?_
    show (Function.update s.queue.timers it.timer_ none p.timer_).map _ = _
    rw [Function.update_of_ne haddr]
    exact ha
  · obtain rfl := Option.some.inj (hit.symm.trans hit')
    obtain ⟨next, hnext, -, hrest⟩ :=
      TimerQueue.mem_dropWhile_next hreg.sound.valid_nodup hvalid hbehind hne
    exact .inr ⟨next, hnext, hrest⟩

theorem Swept.step (h : s.Swept) (hreg : s.Registered) {e : Event} (hquietly : s.Quietly e)
    (hstep : s.step e = some s') : s'.Swept := by
  cases step_inv hstep with
  | @newTimer thread timer repeats _ _ hfree =>
      refine h.same id rfl rfl fun p hp ha => ?_
      have haddr : p.timer_ ≠ timer := by
        rintro rfl
        rw [TimerQueue.Active, hfree] at ha
        cases ha
      show (Function.update s.queue.timers timer _ p.timer_).map _ = _
      rw [Function.update_of_ne haddr]
      exact ha
  | queueTimer _ hpush => exact h.same (stage_runInLoop hpush).mp rfl rfl fun _ _ ha => ha
  | returnTimer _ => exact h
  | addTimer _ _ _ => exact h.addTimer hreg
  | elsewhere => exact h.same id rfl rfl fun _ _ ha => ha
  | cancelHere may _ =>
      -- in a pass the loop's thread calls from a destructor only
      exact h.cancelInLoop hreg fun hclearing => hquietly (may.2 hclearing)
  | cancelThere _ hpush => exact h.same (stage_runInLoop hpush).mp rfl rfl fun _ _ ha => ha
  | prepareCallBack _ _ _ =>
      intro _ p hp
      replace hp : p ∈ s.queue.validTimers_ := hp
      obtain ⟨it, timers, hvalid⟩ := List.exists_cons_of_ne_nil (List.ne_nil_of_mem hp)
      have hall : (it :: timers).dropWhile (· ≠ it) = it :: timers := List.dropWhile_cons_of_neg (by simp)
      refine .inr ⟨it, congrArg List.head? hvalid, ?_⟩
      show p ∈ s.queue.validTimers_.dropWhile (· ≠ it)
      rw [hvalid, hall, ← hvalid]
      exact hp
  | runFunctor _ hturn =>
      intro hclearing
      have hwas := (LoopRun.clearing_of_step hturn hclearing).resolve_right (by simp)
      cases LoopRun.step_inv hturn with
      | runFunctor hat _ => exact absurd (hat.1.symm.trans hwas) (by simp)
  | loop _ hprepare _ hturn =>
      exact h.same (fun hclearing => (LoopRun.clearing_of_step hturn hclearing).resolve_right hprepare) rfl rfl
        fun _ _ ha => ha
  | expire hpolling _ _ =>
      intro hclearing
      exact absurd (hpolling.symm.trans hclearing) (by simp)
  | deliver hat _ =>
      intro hclearing
      exact absurd (hat.1.symm.trans hclearing) (by simp)
  | leave _ => exact h
  | skip hit _ => exact h.skip hreg hit (active_of_skip hit hstep)
  | delete _ _ _ _ => exact h.same id rfl rfl fun _ _ ha => ha
  | endDelete hit _ => exact h.endDelete hreg hit

/-- **`clearExpiredTimer` leaves no dead Timer behind.** In every run in which no destructor of a callback
    cancels an active timer that the pass has gone past: each Timer in memory is in `validTimers_`, or on its
    way to it; and when a pass has come to its end, all of `validTimers_` are active. -/
theorem sweep_complete (h : timerMachine.ReachableVia Quietly s) :
    (∀ p, s.queue.Live p → p ∈ s.queue.validTimers_ ∨ p ∈ s.untaken) ∧
      (s.loop.stage = .clearing → s.itBegin = none →
        ∀ p ∈ s.queue.validTimers_, s.queue.Active p.timer_) := by
  have hkept : s.Housed ∧ s.Swept := by
    refine h.invariant (I := fun s => s.Housed ∧ s.Swept) ?_ ?_
    · rintro s rfl
      refine ⟨fun p hp => ?_, ?_⟩
      · cases hp
      · rintro ⟨⟩
    · rintro s e s' hs ⟨hhoused, hswept⟩ hquietly hstep
      have hreg := reachable_registered hs
      have htidy := LoopRun.reachable_tidy (reachable_loop hs)
      exact ⟨hhoused.step hreg htidy hstep, hswept.step hreg hquietly hstep⟩
  refine ⟨hkept.1, fun hclearing hend p hp => ?_⟩
  refine (hkept.2 hclearing p hp).resolve_right ?_
  rintro ⟨it, hit, -⟩
  rw [hend] at hit
  cases hit

/-- A one-shot timer and a repeating one expire; while the first is deleted the destructor of its callback
    adds another one in front of the iterator and cancels its own, and a fourth is on its way. -/
def firstPass : List Event :=
  [.addTimer 8 false, .addTimer 16 true, .loop (.loop .loop), .loop .prepareCallBack, .sweep, .sweep,
   .loop .doPendingFunctors, .loop .endFunctors, .loop .testQuit, .expire 8, .expire 16, .loop .poll,
   .deliver ⟨8, 1⟩, .leave, .deliver ⟨16, 2⟩, .leave, .newTimer 1 24 false, .queueTimer 1,
   .loop .prepareCallBack, .sweep, .addTimer 4 false, .cancel .loop ⟨⟨8, 1⟩, ⟨8, 1⟩⟩,
   .endDelete, .sweep]

theorem sweep_complete_firstPass :
    ∃ s, timerMachine.run new firstPass = some s ∧ s.queue.destroyed = [⟨8, 1⟩] ∧
      s.queue.validTimers_ = [⟨4, 4⟩, ⟨16, 2⟩] ∧ s.queue.Active 4 ∧ s.queue.Active 16 := by
  have hrun : (timerMachine.run new firstPass).map (fun s =>
      (s.queue.destroyed, s.queue.validTimers_, s.loop.stage, s.itBegin)) =
        some ([⟨8, 1⟩], [⟨4, 4⟩, ⟨16, 2⟩], .clearing, none) := by decide +kernel
  obtain ⟨s, hs, hvalues⟩ := Option.map_eq_some_iff.mp hrun
  simp only [Prod.mk.injEq] at hvalues
  obtain ⟨hdestroyed, hvalid, hclearing, hend⟩ := hvalues
  have hinit : timerMachine.ReachableVia Quietly new := .init rfl
  have hreach := Machine.run_reachableVia hinit (by decide +kernel) hs
  have hactive := (sweep_complete hreach).2 hclearing hend
  rw [hvalid] at hactive
  exact ⟨s, hs, hdestroyed, hvalid, hactive ⟨4, 4⟩ (by simp), hactive ⟨16, 2⟩ (by simp)⟩

end TimerRun

end Simplev
