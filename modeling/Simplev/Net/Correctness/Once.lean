import Simplev.Foundation.History
import Simplev.Net.Correctness.Registry

/-!
# `Net.Correctness.Once` — a one-shot timer runs once

libev makes a timer that does not repeat inactive when it expires, delivers the expiry later, and the
Timer is deleted in a pass of `clearExpiredTimer` after that. In between, functors and callbacks take
in, cancel and delete other Timers, some of them at addresses that were used before.

`TimerQueue.Once` is the account of one Timer: before it is taken in and while it is active it has not
run, its pending expiry will be its first run, and once it is neither it has run or was cancelled. Each
operation of the queue keeps it, and `oneShots_run_once` reads it off for all one-shot timers of a run.
-/

namespace Simplev

open Foundation

namespace TimerQueue

variable {q q' : TimerQueue} {p r : TimerId} {runs : Nat} {stopped : Prop} {untaken : List TimerId}

/-! ## The account of a Timer -/

/-- `p` was made to run once; it has run `runs` times, and `stopped` if a cancel of it was executed. -/
structure Once (q : TimerQueue) (p : TimerId) (runs : Nat) (stopped : Prop) : Prop where
  made : p.sequence_ ≤ q.s_numCreated_
  oneShot : ∀ t, q.Live p → q.timers p.timer_ = some t → t.repeats = false
  active : q.Live p → q.Active p.timer_ → runs = 0 ∧ p ∉ q.pendings
  fresh : p ∉ q.takenIn → runs = 0
  pending : p ∈ q.pendings → runs = 0
  atMost : runs ≤ 1
  spent : p ∈ q.takenIn → ¬ (q.Live p ∧ q.Active p.timer_) → p ∉ q.pendings → runs = 1 ∨ stopped

/-- The Timer of `p` is as it was. -/
structure Agree (q q' : TimerQueue) (p : TimerId) : Prop where
  live : q'.Live p ↔ q.Live p
  timers : q.Live p → q'.timers p.timer_ = q.timers p.timer_

theorem Agree.active (h : q.Agree q' p) (hlive : q.Live p) :
    q'.Active p.timer_ ↔ q.Active p.timer_ := by
  unfold Active
  rw [h.timers hlive]

/-- What another Timer goes through. -/
theorem Once.agree (h : q.Once p runs stopped) (hagree : q.Agree q' p)
    (hmade : q.s_numCreated_ ≤ q'.s_numCreated_) (htaken : p ∈ q'.takenIn ↔ p ∈ q.takenIn)
    (hpending : p ∈ q'.pendings ↔ p ∈ q.pendings) : q'.Once p runs stopped where
  made := Nat.le_trans h.made hmade
  oneShot t hlive ht := by
    have hlive := hagree.live.mp hlive
    exact h.oneShot t hlive ((hagree.timers hlive).symm.trans ht)
  active hlive ha := by
    have hlive := hagree.live.mp hlive
    rw [hpending]
    exact h.active hlive ((hagree.active hlive).mp ha)
  fresh hnot := h.fresh (mt htaken.mpr hnot)
  pending hp := h.pending (hpending.mp hp)
  atMost := h.atMost
  spent hp hnot hnone := by
    refine h.spent (htaken.mp hp) ?_ (mt hpending.mpr hnone)
    rintro ⟨hlive, ha⟩
    exact hnot ⟨hagree.live.mpr hlive, (hagree.active hlive).mpr ha⟩

/-- A write at the address of a live Timer leaves the others as they were. -/
theorem agree_update {t : Option Timer} (hr : q.Live r) (hne : p ≠ r)
    (hq : q'.timers = Function.update q.timers r.timer_ t)
    (ht : t.map Timer.sequence_ = (q.timers r.timer_).map Timer.sequence_) : q.Agree q' p where
  live := by
    unfold Live
    rw [found_update hq ht]
  timers hlive := by
    have haddr : p.timer_ ≠ r.timer_ := fun heq => hne (hlive.unique hr heq)
    rw [hq, Function.update_of_ne haddr]

/-- What is pending elsewhere stays. -/
theorem Sound.mem_filter_pendings (h : q.Sound untaken) (hr : q.Live r) (hne : p ≠ r) :
    p ∈ q.pendings.filter (·.timer_ ≠ r.timer_) ↔ p ∈ q.pendings := by
  rw [List.mem_filter]
  refine and_iff_left_of_imp fun hp => ?_
  have hlive := h.valid_live p (h.pendings p hp)
  exact decide_eq_true fun heq => hne (hlive.unique hr heq)

theorem mem_filter_self : p ∉ q.pendings.filter (·.timer_ ≠ p.timer_) := by
  simp

/-- What has been taken in was made. -/
theorem Sound.taken_le (h : q.Sound untaken) (hp : p ∈ q.takenIn) : p.sequence_ ≤ q.s_numCreated_ := by
  by_cases hdead : p ∈ q.destroyed
  · exact (h.destroyed p hdead).2
  · exact h.numbered p (h.valid_live p ((h.taken p).mpr ⟨hp, hdead⟩))

theorem Sound.untaken_not_taken (h : q.Sound untaken) (hp : p ∈ untaken) : p ∉ q.takenIn := by
  obtain ⟨hlive, -, hvalid⟩ := h.untaken_live p hp
  intro htaken
  exact hvalid ((h.taken p).mpr ⟨htaken, fun hdead => (h.destroyed p hdead).1 hlive⟩)

/-! ## The operations -/

theorem Once.newTimer (h : q.Once p runs stopped) {a : Nat} (hfree : q.timers a = none) (repeats : Bool) :
    (q.newTimer a repeats).Once p runs stopped := by
  have hnew : p ≠ ⟨a, q.s_numCreated_ + 1⟩ := by
    rintro rfl
    exact absurd h.made (Nat.not_succ_le_self _)
  have haddr : q.Live p → p.timer_ ≠ a := by
    rintro hlive rfl
    rw [Live, found, hfree] at hlive
    cases hlive
  refine h.agree ⟨⟨fun hlive => ?_, newTimer_live p hfree⟩, fun hlive => ?_⟩ (Nat.le_succ _) .rfl .rfl
  · exact ((live_newTimer hlive).resolve_left hnew).1
  · exact Function.update_of_ne (haddr hlive) _ _

/-- The account begins. -/
theorem Sound.once_newTimer (h : q.Sound untaken) (a : Nat) :
    (q.newTimer a false).Once ⟨a, q.s_numCreated_ + 1⟩ 0 False := by
  have htimer : (q.newTimer a false).timers a = some ⟨q.s_numCreated_ + 1, false, false⟩ :=
    Function.update_self _ _ _
  refine ⟨Nat.le_refl _, ?_, ?_, fun _ => rfl, fun _ => rfl, Nat.zero_le _, fun htaken => ?_⟩
  · intro t _ ht
    rw [← Option.some.inj (htimer.symm.trans ht)]
  · intro _ ha
    rw [Active, htimer] at ha
    cases ha
  · exact absurd (h.taken_le htaken) (Nat.not_succ_le_self _)

theorem Once.elsewhere (h : q.Once p runs stopped) :
    { q with s_numCreated_ := q.s_numCreated_ + 1 }.Once p runs stopped :=
  h.agree ⟨.rfl, fun _ => rfl⟩ (Nat.le_succ _) .rfl .rfl

theorem Once.addTimerInLoop (h : q.Once p runs stopped) (hsound : q.Sound (r :: untaken)) :
    (q.addTimerInLoop r).Once p runs stopped := by
  obtain ⟨hr, -, -⟩ := hsound.untaken_live r List.mem_cons_self
  have hseq : ((q.timers r.timer_).map fun t => { t with active := true }).map Timer.sequence_ =
      (q.timers r.timer_).map Timer.sequence_ := by
    rw [Option.map_map]
    rfl
  by_cases hne : p = r
  · -- it is started
    subst hne
    have hzero := h.fresh (hsound.untaken_not_taken List.mem_cons_self)
    have hstarted : (q.addTimerInLoop p).timers p.timer_ =
        (q.timers p.timer_).map fun t => { t with active := true } := Function.update_self _ _ _
    have hnot : p ∉ q.pendings := fun hp =>
      (hsound.untaken_live p List.mem_cons_self).2.2 (hsound.pendings p hp)
    refine ⟨h.made, ?_, fun _ _ => ⟨hzero, hnot⟩, fun _ => hzero, fun _ => hzero, h.atMost, ?_⟩
    · intro t _ ht
      obtain ⟨t₀, ht₀, rfl⟩ := Option.map_eq_some_iff.mp (hstarted.symm.trans ht)
      exact h.oneShot t₀ hr ht₀
    · intro _ hidle _
      obtain ⟨t₀, ht₀, -⟩ := Option.map_eq_some_iff.mp hr
      refine absurd ⟨?_, ?_⟩ hidle
      · unfold Live
        exact (found_update rfl hseq p).trans hr
      · rw [Active, hstarted, ht₀]
        rfl
  · refine h.agree (agree_update hr hne rfl hseq) (Nat.le_refl _) ?_ .rfl
    show p ∈ q.takenIn ++ [r] ↔ p ∈ q.takenIn
    rw [List.mem_append, List.mem_singleton]
    exact or_iff_left hne

theorem Once.stopped_mono (h : q.Once p runs stopped) {more : Prop} (hmore : stopped → more) :
    q.Once p runs more :=
  { h with spent := fun htaken hidle hnone => (h.spent htaken hidle hnone).imp_right hmore }

theorem Once.cancelInLoop (h : q.Once p runs stopped) (hsound : q.Sound untaken) (r : TimerId) :
    (q.cancelInLoop r).Once p runs (stopped ∨ r = p) := by
  unfold TimerQueue.cancelInLoop
  split
  · rename_i hvalid
    have hr := hsound.valid_live r hvalid
    by_cases hne : p = r
    · subst hne
      have hidle : ¬ (q.stop p).Active p.timer_ := fun ha => (stop_active ha).2 rfl
      refine ⟨h.made, ?_, fun _ ha => absurd ha hidle, h.fresh, fun hp => absurd hp mem_filter_self,
        h.atMost, fun _ _ _ => .inr (.inr rfl)⟩
      intro t _ ht
      have hstopped : (q.stop p).timers p.timer_ =
          (q.timers p.timer_).map fun t => { t with active := false } := Function.update_self _ _ _
      obtain ⟨t₀, ht₀, rfl⟩ := Option.map_eq_some_iff.mp (hstopped.symm.trans ht)
      exact h.oneShot t₀ hr ht₀
    · have hseq : ((q.timers r.timer_).map fun t => { t with active := false }).map Timer.sequence_ =
          (q.timers r.timer_).map Timer.sequence_ := by
        rw [Option.map_map]
        rfl
      refine Once.stopped_mono ?_ Or.inl
      exact h.agree (agree_update hr hne rfl hseq) (Nat.le_refl _) .rfl (hsound.mem_filter_pendings hr hne)
  · exact h.stopped_mono Or.inl

theorem Once.expire (h : q.Once p runs stopped) {a : Nat} {t : Timer} (ht : q.timers a = some t)
    (hactive : t.active = true) : (q.expire a t).Once p runs stopped := by
  have hlive : q.Live ⟨a, t.sequence_⟩ := by
    unfold Live found
    rw [ht]
    rfl
  have hseq : (some { t with active := t.repeats }).map Timer.sequence_ =
      (q.timers a).map Timer.sequence_ := by
    rw [ht]
    rfl
  by_cases hne : p = ⟨a, t.sequence_⟩
  · subst hne
    have hexpired : (q.expire a t).timers a = some { t with active := t.repeats } :=
      Function.update_self _ _ _
    have hone : t.repeats = false := h.oneShot t hlive ht
    have hwas : q.Active a := by
      rw [Active, ht, Option.map_some, hactive]
    obtain ⟨hzero, -⟩ := h.active hlive hwas
    have hpending : (⟨a, t.sequence_⟩ : TimerId) ∈ (q.expire a t).pendings :=
      List.mem_append_right _ (List.mem_singleton_self _)
    refine ⟨h.made, ?_, ?_, fun _ => hzero, fun _ => hzero, h.atMost, fun _ _ hnone => absurd hpending hnone⟩
    · intro t' _ ht'
      rw [← Option.some.inj (hexpired.symm.trans ht')]
      exact hone
    · intro _ ha
      rw [Active, hexpired, hone] at ha
      cases ha
  · refine h.agree (agree_update hlive hne rfl hseq) (Nat.le_refl _) .rfl ?_
    show p ∈ q.pendings ++ [⟨a, t.sequence_⟩] ↔ p ∈ q.pendings
    rw [List.mem_append, List.mem_singleton]
    exact or_iff_left hne

theorem Once.deliver (h : q.Once p runs stopped) (hsound : q.Sound untaken) (hr : r ∈ q.pendings) :
    (q.deliver r).Once p (if r = p then runs + 1 else runs) stopped := by
  have hvalid := hsound.pendings r hr
  by_cases hne : r = p
  · -- it runs for the first time
    subst hne
    have hzero := h.pending hr
    rw [if_pos rfl, hzero]
    refine ⟨h.made, h.oneShot, ?_, ?_, fun hp => absurd hp mem_filter_self, Nat.le_refl _, fun _ _ _ => .inl rfl⟩
    · exact fun hlive ha => absurd hr (h.active hlive ha).2
    · exact fun hnot => absurd ((hsound.taken r).mp hvalid).1 hnot
  · rw [if_neg hne]
    exact h.agree ⟨.rfl, fun _ => rfl⟩ (Nat.le_refl _) .rfl
      (hsound.mem_filter_pendings (hsound.valid_live r hvalid) (Ne.symm hne))

theorem Once.touch (h : q.Once p runs stopped) (r : TimerId) : (q.touch r).Once p runs stopped :=
  h.agree ⟨.rfl, fun _ => rfl⟩ (Nat.le_refl _) .rfl .rfl

theorem Once.destroy (h : q.Once p runs stopped) (hsound : q.Sound untaken) (hr : r ∈ q.validTimers_)
    (hidle : ¬ q.Active r.timer_) (hnone : q.pendings = []) : (q.destroy r).Once p runs stopped := by
  have hlive := hsound.valid_live r hr
  by_cases hne : p = r
  · subst hne
    have hdead : ¬ (q.destroy p).Live p := fun hp => (live_destroy hp).2 rfl
    refine ⟨h.made, fun _ hp => absurd hp hdead, fun hp => absurd hp hdead, h.fresh,
      fun hp => absurd hp mem_filter_self, h.atMost, fun htaken _ _ => ?_⟩
    refine h.spent htaken (fun ha => hidle ha.2) ?_
    rw [hnone]
    exact List.not_mem_nil
  · refine h.agree ⟨⟨fun hp => (live_destroy hp).1, fun hp => ?_⟩, fun hp => ?_⟩ (Nat.le_refl _) .rfl
      (hsound.mem_filter_pendings hlive hne)
    · exact destroy_live hp fun heq => hne (hp.unique hlive heq)
    · exact Function.update_of_ne (fun heq => hne (hp.unique hlive heq)) _ _

end TimerQueue

namespace TimerRun

variable {s s' : TimerRun} {p : TimerId}

/-! ## In a run -/

/-- A `cancelInLoop` of the TimerId `p` has been executed, whichever call returned it. -/
def Cancelled (s : TimerRun) (p : TimerId) : Prop := ∃ made, .cancelled ⟨made, p⟩ ∈ s.history

/-- The account of `p`, from what has happened. -/
def OnceOf (s : TimerRun) (p : TimerId) : Prop :=
  s.queue.Once p (s.history.count (.ran p)) (s.Cancelled p)

theorem OnceOf.cancelInLoop (h : s.OnceOf p) {untaken : List TimerId} (hsound : s.queue.Sound untaken)
    (handle : Handle) : (s.exec (.cancelInLoop handle)).OnceOf p := by
  have hcount : (s.history ++ [TimerEvent.cancelled handle]).count (.ran p) =
      s.history.count (.ran p) := by
    rw [List.count_append, List.count_singleton, if_neg (by simp), Nat.add_zero]
  have honce := TimerQueue.Once.cancelInLoop h hsound handle.timerId
  show (s.queue.cancelInLoop handle.timerId).Once p
    ((s.history ++ [TimerEvent.cancelled handle]).count (.ran p)) _
  rw [hcount]
  refine honce.stopped_mono ?_
  rintro (⟨made, hstopped⟩ | rfl)
  · exact ⟨made, List.mem_append_left _ hstopped⟩
  · exact ⟨handle.made, List.mem_append_right _ (List.mem_singleton_self _)⟩

theorem OnceOf.exec (h : s.OnceOf p) {untaken : List TimerId} (functor : TimerFunctor)
    (hsound : s.queue.Sound ((added functor).toList ++ untaken)) : (s.exec functor).OnceOf p := by
  cases functor with
  | addTimerInLoop timer => exact TimerQueue.Once.addTimerInLoop h hsound
  | cancelInLoop handle => exact h.cancelInLoop hsound handle
  | user id => exact h

theorem OnceOf.deliver (h : s.OnceOf p) {untaken : List TimerId} (hsound : s.queue.Sound untaken)
    {r : TimerId} (hr : r ∈ s.queue.pendings) : (s.deliver r).OnceOf p := by
  have hcount : (s.history ++ [TimerEvent.ran r]).count (.ran p) =
      if r = p then s.history.count (.ran p) + 1 else s.history.count (.ran p) := by
    rw [List.count_append, List.count_singleton]
    by_cases hrp : r = p
    · rw [if_pos hrp, if_pos (by rw [hrp]; exact beq_self_eq_true _)]
    · rw [if_neg hrp, if_neg (by simp [hrp]), Nat.add_zero]
  have honce := TimerQueue.Once.deliver h hsound hr
  show (s.queue.deliver r).Once p ((s.history ++ [TimerEvent.ran r]).count (.ran p)) _
  rw [hcount]
  exact honce.stopped_mono fun ⟨made, hmem⟩ => ⟨made, List.mem_append_left _ hmem⟩

theorem OnceOf.step (h : s.OnceOf p) (hreg : s.Registered) {e : Event} (hstep : s.step e = some s') :
    s'.OnceOf p := by
  cases step_inv hstep with
  | newTimer _ _ hfree => exact TimerQueue.Once.newTimer h hfree _
  | queueTimer _ _ => exact h
  | returnTimer _ => exact h
  | addTimer _ hnull hfree =>
      exact TimerQueue.Once.addTimerInLoop (h.newTimer hfree _) (hreg.sound.newTimer hnull hfree _)
  | elsewhere => exact TimerQueue.Once.elsewhere h
  | cancelHere _ _ => exact h.cancelInLoop hreg.sound _
  | cancelThere _ _ => exact h
  | prepareCallBack _ _ _ => exact h
  | runFunctor hnext hturn =>
      exact h.exec _ (hreg.sound.perm (untaken_runFunctor hnext hturn).symm)
  | loop _ _ _ _ => exact h
  | expire _ ht hactive => exact TimerQueue.Once.expire h ht hactive
  | deliver _ hr => exact h.deliver hreg.sound hr
  | leave _ => exact h
  | skip _ _ => exact TimerQueue.Once.touch h _
  | delete _ _ _ _ => exact TimerQueue.Once.touch h _
  | endDelete hit hbusy =>
      obtain ⟨hvalid, hclearing⟩ := hreg.iterator _ hit
      obtain ⟨it, hit', hidle⟩ := hreg.deleting hbusy
      obtain rfl := Option.some.inj (hit.symm.trans hit')
      exact TimerQueue.Once.destroy h hreg.sound hvalid hidle (hreg.quiet hclearing).1

/-- What runs, and what is deleted, was taken in before. -/
structure TakenFirst (s : TimerRun) : Prop where
  ran : ∀ v, .ran v ∈ s.history → v ∈ s.queue.takenIn
  destroyed : ∀ v ∈ s.queue.destroyed, v ∈ s.queue.takenIn

theorem TakenFirst.exec (h : s.TakenFirst) (functor : TimerFunctor) : (s.exec functor).TakenFirst := by
  cases functor with
  | addTimerInLoop timer =>
      exact ⟨fun v hv => List.mem_append_left _ (h.ran v hv),
        fun v hv => List.mem_append_left _ (h.destroyed v hv)⟩
  | cancelInLoop handle =>
      have htaken := exec_takenIn (s := s) (.cancelInLoop handle)
      refine ⟨fun v hv => ?_, fun v hv => ?_⟩
      · rw [htaken]
        exact List.mem_append_left _ (h.ran v ((List.mem_append.mp hv).resolve_right (by simp)))
      · rw [htaken]
        rw [exec_destroyed] at hv
        exact List.mem_append_left _ (h.destroyed v hv)
  | user id => exact h

theorem TakenFirst.step (h : s.TakenFirst) (hreg : s.Registered) {e : Event}
    (hstep : s.step e = some s') : s'.TakenFirst := by
  cases step_inv hstep with
  | addTimer _ _ _ =>
      exact ⟨fun v hv => List.mem_append_left _ (h.ran v hv),
        fun v hv => List.mem_append_left _ (h.destroyed v hv)⟩
  | cancelHere _ _ => exact h.exec (.cancelInLoop _)
  | runFunctor _ _ => exact ⟨(h.exec _).ran, (h.exec _).destroyed⟩
  | deliver _ hr =>
      refine ⟨fun v hv => ?_, h.destroyed⟩
      rcases List.mem_append.mp hv with hv | hv
      · exact h.ran v hv
      · obtain rfl := TimerEvent.ran.inj (List.mem_singleton.mp hv)
        exact ((hreg.sound.taken _).mp (hreg.sound.pendings _ hr)).1
  | endDelete hit _ =>
      refine ⟨h.ran, fun v hv => ?_⟩
      rcases List.mem_append.mp hv with hv | hv
      · exact h.destroyed v hv
      · rw [List.mem_singleton.mp hv]
        exact ((hreg.sound.taken _).mp (hreg.iterator _ hit).1).1
  | _ => exact ⟨h.ran, h.destroyed⟩

/-- The one-shot timers made by `runAfter` so far. -/
def noteOneShots (s : TimerRun) (e : Event) (made : List TimerId) : List TimerId :=
  match e with
  | .newTimer _ timer false | .addTimer timer false => made ++ [⟨timer, s.queue.s_numCreated_ + 1⟩]
  | _ => made

/-- All runs of a loop and its timers, with the one-shot timers that were made. -/
def oneShotMachine : Machine (TimerRun × List TimerId) Event := timerMachine.recording [] noteOneShots

/-- A one-shot timer that is made has not run. -/
theorem onceOf_made (hreg : s.Registered) (htaken : s.TakenFirst) {e : Event} (hstep : s.step e = some s')
    {made : List TimerId} (hp : p ∈ s.noteOneShots e made) : p ∈ made ∨ s'.OnceOf p := by
  have hnone : ∀ a, s.history.count (.ran ⟨a, s.queue.s_numCreated_ + 1⟩) = 0 := by
    intro a
    refine List.count_eq_zero.mpr fun hran => ?_
    exact absurd (hreg.sound.taken_le (htaken.ran _ hran)) (Nat.not_succ_le_self _)
  have hbegin : ∀ a, (s.queue.newTimer a false).Once ⟨a, s.queue.s_numCreated_ + 1⟩
      (s.history.count (.ran ⟨a, s.queue.s_numCreated_ + 1⟩))
      (s.Cancelled ⟨a, s.queue.s_numCreated_ + 1⟩) := by
    intro a
    rw [hnone a]
    exact (hreg.sound.once_newTimer a).stopped_mono False.elim
  unfold noteOneShots at hp
  split at hp
  · rename_i thread timer
    rcases List.mem_append.mp hp with hp | hp
    · exact .inl hp
    · obtain rfl := List.mem_singleton.mp hp
      cases step_inv hstep with
      | newTimer _ _ _ => exact .inr (hbegin timer)
  · rename_i timer
    rcases List.mem_append.mp hp with hp | hp
    · exact .inl hp
    · obtain rfl := List.mem_singleton.mp hp
      cases step_inv hstep with
      | addTimer _ hnull hfree =>
          exact .inr ((hbegin timer).addTimerInLoop (hreg.sound.newTimer hnull hfree false))
  · exact .inl hp

/-- **A one-shot timer runs once.** In every run, for each timer that `runAfter` made: it has run once at
    most, and not before it was taken in; and when its Timer has been deleted it has run, unless a
    `cancelInLoop` of its TimerId was executed. -/
theorem oneShots_run_once {made : List TimerId} (h : oneShotMachine.Reachable (s, made)) :
    ∀ p ∈ made, s.history.count (.ran p) ≤ 1 ∧ (.ran p ∈ s.history → p ∈ s.queue.takenIn) ∧
      (p ∈ s.queue.destroyed → s.history.count (.ran p) = 1 ∨ s.Cancelled p) := by
  have hkept : timerMachine.Reachable s ∧ s.TakenFirst ∧ ∀ p ∈ made, s.OnceOf p := by
    refine h.invariant (I := fun s => timerMachine.Reachable s.1 ∧ s.1.TakenFirst ∧ ∀ p ∈ s.2, s.1.OnceOf p)
      ?_ ?_
    · rintro ⟨s, made⟩ ⟨hs, hmade⟩
      obtain rfl : s = new := hs
      obtain rfl : made = [] := hmade
      refine ⟨.init rfl, ⟨?_, ?_⟩, fun _ hp => absurd hp List.not_mem_nil⟩
      · exact fun _ hv => absurd hv List.not_mem_nil
      · exact fun _ hv => absurd hv List.not_mem_nil
    · rintro ⟨s, made⟩ e ⟨s', made'⟩ - ⟨hs, htaken, honce⟩ - hmove
      obtain ⟨hstep, rfl⟩ := Machine.recording_step hmove
      have hreg := reachable_registered hs
      refine ⟨.step hs trivial hstep, htaken.step hreg hstep, fun p hp => ?_⟩
      rcases onceOf_made hreg htaken hstep hp with hold | hnew
      · exact (honce p hold).step hreg hstep
      · exact hnew
  obtain ⟨hs, htaken, honce⟩ := hkept
  have hsound := (reachable_registered hs).sound
  intro p hp
  refine ⟨(honce p hp).atMost, htaken.ran p, fun hdead => ?_⟩
  have hgone := (hsound.destroyed p hdead).1
  have hvalid : p ∉ s.queue.validTimers_ := fun hvalid => ((hsound.taken p).mp hvalid).2 hdead
  refine (honce p hp).spent (htaken.destroyed p hdead) (fun hlive => hgone hlive.1) ?_
  exact fun hpending => hvalid (hsound.pendings p hpending)

/-- A one-shot timer runs and is deleted, and another thread's timer gets its address. -/
def runsOnce : List Event :=
  [.addTimer 8 false, .loop (.loop .loop), .loop .prepareCallBack, .sweep, .loop .doPendingFunctors,
   .loop .endFunctors, .loop .testQuit, .expire 8, .loop .poll, .deliver ⟨8, 1⟩,
   .newTimer 1 16 false, .leave, .loop .prepareCallBack, .sweep, .endDelete, .newTimer 2 8 false]

theorem oneShots_run_once_addressReused :
    ∃ s made, oneShotMachine.run (new, []) runsOnce = some (s, made) ∧
      made = [⟨8, 1⟩, ⟨16, 2⟩, ⟨8, 3⟩] ∧ s.history.count (.ran ⟨8, 1⟩) = 1 := by
  have hrun : (oneShotMachine.run (new, []) runsOnce).map (fun s =>
      (s.2, s.1.queue.destroyed, s.1.history)) =
        some ([⟨8, 1⟩, ⟨16, 2⟩, ⟨8, 3⟩], [⟨8, 1⟩], [.ran ⟨8, 1⟩]) := by decide +kernel
  obtain ⟨⟨s, made⟩, hs, hvalues⟩ := Option.map_eq_some_iff.mp hrun
  simp only [Prod.mk.injEq] at hvalues
  obtain ⟨hmade, hdestroyed, hhistory⟩ := hvalues
  have hinit : oneShotMachine.init (new, []) := ⟨rfl, rfl⟩
  have hreach := Machine.run_reachable hinit hs
  have hmem : (⟨8, 1⟩ : TimerId) ∈ made := by simp [hmade]
  obtain ⟨-, -, hran⟩ := oneShots_run_once hreach _ hmem
  have hcancelled : ¬ s.Cancelled ⟨8, 1⟩ := by
    rintro ⟨made, hcancelled⟩
    rw [hhistory] at hcancelled
    exact absurd (List.mem_singleton.mp hcancelled) (by simp)
  exact ⟨s, made, hs, hmade, (hran (by simp [hdestroyed])).resolve_right hcancelled⟩

end TimerRun

end Simplev
