import Simplev.Net.Correctness.Registry

/-!
# `Net.Correctness.Cancel` — when cancelling a timer is final

The add and the cancel of a timer reach the loop directly or through the queue, depending on who
calls. A cancel through the queue comes behind the add, since the TimerId is known only after the add
is queued (`Cancelling.order`). A cancel on the loop's own thread runs at once, so it overtakes the add
when that one waits: it finds nothing in `validTimers_`, and the timer starts later and runs
(`cancel_overtakes`). Where the loop's thread never does that (`Arrived`), cancelling is final. That a
call may return the TimerId of another Timer does not matter here: the Timer it made is deleted then.
-/

namespace Simplev

open Foundation

namespace TimerQueue

variable {q : TimerQueue} {v : TimerId}

/-- The timer `v` can neither expire nor be delivered. -/
structure Still (q : TimerQueue) (v : TimerId) : Prop where
  made : v.sequence_ ≤ q.s_numCreated_
  inactive : q.Live v → ¬ q.Active v.timer_
  delivered : v ∉ q.pendings

theorem Still.newTimer (h : q.Still v) (a : Nat) (repeats : Bool) :
    (q.newTimer a repeats).Still v where
  made := Nat.le_succ_of_le h.made
  inactive hlive ha := by
    obtain ⟨ha, hne⟩ := newTimer_active ha
    rcases live_newTimer hlive with rfl | ⟨hlive, -⟩
    · exact hne rfl
    · exact h.inactive hlive ha
  delivered := h.delivered

/-- The Timer taken in is another one. -/
theorem Still.addTimerInLoop (h : q.Still v) {p : TimerId} (hp : q.Live p) (hne : v ≠ p) :
    (q.addTimerInLoop p).Still v where
  made := h.made
  inactive hlive ha := by
    have hlive : q.Live v := by
      unfold Live at hlive ⊢
      rw [← found_start p v]
      exact hlive
    rcases active_update rfl ha with ⟨ha, -⟩ | ⟨heq, -⟩
    · exact h.inactive hlive ha
    · exact hne (hlive.unique hp heq)
  delivered := h.delivered

theorem Still.stop (h : q.Still v) (p : TimerId) : (q.stop p).Still v where
  made := h.made
  inactive hlive ha := by
    unfold Live at hlive
    rw [found_stop] at hlive
    exact h.inactive hlive (stop_active ha).1
  delivered hmem := h.delivered (List.mem_of_mem_filter hmem)

theorem Still.cancelInLoop (h : q.Still v) (p : TimerId) : (q.cancelInLoop p).Still v := by
  unfold TimerQueue.cancelInLoop
  split
  · exact h.stop p
  · exact h

/-- `cancelInLoop` itself, of a Timer whose add does not wait: what it does not find is not active. -/
theorem Sound.still_cancelInLoop {untaken : List TimerId} (h : q.Sound untaken)
    (hmade : v.sequence_ ≤ q.s_numCreated_) : (q.cancelInLoop v).Still v := by
  unfold TimerQueue.cancelInLoop
  split
  · refine ⟨hmade, fun _ ha => (stop_active ha).2 rfl, ?_⟩
    intro hmem
    have hne := (List.mem_filter.mp hmem).2
    simp at hne
  · rename_i hvalid
    refine ⟨hmade, fun hlive ha => hvalid (h.active v hlive ha), ?_⟩
    intro hmem
    exact hvalid (h.pendings v hmem)

/-- A deleted Timer. -/
theorem Sound.still_destroyed {untaken : List TimerId} (h : q.Sound untaken)
    (hdead : v ∈ q.destroyed) : q.Still v := by
  obtain ⟨hlive, hle⟩ := h.destroyed v hdead
  refine ⟨hle, fun hv => absurd hv hlive, ?_⟩
  intro hmem
  exact ((h.taken v).mp (h.pendings v hmem)).2 hdead

theorem Still.expire (h : q.Still v) {a : Nat} {t : Timer} (ht : q.timers a = some t)
    (hactive : t.active = true) : (q.expire a t).Still v where
  made := h.made
  inactive hlive ha := by
    unfold Live at hlive
    rw [found_expire ht] at hlive
    exact h.inactive hlive (expire_active ht hactive ha)
  delivered hmem := by
    rcases List.mem_append.mp hmem with hmem | hmem
    · exact h.delivered hmem
    · -- what expires was active
      rw [List.mem_singleton.mp hmem] at h
      refine h.inactive ?_ ?_
      · unfold Live found
        rw [ht, Option.map_some]
      · unfold Active
        rw [ht, Option.map_some, hactive]

theorem Still.deliver (h : q.Still v) (p : TimerId) : (q.deliver p).Still v :=
  ⟨h.made, h.inactive, fun hmem => h.delivered (List.mem_of_mem_filter hmem)⟩

theorem Still.destroy (h : q.Still v) (it : TimerId) : (q.destroy it).Still v where
  made := h.made
  inactive hlive ha := h.inactive (live_destroy hlive).1 (destroy_active ha)
  delivered hmem := h.delivered (List.mem_of_mem_filter hmem)

end TimerQueue

namespace TimerRun

variable {s s' : TimerRun}

/-! ## The invariant -/

/-- The cancel of a timer does not wait in front of its add. -/
def Fifo (f g : TimerFunctor) : Prop :=
  ∀ handle, f = .cancelInLoop handle → g ≠ .addTimerInLoop handle.made

/-- A timer does not run after it was cancelled. -/
def Quiet (e e' : TimerEvent) : Prop := ∀ handle, e = .cancelled handle → e' ≠ .ran handle.made

/-- `addTimer` has queued or taken in the Timer `v`, which may also be of another loop, or of
    `TimerId()`. -/
def Known (s : TimerRun) (v : TimerId) : Prop :=
  v.sequence_ ≤ s.queue.s_numCreated_ ∧ v ∉ s.adding.map Prod.snd

structure Cancelling (s : TimerRun) : Prop where
  returning : ∀ entry ∈ s.returning, s.Known entry.2
  returned : ∀ handle ∈ s.returned, s.Known handle.made
  order : s.loop.functors.Pairwise Fifo
  cancelled : ∀ handle, .cancelled handle ∈ s.history →
    s.queue.Still handle.made ∧ handle.made ∉ s.untaken
  final : s.history.Pairwise Quiet

theorem new_cancelling : new.Cancelling where
  returning := by simp [new]
  returned := by simp [new]
  order := .nil
  cancelled := by simp [new]
  final := .nil

theorem Registered.known_null (h : s.Registered) : s.Known .null := by
  refine ⟨Nat.zero_le _, ?_⟩
  intro hmem
  have hlive := (h.sound.untaken_live _ (List.mem_append_left _ hmem)).1
  exact hlive.not_null h.sound.null rfl

theorem Cancelling.known (h : s.Cancelling) (hreg : s.Registered) {handle : Handle}
    (hhandle : handle = .null ∨ handle ∈ s.returned) : s.Known handle.made := by
  rcases hhandle with rfl | hhandle
  · exact hreg.known_null
  · exact h.returned handle hhandle

/-- A step that changes no more than the queue's memory. -/
theorem Cancelling.same (h : s.Cancelling) (hloop : s'.loop.functors = s.loop.functors)
    (hadding : s'.adding = s.adding) (hreturning : s'.returning = s.returning)
    (hreturned : s'.returned = s.returned) (hhistory : s'.history = s.history)
    (hcreated : s'.queue.s_numCreated_ = s.queue.s_numCreated_)
    (hstill : ∀ v, s.queue.Still v → s'.queue.Still v) :
    s'.Cancelling := by
  have hknown : ∀ {v}, s.Known v → s'.Known v := by
    intro v hv
    unfold Known
    rw [hcreated, hadding]
    exact hv
  refine ⟨?_, ?_, ?_, ?_, ?_⟩
  · rw [hreturning]
    exact fun entry hentry => hknown (h.returning entry hentry)
  · rw [hreturned]
    exact fun handle hhandle => hknown (h.returned handle hhandle)
  · rw [hloop]
    exact h.order
  · intro handle hhandle
    rw [hhistory] at hhandle
    obtain ⟨hs, huntaken⟩ := h.cancelled handle hhandle
    refine ⟨hstill _ hs, ?_⟩
    unfold untaken
    rw [hadding, hloop]
    exact huntaken
  · rw [hhistory]
    exact h.final

/-- A functor that takes no timer in may come behind anything. -/
theorem order_append {functors : List TimerFunctor} (h : functors.Pairwise Fifo)
    {functor : TimerFunctor}
    (hnew : ∀ handle, functor = .addTimerInLoop handle.made → .cancelInLoop handle ∉ functors) :
    (functors ++ [functor]).Pairwise Fifo := by
  apply List.pairwise_append.mpr
  refine ⟨h, List.pairwise_singleton _ _, ?_⟩
  rintro f hf g hg handle rfl
  rw [List.mem_singleton.mp hg]
  intro hadd
  exact hnew handle hadd hf

theorem final_append {history : List TimerEvent} (h : history.Pairwise Quiet) {e : TimerEvent}
    (hnew : ∀ handle, e = .ran handle.made → .cancelled handle ∉ history) :
    (history ++ [e]).Pairwise Quiet := by
  apply List.pairwise_append.mpr
  refine ⟨h, List.pairwise_singleton _ _, ?_⟩
  rintro f hf g hg handle rfl
  rw [List.mem_singleton.mp hg]
  intro hran
  exact hnew handle hran hf

/-- A functor that takes no timer in is queued. -/
theorem Cancelling.push (h : s.Cancelling) {loop : LoopRun TimerFunctor} {functor : TimerFunctor}
    (hloop : loop.functors = s.loop.functors ++ [functor]) (hadded : added functor = none) :
    { s with loop := loop }.Cancelling := by
  refine ⟨h.returning, h.returned, ?_, ?_, h.final⟩
  · show loop.functors.Pairwise Fifo
    rw [hloop]
    apply order_append h.order
    rintro handle rfl
    cases hadded
  · intro handle hhandle
    obtain ⟨hstill, huntaken⟩ := h.cancelled handle hhandle
    refine ⟨hstill, ?_⟩
    show handle.made ∉ s.adding.map Prod.snd ++ loop.functors.filterMap added
    rw [hloop, List.filterMap_append, List.filterMap_cons, hadded, List.filterMap_nil,
      List.append_nil]
    exact huntaken

/-- Another thread's `addTimer` queues its functor: nobody has the TimerId yet. -/
theorem Cancelling.queueTimer (h : s.Cancelling) (hreg : s.Registered) (hhanded : s.Handed)
    (htidy : s.loop.Tidy) {thread : Nat} {entry : Nat × TimerId} {loop : LoopRun TimerFunctor}
    (hmem : entry ∈ s.adding)
    (hpush : s.loop.step (.runInLoop (.other thread) (.addTimerInLoop entry.2)) = some loop) :
    { s with
      loop := loop
      adding := s.adding.erase entry
      returning := s.returning ++ [entry] }.Cancelling := by
  have hfunctors : loop.functors = s.loop.functors ++ [.addTimerInLoop entry.2] :=
    htidy.functors_step hpush (by simp)
  have hperm := untaken_queueTimer htidy hmem hpush
  have hmade : entry.2 ∈ s.adding.map Prod.snd := List.mem_map_of_mem hmem
  have hknown : ∀ v, s.Known v → v.sequence_ ≤ s.queue.s_numCreated_ ∧
      v ∉ (s.adding.erase entry).map Prod.snd := by
    rintro v ⟨hle, hv⟩
    exact ⟨hle, fun hv' => hv ((List.map_subset _ (List.erase_subset)) hv')⟩
  refine ⟨?_, fun handle hhandle => hknown _ (h.returned handle hhandle), ?_, ?_, h.final⟩
  · intro e he
    rcases List.mem_append.mp he with he | he
    · exact hknown _ (h.returning e he)
    · rw [List.mem_singleton.mp he]
      have huntaken : entry.2 ∈ s.untaken := List.mem_append_left _ hmade
      refine ⟨hreg.sound.numbered _ (hreg.sound.untaken_live _ huntaken).1, ?_⟩
      have hnodup := (List.nodup_append.mp hreg.sound.untaken_nodup).1
      have hcons := ((List.perm_cons_erase hmem).map Prod.snd).nodup_iff.mp hnodup
      exact (List.nodup_cons.mp hcons).1
  · show loop.functors.Pairwise Fifo
    rw [hfunctors]
    apply order_append h.order
    intro handle hadd hcancel
    -- a cancel that waits is of a TimerId that a call has returned
    have hknown := h.known hreg (hhanded.cancels handle hcancel)
    exact hknown.2 (TimerFunctor.addTimerInLoop.inj hadd ▸ hmade)
  · intro handle hhandle
    obtain ⟨hstill, huntaken⟩ := h.cancelled handle hhandle
    exact ⟨hstill, fun hmem' => huntaken (hperm.subset hmem')⟩

/-- The last line of that `addTimer`. -/
theorem Cancelling.returnTimer (h : s.Cancelling) {entry : Nat × TimerId}
    (hentry : entry ∈ s.returning) (memory : Nat) : (s.returnTimer entry memory).Cancelling := by
  refine ⟨fun e he => h.returning e (List.mem_of_mem_erase he), ?_, h.order, h.cancelled, h.final⟩
  intro handle hhandle
  rcases List.mem_append.mp hhandle with hhandle | hhandle
  · exact h.returned handle hhandle
  · rw [List.mem_singleton.mp hhandle]
    exact h.returning entry hentry

/-- After a `cancelInLoop` of what a call returned, the Timer which that call made is still: it was
    stopped, or not found, or deleted before the call returned. -/
theorem Handed.still_cancelInLoop (h : s.Handed) (hreg : s.Registered) {handle : Handle}
    (hhandle : handle = .null ∨ handle ∈ s.returned) (hknown : s.Known handle.made) :
    (s.queue.cancelInLoop handle.timerId).Still handle.made := by
  have hown : handle.timerId = handle.made ∨ handle.made ∈ s.queue.destroyed := by
    rcases hhandle with rfl | hhandle
    · exact .inl rfl
    · exact h.returned handle hhandle
  rcases hown with hown | hdead
  · rw [hown]
    exact hreg.sound.still_cancelInLoop hknown.1
  · exact (hreg.sound.still_destroyed hdead).cancelInLoop _

theorem known_cancelInLoop {p v : TimerId} (h : s.Known v) :
    v.sequence_ ≤ (s.queue.cancelInLoop p).s_numCreated_ ∧ v ∉ s.adding.map Prod.snd := by
  unfold TimerQueue.cancelInLoop
  split <;> exact h

/-- A `cancelInLoop` runs on the loop's thread; `loop` is the loop after it. -/
theorem Cancelling.cancelInLoop (h : s.Cancelling) {handle : Handle}
    {loop : LoopRun TimerFunctor}
    (hstill : (s.queue.cancelInLoop handle.timerId).Still handle.made)
    (hsub : loop.functors.Sublist s.loop.functors)
    (hgone : handle.made ∉ { s with loop := loop }.untaken) :
    { s.exec (.cancelInLoop handle) with loop := loop }.Cancelling := by
  refine ⟨fun e he => known_cancelInLoop (h.returning e he),
    fun other hother => known_cancelInLoop (h.returned other hother), h.order.sublist hsub, ?_, ?_⟩
  · intro other hother
    rcases List.mem_append.mp hother with hother | hother
    · obtain ⟨hs, huntaken⟩ := h.cancelled other hother
      refine ⟨hs.cancelInLoop _, ?_⟩
      intro hmem
      exact huntaken ((List.Sublist.append (.refl _) (hsub.filterMap added)).subset hmem)
    · cases List.mem_singleton.mp hother
      exact ⟨hstill, hgone⟩
  · apply final_append h.final
    rintro other hother
    cases hother

/-- An `addTimerInLoop` runs there: the timer it starts has not been cancelled. -/
theorem Cancelling.addTimerInLoop (h : s.Cancelling) {p : TimerId}
    {loop : LoopRun TimerFunctor} (hlive : s.queue.Live p) (hp : p ∈ s.untaken)
    (hsub : loop.functors.Sublist s.loop.functors) :
    { s.exec (.addTimerInLoop p) with loop := loop }.Cancelling := by
  refine ⟨h.returning, h.returned, h.order.sublist hsub, ?_, h.final⟩
  intro handle hhandle
  obtain ⟨hstill, huntaken⟩ := h.cancelled handle hhandle
  have hne : handle.made ≠ p := fun heq => huntaken (heq ▸ hp)
  refine ⟨hstill.addTimerInLoop hlive hne, ?_⟩
  intro hmem
  exact huntaken ((List.Sublist.append (.refl _) (hsub.filterMap added)).subset hmem)

/-! ## New Timers -/

/-- The sequence number of a new Timer is new. -/
theorem fresh {v : TimerId} {a : Nat} (h : v.sequence_ ≤ s.queue.s_numCreated_) :
    v ≠ ⟨a, s.queue.s_numCreated_ + 1⟩ := by
  rintro rfl
  exact Nat.not_succ_le_self _ h

theorem Registered.adding_le (h : s.Registered) {v : TimerId} (hv : v ∈ s.adding.map Prod.snd) :
    v.sequence_ ≤ s.queue.s_numCreated_ :=
  h.sound.numbered v (h.sound.untaken_live v (List.mem_append_left _ hv)).1

/-- A TimerId with the next sequence number is in no thread's hands. -/
theorem Registered.fresh_known (h : s.Registered) (a : Nat) :
    (⟨a, s.queue.s_numCreated_ + 1⟩ : TimerId) ∉ s.adding.map Prod.snd := by
  intro hmem
  exact fresh (h.adding_le hmem) rfl

theorem Cancelling.newTimer (h : s.Cancelling) {thread timer : Nat} {repeats : Bool} :
    { (s.newTimer timer repeats).1 with
      adding := s.adding ++ [(thread, (s.newTimer timer repeats).2)] }.Cancelling := by
  have hknown : ∀ v, s.Known v → v.sequence_ ≤ s.queue.s_numCreated_ + 1 ∧
      v ∉ (s.adding ++ [(thread, (s.newTimer timer repeats).2)]).map Prod.snd := by
    rintro v ⟨hle, hv⟩
    refine ⟨Nat.le_succ_of_le hle, ?_⟩
    rw [List.map_append]
    intro hmem
    rcases List.mem_append.mp hmem with hmem | hmem
    · exact hv hmem
    · exact fresh hle (List.mem_singleton.mp hmem)
  refine ⟨fun e he => hknown _ (h.returning e he),
    fun handle hhandle => hknown _ (h.returned handle hhandle), h.order, ?_, h.final⟩
  intro handle hhandle
  obtain ⟨hstill, huntaken⟩ := h.cancelled handle hhandle
  refine ⟨hstill.newTimer timer repeats, ?_⟩
  intro hmem
  rcases List.mem_append.mp hmem with hmem | hmem
  · rw [List.map_append] at hmem
    rcases List.mem_append.mp hmem with hmem | hmem
    · exact huntaken (List.mem_append_left _ hmem)
    · exact fresh hstill.made (List.mem_singleton.mp hmem)
  · exact huntaken (List.mem_append_right _ hmem)

/-- What the loop's thread makes, of this loop or of another, has the next sequence number. -/
theorem Cancelling.known_next (h : s.Cancelling) (hreg : s.Registered) (timer : Nat)
    {handle : Handle}
    (hhandle : handle ∈ s.returned ++ [⟨⟨timer, s.queue.s_numCreated_ + 1⟩,
      ⟨timer, s.queue.s_numCreated_ + 1⟩⟩]) :
    handle.made.sequence_ ≤ s.queue.s_numCreated_ + 1 ∧
      handle.made ∉ s.adding.map Prod.snd := by
  rcases List.mem_append.mp hhandle with hhandle | hhandle
  · obtain ⟨hle, hadding⟩ := h.returned handle hhandle
    exact ⟨Nat.le_succ_of_le hle, hadding⟩
  · rw [List.mem_singleton.mp hhandle]
    exact ⟨Nat.le_refl _, hreg.fresh_known timer⟩

theorem Cancelling.addTimer (h : s.Cancelling) (hreg : s.Registered) {timer : Nat}
    {repeats : Bool} :
    (((s.newTimer timer repeats).1.handOut (s.newTimer timer repeats).2
      (s.newTimer timer repeats).2).exec
        (.addTimerInLoop (s.newTimer timer repeats).2)).Cancelling := by
  refine ⟨?_, fun _ hhandle => h.known_next hreg timer hhandle, h.order, ?_, h.final⟩
  · intro e he
    obtain ⟨hle, hadding⟩ := h.returning e he
    exact ⟨Nat.le_succ_of_le hle, hadding⟩
  · intro handle hhandle
    obtain ⟨hstill, huntaken⟩ := h.cancelled handle hhandle
    have hlive := TimerQueue.newTimer_made (q := s.queue) timer repeats
    exact ⟨(hstill.newTimer timer repeats).addTimerInLoop hlive (fresh hstill.made), huntaken⟩

theorem Cancelling.elsewhere (h : s.Cancelling) (hreg : s.Registered) (timer : Nat) :
    (s.elsewhere timer).Cancelling := by
  refine ⟨?_, fun _ hhandle => h.known_next hreg timer hhandle, h.order, ?_, h.final⟩
  · intro e he
    obtain ⟨hle, hadding⟩ := h.returning e he
    exact ⟨Nat.le_succ_of_le hle, hadding⟩
  · intro handle hhandle
    obtain ⟨hstill, huntaken⟩ := h.cancelled handle hhandle
    exact ⟨⟨Nat.le_succ_of_le hstill.made, hstill.inactive, hstill.delivered⟩, huntaken⟩

/-! ## The other steps -/

/-- libev delivers an expiry: that of a timer which has not been cancelled. -/
theorem Cancelling.deliver (h : s.Cancelling) {p : TimerId} (hp : p ∈ s.queue.pendings) :
    (s.deliver p).Cancelling := by
  refine ⟨h.returning, h.returned, h.order, ?_, ?_⟩
  · intro handle hhandle
    rcases List.mem_append.mp hhandle with hhandle | hhandle
    · obtain ⟨hstill, huntaken⟩ := h.cancelled handle hhandle
      exact ⟨hstill.deliver p, huntaken⟩
    · exact absurd (List.mem_singleton.mp hhandle) (by simp)
  · apply final_append h.final
    intro handle hran hcancelled
    cases hran
    exact (h.cancelled handle hcancelled).1.delivered hp

theorem Cancelling.runFunctor (h : s.Cancelling) (hreg : s.Registered) (hhanded : s.Handed)
    {push : Push TimerFunctor} {rest : EventLoop (Push TimerFunctor)}
    {loop : LoopRun TimerFunctor} (hnext : s.loop.loop.nextFunctor = some (push, rest))
    (hturn : s.loop.step .runFunctor = some loop) :
    { s.exec push.functor with loop := loop }.Cancelling := by
  have hfunctors := LoopRun.functors_runFunctor hnext hturn
  have hperm := untaken_runFunctor hnext hturn
  have hsub : loop.functors.Sublist s.loop.functors := by
    rw [hfunctors]
    exact List.sublist_cons_self _ _
  cases hfunctor : push.functor with
  | addTimerInLoop p =>
      rw [hfunctor] at hperm
      have hp : p ∈ s.untaken := hperm.symm.subset List.mem_cons_self
      exact h.addTimerInLoop (hreg.sound.untaken_live p hp).1 hp hsub
  | cancelInLoop handle =>
      rw [hfunctor] at hfunctors
      have hhandle := hhanded.cancels handle (hfunctors ▸ List.mem_cons_self)
      have hknown := h.known hreg hhandle
      refine h.cancelInLoop (hhanded.still_cancelInLoop hreg hhandle hknown) hsub ?_
      -- what waits behind this functor is not the add of its timer
      have horder := (List.pairwise_cons.mp (hfunctors ▸ h.order)).1
      intro hmem
      rcases List.mem_append.mp hmem with hmem | hmem
      · exact hknown.2 hmem
      · obtain ⟨g, hg, hadded⟩ := List.mem_filterMap.mp hmem
        cases g with
        | addTimerInLoop w =>
            obtain rfl := Option.some.inj hadded
            exact horder _ hg handle rfl rfl
        | cancelInLoop w => cases hadded
        | user id => cases hadded
  | user id =>
      refine ⟨h.returning, h.returned, h.order.sublist hsub, ?_, h.final⟩
      intro handle hhandle
      obtain ⟨hstill, huntaken⟩ := h.cancelled handle hhandle
      refine ⟨hstill, ?_⟩
      intro hmem
      exact huntaken ((List.Sublist.append (.refl _) (hsub.filterMap added)).subset hmem)

/-- **The condition**: the loop's own thread cancels no timer whose add waits in the queue, where
    another thread's `addTimer` put it. -/
def Arrived (s : TimerRun) : Event → Prop
  | .cancel .loop handle => handle.made ∉ s.untaken
  | _ => True

instance (s : TimerRun) (e : Event) : Decidable (s.Arrived e) := by
  unfold Arrived
  split <;> infer_instance

theorem Cancelling.step (h : s.Cancelling) (hreg : s.Registered) (hhanded : s.Handed)
    (htidy : s.loop.Tidy) {e : Event} (harrived : s.Arrived e) (hstep : s.step e = some s') :
    s'.Cancelling := by
  cases step_inv hstep with
  | newTimer _ _ _ => exact h.newTimer
  | queueTimer hmem hpush => exact h.queueTimer hreg hhanded htidy hmem hpush
  | returnTimer hfound => exact h.returnTimer (List.mem_of_find?_eq_some hfound) _
  | addTimer _ _ _ => exact h.addTimer hreg
  | elsewhere => exact h.elsewhere hreg _
  | cancelHere _ hhandle =>
      exact h.cancelInLoop (hhanded.still_cancelInLoop hreg hhandle (h.known hreg hhandle))
        (.refl _) harrived
  | cancelThere _ hpush => exact h.push (htidy.functors_step hpush (by simp)) rfl
  | prepareCallBack _ _ hturn =>
      have hfunctors := htidy.functors_step hturn (by simp)
      exact h.same (hfunctors.trans (List.append_nil _)) rfl rfl rfl rfl rfl fun _ hv => hv
  | runFunctor hnext hturn => exact h.runFunctor hreg hhanded hnext hturn
  | loop hallows hprepare hrun hturn =>
      have hfunctors := htidy.functors_step hturn hrun
      rcases queued_of_allows hallows with hqueued | ⟨id, hqueued⟩
      · rw [hqueued, List.append_nil] at hfunctors
        exact h.same hfunctors rfl rfl rfl rfl rfl fun _ hv => hv
      · rw [hqueued] at hfunctors
        exact h.push hfunctors rfl
  | expire _ ht hactive =>
      exact h.same rfl rfl rfl rfl rfl rfl fun _ hv => hv.expire ht hactive
  | deliver _ hp => exact h.deliver hp
  | leave _ => exact h.same rfl rfl rfl rfl rfl rfl fun _ hv => hv
  | skip _ _ =>
      exact h.same rfl rfl rfl rfl rfl rfl fun _ hv => ⟨hv.made, hv.inactive, hv.delivered⟩
  | delete _ _ _ _ =>
      exact h.same rfl rfl rfl rfl rfl rfl fun _ hv => ⟨hv.made, hv.inactive, hv.delivered⟩
  | endDelete _ _ => exact h.same rfl rfl rfl rfl rfl rfl fun _ hv => hv.destroy _

theorem reachable_cancelling (h : timerMachine.ReachableVia Arrived s) : s.Cancelling := by
  refine h.invariant ?_ ?_
  · rintro s rfl
    exact new_cancelling
  · intro s e s' hs hcancelling harrived hstep
    have htidy := LoopRun.reachable_tidy (reachable_loop hs)
    exact hcancelling.step (reachable_registered hs) (reachable_handed hs) htidy harrived hstep

/-- **Cancelling is final** in the runs in which the loop's own thread cancels no timer whose add
    waits: after a `cancelInLoop` of what a call returned has been executed, the callback of the Timer
    that the call made never begins. -/
theorem cancel_final (h : timerMachine.ReachableVia Arrived s) (early late : List TimerEvent)
    (handle : Handle) (hhistory : s.history = early ++ .cancelled handle :: late) :
    .ran handle.made ∉ late := by
  have hfinal := (reachable_cancelling h).final
  rw [hhistory] at hfinal
  have hlate := (List.pairwise_cons.mp (List.pairwise_append.mp hfinal).2.1).1
  intro hran
  exact hlate _ hran handle rfl rfl

/-- Two repeating timers expire in one poll; the first cancels itself, the second runs after it. -/
def cancelFromCallback : List Event :=
  [.addTimer 8 true, .addTimer 16 true, .loop (.loop .loop), .loop .prepareCallBack, .sweep, .sweep,
   .loop .doPendingFunctors, .loop .endFunctors, .loop .testQuit, .expire 8, .expire 16,
   .loop .poll, .deliver ⟨8, 1⟩, .cancel .loop ⟨⟨8, 1⟩, ⟨8, 1⟩⟩, .leave, .deliver ⟨16, 2⟩]

theorem cancel_final_cancelFromCallback :
    ∃ s, timerMachine.run new cancelFromCallback = some s ∧
      s.history = [.ran ⟨8, 1⟩] ++ .cancelled ⟨⟨8, 1⟩, ⟨8, 1⟩⟩ :: [.ran ⟨16, 2⟩] ∧
      .ran ⟨8, 1⟩ ∉ [TimerEvent.ran ⟨16, 2⟩] := by
  have hrun : (timerMachine.run new cancelFromCallback).map (·.history) =
      some [.ran ⟨8, 1⟩, .cancelled ⟨⟨8, 1⟩, ⟨8, 1⟩⟩, .ran ⟨16, 2⟩] := by decide +kernel
  obtain ⟨s, hs, hhistory⟩ := Option.map_eq_some_iff.mp hrun
  have hreach := Machine.run_reachableVia (M := timerMachine) (C := Arrived) (.init rfl)
    (by decide +kernel) hs
  exact ⟨s, hs, hhistory, cancel_final hreach [.ran ⟨8, 1⟩] _ _ hhistory⟩

/-- While the add of a timer waits, a cancel finds nothing to stop. -/
theorem Registered.cancel_of_untaken (h : s.Registered) {v : TimerId} (hv : v ∈ s.untaken) :
    s.queue.cancelInLoop v = s.queue :=
  TimerQueue.cancelInLoop_of_not_mem (h.sound.untaken_live v hv).2.2

/-- Another thread's `runAfter` has returned; an event callback cancels the timer, the functor of the
    add runs afterwards, and so does the timer. -/
theorem cancel_overtakes :
    ∃ s, timerMachine.run new
      [.loop (.loop .loop), .newTimer 1 8 false, .queueTimer 1, .loop (.wakeup (.other 1)),
       .returnTimer 1 0, .cancel .loop ⟨⟨8, 1⟩, ⟨8, 1⟩⟩, .loop .prepareCallBack,
       .loop .doPendingFunctors, .loop .runFunctor, .loop .endFunctors, .loop .testQuit, .expire 8,
       .loop .poll, .deliver ⟨8, 1⟩] = some s ∧
      s.history = [.cancelled ⟨⟨8, 1⟩, ⟨8, 1⟩⟩, .ran ⟨8, 1⟩] :=
  Option.map_eq_some_iff.mp (by decide +kernel)

end TimerRun

end Simplev
