import Mathlib.Data.List.Sort
import Mathlib.Logic.Function.Basic

/-!
# `Net.TimerQueue` — the Timers of a loop in memory (`TimerQueue.cc`, `Timer.cc`)

What `addTimerInLoop`, `cancelInLoop` and the deletion in `clearExpiredTimer` do to `validTimers_`, to
the memory in which Timers live, and to what libev keeps about their watchers (active, pending).

- **Memory.** `timers` says which Timer lives at an address. `new` takes any free address, so also one
  at which a Timer was deleted; `~Timer` frees it at its end. A `Timer*` is kept with the sequence
  number of the Timer it was made for (`TimerId`): code that dereferences it reads what lives at the
  address, and `touched` records whose pointer it was and what was there.
- **libev.** A timer that expires becomes pending, and inactive if it does not repeat. `ev_timer_stop`
  also drops the pending expiry. Durations are left out: any active timer may expire.
- **`Sound`** is the invariant of all this; each operation keeps it. `~TimerQueue` is left out.
-/

namespace Simplev

/-- A `Timer*` with its sequence number: a `TimerId`, and also an entry of `validTimers_`. -/
structure TimerId where
  timer_ : Nat
  sequence_ : Nat
deriving DecidableEq, Repr

/-- `TimerId()`. -/
def TimerId.null : TimerId := ⟨0, 0⟩

/-- The order of `std::pair<Timer*, int64_t>`. -/
def TimerId.Le (a b : TimerId) : Prop :=
  a.timer_ < b.timer_ ∨ a.timer_ = b.timer_ ∧ a.sequence_ ≤ b.sequence_

instance : DecidableRel TimerId.Le := fun _ _ => inferInstanceAs (Decidable (_ ∨ _ ∧ _))

/-- A Timer, with what libev keeps in its watcher. -/
structure Timer where
  sequence_ : Nat
  repeats : Bool
  active : Bool
deriving DecidableEq, Repr

/-! ## `std::set<ValidTimer>` as an ordered list -/

/-- `insert`: a set keeps what it has. -/
def insertValid (timers : List TimerId) (timer : TimerId) : List TimerId :=
  if timer ∈ timers then timers else timers.orderedInsert TimerId.Le timer

/-- The iterator after the one at `it`. -/
def nextValid (timers : List TimerId) (it : TimerId) : Option TimerId :=
  (timers.dropWhile (· ≠ it)).tail.head?

theorem mem_insertValid {timers : List TimerId} {timer a : TimerId} :
    a ∈ insertValid timers timer ↔ a = timer ∨ a ∈ timers := by
  unfold insertValid
  split
  · rename_i hmem
    constructor
    · exact .inr
    · rintro (rfl | h)
      · exact hmem
      · exact h
  · exact List.mem_orderedInsert _

theorem nodup_insertValid {timers : List TimerId} (h : timers.Nodup) (timer : TimerId) :
    (insertValid timers timer).Nodup := by
  unfold insertValid
  split
  · exact h
  · rename_i hmem
    apply (List.perm_orderedInsert TimerId.Le timer timers).nodup_iff.mpr
    exact List.nodup_cons.mpr ⟨hmem, h⟩

/-- An iterator that moves on from an entry stays valid when that entry is erased. -/
theorem nextValid_mem_erase {timers : List TimerId} (h : timers.Nodup) {it a : TimerId}
    (hnext : nextValid timers it = some a) : a ∈ timers.erase it := by
  have htail := List.mem_of_mem_head? (Option.mem_def.mpr hnext)
  have hsuffix : timers.dropWhile (· ≠ it) <:+ timers := List.dropWhile_suffix _
  have hmem : a ∈ timers := hsuffix.subset (List.mem_of_mem_tail htail)
  apply (List.mem_erase_of_ne ?_).mpr hmem
  rintro rfl
  -- the entry at the front of the rest is `it` itself, and entries do not repeat
  cases hrest : timers.dropWhile (· ≠ a) with
  | nil =>
      rw [hrest] at htail
      exact absurd htail List.not_mem_nil
  | cons b rest =>
      have hb : b = a := by
        have := List.head?_dropWhile_not (· ≠ a) timers
        rw [hrest] at this
        simpa using this
      rw [hrest, List.tail_cons] at htail
      have hnodup : (b :: rest).Nodup := hrest ▸ h.sublist hsuffix.sublist
      exact (List.nodup_cons.mp hnodup).1 (hb ▸ htail)

theorem nextValid_mem {timers : List TimerId} (h : timers.Nodup) {it a : TimerId}
    (hnext : nextValid timers it = some a) : a ∈ timers :=
  List.mem_of_mem_erase (nextValid_mem_erase h hnext)

/-! ## The state -/

structure TimerQueue where
  /-- The Timers in memory, by address. -/
  timers : Nat → Option Timer
  s_numCreated_ : Nat
  validTimers_ : List TimerId
  /-- The expiries that libev has not delivered. -/
  pendings : List TimerId
  /-- The Timers that `addTimerInLoop` took in. -/
  takenIn : List TimerId
  /-- The Timers whose deletion is complete. -/
  destroyed : List TimerId
  /-- Every pointer dereferenced, with the sequence number of the Timer found at its address. -/
  touched : List (TimerId × Option Nat)

namespace TimerQueue

def new : TimerQueue where
  timers _ := none
  s_numCreated_ := 0
  validTimers_ := []
  pendings := []
  takenIn := []
  destroyed := []
  touched := []

/-- The sequence number of the Timer that lives where a pointer points. -/
def found (q : TimerQueue) (timer : TimerId) : Option Nat :=
  (q.timers timer.timer_).map Timer.sequence_

/-- The pointer is dereferenced. -/
def touch (q : TimerQueue) (timer : TimerId) : TimerQueue :=
  { q with touched := q.touched ++ [(timer, q.found timer)] }

/-- `timer->start()`: `ev_timer_start`. -/
def start (q : TimerQueue) (timer : TimerId) : TimerQueue :=
  let started := (q.timers timer.timer_).map fun t => { t with active := true }
  { q.touch timer with timers := Function.update q.timers timer.timer_ started }

/-- `timer->stop()`: `ev_timer_stop`. -/
def stop (q : TimerQueue) (timer : TimerId) : TimerQueue :=
  let stopped := (q.timers timer.timer_).map fun t => { t with active := false }
  { q.touch timer with
    timers := Function.update q.timers timer.timer_ stopped
    pendings := q.pendings.filter (·.timer_ ≠ timer.timer_) }

/-- `new Timer`, at the address that the allocator gives. -/
def newTimer (q : TimerQueue) (timer : Nat) (repeats : Bool) : TimerQueue :=
  { q with
    s_numCreated_ := q.s_numCreated_ + 1
    timers := Function.update q.timers timer (some ⟨q.s_numCreated_ + 1, repeats, false⟩) }

def addTimerInLoop (q : TimerQueue) (timer : TimerId) : TimerQueue :=
  { q.start timer with
    -- `timer->sequence()` is what is read at the address
    validTimers_ := match q.found timer with
      | some sequence => insertValid q.validTimers_ ⟨timer.timer_, sequence⟩
      | none => q.validTimers_
    takenIn := q.takenIn ++ [timer] }

def cancelInLoop (q : TimerQueue) (timerId : TimerId) : TimerQueue :=
  if timerId ∈ q.validTimers_ then q.stop timerId else q

/-- The Timer at this address expires. -/
def expire (q : TimerQueue) (timer : Nat) (t : Timer) : TimerQueue :=
  { q with
    timers := Function.update q.timers timer (some { t with active := t.repeats })
    pendings := q.pendings ++ [⟨timer, t.sequence_⟩] }

/-- libev delivers an expiry. -/
def deliver (q : TimerQueue) (timer : TimerId) : TimerQueue :=
  { q.touch timer with pendings := q.pendings.filter (·.timer_ ≠ timer.timer_) }

/-- The end of `delete it->first` (the watcher's destructor stops it, the memory is freed) and the
    `erase`. -/
def destroy (q : TimerQueue) (it : TimerId) : TimerQueue :=
  { q.touch it with
    timers := Function.update q.timers it.timer_ none
    pendings := q.pendings.filter (·.timer_ ≠ it.timer_)
    validTimers_ := q.validTimers_.erase it
    destroyed := q.destroyed ++ [it] }

/-! ## Which Timers live -/

variable {q q' : TimerQueue}

/-- The Timer that a pointer was made for lives where it points. -/
def Live (q : TimerQueue) (timer : TimerId) : Prop := q.found timer = some timer.sequence_

instance (q : TimerQueue) (timer : TimerId) : Decidable (q.Live timer) :=
  inferInstanceAs (Decidable (_ = _))

/-- The watcher at this address is active. -/
def Active (q : TimerQueue) (timer : Nat) : Prop :=
  (q.timers timer).map Timer.active = some true

/-- One Timer lives at an address. -/
theorem Live.unique {p r : TimerId} (hp : q.Live p) (hr : q.Live r) (h : p.timer_ = r.timer_) :
    p = r := by
  unfold Live found at hp hr
  rw [h, hr] at hp
  cases p
  cases r
  simp_all

theorem Live.not_null {p : TimerId} (h : q.Live p) (hnull : q.timers 0 = none) : p.timer_ ≠ 0 := by
  intro h0
  unfold Live found at h
  rw [h0, hnull] at h
  cases h

/-- A write to one address. -/
theorem found_update_self {a : Nat} {t : Option Timer}
    (hq : q'.timers = Function.update q.timers a t) {p : TimerId} (hp : p.timer_ = a) :
    q'.found p = t.map Timer.sequence_ := by
  unfold found
  rw [hq, hp, Function.update_self]

theorem found_update_of_ne {a : Nat} {t : Option Timer}
    (hq : q'.timers = Function.update q.timers a t) {p : TimerId} (hp : p.timer_ ≠ a) :
    q'.found p = q.found p := by
  unfold found
  rw [hq, Function.update_of_ne hp]

/-- What starts, stops or expires stays the same Timer. -/
theorem found_update {a : Nat} {t : Option Timer} (hq : q'.timers = Function.update q.timers a t)
    (ht : t.map Timer.sequence_ = (q.timers a).map Timer.sequence_) (p : TimerId) :
    q'.found p = q.found p := by
  by_cases hp : p.timer_ = a
  · rw [found_update_self hq hp, ht, ← hp]
    rfl
  · exact found_update_of_ne hq hp

theorem active_update {a : Nat} {t : Option Timer} (hq : q'.timers = Function.update q.timers a t)
    {b : Nat} (h : q'.Active b) :
    q.Active b ∧ b ≠ a ∨ b = a ∧ t.map Timer.active = some true := by
  unfold Active at h
  rw [hq] at h
  by_cases hb : b = a
  · rw [hb, Function.update_self] at h
    exact .inr ⟨hb, h⟩
  · rw [Function.update_of_ne hb] at h
    exact .inl ⟨h, hb⟩

theorem found_start (p r : TimerId) : (q.start p).found r = q.found r :=
  found_update rfl (by simp [Option.map_map, Function.comp_def]) r

theorem found_stop (p r : TimerId) : (q.stop p).found r = q.found r :=
  found_update rfl (by simp [Option.map_map, Function.comp_def]) r

theorem found_expire {a : Nat} {t : Timer} (h : q.timers a = some t) (r : TimerId) :
    (q.expire a t).found r = q.found r :=
  found_update rfl (by simp [h]) r

theorem live_newTimer {a : Nat} {repeats : Bool} {p : TimerId}
    (h : (q.newTimer a repeats).Live p) :
    p = ⟨a, q.s_numCreated_ + 1⟩ ∨ q.Live p ∧ p.timer_ ≠ a := by
  unfold Live at h
  by_cases hp : p.timer_ = a
  · rw [found_update_self rfl hp, Option.map_some, Option.some.injEq] at h
    left
    rw [← hp, show q.s_numCreated_ + 1 = p.sequence_ from h]
  · rw [found_update_of_ne rfl hp] at h
    exact .inr ⟨h, hp⟩

theorem newTimer_live {a : Nat} {repeats : Bool} (p : TimerId) (hfree : q.timers a = none)
    (h : q.Live p) : (q.newTimer a repeats).Live p := by
  have hp : p.timer_ ≠ a := by
    rintro rfl
    unfold Live found at h
    rw [hfree] at h
    cases h
  unfold Live
  rw [found_update_of_ne rfl hp]
  exact h

theorem newTimer_made (a : Nat) (repeats : Bool) :
    (q.newTimer a repeats).Live ⟨a, q.s_numCreated_ + 1⟩ := by
  unfold Live
  rw [found_update_self rfl rfl]
  rfl

theorem newTimer_active {a b : Nat} {repeats : Bool} (h : (q.newTimer a repeats).Active b) :
    q.Active b ∧ b ≠ a := by
  rcases active_update rfl h with h | ⟨-, h⟩
  · exact h
  · cases h

theorem stop_active {p : TimerId} {a : Nat} (h : (q.stop p).Active a) :
    q.Active a ∧ a ≠ p.timer_ := by
  rcases active_update rfl h with h | ⟨-, h⟩
  · exact h
  · cases hp : q.timers p.timer_ <;> simp [hp] at h

theorem expire_active {a b : Nat} {t : Timer} (ht : q.timers a = some t) (hactive : t.active = true)
    (h : (q.expire a t).Active b) : q.Active b := by
  rcases active_update rfl h with ⟨h, -⟩ | ⟨rfl, -⟩
  · exact h
  · unfold Active
    rw [ht, Option.map_some, hactive]

theorem live_destroy {it p : TimerId} (h : (q.destroy it).Live p) :
    q.Live p ∧ p.timer_ ≠ it.timer_ := by
  unfold Live at h
  by_cases hp : p.timer_ = it.timer_
  · rw [found_update_self rfl hp] at h
    cases h
  · rw [found_update_of_ne rfl hp] at h
    exact ⟨h, hp⟩

theorem destroy_live {it p : TimerId} (h : q.Live p) (hp : p.timer_ ≠ it.timer_) :
    (q.destroy it).Live p := by
  unfold Live
  rw [found_update_of_ne rfl hp]
  exact h

theorem destroy_active {it : TimerId} {a : Nat} (h : (q.destroy it).Active a) : q.Active a := by
  rcases active_update rfl h with ⟨h, -⟩ | ⟨-, h⟩
  · exact h
  · cases h

/-! ## The invariant -/

/-- `untaken` are the Timers that exist and that `addTimerInLoop` has not taken in. -/
structure Sound (q : TimerQueue) (untaken : List TimerId) : Prop where
  null : q.timers 0 = none
  numbered : ∀ p, q.Live p → p.sequence_ ≤ q.s_numCreated_
  untaken_nodup : untaken.Nodup
  untaken_live : ∀ p ∈ untaken, q.Live p ∧ ¬ q.Active p.timer_ ∧ p ∉ q.validTimers_
  valid_nodup : q.validTimers_.Nodup
  valid_live : ∀ p ∈ q.validTimers_, q.Live p
  active : ∀ p, q.Live p → q.Active p.timer_ → p ∈ q.validTimers_
  taken : ∀ p, p ∈ q.validTimers_ ↔ p ∈ q.takenIn ∧ p ∉ q.destroyed
  pendings : ∀ p ∈ q.pendings, p ∈ q.validTimers_
  destroyed : ∀ p ∈ q.destroyed, ¬ q.Live p ∧ p.sequence_ ≤ q.s_numCreated_
  destroyed_nodup : q.destroyed.Nodup
  touched : ∀ x ∈ q.touched, x.2 = some x.1.sequence_

namespace Sound

variable {untaken : List TimerId}

theorem new : TimerQueue.new.Sound [] where
  null := rfl
  numbered _ h := absurd h (by rintro ⟨⟩)
  untaken_nodup := List.nodup_nil
  untaken_live := by simp
  valid_nodup := List.nodup_nil
  valid_live := by intro _ h; cases h
  active _ h := absurd h (by rintro ⟨⟩)
  taken _ := by simp [TimerQueue.new]
  pendings := by intro _ h; cases h
  destroyed := by intro _ h; cases h
  destroyed_nodup := List.nodup_nil
  touched := by intro _ h; cases h

theorem perm (h : q.Sound untaken) {made : List TimerId} (hperm : made.Perm untaken) :
    q.Sound made :=
  { h with
    untaken_nodup := hperm.nodup_iff.mpr h.untaken_nodup
    untaken_live := fun p hp => h.untaken_live p (hperm.subset hp) }

/-- Another loop makes a Timer. -/
theorem elsewhere (h : q.Sound untaken) :
    { q with s_numCreated_ := q.s_numCreated_ + 1 }.Sound untaken :=
  { h with
    numbered := fun p hp => Nat.le_succ_of_le (h.numbered p hp)
    destroyed := fun p hp => ⟨(h.destroyed p hp).1, Nat.le_succ_of_le (h.destroyed p hp).2⟩ }

theorem touched_append (h : q.Sound untaken) {p : TimerId} (hp : q.Live p) :
    ∀ x ∈ q.touched ++ [(p, q.found p)], x.2 = some x.1.sequence_ := by
  intro x hx
  rcases List.mem_append.mp hx with hx | hx
  · exact h.touched x hx
  · rw [List.mem_singleton.mp hx]
    exact hp

theorem touch (h : q.Sound untaken) {p : TimerId} (hp : q.Live p) : (q.touch p).Sound untaken :=
  { h with touched := h.touched_append hp }

/-- A new Timer shares its TimerId with none, at whatever address it is. -/
theorem newTimer (h : q.Sound untaken) {a : Nat} (ha : a ≠ 0) (hfree : q.timers a = none)
    (repeats : Bool) :
    (q.newTimer a repeats).Sound (⟨a, q.s_numCreated_ + 1⟩ :: untaken) := by
  have hfresh : ∀ p : TimerId, p.sequence_ ≤ q.s_numCreated_ → p ≠ ⟨a, q.s_numCreated_ + 1⟩ := by
    rintro p hp rfl
    exact absurd hp (Nat.not_succ_le_self _)
  refine ⟨?_, ?_, ?_, ?_, h.valid_nodup, ?_, ?_, h.taken, h.pendings, ?_, h.destroyed_nodup,
    h.touched⟩
  · show Function.update q.timers a _ 0 = none
    rw [Function.update_of_ne ha.symm]
    exact h.null
  · intro p hp
    show p.sequence_ ≤ q.s_numCreated_ + 1
    rcases live_newTimer hp with rfl | ⟨hp, -⟩
    · exact Nat.le_refl _
    · exact Nat.le_succ_of_le (h.numbered p hp)
  · apply List.nodup_cons.mpr
    refine ⟨?_, h.untaken_nodup⟩
    intro hmem
    exact hfresh _ (h.numbered _ (h.untaken_live _ hmem).1) rfl
  · intro p hp
    rcases List.mem_cons.mp hp with rfl | hp
    · refine ⟨newTimer_made a repeats, fun hactive => (newTimer_active hactive).2 rfl, ?_⟩
      intro hvalid
      exact hfresh _ (h.numbered _ (h.valid_live _ hvalid)) rfl
    · obtain ⟨hlive, hidle, hvalid⟩ := h.untaken_live p hp
      exact ⟨newTimer_live p hfree hlive, fun hactive => hidle (newTimer_active hactive).1, hvalid⟩
  · intro p hp
    exact newTimer_live p hfree (h.valid_live p hp)
  · intro p hp hactive
    obtain ⟨hactive, hne⟩ := newTimer_active hactive
    rcases live_newTimer hp with rfl | ⟨hp, -⟩
    · exact absurd rfl hne
    · exact h.active p hp hactive
  · intro p hp
    obtain ⟨hdead, hle⟩ := h.destroyed p hp
    refine ⟨?_, Nat.le_succ_of_le hle⟩
    intro hlive
    rcases live_newTimer hlive with rfl | ⟨hlive, -⟩
    · exact hfresh _ hle rfl
    · exact hdead hlive

theorem addTimerInLoop {p : TimerId} (h : q.Sound (p :: untaken)) :
    (q.addTimerInLoop p).Sound untaken := by
  obtain ⟨hlive, -, -⟩ := h.untaken_live p List.mem_cons_self
  obtain ⟨hp, hnodup⟩ := List.nodup_cons.mp h.untaken_nodup
  have hvalid : (q.addTimerInLoop p).validTimers_ = insertValid q.validTimers_ p := by
    unfold TimerQueue.addTimerInLoop
    rw [show q.found p = some p.sequence_ from hlive]
  have hfound : ∀ r, (q.addTimerInLoop p).found r = q.found r := found_start p
  have hlives : ∀ r, (q.addTimerInLoop p).Live r ↔ q.Live r := fun r => by
    unfold Live
    rw [hfound]
  have hactive : ∀ {a}, (q.addTimerInLoop p).Active a → q.Active a ∨ a = p.timer_ := by
    intro a ha
    rcases active_update rfl ha with ⟨ha, -⟩ | ⟨ha, -⟩
    · exact .inl ha
    · exact .inr ha
  -- the timer moves from the untaken ones to the valid ones, and its watcher becomes active
  refine ⟨?_, ?_, hnodup, ?_, ?_, ?_, ?_, ?_, ?_, ?_, h.destroyed_nodup, h.touched_append hlive⟩
  · have hp0 : 0 ≠ p.timer_ := (hlive.not_null h.null).symm
    show Function.update q.timers p.timer_ _ 0 = none
    rw [Function.update_of_ne hp0]
    exact h.null
  · intro r hr
    exact h.numbered r ((hlives r).mp hr)
  · intro r hr
    have hne : r ≠ p := fun heq => hp (heq ▸ hr)
    obtain ⟨hrlive, hidle, hrvalid⟩ := h.untaken_live r (List.mem_cons_of_mem _ hr)
    refine ⟨(hlives r).mpr hrlive, ?_, ?_⟩
    · intro ha
      rcases hactive ha with ha | ha
      · exact hidle ha
      · exact hne (hrlive.unique hlive ha)
    · rw [hvalid, mem_insertValid]
      rintro (heq | hmem)
      · exact hne heq
      · exact hrvalid hmem
  · rw [hvalid]
    exact nodup_insertValid h.valid_nodup p
  · intro r hr
    rw [hvalid, mem_insertValid] at hr
    apply (hlives r).mpr
    rcases hr with rfl | hr
    · exact hlive
    · exact h.valid_live r hr
  · intro r hr ha
    have hr := (hlives r).mp hr
    rw [hvalid, mem_insertValid]
    -- two live timers at one address are one timer
    rcases hactive ha with ha | ha
    · exact .inr (h.active r hr ha)
    · exact .inl (hr.unique hlive ha)
  · intro r
    show r ∈ (q.addTimerInLoop p).validTimers_ ↔ r ∈ q.takenIn ++ [p] ∧ r ∉ q.destroyed
    rw [hvalid, mem_insertValid, h.taken, List.mem_append, List.mem_singleton]
    constructor
    · rintro (rfl | ⟨htaken, hdead⟩)
      · exact ⟨.inr rfl, fun hdead => (h.destroyed _ hdead).1 hlive⟩
      · exact ⟨.inl htaken, hdead⟩
    · rintro ⟨htaken | heq, hdead⟩
      · exact .inr ⟨htaken, hdead⟩
      · exact .inl heq
  · intro r hr
    rw [hvalid, mem_insertValid]
    exact .inr (h.pendings r hr)
  · intro r hr
    obtain ⟨hdead, hle⟩ := h.destroyed r hr
    exact ⟨fun hr => hdead ((hlives r).mp hr), hle⟩

/-- Only what is pending at that address is lost. -/
theorem stop (h : q.Sound untaken) {p : TimerId} (hp : q.Live p) : (q.stop p).Sound untaken := by
  have hlives : ∀ r, (q.stop p).Live r ↔ q.Live r := fun r => by
    unfold Live
    rw [found_stop]
  refine ⟨?_, ?_, h.untaken_nodup, ?_, h.valid_nodup, ?_, ?_, h.taken, ?_, ?_, h.destroyed_nodup,
    h.touched_append hp⟩
  · have hp0 : 0 ≠ p.timer_ := (hp.not_null h.null).symm
    show Function.update q.timers p.timer_ _ 0 = none
    rw [Function.update_of_ne hp0]
    exact h.null
  · intro r hr
    exact h.numbered r ((hlives r).mp hr)
  · intro r hr
    obtain ⟨hlive, hidle, hvalid⟩ := h.untaken_live r hr
    exact ⟨(hlives r).mpr hlive, fun ha => hidle (stop_active ha).1, hvalid⟩
  · intro r hr
    exact (hlives r).mpr (h.valid_live r hr)
  · intro r hr ha
    exact h.active r ((hlives r).mp hr) (stop_active ha).1
  · intro r hr
    exact h.pendings r (List.mem_of_mem_filter hr)
  · intro r hr
    obtain ⟨hdead, hle⟩ := h.destroyed r hr
    exact ⟨fun hr => hdead ((hlives r).mp hr), hle⟩

theorem cancelInLoop (h : q.Sound untaken) (p : TimerId) : (q.cancelInLoop p).Sound untaken := by
  unfold TimerQueue.cancelInLoop
  split
  · rename_i hvalid
    exact h.stop (h.valid_live p hvalid)
  · exact h

theorem expire (h : q.Sound untaken) {a : Nat} {t : Timer} (ht : q.timers a = some t)
    (hactive : t.active = true) : (q.expire a t).Sound untaken := by
  have hlives : ∀ r, (q.expire a t).Live r ↔ q.Live r := fun r => by
    unfold Live
    rw [found_expire ht]
  refine ⟨?_, ?_, h.untaken_nodup, ?_, h.valid_nodup, ?_, ?_, h.taken, ?_, ?_, h.destroyed_nodup,
    h.touched⟩
  · have ha : 0 ≠ a := by
      rintro rfl
      exact absurd (h.null.symm.trans ht) (by simp)
    show Function.update q.timers a _ 0 = none
    rw [Function.update_of_ne ha]
    exact h.null
  · intro r hr
    exact h.numbered r ((hlives r).mp hr)
  · intro r hr
    obtain ⟨hlive, hidle, hvalid⟩ := h.untaken_live r hr
    exact ⟨(hlives r).mpr hlive, fun ha => hidle (expire_active ht hactive ha), hvalid⟩
  · intro r hr
    exact (hlives r).mpr (h.valid_live r hr)
  · intro r hr ha
    exact h.active r ((hlives r).mp hr) (expire_active ht hactive ha)
  · intro r hr
    rcases List.mem_append.mp hr with hr | hr
    · exact h.pendings r hr
    · -- what was active was in the set
      rw [List.mem_singleton.mp hr]
      apply h.active
      · unfold Live found
        rw [ht, Option.map_some]
      · unfold Active
        rw [ht, Option.map_some, hactive]
  · intro r hr
    obtain ⟨hdead, hle⟩ := h.destroyed r hr
    exact ⟨fun hr => hdead ((hlives r).mp hr), hle⟩

theorem deliver (h : q.Sound untaken) {p : TimerId} (hp : p ∈ q.pendings) :
    (q.deliver p).Sound untaken :=
  { h with
    pendings := fun r hr => h.pendings r (List.mem_of_mem_filter hr)
    touched := h.touched_append (h.valid_live p (h.pendings p hp)) }

theorem destroy (h : q.Sound untaken) {it : TimerId} (hit : it ∈ q.validTimers_) :
    (q.destroy it).Sound untaken := by
  have hlive := h.valid_live it hit
  have herase : ∀ {r}, r ∈ q.validTimers_.erase it ↔ r ∈ q.validTimers_ ∧ r ≠ it := fun {r} => by
    rw [h.valid_nodup.mem_erase_iff, and_comm]
  refine ⟨?_, ?_, h.untaken_nodup, ?_, h.valid_nodup.erase it, ?_, ?_, ?_, ?_, ?_, ?_,
    h.touched_append hlive⟩
  · have hit0 : 0 ≠ it.timer_ := (hlive.not_null h.null).symm
    show Function.update q.timers it.timer_ none 0 = none
    rw [Function.update_of_ne hit0]
    exact h.null
  · intro r hr
    exact h.numbered r (live_destroy hr).1
  · intro r hr
    obtain ⟨hrlive, hidle, hvalid⟩ := h.untaken_live r hr
    -- an untaken timer is not valid, so that it lives at another address
    have hne : r.timer_ ≠ it.timer_ := fun heq => hvalid (hrlive.unique hlive heq ▸ hit)
    refine ⟨destroy_live hrlive hne, fun ha => hidle (destroy_active ha), ?_⟩
    intro hmem
    exact hvalid (herase.mp hmem).1
  · intro r hr
    obtain ⟨hr, hne⟩ := herase.mp hr
    exact destroy_live (h.valid_live r hr) fun heq => hne ((h.valid_live r hr).unique hlive heq)
  · intro r hr ha
    obtain ⟨hr, hne⟩ := live_destroy hr
    apply herase.mpr
    exact ⟨h.active r hr (destroy_active ha), fun heq => hne (heq ▸ rfl)⟩
  · intro r
    show r ∈ q.validTimers_.erase it ↔ r ∈ q.takenIn ∧ r ∉ q.destroyed ++ [it]
    rw [herase, h.taken, List.mem_append, List.mem_singleton, not_or, and_assoc]
  · intro r hr
    obtain ⟨hr, hne⟩ := List.mem_filter.mp hr
    apply herase.mpr
    refine ⟨h.pendings r hr, ?_⟩
    rintro rfl
    simp at hne
  · intro r hr
    rcases List.mem_append.mp hr with hr | hr
    · obtain ⟨hdead, hle⟩ := h.destroyed r hr
      exact ⟨fun hr => hdead (live_destroy hr).1, hle⟩
    · rw [List.mem_singleton.mp hr]
      exact ⟨fun hr => (live_destroy hr).2 rfl, h.numbered it hlive⟩
  · apply List.nodup_append.mpr
    refine ⟨h.destroyed_nodup, List.nodup_singleton it, ?_⟩
    rintro r hr r' hr' rfl
    rw [List.mem_singleton.mp hr'] at hr
    exact (h.destroyed it hr).1 hlive

end Sound

end TimerQueue

end Simplev
