import Mathlib.Data.List.Nodup
import Simplev.Foundation.Machine

/-!
# `Cases.Curl` — reporting finished transfers (`Curl.cc`)

A transfer finishes in a call of `curl_multi_socket_action`, which an event of the loop makes; after it
`checkFinish` reads libcurl's messages, and calls `Request::done` for each. It reads them only when
`runningHandles_` has fallen since the last event, or is 0, and `getUrl` raises the same number.

`Multi` is what the code relies on of libcurl. An event here is one step of the loop's thread; user code runs
between the events of the loop, in the callbacks of a socket action, and in those of `done`.
-/

namespace Simplev

open Foundation

namespace CurlRun

/-- What the code relies on of a multi handle. -/
structure Multi where
  /-- The added handles that have not finished. -/
  running : List Nat
  /-- The finished ones whose message has not been read, in the order of the messages. -/
  messages : List Nat
deriving DecidableEq, Repr

namespace Multi

/-- `curl_multi_add_handle`. -/
def add (m : Multi) (i : Nat) : Multi := { m with running := m.running ++ [i] }

/-- `curl_multi_remove_handle`, which takes the message of a finished handle with it. -/
def remove (m : Multi) (i : Nat) : Multi := ⟨m.running.erase i, m.messages.erase i⟩

/-- A transfer finishes, in `curl_multi_socket_action`. -/
def finish (m : Multi) (i : Nat) : Multi := ⟨m.running.erase i, m.messages ++ [i]⟩

/-- `curl_multi_info_read`. -/
def infoRead (m : Multi) : Option (Nat × Multi) :=
  match m.messages with
  | [] => none
  | i :: rest => some (i, { m with messages := rest })

end Multi

structure Curl where
  curlm_ : Multi
  runningHandles_ : Nat
  prevRunningHandles_ : Nat
deriving DecidableEq, Repr

/-- The condition under which `checkFinish` reads messages. -/
def Curl.looks (c : Curl) : Bool :=
  c.prevRunningHandles_ > c.runningHandles_ || c.runningHandles_ == 0

/-- The callbacks of the loop. -/
inductive Callback where
  | onTimer
  | onRead (fd : Int)
  | onWrite (fd : Int)
deriving DecidableEq, Repr

/-- Where the loop's thread is. -/
inductive Stage where
  | idle
  /-- In `curl_multi_socket_action`. -/
  | acting (callback : Callback)
  /-- It has returned, and `checkFinish` is next. -/
  | acted
  /-- In the loop of `checkFinish`. -/
  | reading
deriving DecidableEq, Repr

/-- What a `checkFinish` leaves: the transfers that finished in the socket actions before it, and the
    requests that have been destroyed and those that `done` was called for, by then. -/
structure Check where
  finished : List Nat
  destroyed : List Nat
  done : List Nat
deriving DecidableEq, Repr

/-- Every transfer that finished before the `checkFinish`, and whose request still exists, has been reported
    once. -/
def Check.Complete (c : Check) : Prop := ∀ i ∈ c.finished, i ∉ c.destroyed → c.done.count i = 1

instance (c : Check) : Decidable c.Complete :=
  inferInstanceAs (Decidable (∀ i ∈ c.finished, i ∉ c.destroyed → c.done.count i = 1))

structure State where
  curl : Curl
  stage : Stage
  /-- How many `Request`s have been made. -/
  requests : Nat
  destroyed : List Nat
  /-- The calls of `Request::done`. -/
  done : List Nat
  /-- The transfers that finished since the last `checkFinish`. -/
  finished : List Nat
  /-- The handles that were added since the last socket action before it. -/
  added : Nat
  /-- Those that were removed since then without having finished. -/
  removed : Nat
  checks : List Check
deriving DecidableEq, Repr

def State.new : State := ⟨⟨⟨[], []⟩, 0, 0⟩, .idle, 0, [], [], [], 0, 0, []⟩

inductive Event where
  | getUrl
  /-- `~Request`. -/
  | destroy (i : Nat)
  | callback (callback : Callback)
  | finish (i : Nat)
  /-- `curl_multi_socket_action` returns; `again` is `CURLM_CALL_MULTI_PERFORM`. -/
  | actionReturns (again : Bool)
  | checkFinish
  /-- A call of `curl_multi_info_read`, and of `done` when there is a message. -/
  | infoRead
deriving DecidableEq, Repr

namespace State

def setMulti (s : State) (m : Multi) : State := { s with curl := { s.curl with curlm_ := m } }

/-- `prevRunningHandles_ = runningHandles_`, the end of `checkFinish`. -/
def endCheck (s : State) : State :=
  { s with
    curl := { s.curl with prevRunningHandles_ := s.curl.runningHandles_ }
    stage := .idle
    finished := []
    checks := s.checks ++ [⟨s.finished, s.destroyed, s.done⟩] }

def step (s : State) : Event → Option State
  | .getUrl =>
    if s.stage ≠ .acted then
      some { s.setMulti (s.curl.curlm_.add s.requests) with
        requests := s.requests + 1, added := s.added + 1 }
    else none
  | .destroy i =>
    if (s.stage = .idle ∨ s.stage = .reading) ∧ i < s.requests ∧ i ∉ s.destroyed then
      some { s.setMulti (s.curl.curlm_.remove i) with
        destroyed := s.destroyed ++ [i]
        removed := if i ∈ s.curl.curlm_.running then s.removed + 1 else s.removed }
    else none
  | .callback callback => if s.stage = .idle then some { s with stage := .acting callback } else none
  | .finish i =>
    match s.stage with
    | .acting _ =>
      if i ∈ s.curl.curlm_.running then
        some { s.setMulti (s.curl.curlm_.finish i) with finished := s.finished ++ [i] }
      else none
    | _ => none
  | .actionReturns again =>
    match s.stage with
    | .acting callback =>
      some { s with
        curl := { s.curl with runningHandles_ := s.curl.curlm_.running.length }
        stage := if again then .acting callback else .acted }
    | _ => none
  | .checkFinish =>
    if s.stage = .acted then
      let s := { s with added := 0, removed := 0 }
      some (if s.curl.looks then { s with stage := .reading } else s.endCheck)
    else none
  | .infoRead =>
    if s.stage = .reading then
      match s.curl.curlm_.infoRead with
      | none => some s.endCheck
      | some (i, m) => some { s.setMulti m with done := s.done ++ [i] }
    else none

end State

/-- All runs of a `Curl`. -/
def machine : Machine State Event where
  init s := s = State.new
  step := State.step

/-! ## Bookkeeping -/

theorem Multi.infoRead_eq_some {m m' : Multi} {i : Nat} (h : m.infoRead = some (i, m')) :
    m.messages = i :: m'.messages ∧ m'.running = m.running := by
  unfold Multi.infoRead at h
  split at h
  · cases h
  · rename_i j rest hmessages
    obtain ⟨rfl, rfl⟩ := Prod.mk.inj (Option.some.inj h)
    exact ⟨hmessages, rfl⟩

theorem Multi.infoRead_eq_none {m : Multi} (h : m.infoRead = none) : m.messages = [] := by
  unfold Multi.infoRead at h
  split at h
  · assumption
  · cases h

namespace State

variable {s s' : State}

/-- **Each handle is in one place.** -/
structure Distinct (s : State) : Prop where
  nodup : (s.curl.curlm_.running ++ s.curl.curlm_.messages ++ s.done).Nodup
  bound : ∀ i ∈ s.curl.curlm_.running ++ s.curl.curlm_.messages ++ s.done, i < s.requests
  destroyed : ∀ i ∈ s.destroyed,
    i < s.requests ∧ i ∉ s.curl.curlm_.running ∧ i ∉ s.curl.curlm_.messages

/-- **What the numbers say**, at each place of the thread. -/
def Counted (s : State) : Prop :=
  match s.stage with
  | .idle =>
    s.curl.curlm_.running.length + s.removed = s.curl.prevRunningHandles_ + s.added ∧ s.finished = []
  | .acting _ =>
    s.curl.curlm_.running.length + s.removed + s.finished.length =
      s.curl.prevRunningHandles_ + s.added ∧ ∀ i ∈ s.finished, i ∈ s.curl.curlm_.messages
  | .acted =>
    s.curl.curlm_.running.length + s.removed + s.finished.length =
      s.curl.prevRunningHandles_ + s.added ∧ (∀ i ∈ s.finished, i ∈ s.curl.curlm_.messages) ∧
      s.curl.runningHandles_ = s.curl.curlm_.running.length
  | .reading =>
    -- the window of the next socket action has begun
    s.curl.curlm_.running.length + s.removed = s.curl.runningHandles_ + s.added ∧
      ∀ i ∈ s.finished, i ∈ s.curl.curlm_.messages ∨ i ∈ s.done ∨ i ∈ s.destroyed

theorem new_distinct : State.new.Distinct where
  nodup := List.nodup_nil
  bound := by simp [new]
  destroyed := by simp [new]

theorem Distinct.running_nodup (h : s.Distinct) : s.curl.curlm_.running.Nodup :=
  (h.nodup.of_append_left).of_append_left

theorem Distinct.messages_nodup (h : s.Distinct) : s.curl.curlm_.messages.Nodup :=
  (h.nodup.of_append_left).of_append_right

theorem Distinct.done_nodup (h : s.Distinct) : s.done.Nodup := h.nodup.of_append_right

/-- What has a message has not been reported. -/
theorem Distinct.not_done (h : s.Distinct) {i : Nat} (hi : i ∈ s.curl.curlm_.messages) : i ∉ s.done := by
  intro hdone
  exact (List.nodup_append.mp h.nodup).2.2 i (List.mem_append_right _ hi) i hdone rfl

theorem Distinct.getUrl (h : s.Distinct) {added : Nat} :
    ({ s.setMulti (s.curl.curlm_.add s.requests) with
        requests := s.requests + 1, added := added } : State).Distinct := by
  have hperm : List.Perm (s.curl.curlm_.running ++ [s.requests] ++ s.curl.curlm_.messages ++ s.done)
      (s.requests :: (s.curl.curlm_.running ++ s.curl.curlm_.messages ++ s.done)) := by
    simp only [List.append_assoc, List.singleton_append]
    exact List.perm_middle
  have hfresh : s.requests ∉ s.curl.curlm_.running ++ s.curl.curlm_.messages ++ s.done :=
    fun hmem => absurd (h.bound _ hmem) (Nat.lt_irrefl _)
  refine ⟨hperm.nodup_iff.mpr (List.nodup_cons.mpr ⟨hfresh, h.nodup⟩), fun i hi => ?_, fun i hi => ?_⟩
  · rcases List.mem_cons.mp (hperm.mem_iff.mp hi) with rfl | hi
    · exact Nat.lt_succ_self _
    · exact Nat.lt_succ_of_lt (h.bound i hi)
  · obtain ⟨hlt, hrunning, hmessages⟩ := h.destroyed i hi
    refine ⟨Nat.lt_succ_of_lt hlt, fun hmem => ?_, hmessages⟩
    rcases List.mem_append.mp hmem with hmem | hmem
    · exact hrunning hmem
    · rw [List.mem_singleton.mp hmem] at hlt
      exact absurd hlt (Nat.lt_irrefl _)

theorem Distinct.destroy (h : s.Distinct) {i removed : Nat} (hi : i < s.requests) :
    ({ s.setMulti (s.curl.curlm_.remove i) with
        destroyed := s.destroyed ++ [i], removed := removed } : State).Distinct := by
  have hsub : List.Sublist (s.curl.curlm_.running.erase i ++ s.curl.curlm_.messages.erase i ++ s.done)
      (s.curl.curlm_.running ++ s.curl.curlm_.messages ++ s.done) :=
    (List.erase_sublist.append List.erase_sublist).append (List.Sublist.refl _)
  refine ⟨h.nodup.sublist hsub, fun j hj => h.bound j (hsub.subset hj), fun j hj => ?_⟩
  rcases List.mem_append.mp hj with hj | hj
  · obtain ⟨hlt, hrunning, hmessages⟩ := h.destroyed j hj
    exact ⟨hlt, fun hmem => hrunning (List.mem_of_mem_erase hmem),
      fun hmem => hmessages (List.mem_of_mem_erase hmem)⟩
  · rw [List.mem_singleton.mp hj]
    exact ⟨hi, h.running_nodup.not_mem_erase, h.messages_nodup.not_mem_erase⟩

theorem Distinct.finish (h : s.Distinct) {i : Nat} {finished : List Nat}
    (hi : i ∈ s.curl.curlm_.running) :
    ({ s.setMulti (s.curl.curlm_.finish i) with finished := finished } : State).Distinct := by
  have hperm : List.Perm
      (s.curl.curlm_.running.erase i ++ (s.curl.curlm_.messages ++ [i]) ++ s.done)
      (s.curl.curlm_.running ++ s.curl.curlm_.messages ++ s.done) := by
    refine List.Perm.append_right _ ?_
    rw [← List.append_assoc]
    refine (List.perm_append_singleton i _).trans ?_
    exact ((List.perm_cons_erase hi).symm).append_right _
  refine ⟨hperm.nodup_iff.mpr h.nodup, fun j hj => h.bound j (hperm.mem_iff.mp hj), fun j hj => ?_⟩
  obtain ⟨hlt, hrunning, hmessages⟩ := h.destroyed j hj
  refine ⟨hlt, fun hmem => hrunning (List.mem_of_mem_erase hmem), fun hmem => ?_⟩
  rcases List.mem_append.mp hmem with hmem | hmem
  · exact hmessages hmem
  · rw [List.mem_singleton.mp hmem] at hrunning
    exact hrunning hi

theorem Distinct.infoRead (h : s.Distinct) {i : Nat} {m : Multi}
    (hread : s.curl.curlm_.infoRead = some (i, m)) :
    ({ s.setMulti m with done := s.done ++ [i] } : State).Distinct := by
  obtain ⟨hmessages, hrunning⟩ := Multi.infoRead_eq_some hread
  have hperm : List.Perm (m.running ++ m.messages ++ (s.done ++ [i]))
      (s.curl.curlm_.running ++ s.curl.curlm_.messages ++ s.done) := by
    rw [hmessages, hrunning, ← List.append_assoc]
    refine (List.perm_append_singleton i _).trans ?_
    simp only [List.append_assoc, List.cons_append]
    exact List.perm_middle.symm
  refine ⟨hperm.nodup_iff.mpr h.nodup, fun j hj => h.bound j (hperm.mem_iff.mp hj), fun j hj => ?_⟩
  obtain ⟨hlt, hnot, hnot'⟩ := h.destroyed j hj
  refine ⟨hlt, fun hmem => hnot (hrunning ▸ hmem), fun hmem => hnot' ?_⟩
  rw [hmessages]
  exact List.mem_cons_of_mem _ hmem

theorem Distinct.step (h : s.Distinct) {e : Event} (hstep : s.step e = some s') : s'.Distinct := by
  cases e with
  | getUrl =>
      simp only [State.step, Option.ite_none_right_eq_some, Option.some.injEq] at hstep
      obtain ⟨-, rfl⟩ := hstep
      exact h.getUrl
  | destroy i =>
      simp only [State.step, Option.ite_none_right_eq_some, Option.some.injEq] at hstep
      obtain ⟨⟨-, hi, -⟩, rfl⟩ := hstep
      exact h.destroy hi
  | callback callback =>
      simp only [State.step, Option.ite_none_right_eq_some, Option.some.injEq] at hstep
      obtain ⟨-, rfl⟩ := hstep
      exact ⟨h.nodup, h.bound, h.destroyed⟩
  | finish i =>
      simp only [State.step] at hstep
      split at hstep
      · simp only [Option.ite_none_right_eq_some, Option.some.injEq] at hstep
        obtain ⟨hi, rfl⟩ := hstep
        exact h.finish hi
      · cases hstep
  | actionReturns again =>
      simp only [State.step] at hstep
      split at hstep
      · obtain rfl := Option.some.inj hstep
        exact ⟨h.nodup, h.bound, h.destroyed⟩
      · cases hstep
  | checkFinish =>
      simp only [State.step, Option.ite_none_right_eq_some, Option.some.injEq] at hstep
      obtain ⟨-, rfl⟩ := hstep
      split <;> exact ⟨h.nodup, h.bound, h.destroyed⟩
  | infoRead =>
      simp only [State.step, Option.ite_none_right_eq_some] at hstep
      obtain ⟨-, hstep⟩ := hstep
      split at hstep
      · obtain rfl := Option.some.inj hstep
        exact ⟨h.nodup, h.bound, h.destroyed⟩
      · rename_i i m hread
        obtain rfl := Option.some.inj hstep
        exact h.infoRead hread

theorem new_counted : State.new.Counted := ⟨rfl, rfl⟩

theorem Counted.getUrl (h : s.Counted) (hstage : s.stage ≠ .acted) :
    ({ s.setMulti (s.curl.curlm_.add s.requests) with
        requests := s.requests + 1, added := s.added + 1 } : State).Counted := by
  have hlength : (s.curl.curlm_.running ++ [s.requests]).length = s.curl.curlm_.running.length + 1 :=
    List.length_append
  unfold Counted at h ⊢
  simp only [setMulti, Multi.add, hlength]
  cases hplace : s.stage with
  | idle =>
      rw [hplace] at h
      exact ⟨by omega, h.2⟩
  | acting callback =>
      rw [hplace] at h
      exact ⟨by omega, h.2⟩
  | acted => exact absurd hplace hstage
  | reading =>
      rw [hplace] at h
      exact ⟨by omega, h.2⟩

theorem Counted.destroy (h : s.Counted) {i : Nat} (hstage : s.stage = .idle ∨ s.stage = .reading) :
    ({ s.setMulti (s.curl.curlm_.remove i) with
        destroyed := s.destroyed ++ [i]
        removed := if i ∈ s.curl.curlm_.running then s.removed + 1 else s.removed } : State).Counted := by
  have hlength : (s.curl.curlm_.running.erase i).length +
      (if i ∈ s.curl.curlm_.running then s.removed + 1 else s.removed) =
      s.curl.curlm_.running.length + s.removed := by
    by_cases hi : i ∈ s.curl.curlm_.running
    · have hpos := List.length_pos_of_mem hi
      rw [if_pos hi, List.length_erase_of_mem hi]
      omega
    · rw [if_neg hi, List.erase_of_not_mem hi]
  unfold Counted at h ⊢
  simp only [setMulti, Multi.remove]
  rcases hstage with hplace | hplace
  · rw [hplace] at h ⊢
    exact ⟨hlength.trans h.1, h.2⟩
  · rw [hplace] at h ⊢
    refine ⟨hlength.trans h.1, fun j hj => ?_⟩
    rcases h.2 j hj with hmessage | hdone | hdestroyed
    · by_cases heq : j = i
      · exact Or.inr (Or.inr (List.mem_append_right _ (List.mem_singleton.mpr heq)))
      · exact Or.inl ((List.mem_erase_of_ne heq).mpr hmessage)
    · exact Or.inr (Or.inl hdone)
    · exact Or.inr (Or.inr (List.mem_append_left _ hdestroyed))

theorem Counted.finish (h : s.Counted) {callback : Callback} {i : Nat}
    (hstage : s.stage = .acting callback) (hi : i ∈ s.curl.curlm_.running) :
    ({ s.setMulti (s.curl.curlm_.finish i) with finished := s.finished ++ [i] } : State).Counted := by
  have hpos := List.length_pos_of_mem hi
  have hlength := List.length_erase_of_mem hi
  unfold Counted at h ⊢
  simp only [setMulti, Multi.finish, hstage, List.length_append, List.length_singleton] at h ⊢
  refine ⟨by omega, fun j hj => ?_⟩
  rcases List.mem_append.mp hj with hj | hj
  · exact List.mem_append_left _ (h.2 j hj)
  · exact List.mem_append_right _ hj

theorem Counted.actionReturns (h : s.Counted) {callback : Callback} (hstage : s.stage = .acting callback)
    (again : Bool) :
    ({ s with
        curl := { s.curl with runningHandles_ := s.curl.curlm_.running.length }
        stage := if again then .acting callback else .acted } : State).Counted := by
  unfold Counted at h ⊢
  rw [hstage] at h
  cases again with
  | false => exact ⟨h.1, h.2, rfl⟩
  | true => exact h

/-- The end of a `checkFinish`, when the window of the next socket action is up to date. -/
theorem counted_endCheck
    (h : s.curl.curlm_.running.length + s.removed = s.curl.runningHandles_ + s.added) :
    s.endCheck.Counted := ⟨h, rfl⟩

theorem Counted.infoRead (h : s.Counted) {i : Nat} {m : Multi} (hstage : s.stage = .reading)
    (hread : s.curl.curlm_.infoRead = some (i, m)) :
    ({ s.setMulti m with done := s.done ++ [i] } : State).Counted := by
  obtain ⟨hmessages, hrunning⟩ := Multi.infoRead_eq_some hread
  unfold Counted at h ⊢
  simp only [setMulti, hstage, hmessages] at h ⊢
  rw [hrunning]
  refine ⟨h.1, fun j hj => ?_⟩
  rcases h.2 j hj with hmessage | hdone | hdestroyed
  · rcases List.mem_cons.mp hmessage with rfl | hmessage
    · exact Or.inr (Or.inl (List.mem_append_right _ List.mem_cons_self))
    · exact Or.inl hmessage
  · exact Or.inr (Or.inl (List.mem_append_left _ hdone))
  · exact Or.inr (Or.inr hdestroyed)

theorem Counted.step (h : s.Counted) {e : Event} (hstep : s.step e = some s') : s'.Counted := by
  cases e with
  | getUrl =>
      simp only [State.step, Option.ite_none_right_eq_some, Option.some.injEq] at hstep
      obtain ⟨hstage, rfl⟩ := hstep
      exact h.getUrl hstage
  | destroy i =>
      simp only [State.step, Option.ite_none_right_eq_some, Option.some.injEq] at hstep
      obtain ⟨⟨hstage, -, -⟩, rfl⟩ := hstep
      exact h.destroy hstage
  | callback callback =>
      simp only [State.step, Option.ite_none_right_eq_some, Option.some.injEq] at hstep
      obtain ⟨hstage, rfl⟩ := hstep
      unfold Counted at h ⊢
      rw [hstage] at h
      -- no transfer is finished between callbacks
      obtain ⟨hcount, hfinished⟩ := h
      simp only [hfinished, List.length_nil, Nat.add_zero]
      exact ⟨hcount, by simp⟩
  | finish i =>
      simp only [State.step] at hstep
      split at hstep
      · rename_i hstage
        simp only [Option.ite_none_right_eq_some, Option.some.injEq] at hstep
        obtain ⟨hi, rfl⟩ := hstep
        exact h.finish hstage hi
      · cases hstep
  | actionReturns again =>
      simp only [State.step] at hstep
      split at hstep
      · rename_i hstage
        obtain rfl := Option.some.inj hstep
        exact h.actionReturns hstage again
      · cases hstep
  | checkFinish =>
      simp only [State.step, Option.ite_none_right_eq_some, Option.some.injEq] at hstep
      obtain ⟨hstage, rfl⟩ := hstep
      unfold Counted at h
      rw [hstage] at h
      split
      · -- fewer are running than before: `checkFinish` reads their messages
        exact ⟨h.2.2.symm, fun i hi => Or.inl (h.2.1 i hi)⟩
      · exact counted_endCheck h.2.2.symm
  | infoRead =>
      simp only [State.step, Option.ite_none_right_eq_some] at hstep
      obtain ⟨hstage, hstep⟩ := hstep
      split at hstep
      · obtain rfl := Option.some.inj hstep
        unfold Counted at h
        rw [hstage] at h
        exact counted_endCheck h.1
      · rename_i i m hread
        obtain rfl := Option.some.inj hstep
        exact h.infoRead hstage hread

/-! ## Reports -/

/-- Every `checkFinish` was complete. -/
def Reported (s : State) : Prop := ∀ c ∈ s.checks, c.Complete

instance (s : State) : Decidable s.Reported := inferInstanceAs (Decidable (∀ c ∈ s.checks, _))

/-- When `checkFinish` is called, fewer transfers have been added since the last socket action before it than
    have finished or been removed, or none is running, or none has finished. -/
def NotMasked (s : State) : Event → Prop
  | .checkFinish =>
    s.added < s.finished.length + s.removed ∨ s.curl.curlm_.running = [] ∨ s.finished = []
  | _ => True

instance (s : State) (e : Event) : Decidable (s.NotMasked e) := by
  unfold NotMasked
  split <;> infer_instance

theorem reported_endCheck :
    s.endCheck.Reported ↔ s.Reported ∧ (⟨s.finished, s.destroyed, s.done⟩ : Check).Complete := by
  unfold Reported endCheck
  simp only [List.forall_mem_append, List.forall_mem_singleton]

/-- `checkFinish` looks for messages exactly when the transfers that finished are not masked by those that
    were added, or none is running. -/
theorem Counted.looks_iff (h : s.Counted) (hstage : s.stage = .acted) :
    s.curl.looks = true ↔
      s.added < s.finished.length + s.removed ∨ s.curl.curlm_.running = [] := by
  unfold Counted at h
  rw [hstage] at h
  obtain ⟨hcount, -, hrunning⟩ := h
  simp only [Curl.looks, Bool.or_eq_true, decide_eq_true_eq, beq_iff_eq, gt_iff_lt, hrunning,
    List.length_eq_zero_iff]
  exact or_congr (by omega) Iff.rfl

theorem reported_step (hdistinct : s.Distinct) (hcounted : s.Counted) {e : Event}
    (hstep : s.step e = some s') : s'.Reported ↔ s.Reported ∧ s.NotMasked e := by
  cases e with
  | checkFinish =>
      simp only [State.step, Option.ite_none_right_eq_some, Option.some.injEq] at hstep
      obtain ⟨hstage, rfl⟩ := hstep
      have hlooks := hcounted.looks_iff hstage
      unfold Counted at hcounted
      rw [hstage] at hcounted
      by_cases hlook : s.curl.looks = true
      · rw [if_pos hlook]
        exact (and_iff_left ((or_assoc.mp (Or.inl (hlooks.mp hlook))))).symm
      · rw [if_neg hlook, reported_endCheck]
        refine and_congr Iff.rfl ?_
        have hnot := mt hlooks.mpr hlook
        rw [NotMasked, ← or_assoc, or_iff_right hnot]
        constructor
        · intro hcomplete
          -- what has finished has a message, so it has not been reported
          refine List.eq_nil_iff_forall_not_mem.mpr fun i hi => ?_
          have hmessage := hcounted.2.1 i hi
          have hexists : i ∉ s.destroyed := fun hmem => (hdistinct.destroyed i hmem).2.2 hmessage
          have hone := hcomplete i hi hexists
          rw [List.count_eq_zero.mpr (hdistinct.not_done hmessage)] at hone
          exact absurd hone (by decide)
        · intro hnone i hi
          simp only [hnone, List.not_mem_nil] at hi
  | infoRead =>
      simp only [State.step, Option.ite_none_right_eq_some] at hstep
      obtain ⟨hstage, hstep⟩ := hstep
      unfold Counted at hcounted
      rw [hstage] at hcounted
      split at hstep
      · rename_i hread
        obtain rfl := Option.some.inj hstep
        rw [reported_endCheck]
        refine and_congr Iff.rfl (iff_of_true (fun i hi hexists => ?_) trivial)
        rcases hcounted.2 i hi with hmessage | hdone | hdestroyed
        · rw [Multi.infoRead_eq_none hread] at hmessage
          exact absurd hmessage List.not_mem_nil
        · exact List.count_eq_one_of_mem hdistinct.done_nodup hdone
        · exact absurd hdestroyed hexists
      · obtain rfl := Option.some.inj hstep
        exact (and_iff_left trivial).symm
  | finish i =>
      simp only [State.step] at hstep
      split at hstep
      · simp only [Option.ite_none_right_eq_some, Option.some.injEq] at hstep
        obtain ⟨-, rfl⟩ := hstep
        exact (and_iff_left trivial).symm
      · cases hstep
  | actionReturns again =>
      simp only [State.step] at hstep
      split at hstep
      · obtain rfl := Option.some.inj hstep
        exact (and_iff_left trivial).symm
      · cases hstep
  | _ =>
      simp only [State.step, Option.ite_none_right_eq_some, Option.some.injEq] at hstep
      obtain ⟨-, rfl⟩ := hstep
      exact (and_iff_left trivial).symm

theorem reported_run {es : List Event} (hdistinct : s.Distinct) (hcounted : s.Counted)
    (hrun : machine.run s es = some s') : s'.Reported ↔ s.Reported ∧ machine.Along NotMasked s es := by
  induction es generalizing s with
  | nil =>
      obtain rfl := Option.some.inj hrun
      exact (and_iff_left trivial).symm
  | cons e es ih =>
      obtain ⟨t, hstep, hrest⟩ := Option.bind_eq_some_iff.mp hrun
      rw [Machine.along_cons hstep, ih (hdistinct.step hstep) (hcounted.step hstep) hrest,
        reported_step hdistinct hcounted hstep, and_assoc]

/-- **Finished transfers are reported.** Every `checkFinish` of a run is complete if and only if, at each,
    the transfers that finished are not masked by those that were added. -/
theorem transfers_reported_iff (es : List Event) (hrun : machine.run State.new es = some s) :
    s.Reported ↔ machine.Along NotMasked State.new es :=
  (reported_run new_distinct new_counted hrun).trans (and_iff_right (by intro _ h; cases h))

/-- One transfer finishes, and one has been added since. -/
def masking : List Event :=
  [.getUrl, .callback .onTimer, .actionReturns false, .checkFinish, .getUrl, .callback (.onRead 7),
    .finish 0, .actionReturns false, .checkFinish]

theorem transfers_masked :
    ¬ ∀ es s, machine.run State.new es = some s → s.Reported := by
  intro hclaim
  have hrun : ((machine.run State.new masking).map fun s => decide s.Reported) = some false := by
    decide
  obtain ⟨s, hs, hreported⟩ := Option.map_eq_some_iff.mp hrun
  exact of_decide_eq_false hreported (hclaim masking s hs)

/-- A transfer is added from the callback of another that has finished, and both are reported. -/
theorem transfers_reported_chain :
    ∃ s, machine.run State.new
      [.getUrl, .callback .onTimer, .actionReturns true, .actionReturns false, .checkFinish,
        .callback (.onRead 7), .finish 0, .actionReturns false, .checkFinish, .infoRead, .getUrl,
        .destroy 0, .infoRead, .callback (.onWrite 8), .finish 1, .actionReturns false, .checkFinish,
        .infoRead, .infoRead] = some s ∧ s.done = [0, 1] ∧ s.Reported := by
  have hrun : ((machine.run State.new
      [.getUrl, .callback .onTimer, .actionReturns true, .actionReturns false, .checkFinish,
        .callback (.onRead 7), .finish 0, .actionReturns false, .checkFinish, .infoRead, .getUrl,
        .destroy 0, .infoRead, .callback (.onWrite 8), .finish 1, .actionReturns false, .checkFinish,
        .infoRead, .infoRead]).map fun s => s.done) = some [0, 1] := by
    decide
  obtain ⟨s, hs, hdone⟩ := Option.map_eq_some_iff.mp hrun
  exact ⟨s, hs, hdone, (transfers_reported_iff _ hs).mpr (by decide)⟩

/-! ## Late, but not lost -/

/-- No request is destroyed while its transfer runs. -/
def LetsFinish (s : State) : Event → Prop
  | .destroy i => i ∉ s.curl.curlm_.running
  | _ => True

instance (s : State) (e : Event) : Decidable (s.LetsFinish e) := by
  unfold LetsFinish
  split <;> infer_instance

/-- **Each request is somewhere.** -/
def Covered (s : State) : Prop :=
  ∀ i < s.requests, i ∈ s.curl.curlm_.running ∨ i ∈ s.curl.curlm_.messages ∨ i ∈ s.done ∨ i ∈ s.destroyed

theorem Covered.step (h : s.Covered) {e : Event} (hstep : s.step e = some s') : s'.Covered := by
  cases e with
  | getUrl =>
      simp only [State.step, Option.ite_none_right_eq_some, Option.some.injEq] at hstep
      obtain ⟨-, rfl⟩ := hstep
      intro i hi
      rcases Nat.lt_succ_iff_lt_or_eq.mp hi with hi | rfl
      · rcases h i hi with hrunning | helse
        · exact .inl (List.mem_append_left _ hrunning)
        · exact .inr helse
      · exact .inl (List.mem_append_right _ (List.mem_singleton.mpr rfl))
  | destroy j =>
      simp only [State.step, Option.ite_none_right_eq_some, Option.some.injEq] at hstep
      obtain ⟨-, rfl⟩ := hstep
      intro i hi
      by_cases hij : i = j
      · exact .inr (.inr (.inr (List.mem_append_right _ (List.mem_singleton.mpr hij))))
      · rcases h i hi with hrunning | hmessage | hdone | hdestroyed
        · exact .inl ((List.mem_erase_of_ne hij).mpr hrunning)
        · exact .inr (.inl ((List.mem_erase_of_ne hij).mpr hmessage))
        · exact .inr (.inr (.inl hdone))
        · exact .inr (.inr (.inr (List.mem_append_left _ hdestroyed)))
  | finish j =>
      simp only [State.step] at hstep
      split at hstep
      · simp only [Option.ite_none_right_eq_some, Option.some.injEq] at hstep
        obtain ⟨-, rfl⟩ := hstep
        intro i hi
        by_cases hij : i = j
        · exact .inr (.inl (List.mem_append_right _ (List.mem_singleton.mpr hij)))
        · rcases h i hi with hrunning | hmessage | helse
          · exact .inl ((List.mem_erase_of_ne hij).mpr hrunning)
          · exact .inr (.inl (List.mem_append_left _ hmessage))
          · exact .inr (.inr helse)
      · cases hstep
  | actionReturns again =>
      simp only [State.step] at hstep
      split at hstep
      · obtain rfl := Option.some.inj hstep
        exact h
      · cases hstep
  | callback callback =>
      simp only [State.step, Option.ite_none_right_eq_some, Option.some.injEq] at hstep
      obtain ⟨-, rfl⟩ := hstep
      exact h
  | checkFinish =>
      simp only [State.step, Option.ite_none_right_eq_some, Option.some.injEq] at hstep
      obtain ⟨-, rfl⟩ := hstep
      split
      · exact h
      · exact h
  | infoRead =>
      simp only [State.step, Option.ite_none_right_eq_some] at hstep
      obtain ⟨-, hstep⟩ := hstep
      split at hstep
      · obtain rfl := Option.some.inj hstep
        exact h
      · rename_i j m hread
        obtain rfl := Option.some.inj hstep
        obtain ⟨hmessages, hrunning⟩ := Multi.infoRead_eq_some hread
        intro i hi
        rcases h i hi with hmem | hmem | hmem | hmem
        · exact .inl (hrunning ▸ hmem)
        · rw [hmessages] at hmem
          rcases List.mem_cons.mp hmem with rfl | hmem
          · exact .inr (.inr (.inl (List.mem_append_right _ (List.mem_singleton.mpr rfl))))
          · exact .inr (.inl hmem)
        · exact .inr (.inr (.inl (List.mem_append_left _ hmem)))
        · exact .inr (.inr (.inr hmem))

/-- **Nothing is left over.** Between two socket actions at least as many transfers run as the last one said,
    and if it said none, the messages have been read. -/
structure Settled (s : State) : Prop where
  atLeast : s.stage = .idle ∨ s.stage = .reading → s.curl.runningHandles_ ≤ s.curl.curlm_.running.length
  read : s.stage = .idle → s.curl.runningHandles_ = 0 → s.curl.curlm_.messages = []

theorem Settled.step (h : s.Settled) (hcounted : s.Counted) {e : Event} (hlets : s.LetsFinish e)
    (hstep : s.step e = some s') : s'.Settled := by
  cases e with
  | getUrl =>
      simp only [State.step, Option.ite_none_right_eq_some, Option.some.injEq] at hstep
      obtain ⟨-, rfl⟩ := hstep
      refine ⟨fun hstage => ?_, h.read⟩
      have hle := h.atLeast hstage
      have hgrown : (s.curl.curlm_.add s.requests).running.length = s.curl.curlm_.running.length + 1 :=
        List.length_append
      exact Nat.le_trans (Nat.le_succ_of_le hle) (Nat.le_of_eq hgrown.symm)
  | destroy i =>
      simp only [State.step, Option.ite_none_right_eq_some, Option.some.injEq] at hstep
      obtain ⟨-, rfl⟩ := hstep
      have hsame : (s.curl.curlm_.remove i).running = s.curl.curlm_.running := List.erase_of_not_mem hlets
      refine ⟨fun hstage => ?_, fun hstage hzero => ?_⟩
      · exact Nat.le_trans (h.atLeast hstage) (Nat.le_of_eq (congrArg List.length hsame.symm))
      · show s.curl.curlm_.messages.erase i = []
        rw [h.read hstage hzero]
        rfl
  | callback callback =>
      simp only [State.step, Option.ite_none_right_eq_some, Option.some.injEq] at hstep
      obtain ⟨-, rfl⟩ := hstep
      exact ⟨by simp, by simp⟩
  | finish i =>
      simp only [State.step] at hstep
      split at hstep
      · rename_i callback hstage
        simp only [Option.ite_none_right_eq_some, Option.some.injEq] at hstep
        obtain ⟨-, rfl⟩ := hstep
        exact ⟨by simp [setMulti, hstage], by simp [setMulti, hstage]⟩
      · cases hstep
  | actionReturns again =>
      simp only [State.step] at hstep
      split at hstep
      · obtain rfl := Option.some.inj hstep
        cases again with
        | true => exact ⟨by simp, by simp⟩
        | false => exact ⟨by simp, by simp⟩
      · cases hstep
  | checkFinish =>
      simp only [State.step, Option.ite_none_right_eq_some, Option.some.injEq] at hstep
      obtain ⟨hstage, rfl⟩ := hstep
      unfold Counted at hcounted
      rw [hstage] at hcounted
      have hle := Nat.le_of_eq hcounted.2.2
      split
      · exact ⟨fun _ => hle, by simp⟩
      · rename_i hlook
        -- it would have looked had none been running
        simp only [Curl.looks, Bool.or_eq_true, beq_iff_eq, not_or] at hlook
        exact ⟨fun _ => hle, fun _ hzero => absurd hzero hlook.2⟩
  | infoRead =>
      simp only [State.step, Option.ite_none_right_eq_some] at hstep
      obtain ⟨hstage, hstep⟩ := hstep
      have hle := h.atLeast (.inr hstage)
      split at hstep
      · rename_i hread
        obtain rfl := Option.some.inj hstep
        exact ⟨fun _ => hle, fun _ _ => Multi.infoRead_eq_none hread⟩
      · rename_i i m hread
        obtain rfl := Option.some.inj hstep
        obtain ⟨-, hrunning⟩ := Multi.infoRead_eq_some hread
        refine ⟨fun _ => ?_, fun hidle => ?_⟩
        · show s.curl.runningHandles_ ≤ m.running.length
          rw [hrunning]
          exact hle
        · exact absurd (hstage.symm.trans hidle) (by decide)

/-- What every run in which requests are let finish keeps. -/
structure Kept (s : State) : Prop where
  distinct : s.Distinct
  counted : s.Counted
  covered : s.Covered
  settled : s.Settled

theorem new_kept : State.new.Kept where
  distinct := new_distinct
  counted := new_counted
  covered := by intro i hi; exact absurd hi (Nat.not_lt_zero i)
  settled := ⟨fun _ => Nat.le_refl 0, fun _ _ => rfl⟩

theorem Kept.step (h : s.Kept) {e : Event} (hlets : s.LetsFinish e) (hstep : s.step e = some s') :
    s'.Kept where
  distinct := h.distinct.step hstep
  counted := h.counted.step hstep
  covered := h.covered.step hstep
  settled := h.settled.step h.counted hlets hstep

/-- When no transfer runs, each request has been reported, or destroyed. -/
theorem Kept.reported (h : s.Kept) (hidle : s.stage = .idle) (hnone : s.curl.curlm_.running = [])
    {i : Nat} (hi : i < s.requests) : i ∈ s.done ∨ i ∈ s.destroyed := by
  have hzero : s.curl.runningHandles_ = 0 := by
    have hle := h.settled.atLeast (.inl hidle)
    rw [hnone] at hle
    exact Nat.le_zero.mp hle
  rcases h.covered i hi with hrunning | hmessage | helse
  · rw [hnone] at hrunning
    exact absurd hrunning List.not_mem_nil
  · rw [h.settled.read hidle hzero] at hmessage
    exact absurd hmessage List.not_mem_nil
  · exact helse

/-- **A masked transfer is reported late, not lost.** In every run in which no request is destroyed while its
    transfer runs: whenever the thread waits for events and no transfer is running, `done` has been
    called once for each request that still exists. -/
theorem reported_once_none_runs (h : machine.ReachableVia LetsFinish s) (hidle : s.stage = .idle)
    (hnone : s.curl.curlm_.running = []) : ∀ i < s.requests, i ∉ s.destroyed → s.done.count i = 1 := by
  have hkept : s.Kept := by
    refine h.invariant (I := Kept) ?_ ?_
    · rintro s rfl
      exact new_kept
    · intro s e s' _ hs hlets hstep
      exact hs.step hlets hstep
  intro i hi hexists
  rcases hkept.reported hidle hnone hi with hdone | hdestroyed
  · exact List.count_eq_one_of_mem hkept.distinct.done_nodup hdone
  · exact absurd hdestroyed hexists

/-- The transfer that `masking` leaves unreported is reported with the one that masked it. -/
def unmasking : List Event :=
  masking ++ [.callback (.onWrite 8), .finish 1, .actionReturns false, .checkFinish, .infoRead, .infoRead,
    .infoRead]

theorem reported_once_none_runs_unmasking :
    ∃ s, machine.run State.new unmasking = some s ∧ ¬ s.Reported ∧ s.done.count 0 = 1 ∧
      s.done.count 1 = 1 := by
  have hrun : ((machine.run State.new unmasking).map fun s =>
      (s.requests, s.destroyed, s.stage, s.curl.curlm_.running, decide s.Reported)) =
        some (2, [], .idle, [], false) := by
    decide
  obtain ⟨s, hs, hvalues⟩ := Option.map_eq_some_iff.mp hrun
  simp only [Prod.mk.injEq, decide_eq_false_iff_not] at hvalues
  obtain ⟨hrequests, hdestroyed, hidle, hnone, hreported⟩ := hvalues
  have hinit : machine.ReachableVia LetsFinish State.new := .init rfl
  have hreach := Machine.run_reachableVia hinit (by decide) hs
  have hreports := reported_once_none_runs hreach hidle hnone
  rw [hrequests, hdestroyed] at hreports
  exact ⟨s, hs, hreported, hreports 0 (by decide) List.not_mem_nil,
    hreports 1 (by decide) List.not_mem_nil⟩

end State

end CurlRun

end Simplev
