import Mathlib.Algebra.Group.Nat.Defs
import Simplev.Foundation.History
import Simplev.Net.Dialer

/-!
# `Net.Correctness.Backoff` — how long a connector waits (`Connector::retry`)

Each retry waits twice as long as the one before it, up to `kMaxRetryDelayMs`; `restart()` begins again at
`kInitRetryDelayMs`, and nothing else does: a `stop()` and a later `start()` go on where the last
retry left off. `retryMachine` records the delays that `retry` has given to `runAfter` since the last
restart, and `retries_back_off` says what they are.
-/

namespace Simplev

open Foundation

namespace Connector

/-- The delay of the `k`-th retry in a row, counted from 0. -/
def backoff (k : Nat) : Nat := min (kInitRetryDelayMs * 2 ^ k) kMaxRetryDelayMs

theorem backoff_zero : backoff 0 = kInitRetryDelayMs := rfl

theorem backoff_succ (k : Nat) : backoff (k + 1) = min (backoff k * 2) kMaxRetryDelayMs := by
  unfold backoff
  rw [Nat.pow_succ, ← Nat.mul_assoc]
  generalize kInitRetryDelayMs * 2 ^ k = delay
  unfold kMaxRetryDelayMs
  omega

/-- The delay of a timer that is started. -/
def delayOf : Action → Option Nat
  | .runAfter _ delayMs => some delayMs
  | _ => none

def delays (actions : List Action) : List Nat := actions.filterMap delayOf

/-- A member function that finds the delay at `before` leaves it, or starts one timer with it and doubles
    it. -/
def Paces (before after : Nat) (ds : List Nat) : Prop :=
  after = before ∧ ds = [] ∨ after = min (before * 2) kMaxRetryDelayMs ∧ ds = [before]

variable {c c' : Connector} {u : Fresh} {savedErrno : SavedErrno} {writable : Bool}
  {actions : List Action} {fs : List String}

theorem delays_destroyed {destroyed : List Action} {gs : List String}
    (h : c.destroyChannel = .ok destroyed gs) : delays destroyed = [] := by
  unfold destroyChannel at h
  cases hchannel : c.channel_ with
  | none =>
      simp only [hchannel, Outcome.pure_eq, Outcome.ok.injEq] at h
      rw [← h.1]
      rfl
  | some channel =>
      simp only [hchannel] at h
      obtain ⟨gs', hret, -⟩ := Outcome.assert_bind_eq_ok h
      simp only [Outcome.pure_eq, Outcome.ok.injEq] at hret
      rw [← hret.1]
      rfl

theorem Launches.paces (h : Launches c u savedErrno c' actions fs) :
    Paces c.retryDelayMs_ c'.retryDelayMs_ (delays actions) := by
  cases h with
  | declined _ => exact .inl ⟨rfl, rfl⟩
  | began _ _ old =>
      refine .inl ⟨rfl, ?_⟩
      show delays (_ ++ [_]) = []
      rw [delays, List.filterMap_append]
      exact congrArg (· ++ _) (delays_destroyed old)
  | retried _ _ => exact .inr ⟨rfl, rfl⟩
  | gaveUp _ _ _ => exact .inl ⟨rfl, rfl⟩

theorem Ends.paces (h : Ends c u writable c' actions fs) :
    Paces c.retryDelayMs_ c'.retryDelayMs_ (delays actions) := by
  cases h with
  | ignored _ _ => exact .inl ⟨rfl, rfl⟩
  | retried _ _ _ => exact .inr ⟨rfl, rfl⟩
  | dropped _ _ _ => exact .inl ⟨rfl, rfl⟩
  | handedOver _ _ _ _ => exact .inl ⟨rfl, rfl⟩
  | cancelled _ _ _ _ => exact .inl ⟨rfl, rfl⟩

theorem Functor.paces {f : Functor} (h : f.run c u savedErrno = .ok (c', actions) fs) :
    Paces c.retryDelayMs_ c'.retryDelayMs_ (delays actions) := by
  cases f with
  | startInLoop => exact (startInLoop_launches h).paces
  | stopInLoop => exact (stopInLoop_ends h).paces
  | resetChannel sockfd =>
      obtain ⟨destroyed, gs, heq, hold⟩ := resetChannel_eq (c := c)
      rw [Functor.run, heq, Outcome.ok.injEq, Prod.mk.injEq] at h
      obtain ⟨⟨rfl, rfl⟩, -⟩ := h
      exact .inl ⟨rfl, delays_destroyed hold⟩
  | cancelInLoop sequence =>
      simp only [Functor.run, Outcome.pure_eq, Outcome.ok.injEq, Prod.mk.injEq] at h
      obtain ⟨⟨rfl, rfl⟩, -⟩ := h
      exact .inl ⟨rfl, rfl⟩

end Connector

namespace Dialer

open Connector

variable {s s' s₁ : Dialer} {e : Event} {c : Connector} {actions : List Action} {fs : List String}

/-- The connector is restarted. -/
def Event.restarts : Event → Bool
  | .handleClose _ restart _ => restart
  | _ => false

/-- The delays of the timers that a step starts. -/
def delaysOf (s : Dialer) (e : Event) : List Nat :=
  match s.begin e with
  | some (_, .ok (_, actions) _) => delays actions
  | _ => []

/-- The delay that the member function of an event finds. -/
def delayBefore (s : Dialer) (e : Event) : Nat :=
  if e.restarts then kInitRetryDelayMs else s.connector.retryDelayMs_

theorem begin_paces (h : s.begin e = some (s₁, .ok (c, actions) fs)) :
    Paces (s.delayBefore e) c.retryDelayMs_ (delays actions) := by
  cases e with
  | start caller savedErrno =>
      simp only [begin, Option.ite_none_right_eq_some, Option.some.injEq, Prod.mk.injEq] at h
      obtain ⟨-, -, hrun⟩ := h
      cases caller with
      | loop => exact (startInLoop_launches hrun).paces
      | other id =>
          simp only [Connector.start, Outcome.pure_eq, Outcome.ok.injEq, Prod.mk.injEq] at hrun
          obtain ⟨⟨rfl, rfl⟩, -⟩ := hrun
          exact .inl ⟨rfl, rfl⟩
  | stop caller =>
      simp only [begin, Option.ite_none_right_eq_some, Option.some.injEq, Prod.mk.injEq,
        Outcome.pure_eq, Outcome.ok.injEq] at h
      obtain ⟨-, -, hrun, -⟩ := h
      cases caller with
      | loop =>
          obtain ⟨rfl, rfl⟩ := Prod.mk.inj hrun
          exact .inl ⟨rfl, rfl⟩
      | other id =>
          obtain ⟨rfl, rfl⟩ := Prod.mk.inj hrun
          exact .inl ⟨rfl, rfl⟩
  | runFunctor savedErrno =>
      simp only [begin, Option.ite_none_right_eq_some] at h
      obtain ⟨-, h⟩ := h
      split at h
      · rename_i f loop hnext
        simp only [Option.some.injEq, Prod.mk.injEq] at h
        exact Functor.paces h.2
      · simp only [Option.some.injEq, Prod.mk.injEq, Outcome.pure_eq, Outcome.ok.injEq] at h
        obtain ⟨-, ⟨rfl, rfl⟩, -⟩ := h
        exact .inl ⟨rfl, rfl⟩
      · exact absurd h (by simp)
  | expire sequence savedErrno =>
      simp only [begin, Option.ite_none_right_eq_some, Option.some.injEq, Prod.mk.injEq] at h
      exact (startInLoop_launches h.2.2).paces
  | runCallback probe =>
      simp only [begin] at h
      split at h
      · rename_i cb rest hphase
        simp only [Option.ite_none_right_eq_some, Option.some.injEq, Prod.mk.injEq] at h
        obtain ⟨-, -, hrun⟩ := h
        cases cb with
        | errorCallback => exact (handleError_ends hrun).paces
        | readCallback =>
            simp only [Connector.handleEvent, Outcome.pure_eq, Outcome.ok.injEq, Prod.mk.injEq] at hrun
            obtain ⟨⟨rfl, rfl⟩, -⟩ := hrun
            exact .inl ⟨rfl, rfl⟩
        | writeCallback => exact (handleWrite_ends hrun).paces
      · exact absurd h (by simp)
  | handleClose sockfd restart savedErrno =>
      simp only [begin, Option.ite_none_right_eq_some, Option.some.injEq, Prod.mk.injEq] at h
      obtain ⟨-, -, hrun⟩ := h
      cases restart with
      | true =>
          -- `restart` sets the delay before it runs `startInLoop`
          have hpaces := (startInLoop_launches (c := { s.connector with
            state_ := .kDisconnected
            retryDelayMs_ := kInitRetryDelayMs
            connect_ := true }) hrun).paces
          exact hpaces
      | false =>
          simp only [Bool.false_eq_true, if_false, Outcome.pure_eq, Outcome.ok.injEq,
            Prod.mk.injEq] at hrun
          obtain ⟨⟨rfl, rfl⟩, -⟩ := hrun
          exact .inl ⟨rfl, rfl⟩
  | _ =>
      -- the loop moves, and no member function runs
      simp only [begin, Option.ite_none_right_eq_some, Option.some.injEq, Prod.mk.injEq,
        Outcome.pure_eq, Outcome.ok.injEq] at h
      obtain ⟨-, -, ⟨rfl, rfl⟩, -⟩ := h
      exact .inl ⟨rfl, rfl⟩

/-- The delays since the last restart, after an event. -/
def noteDelays (s : Dialer) (e : Event) (ds : List Nat) : List Nat :=
  (if e.restarts then [] else ds) ++ s.delaysOf e

/-- **The invariant**: the delays are those of the schedule, and the next one is the one to come. -/
structure Scheduled (s : Dialer) (ds : List Nat) : Prop where
  delays : ds = (List.range ds.length).map backoff
  next : s.connector.retryDelayMs_ = backoff ds.length

/-- A member function that finds the schedule after `ds`. -/
theorem scheduled_paces {before : Nat} {ds more : List Nat} (hds : ds = (List.range ds.length).map backoff)
    (hbefore : before = backoff ds.length) (h : Paces before s'.connector.retryDelayMs_ more) :
    Scheduled s' (ds ++ more) := by
  rcases h with ⟨hafter, rfl⟩ | ⟨hafter, rfl⟩
  · rw [List.append_nil]
    exact ⟨hds, hafter.trans hbefore⟩
  · have hlength : (ds ++ [before]).length = ds.length + 1 := List.length_append
    refine ⟨?_, ?_⟩
    · rw [hlength, List.range_succ, List.map_append, ← hds, hbefore]
      rfl
    · rw [hafter, hlength, backoff_succ, hbefore]

theorem Scheduled.step {ds : List Nat} (h : Scheduled s ds) (hstep : s.step e = some s') :
    Scheduled s' (s.noteDelays e ds) := by
  unfold Dialer.step at hstep
  by_cases hcrashed : s.crashed = true
  · simp [hcrashed] at hstep
  · rw [if_neg hcrashed] at hstep
    unfold noteDelays delaysOf
    split at hstep
    · rename_i s₁ c actions fs hbegin
      obtain rfl := Option.some.inj hstep
      have hpaces := begin_paces hbegin
      rw [hbegin]
      unfold delayBefore at hpaces
      by_cases hrestarts : e.restarts = true
      · rw [if_pos hrestarts] at hpaces ⊢
        show Scheduled (s₁.after c actions fs) _
        exact scheduled_paces rfl backoff_zero.symm hpaces
      · rw [if_neg hrestarts] at hpaces ⊢
        show Scheduled (s₁.after c actions fs) _
        exact scheduled_paces h.delays h.next hpaces
    · rename_i s₁ what hbegin
      obtain rfl := Option.some.inj hstep
      -- what uses a null `channel_` is no restart, and has started no timer
      have hrestarts : e.restarts = false := by
        cases e with
        | handleClose sockfd restart savedErrno =>
            simp only [begin, Option.ite_none_right_eq_some, Option.some.injEq, Prod.mk.injEq] at hbegin
            cases restart with
            | true => exact absurd hbegin.2.2 (startInLoop_ne_thrown what)
            | false => rfl
        | _ => rfl
      rw [hbegin, hrestarts]
      simp only [Bool.false_eq_true, if_false, List.append_nil]
      exact ⟨h.delays, h.next⟩
    · exact absurd hstep (by simp)

/-- All runs of a connector, with the delays of its retries since the last restart. -/
def retryMachine : Machine (Dialer × List Nat) Event := dialerMachine.recording [] noteDelays

/-- **Retries back off.** In every run of a connector, whatever its attempts come to and whoever calls
    `start()`, `stop()` and `restart()` in between: since the last restart the `k`-th retry has waited
    `500 * 2 ^ k` milliseconds, 30 seconds at most, and the next one will. -/
theorem retries_back_off {ds : List Nat} (h : retryMachine.Reachable (s, ds)) :
    ds = (List.range ds.length).map backoff ∧ s.connector.retryDelayMs_ = backoff ds.length := by
  have hscheduled : Scheduled s ds := by
    refine h.invariant (I := fun s => Scheduled s.1 s.2) ?_ ?_
    · rintro ⟨s, ds⟩ ⟨hs, hds⟩
      obtain rfl : s = Dialer.new := hs
      obtain rfl : ds = [] := hds
      exact ⟨rfl, rfl⟩
    · rintro ⟨s, ds⟩ e ⟨s', ds'⟩ - hs - hmove
      obtain ⟨hstep, rfl⟩ := Machine.recording_step hmove
      exact Scheduled.step hs hstep
  exact ⟨hscheduled.delays, hscheduled.next⟩

/-- Three attempts in a row are refused. -/
def refusedThrice : List Event :=
  [.start .loop .ECONNREFUSED, .doPendingFunctors, .endFunctors, .expire 1 .ECONNREFUSED,
   .doPendingFunctors, .endFunctors, .expire 2 .ECONNREFUSED]

theorem retries_back_off_refusedThrice :
    ∃ s ds, retryMachine.run (Dialer.new, []) refusedThrice = some (s, ds) ∧ ds = [500, 1000, 2000] ∧
      s.connector.retryDelayMs_ = 4000 := by
  have hrun : (dialerMachine.run Dialer.new refusedThrice).isSome = true := by decide +kernel
  obtain ⟨s, hs⟩ := Option.isSome_iff_exists.mp hrun
  obtain ⟨ds, hrec⟩ : ∃ ds, retryMachine.run (Dialer.new, []) refusedThrice = some (s, ds) :=
    Machine.run_recording hs []
  have hlength : (retryMachine.run (Dialer.new, []) refusedThrice).map (·.2.length) = some 3 := by
    decide +kernel
  have hthree : ds.length = 3 := by
    rw [hrec] at hlength
    exact Option.some.inj hlength
  have hinit : retryMachine.init (Dialer.new, []) := ⟨rfl, rfl⟩
  have hreach := Machine.run_reachable hinit hrec
  obtain ⟨hdelays, hnext⟩ := retries_back_off hreach
  rw [hthree] at hdelays hnext
  exact ⟨s, ds, hrec, hdelays, hnext⟩

end Dialer

end Simplev
