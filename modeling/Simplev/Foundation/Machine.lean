import Mathlib.Data.Option.Basic
import Mathlib.Logic.Basic

/-!
# `Foundation.Machine` — guarded transition systems, their runs and their invariants

A machine is a set of initial states and one executable step: `step s e` is `some s'` when the event
`e` can happen in `s`, `none` when it cannot. Nondeterminism (which thread moves, what a system call
returns) is carried by the event, so one definition serves replay of a concrete run, and proof over
all of them.

## Contents
- **Runs.** `run` replays a list of events, and `Along C` says that its every step meets the condition
  `C`; `ReachableVia C` are the states of such runs, and `Reachable` those of all runs. `trail` lists
  the states a replay goes through.
- **Invariants.** `ReachableVia.invariant` is the one induction over runs of this development: an
  initial fact that every allowed step preserves holds in every state. Its step obligation gets the
  reachability of the source state, so invariants already proved can be used in later ones.
  `forall_prefix_iff_along` is the exact form: a property of all states of a run is a condition on its
  steps. `run_iff_scheduled` is that for a condition on the order of the events alone (`Scheduled`).
- **Refinement.** `Refines` is a forward simulation between two machines over the same events, and
  `Refines.run` lifts it to whole runs.
-/

namespace Foundation

universe u v w

/-- A guarded transition system over states `σ` and events `ε`. -/
structure Machine (σ : Type u) (ε : Type v) where
  init : σ → Prop
  step : σ → ε → Option σ

namespace Machine

variable {σ : Type u} {ε : Type v} (M : Machine σ ε)

/-! ## Runs -/

/-- Replay events from `s`; `none` as soon as one of them is not enabled. -/
def run : σ → List ε → Option σ
  | s, [] => some s
  | s, e :: es => (M.step s e).bind fun s' => run s' es

/-- The states reached by runs all of whose steps meet `C`. -/
inductive ReachableVia (C : σ → ε → Prop) : σ → Prop
  | init {s : σ} : M.init s → ReachableVia C s
  | step {s s' : σ} {e : ε} : ReachableVia C s → C s e → M.step s e = some s' → ReachableVia C s'

/-- The states reached by any run. -/
abbrev Reachable : σ → Prop := M.ReachableVia fun _ _ => True

variable {M}

/-- **The invariant rule.** What holds initially and is preserved by every allowed step out of an
    allowed state holds in every state that allowed runs reach. -/
theorem ReachableVia.invariant {C : σ → ε → Prop} {I : σ → Prop}
    (hinit : ∀ s, M.init s → I s)
    (hstep : ∀ s e s', M.ReachableVia C s → I s → C s e → M.step s e = some s' → I s')
    {s : σ} (h : M.ReachableVia C s) : I s := by
  induction h with
  | init h0 => exact hinit _ h0
  | step hr hc he ih => exact hstep _ _ _ hr ih hc he

/-- A weaker condition on the steps allows more runs. -/
theorem ReachableVia.mono {C D : σ → ε → Prop} (hCD : ∀ s e, C s e → D s e) {s : σ}
    (h : M.ReachableVia C s) : M.ReachableVia D s := by
  induction h with
  | init h0 => exact .init h0
  | step _ hc he ih => exact .step ih (hCD _ _ hc) he

/-- Every step of the replay of `es` from `s` meets `C`. -/
def Along (C : σ → ε → Prop) : σ → List ε → Prop
  | _, [] => True
  | s, e :: es =>
    C s e ∧ match M.step s e with
      | some s' => Along C s' es
      | none => True

instance Along.decidable (C : σ → ε → Prop) [∀ s e, Decidable (C s e)] :
    (s : σ) → (es : List ε) → Decidable (M.Along C s es)
  | _, [] => inferInstanceAs (Decidable True)
  | s, e :: es => by
      unfold Along
      cases M.step s e with
      | none => infer_instance
      | some s' =>
          have := Along.decidable C s' es
          infer_instance

theorem along_cons {C : σ → ε → Prop} {s s' : σ} {e : ε} {es : List ε}
    (h : M.step s e = some s') : M.Along C s (e :: es) ↔ C s e ∧ M.Along C s' es := by
  rw [Along, h]

theorem Along.head {C : σ → ε → Prop} {s : σ} {e : ε} {es : List ε} (h : M.Along C s (e :: es)) :
    C s e := h.1

/-- A condition on the events alone is met along a replay of such events. -/
theorem along_of_forall {P : ε → Prop} (s : σ) {es : List ε} (h : ∀ e ∈ es, P e) :
    M.Along (fun _ e => P e) s es := by
  induction es generalizing s with
  | nil => trivial
  | cons e es ih =>
      obtain ⟨he, hes⟩ := List.forall_mem_cons.mp h
      unfold Along
      cases M.step s e with
      | none => exact ⟨he, trivial⟩
      | some s' => exact ⟨he, ih s' hes⟩

theorem along_true (s : σ) (es : List ε) : M.Along (fun _ _ => True) s es :=
  along_of_forall s fun _ _ => trivial

/-- A replayed run of allowed steps stays among the states such runs reach. -/
theorem run_reachableVia {C : σ → ε → Prop} {s s' : σ} {es : List ε} (hs : M.ReachableVia C s)
    (hC : M.Along C s es) (h : M.run s es = some s') : M.ReachableVia C s' := by
  induction es generalizing s with
  | nil =>
      simp only [run, Option.some.injEq] at h
      exact h ▸ hs
  | cons e es ih =>
      rw [run, Option.bind_eq_some_iff] at h
      obtain ⟨t, hst, hrest⟩ := h
      obtain ⟨hce, hes⟩ := (along_cons hst).mp hC
      exact ih (.step hs hce hst) hes hrest

/-- The last state of a replayed run from an initial state is reachable. -/
theorem run_reachable {s s' : σ} {es : List ε} (h0 : M.init s) (h : M.run s es = some s') :
    M.Reachable s' :=
  run_reachableVia (.init h0) (along_true s es) h

/-- A weaker condition is met along the same replay. -/
theorem Along.mono {C D : σ → ε → Prop} (hCD : ∀ s e, C s e → D s e) {s : σ} {es : List ε}
    (h : M.Along C s es) : M.Along D s es := by
  induction es generalizing s with
  | nil => trivial
  | cons e es ih =>
      unfold Along at h ⊢
      refine ⟨hCD _ _ h.1, ?_⟩
      cases hstep : M.step s e with
      | none => trivial
      | some s' =>
          rw [hstep] at h
          exact ih h.2

/-- Replay keeps what every step of it preserves. -/
theorem Along.invariant {C : σ → ε → Prop} {I : σ → Prop}
    (hstep : ∀ s e s', I s → C s e → M.step s e = some s' → I s') {s s' : σ} {es : List ε} (hs : I s)
    (hC : M.Along C s es) (h : M.run s es = some s') : I s' := by
  induction es generalizing s with
  | nil =>
      simp only [run, Option.some.injEq] at h
      exact h ▸ hs
  | cons e es ih =>
      rw [run, Option.bind_eq_some_iff] at h
      obtain ⟨t, hst, hrest⟩ := h
      obtain ⟨hce, hes⟩ := (along_cons hst).mp hC
      exact ih (hstep _ _ _ hs hce hst) hes hrest

/-- **The exact condition of a run.** Where each step keeps `G` just when it meets `C`, every state of a
    run has `G` just when every step of it meets `C`. `I` is what is known of the states, and `D` of the
    steps, in any case. -/
theorem forall_prefix_iff_along {C D : σ → ε → Prop} {I G : σ → Prop}
    (hinv : ∀ s e s', I s → D s e → M.step s e = some s' → I s')
    (hstep : ∀ s e s', I s → D s e → G s → M.step s e = some s' → (G s' ↔ C s e))
    {s s' : σ} {es : List ε} (hI : I s) (hD : M.Along D s es) (hG : G s) (hrun : M.run s es = some s') :
    (∀ es₁ mid, es₁ <+: es → M.run s es₁ = some mid → G mid) ↔ M.Along C s es := by
  induction es generalizing s with
  | nil =>
      refine ⟨fun _ => trivial, fun _ es₁ mid hfront hmid => ?_⟩
      rw [List.prefix_nil.mp hfront, run, Option.some.injEq] at hmid
      exact hmid ▸ hG
  | cons e es ih =>
      rw [run, Option.bind_eq_some_iff] at hrun
      obtain ⟨t, hst, hrest⟩ := hrun
      obtain ⟨hde, hes⟩ := (along_cons hst).mp hD
      have hfirst := hstep s e t hI hde hG hst
      have hlater := ih (hinv s e t hI hde hst) hes
      rw [along_cons hst]
      constructor
      · intro hall
        -- the state behind the first step is one of the run, so that step meets the condition
        have ht : G t := hall [e] t ⟨es, rfl⟩ (by rw [run, hst]; rfl)
        refine ⟨hfirst.mp ht, (hlater ht hrest).mp fun es₁ mid hfront hmid => ?_⟩
        exact hall (e :: es₁) mid (List.cons_prefix_cons.mpr ⟨rfl, hfront⟩) (by rw [run, hst]; exact hmid)
      · rintro ⟨hce, hmet⟩ es₁ mid hfront hmid
        cases es₁ with
        | nil =>
            rw [run, Option.some.injEq] at hmid
            exact hmid ▸ hG
        | cons e₁ es₁ =>
            obtain ⟨rfl, hrear⟩ := List.cons_prefix_cons.mp hfront
            rw [run, hst] at hmid
            exact (hlater (hfirst.mpr hce) hrest).mpr hmet es₁ mid hrear hmid

/-! ## Conditions on the order of events -/

/-- Each of these events meets `C` with those before it. -/
def Scheduled (C : List ε → ε → Prop) : List ε → List ε → Prop
  | _, [] => True
  | before, e :: es => C before e ∧ Scheduled C (before ++ [e]) es

instance Scheduled.decidable (C : List ε → ε → Prop) [∀ before e, Decidable (C before e)] :
    (before es : List ε) → Decidable (Scheduled C before es)
  | _, [] => inferInstanceAs (Decidable True)
  | before, e :: es =>
    have := Scheduled.decidable C (before ++ [e]) es
    inferInstanceAs (Decidable (C before e ∧ Scheduled C (before ++ [e]) es))

theorem scheduled_iff {C : List ε → ε → Prop} {before es : List ε} :
    Scheduled C before es ↔ ∀ early e late, es = early ++ e :: late → C (before ++ early) e := by
  induction es generalizing before with
  | nil => simp [Scheduled]
  | cons first es ih =>
      rw [Scheduled, ih]
      constructor
      · rintro ⟨hfirst, hrest⟩ early e late heq
        cases early with
        | nil =>
            obtain ⟨rfl, -⟩ := List.cons.inj heq
            rw [List.append_nil]
            exact hfirst
        | cons x early =>
            obtain ⟨rfl, htail⟩ := List.cons.inj heq
            rw [List.append_cons]
            exact hrest early e late htail
      · intro hall
        refine ⟨?_, fun early e late heq => ?_⟩
        · rw [← List.append_nil before]
          exact hall [] first es rfl
        · rw [← List.append_cons]
          exact hall (first :: early) e late (congrArg (first :: ·) heq)

/-- **The exact condition of a schedule.** Where each step keeps `G` just when its event meets `C` with
    those before it, and nothing happens once `G` is lost, a run ends with `G` just when all its events
    do. `I` is what is known, in any case, of a state and the events that led to it. -/
theorem run_iff_scheduled {C : List ε → ε → Prop} {I : List ε → σ → Prop} {G : σ → Prop}
    (hinv : ∀ before s e s', I before s → M.step s e = some s' → I (before ++ [e]) s')
    (hstep : ∀ before s e s', I before s → G s → M.step s e = some s' → (G s' ↔ C before e))
    (hstuck : ∀ s e, ¬ G s → M.step s e = none) {before es : List ε} {s s' : σ}
    (hI : I before s) (hG : G s) (hrun : M.run s es = some s') :
    I (before ++ es) s' ∧ (G s' ↔ Scheduled C before es) := by
  induction es generalizing before s with
  | nil =>
      obtain rfl := Option.some.inj hrun
      rw [List.append_nil]
      exact ⟨hI, iff_of_true hG trivial⟩
  | cons e es ih =>
      obtain ⟨t, hst, hrest⟩ := Option.bind_eq_some_iff.mp hrun
      have hfirst := hstep before s e t hI hG hst
      have ht := hinv before s e t hI hst
      rw [Scheduled, ← hfirst, List.append_cons]
      by_cases hgood : G t
      · obtain ⟨hlast, hiff⟩ := ih ht hgood hrest
        exact ⟨hlast, hiff.trans (and_iff_right hgood).symm⟩
      · -- so this was the last step
        cases es with
        | nil =>
            obtain rfl := Option.some.inj hrest
            rw [List.append_nil]
            exact ⟨ht, iff_of_false hgood fun hall => hgood hall.1⟩
        | cons e' es =>
            obtain ⟨u, hst', -⟩ := Option.bind_eq_some_iff.mp hrest
            rw [hstuck t e' hgood] at hst'
            cases hst'

/-! ## The states on the way -/

variable (M) in
/-- The states a replay goes through, from the first to the last. -/
def trail : σ → List ε → List σ
  | s, [] => [s]
  | s, e :: es =>
    s :: match M.step s e with
      | some s' => trail s' es
      | none => []

theorem trail_cons {s s' : σ} {e : ε} {es : List ε} (h : M.step s e = some s') :
    M.trail s (e :: es) = s :: M.trail s' es := by
  rw [trail, h]

theorem trail_head (s : σ) (es : List ε) : ∃ rest, M.trail s es = s :: rest := by
  cases es with
  | nil => exact ⟨[], rfl⟩
  | cons e es => exact ⟨_, rfl⟩

/-- A state on the way is the last one of a shorter replay. -/
theorem trail_split {s s' x : σ} {es : List ε} {early late : List σ} (hrun : M.run s es = some s')
    (h : M.trail s es = early ++ x :: late) :
    ∃ es₁ es₂, es = es₁ ++ es₂ ∧ M.run s es₁ = some x ∧ M.trail s es₁ = early ++ [x] := by
  induction es generalizing s early with
  | nil =>
      cases early with
      | nil =>
          obtain ⟨rfl, _⟩ := List.cons.inj h
          exact ⟨[], [], rfl, rfl, rfl⟩
      | cons y early => simp [trail] at h
  | cons e es ih =>
      rw [run, Option.bind_eq_some_iff] at hrun
      obtain ⟨t, hst, hrest⟩ := hrun
      rw [trail_cons hst] at h
      cases early with
      | nil =>
          obtain ⟨rfl, _⟩ := List.cons.inj h
          exact ⟨[], e :: es, rfl, rfl, rfl⟩
      | cons y early =>
          obtain ⟨rfl, hlater⟩ := List.cons.inj h
          obtain ⟨es₁, es₂, rfl, hrun₁, htrail₁⟩ := ih hrest hlater
          refine ⟨e :: es₁, es₂, rfl, ?_, ?_⟩
          · rw [run, hst]
            exact hrun₁
          · rw [trail_cons hst, htrail₁]
            rfl

/-! ## Refinement -/

variable {τ : Type w}

/-- **Forward simulation** of `A` by `M` over the same events: related states step to related
    states. -/
structure Refines (M : Machine σ ε) (A : Machine τ ε) (R : σ → τ → Prop) : Prop where
  step : ∀ s a e s', R s a → M.step s e = some s' → ∃ a', A.step a e = some a' ∧ R s' a'

/-- A simulation lifts to runs: every run of the refining machine is a run of the refined one, and
    the two end in related states. -/
theorem Refines.run {A : Machine τ ε} {R : σ → τ → Prop} (hR : Refines M A R)
    {s s' : σ} {a : τ} {es : List ε} (hsa : R s a) (h : M.run s es = some s') :
    ∃ a', A.run a es = some a' ∧ R s' a' := by
  induction es generalizing s a with
  | nil =>
      simp only [Machine.run, Option.some.injEq] at h
      exact ⟨a, rfl, h ▸ hsa⟩
  | cons e es ih =>
      rw [Machine.run, Option.bind_eq_some_iff] at h
      obtain ⟨t, hst, hrest⟩ := h
      obtain ⟨b, hab, htb⟩ := hR.step _ _ _ _ hsa hst
      obtain ⟨a', hrun, hrel⟩ := ih htb hrest
      refine ⟨a', ?_, hrel⟩
      rw [Machine.run, hab]
      exact hrun

end Machine

end Foundation
