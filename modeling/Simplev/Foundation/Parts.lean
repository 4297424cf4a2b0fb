import Simplev.Foundation.Machine

/-!
# `Foundation.Parts` — machines made of parts

A machine is made of parts when what one of its steps does to each part is a step of the part's own machine,
or nothing, and a new part starts as that machine starts. `MadeOf.reachable` lifts this to whole runs, so
that what is known of the runs of one part holds of every part, whatever the others do.
-/

namespace Foundation

universe u v w x

namespace Machine

variable {σ : Type u} {ε : Type v} {τ : Type w} {δ : Type x}

/-- One step, or none. -/
inductive Turns (P : Machine τ δ) (t : τ) : τ → Prop
  | still : Turns P t t
  | step {e : δ} {t' : τ} (h : P.step t e = some t') : Turns P t t'

theorem ReachableVia.turns {P : Machine τ δ} {t t' : τ} (ht : P.Reachable t) (h : P.Turns t t') :
    P.Reachable t' := by
  cases h with
  | still => exact ht
  | step h => exact .step ht trivial h

/-- `M` is made of parts that run as `P`: in the state `s` there are `count s` of them, and `part s i` is how
    the `i`-th one stands. -/
structure MadeOf (M : Machine σ ε) (P : Machine τ δ) (count : σ → Nat) (part : σ → Nat → τ) : Prop where
  init : ∀ s, M.init s → count s = 0
  step : ∀ s e s', M.Reachable s → M.step s e = some s' → ∀ i < count s',
    ∃ t, (i < count s ∧ t = part s i ∨ P.init t) ∧ P.Turns t (part s' i)

/-- **Every part runs as its own machine**, in every run of the whole. -/
theorem MadeOf.reachable {M : Machine σ ε} {P : Machine τ δ} {count : σ → Nat} {part : σ → Nat → τ}
    (h : MadeOf M P count part) {s : σ} (hs : M.Reachable s) : ∀ i < count s, P.Reachable (part s i) := by
  refine hs.invariant (I := fun s => ∀ i < count s, P.Reachable (part s i)) ?_ ?_
  · intro s hinit i hi
    rw [h.init s hinit] at hi
    exact absurd hi (Nat.not_lt_zero i)
  · intro s e s' hs hparts _ hstep i hi
    obtain ⟨t, ⟨hold, rfl⟩ | hnew, hturns⟩ := h.step s e s' hs hstep i hi
    · exact (hparts i hold).turns hturns
    · exact (ReachableVia.init hnew).turns hturns

end Machine

end Foundation
