import Simplev.Foundation.Machine

/-!
# `Foundation.History` — a machine with a history

`M.recording first note` runs `M` and keeps a history beside it, which each step brings up to date and no
step reads. `recording_step` says that it makes the steps of `M` and no others, `run_recording` that
every run of `M` has a history.
-/

namespace Foundation

universe u v w

namespace Machine

variable {σ : Type u} {ε : Type v} {γ : Type w}

/-- `M` with a history that begins as `first`, and that `note` brings up to date. -/
def recording (M : Machine σ ε) (first : γ) (note : σ → ε → γ → γ) : Machine (σ × γ) ε where
  init s := M.init s.1 ∧ s.2 = first
  step s e := (M.step s.1 e).map fun s' => (s', note s.1 e s.2)

variable {M : Machine σ ε} {first : γ} {note : σ → ε → γ → γ}

theorem recording_step {s s' : σ} {g g' : γ} {e : ε}
    (h : (M.recording first note).step (s, g) e = some (s', g')) :
    M.step s e = some s' ∧ g' = note s e g := by
  obtain ⟨t, ht, heq⟩ := Option.map_eq_some_iff.mp h
  obtain ⟨rfl, rfl⟩ := Prod.mk.inj heq
  exact ⟨ht, rfl⟩

/-- Every run has a history. -/
theorem run_recording {s s' : σ} {es : List ε} (h : M.run s es = some s') (g : γ) :
    ∃ g', (M.recording first note).run (s, g) es = some (s', g') := by
  induction es generalizing s g with
  | nil =>
      obtain rfl := Option.some.inj h
      exact ⟨g, rfl⟩
  | cons e es ih =>
      obtain ⟨t, hstep, hrest⟩ := Option.bind_eq_some_iff.mp h
      obtain ⟨g', hrun⟩ := ih hrest (note s e g)
      refine ⟨g', ?_⟩
      show (((M.step s e).map fun s' => (s', note s e g)).bind fun s' => run _ s' es) = _
      rw [hstep]
      exact hrun

end Machine

end Foundation
