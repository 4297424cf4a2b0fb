import Mathlib.Data.List.Basic

/-!
# `Foundation.Trace` — a list that grows at its end

Where an element of a grown trace stands: among the old elements, or among the new ones.
-/

namespace Foundation

universe u

variable {α : Type u} {xs ys early late : List α} {a : α}

theorem append_eq_append_cons (h : xs ++ ys = early ++ a :: late) :
    (∃ mid, xs = early ++ a :: mid ∧ late = mid ++ ys) ∨
      ∃ mid, early = xs ++ mid ∧ ys = mid ++ a :: late := by
  rcases List.append_eq_append_iff.mp h with ⟨mid, hearly, hys⟩ | ⟨mid, hxs, hlate⟩
  · exact Or.inr ⟨mid, hearly, hys⟩
  · cases mid with
    | nil =>
        simp only [List.append_nil, List.nil_append] at hxs hlate
        exact Or.inr ⟨[], by rw [hxs, List.append_nil], hlate.symm⟩
    | cons b mid =>
        simp only [List.cons_append, List.cons.injEq] at hlate
        obtain ⟨rfl, rfl⟩ := hlate
        exact Or.inl ⟨mid, hxs, rfl⟩

/-- New elements that are not `a` leave the places of `a` as they were. -/
theorem append_eq_append_cons_of_not_mem (h : xs ++ ys = early ++ a :: late) (hnew : a ∉ ys) :
    ∃ mid, xs = early ++ a :: mid ∧ late = mid ++ ys := by
  rcases append_eq_append_cons h with hold | ⟨mid, _, hys⟩
  · exact hold
  · exact absurd (hys ▸ List.mem_append_right mid (List.mem_cons_self ..)) hnew

end Foundation
