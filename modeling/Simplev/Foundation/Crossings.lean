import Mathlib.Order.Lattice

/-!
# `Foundation.Crossings` — upward crossings of a level

`upCrossings mark history` lists the values just after each upward crossing of `mark` in a history of
values: from below the mark, to the mark or above.
-/

namespace Foundation

universe u

variable {α : Type u} [LinearOrder α] {mark a b : α}

/-- The crossing from `a` to `b`, if it is one. -/
def upCrossing (mark a b : α) : List α := if a < mark ∧ mark ≤ b then [b] else []

def upCrossings (mark : α) : List α → List α
  | a :: b :: rest => upCrossing mark a b ++ upCrossings mark (b :: rest)
  | _ => []

@[simp] theorem upCrossings_singleton : upCrossings mark [a] = [] := rfl

@[simp] theorem upCrossings_cons_cons (rest : List α) :
    upCrossings mark (a :: b :: rest) = upCrossing mark a b ++ upCrossings mark (b :: rest) := rfl

/-- Going down crosses nothing. -/
theorem upCrossing_of_le (h : b ≤ a) : upCrossing mark a b = [] := by
  rw [upCrossing, if_neg]
  rintro ⟨hlow, hhigh⟩
  exact absurd (lt_of_lt_of_le hlow hhigh) (not_lt_of_ge h)

/-- **Before each crossing the history was below the mark**, having made exactly the crossings before
    it. -/
theorem upCrossings_low {history xs ys : List α} {c : α}
    (h : upCrossings mark history = xs ++ c :: ys) :
    ∃ early low late, history = early ++ low :: late ∧ low < mark ∧
      upCrossings mark (early ++ [low]) = xs := by
  induction history generalizing xs with
  | nil => simp [upCrossings] at h
  | cons a rest ih =>
      cases rest with
      | nil => simp at h
      | cons b rest =>
          rw [upCrossings_cons_cons] at h
          -- a place in the rest of the history is one in the whole of it
          have hlater : ∀ {ws : List α}, upCrossings mark (b :: rest) = ws ++ c :: ys →
              xs = upCrossing mark a b ++ ws → ∃ early low late,
                a :: b :: rest = early ++ low :: late ∧ low < mark ∧
                  upCrossings mark (early ++ [low]) = xs := by
            intro ws hws hxs
            obtain ⟨early, low, late, hsplit, hlow, hcrossed⟩ := ih hws
            refine ⟨a :: early, low, late, by rw [hsplit, List.cons_append], hlow, ?_⟩
            cases early with
            | nil =>
                obtain ⟨rfl, _⟩ := List.cons.inj hsplit
                rw [hxs, ← hcrossed]
                rfl
            | cons e early =>
                obtain ⟨rfl, _⟩ := List.cons.inj hsplit
                rw [hxs, ← hcrossed]
                rfl
          by_cases hcross : a < mark ∧ mark ≤ b
          · have hone : upCrossing mark a b = [b] := if_pos hcross
            rw [hone] at h
            cases xs with
            | nil => exact ⟨[], a, b :: rest, rfl, hcross.1, rfl⟩
            | cons x xs =>
                obtain ⟨rfl, hrest⟩ := List.cons.inj h
                exact hlater hrest (by rw [hone]; rfl)
          · have hnone : upCrossing mark a b = [] := if_neg hcross
            rw [hnone, List.nil_append] at h
            exact hlater h (by rw [hnone]; rfl)

end Foundation
