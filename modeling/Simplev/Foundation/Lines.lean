import Mathlib.Data.List.Basic

/-!
# `Foundation.Lines` — splitting at a terminator

A line ends with the terminator `nl`, which is not in it otherwise. `lines` splits a text after each
terminator; what follows the last one is not a line.
-/

namespace Foundation

universe u

variable {α : Type u} {nl : α}

/-- It ends with exactly one terminator, which is the only one. -/
def Framed (nl : α) (out : List α) : Prop := ∃ text, out = text ++ [nl] ∧ nl ∉ text

theorem framed_append_iff {text : List α} (h : nl ∉ text) :
    Framed nl (text ++ [nl]) ∧ ¬ Framed nl text := by
  constructor
  · exact ⟨text, rfl, h⟩
  · rintro ⟨front, rfl, _⟩
    exact h (List.mem_append_right _ (List.mem_singleton_self nl))

variable [DecidableEq α]

/-- The lines of `xs`, the first of which has begun with `begun`. -/
def linesFrom (nl : α) (begun : List α) : List α → List (List α)
  | [] => []
  | x :: xs =>
    if x = nl then (begun ++ [x]) :: linesFrom nl [] xs else linesFrom nl (begun ++ [x]) xs

def lines (nl : α) (xs : List α) : List (List α) := linesFrom nl [] xs

theorem framed_of_mem_linesFrom {begun xs out : List α} (hbegun : nl ∉ begun)
    (h : out ∈ linesFrom nl begun xs) : Framed nl out := by
  induction xs generalizing begun with
  | nil => exact absurd h List.not_mem_nil
  | cons x xs ih =>
      rw [linesFrom] at h
      split at h
      · rename_i hx
        rcases List.mem_cons.mp h with rfl | h
        · exact ⟨begun, by rw [hx], hbegun⟩
        · exact ih List.not_mem_nil h
      · rename_i hx
        refine ih ?_ h
        rw [List.mem_append, List.mem_singleton, not_or]
        exact ⟨hbegun, fun heq => hx heq.symm⟩

/-- A text without terminator joins the line that has begun. -/
theorem linesFrom_append {begun text xs : List α} (h : nl ∉ text) :
    linesFrom nl begun (text ++ xs) = linesFrom nl (begun ++ text) xs := by
  induction text generalizing begun with
  | nil => rw [List.nil_append, List.append_nil]
  | cons x text ih =>
      rw [List.mem_cons, not_or] at h
      obtain ⟨hx, htext⟩ := h
      rw [List.cons_append, linesFrom, if_neg (fun heq => hx heq.symm), ih htext, List.append_assoc,
        List.singleton_append]

/-- **Outputs are their own lines if and only if each of them is framed.** -/
theorem lines_flatten_iff (outs : List (List α)) :
    lines nl outs.flatten = outs ↔ ∀ out ∈ outs, Framed nl out := by
  constructor
  · intro h out hout
    rw [← h] at hout
    exact framed_of_mem_linesFrom List.not_mem_nil hout
  · intro h
    induction outs with
    | nil => rfl
    | cons out outs ih =>
        obtain ⟨⟨text, rfl, htext⟩, hrest⟩ := List.forall_mem_cons.mp h
        rw [List.flatten_cons, lines, List.append_assoc, linesFrom_append htext, List.nil_append,
          List.singleton_append, linesFrom, if_pos rfl]
        exact congrArg _ (ih hrest)

end Foundation
