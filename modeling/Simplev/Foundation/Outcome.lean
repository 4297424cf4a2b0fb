import Mathlib.Logic.Basic

/-!
# `Foundation.Outcome` — what running a C++ operation can leave behind

An operation returns normally or throws. On the way it may pass asserts: in a build with asserts a
failed one ends the process, in a build without them the operation goes on. Both builds are read off
one `Outcome`: it goes on, and keeps the list of the asserts that failed. A build with asserts runs
exactly the outcomes whose list is empty.

An exception skips the rest of what was to be computed, but not the object a member function works on.
`Attempt` is the outcome of such a function on its object, which an exception leaves behind as well.
-/

namespace Foundation

universe u

/-- A value with the asserts that failed on the way to it, or an exception. -/
inductive Outcome (α : Type u) where
  | ok (val : α) (failed : List String)
  | thrown (what : String)
deriving DecidableEq, Repr

namespace Outcome

variable {α β : Type u}

/-- Sequencing: the failed asserts accumulate, an exception skips the rest. -/
def bind : Outcome α → (α → Outcome β) → Outcome β
  | ok a fs, f => match f a with
    | ok b gs => ok b (fs ++ gs)
    | thrown w => thrown w
  | thrown w, _ => thrown w

instance : Monad Outcome where
  pure a := ok a []
  bind := Outcome.bind

/-- `assert(c)`, where `expr` is the text of `c`. -/
def assert (c : Prop) [Decidable c] (expr : String) : Outcome Unit :=
  ok () (if c then [] else [expr])

@[simp] theorem pure_eq (a : α) : (pure a : Outcome α) = ok a [] := rfl

@[simp] theorem ok_nil_bind (a : α) (f : α → Outcome β) : ok a [] >>= f = f a := by
  show Outcome.bind (ok a []) f = f a
  cases hf : f a <;> simp only [Outcome.bind, hf, List.nil_append]

@[simp] theorem thrown_bind (w : String) (f : α → Outcome β) : thrown w >>= f = thrown w := rfl

/-- Two parts that return: their failed asserts in order. -/
theorem ok_bind_ok {a : α} {fs gs : List String} {f : α → Outcome β} {b : β} (h : f a = ok b gs) :
    ok a fs >>= f = ok b (fs ++ gs) := by
  show Outcome.bind (ok a fs) f = ok b (fs ++ gs)
  rw [Outcome.bind, h]

/-- An assert that holds leaves no trace. -/
theorem assert_true {c : Prop} [Decidable c] (h : c) (expr : String) :
    assert c expr = ok () [] := by
  rw [assert, if_pos h]

/-- The record an assert leaves. -/
def unmet (c : Prop) [Decidable c] (expr : String) : List String :=
  if c then [] else [expr]

theorem assert_eq (c : Prop) [Decidable c] (expr : String) : assert c expr = ok () (unmet c expr) :=
  rfl

@[simp] theorem unmet_eq_nil {c : Prop} [Decidable c] {expr : String} : unmet c expr = [] ↔ c := by
  unfold unmet
  by_cases h : c
  · simp [h]
  · simp [h]

/-- A value after an assert. -/
theorem assert_bind_ok {γ : Type} (c : Prop) [Decidable c] (expr : String) (b : γ) :
    (assert c expr >>= fun _ => ok b []) = ok b (unmet c expr) := by
  rw [assert_eq, ok_bind_ok (f := fun _ => ok b []) rfl, List.append_nil]

theorem mem_unmet {c : Prop} [Decidable c] {expr a : String} :
    a ∈ unmet c expr ↔ ¬ c ∧ a = expr := by
  unfold unmet
  by_cases h : c
  · simp [h]
  · simp [h]

/-- What a composite operation returned, its first part returned as well. -/
theorem bind_eq_ok {x : Outcome α} {f : α → Outcome β} {b : β} {hs : List String}
    (h : x >>= f = ok b hs) :
    ∃ a fs gs, x = ok a fs ∧ f a = ok b gs ∧ hs = fs ++ gs := by
  cases x with
  | thrown w => exact absurd h (by simp)
  | ok a fs =>
      change Outcome.bind (ok a fs) f = ok b hs at h
      simp only [Outcome.bind] at h
      cases hf : f a with
      | thrown w => rw [hf] at h; exact absurd h (by simp)
      | ok b' gs =>
          rw [hf] at h
          simp only [ok.injEq] at h
          exact ⟨a, fs, gs, rfl, by rw [hf, h.1], h.2.symm⟩

/-- What followed an assert. -/
theorem assert_bind_eq_ok {γ : Type} {c : Prop} [Decidable c] {expr : String}
    {f : Unit → Outcome γ} {b : γ} {hs : List String} (h : assert c expr >>= f = ok b hs) :
    ∃ gs, f () = ok b gs ∧ hs = unmet c expr ++ gs := by
  obtain ⟨_, fs, gs, hassert, hrest, rfl⟩ := bind_eq_ok h
  rw [assert_eq, ok.injEq] at hassert
  obtain ⟨-, rfl⟩ := hassert
  exact ⟨gs, hrest, rfl⟩

end Outcome

/-- The object after a member function, with the asserts that failed on the way; or an exception, and the
    object as it left it. -/
inductive Attempt (α : Type u) where
  | ok (val : α) (failed : List String)
  | thrown (what : String) (left : α)
deriving DecidableEq, Repr

namespace Attempt

variable {α β : Type u}

/-- The same on the object that has the first one as a part. -/
def map (f : α → β) : Attempt α → Attempt β
  | ok a fs => ok (f a) fs
  | thrown w a => thrown w (f a)

/-- `assert(c)` behind the rest, where `expr` is the text of `c`. -/
def assert (x : Attempt α) (c : α → Prop) [DecidablePred c] (expr : String) : Attempt α :=
  match x with
  | ok a fs => ok a (fs ++ Outcome.unmet (c a) expr)
  | thrown w a => thrown w a

/-- The outcome for a caller that does not look at the object behind an exception. -/
def outcome : Attempt α → Outcome α
  | ok a fs => .ok a fs
  | thrown w _ => .thrown w

@[simp] theorem map_ok (f : α → β) (a : α) (fs : List String) : (ok a fs).map f = ok (f a) fs := rfl

@[simp] theorem map_thrown (f : α → β) (w : String) (a : α) :
    (thrown w a).map f = thrown w (f a) := rfl

@[simp] theorem outcome_ok (a : α) (fs : List String) : (ok a fs).outcome = .ok a fs := rfl

@[simp] theorem outcome_thrown (w : String) (a : α) : (thrown w a).outcome = .thrown w := rfl

/-- An assert that holds leaves no trace. -/
theorem assert_ok_of {c : α → Prop} [DecidablePred c] {a : α} (h : c a) (fs : List String)
    (expr : String) : (ok a fs).assert c expr = ok a fs := by
  rw [assert, Outcome.unmet_eq_nil.mpr h, List.append_nil]

theorem outcome_eq_ok {x : Attempt α} {a : α} {fs : List String} (h : x.outcome = .ok a fs) :
    x = ok a fs := by
  cases x with
  | ok b gs =>
      rw [outcome_ok, Outcome.ok.injEq] at h
      rw [h.1, h.2]
  | thrown w b => exact absurd h (by simp)

end Attempt

end Foundation
