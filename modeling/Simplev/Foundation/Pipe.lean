import Mathlib.Data.List.Basic

/-!
# `Foundation.Pipe` — a stream between a writer and a reader

What is written is read in order, in pieces of any size. The writer may shut the pipe; the reader meets
the end when there is nothing left to read. A pipe that is reset delivers nothing any more, and what was
in flight is lost.

`Pipe.acts` and `Pipe.read` are guarded: they say which calls a stream allows. `acts_conserves` and
`read_conserves` are the two halves of the conservation law: what was written is what was read, followed
by what is in flight.
-/

namespace Foundation

universe u

variable {α : Type u}

structure Pipe (α : Type u) where
  /-- Written and not read. -/
  inFlight : List α
  shut : Bool
  reset : Bool
deriving DecidableEq, Repr

namespace Pipe

/-- What the writer does. -/
inductive Effect (α : Type u) where
  | write (xs : List α)
  | shutdown
deriving DecidableEq, Repr

def empty : Pipe α := ⟨[], false, false⟩

/-- A pipe that is shut takes nothing more. -/
def act (p : Pipe α) : Effect α → Option (Pipe α)
  | .write [] => some p
  | .write (x :: xs) => if p.shut then none else some { p with inFlight := p.inFlight ++ x :: xs }
  | .shutdown => some { p with shut := true }

def acts (p : Pipe α) : List (Effect α) → Option (Pipe α)
  | [] => some p
  | e :: es => (p.act e).bind fun p => p.acts es

/-- The reader gets `xs`, which is not empty, or meets the end. -/
def read [DecidableEq α] (p : Pipe α) (xs : List α) : Option (Pipe α) :=
  if xs = [] then
    if p.reset = true ∨ p.shut = true ∧ p.inFlight = [] then some p else none
  else
    if p.reset = false ∧ xs <+: p.inFlight then
      some { p with inFlight := p.inFlight.drop xs.length }
    else none

/-- The writer closes its end, or its process does. -/
def close (p : Pipe α) : Pipe α := { p with shut := true }

def tear (p : Pipe α) : Pipe α := { p with reset := true }

def Effect.written : Effect α → List α
  | write xs => xs
  | shutdown => []

variable {p p' : Pipe α} {es : List (Effect α)} {e : Effect α}

theorem act_conserves (h : p.act e = some p') :
    p'.inFlight = p.inFlight ++ e.written ∧ p'.reset = p.reset ∧
      (p.shut = true → e.written = [] ∧ p'.shut = true) ∧ (e = .shutdown → p'.shut = true) := by
  cases e with
  | write xs =>
      cases xs with
      | nil =>
          obtain rfl := Option.some.inj h
          exact ⟨(List.append_nil _).symm, rfl, fun hshut => ⟨rfl, hshut⟩, by simp⟩
      | cons x xs =>
          simp only [act, Option.ite_none_left_eq_some, Option.some.injEq] at h
          obtain ⟨hopen, rfl⟩ := h
          exact ⟨rfl, rfl, fun hshut => absurd hshut hopen, by simp⟩
  | shutdown =>
      obtain rfl := Option.some.inj h
      exact ⟨(List.append_nil _).symm, rfl, fun _ => ⟨rfl, rfl⟩, fun _ => rfl⟩

/-- **What the writer does** goes to the end of what is in flight; behind a shutdown it is nothing. -/
theorem acts_conserves (h : p.acts es = some p') :
    p'.inFlight = p.inFlight ++ es.flatMap Effect.written ∧ p'.reset = p.reset ∧
      (p.shut = true → es.flatMap Effect.written = [] ∧ p'.shut = true) ∧
      (.shutdown ∈ es → p'.shut = true) := by
  induction es generalizing p with
  | nil =>
      obtain rfl := Option.some.inj h
      exact ⟨(List.append_nil _).symm, rfl, fun hshut => ⟨rfl, hshut⟩, by simp⟩
  | cons e es ih =>
      rw [acts, Option.bind_eq_some_iff] at h
      obtain ⟨mid, hact, hrest⟩ := h
      obtain ⟨hflight, hreset, hshut, hend⟩ := act_conserves hact
      obtain ⟨hflight', hreset', hshut', hend'⟩ := ih hrest
      refine ⟨?_, hreset'.trans hreset, fun hs => ?_, fun hmem => ?_⟩
      · rw [hflight', hflight, List.flatMap_cons, List.append_assoc]
      · obtain ⟨hnone, hmid⟩ := hshut hs
        obtain ⟨hnone', hlast⟩ := hshut' hmid
        exact ⟨by rw [List.flatMap_cons, hnone, hnone', List.append_nil], hlast⟩
      · rcases List.mem_cons.mp hmem with rfl | hmem
        · exact (hshut' (hend rfl)).2
        · exact hend' hmem

/-- **What the reader gets** is the front of what is in flight; the end comes behind all of it, unless
    the pipe is reset. -/
theorem read_conserves [DecidableEq α] {xs : List α} (h : p.read xs = some p') :
    p.inFlight = xs ++ p'.inFlight ∧ p'.reset = p.reset ∧ p'.shut = p.shut ∧
      (xs = [] → p.reset = true ∨ p.shut = true ∧ p.inFlight = []) := by
  unfold read at h
  split at h
  · rename_i hend
    obtain ⟨hallowed, hp⟩ := Option.ite_none_right_eq_some.mp h
    obtain rfl := Option.some.inj hp
    exact ⟨by rw [hend, List.nil_append], rfl, rfl, fun _ => hallowed⟩
  · rename_i hsome
    obtain ⟨⟨-, hprefix⟩, hp⟩ := Option.ite_none_right_eq_some.mp h
    obtain rfl := Option.some.inj hp
    obtain ⟨rest, hrest⟩ := hprefix
    refine ⟨?_, rfl, rfl, fun hnil => absurd hnil hsome⟩
    show p.inFlight = xs ++ p.inFlight.drop xs.length
    rw [← hrest, List.drop_left]

end Pipe

end Foundation
