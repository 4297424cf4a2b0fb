import Mathlib.Data.List.Count
import Mathlib.Logic.Function.Basic

/-!
# `Foundation.Descriptors` — the descriptor table of a process, and who closes what

A descriptor is a number, and numbers are reused: what a number names is a *file*, and every call that
returns a descriptor opens a new one. Each open descriptor has an owner, who may hand it over. A call of
`close` is recorded with what it found under the number it was given.

`Ledger` is the bookkeeping that every such table obeys: a file that has been opened is open under one
number and has not been closed, or it is open under none and has been closed exactly once.
-/

namespace Foundation

universe u

/-- What an open descriptor names, and whose it is. -/
structure OpenFile (ω : Type u) where
  file : Nat
  owner : ω
deriving DecidableEq, Repr

/-- A call of `close`, and what it found. -/
structure Close (ω : Type u) where
  closer : ω
  fd : Int
  found : Option (OpenFile ω)
deriving DecidableEq, Repr

variable {ω : Type u}

/-- How often a file has been closed. -/
def closedTimes (closes : List (Close ω)) (file : Nat) : Nat :=
  closes.countP fun c => (c.found.map OpenFile.file) = some file

theorem closedTimes_append (closes : List (Close ω)) (c : Close ω) (file : Nat) :
    closedTimes (closes ++ [c]) file =
      closedTimes closes file + if c.found.map OpenFile.file = some file then 1 else 0 := by
  rw [closedTimes, List.countP_append, List.countP_singleton]
  simp [closedTimes]

/-- **The ledger** of a table, `files` being the number of files opened so far. -/
structure Ledger (table : Int → Option (OpenFile ω)) (files : Nat) (closes : List (Close ω)) : Prop where
  valid : ∀ {fd}, fd < 0 → table fd = none
  bound : ∀ {fd o}, table fd = some o → o.file < files
  distinct : ∀ {fd fd' o o'}, table fd = some o → table fd' = some o' → o.file = o'.file → fd = fd'
  unclosed : ∀ {fd o}, table fd = some o → closedTimes closes o.file = 0
  once : ∀ {file}, file < files →
    (∃ fd o, table fd = some o ∧ o.file = file) ∨ closedTimes closes file = 1
  beyond : ∀ {file}, files ≤ file → closedTimes closes file = 0

namespace Ledger

variable {table : Int → Option (OpenFile ω)} {files : Nat} {closes : List (Close ω)}

theorem empty : Ledger (fun _ => none : Int → Option (OpenFile ω)) 0 [] where
  valid _ := rfl
  bound := by simp
  distinct := by simp
  unclosed := by simp
  once h := absurd h (Nat.not_lt_zero _)
  beyond _ := rfl

/-- A call returns a number that is free. -/
theorem receive (h : Ledger table files closes) {fd : Int} (hfd : 0 ≤ fd) (hfree : table fd = none)
    (owner : ω) : Ledger (Function.update table fd (some ⟨files, owner⟩)) (files + 1) closes := by
  have hcases : ∀ {fd' o}, Function.update table fd (some ⟨files, owner⟩) fd' = some o →
      fd' = fd ∧ o.file = files ∨ table fd' = some o := by
    intro fd' o ho
    by_cases heq : fd' = fd
    · subst heq
      rw [Function.update_self, Option.some.injEq] at ho
      exact Or.inl ⟨rfl, by rw [← ho]⟩
    · rw [Function.update_of_ne heq] at ho
      exact Or.inr ho
  constructor
  · intro fd' hneg
    rw [Function.update_of_ne (by omega)]
    exact h.valid hneg
  · intro fd' o ho
    rcases hcases ho with ⟨-, hfile⟩ | ho
    · omega
    · have hbound := h.bound ho
      omega
  · intro fd₁ fd₂ o₁ o₂ ho₁ ho₂ hfile
    rcases hcases ho₁ with ⟨hfd₁, hfile₁⟩ | hold₁ <;> rcases hcases ho₂ with ⟨hfd₂, hfile₂⟩ | hold₂
    · rw [hfd₁, hfd₂]
    · have hbound := h.bound hold₂
      omega
    · have hbound := h.bound hold₁
      omega
    · exact h.distinct hold₁ hold₂ hfile
  · intro fd' o ho
    rcases hcases ho with ⟨-, hfile⟩ | ho
    · rw [hfile]
      exact h.beyond (Nat.le_refl files)
    · exact h.unclosed ho
  · intro file hlt
    rcases Nat.lt_succ_iff_lt_or_eq.mp hlt with hlt | rfl
    · -- an older file that is open is open under another number, since this one was free
      refine (h.once hlt).imp_left ?_
      rintro ⟨fd', o, ho, hfile⟩
      have hne : fd' ≠ fd := by
        rintro rfl
        rw [hfree] at ho
        cases ho
      exact ⟨fd', o, by rw [Function.update_of_ne hne, ho], hfile⟩
    · exact Or.inl ⟨fd, ⟨file, owner⟩, Function.update_self .., rfl⟩
  · intro file hle
    exact h.beyond (by omega)

theorem close (h : Ledger table files closes) (closer : ω) (fd : Int) :
    Ledger (Function.update table fd none) files (closes ++ [⟨closer, fd, table fd⟩]) := by
  have hcases : ∀ {fd' o}, Function.update table fd none fd' = some o → fd' ≠ fd ∧ table fd' = some o := by
    intro fd' o ho
    by_cases heq : fd' = fd
    · rw [heq, Function.update_self] at ho
      cases ho
    · rw [Function.update_of_ne heq] at ho
      exact ⟨heq, ho⟩
  constructor
  · intro fd' hneg
    by_cases heq : fd' = fd
    · rw [heq, Function.update_self]
    · rw [Function.update_of_ne heq]
      exact h.valid hneg
  · intro fd' o ho
    exact h.bound (hcases ho).2
  · intro fd₁ fd₂ o₁ o₂ ho₁ ho₂ hfile
    exact h.distinct (hcases ho₁).2 (hcases ho₂).2 hfile
  · intro fd' o ho
    obtain ⟨hne, ho⟩ := hcases ho
    rw [closedTimes_append, h.unclosed ho, if_neg]
    intro hfound
    obtain ⟨o', ho', hfile⟩ := Option.map_eq_some_iff.mp hfound
    exact hne (h.distinct ho ho' hfile.symm)
  · intro file hlt
    rw [closedTimes_append]
    rcases h.once hlt with ⟨fd', o, ho, hfile⟩ | hclosed
    · by_cases heq : fd' = fd
      · -- the one that this call closes
        subst heq
        have hunclosed := h.unclosed ho
        rw [hfile] at hunclosed
        right
        rw [hunclosed, ho, if_pos]
        exact congrArg some hfile
      · exact Or.inl ⟨fd', o, by rw [Function.update_of_ne heq, ho], hfile⟩
    · right
      rw [hclosed, if_neg]
      intro hfound
      obtain ⟨o, ho, hfile⟩ := Option.map_eq_some_iff.mp hfound
      have hunclosed := h.unclosed ho
      rw [hfile, hclosed] at hunclosed
      exact absurd hunclosed (by decide)
  · intro file hle
    rw [closedTimes_append, h.beyond hle, if_neg]
    intro hfound
    obtain ⟨o, ho, hfile⟩ := Option.map_eq_some_iff.mp hfound
    have hbound := h.bound ho
    omega

theorem handOver (h : Ledger table files closes) {fd : Int} {o : OpenFile ω} (ho : table fd = some o)
    (owner : ω) : Ledger (Function.update table fd (some ⟨o.file, owner⟩)) files closes := by
  have hcases : ∀ {fd' o'}, Function.update table fd (some ⟨o.file, owner⟩) fd' = some o' →
      ∃ o'', table fd' = some o'' ∧ o''.file = o'.file := by
    intro fd' o' ho'
    by_cases heq : fd' = fd
    · subst heq
      rw [Function.update_self, Option.some.injEq] at ho'
      exact ⟨o, ho, by rw [← ho']⟩
    · rw [Function.update_of_ne heq] at ho'
      exact ⟨o', ho', rfl⟩
  constructor
  · intro fd' hneg
    have hne : fd' ≠ fd := by
      rintro rfl
      rw [h.valid hneg] at ho
      cases ho
    rw [Function.update_of_ne hne]
    exact h.valid hneg
  · intro fd' o' ho'
    obtain ⟨o'', ho'', hfile⟩ := hcases ho'
    rw [← hfile]
    exact h.bound ho''
  · intro fd₁ fd₂ o₁ o₂ ho₁ ho₂ hfile
    obtain ⟨o₁', ho₁', hfile₁⟩ := hcases ho₁
    obtain ⟨o₂', ho₂', hfile₂⟩ := hcases ho₂
    exact h.distinct ho₁' ho₂' (by rw [hfile₁, hfile₂, hfile])
  · intro fd' o' ho'
    obtain ⟨o'', ho'', hfile⟩ := hcases ho'
    rw [← hfile]
    exact h.unclosed ho''
  · intro file hlt
    refine (h.once hlt).imp_left ?_
    rintro ⟨fd', o', ho', hfile⟩
    by_cases heq : fd' = fd
    · subst heq
      obtain rfl : o = o' := Option.some.inj (ho.symm.trans ho')
      exact ⟨fd', ⟨o.file, owner⟩, Function.update_self .., hfile⟩
    · exact ⟨fd', o', by rw [Function.update_of_ne heq, ho'], hfile⟩
  · intro file hle
    exact h.beyond hle

end Ledger

/-- The descriptors of a process. -/
structure Descriptors (ω : Type u) where
  table : Int → Option (OpenFile ω)
  /-- How many files have been opened. -/
  files : Nat
  closes : List (Close ω)
  ledger : Ledger table files closes

namespace Descriptors

variable (D : Descriptors ω)

def empty : Descriptors ω := ⟨fun _ => none, 0, [], Ledger.empty⟩

/-- A call returns `fd`, which has to be free. -/
def receive (fd : Int) (owner : ω) : Option (Descriptors ω) :=
  if h : 0 ≤ fd ∧ D.table fd = none then
    some ⟨Function.update D.table fd (some ⟨D.files, owner⟩), D.files + 1, D.closes,
      D.ledger.receive h.1 h.2 owner⟩
  else none

/-- A call returns a descriptor, or -1. -/
def result (fd : Int) (owner : ω) : Option (Descriptors ω) :=
  if fd = -1 then some D else D.receive fd owner

/-- Whatever `close` returns, the number is free afterwards. -/
def close (closer : ω) (fd : Int) : Descriptors ω :=
  ⟨Function.update D.table fd none, D.files, D.closes ++ [⟨closer, fd, D.table fd⟩],
    D.ledger.close closer fd⟩

/-- Whoever had `fd` gives it to another owner. -/
def handOver (fd : Int) (owner : ω) : Descriptors ω :=
  match h : D.table fd with
  | none => D
  | some o => ⟨Function.update D.table fd (some ⟨o.file, owner⟩), D.files, D.closes,
      D.ledger.handOver h owner⟩

/-! ## Who has what -/

/-- `fd` is open, names this file, and is this owner's. -/
def Owns (owner : ω) (fd : Int) (file : Nat) : Prop := D.table fd = some ⟨file, owner⟩

variable {D} {D' : Descriptors ω} {owner owner' : ω} {fd fd' : Int} {file file' : Nat}

/-- One number is not two owners'. -/
theorem Owns.ne (h : D.Owns owner fd file) (h' : D.Owns owner' fd' file') (hne : owner ≠ owner') :
    fd ≠ fd' := by
  rintro rfl
  have hsame := Option.some.inj (h.symm.trans h')
  exact hne (congrArg OpenFile.owner hsame)

theorem Owns.file_lt (h : D.Owns owner fd file) : file < D.files := D.ledger.bound h

theorem Owns.unclosed (h : D.Owns owner fd file) : closedTimes D.closes file = 0 := D.ledger.unclosed h

theorem receive_cases (h : D.receive fd owner = some D') :
    D.table fd = none ∧ D'.Owns owner fd D.files ∧ D'.files = D.files + 1 ∧ D'.closes = D.closes ∧
      ∀ fd', fd' ≠ fd → D'.table fd' = D.table fd' := by
  unfold receive at h
  split at h
  · rename_i hfree
    obtain rfl := Option.some.inj h
    exact ⟨hfree.2, Function.update_self .., rfl, rfl, fun fd' hne => Function.update_of_ne hne ..⟩
  · cases h

/-- What was open stays as it is. -/
theorem Owns.receive (h : D.Owns owner fd file) (hreceive : D.receive fd' owner' = some D') :
    D'.Owns owner fd file := by
  obtain ⟨hfree, -, -, -, hothers⟩ := receive_cases hreceive
  have hne : fd ≠ fd' := by
    rintro rfl
    rw [Owns, hfree] at h
    cases h
  exact (hothers fd hne).trans h

theorem Owns.close (h : D.Owns owner fd file) {closer : ω} (hne : fd ≠ fd') :
    (D.close closer fd').Owns owner fd file :=
  (Function.update_of_ne hne ..).trans h

theorem Owns.handOver (h : D.Owns owner fd file) (hne : fd ≠ fd') :
    (D.handOver fd' owner').Owns owner fd file := by
  unfold Descriptors.handOver
  split
  · exact h
  · exact (Function.update_of_ne hne ..).trans h

theorem Owns.handedOver (h : D.Owns owner fd file) : (D.handOver fd owner').Owns owner' fd file := by
  unfold Descriptors.handOver
  split
  · rename_i hnone
    exact absurd (hnone.symm.trans h) (by simp)
  · rename_i o ho
    obtain rfl := Option.some.inj (ho.symm.trans h)
    exact Function.update_self ..

theorem handOver_files : (D.handOver fd owner).files = D.files := by
  unfold handOver
  split <;> rfl

theorem handOver_closes : (D.handOver fd owner).closes = D.closes := by
  unfold handOver
  split <;> rfl

/-- Every other number names what it named. -/
theorem handOver_of_ne (hne : fd' ≠ fd) : (D.handOver fd owner).table fd' = D.table fd' := by
  unfold handOver
  split
  · rfl
  · exact Function.update_of_ne hne ..

end Descriptors

end Foundation
