import Simplev.Foundation.Machine
import Simplev.Net.BufferSpec
import Mathlib.Logic.Equiv.Basic

/-!
# `Net.BufferRefinement` — a buffer is a byte string

`bufferMachine` runs any sequence of calls on any number of buffers, `stringMachine` the same calls on
byte strings: append at the back, prepend and drop at the front, and a transposition of two names for
`swap`. `bufferMachine_refines` is the simulation; its relation is `Valid` with equal contents.
-/

namespace Simplev

open Foundation

namespace Buffer

variable {b : Buffer}

/-- One call on one buffer. `retrieveUntil n` passes the pointer `peek() + n`; `write data n` stores
    `data` from `beginWrite()` on and then calls `hasWritten(n)`. -/
inductive Op where
  | append (data : List Byte)
  | prepend (data : List Byte)
  | retrieve (len : Nat)
  | retrieveUntil (n : Nat)
  | retrieveAll
  | retrieveAsString
  | ensureWritableBytes (len : Nat)
  | write (data : List Byte) (n : Nat)
deriving DecidableEq, Repr

/-- The argument bounds the class asserts, and sizes within 64 bits. -/
def Op.Allowed (b : Buffer) : Op → Prop
  | .append data => b.SizesFit data.length
  | .prepend data => data.length ≤ b.prependableBytes
  | .retrieve len => len ≤ b.readableBytes
  | .retrieveUntil n => b.peek + n ≤ b.beginWrite
  | .retrieveAll => True
  | .retrieveAsString => True
  | .ensureWritableBytes len => b.SizesFit len
  | .write data n => data.length ≤ b.writableBytes ∧ n ≤ data.length

instance (b : Buffer) : (op : Op) → Decidable (op.Allowed b)
  | .append data => inferInstanceAs (Decidable (b.SizesFit data.length))
  | .prepend data => inferInstanceAs (Decidable (data.length ≤ b.prependableBytes))
  | .retrieve len => inferInstanceAs (Decidable (len ≤ b.readableBytes))
  | .retrieveUntil n => inferInstanceAs (Decidable (b.peek + n ≤ b.beginWrite))
  | .retrieveAll => inferInstanceAs (Decidable True)
  | .retrieveAsString => inferInstanceAs (Decidable True)
  | .ensureWritableBytes len => inferInstanceAs (Decidable (b.SizesFit len))
  | .write data n => inferInstanceAs (Decidable (data.length ≤ b.writableBytes ∧ n ≤ data.length))

/-- The string a call returns (empty for a `void` member), and the buffer it leaves. -/
def Op.exec (b : Buffer) : Op → Outcome (List Byte × Buffer)
  | .append data => do return ([], ← b.append data)
  | .prepend data => do return ([], ← b.prepend data)
  | .retrieve len => do return ([], ← b.retrieve len)
  | .retrieveUntil n => do return ([], ← b.retrieveUntil (b.peek + n))
  | .retrieveAll => pure ([], b.retrieveAll)
  | .retrieveAsString => pure b.retrieveAsString
  | .ensureWritableBytes len => do return ([], ← (b.ensureWritableBytes len).outcome)
  | .write data n => pure ([], (b.store data).hasWritten n)

/-- What the call means for the byte string the buffer stands for: the string it returns, and the
    string that is left. -/
def Op.abstract (s : List Byte) : Op → List Byte × List Byte
  | .append data => ([], s ++ data)
  | .prepend data => ([], data ++ s)
  | .retrieve len => ([], s.drop len)
  | .retrieveUntil n => ([], s.drop n)
  | .retrieveAll => ([], [])
  | .retrieveAsString => (s, [])
  | .ensureWritableBytes _ => ([], s)
  | .write data n => ([], s ++ data.take n)

/-- An allowed call on a valid buffer throws, or does what it means, with no assert failing. -/
theorem exec_spec (hv : b.Valid) {op : Op} (hop : op.Allowed b) :
    (∃ b', op.exec b = .ok ((op.abstract b.readable).1, b') [] ∧ b'.Valid ∧
      b'.readable = (op.abstract b.readable).2) ∨ ∃ w, op.exec b = .thrown w := by
  cases op with
  | append data =>
      rcases append_spec hv hop with ⟨b', happ, hv', hread⟩ | happ
      · exact Or.inl ⟨b', by simp only [Op.exec, happ, Outcome.ok_nil_bind]; rfl, hv', hread⟩
      · exact Or.inr ⟨lengthError, by simp only [Op.exec, happ, Outcome.thrown_bind]⟩
  | prepend data =>
      obtain ⟨b', hpre, hv', hread⟩ := prepend_spec hv hop
      exact Or.inl ⟨b', by simp only [Op.exec, hpre, Outcome.ok_nil_bind]; rfl, hv', hread⟩
  | retrieve len =>
      obtain ⟨b', hret, hv', hread⟩ := retrieve_spec hv hop
      exact Or.inl ⟨b', by simp only [Op.exec, hret, Outcome.ok_nil_bind]; rfl, hv', hread⟩
  | retrieveUntil n =>
      obtain ⟨b', hret, hv', hread⟩ := retrieveUntil_spec hv (Nat.le_add_right b.peek n) hop
      rw [Nat.add_sub_cancel_left] at hread
      exact Or.inl ⟨b', by simp only [Op.exec, hret, Outcome.ok_nil_bind]; rfl, hv', hread⟩
  | retrieveAll =>
      obtain ⟨hv', hread⟩ := retrieveAll_spec hv
      exact Or.inl ⟨_, rfl, hv', hread⟩
  | retrieveAsString =>
      obtain ⟨hv', hread⟩ := retrieveAll_spec hv
      exact Or.inl ⟨_, rfl, hv', hread⟩
  | ensureWritableBytes len =>
      rcases ensureWritableBytes_spec hv hop with ⟨b', hens, hv', _, hread⟩ | hens
      · refine Or.inl ⟨b', ?_, hv', hread⟩
        simp only [Op.exec, hens, Attempt.outcome_ok, Outcome.ok_nil_bind]
        rfl
      · refine Or.inr ⟨lengthError, ?_⟩
        simp only [Op.exec, hens, Attempt.outcome_thrown, Outcome.thrown_bind]
  | write data n =>
      obtain ⟨hv', hread⟩ := store_hasWritten_spec hv hop.1 hop.2
      exact Or.inl ⟨_, rfl, hv', hread⟩

/-- What an allowed call that returned did: it is the call on the byte string. -/
theorem exec_ok (hv : b.Valid) {op : Op} (hop : op.Allowed b) {str : List Byte} {c : Buffer}
    {fs : List String} (hexec : op.exec b = .ok (str, c) fs) :
    fs = [] ∧ c.Valid ∧ str = (op.abstract b.readable).1 ∧ c.readable = (op.abstract b.readable).2 := by
  rcases exec_spec hv hop with ⟨b₁, hok, hv₁, hread⟩ | ⟨w, hthrown⟩
  · rw [hok] at hexec
    simp only [Outcome.ok.injEq, Prod.mk.injEq] at hexec
    obtain ⟨⟨rfl, rfl⟩, rfl⟩ := hexec
    exact ⟨rfl, hv₁, rfl, hread⟩
  · rw [hthrown] at hexec
    cases hexec

/-- A call on one of the buffers, or a `swap` of two. -/
inductive Call (ι : Type) where
  | on (i : ι) (op : Op)
  | swap (i j : ι)
deriving DecidableEq, Repr

/-- Buffers named by `ι`, the strings returned so far, and the asserts that failed so far. -/
structure Buffers (ι : Type) where
  buffer : ι → Buffer
  returned : List (List Byte)
  failed : List String

/-- The byte strings they stand for, and the strings returned so far. -/
structure Strings (ι : Type) where
  contents : ι → List Byte
  returned : List (List Byte)

variable {ι : Type} [DecidableEq ι]

/-- The buffers after the call `f i . swap(f j)`. -/
def swapped (f : ι → Buffer) (i j : ι) : ι → Buffer :=
  let p := (f i).swap (f j)
  Function.update (Function.update f i p.1) j p.2

/-- Calls within their bounds on buffers that start out new. A call that throws ends the run. -/
def bufferMachine (ι : Type) [DecidableEq ι] : Machine (Buffers ι) (Call ι) where
  init s := s = ⟨fun _ => new, [], []⟩
  step s
    | .on i op =>
      if op.Allowed (s.buffer i) then
        match op.exec (s.buffer i) with
        | .ok (str, b) fs =>
          some ⟨Function.update s.buffer i b, s.returned ++ [str], s.failed ++ fs⟩
        | .thrown _ => none
      else none
    | .swap i j => some { s with buffer := swapped s.buffer i j }

/-- The same calls on byte strings. -/
def stringMachine (ι : Type) [DecidableEq ι] : Machine (Strings ι) (Call ι) where
  init s := s = ⟨fun _ => [], []⟩
  step s
    | .on i op =>
      let r := op.abstract (s.contents i)
      some ⟨Function.update s.contents i r.2, s.returned ++ [r.1]⟩
    | .swap i j => some { s with contents := fun k => s.contents (Equiv.swap i j k) }

/-- The relation of the simulation: every buffer is valid and holds its string, and no assert failed. -/
structure Holds (s : Buffers ι) (a : Strings ι) : Prop where
  valid : ∀ i, (s.buffer i).Valid
  contents : a.contents = fun i => (s.buffer i).readable
  returned : a.returned = s.returned
  failed : s.failed = []

/-- Reading every buffer commutes with replacing one. -/
theorem readable_update (f : ι → Buffer) (i : ι) (b : Buffer) :
    Function.update (fun j => (f j).readable) i b.readable =
      fun j => (Function.update f i b j).readable := by
  funext j
  by_cases hj : j = i
  · subst hj
    simp only [Function.update_self]
  · simp only [Function.update_of_ne hj]

/-- `swap` member by member leaves each of the two buffers as the other was, also when it is the other. -/
theorem swapped_apply (f : ι → Buffer) (i j k : ι) : swapped f i j k = f (Equiv.swap i j k) := by
  rw [Equiv.swap_apply_def, swapped, Function.update_apply, Function.update_apply]
  by_cases hj : k = j
  · by_cases hi : k = i
    · subst hi hj
      simp only [if_true]
      rfl
    · rw [if_pos hj, if_neg hi, if_pos hj]
      rfl
  · rw [if_neg hj, if_neg hj]
    by_cases hi : k = i
    · rw [if_pos hi, if_pos hi]
      rfl
    · rw [if_neg hi, if_neg hi]

theorem bufferMachine_refines : Machine.Refines (bufferMachine ι) (stringMachine ι) Holds where
  step s a call s' hR hstep := by
    cases call with
    | on i op =>
        simp only [bufferMachine] at hstep
        split at hstep
        · rename_i hop
          rcases exec_spec (hR.valid i) hop with ⟨b, hexec, hv, hread⟩ | ⟨w, hexec⟩
          · rw [hexec] at hstep
            simp only [Option.some.injEq, List.append_nil] at hstep
            subst hstep
            refine ⟨_, rfl, ?_, ?_, ?_, hR.failed⟩
            · intro j
              by_cases hj : j = i
              · subst hj
                simpa only [Function.update_self] using hv
              · simpa only [Function.update_of_ne hj] using hR.valid j
            · simp only [hR.contents]
              rw [← hread, readable_update]
            · simp only [hR.returned, hR.contents]
          · rw [hexec] at hstep
            exact absurd hstep (by simp)
        · exact absurd hstep (by simp)
    | swap i j =>
        simp only [bufferMachine, Option.some.injEq] at hstep
        subst hstep
        refine ⟨_, rfl, ?_, ?_, hR.returned, hR.failed⟩
        · intro k
          show (swapped s.buffer i j k).Valid
          rw [swapped_apply]
          exact hR.valid _
        · funext k
          show a.contents (Equiv.swap i j k) = (swapped s.buffer i j k).readable
          rw [hR.contents, swapped_apply]

omit [DecidableEq ι] in
theorem holds_new : Holds (⟨fun _ => new, [], []⟩ : Buffers ι) ⟨fun _ => [], []⟩ where
  valid _ := new_valid
  contents := funext fun _ => new_readable.symm
  returned := rfl
  failed := rfl

/-- **Buffers are byte strings.** After any calls within their bounds on any number of buffers, the
    indices are in order, each buffer holds the string the same calls leave on byte strings, the same
    strings were returned and no assert failed; and from there `ensureWritableBytes` and `makeSpace`,
    unless they throw, keep the readable bytes and pass their asserts. -/
theorem buffers_are_strings {calls : List (Call ι)} {s : Buffers ι}
    (hrun : (bufferMachine ι).run ⟨fun _ => new, [], []⟩ calls = some s) :
    (∀ i, (s.buffer i).readerIndex_ ≤ (s.buffer i).writerIndex_ ∧
      (s.buffer i).writerIndex_ ≤ (s.buffer i).buffer_.length) ∧
    (stringMachine ι).run ⟨fun _ => [], []⟩ calls =
      some ⟨fun i => (s.buffer i).readable, s.returned⟩ ∧
    s.failed = [] ∧
    ∀ i len, (s.buffer i).SizesFit len →
      (∀ b' fs, (s.buffer i).ensureWritableBytes len = .ok b' fs →
        b'.readable = (s.buffer i).readable ∧ fs = []) ∧
      ((s.buffer i).writableBytes < len → ∀ b' fs, (s.buffer i).makeSpace len = .ok b' fs →
        b'.readable = (s.buffer i).readable ∧ fs = []) := by
  obtain ⟨⟨contents, returned⟩, habs, hR⟩ := bufferMachine_refines.run holds_new hrun
  have hcontents : contents = fun i => (s.buffer i).readable := hR.contents
  have hreturned : returned = s.returned := hR.returned
  subst hcontents hreturned
  refine ⟨fun i => ⟨(hR.valid i).reader_le, (hR.valid i).writer_le⟩, habs, hR.failed, ?_⟩
  intro i len hfit
  constructor
  · intro b' fs hens
    rcases ensureWritableBytes_spec (hR.valid i) hfit with ⟨b, hok, _, _, hread⟩ | hthrow
    · rw [hok, Attempt.ok.injEq] at hens
      exact ⟨hens.1 ▸ hread, hens.2.symm⟩
    · rw [hthrow] at hens
      exact absurd hens (by simp)
  · intro hneed b' fs hmake
    rcases makeSpace_spec (hR.valid i) hfit hneed with ⟨b, hok, _, _, hread⟩ | hthrow
    · rw [hok, Attempt.ok.injEq] at hmake
      exact ⟨hmake.1 ▸ hread, hmake.2.symm⟩
    · rw [hthrow] at hmake
      exact absurd hmake (by simp)

/-- A run with a prepend below `kCheapPrepend`, a slide, a growth and a swap. -/
def sampleCalls : List (Call Bool) :=
  [.on true (.append [1, 2, 3]), .on true (.prepend [9, 8]), .on true (.ensureWritableBytes 2000),
   .on true (.retrieve 3), .on true (.write (List.replicate 1500 7) 1500),
   .on true (.retrieveUntil 1400), .on true (.append (List.replicate 600 5)),
   .on false (.append [6]), .swap true false, .on false (.retrieve 698), .on true (.prepend [4])]

/-- Behind the swap each buffer holds what the other one held. -/
theorem buffers_are_strings_sample :
    ∃ s, (bufferMachine Bool).run ⟨fun _ => new, [], []⟩ sampleCalls = some s ∧
      (∀ i, (s.buffer i).readerIndex_ ≤ (s.buffer i).writerIndex_ ∧
        (s.buffer i).writerIndex_ ≤ (s.buffer i).buffer_.length) ∧
      (s.buffer true).readable = [4, 6] ∧ (s.buffer false).readable = [5, 5, 5, 5] ∧ s.failed = [] := by
  have hsome : ((bufferMachine Bool).run ⟨fun _ => new, [], []⟩ sampleCalls).isSome = true := by
    decide +kernel
  obtain ⟨s, hs⟩ := Option.isSome_iff_exists.mp hsome
  obtain ⟨hindex, hstrings, hfailed, _⟩ := buffers_are_strings hs
  have habstract : ((stringMachine Bool).run ⟨fun _ => [], []⟩ sampleCalls).map
      (fun a => (a.contents true, a.contents false)) = some ([4, 6], [5, 5, 5, 5]) := by
    decide +kernel
  rw [hstrings, Option.map_some, Option.some.injEq, Prod.mk.injEq] at habstract
  exact ⟨s, hs, hindex, habstract.1, habstract.2, hfailed⟩

end Buffer

end Simplev
