import Simplev.Net.BufferRefinement

/-!
# `Net.Correctness.Growth` — the storage of a buffer is bounded

`retrieve` only moves `readerIndex_`, so the used part of the vector drifts to its end, and whether an
append slides or grows depends on the history. But the growth is taken only when the free space in
front is below `len + kCheapPrepend`: the new size is then at most the readable bytes, twice `len` and
`kCheapPrepend - 1` (`RoomFor.length_le`), whatever the history was.

`storageMachine` runs any calls on any number of buffers, `readFd` included; `Within M` is the
condition on the calls of `ensureWritableBytes` that a step makes.
-/

namespace Simplev

open Foundation

namespace Buffer

/-! ## Which calls ensure room -/

/-- The call of `ensureWritableBytes` that a member function makes: on which buffer, for how much. -/
def Op.ensures (b : Buffer) : Op → Option (Buffer × Nat)
  | .append data => some (b, data.length)
  | .ensureWritableBytes len => some (b, len)
  | _ => none

/-- The same for `readFd`: the `append` of the bytes in `extrabuf`, on the buffer that is full. -/
def Readv.ensures (b : Buffer) : Readv → Option (Buffer × Nat)
  | .data bytes =>
    if bytes.length ≤ b.writableBytes then none
    else some (b.filled bytes, (bytes.drop b.writableBytes).length)
  | .error _ => none

/-- No size computation exceeds 64 bits, and the data with twice the room stays below `M`. -/
def Within (M : Nat) : Option (Buffer × Nat) → Prop
  | some (b, len) => b.SizesFit len ∧ b.readableBytes + 2 * len + kCheapPrepend - 1 ≤ M
  | none => True

instance (M : Nat) : (e : Option (Buffer × Nat)) → Decidable (Within M e)
  | some (b, len) =>
    inferInstanceAs (Decidable (b.SizesFit len ∧ b.readableBytes + 2 * len + kCheapPrepend - 1 ≤ M))
  | none => inferInstanceAs (Decidable True)

variable {b b' : Buffer} {M : Nat}

/-! ## What each call does to the size -/

theorem retrieve_length {len : Nat} {fs : List String} (h : b.retrieve len = .ok b' fs) :
    b'.buffer_.length = b.buffer_.length := by
  obtain ⟨gs, hret, -⟩ := Outcome.assert_bind_eq_ok h
  simp only [Outcome.pure_eq, Outcome.ok.injEq] at hret
  obtain ⟨rfl, -⟩ := hret
  rfl

theorem retrieveUntil_length {stop : Nat} {fs : List String}
    (h : b.retrieveUntil stop = .ok b' fs) : b'.buffer_.length = b.buffer_.length := by
  obtain ⟨gs, hrest, -⟩ := Outcome.assert_bind_eq_ok h
  obtain ⟨hs, hret, -⟩ := Outcome.assert_bind_eq_ok hrest
  exact retrieve_length hret

theorem prepend_length (hv : b.Valid) {data : List Byte} (hlen : data.length ≤ b.prependableBytes)
    {fs : List String} (h : b.prepend data = .ok b' fs) :
    b'.buffer_.length = b.buffer_.length := by
  have hr := hv.reader_le
  have hw := hv.writer_le
  have hroom : data.length ≤ b.readerIndex_ := hlen
  have hsub : sizeSub b.readerIndex_ data.length = b.readerIndex_ - data.length :=
    sizeSub_of_le hroom (by have := hv.size_le; have := maxSize_lt; omega)
  obtain ⟨gs, hret, -⟩ := Outcome.assert_bind_eq_ok h
  simp only [Outcome.pure_eq, Outcome.ok.injEq, hsub] at hret
  obtain ⟨rfl, -⟩ := hret
  exact length_overwrite (by omega)

theorem RoomFor.length_within {len : Nat} (h : RoomFor b len b') (hM : b.buffer_.length ≤ M)
    (hin : Within M (some (b, len))) : b'.buffer_.length ≤ M :=
  Nat.le_trans h.length_le (Nat.max_le.mpr ⟨hM, hin.2⟩)

theorem ensureWritableBytes_length (ho : b.InOrder) {len : Nat} {fs : List String}
    (h : b.ensureWritableBytes len = .ok b' fs) (hM : b.buffer_.length ≤ M)
    (hin : Within M (some (b, len))) : b'.buffer_.length ≤ M := by
  rcases ho.ensureWritableBytes_room hin.1 with ⟨b₁, hens, hroom⟩ | ⟨-, hthrown⟩
  · rw [hens, Attempt.ok.injEq] at h
    obtain ⟨rfl, -⟩ := h
    exact hroom.length_within hM hin
  · rw [hthrown] at h
    cases h

theorem append_length (ho : b.InOrder) {data : List Byte} {fs : List String}
    (h : b.append data = .ok b' fs) (hM : b.buffer_.length ≤ M)
    (hin : Within M (some (b, data.length))) : b'.buffer_.length ≤ M := by
  rcases ho.append_room hin.1 with ⟨b₁, b₂, -, hroom, happ, -, hlen, -⟩ | ⟨-, hthrown⟩
  · rw [happ, Outcome.ok.injEq] at h
    obtain ⟨rfl, -⟩ := h
    rw [hlen]
    exact hroom.length_within hM hin
  · rw [hthrown] at h
    cases h

/-- The outcome of a `void` member that stands for the call. -/
theorem exec_void {x : Outcome Buffer} {str : List Byte} {fs : List String}
    (h : (do return ([], ← x) : Outcome (List Byte × Buffer)) = .ok (str, b') fs) :
    ∃ gs, x = .ok b' gs := by
  obtain ⟨b₁, gs, hs, hx, hret, -⟩ := Outcome.bind_eq_ok h
  simp only [Outcome.pure_eq, Outcome.ok.injEq, Prod.mk.injEq] at hret
  obtain ⟨⟨-, rfl⟩, -⟩ := hret
  exact ⟨gs, hx⟩

/-- **A call keeps the bound.** -/
theorem exec_length (hv : b.Valid) {op : Op} (hop : op.Allowed b) {str : List Byte}
    {fs : List String} (h : op.exec b = .ok (str, b') fs) (hM : b.buffer_.length ≤ M)
    (hin : Within M (op.ensures b)) : b'.buffer_.length ≤ M := by
  cases op with
  | append data =>
      obtain ⟨gs, happ⟩ := exec_void h
      exact append_length hv.inOrder happ hM hin
  | ensureWritableBytes len =>
      obtain ⟨gs, hens⟩ := exec_void h
      exact ensureWritableBytes_length hv.inOrder (Attempt.outcome_eq_ok hens) hM hin
  | prepend data =>
      obtain ⟨gs, hpre⟩ := exec_void h
      rw [prepend_length hv hop hpre]
      exact hM
  | retrieve len =>
      obtain ⟨gs, hret⟩ := exec_void h
      rw [retrieve_length hret]
      exact hM
  | retrieveUntil n =>
      obtain ⟨gs, hret⟩ := exec_void h
      rw [retrieveUntil_length hret]
      exact hM
  | retrieveAll =>
      simp only [Op.exec, Outcome.pure_eq, Outcome.ok.injEq, Prod.mk.injEq] at h
      obtain ⟨⟨-, rfl⟩, -⟩ := h
      exact hM
  | retrieveAsString =>
      simp only [Op.exec, retrieveAsString, Outcome.pure_eq, Outcome.ok.injEq, Prod.mk.injEq] at h
      obtain ⟨⟨-, rfl⟩, -⟩ := h
      exact hM
  | write data n =>
      simp only [Op.exec, Outcome.pure_eq, Outcome.ok.injEq, Prod.mk.injEq] at h
      obtain ⟨⟨-, rfl⟩, -⟩ := h
      show (b.store data).buffer_.length ≤ M
      rw [hv.inOrder.length_store hop.1]
      exact hM

/-- **So does a read**, whose bytes beyond the storage go through `append` on the full buffer. -/
theorem readFd_length (hv : b.Valid) {r : Readv} {n e : Option Nat} {fs : List String}
    (h : b.readFd r = .ok (n, e, b') fs) (hM : b.buffer_.length ≤ M)
    (hin : Within M (r.ensures b)) : b'.buffer_.length ≤ M := by
  cases r with
  | error errno =>
      simp only [readFd, Outcome.ok.injEq, Prod.mk.injEq] at h
      obtain ⟨⟨-, -, rfl⟩, -⟩ := h
      exact hM
  | data bytes =>
      by_cases hroom : bytes.length ≤ b.writableBytes
      · have htake : bytes.take b.writableBytes = bytes := List.take_of_length_le hroom
        simp only [readFd, if_pos hroom, htake, Outcome.pure_eq, Outcome.ok.injEq,
          Prod.mk.injEq] at h
        obtain ⟨⟨-, -, rfl⟩, -⟩ := h
        show (b.store bytes).buffer_.length ≤ M
        rw [hv.inOrder.length_store hroom]
        exact hM
      · -- the storage is filled where it stands; only the `append` of the rest can make it grow
        obtain ⟨horder, hsame, -⟩ := hv.inOrder.filled_spec (Nat.lt_of_not_le hroom)
        rw [Readv.ensures, if_neg hroom] at hin
        simp only [readFd, if_neg hroom] at h
        obtain ⟨b₁, gs, hs, happ, hret, -⟩ := Outcome.bind_eq_ok h
        simp only [Outcome.pure_eq, Outcome.ok.injEq, Prod.mk.injEq] at hret
        obtain ⟨⟨-, -, rfl⟩, -⟩ := hret
        exact append_length horder happ (hsame ▸ hM) hin

/-! ## Runs -/

/-- A member function other than `shrink`, on one of the buffers or between two. -/
inductive Use (ι : Type) where
  | call (c : Call ι)
  | readFd (i : ι) (r : Readv)
deriving DecidableEq, Repr

variable {ι : Type} [DecidableEq ι]

/-- Calls within their bounds on buffers that start out new. A call that throws ends the run. -/
def storageMachine (ι : Type) [DecidableEq ι] : Machine (ι → Buffer) (Use ι) where
  init s := s = fun _ => new
  step s
    | .call (.on i op) =>
      if op.Allowed (s i) then
        match op.exec (s i) with
        | .ok (_, b) _ => some (Function.update s i b)
        | .thrown _ => none
      else none
    | .call (.swap i j) => some (swapped s i j)
    | .readFd i r =>
      if r.Fits (s i) then
        match (s i).readFd r with
        | .ok (_, _, b) _ => some (Function.update s i b)
        | .thrown _ => none
      else none

/-- The call of `ensureWritableBytes` that a step makes. -/
def Use.ensures (s : ι → Buffer) : Use ι → Option (Buffer × Nat)
  | .call (.on i op) => op.ensures (s i)
  | .call (.swap _ _) => none
  | .readFd i r => r.ensures (s i)

/-- Every buffer keeps the class invariant and the bound. -/
def Bounded (M : Nat) (s : ι → Buffer) : Prop := ∀ i, (s i).Valid ∧ (s i).buffer_.length ≤ M

omit [DecidableEq ι] in
theorem new_bounded (hM : kCheapPrepend + kInitialSize ≤ M) : Bounded M fun _ : ι => new := by
  intro i
  refine ⟨new_valid, ?_⟩
  rw [new, List.length_replicate]
  exact hM

theorem Bounded.update {s : ι → Buffer} (h : Bounded M s) (i : ι) (hv : b.Valid)
    (hb : b.buffer_.length ≤ M) : Bounded M (Function.update s i b) := by
  intro j
  by_cases hj : j = i
  · subst hj
    rw [Function.update_self]
    exact ⟨hv, hb⟩
  · rw [Function.update_of_ne hj]
    exact h j

/-- **The step lemma.** -/
theorem Bounded.step {s s' : ι → Buffer} {u : Use ι} (h : Bounded M s)
    (hin : Within M (u.ensures s)) (hstep : (storageMachine ι).step s u = some s') :
    Bounded M s' := by
  cases u with
  | call c =>
      cases c with
      | on i op =>
          simp only [storageMachine, Option.ite_none_right_eq_some] at hstep
          obtain ⟨hop, hstep⟩ := hstep
          split at hstep
          · rename_i str b fs hexec
            simp only [Option.some.injEq] at hstep
            subst hstep
            obtain ⟨hv, hM⟩ := h i
            exact h.update i (exec_ok hv hop hexec).2.1 (exec_length hv hop hexec hM hin)
          · cases hstep
      | swap i j =>
          simp only [storageMachine, Option.some.injEq] at hstep
          subst hstep
          intro k
          rw [swapped_apply]
          exact h _
  | readFd i r =>
      simp only [storageMachine, Option.ite_none_right_eq_some] at hstep
      obtain ⟨hfit, hstep⟩ := hstep
      split at hstep
      · rename_i n e b fs hread
        simp only [Option.some.injEq] at hstep
        subst hstep
        obtain ⟨hv, hM⟩ := h i
        have hlength := readFd_length hv hread hM hin
        cases r with
        | error errno =>
            simp only [readFd, Outcome.ok.injEq, Prod.mk.injEq] at hread
            obtain ⟨⟨-, -, rfl⟩, -⟩ := hread
            exact h.update i hv hlength
        | data bytes =>
            rcases readFd_data_spec hv hfit with ⟨b', hret, hv', -⟩ | ⟨what, hthrown⟩
            · rw [hret] at hread
              simp only [Outcome.ok.injEq, Prod.mk.injEq] at hread
              obtain ⟨⟨-, -, rfl⟩, -⟩ := hread
              exact h.update i hv' hlength
            · rw [hthrown] at hread
              cases hread
      · cases hstep

/-- **The storage is bounded.** If at every `ensureWritableBytes(len)` of a run the readable bytes, twice
    `len` and `kCheapPrepend - 1` come to at most `M`, no vector is ever longer than `M`. -/
theorem storage_bounded {s : ι → Buffer} (hM : kCheapPrepend + kInitialSize ≤ M)
    (h : (storageMachine ι).ReachableVia (fun s u => Within M (u.ensures s)) s) (i : ι) :
    (s i).buffer_.length ≤ M := by
  have hinv : Bounded M s := by
    refine h.invariant ?_ ?_
    · rintro s rfl
      exact new_bounded hM
    · intro s u s' _ hs hin hstep
      exact hs.step hin hstep
  exact (hinv i).2

/-- Two rounds of 700 bytes in and out, and a read that overflows the storage. -/
def drainedRounds : List (Use Unit) :=
  [.call (.on () (.append (List.replicate 700 1))), .call (.on () (.retrieve 700)),
   .call (.on () (.append (List.replicate 700 2))), .call (.on () (.retrieve 690)),
   .readFd () (.data (List.replicate 1200 3)), .call (.on () .retrieveAll)]

theorem storage_bounded_drainedRounds :
    ∃ s, (storageMachine Unit).run (fun _ => new) drainedRounds = some s ∧
      (s ()).buffer_.length ≤ 2100 := by
  have hsome : ((storageMachine Unit).run (fun _ => new) drainedRounds).isSome = true := by
    decide +kernel
  obtain ⟨s, hs⟩ := Option.isSome_iff_exists.mp hsome
  have hreach := Machine.run_reachableVia (M := storageMachine Unit)
    (C := fun s u => Within 2100 (u.ensures s)) (.init rfl) (by decide +kernel) hs
  exact ⟨s, hs, storage_bounded (by decide) hreach ()⟩

end Buffer

end Simplev
