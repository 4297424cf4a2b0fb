import Simplev.Net.BufferRefinement

/-!
# `Net.Correctness.Shrink` — what `shrink` leaves behind

`shrink` rebuilds the vector with the readable bytes at `kCheapPrepend`, but leaves `readerIndex_` and
`writerIndex_` where they were. So the indices fit the new vector when `readerIndex_` was
`kCheapPrepend` all along, as it is before the first read. Behind it the readable part starts too late
and runs into the reserve, or past the vector; in front of it, after a `prepend`, it starts in the
zeros of the fresh vector. And the size of the vector can wrap around: it is then shorter than the
reserve, and with nothing readable `shrink` still returns (`Valid.shrink_wrapped_empty`).

- `Alike` compares two buffers through any later appends and retrievals, and `alike_of_readable` says
  that equal contents now are enough for it.
- `shrink_keeps_iff` is the exact condition.
-/

namespace Simplev

open Foundation

namespace Buffer

variable {b b' : Buffer} {reserve : Nat}

/-! ## Later calls -/

/-- The appends and the retrievals, within their bounds on `s` readable bytes. -/
def Op.Streams (s : List Byte) : Op → Prop
  | .append data => data.length ≤ maxSize
  | .retrieve len => len ≤ s.length
  | .retrieveUntil n => n ≤ s.length
  | .retrieveAll => True
  | .retrieveAsString => True
  | _ => False

/-- The two buffers hold the same bytes, and every such call that returns on both returns the same
    string, fails no assert and leaves them so again. -/
def Alike : Buffer → Buffer → List Op → Prop
  | b, b', [] => b'.readable = b.readable
  | b, b', op :: ops =>
    b'.readable = b.readable ∧
    (op.Streams b.readable → ∀ str c fs str' c' fs',
      op.exec b = .ok (str, c) fs → op.exec b' = .ok (str', c') fs' →
      str' = str ∧ fs = [] ∧ fs' = [] ∧ Alike c c' ops)

theorem Op.Streams.allowed (hv : b.Valid) {op : Op} (h : op.Streams b.readable) : op.Allowed b := by
  have hcount := hv.length_readable
  cases op with
  | append data => exact hv.sizesFit h
  | retrieve len =>
      have hlen : len ≤ b.readable.length := h
      exact Nat.le_trans hlen (Nat.le_of_eq hcount)
  | retrieveUntil n =>
      have hn : n ≤ b.readable.length := h
      have hr := hv.reader_le
      rw [hcount, hv.readableBytes_eq] at hn
      show b.readerIndex_ + n ≤ b.writerIndex_
      omega
  | retrieveAll => trivial
  | retrieveAsString => trivial
  | prepend data => exact h.elim
  | ensureWritableBytes len => exact h.elim
  | write data n => exact h.elim

/-- Equal contents stay equal: where in its vector a buffer keeps them does not show. -/
theorem alike_of_readable {ops : List Op} (hv : b.Valid) (hv' : b'.Valid)
    (hread : b'.readable = b.readable) : Alike b b' ops := by
  induction ops generalizing b b' with
  | nil => exact hread
  | cons op ops ih =>
      refine ⟨hread, ?_⟩
      intro hop str c fs str' c' fs' hexec hexec'
      obtain ⟨hfs, hc, hstr, hleft⟩ := exec_ok hv (hop.allowed hv) hexec
      rw [← hread] at hop
      obtain ⟨hfs', hc', hstr', hleft'⟩ := exec_ok hv' (hop.allowed hv') hexec'
      rw [hread] at hstr' hleft'
      exact ⟨hstr'.trans hstr.symm, hfs, hfs', ih hc hc' (hleft'.trans hleft.symm)⟩

/-! ## The new vector -/

/-- The vector `shrink` builds. -/
def shrunk (b : Buffer) (reserve : Nat) : List Byte :=
  List.replicate kCheapPrepend 0 ++ b.readable ++ List.replicate reserve 0

theorem length_shrunk (b : Buffer) (reserve : Nat) :
    (b.shrunk reserve).length = kCheapPrepend + b.readable.length + reserve := by
  simp only [shrunk, List.length_append, List.length_replicate]

/-- A vector that can exist without wrap-around is that one. -/
theorem Valid.shrink_eq (hv : b.Valid)
    (hfit : kCheapPrepend + b.readableBytes + reserve ≤ maxSize) :
    b.shrink reserve = .ok { b with buffer_ := b.shrunk reserve } [] := by
  have hbound := maxSize_lt
  have hsize : sizeAdd (sizeAdd kCheapPrepend b.readableBytes) reserve =
      kCheapPrepend + b.readable.length + reserve := by
    have hinner : sizeAdd kCheapPrepend b.readableBytes = kCheapPrepend + b.readableBytes :=
      sizeAdd_of_lt (by omega)
    rw [hinner, sizeAdd_of_lt (by omega), hv.length_readable]
  have hbuf : overwrite (List.replicate (kCheapPrepend + b.readable.length + reserve) 0)
      kCheapPrepend b.readable = b.shrunk reserve := by
    rw [overwrite, List.take_replicate, List.drop_replicate, shrunk,
      Nat.min_eq_left (by omega), Nat.add_sub_cancel_left]
  rw [shrink, hsize, if_neg (by rw [hv.length_readable]; omega), if_neg (fun hcopy => by omega)]
  simp only [hbuf, Outcome.pure_eq]

/-- The copy leaves the size of the vector as it is, unless it is out of range. -/
theorem length_copied {size : Nat}
    (hcopy : ¬ (b.readable ≠ [] ∧ size < kCheapPrepend + b.readable.length)) :
    (overwrite (List.replicate size 0) kCheapPrepend b.readable).length = size := by
  by_cases hnone : b.readable = []
  · rw [hnone, overwrite, List.append_nil, List.length_nil, Nat.add_zero, List.take_append_drop,
      List.length_replicate]
  · have hend : kCheapPrepend + b.readable.length ≤ size := by
      apply Nat.le_of_not_lt
      exact fun hshort => hcopy ⟨hnone, hshort⟩
    rw [length_overwrite (by rw [List.length_replicate]; exact hend), List.length_replicate]

/-- The size `shrink` computes when it does not fit in 64 bits. -/
theorem Valid.shrink_size (hv : b.Valid) (hreserve : reserve < sizeBound)
    (hwrap : sizeBound ≤ kCheapPrepend + b.readableBytes + reserve) :
    ∃ size, kCheapPrepend + b.readableBytes + reserve = size + sizeBound ∧
      sizeAdd (sizeAdd kCheapPrepend b.readableBytes) reserve = size := by
  have hcheap : kCheapPrepend = 8 := rfl
  have hsmall : maxSize + 8 < sizeBound := by decide
  have hcount := hv.readableBytes_eq
  have hw := hv.writer_le
  have hmax := hv.size_le
  obtain ⟨size, hsum⟩ : ∃ size, kCheapPrepend + b.readableBytes + reserve = size + sizeBound :=
    ⟨_, (Nat.sub_add_cancel hwrap).symm⟩
  have hinner : sizeAdd kCheapPrepend b.readableBytes = kCheapPrepend + b.readableBytes :=
    sizeAdd_of_lt (by omega)
  refine ⟨size, hsum, ?_⟩
  rw [hinner]
  exact sizeAdd_of_wrap hsum (by omega)

/-- Where the vector cannot be long enough, `shrink` throws, or its size has wrapped around to less than
    the reserve alone. The indices stay. -/
theorem Valid.shrink_short (hv : b.Valid) (hreserve : reserve < sizeBound)
    (hbig : maxSize < kCheapPrepend + b.readableBytes + reserve) {fs : List String}
    (hret : b.shrink reserve = .ok b' fs) :
    b'.readerIndex_ = b.readerIndex_ ∧ b'.writerIndex_ = b.writerIndex_ ∧
      b'.buffer_.length < reserve := by
  have hcheap : kCheapPrepend = 8 := rfl
  have hsmall : maxSize + 8 < sizeBound := by decide
  have hcount := hv.readableBytes_eq
  have hw := hv.writer_le
  have hmax := hv.size_le
  unfold shrink at hret
  by_cases hwrap : kCheapPrepend + b.readableBytes + reserve < sizeBound
  · have hinner : sizeAdd kCheapPrepend b.readableBytes = kCheapPrepend + b.readableBytes :=
      sizeAdd_of_lt (by omega)
    rw [hinner, sizeAdd_of_lt hwrap, if_pos hbig] at hret
    cases hret
  · obtain ⟨size, hsum, hsize⟩ := hv.shrink_size hreserve (Nat.le_of_not_lt hwrap)
    rw [hsize] at hret
    by_cases hmany : maxSize < size
    · rw [if_pos hmany] at hret
      cases hret
    · rw [if_neg hmany] at hret
      by_cases hcopy : b.readable ≠ [] ∧ size < kCheapPrepend + b.readable.length
      · rw [if_pos hcopy] at hret
        cases hret
      · rw [if_neg hcopy] at hret
        simp only [Outcome.pure_eq, Outcome.ok.injEq] at hret
        obtain ⟨rfl, -⟩ := hret
        refine ⟨rfl, rfl, ?_⟩
        rw [length_copied hcopy]
        omega

/-- With nothing readable nothing is copied, and a size that wraps around gives a vector without even the
    cheap-prepend area: the indices, from `kCheapPrepend` on, lie behind its end. -/
theorem Valid.shrink_wrapped_empty (hv : b.Valid) (hnone : b.readable = [])
    (hreserve : reserve < sizeBound) (hwrap : sizeBound ≤ kCheapPrepend + reserve) :
    ∃ v, b.shrink reserve = .ok { b with buffer_ := v } [] ∧ v.length < kCheapPrepend := by
  have hcheap : kCheapPrepend = 8 := rfl
  have hsmall : 8 < maxSize := by decide
  have hzero : b.readableBytes = 0 := hv.readableBytes_eq_zero.mpr hnone
  obtain ⟨size, hsum, hsize⟩ := hv.shrink_size hreserve (by omega)
  have hcopy : ¬ (b.readable ≠ [] ∧ size < kCheapPrepend + b.readable.length) := fun h => h.1 hnone
  refine ⟨overwrite (List.replicate size 0) kCheapPrepend b.readable, ?_, ?_⟩
  · rw [shrink, hsize, if_neg (by omega), if_neg hcopy]
    rfl
  · rw [length_copied hcopy]
    omega

/-- A new buffer, the largest reserve but seven: no storage at all, and both indices at 8. -/
example : new.shrink (sizeBound - 8) = .ok { new with buffer_ := [] } [] := by decide +kernel

/-- What is readable in the new vector when `readerIndex_` lies within the cheap-prepend area. -/
theorem Valid.readable_shrunk (hv : b.Valid) (hfront : b.readerIndex_ ≤ kCheapPrepend) :
    segment (b.shrunk reserve) b.readerIndex_ b.writerIndex_ =
      (List.replicate (kCheapPrepend - b.readerIndex_) 0 ++ b.readable).take b.readable.length := by
  have hcount : b.readable.length = b.writerIndex_ - b.readerIndex_ := length_segment hv.writer_le
  rw [Foundation.segment, ← hcount, shrunk, List.append_assoc,
    List.drop_append_of_le_length (by rw [List.length_replicate]; exact hfront), List.drop_replicate,
    ← List.append_assoc, List.take_append_of_le_length (by rw [List.length_append]; omega)]

/-! ## The condition -/

/-- **What `shrink` promises**: the readable bytes stay, the indices are in order, `reserve` bytes are
    writable, and no later append or retrieval shows a difference. -/
def ShrinkKeeps (b : Buffer) (reserve : Nat) : Prop :=
  ∃ b', b.shrink reserve = .ok b' [] ∧ b'.readable = b.readable ∧
    b'.readerIndex_ ≤ b'.writerIndex_ ∧ b'.writerIndex_ ≤ b'.buffer_.length ∧
    reserve ≤ b'.writableBytes ∧ ∀ ops, Alike b b' ops

/-- The new vector can exist, and the readable part starts at `kCheapPrepend`, or before it with only
    zeros in it. -/
def FitsShrink (b : Buffer) (reserve : Nat) : Prop :=
  kCheapPrepend + b.readableBytes + reserve ≤ maxSize ∧
  (b.readerIndex_ = kCheapPrepend ∨
    b.readerIndex_ < kCheapPrepend ∧ ∀ x ∈ b.readable, x = 0)

instance (b : Buffer) (reserve : Nat) : Decidable (b.FitsShrink reserve) :=
  inferInstanceAs (Decidable (_ ∧ _))

/-- The contents stay just when nothing but zeros moved. -/
theorem Valid.readable_shrunk_iff (hv : b.Valid) (hfront : b.readerIndex_ ≤ kCheapPrepend) :
    segment (b.shrunk reserve) b.readerIndex_ b.writerIndex_ = b.readable ↔
      b.readerIndex_ = kCheapPrepend ∨
        b.readerIndex_ < kCheapPrepend ∧ ∀ x ∈ b.readable, x = 0 := by
  rw [hv.readable_shrunk hfront]
  rcases Nat.lt_or_eq_of_le hfront with hlt | heq
  · rw [take_pad_eq_iff (Nat.sub_pos_of_lt hlt)]
    exact ⟨fun hz => Or.inr ⟨hlt, hz⟩, fun h => h.elim (fun he => absurd he (Nat.ne_of_lt hlt)) (·.2)⟩
  · rw [heq, Nat.sub_self, List.replicate_zero, List.nil_append, List.take_length]
    exact iff_of_true rfl (Or.inl rfl)

/-- **`shrink` keeps the contents** of a buffer that keeps the class invariant if and only if the new
    vector can exist and its data starts where `readerIndex_` points, or both hold only zeros. -/
theorem shrink_keeps_iff (hv : b.Valid) (hreserve : reserve < sizeBound) :
    b.ShrinkKeeps reserve ↔ b.FitsShrink reserve := by
  have hcheap : kCheapPrepend = 8 := rfl
  have hr := hv.reader_le
  have hcount := hv.readableBytes_eq
  have hlen := hv.length_readable
  constructor
  · rintro ⟨b', hret, hread, -, hwriter, hroom, -⟩
    have hfit : kCheapPrepend + b.readableBytes + reserve ≤ maxSize := by
      apply Nat.le_of_not_lt
      intro hbig
      -- a vector that is too short has no room for the reserve behind `writerIndex_`
      obtain ⟨-, -, hshort⟩ := hv.shrink_short hreserve hbig hret
      rw [writableBytes, sizeSub_of_le hwriter (by omega)] at hroom
      omega
    rw [hv.shrink_eq hfit, Outcome.ok.injEq] at hret
    obtain ⟨rfl, -⟩ := hret
    have hsize := b.length_shrunk reserve
    have hbound := maxSize_lt
    -- room for the reserve behind `writerIndex_` keeps `readerIndex_` from lying too far back
    have hroom' : reserve ≤ sizeSub (b.shrunk reserve).length b.writerIndex_ := hroom
    have hwriter' : b.writerIndex_ ≤ (b.shrunk reserve).length := hwriter
    rw [sizeSub_of_le hwriter' (by omega)] at hroom'
    exact ⟨hfit, (hv.readable_shrunk_iff (by omega)).mp hread⟩
  · rintro ⟨hfit, hfront⟩
    have hle : b.readerIndex_ ≤ kCheapPrepend := by
      rcases hfront with heq | ⟨hlt, -⟩
      · exact Nat.le_of_eq heq
      · exact Nat.le_of_lt hlt
    have hsize := b.length_shrunk reserve
    have hbound := maxSize_lt
    have hread : segment (b.shrunk reserve) b.readerIndex_ b.writerIndex_ = b.readable :=
      (hv.readable_shrunk_iff hle).mpr hfront
    have hwriter : b.writerIndex_ ≤ (b.shrunk reserve).length := by omega
    have hv' : ({ b with buffer_ := b.shrunk reserve } : Buffer).Valid :=
      ⟨hr, hwriter, by show kCheapPrepend ≤ (b.shrunk reserve).length; omega,
        by show (b.shrunk reserve).length ≤ maxSize; omega⟩
    refine ⟨_, hv.shrink_eq hfit, hread, hr, hwriter, ?_, fun ops => alike_of_readable hv hv' hread⟩
    show reserve ≤ sizeSub (b.shrunk reserve).length b.writerIndex_
    rw [sizeSub_of_le hwriter (by omega)]
    omega

theorem shrink_keeps_new : new.ShrinkKeeps 16 := by
  apply (shrink_keeps_iff new_valid ?_).mpr
  · decide +kernel
  · decide

/-- Two bytes appended and one of them read. -/
def halfRead : Buffer where
  buffer_ := overwrite (List.replicate 1032 0) 8 [1, 2]
  readerIndex_ := 9
  writerIndex_ := 10

/-- The data moved to the front, the indices did not: nothing of it is readable any more. -/
theorem shrink_loses_contents :
    ∃ s, (bufferMachine Unit).run ⟨fun _ => new, [], []⟩
        [.on () (.append [1, 2]), .on () (.retrieve 1)] = some s ∧
      s.buffer () = halfRead ∧ ¬ halfRead.ShrinkKeeps 0 := by
  have hrun : ((bufferMachine Unit).run ⟨fun _ => new, [], []⟩
      [.on () (.append [1, 2]), .on () (.retrieve 1)]).map (fun s => s.buffer ()) =
        some halfRead := by decide +kernel
  obtain ⟨s, hs, hbuffer⟩ := Option.map_eq_some_iff.mp hrun
  refine ⟨s, hs, hbuffer, ?_⟩
  rintro ⟨b', hret, hread, -⟩
  have hshrink : halfRead.shrink 0 = .ok { halfRead with buffer_ := List.replicate 8 0 ++ [2] } [] := by
    decide +kernel
  rw [hshrink, Outcome.ok.injEq] at hret
  obtain ⟨rfl, -⟩ := hret
  exact absurd hread (by decide +kernel)

end Buffer

end Simplev
