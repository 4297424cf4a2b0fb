import Simplev.Net.BufferSpec

/-!
# `Net.Correctness.Room` — `ensureWritableBytes` at the limits of `size_t`

`makeSpace` computes two sums that can wrap around. `len + kCheapPrepend` wraps for the last eight
values of `len`: the test then takes a few bytes for enough, and the slide makes no room.
`writerIndex_ + len` wraps when `len` comes within `writerIndex_` of `2^64`: `resize` then cuts the
vector off before the data ends. A `len` that is merely too long ends in the vector's length error, with
the buffer as it was. `Wraps` says when one of them does harm, and `ensures_room_iff` that
in all other cases, and only in them, `ensureWritableBytes` keeps its promise.
-/

namespace Simplev

open Foundation

namespace Buffer

variable {b b' : Buffer} {len : Nat}

/-- **The promise**, in a build with asserts or without: the vector's length error comes, and the buffer
    is as before, or no assert fails, there is room for `len` bytes, the readable bytes are the same and
    the indices are in order. -/
def EnsuresRoom (b : Buffer) (len : Nat) : Prop :=
  b.ensureWritableBytes len = .thrown lengthError b ∨
  ∃ b', b.ensureWritableBytes len = .ok b' [] ∧ len ≤ b'.writableBytes ∧
    b'.readable = b.readable ∧ b'.readerIndex_ ≤ b'.writerIndex_ ∧
    b'.writerIndex_ ≤ b'.buffer_.length

/-- A call that returned kept the promise only if no assert failed and the buffer it left is right. -/
theorem EnsuresRoom.of_ok {fs : List String} (h : b.EnsuresRoom len)
    (hens : b.ensureWritableBytes len = .ok b' fs) :
    fs = [] ∧ len ≤ b'.writableBytes ∧ b'.writerIndex_ ≤ b'.buffer_.length := by
  rcases h with hthrown | ⟨b₁, hok, hroom, -, -, horder⟩
  · rw [hthrown] at hens
    cases hens
  · rw [hok, Attempt.ok.injEq] at hens
    obtain ⟨rfl, hfs⟩ := hens
    exact ⟨hfs.symm, hroom, horder⟩

/-- The sum that steers `makeSpace` wraps around and finds enough free space, or the new size does. -/
def Wraps (b : Buffer) (len : Nat) : Prop :=
  (sizeBound ≤ len + kCheapPrepend ∧
    len + kCheapPrepend ≤ sizeBound + (b.writableBytes + b.prependableBytes)) ∨
  sizeBound ≤ b.writerIndex_ + len

instance (b : Buffer) (len : Nat) : Decidable (b.Wraps len) :=
  inferInstanceAs (Decidable (_ ∨ _))

theorem Valid.freeBytes (hv : b.Valid) :
    sizeAdd b.writableBytes b.prependableBytes = b.writableBytes + b.prependableBytes := by
  have hr := hv.reader_le
  have hw := hv.writer_le
  have hsize := hv.size_le
  have hbound := maxSize_lt
  rw [hv.writableBytes_eq]
  exact sizeAdd_of_lt (by simp only [prependableBytes]; omega)

/-- The test of `makeSpace` when its sum has wrapped around. -/
theorem Valid.test_of_wrap (hv : b.Valid) (hlen : len < sizeBound)
    (hwrap : sizeBound ≤ len + kCheapPrepend) :
    sizeAdd b.writableBytes b.prependableBytes < sizeAdd len kCheapPrepend ↔
      sizeBound + (b.writableBytes + b.prependableBytes) < len + kCheapPrepend := by
  have hcheap : kCheapPrepend = 8 := rfl
  have hsmall : maxSize + 8 < sizeBound := by decide
  obtain ⟨sum, hsum⟩ : ∃ sum, len + kCheapPrepend = sum + sizeBound :=
    ⟨_, (Nat.sub_add_cancel hwrap).symm⟩
  rw [hv.freeBytes, sizeAdd_of_wrap hsum (by omega), hsum]
  omega

/-- What the growth computes is what `resize` throws on, unless it wraps. -/
theorem resize_thrown {v : List Byte} {n : Nat} (hn : maxSize < n) :
    resize v n = .thrown lengthError v := by
  rw [resize, if_neg (Nat.not_le_of_lt hn)]

/-- A growth whose new size wraps leaves `writerIndex_` behind the end of the vector. -/
theorem Valid.cut_off (hv : b.Valid) (hlen : len < sizeBound)
    (hneed : b.writableBytes < len)
    (hgrow : sizeAdd b.writableBytes b.prependableBytes < sizeAdd len kCheapPrepend)
    (hwrap : sizeBound ≤ b.writerIndex_ + len) : ¬ b.EnsuresRoom len := by
  have hw := hv.writer_le
  have hsize := hv.size_le
  have hmax : maxSize + maxSize < sizeBound := by decide
  have hbound := maxSize_lt
  obtain ⟨size, hnew⟩ : ∃ size, b.writerIndex_ + len = size + sizeBound :=
    ⟨_, (Nat.sub_add_cancel hwrap).symm⟩
  have hshort : size < b.writerIndex_ := by omega
  have hres : resize b.buffer_ (sizeAdd b.writerIndex_ len) = .ok (b.buffer_.take size) [] := by
    have hzero : size - b.buffer_.length = 0 := by omega
    rw [sizeAdd_of_wrap hnew (by omega), resize, if_pos (by omega), hzero, List.replicate_zero,
      List.append_nil]
  intro hroom
  obtain ⟨-, -, horder⟩ :=
    hroom.of_ok (ensureWritableBytes_of_makeSpace hneed (makeSpace_of_grow hgrow hres))
  have hcut : b.writerIndex_ ≤ min size b.buffer_.length := by
    rw [← List.length_take]
    exact horder
  exact absurd (Nat.le_trans hcut (Nat.min_le_left _ _)) (Nat.not_le_of_lt hshort)

/-- A slide makes no room for more than the vector can ever hold. -/
theorem Valid.slide_fails (hv : b.Valid) (hlen : sizeBound ≤ len + kCheapPrepend)
    (hneed : b.writableBytes < len)
    (hgrow : ¬ sizeAdd b.writableBytes b.prependableBytes < sizeAdd len kCheapPrepend) :
    ¬ b.EnsuresRoom len := by
  have hr := hv.reader_le
  have hw := hv.writer_le
  have hsize := hv.size_le
  have hsmall : maxSize + 8 < sizeBound := by decide
  have hcheap : kCheapPrepend = 8 := rfl
  have hcount : b.readableBytes = b.writerIndex_ - b.readerIndex_ := hv.readableBytes_eq
  have hcopied : b.readable.length = b.writerIndex_ - b.readerIndex_ := length_segment hw
  have hens := ensureWritableBytes_of_makeSpace hneed (makeSpace_of_slide hgrow)
  intro hroom
  obtain ⟨hfailed, hfits, horder⟩ := hroom.of_ok hens
  simp only [List.append_eq_nil_iff, Outcome.unmet_eq_nil] at hfailed
  obtain ⟨⟨hslide, -⟩, -⟩ := hfailed
  -- the data fits at the front, so the room behind it is what the vector has left
  have hover : b.slid.buffer_.length = b.buffer_.length := length_overwrite (by omega)
  rw [hover] at horder
  rw [writableBytes, hover, sizeSub_of_le horder (by omega)] at hfits
  omega

/-- **Room, at every length.** On every buffer that keeps the class invariant, and for every `len` a
    `size_t` can hold, `ensureWritableBytes(len)` keeps its promise if and only if `len` bytes are
    writable already or neither sum wraps around to a harmful value. -/
theorem ensures_room_iff (hv : b.Valid) (hlen : len < sizeBound) :
    b.EnsuresRoom len ↔ len ≤ b.writableBytes ∨ ¬ b.Wraps len := by
  have hw := hv.writer_le
  have hsize := hv.size_le
  have hsmall : maxSize + 8 < sizeBound := by decide
  have hcheap : kCheapPrepend = 8 := rfl
  by_cases hneed : b.writableBytes < len
  · by_cases hfit : b.SizesFit len
    · -- nothing wraps
      have hno : ¬ b.Wraps len := by
        rintro (⟨hwrap, -⟩ | hwrap)
        · exact absurd hfit.1 (Nat.not_lt_of_le hwrap)
        · exact absurd hfit.2 (Nat.not_lt_of_le hwrap)
      refine iff_of_true ?_ (Or.inr hno)
      rcases hv.inOrder.ensureWritableBytes_room hfit with ⟨b', hens, hroom⟩ | ⟨-, hthrown⟩
      · exact Or.inr ⟨b', hens, hroom.room, hroom.readable, hroom.inOrder.reader_le,
          hroom.inOrder.writer_le⟩
      · exact Or.inl hthrown
    · -- one of the two sums wraps; which harm it does depends on the branch taken
      by_cases hgrow : sizeAdd b.writableBytes b.prependableBytes < sizeAdd len kCheapPrepend
      · by_cases hwrap : sizeBound ≤ b.writerIndex_ + len
        · refine iff_of_false (hv.cut_off hlen hneed hgrow hwrap) ?_
          rintro (hle | hno)
          · exact Nat.not_le_of_lt hneed hle
          · exact hno (Or.inr hwrap)
        · -- only the test's sum wraps, and it still asks for the growth, which is too long
          have htest : sizeBound ≤ len + kCheapPrepend := by
            apply Nat.le_of_not_lt
            intro hlt
            exact hfit ⟨hlt, Nat.lt_of_not_le hwrap⟩
          have hnew : sizeAdd b.writerIndex_ len = b.writerIndex_ + len :=
            sizeAdd_of_lt (Nat.lt_of_not_le hwrap)
          have hres : resize b.buffer_ (b.writerIndex_ + len) = .thrown lengthError b.buffer_ :=
            resize_thrown (by omega)
          refine iff_of_true ?_ (Or.inr ?_)
          · rw [← hnew] at hres
            exact Or.inl (ensureWritableBytes_of_thrown hneed (makeSpace_of_thrown hgrow hres))
          · rintro (⟨-, hle⟩ | hge)
            · exact Nat.not_le_of_lt ((hv.test_of_wrap hlen htest).mp hgrow) hle
            · exact hwrap hge
      · -- the slide: with the test's sum unwrapped it would have fitted
        have hwrap : sizeBound ≤ len + kCheapPrepend := by
          apply Nat.le_of_not_lt
          intro hlt
          rw [hv.freeBytes, sizeAdd_of_lt hlt] at hgrow
          have hr := hv.reader_le
          have hmax : maxSize + maxSize < sizeBound := by decide
          have hfree := hv.writableBytes_eq
          have hfront : b.prependableBytes = b.readerIndex_ := rfl
          exact hfit ⟨hlt, by omega⟩
        refine iff_of_false (hv.slide_fails hwrap hneed hgrow) ?_
        rintro (hle | hno)
        · exact Nat.not_le_of_lt hneed hle
        · rw [hv.test_of_wrap hlen hwrap] at hgrow
          exact hno (Or.inl ⟨hwrap, Nat.le_of_not_lt hgrow⟩)
  · -- there is room already
    have hroom : len ≤ b.writableBytes := Nat.le_of_not_lt hneed
    refine iff_of_true ?_ (Or.inl hroom)
    exact Or.inr ⟨b, ensureWritableBytes_of_room hroom, hroom, rfl, hv.reader_le, hv.writer_le⟩

theorem ensures_room_new : new.EnsuresRoom 5000 := by
  apply (ensures_room_iff new_valid ?_).mpr
  · exact Or.inr (by decide)
  · decide

/-- A new buffer asked for `2^64 - 1` bytes: the test takes 7 bytes for enough, and the slide's own
    assert fails. -/
theorem no_room_for_maximum : ¬ new.EnsuresRoom (sizeBound - 1) :=
  new_valid.slide_fails (by decide) (by decide +kernel) (by decide +kernel)

end Buffer

end Simplev
