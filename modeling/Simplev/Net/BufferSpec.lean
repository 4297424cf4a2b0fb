import Simplev.Net.Buffer

/-!
# `Net.BufferSpec` — what each member function of `Buffer` does

- **`InOrder`** is the inequality of the class comment, with the storage within `max_size`; **`Valid`**
  adds that the storage still has its cheap-prepend area, as it has from the constructor on.
- One spec lemma per member function: what it returns, and what happens to the readable bytes. Later
  modules cite these and never unfold a member.

The crux is `makeSpace_room`. The slide is taken only when `len` does not fit behind the data but fits
once the free space in front is added, and that forces `readerIndex_` above `kCheapPrepend`: the
assert holds for any history of the two indices, prepends included. The growth is taken only when the
data starts at most `len + 7` bytes into the vector, and that bounds the new size.
-/

namespace Simplev

open Foundation

namespace Buffer

/-- The class comment, of a vector that can exist. -/
structure InOrder (b : Buffer) : Prop where
  reader_le : b.readerIndex_ ≤ b.writerIndex_
  writer_le : b.writerIndex_ ≤ b.buffer_.length
  size_le : b.buffer_.length ≤ maxSize

/-- **The class invariant**: what every member function keeps. -/
structure Valid (b : Buffer) : Prop where
  reader_le : b.readerIndex_ ≤ b.writerIndex_
  writer_le : b.writerIndex_ ≤ b.buffer_.length
  prepend_le : kCheapPrepend ≤ b.buffer_.length
  size_le : b.buffer_.length ≤ maxSize

theorem maxSize_lt : maxSize < sizeBound := by decide

variable {b b' : Buffer}

theorem Valid.inOrder (hv : b.Valid) : b.InOrder := ⟨hv.reader_le, hv.writer_le, hv.size_le⟩

/-- Storage that does not shrink keeps its cheap-prepend area. -/
theorem Valid.of_inOrder (hv : b.Valid) (ho : b'.InOrder)
    (hlen : b.buffer_.length ≤ b'.buffer_.length) : b'.Valid :=
  ⟨ho.reader_le, ho.writer_le, Nat.le_trans hv.prepend_le hlen, ho.size_le⟩

theorem new_valid : new.Valid where
  reader_le := Nat.le_refl _
  writer_le := by simp [new]
  prepend_le := by simp [new]
  size_le := by
    simp only [new, List.length_replicate]
    decide

theorem new_readable : new.readable = [] := segment_self _ _

/-! ## Counting -/

theorem InOrder.readableBytes_eq (ho : b.InOrder) :
    b.readableBytes = b.writerIndex_ - b.readerIndex_ :=
  sizeSub_of_le ho.reader_le (by have := ho.writer_le; have := ho.size_le; have := maxSize_lt; omega)

theorem InOrder.writableBytes_eq (ho : b.InOrder) :
    b.writableBytes = b.buffer_.length - b.writerIndex_ :=
  sizeSub_of_le ho.writer_le (by have := ho.size_le; have := maxSize_lt; omega)

theorem InOrder.length_readable (ho : b.InOrder) : b.readable.length = b.readableBytes := by
  rw [readable, length_segment ho.writer_le, ho.readableBytes_eq]

theorem Valid.readableBytes_eq (hv : b.Valid) :
    b.readableBytes = b.writerIndex_ - b.readerIndex_ := hv.inOrder.readableBytes_eq

theorem Valid.writableBytes_eq (hv : b.Valid) :
    b.writableBytes = b.buffer_.length - b.writerIndex_ := hv.inOrder.writableBytes_eq

theorem Valid.length_readable (hv : b.Valid) : b.readable.length = b.readableBytes :=
  hv.inOrder.length_readable

/-- `readableBytes() == 0` says that nothing is readable. -/
theorem Valid.readableBytes_eq_zero (hv : b.Valid) : b.readableBytes = 0 ↔ b.readable = [] := by
  rw [← hv.length_readable, List.length_eq_zero_iff]

/-- No size that `ensureWritableBytes(len)` computes exceeds 64 bits. -/
def SizesFit (b : Buffer) (len : Nat) : Prop :=
  len + kCheapPrepend < sizeBound ∧ b.writerIndex_ + len < sizeBound

instance (b : Buffer) (len : Nat) : Decidable (b.SizesFit len) :=
  inferInstanceAs (Decidable (_ ∧ _))

/-- The length of a `std::string` or of `extrabuf` always fits. -/
theorem InOrder.sizesFit (ho : b.InOrder) {len : Nat} (hlen : len ≤ maxSize) : b.SizesFit len := by
  have hw : b.writerIndex_ ≤ maxSize := Nat.le_trans ho.writer_le ho.size_le
  have hbound : maxSize + maxSize < sizeBound := by decide
  have hcheap : maxSize + kCheapPrepend < sizeBound := by decide
  exact ⟨by omega, by omega⟩

theorem Valid.sizesFit (hv : b.Valid) {len : Nat} (hlen : len ≤ maxSize) : b.SizesFit len :=
  hv.inOrder.sizesFit hlen

/-! ## Retrieving -/

theorem retrieve_spec (hv : b.Valid) {len : Nat} (hlen : len ≤ b.readableBytes) :
    ∃ b', b.retrieve len = .ok b' [] ∧ b'.Valid ∧ b'.readable = b.readable.drop len := by
  have hfit : b.readerIndex_ + len ≤ b.writerIndex_ := by
    rw [hv.readableBytes_eq] at hlen
    have := hv.reader_le
    omega
  have hadd : sizeAdd b.readerIndex_ len = b.readerIndex_ + len :=
    sizeAdd_of_lt (by have := hv.writer_le; have := hv.size_le; have := maxSize_lt; omega)
  refine ⟨{ b with readerIndex_ := b.readerIndex_ + len }, ?_, ?_, ?_⟩
  · simp only [retrieve, Outcome.assert_true hlen, Outcome.ok_nil_bind, Outcome.pure_eq, hadd]
  · exact ⟨hfit, hv.writer_le, hv.prepend_le, hv.size_le⟩
  · exact (segment_drop b.buffer_ b.readerIndex_ b.writerIndex_ len).symm

theorem retrieveUntil_spec (hv : b.Valid) {stop : Nat} (hpeek : b.peek ≤ stop)
    (hstop : stop ≤ b.beginWrite) :
    ∃ b', b.retrieveUntil stop = .ok b' [] ∧ b'.Valid ∧
      b'.readable = b.readable.drop (stop - b.peek) := by
  have hsub : sizeSub stop b.peek = stop - b.peek := by
    refine sizeSub_of_le hpeek ?_
    have hw : stop ≤ b.writerIndex_ := hstop
    have := hv.writer_le; have := hv.size_le; have := maxSize_lt
    omega
  have hlen : stop - b.peek ≤ b.readableBytes := by
    rw [hv.readableBytes_eq]
    exact Nat.sub_le_sub_right hstop _
  obtain ⟨b', hret, hv', hread⟩ := retrieve_spec hv hlen
  refine ⟨b', ?_, hv', hread⟩
  simp only [retrieveUntil, Outcome.assert_true hpeek, Outcome.assert_true hstop,
    Outcome.ok_nil_bind, hsub, hret]

theorem retrieveAll_spec (hv : b.Valid) : b.retrieveAll.Valid ∧ b.retrieveAll.readable = [] :=
  ⟨⟨Nat.le_refl _, hv.prepend_le, hv.prepend_le, hv.size_le⟩, segment_self _ _⟩

/-! ## Writing -/

/-- Stored bytes lie within the writable part. -/
theorem InOrder.store_end (ho : b.InOrder) {data : List Byte} (hdata : data.length ≤ b.writableBytes) :
    b.writerIndex_ + data.length ≤ b.buffer_.length := by
  rw [ho.writableBytes_eq] at hdata
  have := ho.writer_le
  omega

theorem InOrder.length_store (ho : b.InOrder) {data : List Byte}
    (hdata : data.length ≤ b.writableBytes) :
    (b.store data).buffer_.length = b.buffer_.length :=
  length_overwrite (ho.store_end hdata)

/-- Bytes stored in the writable part and then counted in by `hasWritten` become readable. -/
theorem InOrder.store_hasWritten (ho : b.InOrder) {data : List Byte} {n : Nat}
    (hdata : data.length ≤ b.writableBytes) (hn : n ≤ data.length) :
    ((b.store data).hasWritten n).InOrder ∧
      ((b.store data).hasWritten n).readable = b.readable ++ data.take n := by
  have hend := ho.store_end hdata
  have hlen : (overwrite b.buffer_ b.writerIndex_ data).length = b.buffer_.length :=
    length_overwrite hend
  have hadd : sizeAdd b.writerIndex_ n = b.writerIndex_ + n :=
    sizeAdd_of_lt (by have := ho.size_le; have := maxSize_lt; omega)
  have horder : ((b.store data).hasWritten n).InOrder := by
    refine ⟨?_, ?_, ?_⟩
    · show b.readerIndex_ ≤ sizeAdd b.writerIndex_ n
      rw [hadd]
      exact Nat.le_trans ho.reader_le (Nat.le_add_right _ _)
    · show sizeAdd b.writerIndex_ n ≤ (overwrite b.buffer_ b.writerIndex_ data).length
      rw [hadd, hlen]
      omega
    · show (overwrite b.buffer_ b.writerIndex_ data).length ≤ maxSize
      rw [hlen]
      exact ho.size_le
  refine ⟨horder, ?_⟩
  show segment (overwrite b.buffer_ b.writerIndex_ data) b.readerIndex_ (sizeAdd b.writerIndex_ n) = _
  rw [hadd, ← segment_append ho.reader_le (Nat.le_add_right _ _),
    segment_overwrite_before ho.writer_le (Nat.le_refl _),
    ← segment_take (Nat.add_le_add_left hn _), segment_overwrite_self ho.writer_le]
  rfl

theorem store_hasWritten_spec (hv : b.Valid) {data : List Byte} {n : Nat}
    (hdata : data.length ≤ b.writableBytes) (hn : n ≤ data.length) :
    ((b.store data).hasWritten n).Valid ∧
      ((b.store data).hasWritten n).readable = b.readable ++ data.take n := by
  obtain ⟨horder, hread⟩ := hv.inOrder.store_hasWritten hdata hn
  exact ⟨hv.of_inOrder horder (Nat.le_of_eq (hv.inOrder.length_store hdata).symm), hread⟩

theorem prepend_spec (hv : b.Valid) {data : List Byte} (hlen : data.length ≤ b.prependableBytes) :
    ∃ b', b.prepend data = .ok b' [] ∧ b'.Valid ∧ b'.readable = data ++ b.readable := by
  have hr := hv.reader_le
  have hw := hv.writer_le
  have hroom : data.length ≤ b.readerIndex_ := hlen
  have hsub : sizeSub b.readerIndex_ data.length = b.readerIndex_ - data.length :=
    sizeSub_of_le hroom (by have := hv.size_le; have := maxSize_lt; omega)
  have hend : b.readerIndex_ - data.length + data.length = b.readerIndex_ := by omega
  have hover : (overwrite b.buffer_ (b.readerIndex_ - data.length) data).length =
      b.buffer_.length := length_overwrite (by omega)
  refine ⟨{ b with
    readerIndex_ := b.readerIndex_ - data.length
    buffer_ := overwrite b.buffer_ (b.readerIndex_ - data.length) data }, ?_, ?_, ?_⟩
  · simp only [prepend, Outcome.assert_true hlen, Outcome.ok_nil_bind, Outcome.pure_eq, hsub]
  · refine ⟨?_, ?_, ?_, ?_⟩ <;> simp only [hover]
    · omega
    · exact hw
    · exact hv.prepend_le
    · exact hv.size_le
  · have hfront : segment (overwrite b.buffer_ (b.readerIndex_ - data.length) data)
        (b.readerIndex_ - data.length) b.readerIndex_ = data := by
      have hself : segment (overwrite b.buffer_ (b.readerIndex_ - data.length) data)
          (b.readerIndex_ - data.length) (b.readerIndex_ - data.length + data.length) = data :=
        segment_overwrite_self (by omega)
      rwa [hend] at hself
    have hback : segment (overwrite b.buffer_ (b.readerIndex_ - data.length) data)
        b.readerIndex_ b.writerIndex_ = b.readable :=
      segment_overwrite_after (by omega) (by omega)
    show segment _ (b.readerIndex_ - data.length) b.writerIndex_ = _
    rw [← segment_append (Nat.sub_le _ _) hr, hfront, hback]

/-! ## Making room -/

/-- What room for `len` more bytes means: the readable bytes stay, and the storage grows no further
    than the data and the room together need. -/
structure RoomFor (b : Buffer) (len : Nat) (b' : Buffer) : Prop where
  inOrder : b'.InOrder
  room : len ≤ b'.writableBytes
  readable : b'.readable = b.readable
  length_ge : b.buffer_.length ≤ b'.buffer_.length
  length_le : b'.buffer_.length ≤ max b.buffer_.length (b.readableBytes + 2 * len + kCheapPrepend - 1)

theorem RoomFor.valid {len : Nat} (h : RoomFor b len b') (hv : b.Valid) : b'.Valid :=
  hv.of_inOrder h.inOrder h.length_ge

theorem resize_spec {v : List Byte} {n : Nat} (hn : v.length ≤ n) :
    (n ≤ maxSize ∧ resize v n = .ok (v ++ List.replicate (n - v.length) 0) []) ∨
      maxSize < n ∧ resize v n = .thrown lengthError v := by
  by_cases hmax : n ≤ maxSize
  · exact Or.inl ⟨hmax, by rw [resize, if_pos hmax, List.take_of_length_le hn]⟩
  · exact Or.inr ⟨Nat.lt_of_not_le hmax, by rw [resize, if_neg hmax]⟩

/-- The readable bytes moved to the front. -/
def slid (b : Buffer) : Buffer where
  buffer_ := overwrite b.buffer_ kCheapPrepend b.readable
  readerIndex_ := kCheapPrepend
  writerIndex_ := sizeAdd kCheapPrepend b.readableBytes

theorem makeSpace_of_grow {len : Nat} {v : List Byte}
    (hgrow : sizeAdd b.writableBytes b.prependableBytes < sizeAdd len kCheapPrepend)
    (hres : resize b.buffer_ (sizeAdd b.writerIndex_ len) = .ok v []) :
    b.makeSpace len = .ok { b with buffer_ := v } [] := by
  rw [makeSpace, if_pos hgrow, hres, Attempt.map_ok]

/-- A vector that cannot grow throws before anything is assigned. -/
theorem makeSpace_of_thrown {len : Nat}
    (hgrow : sizeAdd b.writableBytes b.prependableBytes < sizeAdd len kCheapPrepend)
    (hres : resize b.buffer_ (sizeAdd b.writerIndex_ len) = .thrown lengthError b.buffer_) :
    b.makeSpace len = .thrown lengthError b := by
  rw [makeSpace, if_pos hgrow, hres, Attempt.map_thrown]

theorem makeSpace_of_slide {len : Nat}
    (hgrow : ¬ sizeAdd b.writableBytes b.prependableBytes < sizeAdd len kCheapPrepend) :
    b.makeSpace len = .ok b.slid
      (Outcome.unmet (kCheapPrepend < b.readerIndex_) "kCheapPrepend < readerIndex_" ++
        Outcome.unmet (b.readableBytes = b.slid.readableBytes) "readable == readableBytes()") := by
  rw [makeSpace, if_neg hgrow]
  rfl

/-- `makeSpace` as `ensureWritableBytes` calls it: it makes room for `len` bytes, with its asserts
    holding, or the vector cannot be that long and `resize` throws. -/
theorem InOrder.makeSpace_room (ho : b.InOrder) {len : Nat} (hfit : b.SizesFit len)
    (hneed : b.writableBytes < len) :
    (∃ b', b.makeSpace len = .ok b' [] ∧ b.RoomFor len b') ∨
      maxSize < b.writerIndex_ + len ∧ b.makeSpace len = .thrown lengthError b := by
  have hr := ho.reader_le
  have hw := ho.writer_le
  have hsize := ho.size_le
  have hbound := maxSize_lt
  rw [ho.writableBytes_eq] at hneed
  have hfree : sizeAdd b.writableBytes b.prependableBytes =
      b.buffer_.length - b.writerIndex_ + b.readerIndex_ := by
    rw [ho.writableBytes_eq]
    exact sizeAdd_of_lt (by simp only [prependableBytes]; omega)
  have hwant : sizeAdd len kCheapPrepend = len + kCheapPrepend := sizeAdd_of_lt hfit.1
  have hcount : b.readableBytes = b.writerIndex_ - b.readerIndex_ := ho.readableBytes_eq
  by_cases hgrow : sizeAdd b.writableBytes b.prependableBytes < sizeAdd len kCheapPrepend
  · -- too little free space altogether: the vector grows behind the data
    have htest : b.buffer_.length - b.writerIndex_ + b.readerIndex_ < len + kCheapPrepend := by
      rwa [hfree, hwant] at hgrow
    rcases resize_spec (v := b.buffer_) (n := b.writerIndex_ + len) (by omega) with
      ⟨hmax, hres⟩ | ⟨hmax, hres⟩
    · have hlen : (b.buffer_ ++ List.replicate (b.writerIndex_ + len - b.buffer_.length) 0).length =
          b.writerIndex_ + len := by
        rw [List.length_append, List.length_replicate]
        omega
      rw [← sizeAdd_of_lt hfit.2] at hres
      refine Or.inl ⟨_, makeSpace_of_grow hgrow hres, ?_⟩
      rw [sizeAdd_of_lt hfit.2]
      refine ⟨⟨hr, ?_, ?_⟩, ?_, segment_append_right hw, ?_, ?_⟩
      · rw [hlen]
        exact Nat.le_add_right _ _
      · rw [hlen]
        exact hmax
      · show len ≤ sizeSub (b.buffer_ ++ List.replicate _ 0).length b.writerIndex_
        rw [hlen, sizeSub_of_le (by omega) (by omega)]
        omega
      · rw [hlen]
        omega
      · -- the free space in front is below `len + kCheapPrepend`
        rw [hlen, hcount]
        apply Nat.le_trans _ (Nat.le_max_right _ _)
        omega
    · rw [← sizeAdd_of_lt hfit.2] at hres
      exact Or.inr ⟨hmax, makeSpace_of_thrown hgrow hres⟩
  · -- enough in front and behind together: the data slides to the front
    have htest : ¬ b.buffer_.length - b.writerIndex_ + b.readerIndex_ < len + kCheapPrepend := by
      rwa [hfree, hwant] at hgrow
    have hslide : kCheapPrepend < b.readerIndex_ := by omega
    have hfront : kCheapPrepend ≤ b.buffer_.length := by omega
    have hlen : b.readable.length = b.writerIndex_ - b.readerIndex_ := length_segment hw
    -- after the slide the data starts at `kCheapPrepend`
    have hend : b.slid.writerIndex_ = kCheapPrepend + b.readable.length := by
      rw [slid, hcount, hlen]
      exact sizeAdd_of_lt (by omega)
    have hover : b.slid.buffer_.length = b.buffer_.length := length_overwrite (by omega)
    have hsame : b.readableBytes = b.slid.readableBytes := by
      show _ = sizeSub b.slid.writerIndex_ kCheapPrepend
      rw [hend, sizeSub_of_le (by omega) (by omega), hcount, hlen, Nat.add_sub_cancel_left]
    refine Or.inl ⟨b.slid, ?_, ⟨?_, ?_, ?_⟩, ?_, ?_, ?_, ?_⟩
    · rw [makeSpace_of_slide hgrow, Outcome.unmet_eq_nil.mpr hslide, Outcome.unmet_eq_nil.mpr hsame]
      rfl
    · rw [hend]
      exact Nat.le_add_right _ _
    · rw [hend, hover]
      omega
    · exact hover ▸ hsize
    · rw [writableBytes, hover, hend, sizeSub_of_le (by omega) (by omega)]
      omega
    · rw [readable, hend]
      exact segment_overwrite_self hfront
    · exact Nat.le_of_eq hover.symm
    · exact Nat.le_trans (Nat.le_of_eq hover) (Nat.le_max_left _ _)

/-- `ensureWritableBytes` when too little is writable: `makeSpace`, then the assert. -/
theorem ensureWritableBytes_of_makeSpace {len : Nat} (hneed : b.writableBytes < len)
    {fs : List String} (hmake : b.makeSpace len = .ok b' fs) :
    b.ensureWritableBytes len =
      .ok b' (fs ++ Outcome.unmet (len ≤ b'.writableBytes) "writableBytes() >= len") := by
  rw [ensureWritableBytes, if_pos hneed, hmake]
  rfl

theorem ensureWritableBytes_of_thrown {len : Nat} (hneed : b.writableBytes < len)
    (hmake : b.makeSpace len = .thrown lengthError b) :
    b.ensureWritableBytes len = .thrown lengthError b := by
  rw [ensureWritableBytes, if_pos hneed, hmake]
  rfl

/-- With room enough `ensureWritableBytes` does nothing. -/
theorem ensureWritableBytes_of_room {len : Nat} (hroom : len ≤ b.writableBytes) :
    b.ensureWritableBytes len = .ok b [] := by
  rw [ensureWritableBytes, if_neg (Nat.not_lt_of_le hroom)]
  exact Attempt.assert_ok_of (c := fun b' : Buffer => len ≤ b'.writableBytes) hroom _ _

/-- `ensureWritableBytes` makes the room it is asked for, or the vector cannot be that long. -/
theorem InOrder.ensureWritableBytes_room (ho : b.InOrder) {len : Nat} (hfit : b.SizesFit len) :
    (∃ b', b.ensureWritableBytes len = .ok b' [] ∧ b.RoomFor len b') ∨
      maxSize < b.writerIndex_ + len ∧ b.ensureWritableBytes len = .thrown lengthError b := by
  by_cases hneed : b.writableBytes < len
  · rcases ho.makeSpace_room hfit hneed with ⟨b', hmake, hroom⟩ | ⟨hmax, hmake⟩
    · refine Or.inl ⟨b', ?_, hroom⟩
      rw [ensureWritableBytes_of_makeSpace hneed hmake, Outcome.unmet_eq_nil.mpr hroom.room]
      rfl
    · exact Or.inr ⟨hmax, ensureWritableBytes_of_thrown hneed hmake⟩
  · have hroom : len ≤ b.writableBytes := Nat.le_of_not_lt hneed
    exact Or.inl ⟨b, ensureWritableBytes_of_room hroom, ho, hroom, rfl, Nat.le_refl _,
      Nat.le_max_left _ _⟩

/-- `append` puts the bytes behind the readable ones, in storage that `ensureWritableBytes` left. -/
theorem InOrder.append_room (ho : b.InOrder) {data : List Byte} (hfit : b.SizesFit data.length) :
    (∃ b₁ b', b.ensureWritableBytes data.length = .ok b₁ [] ∧ b.RoomFor data.length b₁ ∧
      b.append data = .ok b' [] ∧ b'.InOrder ∧ b'.buffer_.length = b₁.buffer_.length ∧
      b'.readable = b.readable ++ data) ∨
      maxSize < b.writerIndex_ + data.length ∧ b.append data = .thrown lengthError := by
  rcases ho.ensureWritableBytes_room hfit with ⟨b₁, hens, hroom⟩ | ⟨hmax, hens⟩
  · obtain ⟨horder, hcontents⟩ := hroom.inOrder.store_hasWritten hroom.room (Nat.le_refl _)
    refine Or.inl ⟨b₁, _, hens, hroom, ?_, horder, hroom.inOrder.length_store hroom.room, ?_⟩
    · rw [append, hens, Attempt.outcome_ok, Outcome.ok_nil_bind]
      rfl
    · rw [hcontents, hroom.readable, List.take_length]
  · refine Or.inr ⟨hmax, ?_⟩
    rw [append, hens]
    rfl

/-! The same three on a valid buffer. -/

theorem makeSpace_spec (hv : b.Valid) {len : Nat} (hfit : b.SizesFit len)
    (hneed : b.writableBytes < len) :
    (∃ b', b.makeSpace len = .ok b' [] ∧ b'.Valid ∧ len ≤ b'.writableBytes ∧
      b'.readable = b.readable) ∨ b.makeSpace len = .thrown lengthError b := by
  rcases hv.inOrder.makeSpace_room hfit hneed with ⟨b', hmake, hroom⟩ | ⟨-, hthrown⟩
  · exact Or.inl ⟨b', hmake, hroom.valid hv, hroom.room, hroom.readable⟩
  · exact Or.inr hthrown

theorem ensureWritableBytes_spec (hv : b.Valid) {len : Nat} (hfit : b.SizesFit len) :
    (∃ b', b.ensureWritableBytes len = .ok b' [] ∧ b'.Valid ∧ len ≤ b'.writableBytes ∧
      b'.readable = b.readable) ∨ b.ensureWritableBytes len = .thrown lengthError b := by
  rcases hv.inOrder.ensureWritableBytes_room hfit with ⟨b', hens, hroom⟩ | ⟨-, hthrown⟩
  · exact Or.inl ⟨b', hens, hroom.valid hv, hroom.room, hroom.readable⟩
  · exact Or.inr hthrown

theorem append_spec (hv : b.Valid) {data : List Byte} (hfit : b.SizesFit data.length) :
    (∃ b', b.append data = .ok b' [] ∧ b'.Valid ∧ b'.readable = b.readable ++ data) ∨
      b.append data = .thrown lengthError := by
  rcases hv.inOrder.append_room hfit with ⟨b₁, b', -, hroom, happ, ho', hlen, hread⟩ | ⟨-, hthrown⟩
  · exact Or.inl ⟨b', happ, hv.of_inOrder ho' (hlen ▸ hroom.length_ge), hread⟩
  · exact Or.inr hthrown

/-! ## Reading from the descriptor -/

/-- The bytes that went into the buffer's own storage, counted in. -/
def filled (b : Buffer) (bytes : List Byte) : Buffer :=
  let stored := b.store (bytes.take b.writableBytes)
  { stored with writerIndex_ := stored.buffer_.length }

/-- When `readv` delivers more than `writable` bytes, the storage is full before the `append`. -/
theorem InOrder.filled_spec (ho : b.InOrder) {bytes : List Byte}
    (hmore : b.writableBytes < bytes.length) :
    (b.filled bytes).InOrder ∧ (b.filled bytes).buffer_.length = b.buffer_.length ∧
      (b.filled bytes).readable = b.readable ++ bytes.take b.writableBytes := by
  have hlen : (bytes.take b.writableBytes).length = b.writableBytes := by
    rw [List.length_take]
    omega
  obtain ⟨horder, hread⟩ := ho.store_hasWritten (Nat.le_of_eq hlen) (Nat.le_refl _)
  have hstore := ho.length_store (Nat.le_of_eq hlen)
  have hfull : (b.store (bytes.take b.writableBytes)).hasWritten
      (bytes.take b.writableBytes).length = b.filled bytes := by
    have hw := ho.writer_le
    have hsize := ho.size_le
    have hbound := maxSize_lt
    simp only [hasWritten, filled, hstore, hlen]
    simp only [store]
    rw [ho.writableBytes_eq, sizeAdd_of_lt (by omega), Nat.add_sub_cancel' hw]
  rw [hfull] at horder hread
  rw [List.take_length] at hread
  exact ⟨horder, hstore, hread⟩

/-- **`readFd` after bytes arrived**: they stand behind the readable ones, or the vector cannot hold
    those that came in `extrabuf`. -/
theorem InOrder.readFd_data (ho : b.InOrder) {bytes : List Byte}
    (hfit : bytes.length ≤ b.writableBytes + extrabufSize) :
    (∃ b', b.readFd (.data bytes) = .ok (some bytes.length, none, b') [] ∧ b'.InOrder ∧
      b.buffer_.length ≤ b'.buffer_.length ∧ b'.readable = b.readable ++ bytes) ∨
      maxSize < b.buffer_.length + extrabufSize ∧ ∃ w, b.readFd (.data bytes) = .thrown w := by
  by_cases hroom : bytes.length ≤ b.writableBytes
  · -- all of it went into the buffer's own storage
    have htake : bytes.take b.writableBytes = bytes := List.take_of_length_le hroom
    obtain ⟨horder, hread⟩ := ho.store_hasWritten hroom (Nat.le_refl _)
    refine Or.inl ⟨(b.store bytes).hasWritten bytes.length, ?_, horder, ?_, ?_⟩
    · simp only [readFd, if_pos hroom, htake, Outcome.pure_eq]
    · exact Nat.le_of_eq (ho.length_store hroom).symm
    · rw [hread, List.take_length]
  · -- the storage is full, and `append` takes the bytes in `extrabuf`
    obtain ⟨horder, hsame, hread⟩ := ho.filled_spec (Nat.lt_of_not_le hroom)
    have hrest : (bytes.drop b.writableBytes).length ≤ extrabufSize := by
      rw [List.length_drop]
      omega
    have hextra : extrabufSize ≤ maxSize := by decide
    have hret : b.readFd (.data bytes) =
        (b.filled bytes).append (bytes.drop b.writableBytes) >>= fun b' =>
          .ok (some bytes.length, none, b') [] := by
      simp only [readFd, if_neg hroom, Outcome.pure_eq]
      rfl
    rcases horder.append_room (horder.sizesFit (Nat.le_trans hrest hextra)) with
      ⟨b₁, b', -, hgrown, happ, ho', hlen, hread'⟩ | ⟨hmax, happ⟩
    · refine Or.inl ⟨b', ?_, ho', ?_, ?_⟩
      · rw [hret, happ, Outcome.ok_nil_bind]
      · rw [hlen, ← hsame]
        exact hgrown.length_ge
      · rw [hread', hread, List.append_assoc, List.take_append_drop]
    · refine Or.inr ⟨?_, lengthError, ?_⟩
      · have hw := horder.writer_le
        omega
      · rw [hret, happ, Outcome.thrown_bind]

theorem readFd_data_spec (hv : b.Valid) {bytes : List Byte}
    (hfit : bytes.length ≤ b.writableBytes + extrabufSize) :
    (∃ b', b.readFd (.data bytes) = .ok (some bytes.length, none, b') [] ∧ b'.Valid ∧
      b'.readable = b.readable ++ bytes) ∨ ∃ what, b.readFd (.data bytes) = .thrown what := by
  rcases hv.inOrder.readFd_data hfit with ⟨b', hret, ho', hlen, hread⟩ | ⟨-, hthrown⟩
  · exact Or.inl ⟨b', hret, hv.of_inOrder ho' hlen, hread⟩
  · exact Or.inr hthrown

end Buffer

end Simplev
