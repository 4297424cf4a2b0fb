import Mathlib.Data.List.Basic

/-!
# `Foundation.Storage` — 64-bit sizes, and a list used as a block of memory

- **Sizes.** `size_t` is `Nat` below `sizeBound`, with `sizeAdd` and `sizeSub` wrapping around as the
  machine does. The lemmas say when they are ordinary addition and subtraction, and
  what a sum that wraps comes to.
- **Storage.** `segment v i j` is the half-open range `[i, j)` of a block, `overwrite v p d` the block
  after `d` has been copied to position `p`. The lemmas say how the two meet: a segment before or
  after the written range is untouched, the written range reads back, and segments concatenate.
-/

namespace Foundation

universe u

/-! ## Sizes -/

/-- `2^64`, one past the largest `size_t`. -/
def sizeBound : Nat := 18446744073709551616

/-- `a + b` on `size_t`. -/
def sizeAdd (a b : Nat) : Nat := (a + b) % sizeBound

/-- `a - b` on `size_t`. -/
def sizeSub (a b : Nat) : Nat := (a + sizeBound - b) % sizeBound

theorem sizeAdd_of_lt {a b : Nat} (h : a + b < sizeBound) : sizeAdd a b = a + b :=
  Nat.mod_eq_of_lt h

/-- A sum past `2^64` wraps around to its excess. -/
theorem sizeAdd_of_wrap {m k n : Nat} (h : m + k = n + sizeBound) (hn : n < sizeBound) :
    sizeAdd m k = n := by
  rw [sizeAdd, h, Nat.add_mod_right]
  exact Nat.mod_eq_of_lt hn

theorem sizeSub_of_le {a b : Nat} (hba : b ≤ a) (ha : a < sizeBound) : sizeSub a b = a - b := by
  have hsplit : a + sizeBound - b = (a - b) + sizeBound := by omega
  rw [sizeSub, hsplit, Nat.add_mod_right]
  exact Nat.mod_eq_of_lt (by omega)

/-! ## Segments of a block -/

variable {α : Type u}

/-- The elements of `v` at positions `i, …, j - 1`. -/
def segment (v : List α) (i j : Nat) : List α := (v.drop i).take (j - i)

theorem length_segment {v : List α} {i j : Nat} (h : j ≤ v.length) :
    (segment v i j).length = j - i := by
  rw [segment, List.length_take, List.length_drop]
  omega

@[simp] theorem segment_self (v : List α) (i : Nat) : segment v i i = [] := by
  simp [segment]

/-- Dropping from the front of a segment moves its left end. -/
theorem segment_drop (v : List α) (i j n : Nat) :
    (segment v i j).drop n = segment v (i + n) j := by
  rw [segment, segment, List.drop_take, List.drop_drop, Nat.sub_add_eq]

/-- The front of a segment is the segment with an earlier right end. -/
theorem segment_take {v : List α} {i j n : Nat} (h : i + n ≤ j) :
    (segment v i j).take n = segment v i (i + n) := by
  rw [segment, segment, List.take_take]
  congr 1
  omega

/-- Adjacent segments concatenate. -/
theorem segment_append {v : List α} {i j k : Nat} (hij : i ≤ j) (hjk : j ≤ k) :
    segment v i j ++ segment v j k = segment v i k := by
  have htake : segment v i j = (segment v i k).take (j - i) := by
    rw [segment_take (by omega), Nat.add_sub_cancel' hij]
  have hdrop : segment v j k = (segment v i k).drop (j - i) := by
    rw [segment_drop, Nat.add_sub_cancel' hij]
  rw [htake, hdrop, List.take_append_drop]

/-- Growing a block at its end leaves the segments it had. -/
theorem segment_append_right {v w : List α} {i j : Nat} (h : j ≤ v.length) :
    segment (v ++ w) i j = segment v i j := by
  by_cases hij : i ≤ j
  · rw [segment, List.drop_append_of_le_length (by omega),
      List.take_append_of_le_length (by rw [List.length_drop]; omega), segment]
  · have hzero : j - i = 0 := by omega
    rw [segment, segment, hzero, List.take_zero, List.take_zero]

/-! ## Writing into a block -/

/-- The block after `data` has been copied to position `pos`. -/
def overwrite (v : List α) (pos : Nat) (data : List α) : List α :=
  v.take pos ++ data ++ v.drop (pos + data.length)

theorem length_overwrite {v data : List α} {pos : Nat} (h : pos + data.length ≤ v.length) :
    (overwrite v pos data).length = v.length := by
  simp only [overwrite, List.length_append, List.length_take, List.length_drop]
  omega

theorem overwrite_zero (v data : List α) : overwrite v 0 data = data ++ v.drop data.length := by
  rw [overwrite, List.take_zero, List.nil_append, Nat.zero_add]

/-- Two adjacent writes are one. -/
theorem overwrite_append {v data more : List α} {pos : Nat} (h : pos + data.length ≤ v.length) :
    overwrite (overwrite v pos data) (pos + data.length) more = overwrite v pos (data ++ more) := by
  have hfront : (v.take pos ++ data).length = pos + data.length := by
    rw [List.length_append, List.length_take]
    omega
  have hdrop : (overwrite v pos data).drop (pos + data.length + more.length) =
      v.drop (pos + data.length + more.length) := by
    rw [overwrite, ← List.drop_drop, List.drop_left' hfront, List.drop_drop]
  rw [overwrite, hdrop, overwrite, List.take_left' hfront, overwrite, List.length_append,
    List.append_assoc (v.take pos), Nat.add_assoc pos]

/-- Setting one element is a write of one. -/
theorem set_eq_overwrite {v : List α} {pos : Nat} (x : α) (h : pos < v.length) :
    v.set pos x = overwrite v pos [x] := by
  rw [List.set_eq_take_append_cons_drop, if_pos h, overwrite, List.append_assoc]
  rfl

/-- The written range reads back. -/
theorem segment_overwrite_self {v data : List α} {pos : Nat} (h : pos ≤ v.length) :
    segment (overwrite v pos data) pos (pos + data.length) = data := by
  have hpos : (v.take pos).length = pos := by rw [List.length_take]; omega
  rw [segment, overwrite, List.append_assoc, List.drop_left' hpos, Nat.add_sub_cancel_left,
    List.take_left' rfl]

/-- A segment that ends before the written range is untouched. -/
theorem segment_overwrite_before {v data : List α} {pos i j : Nat} (hpos : pos ≤ v.length)
    (hj : j ≤ pos) : segment (overwrite v pos data) i j = segment v i j := by
  have hlen : (v.take pos).length = pos := by rw [List.length_take]; omega
  rw [overwrite, List.append_assoc, segment_append_right (by omega)]
  calc segment (v.take pos) i j
      = segment (v.take pos ++ v.drop pos) i j := (segment_append_right (by omega)).symm
    _ = segment v i j := by rw [List.take_append_drop]

/-- A segment that starts after the written range is untouched. -/
theorem segment_overwrite_after {v data : List α} {pos i j : Nat}
    (hlen : pos + data.length ≤ v.length) (hi : pos + data.length ≤ i) :
    segment (overwrite v pos data) i j = segment v i j := by
  have hfront : (v.take pos ++ data).length = pos + data.length := by
    rw [List.length_append, List.length_take]; omega
  have hback : (overwrite v pos data).drop i = v.drop i := by
    rw [overwrite, List.drop_append, List.drop_eq_nil_of_le (by omega), List.nil_append, hfront,
      List.drop_drop, Nat.add_sub_cancel' hi]
  rw [segment, segment, hback]

/-! ## Padding in front -/

/-- A list pushed back by padding, and cut to its length, is itself only if it is all padding. -/
theorem take_pad_eq_iff {l : List α} {z : α} {k : Nat} (hk : 0 < k) :
    (List.replicate k z ++ l).take l.length = l ↔ ∀ x ∈ l, x = z := by
  constructor
  · intro h
    have hget : ∀ i (hi : i < l.length), l[i] = z := by
      intro i
      induction i using Nat.strongRecOn with
      | ind i ih =>
          intro hi
          have hi' : i < ((List.replicate k z ++ l).take l.length).length := by rw [h]; exact hi
          have hsame : ((List.replicate k z ++ l).take l.length)[i] = l[i] := by simp only [h]
          rw [List.getElem_take] at hsame
          by_cases hpad : i < k
          · rw [List.getElem_append_left (by simpa using hpad), List.getElem_replicate] at hsame
            exact hsame.symm
          · rw [List.getElem_append_right (by simpa using hpad)] at hsame
            simp only [List.length_replicate] at hsame
            rw [← hsame]
            exact ih (i - k) (by omega) (by omega)
    intro x hx
    obtain ⟨i, hi, rfl⟩ := List.getElem_of_mem hx
    exact hget i hi
  · intro hz
    have hl : l = List.replicate l.length z := List.eq_replicate_of_mem hz
    rw [hl, List.replicate_append_replicate, List.length_replicate, List.take_replicate,
      Nat.min_eq_left (Nat.le_add_left _ _)]

end Foundation
