import Simplev.Foundation.Machine
import Simplev.Foundation.Numerals
import Simplev.Foundation.Storage

/-!
# `Base.LogStream` — text in a fixed buffer (`LogStream.h`, `LogStream.cc`)

A `FixedBuffer` is an array and a cursor into it. A write past the end of the array is undefined: it
ends the run (`none`). Two checks keep the cursor inside. Text goes through `append`, which compares the
room with a length that has been narrowed to `int`; a number is written in place when at least
`kMaxNumericSize` bytes are free, and the cursor is moved over it afterwards.

`Insertion.text` says what an insertion means, independently of how it is written: `insert_whole` proves
that one insertion appends its whole text or nothing if and only if its length survives the narrowing
(`Insertion.Narrows`), and `stream_whole` proves it of whole runs.

`double` and `float`, which `snprintf` formats, are left out.
-/

namespace Simplev

open Foundation

namespace detail

def kSmallBuffer : Nat := 4000

/-- `data_` is an array: its size does not change. -/
structure FixedBuffer (SIZE : Nat) where
  data_ : List UInt8
  cur_ : Nat
  size : data_.length = SIZE

variable {SIZE : Nat}

namespace FixedBuffer

/-- The constructor. The array is not cleared, but nothing reads a byte before it is written. -/
def new : FixedBuffer SIZE := ⟨List.replicate SIZE 0, 0, List.length_replicate⟩

/-- Writing `bytes` at `pos`, if all of them are inside the array. -/
def write (b : FixedBuffer SIZE) (pos : Nat) (bytes : List UInt8) : Option (FixedBuffer SIZE) :=
  if h : pos + bytes.length ≤ SIZE then
    some { b with
      data_ := overwrite b.data_ pos bytes
      size := (length_overwrite (by rw [b.size]; exact h)).trans b.size }
  else none

/-- `static_cast<int>(end() - cur_)`. -/
def avail (b : FixedBuffer SIZE) : Int := (SIZE : Int) - b.cur_

def add (b : FixedBuffer SIZE) (len : Nat) : FixedBuffer SIZE := { b with cur_ := b.cur_ + len }

/-- `memcpy(cur_, buf, n)`: it reads `n` bytes of `buf`. -/
def memcpy (b : FixedBuffer SIZE) (buf : List UInt8) (n : Nat) : Option (FixedBuffer SIZE) :=
  if n ≤ buf.length then b.write b.cur_ (buf.take n) else none

/-- A negative `len` passes the check, and `memcpy` takes it as a `size_t`. -/
def append (b : FixedBuffer SIZE) (buf : List UInt8) (len : Int) : Option (FixedBuffer SIZE) :=
  if b.avail > len then
    let n := (len % sizeBound).toNat
    (b.memcpy buf n).map fun b => b.add n
  else some b

/-- `debugString` puts a terminator at the cursor. -/
def debugString (b : FixedBuffer SIZE) : Option (FixedBuffer SIZE) := b.write b.cur_ [0]

/-- `asString()`. -/
def asString (b : FixedBuffer SIZE) : List UInt8 := b.data_.take b.cur_

end FixedBuffer

/-! ## Numbers -/

def digits : List UInt8 :=
  ['9', '8', '7', '6', '5', '4', '3', '2', '1', '0', '1', '2', '3', '4', '5', '6', '7', '8', '9'].map
    Char.toUInt8

/-- `zero[lsd]`, where `zero` points into the middle of `digits`. -/
def zero (lsd : Int) : UInt8 := digits.getD (9 + lsd).toNat 0

def digitsHex : List UInt8 :=
  ['0', '1', '2', '3', '4', '5', '6', '7', '8', '9', 'a', 'b', 'c', 'd', 'e', 'f'].map Char.toUInt8

/-- The loop of `convert`: `%` and `/` round towards zero. -/
def convertLoop : Nat → Int → List UInt8
  | 0, _ => []
  | fuel + 1, i =>
    let lsd := i.tmod 10
    let i := i.tdiv 10
    zero lsd :: if i ≠ 0 then convertLoop fuel i else []

/-- The text `convert` leaves in `buf`, where a `'\0'` follows it. -/
def convert (value : Int) : List UInt8 :=
  (convertLoop (value.natAbs + 1) value ++ if value < 0 then [Char.toUInt8 '-'] else []).reverse

def convertHexLoop : Nat → Nat → List UInt8
  | 0, _ => []
  | fuel + 1, i =>
    let lsd := i % 16
    let i := i / 16
    digitsHex.getD lsd 0 :: if i ≠ 0 then convertHexLoop fuel i else []

def convertHex (value : Nat) : List UInt8 := (convertHexLoop (value + 1) value).reverse

end detail

open detail

/-- A C string ends at its first `'\0'`. -/
abbrev CString := { bytes : List UInt8 // 0 ∉ bytes }

/-- `2 ^ 31`, one past the largest `int`. -/
def intBound : Nat := 2147483648

/-- `class T`: a text and its length. -/
structure T where
  str_ : List UInt8
  len_ : Nat
  /-- The constructor's assert. -/
  known : str_.length = len_
  /-- The constructor takes an `int`. -/
  len_lt : len_ < intBound

/-- A `size_t` as an `int`. -/
def narrow (n : Nat) : Int := Int.bmod n 4294967296

inductive Insertion where
  | bool (v : Bool)
  | short (v : Int16)
  | unsignedShort (v : UInt16)
  | int (v : Int32)
  | unsignedInt (v : UInt32)
  | long (v : Int64)
  | unsignedLong (v : UInt64)
  | longLong (v : Int64)
  | unsignedLongLong (v : UInt64)
  | pointer (p : UInt64)
  | char (v : UInt8)
  | cstring (v : CString)
  | known (v : T)
  | string (v : List UInt8)

namespace LogStream

abbrev Buffer := FixedBuffer kSmallBuffer

def kMaxNumericSize : Int := 32

variable {SIZE : Nat}

def formatInteger (b : FixedBuffer SIZE) (v : Int) : Option (FixedBuffer SIZE) :=
  if b.avail ≥ kMaxNumericSize then
    (b.write b.cur_ (convert v ++ [0])).map fun b => b.add (convert v).length
  else some b

/-- `operator<<(const void*)`. -/
def formatPointer (b : FixedBuffer SIZE) (p : UInt64) : Option (FixedBuffer SIZE) :=
  if b.avail ≥ kMaxNumericSize then
    (b.write b.cur_ (Char.toUInt8 '0' :: Char.toUInt8 'x' :: convertHex p.toNat ++ [0])).map
      fun b => b.add ((convertHex p.toNat).length + 2)
  else some b

/-- `operator<<`, for each type it is defined for. -/
def insert (b : FixedBuffer SIZE) : Insertion → Option (FixedBuffer SIZE)
  | .bool v => b.append [if v then Char.toUInt8 '1' else Char.toUInt8 '0'] 1
  -- a short is widened to an int
  | .short v => formatInteger b v.toInt
  | .unsignedShort v => formatInteger b v.toNat
  | .int v => formatInteger b v.toInt
  | .unsignedInt v => formatInteger b v.toNat
  | .long v => formatInteger b v.toInt
  | .unsignedLong v => formatInteger b v.toNat
  | .longLong v => formatInteger b v.toInt
  | .unsignedLongLong v => formatInteger b v.toNat
  | .pointer p => formatPointer b p
  | .char v => b.append [v] 1
  | .cstring v => b.append v.val (narrow v.val.length)
  | .known v => b.append v.str_ (narrow v.len_)
  | .string v => b.append v (narrow v.length)

/-- A stream and what is inserted into it. -/
def machine : Machine Buffer Insertion where
  init b := b.cur_ = 0
  step b x := insert b x

@[simp] theorem machine_step (b : Buffer) (x : Insertion) : machine.step b x = insert b x := rfl

end LogStream

/-! ## What an insertion means -/

/-- The characters `0` to `9`, then `a` to `f`. -/
def digitChar (d : Nat) : UInt8 := UInt8.ofNat (if d < 10 then 48 + d else 87 + d)

def decimal (v : Int) : List UInt8 :=
  (if v < 0 then [Char.toUInt8 '-'] else []) ++ ((digitsOf 10 v.natAbs).map digitChar).reverse

def hexadecimal (n : Nat) : List UInt8 := ((digitsOf 16 n).map digitChar).reverse

namespace Insertion

/-- The integer that is inserted. -/
def number : Insertion → Option Int
  | short v => some v.toInt
  | unsignedShort v => some v.toNat
  | int v => some v.toInt
  | unsignedInt v => some v.toNat
  | long v => some v.toInt
  | unsignedLong v => some v.toNat
  | longLong v => some v.toInt
  | unsignedLongLong v => some v.toNat
  | _ => none

def text : Insertion → List UInt8
  | bool v => [if v then Char.toUInt8 '1' else Char.toUInt8 '0']
  | short v => decimal v.toInt
  | unsignedShort v => decimal v.toNat
  | int v => decimal v.toInt
  | unsignedInt v => decimal v.toNat
  | long v => decimal v.toInt
  | unsignedLong v => decimal v.toNat
  | longLong v => decimal v.toInt
  | unsignedLongLong v => decimal v.toNat
  | pointer p => Char.toUInt8 '0' :: Char.toUInt8 'x' :: hexadecimal p.toNat
  | char v => [v]
  | cstring v => v.val
  | known v => v.str_
  | string v => v

end Insertion

/-! ## Numbers are written as they should be -/

namespace detail

theorem digitsHex_getD {d : Nat} (hd : d < 16) : digitsHex.getD d 0 = digitChar d := by
  have hall : ∀ d : Fin 16, digitsHex.getD d 0 = digitChar d := by decide
  exact hall ⟨d, hd⟩

/-- `zero` can be indexed from both sides. -/
theorem zero_eq {lsd : Int} (h : lsd.natAbs < 10) : zero lsd = digitChar lsd.natAbs := by
  have hall : ∀ d : Fin 10, zero (d : Nat) = digitChar d ∧ zero (-(d : Nat)) = digitChar d := by
    decide
  rcases Int.natAbs_eq lsd with heq | heq
  · rw [heq]
    exact (hall ⟨lsd.natAbs, h⟩).1
  · rw [heq, Int.natAbs_neg, Int.natAbs_natCast]
    exact (hall ⟨lsd.natAbs, h⟩).2

/-- The loop stops before its fuel is used up, and has emitted the digits. -/
theorem convertLoop_eq {fuel : Nat} {i : Int} (h : i.natAbs < fuel) :
    convertLoop fuel i = (digitsOf 10 i.natAbs).map digitChar := by
  induction fuel generalizing i with
  | zero => exact absurd h (Nat.not_lt_zero _)
  | succ fuel ih =>
      have hmod : (i.tmod 10).natAbs = i.natAbs % 10 := Int.natAbs_tmod i 10
      have hdiv : (i.tdiv 10).natAbs = i.natAbs / 10 := Int.natAbs_tdiv i 10
      have hlsd : (i.tmod 10).natAbs < 10 := by
        rw [hmod]
        exact Nat.mod_lt _ (by decide)
      rw [convertLoop, digitsOf_step (by decide), zero_eq hlsd, hmod, List.map_cons]
      by_cases hstop : i.tdiv 10 = 0
      · have hzero : i.natAbs / 10 = 0 := by rw [← hdiv, hstop, Int.natAbs_zero]
        rw [if_neg (fun hne => hne hstop), if_pos hzero, List.map_nil]
      · have hmore : i.natAbs / 10 ≠ 0 := by
          rw [← hdiv]
          exact Int.natAbs_ne_zero.mpr hstop
        rw [if_pos hstop, if_neg hmore, ih (by rw [hdiv]; omega), hdiv]

theorem convert_eq (value : Int) : convert value = decimal value := by
  rw [convert, convertLoop_eq (Nat.lt_succ_self _), decimal, List.reverse_append]
  congr 1
  split
  · exact List.reverse_singleton
  · exact List.reverse_nil

theorem convertHexLoop_eq {fuel i : Nat} (h : i < fuel) :
    convertHexLoop fuel i = (digitsOf 16 i).map digitChar := by
  induction fuel generalizing i with
  | zero => exact absurd h (Nat.not_lt_zero _)
  | succ fuel ih =>
      rw [convertHexLoop, digitsOf_step (by decide), digitsHex_getD (Nat.mod_lt _ (by decide)),
        List.map_cons]
      by_cases hstop : i / 16 = 0
      · rw [if_neg (fun hne => hne hstop), if_pos hstop, List.map_nil]
      · rw [if_pos hstop, if_neg hstop, ih (by omega)]

theorem convertHex_eq (value : Nat) : convertHex value = hexadecimal value := by
  rw [convertHex, convertHexLoop_eq (Nat.lt_succ_self _), hexadecimal]

end detail

theorem length_decimal_le {v : Int} (hlow : -9223372036854775808 ≤ v) (hhigh : v < 18446744073709551616) :
    (decimal v).length ≤ 20 := by
  rw [decimal, List.length_append, List.length_reverse, List.length_map]
  by_cases hv : v < 0
  · have hdigits : (digitsOf 10 v.natAbs).length ≤ 19 :=
      length_digitsOf_le (by decide) (by decide) (by omega)
    rw [if_pos hv, List.length_singleton]
    omega
  · have hdigits : (digitsOf 10 v.natAbs).length ≤ 20 :=
      length_digitsOf_le (by decide) (by decide) (by omega)
    rw [if_neg hv, List.length_nil]
    omega

theorem length_hexadecimal_le {n : Nat} (hn : n < 18446744073709551616) : (hexadecimal n).length ≤ 16 := by
  rw [hexadecimal, List.length_reverse, List.length_map]
  exact length_digitsOf_le (by decide) (by decide) (by omega)

namespace Insertion

/-- An integer fits into 64 bits, signed or not. -/
theorem number_fits {x : Insertion} {v : Int} (h : x.number = some v) :
    -9223372036854775808 ≤ v ∧ v < 18446744073709551616 := by
  cases x with
  | short w | int w | long w | longLong w =>
      obtain rfl := Option.some.inj h
      have hlow := w.le_toInt
      have hhigh := w.toInt_lt
      omega
  | unsignedShort w | unsignedInt w | unsignedLong w | unsignedLongLong w =>
      obtain rfl := Option.some.inj h
      have hhigh := w.toNat_lt
      omega
  | bool _ | pointer _ | char _ | cstring _ | known _ | string _ => simp [number] at h

/-- An integer is written by `formatInteger`. -/
theorem number_spec {SIZE : Nat} {x : Insertion} {v : Int} (h : x.number = some v)
    (b : FixedBuffer SIZE) :
    LogStream.insert b x = LogStream.formatInteger b v ∧ x.text = decimal v := by
  cases x with
  | bool _ | pointer _ | char _ | cstring _ | known _ | string _ => simp [number] at h
  | _ =>
      obtain rfl := Option.some.inj h
      exact ⟨rfl, rfl⟩

end Insertion

/-! ## The cursor -/

namespace detail.FixedBuffer

variable {SIZE : Nat} {b : FixedBuffer SIZE}

theorem write_eq (b : FixedBuffer SIZE) (pos : Nat) (bytes : List UInt8)
    (h : pos + bytes.length ≤ SIZE) :
    ∃ b', b.write pos bytes = some b' ∧ b'.data_ = overwrite b.data_ pos bytes ∧ b'.cur_ = b.cur_ := by
  rw [write, dif_pos h]
  exact ⟨_, rfl, rfl, rfl⟩

/-- Text at the cursor, with `more` behind it, is the text appended once the cursor has moved over it. -/
theorem write_add (b : FixedBuffer SIZE) (text more : List UInt8)
    (h : b.cur_ + (text ++ more).length ≤ SIZE) :
    ∃ b', ((b.write b.cur_ (text ++ more)).map fun b => b.add text.length) = some b' ∧
      b'.cur_ = b.cur_ + text.length ∧ b'.asString = b.asString ++ text := by
  obtain ⟨b', hwrite, hdata, hcur⟩ := write_eq b _ _ h
  rw [List.length_append] at h
  refine ⟨b'.add text.length, by rw [hwrite, Option.map_some], by rw [add, hcur], ?_⟩
  have hfront : (b.data_.take b.cur_).length = b.cur_ := by
    rw [List.length_take, b.size]
    omega
  have hlength : b.cur_ + text.length = (b.data_.take b.cur_ ++ text).length := by
    rw [List.length_append, hfront]
  show b'.data_.take (b'.cur_ + text.length) = b.data_.take b.cur_ ++ text
  rw [hdata, hcur, overwrite, hlength, List.append_assoc, List.append_assoc, ← List.append_assoc]
  exact List.take_left' rfl

theorem avail_new : (new : FixedBuffer SIZE).avail = SIZE := by
  rw [avail, new]
  exact Int.sub_zero _

theorem debugString_isSome (h : b.cur_ < SIZE) : b.debugString.isSome = true := by
  obtain ⟨b', hwrite, _⟩ := write_eq b b.cur_ [0] h
  rw [debugString, hwrite]
  rfl

theorem append_full {buf : List UInt8} {len : Int} (h : b.avail ≤ len) :
    b.append buf len = some b := by
  rw [append, if_neg (not_lt_of_ge h)]

/-- What passes the check with a length that is not negative is copied. -/
theorem append_taken {buf : List UInt8} {n : Nat} (hroom : (n : Int) < b.avail) (hn : n ≤ buf.length)
    (hSIZE : SIZE < sizeBound) :
    ∃ b', b.append buf n = some b' ∧ b'.cur_ = b.cur_ + n ∧
      b'.asString = b.asString ++ buf.take n := by
  have hin : b.cur_ + n < SIZE := by
    rw [avail] at hroom
    omega
  have hsize : ((n : Int) % sizeBound).toNat = n := by
    unfold sizeBound at hSIZE ⊢
    omega
  have htake : (buf.take n).length = n := List.length_take_of_le hn
  obtain ⟨b', hwrite, hcur, htext⟩ := write_add b (buf.take n) []
    (by rw [List.append_nil, htake]; exact Nat.le_of_lt hin)
  rw [List.append_nil, htake] at hwrite
  rw [htake] at hcur
  refine ⟨b', ?_, hcur, htext⟩
  rw [append, if_pos hroom]
  simp only [hsize, memcpy, if_pos hn]
  exact hwrite

/-- A negative length reaches `memcpy` as a size past the end of the array. -/
theorem append_negative {buf : List UInt8} {len : Int} (hlen : len < 0) (hlow : -9223372036854775808 ≤ len)
    (hcur : b.cur_ ≤ SIZE) (hSIZE : SIZE < 9223372036854775808) : b.append buf len = none := by
  have hroom : len < b.avail := by
    rw [avail]
    omega
  rw [append, if_pos hroom]
  have hbig : 9223372036854775808 ≤ (len % sizeBound).toNat := by
    unfold sizeBound
    omega
  simp only [memcpy]
  split
  · rename_i hfits
    rw [write, dif_neg]
    · rfl
    · rw [List.length_take_of_le hfits]
      omega
  · rfl

end detail.FixedBuffer

/-! ## One insertion -/

/-- `avail()` bytes are enough to take the insertion. -/
def Insertion.Fits (x : Insertion) (avail : Int) : Prop :=
  match x with
  | bool _ => 1 < avail
  | char _ => 1 < avail
  | cstring v => (v.val.length : Int) < avail
  | known v => (v.str_.length : Int) < avail
  | string v => (v.length : Int) < avail
  | _ => LogStream.kMaxNumericSize ≤ avail

instance (x : Insertion) (avail : Int) : Decidable (x.Fits avail) := by
  cases x <;> unfold Insertion.Fits <;> infer_instance

/-- The length of the text is the same as an `int`. -/
def Insertion.Short : Insertion → Prop
  | cstring v => v.val.length < intBound
  | string v => v.length < intBound
  | _ => True

instance : (x : Insertion) → Decidable x.Short := by
  intro x
  cases x <;> unfold Insertion.Short <;> infer_instance

/-- The narrowed length of a text does no harm: it is the length, or there is no room for it either, or
    it is zero. -/
def Insertion.Narrows (avail : Int) : Insertion → Prop
  | cstring v => v.val.length < intBound ∨ avail ≤ narrow v.val.length ∨ narrow v.val.length = 0
  | string v => v.length < intBound ∨ avail ≤ narrow v.length ∨ narrow v.length = 0
  | _ => True

theorem narrow_of_lt {n : Nat} (h : n < intBound) : narrow n = n := by
  unfold intBound at h
  unfold narrow
  rw [Int.bmod_def]
  omega

theorem Insertion.Short.narrows {x : Insertion} (h : x.Short) (avail : Int) : x.Narrows avail := by
  cases x with
  | cstring v => exact Or.inl h
  | string v => exact Or.inl h
  | _ => trivial

theorem narrow_bounds (n : Nat) : -2147483648 ≤ narrow n ∧ narrow n < 2147483648 := by
  unfold narrow
  rw [Int.bmod_def]
  omega

namespace LogStream

variable {SIZE : Nat} {b b' : FixedBuffer SIZE}

/-- What an insertion that is not cut comes to. -/
structure Inserts (b : FixedBuffer SIZE) (x : Insertion) (b' : FixedBuffer SIZE) : Prop where
  run : insert b x = some b'
  room : b'.cur_ < SIZE
  taken : x.Fits b.avail → b'.asString = b.asString ++ x.text
  moved : x.Fits b.avail → b'.cur_ = b.cur_ + x.text.length
  refused : ¬ x.Fits b.avail → b' = b

/-- **One insertion is whole**: it stays inside the array, and appends its text or nothing. -/
def Whole (b : FixedBuffer SIZE) (x : Insertion) : Prop :=
  ∃ b', insert b x = some b' ∧ b'.cur_ < SIZE ∧
    (b'.asString = b.asString ++ x.text ∨ b'.asString = b.asString)

theorem Inserts.avail {x : Insertion} (h : Inserts b x b') :
    b'.avail = if x.Fits b.avail then b.avail - x.text.length else b.avail := by
  split
  · rename_i hfits
    have hmoved := h.moved hfits
    unfold FixedBuffer.avail
    omega
  · rename_i hfits
    rw [h.refused hfits]

theorem Inserts.whole {x : Insertion} (h : Inserts b x b') : Whole b x := by
  refine ⟨b', h.run, h.room, ?_⟩
  by_cases hfits : x.Fits b.avail
  · exact Or.inl (h.taken hfits)
  · exact Or.inr (by rw [h.refused hfits])

/-- A text that is appended by its own length. -/
theorem append_inserts (hb : b.cur_ < SIZE) (hSIZE : SIZE < intBound) {x : Insertion}
    (hrun : insert b x = b.append x.text x.text.length)
    (hfits : x.Fits b.avail ↔ (x.text.length : Int) < b.avail) : ∃ b', Inserts b x b' := by
  by_cases hroom : (x.text.length : Int) < b.avail
  · obtain ⟨b', happ, hcur, htext⟩ := FixedBuffer.append_taken hroom (Nat.le_refl _)
      (by unfold intBound at hSIZE; unfold sizeBound; omega)
    rw [List.take_length] at htext
    refine ⟨b', hrun.trans happ, ?_, fun _ => htext, fun _ => hcur,
      fun hnot => absurd (hfits.mpr hroom) hnot⟩
    rw [FixedBuffer.avail] at hroom
    omega
  · have hnot := fun h => hroom (hfits.mp h)
    exact ⟨b, hrun.trans (FixedBuffer.append_full (Int.not_lt.mp hroom)), hb,
      fun h => absurd h hnot, fun h => absurd h hnot, fun _ => rfl⟩

/-- A text of at most 20 bytes that is written in place. -/
theorem write_inserts (hb : b.cur_ < SIZE) {x : Insertion} (hlen : x.text.length ≤ 20)
    (hrun : insert b x = if b.avail ≥ kMaxNumericSize then
      (b.write b.cur_ (x.text ++ [0])).map fun b => b.add x.text.length else some b)
    (hfits : x.Fits b.avail ↔ kMaxNumericSize ≤ b.avail) : ∃ b', Inserts b x b' := by
  by_cases hroom : kMaxNumericSize ≤ b.avail
  · have hspace : b.cur_ + 32 ≤ SIZE := by
      unfold kMaxNumericSize FixedBuffer.avail at hroom
      omega
    obtain ⟨b', hwrite, hcur, htext⟩ := b.write_add x.text [0]
      (by rw [List.length_append, List.length_singleton]; omega)
    refine ⟨b', ?_, by omega, fun _ => htext, fun _ => hcur, fun hnot => absurd (hfits.mpr hroom) hnot⟩
    rw [hrun, if_pos hroom, hwrite]
  · have hnot := fun h => hroom (hfits.mp h)
    exact ⟨b, by rw [hrun, if_neg hroom], hb, fun h => absurd h hnot, fun h => absurd h hnot,
      fun _ => rfl⟩

/-- **The spec of an insertion** of a length that `int` holds. -/
theorem insert_spec (hb : b.cur_ < SIZE) (hSIZE : SIZE < intBound) {x : Insertion} (hx : x.Short) :
    ∃ b', Inserts b x b' := by
  cases hnumber : x.number with
  | some v =>
      obtain ⟨hrun, htext⟩ := x.number_spec hnumber b
      obtain ⟨hlow, hhigh⟩ := x.number_fits hnumber
      refine write_inserts hb (by rw [htext]; exact length_decimal_le hlow hhigh) ?_ ?_
      · rw [hrun, formatInteger, convert_eq, htext]
      · cases x <;> first | exact Iff.rfl | simp [Insertion.number] at hnumber
  | none =>
      cases x with
      | bool v => exact append_inserts hb hSIZE rfl Iff.rfl
      | char v => exact append_inserts hb hSIZE rfl Iff.rfl
      | pointer p =>
          have hdigits := length_hexadecimal_le p.toNat_lt
          refine write_inserts hb ?_ ?_ Iff.rfl
          · simp only [Insertion.text, List.length_cons]
            omega
          · rw [insert, formatPointer, convertHex_eq]
            rfl
      | cstring v =>
          refine append_inserts hb hSIZE ?_ Iff.rfl
          rw [insert, narrow_of_lt hx]
          rfl
      | known v =>
          refine append_inserts hb hSIZE ?_ Iff.rfl
          rw [insert, narrow_of_lt v.len_lt, ← v.known]
          rfl
      | string v =>
          refine append_inserts hb hSIZE ?_ Iff.rfl
          rw [insert, narrow_of_lt hx]
          rfl
      | _ => simp [Insertion.number] at hnumber

/-- A text of any length is inserted whole if and only if narrowing does no harm. -/
theorem append_whole_iff (hb : b.cur_ < SIZE) (hSIZE : SIZE < intBound) (v : List UInt8) :
    (∃ b', b.append v (narrow v.length) = some b' ∧ b'.cur_ < SIZE ∧
      (b'.asString = b.asString ++ v ∨ b'.asString = b.asString)) ↔
    v.length < intBound ∨ b.avail ≤ narrow v.length ∨ narrow v.length = 0 := by
  have hpos : 0 < b.avail := by
    rw [FixedBuffer.avail]
    omega
  have hbound : b.avail ≤ SIZE := by
    rw [FixedBuffer.avail]
    omega
  obtain ⟨hlow, hhigh⟩ := narrow_bounds v.length
  by_cases hfull : b.avail ≤ narrow v.length
  · exact iff_of_true ⟨b, FixedBuffer.append_full hfull, hb, Or.inr rfl⟩ (Or.inr (Or.inl hfull))
  · by_cases hneg : narrow v.length < 0
    · -- the copy runs over the end of the array
      have hsmall : SIZE < 9223372036854775808 := by
        unfold intBound at hSIZE
        omega
      have hnone : b.append v (narrow v.length) = none :=
        FixedBuffer.append_negative hneg (by omega) (Nat.le_of_lt hb) hsmall
      refine iff_of_false ?_ ?_
      · rintro ⟨b', hrun, _⟩
        simp [hnone] at hrun
      · rintro (hshort | hroom | hzero)
        · rw [narrow_of_lt hshort] at hneg
          omega
        · exact hfull hroom
        · omega
    · -- the copy is of as many bytes as the narrowed length says
      obtain ⟨n, hn⟩ := Int.eq_ofNat_of_zero_le (Int.not_lt.mp hneg)
      have hle : n ≤ v.length := by
        by_contra hlt
        rw [narrow_of_lt (by omega)] at hn
        omega
      have hlt : (n : Int) < b.avail := by omega
      obtain ⟨b', happ, hcur, htext⟩ := FixedBuffer.append_taken hlt hle
        (by unfold intBound at hSIZE; unfold sizeBound; omega)
      have hroom' : b'.cur_ < SIZE := by
        have hsmall := Int.not_le.mp hfull
        rw [FixedBuffer.avail] at hsmall
        omega
      have hcases : (b'.asString = b.asString ++ v ∨ b'.asString = b.asString) ↔
          n = v.length ∨ n = 0 := by
        rw [htext]
        constructor
        · rintro (hwhole | hnothing)
          · have hlength := congrArg List.length (List.append_cancel_left hwhole)
            rw [List.length_take_of_le hle] at hlength
            exact Or.inl hlength
          · have hlength := congrArg List.length hnothing
            rw [List.length_append, List.length_take_of_le hle] at hlength
            exact Or.inr (by omega)
        · rintro (hwhole | hnothing)
          · exact Or.inl (by rw [hwhole, List.take_length])
          · exact Or.inr (by rw [hnothing, List.take_zero, List.append_nil])
      rw [hn]
      constructor
      · rintro ⟨b'', hrun, _, htexts⟩
        rw [happ] at hrun
        obtain rfl := Option.some.inj hrun
        rcases hcases.mp htexts with hwhole | hnothing
        · exact Or.inl (by omega)
        · exact Or.inr (Or.inr (by omega))
      · intro hcond
        refine ⟨b', happ, hroom', hcases.mpr ?_⟩
        rcases hcond with hshort | hroom | hzero
        · rw [narrow_of_lt hshort] at hn
          exact Or.inl (by omega)
        · omega
        · exact Or.inr (by omega)

/-- **One insertion.** -/
theorem insert_whole (hb : b.cur_ < SIZE) (hSIZE : SIZE < intBound) (x : Insertion) :
    Whole b x ↔ x.Narrows b.avail := by
  have hshort : x.Short → (Whole b x ↔ True) := fun hx =>
    iff_true_intro (insert_spec hb hSIZE hx).choose_spec.whole
  cases x with
  | cstring v => exact append_whole_iff hb hSIZE v.val
  | string v => exact append_whole_iff hb hSIZE v
  | _ => exact hshort trivial

/-! ## Runs -/

/-- **A stream never overruns and never splits.** After every part of the run the cursor is inside the
    array with a byte to spare, for a terminator; the buffer holds the texts of the insertions that were
    taken, in order; and the next insertion appends its whole text or nothing. -/
def NeverSplits (b₀ : Buffer) (es : List Insertion) : Prop :=
  ∀ before after, es = before ++ after → ∃ (b : Buffer) (taken : List Insertion),
    machine.run b₀ before = some b ∧
    b.cur_ < kSmallBuffer ∧ b.debugString.isSome = true ∧
    taken.Sublist before ∧ b.asString = taken.flatMap Insertion.text ∧
    ∀ x rest, after = x :: rest → Whole b x

variable {b₀ b₁ : Buffer} {es : List Insertion}

/-- **The run lemma**: what a run of whole insertions has appended. -/
theorem run_texts (hb : b₀.cur_ < kSmallBuffer)
    (h : machine.Along (fun b x => x.Narrows b.avail) b₀ es) {before after : List Insertion}
    (hsplit : es = before ++ after) : ∃ (b : Buffer) (taken : List Insertion),
    machine.run b₀ before = some b ∧
      b.cur_ < kSmallBuffer ∧ taken.Sublist before ∧
      b.asString = b₀.asString ++ taken.flatMap Insertion.text ∧
      ∀ x rest, after = x :: rest → Whole b x := by
  induction before generalizing b₀ es with
  | nil =>
      refine ⟨b₀, [], rfl, hb, List.nil_sublist _, (List.append_nil _).symm, ?_⟩
      rintro x rest rfl
      rw [hsplit] at h
      exact (insert_whole hb (by decide) x).mpr h.1
  | cons x before ih =>
      rw [hsplit] at h
      obtain ⟨b, hstep, hb', htext⟩ := (insert_whole hb (by decide) x).mpr h.1
      obtain ⟨b', taken, hrun, hroom, hsub, htexts, hnext⟩ :=
        ih hb' ((Machine.along_cons (M := machine) hstep).mp h).2 rfl
      have hrun' : machine.run b₀ (x :: before) = some b' := by
        rw [Machine.run, machine_step, hstep]
        exact hrun
      rcases htext with hwhole | hnothing
      · refine ⟨b', x :: taken, hrun', hroom, hsub.cons_cons x, ?_, hnext⟩
        rw [htexts, hwhole, List.flatMap_cons, List.append_assoc]
      · refine ⟨b', taken, hrun', hroom, hsub.cons x, ?_, hnext⟩
        rw [htexts, hnothing]

/-- Whole insertions are narrowed without harm, one after the other. -/
theorem along_of_whole (hb : b₀.cur_ < kSmallBuffer)
    (h : ∀ before x rest, es = before ++ x :: rest → ∃ b, machine.run b₀ before = some b ∧
      b.cur_ < kSmallBuffer ∧ Whole b x) :
    machine.Along (fun b x => x.Narrows b.avail) b₀ es := by
  induction es generalizing b₀ with
  | nil => trivial
  | cons x es ih =>
      obtain ⟨b, hrun, _, hwhole⟩ := h [] x es rfl
      obtain rfl := Option.some.inj hrun
      have hnarrows := (insert_whole hb (by decide) x).mp hwhole
      obtain ⟨b', hstep, hb', _⟩ := hwhole
      refine (Machine.along_cons (M := machine) hstep).mpr ⟨hnarrows, ih hb' ?_⟩
      intro before y rest hsplit
      obtain ⟨b, hrun, hrest⟩ := h (x :: before) y rest (by rw [hsplit, List.cons_append])
      rw [Machine.run, machine_step, hstep] at hrun
      exact ⟨b, hrun, hrest⟩

/-- **Whole streams.** A run of insertions into an empty stream never overruns and never splits if and
    only if no insertion in it is of a length that `int` gets wrong and that passes the check. -/
theorem stream_whole (b₀ : Buffer) (h₀ : machine.init b₀) (es : List Insertion) :
    NeverSplits b₀ es ↔ machine.Along (fun b x => x.Narrows b.avail) b₀ es := by
  have hb : b₀.cur_ < kSmallBuffer := by
    rw [show b₀.cur_ = 0 from h₀]
    decide
  have hempty : b₀.asString = [] := by
    rw [FixedBuffer.asString, show b₀.cur_ = 0 from h₀, List.take_zero]
  constructor
  · intro h
    apply along_of_whole hb
    intro before x rest hsplit
    obtain ⟨b, taken, hrun, hroom, _, _, _, hnext⟩ := h before (x :: rest) hsplit
    exact ⟨b, hrun, hroom, hnext x rest rfl⟩
  · intro h before after hsplit
    obtain ⟨b, taken, hrun, hroom, hsub, htexts, hnext⟩ := run_texts hb h hsplit
    rw [hempty, List.nil_append] at htexts
    exact ⟨b, taken, hrun, hroom, FixedBuffer.debugString_isSome hroom, hsub, htexts, hnext⟩

/-- A string of `2 ^ 31` bytes runs over the end of an empty stream: its length is negative as an
    `int`. -/
theorem stream_overruns : ¬ ∀ (b₀ : Buffer), machine.init b₀ → ∀ es, NeverSplits b₀ es := by
  intro hclaim
  have hlow : (-9223372036854775808 : Int) ≤ -2147483648 := by omega
  have hlength : (List.replicate intBound (Char.toUInt8 'a')).length = intBound := List.length_replicate
  generalize List.replicate intBound (Char.toUInt8 'a') = v at hlength
  obtain ⟨b, taken, hrun, _⟩ := hclaim FixedBuffer.new rfl [.string v] [.string v] []
    (List.append_nil _).symm
  have hnarrow : narrow v.length = -2147483648 := by
    unfold intBound at hlength
    unfold narrow
    rw [Int.bmod_def]
    omega
  have hnone : insert (FixedBuffer.new : Buffer) (.string v) = none := by
    rw [insert, hnarrow]
    exact FixedBuffer.append_negative (by decide) hlow (Nat.zero_le _) (by decide)
  rw [Machine.run, machine_step, hnone, Option.bind_none] at hrun
  exact absurd hrun (by simp)

/-- Insertions of lengths that `int` holds never split; a string of `2 ^ 32 + 5` bytes is cut to five. -/
theorem stream_whole_both :
    NeverSplits FixedBuffer.new [.string [104, 105], .int (-7), .bool true, .pointer 255] ∧
      ¬ NeverSplits FixedBuffer.new [.string (List.replicate 4294967301 (Char.toUInt8 'a'))] := by
  have hinit : machine.init FixedBuffer.new := rfl
  constructor
  · refine (stream_whole _ hinit _).mpr ?_
    refine Machine.Along.mono ?_ (Machine.along_of_forall (P := Insertion.Short) _ ?_)
    · intro b x hx
      exact hx.narrows b.avail
    · simp [Insertion.Short, intBound]
  · intro h
    have hnarrow : narrow 4294967301 = 5 := by decide
    have hcond := Machine.Along.head ((stream_whole _ hinit _).mp h)
    rw [Insertion.Narrows, List.length_replicate, hnarrow, FixedBuffer.avail_new] at hcond
    unfold kSmallBuffer intBound at hcond
    omega

end LogStream

end Simplev
