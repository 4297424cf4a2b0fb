import Simplev.Base.LogStream

/-!
# `Base.Convert` — integers rendered in place (`LogStream.cc`)

`Base.LogStream` takes the text of an integer as a list. Here `convert` and `convertHex` run on the bytes
of `buf`, with a pointer into it and with the arithmetic of their types. What C++ leaves undefined ends a
run: a digit read outside its table, a byte written past the end of `buf`.

- **`Integral`.** A type that `convert` is instantiated at: what the template does with a value of it.
- **`Round`.** The loop of both functions, with `Round.Divides` for what one round does. `Round.loop_eq`
  is the induction on the digits.
- **`Renders`.** What exact rendering is: one canonical text, written whole with its terminator.
- **`formatInteger_inPlace`, `formatPointer_inPlace`.** What `Base.LogStream` appends to a stream is what
  these functions leave in its buffer.
-/

namespace Simplev

open Foundation detail

namespace InPlace

/-- What C++ leaves undefined. -/
inductive Fault where
  /-- A digit is read outside its table. -/
  | table
  /-- A byte is written past the end of the buffer. -/
  | overrun
deriving DecidableEq, Repr

/-- `table[k]`. -/
def lookup (table : List UInt8) (k : Int) : Except Fault UInt8 :=
  if 0 ≤ k then
    match table[k.toNat]? with
    | some c => .ok c
    | none => .error .table
  else .error .table

/-- `*p = c`. -/
def store (buf : List UInt8) (p : Nat) (c : UInt8) : Except Fault (List UInt8) :=
  if p < buf.length then .ok (buf.set p c) else .error .overrun

/-- `std::reverse(buf, p)`. -/
def reverse (buf : List UInt8) (p : Nat) : List UInt8 := (buf.take p).reverse ++ buf.drop p

/-- `*p = '\0'; std::reverse(buf, p); return p - buf;` -/
def terminate (buf : List UInt8) (p : Nat) : Except Fault (List UInt8 × Nat) := do
  let buf ← store buf p 0
  return (reverse buf p, p)

/-! ## The loop -/

/-- What a round of the loop does with `i`. -/
structure Round (T : Type) where
  /-- The digit for `i % base`. -/
  digit : T → Except Fault UInt8
  /-- `i / base`. -/
  quotient : T → T
  /-- `i != 0`. -/
  more : T → Bool

variable {T : Type}

/-- The `do` loop from `p` on. A round writes a byte of `buf`, so that `buf.length` of them are enough
    to meet its end. -/
def Round.loop (r : Round T) : Nat → List UInt8 → Nat → T → Except Fault (List UInt8 × Nat)
  | 0, _, _, _ => .error .overrun
  | rounds + 1, buf, p, i => do
    let c ← r.digit i
    let i := r.quotient i
    let buf ← store buf p c
    if r.more i then r.loop rounds buf (p + 1) i else return (buf, p + 1)

/-! ## `convert` -/

/-- A type that `convert` is instantiated at. -/
class Integral (T : Type) where
  toInt : T → Int
  /-- `int lsd = i % 10`. -/
  lsd : T → Int32
  /-- `i / 10`. -/
  quotient : T → T
  /-- `i != 0`. -/
  nonzero : T → Bool
  /-- `value < 0`. -/
  negative : T → Bool
  lsd_toInt : ∀ i, (lsd i).toInt = (toInt i).tmod 10
  quotient_toInt : ∀ i, toInt (quotient i) = (toInt i).tdiv 10
  nonzero_iff : ∀ i, nonzero i = true ↔ toInt i ≠ 0
  negative_iff : ∀ i, negative i = true ↔ toInt i < 0
  range : ∀ i, -9223372036854775808 ≤ toInt i ∧ toInt i < 18446744073709551616

open Integral

/-- `zero[lsd]`, where `zero` is `digits + 9`. -/
def zero (lsd : Int32) : Except Fault UInt8 := lookup digits (9 + lsd.toInt)

def decimalRound [Integral T] : Round T where
  digit i := zero (lsd i)
  quotient := quotient
  more := nonzero

def convert [Integral T] (buf : List UInt8) (value : T) : Except Fault (List UInt8 × Nat) := do
  let (buf, p) ← decimalRound.loop (buf.length + 1) buf 0 value
  if negative value then
    let buf ← store buf p (Char.toUInt8 '-')
    terminate buf (p + 1)
  else terminate buf p

/-! ## `convertHex` -/

/-- `uintptr_t` is unsigned, of 64 bits. -/
def hexRound : Round UInt64 where
  digit i := lookup digitsHex (i % 16).toUInt32.toInt32.toInt
  quotient i := i / 16
  more i := i != 0

def convertHex (buf : List UInt8) (value : UInt64) : Except Fault (List UInt8 × Nat) := do
  let (buf, p) ← hexRound.loop (buf.length + 1) buf 0 value
  terminate buf p

/-! ## The types of `operator<<` -/

/-- A remainder of ten is an `int`, whatever it is a remainder of. -/
theorem tmod_ten (i : Int) : -10 < i.tmod 10 ∧ i.tmod 10 < 10 := by
  have hmod : (i.tmod 10).natAbs = i.natAbs % 10 := Int.natAbs_tmod i 10
  omega

/-- A quotient stays within the bounds of its dividend. -/
theorem tdiv_ten {i m : Int} (hlow : -m ≤ i) (hhigh : i < m) :
    -m ≤ i.tdiv 10 ∧ i.tdiv 10 < m := by
  have hdiv : (i.tdiv 10).natAbs = i.natAbs / 10 := Int.natAbs_tdiv i 10
  omega

theorem toInt32_of_lt {u : UInt32} (h : u.toNat < 2147483648) : u.toInt32.toInt = u.toNat := by
  have hbits : u.toInt32.toInt = (u.toNat : Int).bmod 4294967296 :=
    BitVec.toInt_eq_toNat_bmod u.toBitVec
  rw [hbits]
  exact Int.bmod_eq_of_le (by omega) (by omega)

theorem toUInt32_toInt32_of_lt {u : UInt64} (h : u.toNat < 2147483648) :
    u.toUInt32.toInt32.toInt = u.toNat := by
  have hlow : u.toUInt32.toNat = u.toNat := by
    rw [UInt64.toNat_toUInt32]
    exact Nat.mod_eq_of_lt (by omega)
  rw [toInt32_of_lt (by omega), hlow]

instance : Integral Int32 where
  toInt := Int32.toInt
  lsd i := i % 10
  quotient i := i / 10
  nonzero i := i != 0
  negative value := value < 0
  lsd_toInt i := Int32.toInt_mod i 10
  quotient_toInt i := by
    obtain ⟨hlow, hhigh⟩ := tdiv_ten (m := 2147483648) i.le_toInt i.toInt_lt
    have hten : (10 : Int32).toInt = 10 := rfl
    rw [Int32.toInt_div, hten]
    exact Int.bmod_eq_of_le (by omega) (by omega)
  nonzero_iff i := by
    rw [bne_iff_ne, ne_eq, ← Int32.toInt_inj]
    rfl
  negative_iff i := by
    rw [decide_eq_true_iff, Int32.lt_iff_toInt_lt]
    rfl
  range i := by
    have hlow := i.le_toInt
    have hhigh := i.toInt_lt
    omega

instance : Integral Int64 where
  toInt := Int64.toInt
  lsd i := (i % 10).toInt32
  quotient i := i / 10
  nonzero i := i != 0
  negative value := value < 0
  lsd_toInt i := by
    obtain ⟨hlow, hhigh⟩ := tmod_ten i.toInt
    have hmod : (i % 10).toInt = i.toInt.tmod 10 := Int64.toInt_mod i 10
    rw [Int64.toInt_toInt32, hmod]
    exact Int.bmod_eq_of_le (by omega) (by omega)
  quotient_toInt i := by
    obtain ⟨hlow, hhigh⟩ := tdiv_ten (m := 9223372036854775808) i.le_toInt i.toInt_lt
    have hten : (10 : Int64).toInt = 10 := rfl
    rw [Int64.toInt_div, hten]
    exact Int.bmod_eq_of_le (by omega) (by omega)
  nonzero_iff i := by
    rw [bne_iff_ne, ne_eq, ← Int64.toInt_inj]
    rfl
  negative_iff i := by
    rw [decide_eq_true_iff, Int64.lt_iff_toInt_lt]
    rfl
  range i := by
    have hlow := i.le_toInt
    have hhigh := i.toInt_lt
    omega

instance : Integral UInt32 where
  toInt i := i.toNat
  lsd i := (i % 10).toInt32
  quotient i := i / 10
  nonzero i := i != 0
  negative value := value < 0
  lsd_toInt i := by
    have hmod : (i % 10).toNat = i.toNat % 10 := UInt32.toNat_mod i 10
    rw [toInt32_of_lt (by omega), hmod]
    exact Int.ofNat_tmod i.toNat 10
  quotient_toInt i := by
    rw [UInt32.toNat_div]
    exact Int.ofNat_tdiv i.toNat 10
  nonzero_iff i := by
    rw [bne_iff_ne, ne_eq, ← UInt32.toNat_inj, ne_eq, Int.natCast_eq_zero]
    rfl
  negative_iff i := by
    rw [decide_eq_true_iff, UInt32.lt_iff_toNat_lt]
    exact iff_of_false (Nat.not_lt_zero _) (Int.not_lt.mpr (Int.natCast_nonneg _))
  range i := by
    have hhigh := i.toNat_lt
    omega

instance : Integral UInt64 where
  toInt i := i.toNat
  lsd i := (i % 10).toUInt32.toInt32
  quotient i := i / 10
  nonzero i := i != 0
  negative value := value < 0
  lsd_toInt i := by
    have hmod : (i % 10).toNat = i.toNat % 10 := UInt64.toNat_mod i 10
    rw [toUInt32_toInt32_of_lt (by omega), hmod]
    exact Int.ofNat_tmod i.toNat 10
  quotient_toInt i := by
    rw [UInt64.toNat_div]
    exact Int.ofNat_tdiv i.toNat 10
  nonzero_iff i := by
    rw [bne_iff_ne, ne_eq, ← UInt64.toNat_inj, ne_eq, Int.natCast_eq_zero]
    rfl
  negative_iff i := by
    rw [decide_eq_true_iff, UInt64.lt_iff_toNat_lt]
    exact iff_of_false (Nat.not_lt_zero _) (Int.not_lt.mpr (Int.natCast_nonneg _))
  range i := by
    have hhigh := i.toNat_lt
    omega

inductive IntegerType where
  | int
  | unsignedInt
  | long
  | unsignedLong
  | longLong
  | unsignedLongLong
deriving DecidableEq, Repr

namespace IntegerType

/-- `int` has 32 bits, and `long` has 64. -/
abbrev Carrier : IntegerType → Type
  | int => Int32
  | unsignedInt => UInt32
  | long | longLong => Int64
  | unsignedLong | unsignedLongLong => UInt64

instance : (t : IntegerType) → Integral t.Carrier
  | int => inferInstanceAs (Integral Int32)
  | unsignedInt => inferInstanceAs (Integral UInt32)
  | long | longLong => inferInstanceAs (Integral Int64)
  | unsignedLong | unsignedLongLong => inferInstanceAs (Integral UInt64)

end IntegerType

/-! ## What a run of writes leaves -/

/-- `text` written from `p` on, and the pointer past it. -/
def place (buf : List UInt8) (p : Nat) (text : List UInt8) : Except Fault (List UInt8 × Nat) :=
  if p + text.length ≤ buf.length then .ok (overwrite buf p text, p + text.length)
  else .error .overrun

/-- One text after another. -/
theorem place_append (buf : List UInt8) (p : Nat) (text more : List UInt8) :
    (place buf p text >>= fun r => place r.1 r.2 more) = place buf p (text ++ more) := by
  by_cases htext : p + text.length ≤ buf.length
  · have hlength : (overwrite buf p text).length = buf.length := length_overwrite htext
    rw [place, if_pos htext]
    show place (overwrite buf p text) (p + text.length) more = place buf p (text ++ more)
    rw [place, place, hlength, overwrite_append htext, List.length_append, Nat.add_assoc]
  · have hmore : ¬ p + (text ++ more).length ≤ buf.length := by
      rw [List.length_append]
      omega
    rw [place, if_neg htext, place, if_neg hmore]
    rfl

/-- `*p++ = c`. -/
theorem store_eq (buf : List UInt8) (p : Nat) (c : UInt8) :
    (store buf p c >>= fun buf => .ok (buf, p + 1)) = place buf p [c] := by
  by_cases h : p < buf.length
  · have hroom : p + [c].length ≤ buf.length := h
    rw [store, if_pos h, place, if_pos hroom, ← set_eq_overwrite c h]
    rfl
  · have hfull : ¬ p + [c].length ≤ buf.length := h
    rw [store, if_neg h, place, if_neg hfull]
    rfl

/-- What follows `*p++ = c` runs with the pointer past it. -/
theorem store_bind {α : Type} (buf : List UInt8) (p : Nat) (c : UInt8)
    (next : List UInt8 × Nat → Except Fault α) :
    (store buf p c >>= fun buf => next (buf, p + 1)) = (place buf p [c] >>= next) := by
  rw [← store_eq]
  cases store buf p c <;> rfl

/-! ## One round, and all of them -/

/-- A round divides a number of size `size i` by `b`. -/
structure Round.Divides (r : Round T) (b : Nat) (size : T → Nat) : Prop where
  digit : ∀ i, r.digit i = .ok (digitChar (size i % b))
  quotient : ∀ i, size (r.quotient i) = size i / b
  more : ∀ i, r.more i = true ↔ size i ≠ 0

/-- **The loop writes the digits**, the lowest first, if `buf` has room for them. -/
theorem Round.loop_eq {r : Round T} {b : Nat} {size : T → Nat} (h : r.Divides b size) (hb : 1 < b)
    {rounds : Nat} {buf : List UInt8} {p : Nat} {i : T} (hrounds : buf.length < p + rounds) :
    r.loop rounds buf p i = place buf p ((digitsOf b (size i)).map digitChar) := by
  induction rounds generalizing buf p i with
  | zero =>
      -- no store is left, but then the buffer has no place left either
      have hfull : ¬ p + ((digitsOf b (size i)).map digitChar).length ≤ buf.length := by omega
      rw [Round.loop, place, if_neg hfull]
  | succ rounds ih =>
      rw [Round.loop, h.digit i]
      show (store buf p (digitChar (size i % b)) >>= fun buf =>
        if r.more (r.quotient i) then r.loop rounds buf (p + 1) (r.quotient i)
        else .ok (buf, p + 1)) = _
      rw [digitsOf_step hb, List.map_cons]
      by_cases hlast : size i / b = 0
      · have hmore : ¬ r.more (r.quotient i) = true := by
          rw [h.more, h.quotient]
          exact fun hne => hne hlast
        rw [if_pos hlast, List.map_nil, ← store_eq]
        simp only [if_neg hmore]
      · have hmore : r.more (r.quotient i) = true := by
          rw [h.more, h.quotient]
          exact hlast
        -- this digit, and behind it those of the quotient
        rw [if_neg hlast, ← h.quotient, ← List.singleton_append, ← place_append, ← store_bind]
        simp only [if_pos hmore]
        by_cases hroom : p < buf.length
        · -- the buffer is as long as before, and one round less has to be enough
          rw [store, if_pos hroom]
          exact ih (by rw [List.length_set]; omega)
        · rw [store, if_neg hroom]
          rfl

/-- `text` and a terminator in front of what was in `buf`, or nothing. -/
def written (buf text : List UInt8) : Except Fault (List UInt8 × Nat) :=
  if text.length < buf.length then .ok (text ++ 0 :: buf.drop (text.length + 1), text.length)
  else .error .overrun

/-- The end of both functions, after a text that was written backwards. -/
theorem terminate_eq (buf text : List UInt8) :
    (place buf 0 text >>= fun r => terminate r.1 r.2) = written buf text.reverse := by
  rw [written, List.length_reverse]
  by_cases htext : 0 + text.length ≤ buf.length
  · have hlength : (overwrite buf 0 text).length = buf.length := length_overwrite htext
    rw [place, if_pos htext]
    show terminate (overwrite buf 0 text) (0 + text.length) = _
    -- the text is in; its terminator needs one place more
    by_cases hroom : text.length < buf.length
    · have hroom' : 0 + text.length < (overwrite buf 0 text).length := by omega
      rw [terminate, store, if_pos hroom', set_eq_overwrite 0 hroom', overwrite_append htext, if_pos hroom,
        overwrite_zero, List.length_append, List.append_assoc, Nat.zero_add]
      show Except.ok (reverse (text ++ ([0] ++ buf.drop (text.length + 1))) text.length, text.length) = _
      rw [reverse, List.take_left' rfl, List.drop_left' rfl]
      rfl
    · have hfull : ¬ 0 + text.length < (overwrite buf 0 text).length := by omega
      rw [terminate, store, if_neg hfull, if_neg hroom]
      rfl
  · have hroom : ¬ text.length < buf.length := by omega
    rw [place, if_neg htext, if_neg hroom]
    rfl

/-! ## What the two functions write -/

/-- `zero` may be indexed from both sides. -/
theorem zero_ok {lsd : Int32} (h : lsd.toInt.natAbs < 10) :
    zero lsd = .ok (digitChar lsd.toInt.natAbs) := by
  have hall : ∀ d : Fin 10, lookup digits (9 + (d : Nat)) = .ok (digitChar d) ∧
      lookup digits (9 + -(d : Nat)) = .ok (digitChar d) := by decide
  rw [zero]
  rcases Int.natAbs_eq lsd.toInt with heq | heq
  · rw [heq, Int.natAbs_natCast]
    exact (hall ⟨lsd.toInt.natAbs, h⟩).1
  · rw [heq, Int.natAbs_neg, Int.natAbs_natCast]
    exact (hall ⟨lsd.toInt.natAbs, h⟩).2

/-- A round of `convert` divides by ten, on both sides of zero. -/
theorem decimalRound_divides [Integral T] :
    (decimalRound : Round T).Divides 10 fun i => (toInt i).natAbs where
  digit i := by
    have hlsd : (lsd i).toInt.natAbs = (toInt i).natAbs % 10 := by
      rw [lsd_toInt]
      exact Int.natAbs_tmod _ 10
    show zero (lsd i) = _
    rw [zero_ok (by omega), hlsd]
  quotient i := by
    show (toInt (Integral.quotient i)).natAbs = _
    rw [quotient_toInt]
    exact Int.natAbs_tdiv _ 10
  more i := (nonzero_iff i).trans Int.natAbs_ne_zero.symm

theorem hexRound_divides : hexRound.Divides 16 UInt64.toNat where
  digit i := by
    have hall : ∀ d : Fin 16, lookup digitsHex (d : Nat) = .ok (digitChar d) := by decide
    have hmod : (i % 16).toNat = i.toNat % 16 := UInt64.toNat_mod i 16
    have hlt : i.toNat % 16 < 16 := Nat.mod_lt _ (by decide)
    show lookup digitsHex (i % 16).toUInt32.toInt32.toInt = _
    rw [toUInt32_toInt32_of_lt (by omega), hmod]
    exact hall ⟨i.toNat % 16, hlt⟩
  quotient i := UInt64.toNat_div i 16
  more i := by
    show (i != 0) = true ↔ _
    rw [bne_iff_ne, ne_eq, ← UInt64.toNat_inj]
    rfl

/-- **`convert` writes the decimal text.** -/
theorem convert_eq [Integral T] (buf : List UInt8) (value : T) :
    convert buf value = written buf (decimal (toInt value)) := by
  have hloop : decimalRound.loop (buf.length + 1) buf 0 value =
      place buf 0 ((digitsOf 10 (toInt value).natAbs).map digitChar) :=
    Round.loop_eq decimalRound_divides (by decide) (by omega)
  rw [convert, hloop, decimal]
  by_cases hneg : toInt value < 0
  · have hnegative := (negative_iff value).mpr hneg
    simp only [if_pos hnegative, if_pos hneg]
    -- the minus goes behind the digits, and `std::reverse` brings it to the front
    have hstore : ∀ r : List UInt8 × Nat,
        (store r.1 r.2 (Char.toUInt8 '-') >>= fun buf => terminate buf (r.2 + 1)) =
          (place r.1 r.2 [Char.toUInt8 '-'] >>= fun r => terminate r.1 r.2) := by
      intro r
      exact store_bind r.1 r.2 _ fun r => terminate r.1 r.2
    simp only [hstore]
    rw [← bind_assoc, place_append, terminate_eq, List.reverse_append]
    rfl
  · have hpositive : ¬ negative value = true := fun h => hneg ((negative_iff value).mp h)
    simp only [if_neg hpositive, if_neg hneg]
    exact terminate_eq buf _

example : convert (List.replicate 6 7) (-307 : Int32) = .ok ([45, 51, 48, 55, 0, 7], 4) := by rfl

/-- **`convertHex` writes the hexadecimal text.** -/
theorem convertHex_eq (buf : List UInt8) (value : UInt64) :
    convertHex buf value = written buf (hexadecimal value.toNat) := by
  have hloop : hexRound.loop (buf.length + 1) buf 0 value =
      place buf 0 ((digitsOf 16 value.toNat).map digitChar) :=
    Round.loop_eq hexRound_divides (by decide) (by omega)
  rw [convertHex, hloop]
  exact terminate_eq buf _

/-! ## The texts are canonical -/

theorem digitValue_digitChar {d : Nat} (hd : d < 16) : digitValue (digitChar d) = some d := by
  have hall : ∀ d : Fin 16, digitValue (digitChar d) = some d.val := by decide
  exact hall ⟨d, hd⟩

/-- The text of a number that is not negative. -/
def numeral (b n : Nat) : List UInt8 := ((digitsOf b n).map digitChar).reverse

variable {b n : Nat}

theorem readDigits_numeral (hb : 1 < b) (hb' : b ≤ 16) :
    readDigits b (numeral b n) = some (digitsOf b n).reverse := by
  rw [numeral, ← List.map_reverse]
  refine readDigits_map ?_
  intro d hd
  have hlt := digitsOf_lt hb (List.mem_reverse.mp hd)
  exact ⟨hlt, digitValue_digitChar (by omega)⟩

/-- A numeral starts with its highest digit. -/
theorem head?_numeral : (numeral b n).head? = (digitsOf b n).getLast?.map digitChar := by
  rw [numeral, List.head?_reverse, List.getLast?_map]

theorem parseNat_numeral (hb : 1 < b) (hb' : b ≤ 16) : parseNat b (numeral b n) = some n := by
  have hne : numeral b n ≠ [] := by
    rw [numeral, ne_eq, List.reverse_eq_nil_iff, List.map_eq_nil_iff]
    exact digitsOf_ne_nil hb
  rw [parseNat, if_neg hne, readDigits_numeral hb hb', Option.map_some, List.reverse_reverse,
    ofDigits_digitsOf]

/-- A minus is not a digit. -/
theorem head?_numeral_ne (hb : 1 < b) (hb' : b ≤ 16) : (numeral b n).head? ≠ some minusChar := by
  rw [head?_numeral]
  intro hminus
  obtain ⟨d, hlast, hd⟩ := Option.map_eq_some_iff.mp hminus
  have hlt := digitsOf_lt hb (List.mem_of_getLast? hlast)
  have hvalue := digitValue_digitChar (d := d) (by omega)
  have hnone : digitValue minusChar = none := rfl
  rw [hd, hnone] at hvalue
  simp at hvalue

/-- A zero is in front of nothing. -/
theorem numeral_leading (hb : 1 < b) (hb' : b ≤ 16) (h : (numeral b n).head? = some zeroChar) :
    numeral b n = [zeroChar] := by
  rw [head?_numeral] at h
  obtain ⟨d, hlast, hd⟩ := Option.map_eq_some_iff.mp h
  have hlt := digitsOf_lt hb (List.mem_of_getLast? hlast)
  have hvalue := digitValue_digitChar (d := d) (by omega)
  have hzero : digitValue zeroChar = some 0 := rfl
  rw [hd, hzero] at hvalue
  obtain rfl := Option.some.inj hvalue
  rw [numeral, digitsOf_of_getLast? hlast]
  rfl

theorem numeral_inj {m : Nat} (hb : 1 < b) (hb' : b ≤ 16) (h : numeral b m = numeral b n) : m = n := by
  have hm := parseNat_numeral (n := m) hb hb'
  rw [h, parseNat_numeral hb hb'] at hm
  exact (Option.some.inj hm).symm

/-- A numeral is made of digits. -/
theorem not_mem_numeral {c : UInt8} (hb : 1 < b) (hb' : b ≤ 16) (hc : digitValue c = none) :
    c ∉ numeral b n := by
  intro hmem
  obtain ⟨d, hd⟩ := digitValue_of_mem (readDigits_numeral hb hb') hmem
  rw [hc] at hd
  cases hd

theorem length_numeral_le {k : Nat} (hb : 1 < b) (hk : 0 < k) (hn : n < b ^ k) :
    (numeral b n).length ≤ k := by
  rw [numeral, List.length_reverse, List.length_map]
  exact length_digitsOf_le hb hk hn

theorem canonical_numeral (hb : 1 < b) (hb' : b ≤ 16) : Canonical b (numeral b n) n := by
  have hplain := head?_numeral_ne (n := n) hb hb'
  have hmagnitude : magnitude (numeral b n) = numeral b n := if_neg hplain
  refine ⟨?_, fun hminus => absurd hminus hplain, ?_⟩
  · rw [parse, hmagnitude, parseNat_numeral hb hb', Option.map_some, if_neg hplain]
  · rw [hmagnitude]
    exact numeral_leading hb hb'

theorem canonical_minus (hb : 1 < b) (hb' : b ≤ 16) (hn : 0 < n) :
    Canonical b (minusChar :: numeral b n) (-n) := by
  have hminus : (minusChar :: numeral b n).head? = some minusChar := rfl
  have hmagnitude : magnitude (minusChar :: numeral b n) = numeral b n := if_pos hminus
  refine ⟨?_, fun _ => by omega, ?_⟩
  · rw [parse, hmagnitude, parseNat_numeral hb hb', Option.map_some, if_pos hminus]
  · rw [hmagnitude]
    exact numeral_leading hb hb'

theorem canonical_decimal (v : Int) : Canonical 10 (decimal v) v := by
  by_cases hneg : v < 0
  · have hv : v = -(v.natAbs : Int) := by omega
    have htext : decimal v = minusChar :: numeral 10 v.natAbs := by
      rw [decimal, if_pos hneg]
      rfl
    have hcanonical := canonical_minus (b := 10) (n := v.natAbs) (by decide) (by decide) (by omega)
    rw [← hv] at hcanonical
    rw [htext]
    exact hcanonical
  · have hv : v = (v.natAbs : Int) := by omega
    have htext : decimal v = numeral 10 v.natAbs := by
      rw [decimal, if_neg hneg]
      rfl
    have hcanonical := canonical_numeral (b := 10) (n := v.natAbs) (by decide) (by decide)
    rw [← hv] at hcanonical
    rw [htext]
    exact hcanonical

theorem canonical_hexadecimal (n : Nat) : Canonical 16 (hexadecimal n) n :=
  canonical_numeral (by decide) (by decide)

/-! ## Exact rendering -/

/-- **`render` is exact** for `v` in base `b`, with `ahead` bytes in front of the text: there is one
    canonical text, and it fits. -/
structure Renders (b ahead : Nat) (v : Int) (render : List UInt8 → Except Fault (List UInt8 × Nat))
    (text : List UInt8) : Prop where
  canonical : Canonical b text v
  /-- It ends at its terminator, and not before. -/
  terminated : 0 ∉ text
  /-- With what is in front of it and its terminator. -/
  fits : (ahead + text.length + 1 : Int) ≤ LogStream.kMaxNumericSize
  /-- The text and a terminator are written, nothing else is touched, and the length is returned. -/
  written : ∀ buf, text.length < buf.length →
    render buf = .ok (text ++ 0 :: buf.drop (text.length + 1), text.length)
  /-- No digit is read outside its table, whatever the buffer. -/
  inside : ∀ buf, render buf ≠ .error .table

theorem renders_of_written {ahead : Nat} {v : Int}
    {render : List UInt8 → Except Fault (List UInt8 × Nat)} {text : List UInt8}
    (hcanonical : Canonical b text v)
    (hfits : (ahead + text.length + 1 : Int) ≤ LogStream.kMaxNumericSize)
    (hrender : ∀ buf, render buf = InPlace.written buf text) : Renders b ahead v render text where
  canonical := hcanonical
  terminated := hcanonical.zero_not_mem
  fits := hfits
  written buf hroom := by rw [hrender, InPlace.written, if_pos hroom]
  inside buf := by
    rw [hrender, InPlace.written]
    split <;> simp

/-! ## The stream around it -/

/-- The body of `operator<<(const void*)`. -/
def insertPointer (buf : List UInt8) (value : UInt64) : Except Fault (List UInt8 × Nat) := do
  let buf ← store buf 0 (Char.toUInt8 '0')
  let buf ← store buf 1 (Char.toUInt8 'x')
  let (rest, len) ← convertHex (buf.drop 2) value
  return (buf.take 2 ++ rest, len + 2)

/-- The bytes in front of the digits are written first, and stay. -/
theorem insertPointer_eq {buf : List UInt8} (hroom : 2 ≤ buf.length) (value : UInt64) :
    insertPointer buf value =
      written buf (Char.toUInt8 '0' :: Char.toUInt8 'x' :: hexadecimal value.toNat) := by
  obtain ⟨c, buf, rfl⟩ := List.exists_cons_of_length_pos (by omega : 0 < buf.length)
  obtain ⟨c', buf, rfl⟩ := List.exists_cons_of_length_pos (Nat.lt_of_succ_lt_succ hroom)
  have hstores : insertPointer (c :: c' :: buf) value = (convertHex buf value >>= fun r =>
      .ok (Char.toUInt8 '0' :: Char.toUInt8 'x' :: r.1, r.2 + 2)) := rfl
  rw [hstores, convertHex_eq, written, written]
  by_cases hfits : (hexadecimal value.toNat).length < buf.length
  · rw [if_pos hfits, if_pos (by simpa using hfits)]
    rfl
  · rw [if_neg hfits, if_neg (by simpa using hfits)]
    rfl

/-- `b'` is `b` after `render` has run at its cursor, which has moved over what it returned. -/
def RendersAt {SIZE : Nat} (render : List UInt8 → Except Fault (List UInt8 × Nat))
    (b b' : FixedBuffer SIZE) : Prop :=
  ∃ buf len, render (b.data_.drop b.cur_) = .ok (buf, len) ∧
    b'.data_ = b.data_.take b.cur_ ++ buf ∧ b'.cur_ = b.cur_ + len

theorem rendersAt_of_written {SIZE : Nat} {render : List UInt8 → Except Fault (List UInt8 × Nat)}
    {b : FixedBuffer SIZE} {text : List UInt8} (hroom : b.cur_ + (text.length + 1) ≤ SIZE)
    (hrender : render (b.data_.drop b.cur_) = written (b.data_.drop b.cur_) text) :
    ∃ b', ((b.write b.cur_ (text ++ [0])).map fun b => b.add text.length) = some b' ∧
      RendersAt render b b' := by
  have hlength : (text ++ [0]).length = text.length + 1 := List.length_append
  obtain ⟨b', hwrite, hdata, hcur⟩ := b.write_eq b.cur_ (text ++ [0]) (by omega)
  refine ⟨b'.add text.length, by rw [hwrite, Option.map_some],
    text ++ 0 :: (b.data_.drop b.cur_).drop (text.length + 1), text.length, ?_, ?_,
    by rw [FixedBuffer.add, hcur]⟩
  · have hfits : text.length < (b.data_.drop b.cur_).length := by
      rw [List.length_drop, b.size]
      omega
    rw [hrender, written, if_pos hfits]
  · show b'.data_ = _
    rw [hdata, overwrite, hlength, List.drop_drop, List.append_assoc, List.append_assoc]
    rfl

/-- `formatInteger` of `Base.LogStream` is `convert` at the cursor. -/
theorem formatInteger_inPlace {SIZE : Nat} [Integral T] {b : FixedBuffer SIZE}
    (hroom : LogStream.kMaxNumericSize ≤ b.avail) (value : T) :
    ∃ b', LogStream.formatInteger b (toInt value) = some b' ∧
      RendersAt (fun buf => convert buf value) b b' := by
  obtain ⟨hlow, hhigh⟩ := range value
  have hlength := length_decimal_le hlow hhigh
  rw [LogStream.formatInteger, if_pos hroom, detail.convert_eq]
  unfold LogStream.kMaxNumericSize FixedBuffer.avail at hroom
  exact rendersAt_of_written (by omega) (convert_eq _ value)

/-- `operator<<(const void*)` of `Base.LogStream` writes what the pointer's body does at the cursor. -/
theorem formatPointer_inPlace {SIZE : Nat} {b : FixedBuffer SIZE}
    (hroom : LogStream.kMaxNumericSize ≤ b.avail) (value : UInt64) :
    ∃ b', LogStream.formatPointer b value = some b' ∧
      RendersAt (fun buf => insertPointer buf value) b b' := by
  have hlength := length_hexadecimal_le value.toNat_lt
  rw [LogStream.formatPointer, if_pos hroom, detail.convertHex_eq]
  unfold LogStream.kMaxNumericSize FixedBuffer.avail at hroom
  have hspace : 2 ≤ (b.data_.drop b.cur_).length := by
    rw [List.length_drop, b.size]
    omega
  exact rendersAt_of_written (by simp only [List.length_cons]; omega) (insertPointer_eq hspace value)

/-- **Integer rendering is exact**: `convert` for each value of each type it is instantiated at, and
    `convertHex`, after `0x`, for each pointer. -/
theorem rendering_exact :
    (∀ (t : IntegerType) (value : t.Carrier), ∃ text,
      Renders 10 0 (toInt value) (fun buf => convert buf value) text) ∧
    ∀ value : UInt64, ∃ text,
      Renders 16 2 value.toNat (fun buf => convertHex buf value) text ∧
        ∀ buf, LogStream.kMaxNumericSize ≤ (buf.length : Int) → insertPointer buf value =
          .ok (Char.toUInt8 '0' :: Char.toUInt8 'x' :: text ++ 0 :: buf.drop (text.length + 3),
            text.length + 2) := by
  constructor
  · intro t value
    obtain ⟨hlow, hhigh⟩ := range value
    have hlength := length_decimal_le hlow hhigh
    refine ⟨_, renders_of_written (canonical_decimal _) ?_ fun buf => convert_eq buf value⟩
    unfold LogStream.kMaxNumericSize
    omega
  · intro value
    have hlength := length_hexadecimal_le value.toNat_lt
    refine ⟨_, renders_of_written (canonical_hexadecimal _) ?_ fun buf => convertHex_eq buf value, ?_⟩
    · unfold LogStream.kMaxNumericSize
      omega
    · intro buf hroom
      unfold LogStream.kMaxNumericSize at hroom
      rw [insertPointer_eq (by omega), written, if_pos (by simp only [List.length_cons]; omega)]
      rfl

end InPlace

end Simplev
