import Mathlib.Data.Nat.Digits.Lemmas

/-!
# `Foundation.Numerals` — digits as a loop produces them, and texts of digits

`digitsOf b n` lists the digits of `n` in base `b`, the lowest first. It is `Nat.digits` except that zero
has a digit, as it has when a loop divides until nothing is left.

- **Texts.** `parse b` reads a text of digits, `0` to `9` and then `a` to `z`, with a minus sign in front
  or not.
- **`Canonical b text v`.** The text parses to `v`, has no leading zero, and has a sign only if `v` is
  negative. `Canonical.unique`: there is one such text for each integer.
-/

namespace Foundation

def digitsOf (b n : Nat) : List Nat := if n = 0 then [0] else Nat.digits b n

variable {b n k : Nat}

/-- One round of the loop. -/
theorem digitsOf_step (hb : 1 < b) :
    digitsOf b n = n % b :: if n / b = 0 then [] else digitsOf b (n / b) := by
  by_cases hn : n = 0
  · subst hn
    simp [digitsOf]
  · rw [digitsOf, if_neg hn, Nat.digits_def' hb (Nat.pos_of_ne_zero hn)]
    by_cases hq : n / b = 0
    · rw [hq, Nat.digits_zero, if_pos rfl]
    · rw [if_neg hq, digitsOf, if_neg hq]

/-- A number below `b ^ k` has at most `k` digits. -/
theorem length_digitsOf_le (hb : 1 < b) (hk : 0 < k) (hn : n < b ^ k) :
    (digitsOf b n).length ≤ k := by
  unfold digitsOf
  split
  · exact hk
  · exact (Nat.digits_length_le_iff hb n).mpr hn

theorem digitsOf_ne_nil (hb : 1 < b) : digitsOf b n ≠ [] := by
  rw [digitsOf_step hb]
  exact List.cons_ne_nil _ _

theorem digitsOf_lt {d : Nat} (hb : 1 < b) (hd : d ∈ digitsOf b n) : d < b := by
  unfold digitsOf at hd
  split at hd
  · rw [List.mem_singleton.mp hd]
    omega
  · exact Nat.digits_lt_base hb hd

theorem ofDigits_digitsOf (b n : Nat) : Nat.ofDigits b (digitsOf b n) = n := by
  unfold digitsOf
  split
  · rename_i hn
    rw [hn, Nat.ofDigits_singleton]
  · exact Nat.ofDigits_digits b n

/-- The highest digit is zero for zero only. -/
theorem digitsOf_of_getLast? (h : (digitsOf b n).getLast? = some 0) : digitsOf b n = [0] := by
  unfold digitsOf at h ⊢
  split
  · rfl
  · rename_i hn
    rw [if_neg hn, List.getLast?_eq_some_getLast (Nat.digits_ne_nil_iff_ne_zero.mpr hn)] at h
    exact absurd (Option.some.inj h) (Nat.getLast_digit_ne_zero b hn)

/-- Digits without a zero on top are the digits of their value. -/
theorem digitsOf_ofDigits {ds : List Nat} (hb : 1 < b) (hne : ds ≠ []) (hlt : ∀ d ∈ ds, d < b)
    (htop : ds.getLast? = some 0 → ds = [0]) : digitsOf b (Nat.ofDigits b ds) = ds := by
  by_cases hzero : ds = [0]
  · rw [hzero, Nat.ofDigits_singleton]
    rfl
  · have hlast : ∀ h : ds ≠ [], ds.getLast h ≠ 0 := by
      intro h hlast
      exact hzero (htop (by rw [List.getLast?_eq_some_getLast h, hlast]))
    have hdigits := Nat.digits_ofDigits b hb ds hlt hlast
    have hvalue : Nat.ofDigits b ds ≠ 0 := by
      intro hvalue
      rw [hvalue, Nat.digits_zero] at hdigits
      exact hne hdigits.symm
    rw [digitsOf, if_neg hvalue, hdigits]

/-! ## Texts -/

/-- The value of a digit: `0` to `9`, then `a` to `z`. -/
def digitValue (c : UInt8) : Option Nat :=
  if 48 ≤ c.toNat ∧ c.toNat ≤ 57 then some (c.toNat - 48)
  else if 97 ≤ c.toNat ∧ c.toNat ≤ 122 then some (c.toNat - 87)
  else none

def zeroChar : UInt8 := 48

def minusChar : UInt8 := 45

/-- The digits of a text, in its order. -/
def readDigits (b : Nat) : List UInt8 → Option (List Nat)
  | [] => some []
  | c :: text => do
    let d ← digitValue c
    let ds ← readDigits b text
    if d < b then some (d :: ds) else none

/-- The value of a text of digits, the highest first. -/
def parseNat (b : Nat) (text : List UInt8) : Option Nat :=
  if text = [] then none else (readDigits b text).map fun ds => Nat.ofDigits b ds.reverse

/-- A text without its sign. -/
def magnitude (text : List UInt8) : List UInt8 :=
  if text.head? = some minusChar then text.tail else text

def parse (b : Nat) (text : List UInt8) : Option Int :=
  (parseNat b (magnitude text)).map fun n : Nat =>
    if text.head? = some minusChar then -(n : Int) else n

/-- The text of `v` as one writes it. -/
structure Canonical (b : Nat) (text : List UInt8) (v : Int) : Prop where
  parsed : parse b text = some v
  sign : text.head? = some minusChar → v < 0
  leading : (magnitude text).head? = some zeroChar → magnitude text = [zeroChar]

theorem digitValue_inj {c c' : UInt8} {d : Nat} (h : digitValue c = some d)
    (h' : digitValue c' = some d) : c = c' := by
  apply UInt8.toNat_inj.mp
  unfold digitValue at h h'
  grind

theorem digitValue_zero {c : UInt8} (h : digitValue c = some 0) : c = zeroChar :=
  digitValue_inj h rfl

theorem readDigits_cons {c : UInt8} {text : List UInt8} {ds : List Nat}
    (h : readDigits b (c :: text) = some ds) :
    ∃ d rest, digitValue c = some d ∧ readDigits b text = some rest ∧ d < b ∧ ds = d :: rest := by
  obtain ⟨d, hd, hrest⟩ := Option.bind_eq_some_iff.mp h
  obtain ⟨rest, hread, hif⟩ := Option.bind_eq_some_iff.mp hrest
  simp only [Option.ite_none_right_eq_some, Option.some.injEq] at hif
  exact ⟨d, rest, hd, hread, hif.1, hif.2.symm⟩

theorem readDigits_lt {text : List UInt8} {ds : List Nat} (h : readDigits b text = some ds) :
    ∀ d ∈ ds, d < b := by
  induction text generalizing ds with
  | nil =>
      obtain rfl := Option.some.inj h
      simp
  | cons c text ih =>
      obtain ⟨d, rest, _, hread, hd, rfl⟩ := readDigits_cons h
      exact List.forall_mem_cons.mpr ⟨hd, ih hread⟩

theorem readDigits_inj {text text' : List UInt8} {ds : List Nat} (h : readDigits b text = some ds)
    (h' : readDigits b text' = some ds) : text = text' := by
  induction text generalizing text' ds with
  | nil =>
      obtain rfl := Option.some.inj h
      cases text' with
      | nil => rfl
      | cons c' text' =>
          obtain ⟨d, rest, _, _, _, hcons⟩ := readDigits_cons h'
          simp at hcons
  | cons c text ih =>
      obtain ⟨d, rest, hd, hread, _, rfl⟩ := readDigits_cons h
      cases text' with
      | nil => simp [readDigits] at h'
      | cons c' text' =>
          obtain ⟨d', rest', hd', hread', _, hcons⟩ := readDigits_cons h'
          obtain ⟨rfl, rfl⟩ := List.cons.inj hcons
          rw [digitValue_inj hd hd', ih hread hread']

theorem digitValue_of_mem {text : List UInt8} {ds : List Nat} (h : readDigits b text = some ds)
    {c : UInt8} (hc : c ∈ text) : ∃ d, digitValue c = some d := by
  induction text generalizing ds with
  | nil => simp at hc
  | cons c' text ih =>
      obtain ⟨d, rest, hd, hread, _, _⟩ := readDigits_cons h
      rcases List.mem_cons.mp hc with rfl | hc
      · exact ⟨d, hd⟩
      · exact ih hread hc

/-- Digits that are written one by one are read back. -/
theorem readDigits_map {char : Nat → UInt8} {ds : List Nat}
    (h : ∀ d ∈ ds, d < b ∧ digitValue (char d) = some d) : readDigits b (ds.map char) = some ds := by
  induction ds with
  | nil => rfl
  | cons d ds ih =>
      obtain ⟨⟨hd, hchar⟩, hds⟩ := List.forall_mem_cons.mp h
      simp [readDigits, hchar, ih hds, hd]

theorem parseNat_eq {text : List UInt8} (h : parseNat b text = some n) :
    text ≠ [] ∧ ∃ ds, readDigits b text = some ds ∧ Nat.ofDigits b ds.reverse = n := by
  unfold parseNat at h
  split at h
  · simp at h
  · rename_i hne
    exact ⟨hne, Option.map_eq_some_iff.mp h⟩

/-- A text without a leading zero spells the digits of its value. -/
theorem readDigits_of_parseNat {text : List UInt8} (hb : 1 < b) (h : parseNat b text = some n)
    (hleading : text.head? = some zeroChar → text = [zeroChar]) :
    readDigits b text = some (digitsOf b n).reverse := by
  obtain ⟨hne, ds, hread, rfl⟩ := parseNat_eq h
  cases text with
  | nil => exact absurd rfl hne
  | cons c text =>
      obtain ⟨d, rest, hd, _, _, rfl⟩ := readDigits_cons hread
      have htop : (d :: rest).reverse.getLast? = some 0 → (d :: rest).reverse = [0] := by
        intro hlast
        rw [List.getLast?_reverse, List.head?_cons] at hlast
        obtain rfl := Option.some.inj hlast
        obtain ⟨rfl, rfl⟩ := List.cons.inj (hleading (by rw [digitValue_zero hd, List.head?_cons]))
        -- the text is "0", so that there is one digit
        obtain ⟨_, rest', _, hnil, _, hcons⟩ := readDigits_cons hread
        obtain ⟨_, rfl⟩ := List.cons.inj hcons
        obtain rfl := Option.some.inj hnil
        rfl
      have hlt : ∀ e ∈ (d :: rest).reverse, e < b := by
        intro e he
        exact readDigits_lt hread e (List.mem_reverse.mp he)
      rw [digitsOf_ofDigits hb (by simp) hlt htop, List.reverse_reverse]
      exact hread

/-- A sign stands in front of the negative numbers, and only of these. -/
theorem Canonical.sign_iff {text : List UInt8} {v : Int} (h : Canonical b text v) :
    text.head? = some minusChar ↔ v < 0 := by
  refine ⟨h.sign, ?_⟩
  intro hneg
  by_contra hplain
  obtain ⟨n, _, hn⟩ := Option.map_eq_some_iff.mp h.parsed
  rw [if_neg hplain] at hn
  omega

theorem Canonical.magnitude_parsed {text : List UInt8} {v : Int} (h : Canonical b text v) :
    parseNat b (magnitude text) = some v.natAbs := by
  obtain ⟨n, hparse, hn⟩ := Option.map_eq_some_iff.mp h.parsed
  rw [hparse, ← hn]
  split
  · rw [Int.natAbs_neg, Int.natAbs_natCast]
  · rw [Int.natAbs_natCast]

/-- A canonical text is a sign and digits. -/
theorem Canonical.char_of_mem {text : List UInt8} {v : Int} (h : Canonical b text v) {c : UInt8}
    (hc : c ∈ text) : c = minusChar ∨ ∃ d, digitValue c = some d := by
  obtain ⟨_, ds, hread, _⟩ := parseNat_eq h.magnitude_parsed
  unfold magnitude at hread
  by_cases hminus : text.head? = some minusChar
  · rw [if_pos hminus] at hread
    rw [← List.cons_head?_tail hminus] at hc
    rcases List.mem_cons.mp hc with rfl | hc
    · exact Or.inl rfl
    · exact Or.inr (digitValue_of_mem hread hc)
  · rw [if_neg hminus] at hread
    exact Or.inr (digitValue_of_mem hread hc)

/-- A terminator ends a canonical text, and does not occur in it. -/
theorem Canonical.zero_not_mem {text : List UInt8} {v : Int} (h : Canonical b text v) : 0 ∉ text := by
  intro hmem
  rcases h.char_of_mem hmem with hminus | ⟨d, hd⟩
  · exact absurd hminus (by decide)
  · have hnone : digitValue 0 = none := rfl
    rw [hnone] at hd
    simp at hd

/-- **There is one canonical text.** -/
theorem Canonical.unique {text text' : List UInt8} {v : Int} (hb : 1 < b) (h : Canonical b text v)
    (h' : Canonical b text' v) : text = text' := by
  have hmagnitude : magnitude text = magnitude text' :=
    readDigits_inj (readDigits_of_parseNat hb h.magnitude_parsed h.leading)
      (readDigits_of_parseNat hb h'.magnitude_parsed h'.leading)
  have hsign := h.sign_iff.trans h'.sign_iff.symm
  unfold magnitude at hmagnitude
  by_cases hminus : text.head? = some minusChar
  · have hminus' := hsign.mp hminus
    rw [if_pos hminus, if_pos hminus'] at hmagnitude
    rw [← List.cons_head?_tail hminus, hmagnitude, List.cons_head?_tail hminus']
  · rw [if_neg hminus, if_neg (fun hminus' => hminus (hsign.mpr hminus'))] at hmagnitude
    exact hmagnitude

end Foundation
