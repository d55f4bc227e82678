import Mathlib.Data.List.Induction
import Encounter.Text.Numeral
import Encounter.Proofs.Text.Blank

/-!
# Numerals as they are written

A number is written with decimal digits, most significant first, behind as many zeros as one likes and
perhaps a plus sign. The texts that are read as a number are those with which it is written, as long
as it fits.
-/

namespace Encounter.Text

/-- Decimal digits, most significant first, and their value. -/
inductive Decimal : List Char → Nat → Prop where
  | first {d : Nat} (hd : d < 10) : Decimal [d.digitChar] d
  | digit {text : List Char} {n d : Nat} (h : Decimal text n) (hd : d < 10) :
      Decimal (text ++ [d.digitChar]) (10 * n + d)

/-- The number is written so: digits, perhaps behind a plus sign. -/
inductive Unsigned (n : Nat) : List Char → Prop where
  | bare {digits : List Char} (h : Decimal digits n) : Unsigned n digits
  | plus {digits : List Char} (h : Decimal digits n) : Unsigned n ('+' :: digits)

variable {cs digits : List Char} {n : Nat}

theorem Decimal.ne_nil (h : Decimal digits n) : digits ≠ [] := by
  cases h <;> simp

theorem Decimal.isDigit_of_mem (h : Decimal digits n) {c : Char} (hc : c ∈ digits) :
    c.isDigit = true := by
  induction h with
  | first hd =>
    rw [List.mem_singleton.1 hc, Nat.isDigit_digitChar]
    exact decide_eq_true hd
  | digit _ hd ih =>
    obtain hc | hc := List.mem_append.1 hc
    · exact ih hc
    · rw [List.mem_singleton.1 hc, Nat.isDigit_digitChar]
      exact decide_eq_true hd

private theorem toNat_digitChar {d : Nat} (hd : d < 10) : d.digitChar.toNat - 48 = d := by
  have hall : ∀ d, d < 10 → d.digitChar.toNat - 48 = d := by decide
  exact hall d hd

private theorem digitChar_of_isDigit {c : Char} (hc : c.isDigit = true) :
    c.toNat - 48 < 10 ∧ (c.toNat - 48).digitChar = c := by
  have hall : ∀ d, d < 10 → d.digitChar = Char.ofNat (d + 48) := by decide
  have hrange : 48 ≤ c.toNat ∧ c.toNat ≤ 57 := Char.isDigit_iff_toNat.1 hc
  have hd : c.toNat - 48 < 10 := by omega
  refine ⟨hd, ?_⟩
  rw [hall _ hd, Nat.sub_add_cancel hrange.1, Char.ofNat_toNat]

theorem isBlank_of_isDigit {c : Char} (hc : c.isDigit = true) : isBlank c = false := by
  have hall : ∀ d, d < 10 → isBlank d.digitChar = false := by decide
  obtain ⟨hd, hchar⟩ := digitChar_of_isDigit hc
  exact hchar ▸ hall _ hd

private theorem digitsValue_concat (digits : List Char) (c : Char) :
    digitsValue (digits ++ [c]) = 10 * digitsValue digits + (c.toNat - 48) := by
  rw [digitsValue, Nat.ofDigitChars_append]
  rfl

/-- Leading zeros do not change the value of a number. -/
theorem digitsValue_zeros (zeros n : Nat) :
    digitsValue (List.replicate zeros '0' ++ Nat.toDigits 10 n) = n := by
  rw [digitsValue, Nat.ofDigitChars_append, Nat.ofDigitChars_replicate_zero, Nat.mul_zero,
    Nat.ofDigitChars_ten_toDigits]

/-- Digits have one value, the one that is read off them. -/
private theorem decimal_iff : Decimal digits n ↔
    digits ≠ [] ∧ (∀ c ∈ digits, c.isDigit = true) ∧ digitsValue digits = n := by
  constructor
  · intro h
    refine ⟨h.ne_nil, fun c hc => h.isDigit_of_mem hc, ?_⟩
    induction h with
    | first hd => exact (digitsValue_concat [] _).trans (by simp [digitsValue, toNat_digitChar hd])
    | digit _ hd ih => rw [digitsValue_concat, ih, toNat_digitChar hd]
  · rintro ⟨hne, hdigits, rfl⟩
    induction digits using List.reverseRecOn with
    | nil => exact absurd rfl hne
    | append_singleton digits c ih =>
      obtain ⟨hd, hc⟩ := digitChar_of_isDigit (hdigits c (by simp))
      rw [digitsValue_concat]
      by_cases hfirst : digits = []
      · have honly := Decimal.first hd
        rw [hc] at honly
        simpa [hfirst, digitsValue] using honly
      · have hfront := ih hfirst fun c hmem => hdigits c (List.mem_append_left _ hmem)
        have hall := hfront.digit hd
        rwa [hc] at hall

private theorem dropPlus_of_digits (h : ∀ c ∈ digits, c.isDigit = true) :
    dropPlus digits = digits := by
  unfold dropPlus
  split
  · exact absurd (h '+' List.mem_cons_self) (by decide)
  · rfl

/-- The numerals of a number are the texts with which it is written. -/
theorem numeral?_eq_some_iff : numeral? cs = some n ↔ Unsigned n cs := by
  have hread : numeral? cs = some n ↔ Decimal (dropPlus cs) n := by
    rw [decimal_iff, numeral?]
    by_cases hne : dropPlus cs = []
    · simp [hne]
    · by_cases hdigits : ∀ c ∈ dropPlus cs, c.isDigit = true
      · have hall : (dropPlus cs).all Char.isDigit = true := List.all_eq_true.2 hdigits
        simpa [hne, hall] using fun _ => hdigits
      · have hall : (dropPlus cs).all Char.isDigit = false :=
          Bool.eq_false_iff.2 fun hall => hdigits (List.all_eq_true.1 hall)
        simp [hall, hdigits]
  rw [hread]
  constructor
  · intro h
    unfold dropPlus at h
    split at h
    · exact .plus h
    · exact .bare h
  · rintro (h | h)
    · rwa [dropPlus_of_digits fun _ => h.isDigit_of_mem]
    · exact h

theorem numeralBelow?_eq_some_iff {bound : Nat} :
    numeralBelow? bound cs = some n ↔ Unsigned n cs ∧ n < bound := by
  rw [numeralBelow?, Option.filter_eq_some_iff, numeral?_eq_some_iff, decide_eq_true_iff]

/-- Digits are a numeral, and their value is read if it has at most 32 bits. -/
theorem word?_of_digits (hne : digits ≠ []) (hdigits : ∀ c ∈ digits, c.isDigit = true) :
    word? (String.ofList digits) =
      if digitsValue digits < UInt32.size then some (UInt32.ofNat (digitsValue digits)) else none := by
  have hread : numeral? digits = some (digitsValue digits) :=
    numeral?_eq_some_iff.2 (.bare (decimal_iff.2 ⟨hne, hdigits, rfl⟩))
  rw [word?, numeralBelow?, String.toList_ofList, hread]
  by_cases hvalue : digitsValue digits < UInt32.size <;> simp [Option.filter, hvalue]

/-- A number of 32 bits is read off the texts with which it is written. -/
theorem word?_eq_some_iff {s : String} {n : UInt32} :
    word? s = some n ↔ Unsigned n.toNat s.toList := by
  rw [word?, Option.map_eq_some_iff]
  constructor
  · rintro ⟨m, hm, rfl⟩
    obtain ⟨hwritten, hfits⟩ := numeralBelow?_eq_some_iff.1 hm
    rwa [UInt32.toNat_ofNat_of_lt' hfits]
  · intro h
    exact ⟨n.toNat, numeralBelow?_eq_some_iff.2 ⟨h, n.toNat_lt⟩, UInt32.ofNat_toNat⟩

theorem size?_eq_some_iff {s : String} :
    size? s = some n ↔ Unsigned n s.toList ∧ n < UInt64.size := numeralBelow?_eq_some_iff

end Encounter.Text
