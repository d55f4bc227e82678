import Mathlib.Algebra.Group.Nat.Defs
import Encounter.Proofs.Ron.Gap

/-!
# Numbers as they are written

A number is written in base ten, or in base two, eight or sixteen behind a mark. Digits above nine are
letters of either case, and underscores may stand behind the first digit.
-/

namespace Encounter.Ron

/-- The digit has that value; letters stand in either case. -/
def IsDigit (value : Nat) (c : Char) : Prop := c = value.digitChar ∨ c = value.digitChar.toUpper

/-- Digits of a number in a base, most significant first, with underscores behind the first one. -/
inductive Digits (base : Nat) : List Char → Nat → Prop where
  | first {c : Char} {d : Nat} (hd : d < base) (hc : IsDigit d c) : Digits base [c] d
  | digit {text : List Char} {n : Nat} {c : Char} {d : Nat} (h : Digits base text n) (hd : d < base)
      (hc : IsDigit d c) : Digits base (text ++ [c]) (base * n + d)
  | underscore {text : List Char} {n : Nat} (h : Digits base text n) : Digits base (text ++ ['_']) n

/-- The marks of the bases. -/
def radixes : List (List Char × Nat) :=
  [([], 10), (['0', 'b'], 2), (['0', 'o'], 8), (['0', 'x'], 16)]

/-- The digits from nought to nine. -/
def decimals : List Char := ['0', '1', '2', '3', '4', '5', '6', '7', '8', '9']

/-- The number is written so. -/
def Numeral (n : Nat) (text : List Char) : Prop :=
  ∃ mark base digits, (mark, base) ∈ radixes ∧ Digits base digits n ∧ text = mark ++ digits

theorem IsDigit.hexValue? {d : Nat} {c : Char} (h : IsDigit d c) (hd : d < 16) :
    Ron.hexValue? c = some d := by
  have hall : ∀ d, d < 16 → Ron.hexValue? d.digitChar = some d ∧
      Ron.hexValue? d.digitChar.toUpper = some d := by decide
  obtain rfl | rfl := h
  · exact (hall d hd).1
  · exact (hall d hd).2

/-- A digit is taken for part of an integer, and for neither an underscore nor a brace. -/
theorem IsDigit.isIntPart {d : Nat} {c : Char} (h : IsDigit d c) (hd : d < 16) :
    Ron.isIntPart c = true ∧ c ≠ '_' ∧ c ≠ '\x7d' := by
  have hlower : ∀ d, d < 16 → Ron.isIntPart d.digitChar = true ∧ d.digitChar ≠ '_' ∧
      d.digitChar ≠ '\x7d' := by decide
  have hupper : ∀ d, d < 16 → Ron.isIntPart d.digitChar.toUpper = true ∧
      d.digitChar.toUpper ≠ '_' ∧ d.digitChar.toUpper ≠ '\x7d' := by decide
  obtain rfl | rfl := h
  · exact hlower d hd
  · exact hupper d hd

private theorem IsDigit.mem_decimals {d : Nat} {c : Char} (h : IsDigit d c) (hd : d < 10) :
    c ∈ decimals := by
  have hall : ∀ d, d < 10 → d.digitChar ∈ decimals ∧ d.digitChar.toUpper ∈ decimals := by decide
  obtain rfl | rfl := h
  · exact (hall d hd).1
  · exact (hall d hd).2

namespace Digits

variable {base n : Nat} {text : List Char}

/-- The digits have the value that is read from them. -/
theorem valueOf? (h : Digits base text n) (hbase : base ≤ 16) :
    Ron.valueOf? base text = some n := by
  induction h with
  | first hd hc =>
    simp [Ron.valueOf?, hc.hexValue? (by omega), (hc.isIntPart (by omega)).2.1, hd]
  | digit _ hd hc ih =>
    rw [Ron.valueOf?] at ih
    simp [Ron.valueOf?, ih, hc.hexValue? (by omega), (hc.isIntPart (by omega)).2.1, hd]
  | underscore _ ih =>
    rw [Ron.valueOf?] at ih
    simp [Ron.valueOf?, ih]

/-- The first character is a digit. -/
theorem exists_cons (h : Digits base text n) :
    ∃ c rest d, text = c :: rest ∧ d < base ∧ IsDigit d c := by
  induction h with
  | first hd hc => exact ⟨_, [], _, rfl, hd, hc⟩
  | digit _ _ _ ih | underscore _ ih =>
    obtain ⟨c, rest, d, rfl, hd, hc⟩ := ih
    exact ⟨c, _, d, rfl, hd, hc⟩

/-- All characters are digits or underscores. -/
theorem mem_cases (h : Digits base text n) {c : Char} (hm : c ∈ text) :
    c = '_' ∨ ∃ d, d < base ∧ IsDigit d c := by
  induction h with
  | first hd hc =>
    cases List.mem_singleton.1 hm
    exact .inr ⟨_, hd, hc⟩
  | digit _ hd hc ih =>
    obtain hm | hm := List.mem_append.1 hm
    · exact ih hm
    · cases List.mem_singleton.1 hm
      exact .inr ⟨_, hd, hc⟩
  | underscore _ ih =>
    obtain hm | hm := List.mem_append.1 hm
    · exact ih hm
    · exact .inl (List.mem_singleton.1 hm)

end Digits

/-- Without a mark the base is ten. -/
private theorem baseOf_of_unmarked {cs : List Char}
    (h : ∀ d, cs.tail.head? = some d → d ∉ ['b', 'o', 'x']) :
    baseOf cs = (10, cs) := by
  unfold baseOf
  split
  · exact absurd (by simp) (h 'b' rfl)
  · exact absurd (by simp) (h 'o' rfl)
  · exact absurd (by simp) (h 'x' rfl)
  · rfl

/-- No word follows where a break does. -/
private theorem dropWord?_of_breaks {word behind : List Char} (hbehind : Breaks behind)
    (hword : word.head?.any fun c => c ∉ breakers) :
    dropWord? word behind = none := by
  cases word with
  | nil => cases hword
  | cons c word =>
    have hc : c ∉ breakers := of_decide_eq_true hword
    have hprefix : (c :: word).isPrefixOf behind = false := by
      cases behind with
      | nil => rfl
      | cons d rest =>
        have hne : c ≠ d := fun he => hc (he ▸ hbehind d rfl)
        simp [List.isPrefixOf, hne]
    simp [dropWord?, hprefix]

/-- No type follows a number that is over. -/
private theorem intType?_of_breaks {behind : List Char} (h : Breaks behind) :
    intType? behind = none := by
  have hall : ∀ entry ∈ intTypes,
      entry.1.head?.any fun c => c ∉ breakers := by
    decide
  refine List.findSome?_eq_none_iff.2 fun entry hm => ?_
  rw [dropWord?_of_breaks h (hall entry hm), Option.map_none]

section Number

variable {n base : Nat} {mark digits behind : List Char}

/-- A number starts with a digit from nought to nine. -/
theorem Digits.exists_cons_marked (h : Digits base digits n) (hbase : (mark, base) ∈ radixes) :
    ∃ c rest, mark ++ digits = c :: rest ∧ c ∈ decimals := by
  simp only [radixes, List.mem_cons, Prod.mk.injEq, List.not_mem_nil, or_false] at hbase
  obtain ⟨rfl, rfl⟩ | ⟨rfl, rfl⟩ | ⟨rfl, rfl⟩ | ⟨rfl, rfl⟩ := hbase
  · obtain ⟨c, rest, d, rfl, hd, hc⟩ := h.exists_cons
    exact ⟨c, rest, rfl, hc.mem_decimals hd⟩
  all_goals exact ⟨'0', _, rfl, by decide⟩

theorem Digits.signOf (h : Digits base digits n) (hbase : (mark, base) ∈ radixes) :
    Ron.signOf (mark ++ digits ++ behind) = (false, mark ++ digits ++ behind) := by
  obtain ⟨c, rest, hfirst, hc⟩ := h.exists_cons_marked hbase
  have hnone : '-' ∉ decimals ∧ '+' ∉ decimals := by decide
  rw [hfirst]
  unfold Ron.signOf
  split
  · next heq => exact absurd ((List.cons.inj heq).1 ▸ hc) hnone.1
  · next heq => exact absurd ((List.cons.inj heq).1 ▸ hc) hnone.2
  · rfl

/-- In base ten there are only digits from nought to nine and underscores. -/
private theorem Digits.mem_decimal (h : Digits 10 digits n) {c : Char} (hm : c ∈ digits) :
    c ∈ '_' :: decimals := by
  obtain rfl | ⟨d, hd, hc⟩ := h.mem_cases hm
  · exact List.mem_cons_self
  · exact List.mem_cons_of_mem _ (hc.mem_decimals hd)

/-- The mark tells the base. -/
theorem Digits.baseOf (h : Digits base digits n) (hbase : (mark, base) ∈ radixes)
    (hbehind : Breaks behind) :
    Ron.baseOf (mark ++ digits ++ behind) = (base, digits ++ behind) := by
  simp only [radixes, List.mem_cons, Prod.mk.injEq, List.not_mem_nil, or_false] at hbase
  obtain ⟨rfl, rfl⟩ | ⟨rfl, rfl⟩ | ⟨rfl, rfl⟩ | ⟨rfl, rfl⟩ := hbase
  · -- The second character is a digit, an underscore or a break, and not the letter of a mark.
    have hnone : ('_' :: decimals ++ breakers).any (· ∈ ['b', 'o', 'x']) = false := by decide
    apply baseOf_of_unmarked
    intro c hc
    obtain ⟨first, rest, -, rfl, -, -⟩ := h.exists_cons
    have hsecond : (rest ++ behind).head? = some c := hc
    rw [List.head?_append, Option.or_eq_some_iff] at hsecond
    have hm : c ∈ '_' :: decimals ++ breakers := by
      obtain hsecond | ⟨-, hsecond⟩ := hsecond
      · have hdigit := List.mem_cons_of_mem first (List.mem_of_head? hsecond)
        exact List.mem_append_left _ (h.mem_decimal hdigit)
      · exact List.mem_append_right _ (hbehind c hsecond)
    simpa using List.any_eq_false.1 hnone c hm
  all_goals rfl

/-- A number that is written in a base is read as such, if it fits 64 bits. -/
theorem Digits.integer? (h : Digits base digits n) (hbase : (mark, base) ∈ radixes)
    (hbehind : Breaks behind) (hn : n < 2 ^ 64) :
    Ron.integer? (mark ++ digits ++ behind) = some (.integer ⟨false, n, none⟩, behind) := by
  have hle : base ≤ 16 := by
    have hall : ∀ radix ∈ radixes, radix.2 ≤ 16 := by decide
    exact hall _ hbase
  have hpart : ∀ c ∈ digits, isIntPart c = true := by
    intro c hm
    obtain rfl | ⟨d, hd, hdigit⟩ := h.mem_cases hm
    · decide
    · exact (hdigit.isIntPart (by omega)).1
  obtain ⟨htake, hdrop⟩ := hbehind.takeWhile_append (p := isIntPart) (by decide) hpart
  obtain ⟨d, others, e, hdigits, he, hd⟩ := h.exists_cons
  have hhead : (digits.isEmpty || digits.head? == some '_') = false := by
    rw [hdigits]
    simpa using (hd.isIntPart (by omega)).2.1
  have htype : (if base = 10 ∨ base = 2 then intType? behind else none) = none := by
    rw [intType?_of_breaks hbehind, ite_self]
  have hfits : (IntType.unsigned 64).fits false n = true := by
    simpa [IntType.fits] using hn
  simp only [Ron.integer?, h.signOf hbase, h.baseOf hbase hbehind, htake, hdrop, hhead,
    h.valueOf? hle, htype, Bool.false_eq_true, if_false, hfits, Bool.or_true, if_true]

/-- It does not go on like a decimal number. -/
private theorem Digits.length_takeWhile_le (h : Digits base digits n)
    (hbase : (mark, base) ∈ radixes) (hbehind : Breaks behind) :
    ((mark ++ digits ++ behind).takeWhile isFloatPart).length ≤
      ((mark ++ digits ++ behind).takeWhile isIntPart).length := by
  simp only [radixes, List.mem_cons, Prod.mk.injEq, List.not_mem_nil, or_false] at hbase
  obtain ⟨rfl, rfl⟩ | ⟨rfl, rfl⟩ | ⟨rfl, rfl⟩ | ⟨rfl, rfl⟩ := hbase
  · have hdecimal : ('_' :: decimals).all (fun c => isFloatPart c && isIntPart c) = true := by
      decide
    have hpart : ∀ c ∈ digits, isFloatPart c = true ∧ isIntPart c = true := fun c hm =>
      Bool.and_eq_true_iff.1 (List.all_eq_true.1 hdecimal c (h.mem_decimal hm))
    have hfloat := (hbehind.takeWhile_append (p := isFloatPart) (by decide) fun c hm =>
      (hpart c hm).1).1
    have hint := (hbehind.takeWhile_append (p := isIntPart) (by decide) fun c hm =>
      (hpart c hm).2).1
    exact Nat.le_of_eq (by rw [List.nil_append, hfloat, hint])
  all_goals exact Nat.succ_le_succ (Nat.zero_le _)

/-- A number that is written so is read as such, if it fits 64 bits. -/
theorem Numeral.token? {text : List Char} (h : Numeral n text) (hn : n < 2 ^ 64)
    (hbehind : Breaks behind) :
    Ron.token? (text ++ behind) = some (.integer ⟨false, n, none⟩, behind) := by
  obtain ⟨mark, base, digits, hbase, h, rfl⟩ := h
  have hnumber : number? (mark ++ digits ++ behind) =
      some (.integer ⟨false, n, none⟩, behind) := by
    have hlength : ¬ ((mark ++ digits ++ behind).takeWhile isIntPart).length <
        ((mark ++ digits ++ behind).takeWhile isFloatPart).length :=
      Nat.not_lt.2 (h.length_takeWhile_le hbase hbehind)
    unfold number?
    rw [h.signOf hbase]
    dsimp only
    rw [if_neg hlength, h.integer? hbase hbehind hn]
  obtain ⟨c, rest, hfirst, hc⟩ := h.exists_cons_marked hbase
  have htoken : ∀ c ∈ decimals,
      Ron.token? (c :: (rest ++ behind)) = number? (c :: (rest ++ behind)) := by
    intro c hc
    simp only [decimals, List.mem_cons, List.not_mem_nil, or_false] at hc
    rcases hc with rfl | rfl | rfl | rfl | rfl | rfl | rfl | rfl | rfl | rfl <;> rfl
  rw [← hnumber, hfirst]
  exact htoken c hc

end Number

/-- Every number can be written. -/
theorem exists_numeral (n : Nat) : ∃ text, Numeral n text := by
  have hdigits : ∀ n, ∃ digits, Digits 10 digits n := by
    intro n
    induction n using Nat.strongRecOn with
    | ind n ih =>
      by_cases hn : n < 10
      · exact ⟨_, .first hn (.inl rfl)⟩
      · obtain ⟨digits, h⟩ := ih (n / 10) (by omega)
        have hlast := h.digit (Nat.mod_lt n (by decide)) (.inl rfl)
        rw [Nat.div_add_mod] at hlast
        exact ⟨_, hlast⟩
  obtain ⟨digits, h⟩ := hdigits n
  exact ⟨digits, [], 10, digits, List.mem_cons_self, h, rfl⟩

end Encounter.Ron
