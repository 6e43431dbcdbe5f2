import QueryCaret.Text.Basic

/-!
# Decimal numerals

A numeral is one or more ASCII digits; leading zeros are allowed. Numbers are written without them.
`unsigned?` and `signed?` read the numbers that fit a 64-bit word: a plus sign may stand in front, for
a signed number also a minus sign, and nothing else may surround the digits.

* `unsigned?_eq_some_iff`, `signed?_eq_some_iff` — which texts are numbers, and of what value;
* `natural?_decimal`, `unsigned?_decimal`, `signed?_signedDecimal` — a written number is read back;
* `signedDecimal_injective` — so no two integers are written alike.
-/

set_option autoImplicit false

namespace QueryCaret

/-- Unsigned 64-bit numbers are below this. -/
def unsignedLimit : Nat := 0x10000000000000000

/-- Signed 64-bit numbers are at least `-signedLimit` and below `signedLimit`. -/
def signedLimit : Int := 0x8000000000000000

namespace Text

/-- A natural number in decimal. -/
def decimal (n : Nat) : Text := Nat.toDigits 10 n

/-- An integer in decimal: a minus sign before the magnitude of a negative one. -/
def signedDecimal : Int → Text
  | .ofNat n => decimal n
  | .negSucc n => '-' :: decimal (n + 1)

/-- The value of a digit string; nothing for a string that is empty or holds anything else. -/
def natural? (s : Text) : Option Nat :=
  if s ≠ [] ∧ s.all Char.isDigit then some (Nat.ofDigitChars 10 s 0) else none

/-- The value of an integer numeral of any size. -/
def integer? : Text → Option Int
  | '-' :: digits => (natural? digits).map fun n => -(n : Int)
  | '+' :: digits => (natural? digits).map Int.ofNat
  | digits => (natural? digits).map Int.ofNat

/-- The text after the plus sign it may start with. -/
def dropPlus : Text → Text
  | '+' :: digits => digits
  | digits => digits

/-- Reads an unsigned 64-bit number, optionally after a plus sign. -/
def unsigned? (s : Text) : Option Nat := (natural? (dropPlus s)).filter (· < unsignedLimit)

/-- Reads a signed 64-bit number. -/
def signed? (s : Text) : Option Int :=
  (integer? s).filter fun n => -signedLimit ≤ n && n < signedLimit

/-- At least one ASCII digit, and nothing else. -/
def IsDigits (s : Text) : Prop := s ≠ [] ∧ ∀ c ∈ s, c.isDigit = true

/-- The ways to write a natural number: its digits, after any zeros and perhaps after a plus sign. -/
def IsNatural (s : Text) (n : Nat) : Prop :=
  ∃ digits, IsDigits digits ∧ (s = digits ∨ s = '+' :: digits) ∧ n = Nat.ofDigitChars 10 digits 0

/-- The ways to write an integer: as a natural number, or with a minus sign before the digits. -/
def IsInteger (s : Text) (n : Int) : Prop :=
  (∃ m : Nat, IsNatural s m ∧ n = m) ∨
    ∃ digits, IsDigits digits ∧ s = '-' :: digits ∧ n = -(Nat.ofDigitChars 10 digits 0 : Int)

/-- No digit is a sign, so reading digits never takes the first one for a sign. -/
theorem IsDigits.head {s : Text} (digits : IsDigits s) :
    ∃ c rest, s = c :: rest ∧ c ≠ '-' ∧ c ≠ '+' := by
  obtain ⟨nonempty, all⟩ := digits
  cases s with
  | nil => exact absurd rfl nonempty
  | cons c rest =>
    have digit : c.isDigit = true := all c List.mem_cons_self
    refine ⟨c, rest, rfl, ?_, ?_⟩ <;> rintro rfl <;> exact absurd digit (by decide)

theorem IsDigits.dropPlus_eq {s : Text} (digits : IsDigits s) : dropPlus s = s := by
  obtain ⟨c, rest, rfl, -, plus⟩ := digits.head
  simp [dropPlus, plus]

theorem not_isNatural_minus (rest : Text) (n : Nat) : ¬ IsNatural ('-' :: rest) n := by
  rintro ⟨digits, isDigits, spelled, -⟩
  rcases spelled with same | same
  · obtain ⟨c, later, shape, minus, -⟩ := isDigits.head
    rw [← same] at shape
    exact minus (List.cons.inj shape).1.symm
  · exact absurd (List.cons.inj same).1 (by decide)

theorem natural?_eq_some_iff {s : Text} {n : Nat} :
    natural? s = some n ↔ IsDigits s ∧ n = Nat.ofDigitChars 10 s 0 := by
  have same : s ≠ [] ∧ s.all Char.isDigit = true ↔ IsDigits s :=
    and_congr_right fun _ => List.all_eq_true
  constructor
  · intro read
    unfold natural? at read
    split at read
    · rename_i digits
      exact ⟨same.mp digits, (Option.some.inj read).symm⟩
    · cases read
  · rintro ⟨digits, rfl⟩
    rw [natural?, if_pos (same.mpr digits)]

theorem isSome_natural?_iff {s : Text} : (natural? s).isSome = true ↔ IsDigits s := by
  rw [Option.isSome_iff_exists]
  simp only [natural?_eq_some_iff]
  exact ⟨fun ⟨_, digits, _⟩ => digits, fun digits => ⟨_, digits, rfl⟩⟩

theorem natural?_dropPlus_eq_some_iff {s : Text} {n : Nat} :
    natural? (dropPlus s) = some n ↔ IsNatural s n := by
  rw [natural?_eq_some_iff]
  constructor
  · rintro ⟨digits, value⟩
    refine ⟨dropPlus s, digits, ?_, value⟩
    unfold dropPlus
    split
    · exact Or.inr rfl
    · exact Or.inl rfl
  · rintro ⟨digits, isDigits, spelled, value⟩
    have unsigned : dropPlus s = digits := by
      rcases spelled with rfl | rfl
      · exact isDigits.dropPlus_eq
      · rfl
    rw [unsigned]
    exact ⟨isDigits, value⟩

theorem unsigned?_eq_some_iff {s : Text} {n : Nat} :
    unsigned? s = some n ↔ IsNatural s n ∧ n < unsignedLimit := by
  rw [unsigned?, Option.filter_eq_some_iff, natural?_dropPlus_eq_some_iff, decide_eq_true_eq]

theorem integer?_minus (digits : Text) :
    integer? ('-' :: digits) = (natural? digits).map fun n : Nat => -(n : Int) := by
  rw [integer?]
  cases natural? digits <;> rfl

theorem integer?_of_head {s : Text} (plain : s.head? ≠ some '-') :
    integer? s = (natural? (dropPlus s)).map Int.ofNat := by
  unfold integer? dropPlus
  split
  · exact absurd rfl plain
  · rfl
  · rename_i plus
    split
    · exact absurd rfl (plus _)
    · rfl

theorem integer?_eq_some_iff {s : Text} {n : Int} : integer? s = some n ↔ IsInteger s n := by
  unfold IsInteger
  by_cases minus : s.head? = some '-'
  · obtain ⟨rest, rfl⟩ := List.head?_eq_some_iff.mp minus
    simp only [not_isNatural_minus, false_and, exists_false, false_or, integer?_minus,
      Option.map_eq_some_iff, natural?_eq_some_iff]
    constructor
    · rintro ⟨m, ⟨isDigits, rfl⟩, rfl⟩
      exact ⟨rest, isDigits, rfl, rfl⟩
    · rintro ⟨digits, isDigits, same, rfl⟩
      obtain rfl := (List.cons.inj same).2
      exact ⟨_, ⟨isDigits, rfl⟩, rfl⟩
  · rw [integer?_of_head minus, Option.map_eq_some_iff]
    simp only [natural?_dropPlus_eq_some_iff]
    constructor
    · rintro ⟨m, natural, rfl⟩
      exact Or.inl ⟨m, natural, rfl⟩
    · rintro (⟨m, natural, rfl⟩ | ⟨digits, -, rfl, -⟩)
      · exact ⟨m, natural, rfl⟩
      · exact absurd rfl minus

theorem signed?_eq_some_iff {s : Text} {n : Int} :
    signed? s = some n ↔ IsInteger s n ∧ -signedLimit ≤ n ∧ n < signedLimit := by
  rw [signed?, Option.filter_eq_some_iff, integer?_eq_some_iff]
  simp

/-- Only digits make a number of a text that starts with a minus sign. -/
theorem isDigits_of_signed?_minus {rest : Text} {n : Int} (read : signed? ('-' :: rest) = some n) :
    IsDigits rest := by
  rcases (signed?_eq_some_iff.mp read).1 with ⟨m, natural, -⟩ | ⟨digits, isDigits, same, -⟩
  · exact absurd natural (not_isNatural_minus rest m)
  · rwa [(List.cons.inj same).2]

theorem isDigit_of_mem_decimal {n : Nat} {c : Char} (h : c ∈ decimal n) : c.isDigit :=
  Nat.isDigit_of_mem_toDigits (by decide) (by decide) h

theorem decimal_ne_nil (n : Nat) : decimal n ≠ [] := by
  intro h
  have len := Nat.length_toDigits_pos (b := 10) (n := n)
  rw [decimal] at h
  rw [h] at len
  exact Nat.lt_irrefl 0 len

theorem isDigits_decimal (n : Nat) : IsDigits (decimal n) :=
  ⟨decimal_ne_nil n, fun _ h => isDigit_of_mem_decimal h⟩

theorem natural?_decimal (n : Nat) : natural? (decimal n) = some n := by
  rw [natural?_eq_some_iff, decimal, Nat.ofDigitChars_ten_toDigits]
  exact ⟨isDigits_decimal n, rfl⟩

theorem unsigned?_decimal {n : Nat} (h : n < unsignedLimit) : unsigned? (decimal n) = some n := by
  rw [unsigned?, (isDigits_decimal n).dropPlus_eq, natural?_decimal]
  simp [Option.filter, h]

theorem integer?_signedDecimal (n : Int) : integer? (signedDecimal n) = some n := by
  cases n with
  | ofNat n =>
    have plain : (decimal n).head? ≠ some '-' := by
      obtain ⟨c, rest, shape, minus, -⟩ := (isDigits_decimal n).head
      rw [shape]
      exact fun same => minus (Option.some.inj same)
    rw [signedDecimal, integer?_of_head plain, (isDigits_decimal n).dropPlus_eq, natural?_decimal]
    rfl
  | negSucc n =>
    rw [signedDecimal, integer?_minus, natural?_decimal]
    rfl

/-- No two integers are written alike. -/
theorem signedDecimal_injective {m n : Int} (same : signedDecimal m = signedDecimal n) : m = n := by
  have read := integer?_signedDecimal m
  rw [same, integer?_signedDecimal n] at read
  exact (Option.some.inj read).symm

theorem space_notMem_signedDecimal (n : Int) : ' ' ∉ signedDecimal n := by
  have plain (m : Nat) : ' ' ∉ decimal m := by
    intro member
    exact absurd (isDigit_of_mem_decimal member) (by decide)
  cases n with
  | ofNat m => exact plain m
  | negSucc m =>
    rw [signedDecimal, List.mem_cons, not_or]
    exact ⟨by decide, plain (m + 1)⟩

theorem signed?_signedDecimal {n : Int} (low : -signedLimit ≤ n) (high : n < signedLimit) :
    signed? (signedDecimal n) = some n := by
  rw [signed?, integer?_signedDecimal]
  simp [Option.filter, low, high]

end Text

end QueryCaret
