import QueryCaret.Fault

/-!
# Positions

A failure stands at a character offset, which may lie past the end of the query, or at its end,
wherever that is. As a number the end is `-1`; no other negative number is a position.

* `ofRaw_eq_ok_iff` — which numbers are positions, and of what;
* `ofRaw_raw` — a position is read back from its number;
* `raw_injective`, `display_injective` — no offset has the number of the end, or is written like it.
-/

set_option autoImplicit false

namespace QueryCaret

inductive Position where
  | offset (n : Nat)
  | atEnd
  deriving DecidableEq, Repr

namespace Position

/-- The number that stands for the end of the query. -/
def endMark : Int := -1

/-- The position that a number stands for. -/
def ofRaw (raw : Int) : Except Fault Position :=
  if raw = endMark then .ok .atEnd
  else if 0 ≤ raw then .ok (.offset raw.toNat)
  else .error (.invalidPosition raw)

/-- The number that stands for a position. -/
def raw : Position → Int
  | .offset n => n
  | .atEnd => endMark

/-- The offset of a position in a query of `len` characters. -/
def resolve (len : Nat) : Position → Nat
  | .offset n => n
  | .atEnd => len

/-- How a report writes a position. -/
def display (p : Position) : Text := Text.signedDecimal p.raw

theorem ofRaw_raw (p : Position) : ofRaw p.raw = .ok p := by
  cases p with
  | offset n =>
    have apart : (n : Int) ≠ endMark := by
      simp only [endMark]
      omega
    rw [ofRaw, raw, if_neg apart, if_pos (Int.natCast_nonneg n), Int.toNat_natCast]
  | atEnd => rfl

theorem ofRaw_eq_ok_iff {n : Int} {p : Position} : ofRaw n = .ok p ↔ n = p.raw := by
  constructor
  · intro h
    unfold ofRaw at h
    split at h
    · cases h
      assumption
    · split at h
      · cases h
        simp only [raw]
        omega
      · cases h
  · rintro rfl
    exact ofRaw_raw p

theorem ofRaw_eq_error {n : Int} (h : n < endMark) : ofRaw n = .error (.invalidPosition n) := by
  simp only [endMark] at h
  rw [ofRaw, if_neg (by simp only [endMark]; omega), if_neg (by omega)]

theorem exists_ofRaw {n : Int} (h : endMark ≤ n) : ∃ p : Position, ofRaw n = .ok p := by
  by_cases last : n = endMark
  · exact ⟨.atEnd, by rw [ofRaw, if_pos last]⟩
  · have offset : 0 ≤ n := by
      simp only [endMark] at h last
      omega
    exact ⟨.offset n.toNat, by rw [ofRaw, if_neg last, if_pos offset]⟩

theorem raw_injective {p q : Position} (h : p.raw = q.raw) : p = q := by
  have := ofRaw_raw p
  rw [h, ofRaw_raw q] at this
  exact (Except.ok.inj this).symm

theorem exists_ofRaw_iff {n : Int} : (∃ p : Position, ofRaw n = .ok p) ↔ endMark ≤ n := by
  constructor
  · intro read
    obtain ⟨p, read⟩ := read
    by_cases low : n < endMark
    · rw [ofRaw_eq_error low] at read
      cases read
    · exact Int.not_lt.mp low
  · exact exists_ofRaw

/-- No two positions are written alike, so no offset is written like the end. -/
theorem display_injective {p q : Position} (same : p.display = q.display) : p = q :=
  raw_injective (Text.signedDecimal_injective same)

/-- A position as a caller states it: as a number still to be checked, or outright. -/
inductive Source where
  | number (raw : Int)
  | exact (p : Position)
  deriving DecidableEq, Repr

def Source.read : Source → Except Fault Position
  | .number raw => ofRaw raw
  | .exact p => .ok p

end Position

end QueryCaret
