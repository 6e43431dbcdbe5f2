import QueryCaret.Text.Utf8

/-!
# Slices by byte offset

A text held as bytes is cut at byte offsets, which have to be character boundaries. `byteRange?` finds
the two offsets for a slice by columns in one walk over the boundaries of the text: it steps to the
boundary with index `start`, then `len` boundaries further, or to the end of the text if that comes
first.

* `sliceBytes` — the slice that the two offsets cut out; nothing if the text has no column `start`.
-/

set_option autoImplicit false

namespace QueryCaret.Text

/-- The number of bytes of a text. -/
def byteLength : Text → Nat
  | [] => 0
  | c :: s => c.utf8Size + byteLength s

/-- The offset at which each character starts, when the first starts at `offset`, and last the offset
at which the text ends. -/
def boundaries (offset : Nat) : Text → List Nat
  | [] => [offset]
  | c :: s => offset :: boundaries (offset + c.utf8Size) s

/-- The byte offsets between which the up to `len` characters from column `start` on stand. -/
def byteRange? (s : Text) (start len : Nat) : Option (Nat × Nat) :=
  match (boundaries 0 s).drop start with
  | [] => none
  | first :: later =>
    some (first, if len = 0 then first else later[len - 1]?.getD (byteLength s))

/-- The slice cut out of the bytes of the text. -/
def sliceBytes (s : Text) (start len : Nat) : Text :=
  match byteRange? s start len with
  | none => []
  | some (first, last) => (ByteText.ofBytes ((s.encode.drop first).take (last - first))).text

theorem length_encode (s : Text) : s.encode.length = byteLength s := by
  induction s with
  | nil => rfl
  | cons c s ih =>
    simp only [encode, List.flatMap_cons, List.length_append, String.length_utf8EncodeChar] at ih ⊢
    simp [byteLength, ih]

theorem length_boundaries (offset : Nat) (s : Text) : (boundaries offset s).length = s.length + 1 := by
  induction s generalizing offset with
  | nil => rfl
  | cons c s ih => simp [boundaries, ih]

/-- Boundary `i` stands behind the bytes of the first `i` characters. -/
theorem getElem?_boundaries (offset : Nat) (s : Text) (i : Nat) (h : i ≤ s.length) :
    (boundaries offset s)[i]? = some (offset + byteLength (s.take i)) := by
  induction s generalizing offset i with
  | nil =>
    obtain rfl : i = 0 := Nat.le_zero.1 h
    rfl
  | cons c s ih =>
    cases i with
    | zero => rfl
    | succ i =>
      simp only [boundaries, List.getElem?_cons_succ, List.take_succ_cons]
      rw [ih _ i (by simpa using h)]
      simp [byteLength, Nat.add_assoc]

end QueryCaret.Text
