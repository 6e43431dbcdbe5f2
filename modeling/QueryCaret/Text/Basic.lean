/-!
# Text

Text is a list of characters, each a Unicode scalar value, so a length, a column or an offset counts
characters and never bytes. Two operations serve every layout: `spaces` draws an indentation and
`slice` cuts out a run of columns.

* `length_slice` — how many characters a slice keeps;
* `getElem?_slice` — which ones: column `i` of the slice is column `start + i` of the text;
* `behindLast_append`, `split_last_unique` — a text is split at its last `c` in one way only;
* `indent_unique` — so a text is drawn as an indented last line in one way only.
-/

set_option autoImplicit false

namespace QueryCaret

/-- A piece of text, character by character. -/
abbrev Text := List Char

namespace Text

/-- An indentation `n` columns wide. -/
def spaces (n : Nat) : Text := List.replicate n ' '

@[simp] theorem length_spaces (n : Nat) : (spaces n).length = n := by
  simp [spaces]

theorem spaces_add (m n : Nat) : spaces (m + n) = spaces m ++ spaces n := by
  simp [spaces]

/-- A text between two others is found behind the first. -/
theorem getElem?_middle {middle : Text} {i : Nat} (before behind : Text)
    (inside : i < middle.length) :
    (before ++ middle ++ behind)[before.length + i]? = middle[i]? := by
  rw [List.append_assoc, List.getElem?_append_right (Nat.le_add_right _ _),
    Nat.add_sub_cancel_left, List.getElem?_append_left inside]

/-- What stands behind the last `c` of a text; all of the text when it has none. -/
def behindLast (c : Char) (s : Text) : Text := (s.reverse.takeWhile (· ≠ c)).reverse

theorem behindLast_append {c : Char} {last : Text} (free : c ∉ last) (above : Text) :
    behindLast c (above ++ c :: last) = last := by
  have backwards : (above ++ c :: last).reverse = last.reverse ++ c :: above.reverse := by simp
  have passed : ∀ d ∈ last.reverse, decide (d ≠ c) = true := by
    intro d member
    have inside : d ∈ last := List.mem_reverse.mp member
    exact decide_eq_true (fun same => free (same ▸ inside))
  have stops : (c :: above.reverse).takeWhile (· ≠ c) = [] := by simp
  rw [behindLast, backwards, List.takeWhile_append_of_pos passed, stops, List.append_nil,
    List.reverse_reverse]

/-- There is one way to split a text at its last `c`. -/
theorem split_last_unique {c : Char} {above above' last last' : Text} (free : c ∉ last)
    (free' : c ∉ last') (same : above ++ c :: last = above' ++ c :: last') :
    above = above' ∧ last = last' := by
  have behind : last = last' := by
    rw [← behindLast_append free above, same, behindLast_append free' above']
  subst behind
  exact ⟨List.append_cancel_right same, rfl⟩

theorem break_notMem_spaces (n : Nat) : '\n' ∉ spaces n := by
  simp [spaces]

/-- Where a line break stands before an indentation, the text tells how wide the indentation is. -/
theorem indent_unique {above above' : Text} {m n : Nat}
    (same : above ++ '\n' :: spaces m = above' ++ '\n' :: spaces n) : above = above' ∧ m = n := by
  obtain ⟨up, indent⟩ := split_last_unique (break_notMem_spaces m) (break_notMem_spaces n) same
  have width : (spaces m).length = (spaces n).length := by rw [indent]
  rw [length_spaces, length_spaces] at width
  exact ⟨up, width⟩

/-- The up to `len` characters from column `start` on; nothing when the text ends before it. -/
def slice (s : Text) (start len : Nat) : Text := (s.drop start).take len

theorem length_slice (s : Text) (start len : Nat) :
    (slice s start len).length = min len (s.length - start) := by
  simp [slice]

theorem getElem?_slice (s : Text) (start len i : Nat) :
    (slice s start len)[i]? = if i < len then s[start + i]? else none := by
  simp [slice, List.getElem?_take, List.getElem?_drop]

/-- The columns before a slice, the slice and the columns behind it make up the text. -/
theorem take_append_slice_append_drop (s : Text) (start len : Nat) :
    s.take start ++ slice s start len ++ s.drop (start + len) = s := by
  rw [slice, List.append_assoc, ← List.drop_drop, List.take_append_drop, List.take_append_drop]

/-- No text holds this many characters or more. -/
def capacity : Nat := 0x8000000000000000

/-- A request for more characters than a text can hold. -/
structure CapacityExceeded where
  width : Nat
  deriving DecidableEq, Repr

def CapacityExceeded.message (_ : CapacityExceeded) : Text := "capacity overflow".toList

/-- An indentation of a width that nobody has checked yet. -/
def spaces? (n : Nat) : Except CapacityExceeded Text :=
  if n < capacity then .ok (spaces n) else .error ⟨n⟩

end Text

end QueryCaret
