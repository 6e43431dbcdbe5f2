import QueryCaret.Text.Basic

/-!
# Blank characters

A character is blank when it has the Unicode property `White_Space`. Trimming removes the maximal
blank runs at both ends of a text; `leadingBlanks` counts the run at the front. Both use the one test
`isBlank`, so they cannot disagree about where the first visible character stands.

* `takeWhile_append_trimStart` — what the front loses and what it keeps make up the text;
* `trim_append` — so do the trimmed text and the two runs around it;
* `getElem?_trim` — column `i` of the trimmed text is column `leadingBlanks + i` of the text;
* `trim_append_of_blank` — blanks put around a text are trimmed away with its own.
-/

set_option autoImplicit false

namespace QueryCaret.Text

/-- The code points of the property `White_Space`, as closed ranges in increasing order. -/
def blankRanges : List (Nat × Nat) :=
  [(0x0009, 0x000D), (0x0020, 0x0020), (0x0085, 0x0085), (0x00A0, 0x00A0), (0x1680, 0x1680),
   (0x2000, 0x200A), (0x2028, 0x2029), (0x202F, 0x202F), (0x205F, 0x205F), (0x3000, 0x3000)]

/-- The table holds the 25 code points of the property. -/
example : (blankRanges.map fun r => r.2 + 1 - r.1).sum = 25 := by decide

/-- Zero-width characters and the information separators are not blank. -/
example : ['\x1c', '\x1f', '\u180e', '\u200b', '\u2060', '\ufeff'].any
    (fun c => blankRanges.any fun r => r.1 ≤ c.toNat && c.toNat ≤ r.2) = false := by decide

/-- Whether a character has the property `White_Space`. -/
def isBlank (c : Char) : Bool := blankRanges.any fun r => r.1 ≤ c.toNat && c.toNat ≤ r.2

/-- How many blanks a text starts with. -/
def leadingBlanks (s : Text) : Nat := (s.takeWhile isBlank).length

/-- The text without the blanks it starts with. -/
def trimStart (s : Text) : Text := s.dropWhile isBlank

/-- The text without the blanks it ends with. -/
def trimEnd (s : Text) : Text := (trimStart s.reverse).reverse

/-- The text without the blanks around it. -/
def trim (s : Text) : Text := trimEnd (trimStart s)

theorem takeWhile_append_trimStart (s : Text) : s.takeWhile isBlank ++ trimStart s = s :=
  List.takeWhile_append_dropWhile

theorem isBlank_of_mem_takeWhile {s : Text} {c : Char} (member : c ∈ s.takeWhile isBlank) :
    isBlank c = true :=
  List.all_eq_true.mp List.all_takeWhile c member

theorem trimEnd_append (s : Text) :
    trimEnd s ++ (s.reverse.takeWhile isBlank).reverse = s := by
  rw [trimEnd, ← List.reverse_append, takeWhile_append_trimStart, List.reverse_reverse]

theorem trim_append (s : Text) :
    s.takeWhile isBlank ++ trim s ++ ((trimStart s).reverse.takeWhile isBlank).reverse = s := by
  rw [List.append_assoc, trim, trimEnd_append, takeWhile_append_trimStart]

/-- The blanks counted at the front and the trimmed text are different parts of the text. -/
theorem leadingBlanks_add_length_trim_le (s : Text) : s.leadingBlanks + s.trim.length ≤ s.length := by
  have parts := congrArg List.length (trim_append s)
  rw [List.length_append, List.length_append, ← leadingBlanks] at parts
  omega

theorem getElem?_trim {s : Text} {i : Nat} (inside : i < s.trim.length) :
    s.trim[i]? = s[s.leadingBlanks + i]? := by
  have middle := getElem?_middle (s.takeWhile isBlank)
    ((trimStart s).reverse.takeWhile isBlank).reverse inside
  rw [trim_append] at middle
  exact middle.symm

/-- Blanks put before a text are counted together with those it starts with. -/
theorem leadingBlanks_append_of_blank {before : Text} (blank : ∀ c ∈ before, isBlank c = true)
    (s : Text) : leadingBlanks (before ++ s) = before.length + leadingBlanks s := by
  rw [leadingBlanks, List.takeWhile_append_of_pos blank, List.length_append, leadingBlanks]

/-- The count ends at a visible character, whatever stands behind it. -/
theorem leadingBlanks_append_of_visible {s : Text} (visible : ∃ c ∈ s, isBlank c = false)
    (behind : Text) : leadingBlanks (s ++ behind) = leadingBlanks s := by
  obtain ⟨c, member, plain⟩ := visible
  have stops : (s.takeWhile isBlank).length ≠ s.length := by
    intro whole
    have taken : s.takeWhile isBlank = s := (List.takeWhile_sublist isBlank).eq_of_length whole
    have counted : c ∈ s.takeWhile isBlank := by rwa [taken]
    have blank := isBlank_of_mem_takeWhile counted
    rw [plain] at blank
    cases blank
  rw [leadingBlanks, List.takeWhile_append, if_neg stops, leadingBlanks]

theorem trimEnd_append_of_blank {behind : Text} (blank : ∀ c ∈ behind, isBlank c = true)
    (s : Text) : trimEnd (s ++ behind) = trimEnd s := by
  have reversed : ∀ c ∈ behind.reverse, isBlank c = true :=
    fun c member => blank c (List.mem_reverse.mp member)
  rw [trimEnd, List.reverse_append, trimStart, List.dropWhile_append_of_pos reversed]
  rfl

theorem trim_append_of_blank {before behind : Text} (blankBefore : ∀ c ∈ before, isBlank c = true)
    (blankBehind : ∀ c ∈ behind, isBlank c = true) (s : Text) :
    trim (before ++ s ++ behind) = trim s := by
  have front : trimStart (before ++ s ++ behind) = trimStart (s ++ behind) := by
    rw [trimStart, List.append_assoc, List.dropWhile_append_of_pos blankBefore]
    rfl
  -- Of a text without visible characters nothing is left to tell it from the blanks behind it.
  by_cases empty : (s.dropWhile isBlank).isEmpty = true
  · have gone : trimStart s = [] := List.isEmpty_iff.mp empty
    have behindGone : trimStart behind = [] := by
      have whole : (behind ++ []).dropWhile isBlank = [] := List.dropWhile_append_of_pos blankBehind
      rwa [List.append_nil] at whole
    have after : trimStart (s ++ behind) = trimStart behind := by
      rw [trimStart, List.dropWhile_append, if_pos empty, trimStart]
    rw [trim, front, after, behindGone, trim, gone]
  · have after : trimStart (s ++ behind) = trimStart s ++ behind := by
      rw [trimStart, List.dropWhile_append, if_neg empty, trimStart]
    rw [trim, front, after, trimEnd_append_of_blank blankBehind, trim]

end QueryCaret.Text
