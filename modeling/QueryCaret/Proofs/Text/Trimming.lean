import QueryCaret.Text.Blank

/-!
# Trimming

A text is trimmed when it neither begins nor ends with a blank. Every text is a trimmed one with blanks
around it, and `trim` finds the trimmed one, however the text was put together: no blank of the outer
runs is left on it and no other character is lost. Counting the blanks at the front and trimming go
through the text in different ways. Where a character is left they agree on where it stands; a text of
blanks alone is trimmed to nothing, and all of it is counted.

* `isTrimmed_trim`, `IsTrimmed.trim_eq` — trimming makes a text trimmed and leaves a trimmed one alone;
* `surrounded_trim` — what trimming takes off on either side are blanks;
* `Surrounded.trim_eq` — there is one trimmed text to find;
* `Surrounded.leadingBlanks_eq` — the count is the number of blanks taken off at the front.
-/

set_option autoImplicit false

namespace QueryCaret.Text

/-- The text neither begins nor ends with a blank. -/
structure IsTrimmed (s : Text) : Prop where
  head : ∀ c, s.head? = some c → isBlank c = false
  last : ∀ c, s.getLast? = some c → isBlank c = false

/-- The text is `core` between two runs of blanks, to which no blank of `core` can be added. -/
structure Surrounded (s before core behind : Text) : Prop where
  whole : s = before ++ core ++ behind
  blankBefore : ∀ c ∈ before, isBlank c = true
  blankBehind : ∀ c ∈ behind, isBlank c = true
  trimmed : core.IsTrimmed

theorem trimStart_of_head {s : Text} (visible : ∀ c, s.head? = some c → isBlank c = false) :
    trimStart s = s := by
  cases s with
  | nil => rfl
  | cons c rest =>
    have plain : isBlank c = false := visible c rfl
    rw [trimStart, List.dropWhile_cons, plain, if_neg Bool.false_ne_true]

theorem isBlank_of_head?_trimStart {s : Text} {c : Char} (first : (trimStart s).head? = some c) :
    isBlank c = false := by
  have stops := List.head?_dropWhile_not isBlank s
  rw [trimStart] at first
  rw [first] at stops
  exact stops

theorem trimEnd_of_last {s : Text} (visible : ∀ c, s.getLast? = some c → isBlank c = false) :
    trimEnd s = s := by
  have reversed : ∀ c, s.reverse.head? = some c → isBlank c = false := by
    intro c first
    rw [List.head?_reverse] at first
    exact visible c first
  rw [trimEnd, trimStart_of_head reversed, List.reverse_reverse]

/-- Trimming leaves a trimmed text alone. -/
theorem IsTrimmed.trim_eq {s : Text} (trimmed : s.IsTrimmed) : s.trim = s := by
  rw [trim, trimStart_of_head trimmed.head, trimEnd_of_last trimmed.last]

theorem IsTrimmed.leadingBlanks_eq {s : Text} (trimmed : s.IsTrimmed) : s.leadingBlanks = 0 := by
  have taken := congrArg List.length (takeWhile_append_trimStart s)
  rw [trimStart_of_head trimmed.head, List.length_append] at taken
  rw [leadingBlanks]
  omega

theorem isTrimmed_trim (s : Text) : s.trim.IsTrimmed where
  head := by
    intro c first
    -- What the end loses is not what the text begins with, as long as anything is left.
    have kept : s.trim ++ ((trimStart s).reverse.takeWhile isBlank).reverse = trimStart s :=
      trimEnd_append (trimStart s)
    have start : (trimStart s).head? = some c := by
      rw [← kept, List.head?_append, first, Option.some_or]
    exact isBlank_of_head?_trimStart start
  last := by
    intro c last
    rw [trim, trimEnd, List.getLast?_reverse] at last
    exact isBlank_of_head?_trimStart last

theorem surrounded_trim (s : Text) :
    s.Surrounded (s.takeWhile isBlank) s.trim
      ((trimStart s).reverse.takeWhile isBlank).reverse where
  whole := (trim_append s).symm
  blankBefore := by
    intro c member
    exact isBlank_of_mem_takeWhile member
  blankBehind := by
    intro c member
    exact isBlank_of_mem_takeWhile (List.mem_reverse.mp member)
  trimmed := isTrimmed_trim s

namespace Surrounded

variable {s before core behind : Text}

theorem trim_eq (parts : s.Surrounded before core behind) : s.trim = core := by
  rw [parts.whole, trim_append_of_blank parts.blankBefore parts.blankBehind, parts.trimmed.trim_eq]

/-- Where a character is left, the blanks counted at the front are those before it. -/
theorem leadingBlanks_eq (parts : s.Surrounded before core behind) (kept : core ≠ []) :
    s.leadingBlanks = before.length := by
  have visible : ∃ c ∈ core, isBlank c = false :=
    ⟨core.head kept, List.head_mem kept, parts.trimmed.head _ (List.head?_eq_some_head kept)⟩
  rw [parts.whole, List.append_assoc, leadingBlanks_append_of_blank parts.blankBefore,
    leadingBlanks_append_of_visible visible, parts.trimmed.leadingBlanks_eq, Nat.add_zero]

/-- Around nothing there are only blanks, and they are all counted. -/
theorem leadingBlanks_of_nil (parts : s.Surrounded before [] behind) :
    s.leadingBlanks = s.length := by
  have blank : ∀ c ∈ s, isBlank c = true := by
    intro c member
    rw [parts.whole, List.append_nil, List.mem_append] at member
    exact member.elim (parts.blankBefore c) (parts.blankBehind c)
  have counted := leadingBlanks_append_of_blank blank []
  have nothing : leadingBlanks [] = 0 := rfl
  rwa [List.append_nil, nothing, Nat.add_zero] at counted

end Surrounded

/-- Trimming and counting agree on every text. The text is the trimmed one with blanks around it, and
however it is read as a trimmed text with blanks around, that is the one; the blanks before it are the
ones counted, if it is not empty. So column `i` of the trimmed text is column `leadingBlanks + i` of
the text. Of a text that is trimmed to nothing every character is counted. Once trimmed, a text is not
trimmed any further, and there is nothing left to count. -/
theorem leadingBlanks_counts_trimmed_front (s : Text) :
    (∃ before behind, s.Surrounded before s.trim behind) ∧
    (∀ before core behind, s.Surrounded before core behind →
      core = s.trim ∧ (core ≠ [] → before.length = s.leadingBlanks)) ∧
    (∀ i, i < s.trim.length → s.trim[i]? = s[s.leadingBlanks + i]?) ∧
    (s.trim = [] → s.leadingBlanks = s.length) ∧
    s.trim.trim = s.trim ∧ s.trim.leadingBlanks = 0 := by
  have parts := surrounded_trim s
  refine ⟨⟨_, _, parts⟩, ?_, ?_, ?_, ?_, ?_⟩
  · intro before core behind other
    exact ⟨other.trim_eq.symm, fun kept => (other.leadingBlanks_eq kept).symm⟩
  · intro i inside
    exact getElem?_trim inside
  · intro gone
    rw [gone] at parts
    exact parts.leadingBlanks_of_nil
  · exact (isTrimmed_trim s).trim_eq
  · exact (isTrimmed_trim s).leadingBlanks_eq

/-- Blanks of several widths stand around one text, another between its words, and the other text has
nothing else. -/
theorem leadingBlanks_counts_wide_blanks :
    let before : Text := "\u3000\t ".toList
    let core : Text := "SELECT\u00a0x".toList
    let behind : Text := " \u2028".toList
    let s := before ++ core ++ behind
    let blanks : Text := " \u2003".toList
    s.Surrounded before core behind ∧ core = s.trim ∧
      core ≠ [] ∧ before.length = s.leadingBlanks ∧
      7 < s.trim.length ∧ s.trim[7]? = s[s.leadingBlanks + 7]? ∧
      blanks.trim = [] ∧ blanks.leadingBlanks = blanks.length := by
  intro before core behind s blanks
  have parts : s.Surrounded before core behind := {
    whole := rfl
    blankBefore := List.all_eq_true.mp (by decide)
    blankBehind := List.all_eq_true.mp (by decide)
    trimmed := {
      head := by
        intro c first
        obtain rfl : 'S' = c := Option.some.inj first
        decide
      last := by
        intro c last
        obtain rfl : 'x' = c := Option.some.inj last
        decide } }
  have kept : core ≠ [] := by decide
  have inside : 7 < s.trim.length := by decide
  have gone : blanks.trim = [] := by decide
  obtain ⟨-, found, columns, -⟩ := leadingBlanks_counts_trimmed_front s
  obtain ⟨-, -, -, counted, -⟩ := leadingBlanks_counts_trimmed_front blanks
  exact ⟨parts, (found before core behind parts).1, kept, (found before core behind parts).2 kept,
    inside, columns 7 inside, gone, counted gone⟩

end QueryCaret.Text
