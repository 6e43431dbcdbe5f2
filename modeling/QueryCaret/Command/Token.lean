import QueryCaret.Text.Utf8

/-!
# Tokens of a command line

By its own look a token is the terminator `--`, a long option `--name` or `--name=value`, a cluster of
short options `-x…`, or a word. A lone `-` is a word. Which part a word plays, and whether a cluster is
a negative number, depends on what stands before it.

* `ofText_long`, `ofBytes_longEquals`, `ofBytes_short` — the look of an option once it is written out.
-/

set_option autoImplicit false

namespace QueryCaret

inductive Token where
  | terminator
  /-- A long option; its name is absent when it is not text. -/
  | long (name : Option Text) (value : Option ByteText)
  /-- A cluster; its first letter is absent when it is not text. -/
  | short (letter : Option Char) (rest : ByteText)
  | word
  deriving DecidableEq

namespace Token

/-- Splits the part after the dashes at its first `=`. -/
def ofLongBody (t : ByteText) (body : Text) : Token :=
  match body.dropWhile (· ≠ '=') with
  | _ :: value => .long (some (body.takeWhile (· ≠ '='))) (some (t.withText value))
  | [] => .long (if t.rest = [] then some body else none) none

def ofBytes (t : ByteText) : Token :=
  match t.text with
  | '-' :: '-' :: body =>
    if body = [] ∧ t.rest = [] then .terminator else ofLongBody t body
  | '-' :: letter :: rest => .short (some letter) (t.withText rest)
  | ['-'] => if t.rest = [] then .word else .short none (t.withText [])
  | _ => .word

private theorem ne_equals_of_notMem {name : Text} (plain : '=' ∉ name) :
    ∀ c ∈ name, decide (c ≠ '=') = true := by
  intro c h
  simp only [decide_eq_true_eq]
  rintro rfl
  exact plain h

/-- Without an equals sign it is all name. -/
theorem ofLongBody_of_plain {name : Text} (plain : '=' ∉ name) (t : ByteText) :
    ofLongBody t name = .long (if t.rest = [] then some name else none) none := by
  have none_left : name.dropWhile (fun c => decide (c ≠ '=')) = [] := by
    have whole : (name ++ []).dropWhile (fun c => decide (c ≠ '=')) = [] :=
      List.dropWhile_append_of_pos (ne_equals_of_notMem plain)
    rwa [List.append_nil] at whole
  rw [ofLongBody, none_left]

theorem ofText_long {name : Text} (nonempty : name ≠ []) (plain : '=' ∉ name) :
    ofBytes (.ofText ('-' :: '-' :: name)) = .long (some name) none := by
  simp only [ofBytes, ByteText.ofText, nonempty, false_and, if_false]
  rw [ofLongBody_of_plain plain]
  rfl

/-- The value of an option need not be text. -/
theorem ofBytes_longEquals {name : Text} (value : ByteText) (plain : '=' ∉ name) :
    ofBytes (value.withText ('-' :: '-' :: (name ++ '=' :: value.text))) =
      .long (some name) (some value) := by
  have all := ne_equals_of_notMem plain
  have after : (name ++ '=' :: value.text).dropWhile (fun c => decide (c ≠ '=')) =
      '=' :: value.text := by
    rw [List.dropWhile_append_of_pos all]
    rfl
  have before : (name ++ '=' :: value.text).takeWhile (fun c => decide (c ≠ '=')) = name := by
    rw [List.takeWhile_append_of_pos all]
    simp
  simp only [ofBytes, ByteText.withText, List.append_eq_nil_iff, reduceCtorEq, and_false, false_and,
    if_false, ofLongBody]
  rw [after, before]

theorem ofBytes_short {letter : Char} (rest : ByteText) (h : letter ≠ '-') :
    ofBytes (rest.withText ('-' :: letter :: rest.text)) = .short (some letter) rest := by
  simp [ofBytes, ByteText.withText]

end Token

/-- Whether a text reads as a number without sign: digits, then perhaps a point and more digits, then
perhaps an exponent of at least one digit. -/
def looksNumeric (s : Text) : Bool :=
  let scale (t : Text) : Bool :=
    match t with
    | [] => true
    | c :: digits => (c == 'e' || c == 'E') && !digits.isEmpty && digits.all Char.isDigit
  s.head?.any Char.isDigit &&
    match s.dropWhile Char.isDigit with
    | '.' :: later => scale (later.dropWhile Char.isDigit)
    | later => scale later

end QueryCaret
