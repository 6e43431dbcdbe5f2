import QueryCaret.Text.Utf8

/-!
# Showing bytes that are not text

A byte string that need not be text, such as a path, is shown with U+FFFD in place of each ill-formed
sequence. A sequence that breaks off inside a character is replaced as one: its bytes are the longest
front that some character also starts with, and a byte that starts no character stands alone.

* `showLossy_encode` — text is shown as it is.
-/

set_option autoImplicit false

namespace QueryCaret.Utf8

/-- For a byte that starts a character of two to four bytes: how many bytes the character has, and the
least and the greatest second byte. -/
def leadByte? (lead : UInt8) : Option (Nat × UInt8 × UInt8) :=
  if 0xC2 ≤ lead && lead ≤ 0xDF then some (2, 0x80, 0xBF)
  else if lead == 0xE0 then some (3, 0xA0, 0xBF)
  else if lead == 0xED then some (3, 0x80, 0x9F)
  else if 0xE1 ≤ lead && lead ≤ 0xEF then some (3, 0x80, 0xBF)
  else if lead == 0xF0 then some (4, 0x90, 0xBF)
  else if 0xF1 ≤ lead && lead ≤ 0xF3 then some (4, 0x80, 0xBF)
  else if lead == 0xF4 then some (4, 0x80, 0x8F)
  else none

/-- Whether a byte can stand inside a character, after its second byte. -/
def isContinuation (b : UInt8) : Bool := 0x80 ≤ b && b ≤ 0xBF

/-- How many of the bytes after `lead` belong to the character that breaks off there. -/
def brokenTail (lead : UInt8) : List UInt8 → Nat
  | [] => 0
  | second :: later =>
    match leadByte? lead with
    | none => 0
    | some (size, least, greatest) =>
      if least ≤ second && second ≤ greatest then
        1 + ((later.takeWhile isContinuation).take (size - 2)).length
      else 0

/-- The text of a byte string, with one U+FFFD for each ill-formed sequence. -/
def showLossy (bytes : List UInt8) : Text :=
  match h : decodeChar? bytes with
  | some (c, rest) =>
    have := length_lt_of_decodeChar? h
    c :: showLossy rest
  | none =>
    match bytes with
    | [] => []
    | lead :: later => '\ufffd' :: showLossy (later.drop (brokenTail lead later))
termination_by bytes.length
decreasing_by
  · exact this
  · simp only [List.length_drop, List.length_cons]
    omega

theorem showLossy_encode (s : Text) : showLossy s.encode = s := by
  induction s with
  | nil =>
    rw [Text.encode, List.flatMap_nil, showLossy]
    split
    · rename_i h
      simp at h
    · rfl
  | cons c s ih =>
    have shape : Text.encode (c :: s) = String.utf8EncodeChar c ++ Text.encode s := by
      simp [Text.encode]
    rw [shape, showLossy]
    split
    · rename_i d rest h
      rw [decodeChar?_append] at h
      cases h
      rw [ih]
    · rename_i h
      rw [decodeChar?_append] at h
      cases h

end QueryCaret.Utf8
