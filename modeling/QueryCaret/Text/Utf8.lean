import QueryCaret.Text.Basic

/-!
# Bytes as text

Text travels as UTF-8. `Text.encode` writes it, `decodeChar?` reads one character from the front of a
byte string, and `ByteText` is a byte string read as far as it goes: the longest well-formed front as
text, and the bytes from the first ill-formed sequence on. So a byte string that is text, and one that
only starts like text, are told apart without losing either.

* `decodeChar?_append` and `eq_of_decodeChar?` — reading one character inverts writing it;
* `ofBytes_toBytes`, `toBytes_ofBytes` — `ByteText` is a byte string seen differently;
* `ofBytes_encode` — what `encode` wrote is read back whole.
-/

set_option autoImplicit false

namespace QueryCaret

/-- The UTF-8 bytes of a text. -/
def Text.encode (s : Text) : List UInt8 := s.flatMap String.utf8EncodeChar

namespace Utf8

/-- The character that a byte string starts with, and the bytes after it. No character takes more
than four bytes. -/
def decodeChar? (bytes : List UInt8) : Option (Char × List UInt8) :=
  ((bytes.take 4).toByteArray.utf8DecodeChar? 0).map fun c => (c, bytes.drop c.utf8Size)

theorem decodeChar?_append (c : Char) (rest : List UInt8) :
    decodeChar? (String.utf8EncodeChar c ++ rest) = some (c, rest) := by
  have short : (String.utf8EncodeChar c).length ≤ 4 := by
    rw [String.length_utf8EncodeChar]
    exact c.utf8Size_le_four
  rw [decodeChar?, List.take_append, List.take_of_length_le short, List.toByteArray_append,
    ByteArray.utf8DecodeChar?_utf8EncodeChar_append]
  simp [← String.length_utf8EncodeChar]

theorem eq_of_decodeChar? {bytes rest : List UInt8} {c : Char}
    (h : decodeChar? bytes = some (c, rest)) : bytes = String.utf8EncodeChar c ++ rest := by
  simp only [decodeChar?, Option.map_eq_some_iff, Prod.mk.injEq] at h
  obtain ⟨d, found, rfl, rfl⟩ := h
  have whole := congrArg (fun b => b.data.toList) (ByteArray.eq_of_utf8DecodeChar?_eq_some found)
  simp only [List.toList_data_toByteArray, ByteArray.toList_data_append] at whole
  have front : String.utf8EncodeChar d = bytes.take d.utf8Size := by
    have taken := congrArg (List.take d.utf8Size) whole
    rw [List.take_take, Nat.min_eq_left d.utf8Size_le_four, ← String.length_utf8EncodeChar,
      List.take_left] at taken
    rw [← String.length_utf8EncodeChar, taken]
  rw [front, List.take_append_drop]

theorem length_lt_of_decodeChar? {bytes rest : List UInt8} {c : Char}
    (h : decodeChar? bytes = some (c, rest)) : rest.length < bytes.length := by
  rw [eq_of_decodeChar? h, List.length_append, String.length_utf8EncodeChar]
  have := c.utf8Size_pos
  omega

@[simp] theorem decodeChar?_nil : decodeChar? [] = none := by
  cases h : decodeChar? [] with
  | none => rfl
  | some p => exact absurd (length_lt_of_decodeChar? h) (Nat.not_lt_zero _)

end Utf8

open Utf8

/-- A byte string as the text it starts with and the bytes where that text ends: nothing in `rest`
can be read as one more character. -/
structure ByteText where
  text : Text
  rest : List UInt8
  ended : decodeChar? rest = none
  deriving DecidableEq

namespace ByteText

/-- A byte string that is text throughout. -/
def ofText (s : Text) : ByteText := ⟨s, [], decodeChar?_nil⟩

instance : Inhabited ByteText := ⟨ofText []⟩

/-- The bytes with other text in front. -/
def withText (b : ByteText) (s : Text) : ByteText := { b with text := s }

/-- The text, if the bytes are text throughout. -/
def text? (b : ByteText) : Option Text := if b.rest = [] then some b.text else none

@[simp] theorem text?_ofText (s : Text) : (ofText s).text? = some s := rfl

theorem eq_ofText_of_text? {b : ByteText} {s : Text} (h : b.text? = some s) : b = ofText s := by
  obtain ⟨text, rest, ended⟩ := b
  simp only [text?, Option.ite_none_right_eq_some, Option.some.injEq] at h
  obtain ⟨rfl, rfl⟩ := h
  rfl

@[simp] theorem withText_ofText (s t : Text) : (ofText s).withText t = ofText t := rfl

def toBytes (b : ByteText) : List UInt8 := b.text.encode ++ b.rest

@[simp] theorem toBytes_ofText (s : Text) : (ofText s).toBytes = s.encode := List.append_nil s.encode

/-- Reads characters from the front until none is left to read. -/
def ofBytes (bytes : List UInt8) : ByteText :=
  match h : decodeChar? bytes with
  | none => ⟨[], bytes, h⟩
  | some (c, rest) =>
    have := length_lt_of_decodeChar? h
    let later := ofBytes rest
    later.withText (c :: later.text)
termination_by bytes.length

theorem ofBytes_cons (c : Char) (rest : List UInt8) :
    ofBytes (String.utf8EncodeChar c ++ rest) =
      (ofBytes rest).withText (c :: (ofBytes rest).text) := by
  rw [ofBytes]
  split
  · rename_i h
    rw [decodeChar?_append] at h
    cases h
  · rename_i d r h
    rw [decodeChar?_append] at h
    cases h
    rfl

theorem ofBytes_ended {bytes : List UInt8} (h : decodeChar? bytes = none) :
    ofBytes bytes = ⟨[], bytes, h⟩ := by
  rw [ofBytes]
  split
  · rfl
  · rename_i d r found
    rw [h] at found
    cases found

theorem ofBytes_encode_append (s : Text) (rest : List UInt8) :
    ofBytes (s.encode ++ rest) = (ofBytes rest).withText (s ++ (ofBytes rest).text) := by
  induction s with
  | nil => rfl
  | cons c s ih =>
    have shape : Text.encode (c :: s) ++ rest = String.utf8EncodeChar c ++ (Text.encode s ++ rest) := by
      simp [Text.encode]
    rw [shape, ofBytes_cons, ih]
    rfl

/-- Seeing a byte string as text and writing it out again changes nothing. -/
theorem ofBytes_toBytes (b : ByteText) : ofBytes b.toBytes = b := by
  rw [toBytes, ofBytes_encode_append, ofBytes_ended b.ended]
  simp [withText]

theorem toBytes_ofBytes (bytes : List UInt8) : (ofBytes bytes).toBytes = bytes := by
  fun_induction ofBytes bytes with
  | case1 bytes h => rfl
  | case2 bytes c rest h _ later ih =>
    rw [eq_of_decodeChar? h]
    conv => rhs; arg 2; rw [← ih]
    simp [toBytes, withText, Text.encode, later]

theorem ofBytes_encode (s : Text) : ofBytes s.encode = ofText s := by
  rw [← toBytes_ofText, ofBytes_toBytes]

end ByteText

/-- Strict reading: the bytes as text, or nothing if any of them is ill-formed. -/
def Text.decode? (bytes : List UInt8) : Option Text := (ByteText.ofBytes bytes).text?

theorem Text.decode?_encode (s : Text) : Text.decode? s.encode = some s := by
  rw [Text.decode?, ByteText.ofBytes_encode, ByteText.text?_ofText]

/-- Strict reading accepts exactly what `encode` writes. -/
theorem Text.decode?_eq_some_iff {bytes : List UInt8} {s : Text} :
    Text.decode? bytes = some s ↔ bytes = s.encode := by
  constructor
  · intro h
    have whole := ByteText.toBytes_ofBytes bytes
    rw [ByteText.eq_ofText_of_text? h] at whole
    simpa [ByteText.toBytes, ByteText.ofText] using whole.symm
  · rintro rfl
    exact Text.decode?_encode s

end QueryCaret
