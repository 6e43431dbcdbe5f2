import QueryCaret.Text.ByteRange

/-!
# Slices by byte offset are slices by column

A byte string may be cut in front of a byte that starts a character, or at its end, and nowhere else.
The walk over the boundaries of a text steps over exactly these offsets. It therefore finds two places
to cut at, in order, and between them stand the characters of the slice. It finds none where the slice
starts past the end of the text, and then there is nothing to cut out.

* `mem_boundaries_iff` — the walk misses no place to cut at, and steps on nothing else;
* `byteRange?_eq` — where it stops, said by the characters before;
* `cut_encode` — the bytes between two stops are those of the characters between.
-/

set_option autoImplicit false

namespace QueryCaret.Text

/-- Whether the bytes of a text can be cut at an offset: no character is cut in two. -/
def IsBoundary (s : Text) (offset : Nat) : Prop :=
  offset = s.encode.length ∨ ∃ b, s.encode[offset]? = some b ∧ b.IsUTF8FirstByte

theorem encode_cons (c : Char) (s : Text) : encode (c :: s) = String.utf8EncodeChar c ++ encode s :=
  List.flatMap_cons

theorem encode_append (s t : Text) : encode (s ++ t) = encode s ++ encode t :=
  List.flatMap_append

theorem byteLength_append (s t : Text) : byteLength (s ++ t) = byteLength s + byteLength t := by
  rw [← length_encode, encode_append, List.length_append, length_encode, length_encode]

theorem isBoundary_nil_iff (offset : Nat) : IsBoundary [] offset ↔ offset = 0 := by
  simp [IsBoundary, encode]

/-- Of the bytes of the first character only the first one starts a character. -/
theorem isBoundary_cons_iff (c : Char) (s : Text) (offset : Nat) :
    IsBoundary (c :: s) offset ↔
      offset = 0 ∨ c.utf8Size ≤ offset ∧ IsBoundary s (offset - c.utf8Size) := by
  have size : (String.utf8EncodeChar c).length = c.utf8Size := String.length_utf8EncodeChar c
  have positive := c.utf8Size_pos
  unfold IsBoundary
  rw [encode_cons, List.length_append, size]
  by_cases inside : offset < c.utf8Size
  · have here : offset < (String.utf8EncodeChar c).length := by omega
    rw [List.getElem?_append_left here, List.getElem?_eq_getElem here]
    have first : (String.utf8EncodeChar c)[offset].IsUTF8FirstByte ↔ offset = 0 :=
      UInt8.isUTF8FirstByte_getElem_utf8EncodeChar
    simp only [Option.some.injEq, exists_eq_left', first]
    omega
  · have behind : (String.utf8EncodeChar c).length ≤ offset := by omega
    rw [List.getElem?_append_right behind, size]
    have ends : offset = c.utf8Size + s.encode.length ↔
        offset - c.utf8Size = s.encode.length := by omega
    rw [ends]
    constructor
    · exact fun boundary => .inr ⟨by omega, boundary⟩
    · intro boundary
      cases boundary with
      | inl start => omega
      | inr later => exact later.2

/-- The offsets that the walk steps over are the places where the text can be cut. -/
theorem mem_boundaries_iff (s : Text) (offset start : Nat) :
    offset ∈ boundaries start s ↔ start ≤ offset ∧ IsBoundary s (offset - start) := by
  induction s generalizing start with
  | nil =>
    rw [boundaries, List.mem_singleton, isBoundary_nil_iff]
    omega
  | cons c s ih =>
    rw [boundaries, List.mem_cons, ih, isBoundary_cons_iff, Nat.sub_sub]
    constructor
    · intro stepped
      cases stepped with
      | inl here => exact ⟨by omega, .inl (by omega)⟩
      | inr later => exact ⟨by omega, .inr ⟨by omega, later.2⟩⟩
    · rintro ⟨after, boundary⟩
      cases boundary with
      | inl here => exact .inl (by omega)
      | inr later => exact .inr ⟨by omega, later.2⟩

/-- Every number of characters ends at a boundary. -/
theorem isBoundary_byteLength_take (s : Text) (i : Nat) : IsBoundary s (byteLength (s.take i)) := by
  have clipped : byteLength (s.take (min i s.length)) = byteLength (s.take i) := by
    rw [← List.take_eq_take_min]
  have stop := getElem?_boundaries 0 s (min i s.length) (Nat.min_le_right _ _)
  rw [clipped, Nat.zero_add] at stop
  exact ((mem_boundaries_iff s _ 0).mp (List.mem_of_getElem? stop)).2

theorem byteLength_take_le (s : Text) {i j : Nat} (order : i ≤ j) :
    byteLength (s.take i) ≤ byteLength (s.take j) := by
  have shown : s.take j = s.take i ++ (s.take j).drop i := by
    have split := List.take_append_drop i (s.take j)
    rw [List.take_take, Nat.min_eq_left order] at split
    exact split.symm
  rw [shown, byteLength_append]
  omega

/-- The walk stops behind the first `start` characters, and again `len` characters further or where the
text ends. -/
theorem byteRange?_eq (s : Text) (start len : Nat) :
    byteRange? s start len =
      if start ≤ s.length then
        some (byteLength (s.take start), byteLength (s.take (start + len)))
      else none := by
  unfold byteRange?
  have count := length_boundaries 0 s
  by_cases inside : start ≤ s.length
  · have here : start < (boundaries 0 s).length := by omega
    have first := getElem?_boundaries 0 s start inside
    rw [Nat.zero_add, List.getElem?_eq_getElem here, Option.some.injEq] at first
    rw [if_pos inside, List.drop_eq_getElem_cons here, first]
    simp only [Option.some.injEq, Prod.mk.injEq, true_and]
    by_cases none : len = 0
    · rw [if_pos none, none, Nat.add_zero]
    · have index : start + 1 + (len - 1) = start + len := by omega
      rw [if_neg none, List.getElem?_drop, index]
      by_cases fits : start + len ≤ s.length
      · rw [getElem?_boundaries 0 s _ fits, Nat.zero_add, Option.getD_some]
      · -- The second step runs past the last boundary; the slice goes to the end of the text.
        have past : (boundaries 0 s).length ≤ start + len := by omega
        rw [List.getElem?_eq_none past, Option.getD_none, List.take_of_length_le (by omega)]
  · have past : (boundaries 0 s).length ≤ start := by omega
    rw [if_neg inside, List.drop_eq_nil_of_le past]

/-- The bytes between two stops of the walk are those of the characters between them. -/
theorem cut_encode (s : Text) (start len : Nat) :
    (s.encode.drop (byteLength (s.take start))).take
        (byteLength (s.take (start + len)) - byteLength (s.take start)) =
      (s.slice start len).encode := by
  have shown : s.take (start + len) = s.take start ++ s.slice start len := List.take_add
  have split : s.encode = encode (s.take start) ++ (encode (s.slice start len) ++
      encode (s.drop (start + len))) := by
    rw [← encode_append, ← encode_append, ← List.append_assoc, take_append_slice_append_drop]
  rw [shown, byteLength_append, Nat.add_sub_cancel_left, split, ← length_encode, ← length_encode,
    List.drop_left, List.take_left]

theorem sliceBytes_eq_slice (s : Text) (start len : Nat) :
    sliceBytes s start len = s.slice start len := by
  rw [sliceBytes, byteRange?_eq]
  by_cases inside : start ≤ s.length
  · rw [if_pos inside]
    simp only [cut_encode, ByteText.ofBytes_encode, ByteText.ofText]
  · rw [if_neg inside, slice, List.drop_eq_nil_of_le (by omega), List.take_nil]

/-- What the walk over the boundaries of a text owes its caller. -/
structure CutsOut (s : Text) (start len : Nat) : Prop where
  /-- A slice that starts in the text, or at its end, is found between two places to cut at. -/
  found : start ≤ s.length → ∃ first last, byteRange? s start len = some (first, last) ∧
    first ≤ last ∧ last ≤ s.encode.length ∧ s.IsBoundary first ∧ s.IsBoundary last ∧
    decode? ((s.encode.drop first).take (last - first)) = some (s.sliceBytes start len)
  /-- One that starts past the end is not found, and nothing is cut out. -/
  missed : s.length < start → byteRange? s start len = none ∧ s.sliceBytes start len = []
  /-- The slice holds the characters of the text from column `start` on, `len` of them if there are so
  many. -/
  length : (s.sliceBytes start len).length = min len (s.length - start)
  columns : ∀ i, (s.sliceBytes start len)[i]? = if i < len then s[start + i]? else none

/-- Cutting a text at the byte offsets that the walk finds is cutting it at its columns, whatever the
widths of its characters, the start and the length. -/
theorem sliceBytes_cutsOut (s : Text) (start len : Nat) : s.CutsOut start len where
  found := by
    intro inside
    refine ⟨_, _, (byteRange?_eq s start len).trans (if_pos inside), ?_, ?_, ?_, ?_, ?_⟩
    · exact byteLength_take_le s (Nat.le_add_right start len)
    · have whole := byteLength_take_le s (Nat.le_max_left (start + len) s.length)
      rw [List.take_of_length_le (Nat.le_max_right _ _)] at whole
      rwa [length_encode]
    · exact isBoundary_byteLength_take s start
    · exact isBoundary_byteLength_take s (start + len)
    · rw [cut_encode, sliceBytes_eq_slice, decode?_encode]
  missed := by
    intro past
    have outside : ¬ start ≤ s.length := by omega
    refine ⟨(byteRange?_eq s start len).trans (if_neg outside), ?_⟩
    rw [sliceBytes_eq_slice, slice, List.drop_eq_nil_of_le (by omega), List.take_nil]
  length := by rw [sliceBytes_eq_slice, length_slice]
  columns := by
    intro i
    rw [sliceBytes_eq_slice, getElem?_slice]

-- The character in the middle takes two bytes.
example : byteRange? "aéz".toList 1 1 = some (1, 3) := by decide

end QueryCaret.Text
