/-!
# Text — padding to a width

Widths count characters. A text that is already as wide as the field is
left as it is.
-/

namespace DirectSearch.Text

/-- `k` copies of a character. -/
def fill (c : Char) (k : Nat) : String := String.ofList (List.replicate k c)

/-- Padded with `c` on the left, so that the text stands at the right. -/
def padLeft (c : Char) (width : Nat) (s : String) : String := fill c (width - s.length) ++ s

/-- Padded with `c` on the right, so that the text stands at the left. -/
def padRight (c : Char) (width : Nat) (s : String) : String := s ++ fill c (width - s.length)

/-- Padded with `c` on both sides; an odd character goes to the right. -/
def centre (c : Char) (width : Nat) (s : String) : String :=
  let spare := width - s.length
  fill c (spare / 2) ++ s ++ fill c (spare - spare / 2)

/-- The text without the characters of one kind at its end. -/
def dropTrailing (p : Char → Bool) (s : String) : String :=
  String.ofList (s.toList.reverse.dropWhile p).reverse

/-- A decimal number of at least `width` digits. -/
def digits (width k : Nat) : String := padLeft '0' width (toString k)

/-- A point put after the first `k` characters. -/
def pointAfter (k : Nat) (s : String) : String :=
  String.ofList (s.toList.take k ++ '.' :: s.toList.drop k)

end DirectSearch.Text
