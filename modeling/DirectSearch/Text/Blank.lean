/-!
# Text — white space

The characters that count as white space at the end of a line: the
separators of the Unicode standard, the control characters that move the
place of writing, and the four information separators.
-/

namespace DirectSearch.Text

/-- The blocks of white space, each from its first character to its
last. -/
def blankBlocks : List (Nat × Nat) := [
  (0x09, 0x0D), (0x1C, 0x20), (0x85, 0x85), (0xA0, 0xA0), (0x1680, 0x1680),
  (0x2000, 0x200A), (0x2028, 0x2029), (0x202F, 0x202F), (0x205F, 0x205F), (0x3000, 0x3000)]

/-- Whether a character is white space. -/
def isBlank (c : Char) : Bool :=
  blankBlocks.any fun (first, last) => first ≤ c.toNat && c.toNat ≤ last

end DirectSearch.Text
