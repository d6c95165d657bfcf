/-! # White space

    The characters that may be trimmed from the ends of a text: those that
    Unicode counts as white space and the four separators below the ASCII
    space.  `trim` takes them away on both sides. -/

namespace BlockStage

namespace Text

/-- The code points of white space. -/
def blanks : List Nat :=
  [0x0009, 0x000A, 0x000B, 0x000C, 0x000D, 0x001C, 0x001D, 0x001E,
    0x001F, 0x0020, 0x0085, 0x00A0, 0x1680, 0x2000, 0x2001, 0x2002,
    0x2003, 0x2004, 0x2005, 0x2006, 0x2007, 0x2008, 0x2009, 0x200A,
    0x2028, 0x2029, 0x202F, 0x205F, 0x3000]

/-- White space of any kind. -/
def isBlank (c : Char) : Bool :=
  blanks.contains c.toNat

/-- A text without the characters of a class at its ends. -/
def trimBy (isEdge : Char → Bool) (cs : List Char) : List Char :=
  ((cs.dropWhile isEdge).reverse.dropWhile isEdge).reverse

/-- A text without the white space at its ends. -/
def trim (s : String) : String :=
  .ofList (trimBy isBlank s.toList)

/-- What core counts as white space is white space here. -/
theorem isBlank_of_isWhitespace {c : Char} (h : c.isWhitespace = true) :
    isBlank c = true := by
  simp only [Char.isWhitespace, Bool.or_eq_true, decide_eq_true_eq] at h
  rcases h with ((rfl | rfl) | rfl) | rfl <;> decide

end Text

end BlockStage
