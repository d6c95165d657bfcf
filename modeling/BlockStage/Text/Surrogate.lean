/-! # Surrogates on their own

    A text in writing may hold one half of a surrogate pair without the
    other, which is no character.  Such a half is kept as its stand-in, the
    private character 0x100000 above it, and this character stands for
    nothing else.  A text with stand-ins can be compared, measured and
    quoted like any other one, but it cannot be written out. -/

namespace BlockStage

namespace Text

/-- The character that stands for a surrogate on its own. -/
def standIn (unit : Nat) : Char :=
  Char.ofNat (0x100000 + unit)

/-- The surrogate that a character stands for. -/
def surrogate? (c : Char) : Option Nat :=
  if 0x10D800 ≤ c.toNat ∧ c.toNat < 0x10E000 then some (c.toNat - 0x100000)
  else none

/-- The code point of what a character stands for. -/
def codePoint (c : Char) : Nat :=
  (surrogate? c).getD c.toNat

/-- Where a text cannot be written out. -/
structure Unwritable where
  /-- The number of characters before the place. -/
  offset : Nat
  /-- The surrogates that stand there, one after the other. -/
  units : List Nat
deriving DecidableEq

/-- The first place where a text cannot be written out. -/
def unwritable? (s : String) : Option Unwritable :=
  let before := s.toList.takeWhile fun c => (surrogate? c).isNone
  let there := (s.toList.drop before.length).takeWhile fun c =>
    (surrogate? c).isSome
  if there = [] then none
  else some ⟨before.length, there.filterMap surrogate?⟩

end Text

end BlockStage
