import BlockStage.Text.Printable
import BlockStage.Text.Surrogate

/-! # Quoted texts — how a message shows a text it complains about

    The quotes are single ones unless the text holds a single quote and no
    double one.  The backslash, the quote in use and the three common line
    controls have short escapes; other characters without a shape, and
    surrogates on their own, are written by number in two, four or eight
    hexadecimal digits. -/

namespace BlockStage

namespace Text

/-- A number in a given count of lower-case hexadecimal digits. -/
def hex (width n : Nat) : List Char :=
  (List.range width).reverse.map fun k => Nat.digitChar (n / Nat.pow 16 k % 16)

/-- One character inside quotes. -/
def escapeChar (quote c : Char) : List Char :=
  if c = quote ∨ c = '\\' then ['\\', c]
  else if c = '\n' then ['\\', 'n']
  else if c = '\r' then ['\\', 'r']
  else if c = '\t' then ['\\', 't']
  else if isPrintable c then [c]
  else
    let n := codePoint c
    if n < 0x100 then '\\' :: 'x' :: hex 2 n
    else if n < 0x10000 then '\\' :: 'u' :: hex 4 n
    else '\\' :: 'U' :: hex 8 n

/-- The quote a text is put in. -/
def quoteFor (cs : List Char) : Char :=
  if cs.contains '\'' ∧ ¬ cs.contains '"' then '"' else '\''

/-- A text in quotes. -/
def quoted (s : String) : String :=
  let cs := s.toList
  let quote := quoteFor cs
  .ofList (quote :: cs.flatMap (escapeChar quote) ++ [quote])

end Text

end BlockStage
