import BlockStage.Value

/-! # JSON texts, written

    Members and items stand on lines of their own, two blanks deeper than
    what holds them; an empty list or object stays on its line.  Only the
    quote, the backslash and the ASCII controls are escaped. -/

namespace BlockStage

namespace Json

/-- A number; the three measures without digits have names. -/
def numberText : Num → String
  | .real .nan => "NaN"
  | .real (.inf negative) => if negative then "-Infinity" else "Infinity"
  | n => n.text

/-- One character inside a string. -/
def escaped (c : Char) : List Char :=
  if c = '"' then ['\\', '"']
  else if c = '\\' then ['\\', '\\']
  else if c = '\n' then ['\\', 'n']
  else if c = '\r' then ['\\', 'r']
  else if c = '\t' then ['\\', 't']
  else if c = '\x08' then ['\\', 'b']
  else if c = '\x0c' then ['\\', 'f']
  else if c.toNat < 0x20 then '\\' :: 'u' :: Text.hex 4 c.toNat
  else [c]

/-- A string with its quotes. -/
def stringText (s : String) : String :=
  .ofList ('"' :: s.toList.flatMap escaped ++ ['"'])

/-- A line break and the blanks of a depth. -/
def newLine (depth : Nat) : String :=
  .ofList ('\n' :: List.replicate (2 * depth) ' ')

/-- Lines between two brackets, one level deeper than `depth`. -/
def bracketed (opening closing : String) (depth : Nat)
    (lines : List String) : String :=
  match lines with
  | [] => opening ++ closing
  | _ =>
      opening ++ newLine (depth + 1)
        ++ ("," ++ newLine (depth + 1)).intercalate lines
        ++ newLine depth ++ closing

mutual

/-- A value, at a depth. -/
def write (depth : Nat) : Value → String
  | .null => "null"
  | .bool b => if b then "true" else "false"
  | .num n => numberText n
  | .str s => stringText s
  | .list items => bracketed "[" "]" depth (writeItems (depth + 1) items)
  | .object ms =>
      bracketed "\x7b" "\x7d" depth (writeMembers (depth + 1) ms)

/-- The items of a list. -/
def writeItems (depth : Nat) : List Value → List String
  | [] => []
  | v :: vs => write depth v :: writeItems depth vs

/-- The members of an object. -/
def writeMembers (depth : Nat) : List (String × Value) → List String
  | [] => []
  | (name, v) :: ms =>
      (stringText name ++ ": " ++ write depth v) :: writeMembers depth ms

end

/-- A whole document. -/
def document (v : Value) : String :=
  write 0 v

end Json

end BlockStage
