import BlockStage.Number.Num
import BlockStage.Text.Blank
import BlockStage.Text.Digit

/-! # Numbers written by people

    `readCount?` and `readMeasure?` read a whole text as one number.  Space
    around it is ignored, digits may come from any script, and a single
    underscore may stand between two digits.  A measure may have a point,
    an exponent or be one of the words for infinity and for no number. -/

namespace BlockStage

namespace Reading

/-- White space around a number: all of it but the four separators below
    the ASCII space. -/
def isEdge (c : Char) : Bool :=
  Text.isBlank c ∧ ¬ (0x1C ≤ c.toNat ∧ c.toNat ≤ 0x1F)

/-- Whether a digit comes next. -/
def startsWithDigit : List Char → Bool
  | c :: _ => (Text.digit? c).isSome
  | [] => false

/-- The digits at the front, single underscores between them skipped, and
    what follows.  `inside` tells that a digit came before. -/
def digitRun (inside : Bool) : List Char → List Nat × List Char
  | [] => ([], [])
  | c :: rest =>
      match Text.digit? c with
      | some d =>
          let (ds, after) := digitRun true rest
          (d :: ds, after)
      | none =>
          if c = '_' ∧ inside ∧ startsWithDigit rest then digitRun false rest
          else ([], c :: rest)

/-- The number a list of digits writes. -/
def ofDigits (ds : List Nat) : Nat :=
  ds.foldl (fun n d => 10 * n + d) 0

/-- A sign, if there is one. -/
def sign : List Char → Bool × List Char
  | '-' :: rest => (true, rest)
  | '+' :: rest => (false, rest)
  | cs => (false, cs)

/-- The exponent that may follow the digits; it must be all that is
    left. -/
def exponent? : List Char → Option Int
  | [] => some 0
  | c :: rest =>
      if c = 'e' ∨ c = 'E' then
        let (negative, digits) := sign rest
        match digitRun false digits with
        | ([], _) => none
        | (ds, []) =>
            some (if negative then -(ofDigits ds : Int) else ofDigits ds)
        | _ => none
      else none

/-- Digits with or without a point, and the exponent: a count of units
    and the power of ten of one. -/
def decimal? (cs : List Char) : Option (Nat × Int) :=
  let (front, rest) := digitRun false cs
  let (back, rest) :=
    match rest with
    | '.' :: after => digitRun false after
    | _ => ([], rest)
  if front = [] ∧ back = [] then none
  else
    (exponent? rest).map fun e =>
      (ofDigits (front ++ back), e - (back.length : Int))

/-- The double nearest to a count of units of ten to a power.  Powers far
    outside the doubles are settled by the number of digits. -/
def ofDecimal (units : Nat) (exponent : Int) : Scalar :=
  let reach := (Nat.log2 units : Int) * 30103 / 100000 + exponent
  if units = 0 ∨ reach < -400 then .finite 0
  else if 400 < reach then .inf false
  else Binary64.nearest (units * tenTo exponent)

/-- Names of the values that have no digits. -/
def named? (word : String) : Option Scalar :=
  match word with
  | "inf" => some (.inf false)
  | "infinity" => some (.inf false)
  | "nan" => some .nan
  | _ => none

/-- An ASCII letter in lower case. -/
def lowerWord (cs : List Char) : String :=
  .ofList (cs.map Char.toLower)

/-- A whole text as a measure. -/
def readMeasure? (s : String) : Option Scalar :=
  let (negative, cs) := sign (Text.trimBy isEdge s.toList)
  let size :=
    match named? (lowerWord cs) with
    | some x => some x
    | none => (decimal? cs).map fun (units, e) => ofDecimal units e
  size.map fun x => if negative then x.neg else x

/-- The most digits a count may be written with. -/
def digitLimit : Nat := 4300

/-- A whole text as a count. -/
def readCount? (s : String) : Option Int :=
  let (negative, cs) := sign (Text.trimBy isEdge s.toList)
  match digitRun false cs with
  | ([], _) => none
  | (ds, []) =>
      if digitLimit < ds.length then none
      else some (if negative then -(ofDigits ds : Int) else ofDigits ds)
  | _ => none

end Reading

end BlockStage
