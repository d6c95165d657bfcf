import BlockStage.Value

/-! # Lenient readings

    A record from outside may write a number as a text, a count as a
    measure without a fraction, or a truth value as one of a few words.
    Each reading gives the value that was meant or tells what is amiss.
    Unlike other texts, these hold ASCII digits only. -/

namespace BlockStage

/-- What is amiss with a part of a record. -/
inductive Flaw where
  /-- The record is no object. -/
  | notARecord
  /-- A part is not there. -/
  | missing
  /-- A part has a name that no part should have. -/
  | notExpected
  /-- A text is none. -/
  | notAText
  /-- A measure is neither a number nor a text. -/
  | notAMeasure
  /-- A text writes no measure. -/
  | measureIllegible
  /-- A count is neither a number nor a text. -/
  | notACount
  /-- A text writes no count. -/
  | countIllegible
  /-- A text writes a count of too many digits. -/
  | countTooLong
  /-- A count has a fraction. -/
  | fractional
  /-- A count is infinite or no number. -/
  | notFinite
  /-- A truth value is of the wrong type. -/
  | notATruth
  /-- A text or number means no truth value. -/
  | truthIllegible
  /-- A pair is no list. -/
  | notAPair
  /-- A pair has a third part. -/
  | tooLong
  /-- A number is below zero. -/
  | belowZero
deriving DecidableEq

namespace Flaw

/-- The code of a flaw. -/
def code : Flaw → String
  | notARecord => "model_type"
  | missing => "missing"
  | notExpected => "extra_forbidden"
  | notAText => "string_type"
  | notAMeasure => "float_type"
  | measureIllegible => "float_parsing"
  | notACount => "int_type"
  | countIllegible => "int_parsing"
  | countTooLong => "int_parsing_size"
  | fractional => "int_from_float"
  | notFinite => "finite_number"
  | notATruth => "bool_type"
  | truthIllegible => "bool_parsing"
  | notAPair => "tuple_type"
  | tooLong => "too_long"
  | belowZero => "greater_than_equal"

end Flaw

namespace Lenient

/-! ## Digits -/

/-- Characters of plain ASCII other than the underscore. -/
def isPlain (c : Char) : Bool :=
  c.toNat < 128 ∧ c ≠ '_'

/-- Whether underscores stand only between other characters. -/
def wellGrouped : List Char → Bool
  | [] => true
  | '_' :: _ => false
  | _ :: '_' :: '_' :: _ => false
  | [_, '_'] => false
  | _ :: '_' :: rest => wellGrouped rest
  | _ :: rest => wellGrouped rest

/-- A text of plain characters as a measure, with nothing around it. -/
def plainMeasure? (cs : List Char) : Option Scalar :=
  if cs.all fun c => isPlain c ∧ ¬ Text.isBlank c then
    Reading.readMeasure? (.ofList cs)
  else none

/-- A text as a measure: space is allowed around it or underscores in it,
    not both. -/
def measure? (s : String) : Option Scalar :=
  match plainMeasure? (Text.trimBy Reading.isEdge s.toList) with
  | some x => some x
  | none =>
      if wellGrouped s.toList then
        plainMeasure? (s.toList.filter (· ≠ '_'))
      else none

/-! ## Counts -/

/-- Past zeros and underscores, to the first other digit or to a minus
    sign; a point ends them one character earlier, and so does the end.
    `last` is the character before. -/
def pastZeros (last : Char) : List Char → Option (List Char)
  | [] => some [last]
  | c :: cs =>
      if c = '0' ∨ c = '_' then pastZeros c cs
      else if c = '.' then some (last :: c :: cs)
      else if c = '-' ∨ ('1' ≤ c ∧ c ≤ '9') then some (c :: cs)
      else none

/-- A count without the zeros in front: they may have underscores among
    them. -/
def withoutZeros : List Char → Option (List Char)
  | [] => none
  | c :: cs =>
      if c = '0' then pastZeros c cs
      else if c = '-' ∨ c.isDigit then some (c :: cs)
      else none

/-- A count without the sign in front and whether that is a minus; a plus
    must not stand before a minus. -/
def signed : List Char → Option (Bool × List Char)
  | '+' :: '-' :: _ => none
  | '+' :: cs => some (false, cs)
  | '-' :: cs => some (true, cs)
  | cs => some (false, cs)

/-- A count without the point and the zeros behind it; a point alone
    stays. -/
def withoutFraction (cs : List Char) : List Char :=
  match cs.span (· ≠ '.') with
  | (front, _ :: zeros) =>
      if ¬ zeros.isEmpty ∧ zeros.all (· = '0') then front else cs
  | (_, []) => cs

/-- The digits of a count, which begin with no zero unless there is only
    one.  `used` characters stand before them and count as digits when
    there are too many; that is found before what follows the digits is
    looked at. -/
def readDigits (used : Nat) (cs : List Char) : Except Flaw Nat :=
  let ds := cs.takeWhile Char.isDigit
  if ds.isEmpty ∨ (ds.head? = some '0' ∧ 1 < ds.length) then
    .error .countIllegible
  else if Reading.digitLimit < used + ds.length then .error .countTooLong
  else if ds.length < cs.length then .error .countIllegible
  else .ok (Reading.ofDigits (ds.map fun c => c.toNat - 48))

/-- A count in plain digits, perhaps below zero. -/
def readPlain : List Char → Except Flaw Int
  | '-' :: cs => (readDigits 1 cs).map fun n => -(n : Int)
  | cs => (readDigits 0 cs).map fun n => (n : Int)

/-- The characters of a count that count: no space around it, no plus, no
    zeros in front, no empty fraction, no underscores. -/
def bareCount? (s : String) : Option (List Char) := do
  let (negative, cs) ← signed (Text.trimBy Reading.isEdge s.toList)
  let cs ← withoutZeros cs
  let cs := withoutFraction (if negative then '-' :: cs else cs)
  if wellGrouped cs then return cs.filter (· ≠ '_') else none

/-- A text as a count: as it stands, or else by the characters that count.
    Only as it stands it can be too long. -/
def countOf (s : String) : Except Flaw Int :=
  match readPlain s.toList with
  | .ok n => .ok n
  | .error .countTooLong => .error .countTooLong
  | .error _ =>
      match (bareCount? s).map readPlain with
      | some (.ok n) => .ok n
      | _ => .error .countIllegible

/-! ## Values -/

/-- A text. -/
def text : Value → Except Flaw String
  | .str s => .ok s
  | _ => .error .notAText

/-- A text or nothing. -/
def text? : Value → Except Flaw (Option String)
  | .null => .ok none
  | v => (text v).map some

/-- A measure. -/
def measure [Arithmetic] (v : Value) : Except Flaw Scalar :=
  match v with
  | .str s =>
      match measure? s with
      | some x => .ok x
      | none => .error .measureIllegible
  | v =>
      match v.number? with
      | some n => n.measure.mapError fun _ => .notAMeasure
      | none => .error .notAMeasure

/-- How large a count can be that fits into 64 bits with a sign. -/
def wordBound : Nat := Nat.pow 2 63

/-- A measure as a count; it must lie within 64 bits. -/
def wholeOf (x : Scalar) : Except Flaw Int :=
  if ¬ x.isFinite then .error .notFinite
  else if x.value.den ≠ 1 then .error .fractional
  else if wordBound ≤ x.value.num.natAbs then .error .countTooLong
  else .ok x.value.num

/-- A count. -/
def count : Value → Except Flaw Int
  | .num (.int n) => .ok n
  | .num (.real x) => wholeOf x
  | .bool b => .ok (if b then 1 else 0)
  | .str s => countOf s
  | _ => .error .notACount

/-- A number as a truth value; it must fit into 64 bits. -/
def truthOf (n : Int) : Except Flaw Bool :=
  if n = 0 then .ok false
  else if n = 1 then .ok true
  else if n < -wordBound ∨ wordBound ≤ n then .error .notATruth
  else .error .truthIllegible

/-- The words for truth values. -/
def truthWords : List (String × Bool) :=
  [("0", false), ("off", false), ("f", false), ("false", false),
    ("n", false), ("no", false), ("1", true), ("on", true), ("t", true),
    ("true", true), ("y", true), ("yes", true)]

/-- A truth value. -/
def truth : Value → Except Flaw Bool
  | .bool b => .ok b
  | .str s =>
      match truthWords.lookup (Reading.lowerWord s.toList) with
      | some b => .ok b
      | none => .error .truthIllegible
  | .num (.int n) => truthOf n
  | .num (.real x) =>
      match wholeOf x with
      | .ok n => truthOf n
      | .error _ => .error .notATruth
  | _ => .error .notATruth

end Lenient

end BlockStage
