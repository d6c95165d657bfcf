import BlockStage.Stage.Agent
import BlockStage.Stage.Lenient

/-! # Misfits — what is told about a record that is refused

    A misfit is a flaw at one place of a record, with the value that was
    found there.  `Misfit.report` writes all misfits of a record: how many
    they are, and for each its place, what should have stood there, what
    did, and where the flaw is explained.  Of a long value only the two
    ends are shown. -/

namespace BlockStage

/-- Something amiss at one place of a record. -/
structure Misfit where
  /-- The names and indices that lead to the place. -/
  place : List String
  /-- What is amiss there. -/
  flaw : Flaw
  /-- What was found there; around the place, if nothing was. -/
  found : Value

namespace Misfit

/-! ## Order -/

/-- The order of places, and of codes at the same place. -/
def le (a b : Misfit) : Bool :=
  ((compare a.place b.place).then (compare a.flaw.code b.flaw.code)).isLE

/-- Misfits by their places. -/
def sorted (ms : List Misfit) : List Misfit := ms.mergeSort le

/-! ## Wording -/

/-- The longest beginning of at most `room` bytes. -/
def fitting (room : Nat) : List Char → List Char
  | [] => []
  | c :: cs =>
      if c.utf8Size ≤ room then c :: fitting (room - c.utf8Size) cs else []

/-- A text of more than fifty bytes without its middle. -/
def excerpt (s : String) : String :=
  if s.utf8ByteSize ≤ 50 then s
  else
    .ofList (fitting 25 s.toList) ++ "..."
      ++ .ofList (fitting 24 s.toList.reverse).reverse

/-- Whether a position was found: it is written in round brackets. -/
def isAtPosition (m : Misfit) : Bool :=
  match m.flaw, m.found with
  | .tooLong, .list _ => true
  | .missing, .list _ => true
  | _, _ => false

/-- What kind of value was found. -/
def foundKind (m : Misfit) : String :=
  if m.isAtPosition then "tuple" else m.found.typeName

/-- The value that was found, if it can be written out. -/
def foundText (m : Misfit) : String :=
  if ¬ m.found.legible then "<unprintable " ++ m.foundKind ++ " object>"
  else
    match m.isAtPosition, m.found with
    | true, .list vs => Position.text vs
    | _, v => v.text

/-- How many parts were found. -/
def foundSize (m : Misfit) : Nat :=
  (m.found.parts?.map List.length).getD 0

/-- What should have been found in a record of a name. -/
def wanted (record : String) (m : Misfit) : String :=
  match m.flaw with
  | .notARecord =>
      "Input should be a valid dictionary or instance of " ++ record
  | .missing => "Field required"
  | .notExpected => "Extra inputs are not permitted"
  | .notAText => "Input should be a valid string"
  | .notAMeasure => "Input should be a valid number"
  | .measureIllegible =>
      "Input should be a valid number, unable to parse string as a number"
  | .notACount => "Input should be a valid integer"
  | .countIllegible =>
      "Input should be a valid integer, unable to parse string as an integer"
  | .countTooLong =>
      "Unable to parse input string as an integer, exceeded maximum size"
  | .fractional =>
      "Input should be a valid integer, got a number with a fractional part"
  | .notFinite => "Input should be a finite number"
  | .notATruth => "Input should be a valid boolean"
  | .truthIllegible =>
      "Input should be a valid boolean, unable to interpret input"
  | .notAPair => "Input should be a valid tuple"
  | .tooLong =>
      "Tuple should have at most 2 items after validation, not "
        ++ toString m.foundSize
  | .belowZero => "Input should be greater than or equal to 0"

/-- Where a flaw is explained. -/
def explainedAt (flaw : Flaw) : String :=
  "https:" ++ "//" ++ ".".intercalate ["errors", "pydantic", "dev"] ++ "/"
    ++ "/".intercalate ["2.12", "v", flaw.code]

/-- The lines about one misfit. -/
def lines (record : String) (m : Misfit) : String :=
  (if m.place = [] then "" else ".".intercalate m.place ++ "\n")
    ++ "  " ++ m.wanted record ++ " [type=" ++ m.flaw.code
    ++ ", input_value=" ++ excerpt m.foundText
    ++ ", input_type=" ++ m.foundKind
    ++ "]\n    For further information visit " ++ explainedAt m.flaw

/-- All that is told about the misfits of a record of a name. -/
def report (record : String) (ms : List Misfit) : String :=
  toString ms.length ++ " validation error"
    ++ (if ms.length = 1 then "" else "s") ++ " for " ++ record ++ "\n"
    ++ "\n".intercalate (ms.map (lines record))

end Misfit

end BlockStage
