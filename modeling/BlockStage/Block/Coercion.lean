import BlockStage.Block.Domain
import BlockStage.Value.Order

/-! # Field coercion — every field brought into its domain

    A field left out takes its default in silence.  Any other value is
    read as generously as its domain allows and then brought into it; when
    that changes the value, or none could be read, a problem says so.

    Coercion always has a result.  Whether the result can be used is a
    question of its own, `fieldsFault?`: a complaint may have to show a
    value that cannot be written out, and the loop ceiling may be
    something that no field can be held against. -/

namespace BlockStage

/-- Why a field did not keep its value. -/
inductive FieldProblem where
  /-- No number could be read; the default is taken. -/
  | notNumber (raw : Value) (default : Num)
  /-- Less than the least value. -/
  | below (raw : Value) (minimum : Num)
  /-- More than the greatest value. -/
  | above (raw maximum : Value)
  /-- Rounded to a whole number. -/
  | notWhole (raw : Value) (rounded : Int)
  /-- None of the words; the default is taken. -/
  | notChoice (raw : Value) (choices : List String) (default : String)
  /-- Cut to the greatest length. -/
  | tooLong (limit : Nat)

namespace FieldProblem

/-- The wording of a problem. -/
def message : FieldProblem → String
  | notNumber raw default =>
      "expected a number, got " ++ raw.shown ++ "; using " ++ default.text
  | below raw minimum => raw.shown ++ " below minimum " ++ minimum.text
  | above raw maximum => raw.shown ++ " above maximum " ++ maximum.plain
  | notWhole raw rounded =>
      raw.shown ++ " is not a whole number; rounded to " ++ toString rounded
  | notChoice raw choices default =>
      raw.shown ++ " not one of " ++ (Value.list (choices.map .str)).text
        ++ "; using " ++ Text.quoted default
  | tooLong limit =>
      "text longer than " ++ toString limit ++ " characters; truncated"

end FieldProblem

/-- A field whose value was changed. -/
structure FieldComplaint where
  /-- The kind of the block. -/
  kind : String
  /-- The name of the field. -/
  field : String
  /-- The value as written. -/
  raw : Value
  /-- The value taken. -/
  coerced : Value
  /-- What was wrong. -/
  problem : FieldProblem

/-- The wording of a complaint. -/
def FieldComplaint.message (c : FieldComplaint) : String :=
  c.kind ++ "." ++ c.field ++ ": " ++ c.problem.message

/-- Why a block cannot be dealt with. -/
inductive BlockFault where
  /-- A value that has to be shown cannot be written out. -/
  | illegible
  /-- An operation on its values has no result. -/
  | operand (f : OperandFault)
deriving DecidableEq

namespace NumberDomain

/-- The greatest value under a loop ceiling. -/
def limit (d : NumberDomain) (ceiling : Value) : Value :=
  (d.maximum.map Value.num).getD ceiling

/-- The number a value is read as.  Truth values are none, and counts too
    large to be measured are infinite. -/
def read? : Value → Option Scalar
  | .num (.int n) => some (Binary64.nearest n)
  | .num (.real x) => some x
  | .str s => Reading.readMeasure? (Text.trim s)
  | _ => none

/-- The greatest value if a measure lies above it. -/
def exceeded? (d : NumberDomain) (ceiling : Value) (x : Scalar) :
    Option Num :=
  (d.limit ceiling).number?.filter fun n => n.lt (.real x)

/-- A measure brought between the bounds of a domain. -/
def bound (d : NumberDomain) (ceiling raw : Value) (x : Scalar) :
    Num × Option FieldProblem :=
  if (Num.real x).lt d.minimum then (d.minimum, some (.below raw d.minimum))
  else
    match d.exceeded? ceiling x with
    | some n => (n, some (.above raw (d.limit ceiling)))
    | none => (.real x, none)

/-- The nearest whole number, halves to the even neighbour. -/
def nearestWhole (a : Num) : Int :=
  roundEven a.exact.value

/-- A field of whole values takes the nearest one. -/
def settle (d : NumberDomain) (raw : Value)
    (bounded : Num × Option FieldProblem) : Num × Option FieldProblem :=
  if d.whole then
    let rounded := nearestWhole bounded.1
    let problem :=
      if bounded.2.isNone ∧ ¬ bounded.1.same (.int rounded) then
        some (.notWhole raw rounded)
      else bounded.2
    (.int rounded, problem)
  else bounded

/-- A value brought into a number domain. -/
def coerce (d : NumberDomain) (ceiling raw : Value) :
    Num × Option FieldProblem :=
  match raw with
  | .null => (d.default, none)
  | raw =>
      match read? raw with
      | none => (d.default, some (.notNumber raw d.default))
      | some .nan => (d.default, some (.notNumber raw d.default))
      | some x => d.settle raw (d.bound ceiling raw x)

/-- Why a measure cannot be held against a domain: its greatest value is no
    number, or lies below the measure and cannot be written out, or there
    is no whole number to settle for. -/
def measureFault? (d : NumberDomain) (ceiling : Value) (x : Scalar) :
    Option BlockFault :=
  if (Num.real x).lt d.minimum then none
  else
    match (Value.real x).gt (d.limit ceiling) with
    | .error f => some (.operand f)
    | .ok above =>
        let settled :=
          if above then (d.exceeded? ceiling x).getD (.real x) else .real x
        if above ∧ ¬ (d.limit ceiling).legible then some .illegible
        else if d.whole then
          match settled.whole with
          | .ok _ => none
          | .error f => some (.operand (.number f))
        else none

/-- Why a value cannot be brought into a number domain. -/
def fault? (d : NumberDomain) (ceiling raw : Value) : Option BlockFault :=
  match raw with
  | .null => none
  | raw =>
      match read? raw with
      | none => none
      | some .nan => none
      | some x => d.measureFault? ceiling x

end NumberDomain

namespace Domain

/-- A truth value counts as the word for it. -/
def worded : Value → Value
  | .bool b => .str (if b then "true" else "false")
  | v => v

/-- The word a value is read as: trimmed, in lower case, hyphens for
    underscores.  No letter outside ASCII has a lower case made of the
    letters that choices use. -/
def word (v : Value) : String :=
  let s :=
    match v with
    | .str s => s
    | v => v.shown
  .ofList ((Text.trim s).toList.map fun c =>
    if c = '_' then '-' else c.toLower)

/-- A value brought into a choice. -/
def coerceChoice (choices : List String) (default : String) (raw : Value) :
    String × Option FieldProblem :=
  match raw with
  | .null => (default, none)
  | raw =>
      let w := word (worded raw)
      if choices.contains w then (w, none)
      else (default, some (.notChoice (worded raw) choices default))

/-- A value brought into a text field. -/
def coerceText (default : String) (limit : Nat) (raw : Value) :
    String × Option FieldProblem :=
  match raw with
  | .null => (default, none)
  | raw =>
      let s :=
        match raw with
        | .str s => s
        | v => v.shown
      if limit < s.length then
        (.ofList (s.toList.take limit), some (.tooLong limit))
      else (s, none)

/-- A value brought into a domain. -/
def coerce (d : Domain) (ceiling raw : Value) :
    Value × Option FieldProblem :=
  match d with
  | number n =>
      let (v, problem) := n.coerce ceiling raw
      (.num v, problem)
  | choice choices default =>
      let (s, problem) := coerceChoice choices default raw
      (.str s, problem)
  | text default limit =>
      let (s, problem) := coerceText default limit raw
      (.str s, problem)

/-- Why a value cannot be brought into a domain. -/
def fault? (d : Domain) (ceiling raw : Value) : Option BlockFault :=
  if ¬ raw.showable then some .illegible
  else
    match d with
    | number n => n.fault? ceiling raw
    | _ => none

end Domain

/-- Fields in their domains, and what had to be changed for it. -/
structure Coerced where
  /-- One value for every declared field. -/
  values : Members
  /-- The changes, in the order of the fields. -/
  complaints : List FieldComplaint

/-- The declared fields of a block brought into their domains; other
    fields are ignored. -/
def coerceFields (kind : String) (domains : Domains) (ceiling : Value)
    (fields : Members) : Coerced :=
  match domains with
  | [] => ⟨[], []⟩
  | (name, d) :: rest =>
      let raw := (fields.get? name).getD .null
      let (value, problem) := d.coerce ceiling raw
      let others := coerceFields kind rest ceiling fields
      let own := problem.toList.map fun p => ⟨kind, name, raw, value, p⟩
      ⟨(name, value) :: others.values, own ++ others.complaints⟩

/-- The first declared field that cannot be brought into its domain. -/
def fieldsFault? (domains : Domains) (ceiling : Value) (fields : Members) :
    Option BlockFault :=
  domains.findSome? fun d =>
    d.2.fault? ceiling ((fields.get? d.1).getD .null)

end BlockStage
