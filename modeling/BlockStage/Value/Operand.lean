import BlockStage.Value

/-! # Operands — why an operation has no result

    Values of any kind may meet in a comparison or a calculation.  Most
    pairs of kinds have no result, and `OperandFault` says why: by the
    kinds of the operands, by the number of their parts, or by a fault of
    the numbers themselves. -/

namespace BlockStage

/-- Why an operation on values has no result. -/
inductive OperandFault where
  /-- The numbers themselves have no result. -/
  | number (f : NumberFault)
  /-- Two kinds of values have no order. -/
  | incomparable (sign left right : String)
  /-- Two kinds of values cannot be combined. -/
  | unsupported (sign left right : String)
  /-- Only a value of its own kind can be put behind a text or a list. -/
  | notJoinable (kind other : String)
  /-- A text or a list is repeated a whole number of times. -/
  | notRepeatable (factor : String)
  /-- A text or a list cannot be repeated that often. -/
  | tooManyRepeats
  /-- A kind of value has no opposite. -/
  | noOpposite (kind : String)
  /-- A kind of value is no number. -/
  | notANumber (kind : String)
  /-- A kind of value is no count. -/
  | notACount (kind : String)
  /-- A kind of value cannot stand as a key. -/
  | notAKey (kind : String)
  /-- A kind of value has no parts. -/
  | noParts (kind : String)
  /-- A pair has fewer than two parts. -/
  | tooFewParts (parts : Nat)
  /-- A pair has more than two parts. -/
  | tooManyParts
deriving DecidableEq

namespace OperandFault

/-- The wording of a fault. -/
def message : OperandFault → String
  | number f => f.message
  | incomparable sign left right =>
      "'" ++ sign ++ "' not supported between instances of '" ++ left
        ++ "' and '" ++ right ++ "'"
  | unsupported sign left right =>
      "unsupported operand type(s) for " ++ sign ++ ": '" ++ left
        ++ "' and '" ++ right ++ "'"
  | notJoinable kind other =>
      "can only concatenate " ++ kind ++ " (not \"" ++ other ++ "\") to "
        ++ kind
  | notRepeatable factor =>
      "can't multiply sequence by non-int of type '" ++ factor ++ "'"
  | tooManyRepeats => "cannot fit 'int' into an index-sized integer"
  | noOpposite kind => "bad operand type for unary -: '" ++ kind ++ "'"
  | notANumber kind => "must be real number, not " ++ kind
  | notACount kind =>
      "'" ++ kind ++ "' object cannot be interpreted as an integer"
  | notAKey kind => "unhashable type: '" ++ kind ++ "'"
  | noParts kind => "cannot unpack non-iterable " ++ kind ++ " object"
  | tooFewParts parts =>
      "not enough values to unpack (expected 2, got " ++ toString parts
        ++ ")"
  | tooManyParts => "too many values to unpack (expected 2)"

/-- Whether the values themselves are at fault, and not their kinds or
    their size. -/
def isAboutValues : OperandFault → Bool
  | number .wholePartOfNan => true
  | number .infiniteAngle => true
  | tooFewParts _ => true
  | tooManyParts => true
  | _ => false

end OperandFault

namespace Value

/-- A calculation with numbers as an operation on values. -/
def calculate {α : Type} (x : Except NumberFault α) :
    Except OperandFault α :=
  x.mapError .number

/-- Values that can stand as keys: all but lists and objects. -/
def key : Value → Except OperandFault Value
  | list items => .error (.notAKey (list items).typeName)
  | object ms => .error (.notAKey (object ms).typeName)
  | v => .ok v

/-- The two values of a list of two. -/
def pairOf : List Value → Except OperandFault (Value × Value)
  | [x, y] => .ok (x, y)
  | [] => .error (.tooFewParts 0)
  | [_] => .error (.tooFewParts 1)
  | _ => .error .tooManyParts

end Value

end BlockStage
