import BlockStage.Value.Order

/-! # Calculating with values

    Numbers and truth values calculate as the numbers they count as.  A
    text or a list can be joined with its own kind and repeated a whole
    number of times; everything else is a fault that names the kinds. -/

namespace BlockStage

namespace Value

/-- The kinds of a text and of a list, which can be joined and repeated. -/
def isSequence : Value → Bool
  | str _ => true
  | list _ => true
  | _ => false

/-- The opposite. -/
def neg (v : Value) : Except OperandFault Value :=
  match v.number? with
  | some n => .ok (num n.neg)
  | none => .error (.noOpposite v.typeName)

/-- The whole part of a number. -/
def whole (v : Value) : Except OperandFault Int :=
  match v.number? with
  | some n => calculate n.whole
  | none => .error (.notANumber v.typeName)

/-- The count a value is: truth values are counts too, measures are not. -/
def count : Value → Except OperandFault Int
  | num (.int n) => .ok n
  | bool b => .ok (if b then 1 else 0)
  | v => .error (.notACount v.typeName)

/-- A text or a list a number of times over. -/
def repeated (n : Nat) : Value → Value
  | str s => str (String.join (List.replicate n s))
  | list items => list (List.replicate n items).flatten
  | v => v

/-- A text or a list times a factor, which must be a count. -/
def times (sequence factor : Value) : Except OperandFault Value :=
  match factor.count with
  | .error _ => .error (.notRepeatable factor.typeName)
  | .ok n =>
      if Nat.pow 2 63 ≤ n.natAbs then .error .tooManyRepeats
      else if sequence.holds then .ok (sequence.repeated n.toNat)
      else .ok sequence

variable [Arithmetic]

/-- The sum. -/
def add (a b : Value) : Except OperandFault Value :=
  match a.number?, b.number? with
  | some m, some n => calculate ((m.add n).map num)
  | _, _ =>
      match a, b with
      | str s, str t => .ok (str (s ++ t))
      | list xs, list ys => .ok (list (xs ++ ys))
      | a, b =>
          if a.isSequence then
            .error (.notJoinable a.typeName b.typeName)
          else .error (.unsupported "+" a.typeName b.typeName)

/-- The difference. -/
def sub (a b : Value) : Except OperandFault Value :=
  match a.number?, b.number? with
  | some m, some n => calculate ((m.sub n).map num)
  | _, _ => .error (.unsupported "-" a.typeName b.typeName)

/-- The product. -/
def mul (a b : Value) : Except OperandFault Value :=
  match a.number?, b.number? with
  | some m, some n => calculate ((m.mul n).map num)
  | _, _ =>
      if a.isSequence then a.times b
      else if b.isSequence then b.times a
      else .error (.unsupported "*" a.typeName b.typeName)

/-- The quotient, always measured. -/
def div (a b : Value) : Except OperandFault Scalar :=
  match a.number?, b.number? with
  | some m, some n => calculate (m.div n)
  | _, _ => .error (.unsupported "/" a.typeName b.typeName)

/-- The number as a measure. -/
def measure (v : Value) : Except OperandFault Scalar :=
  match v.number? with
  | some n => calculate n.measure
  | none => .error (.notANumber v.typeName)

/-- Whether a number is finite. -/
def isFinite (v : Value) : Except OperandFault Bool :=
  match v.number? with
  | some n => calculate n.isFinite
  | none => .error (.notANumber v.typeName)

/-- The finite number a value is; `none` for all other values, truth values
    among them. -/
def finiteNumber? : Value → Except OperandFault (Option Num)
  | num n => do
      return if ← calculate n.isFinite then some n else none
  | _ => .ok none

end Value

end BlockStage
