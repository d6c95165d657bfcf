import BlockStage.Number.Arithmetic

/-! # Numbers — counted or measured

    Programs, settings and agents hold counts (`int`, of any size) and
    measures (`real`) side by side, and an operation keeps counts counted
    as long as it can: sums, differences and products of counts are
    counts, everything else is measured.  Comparison never converts, so a
    count is compared with a measure exactly. -/

namespace BlockStage

/-- A number: a count or a measure. -/
inductive Num where
  | int (n : Int)
  | real (x : Scalar)
deriving DecidableEq, Inhabited

/-- Why a calculation has no result. -/
inductive NumberFault where
  /-- A count too large to be measured. -/
  | countTooLarge
  /-- A quotient of counts too large to be measured. -/
  | quotientTooLarge
  /-- `nan` has no whole part. -/
  | wholePartOfNan
  /-- An infinity has no whole part. -/
  | wholePartOfInfinity
  /-- An infinite angle has no sine or cosine. -/
  | infiniteAngle
deriving DecidableEq

/-- The wording of a fault. -/
def NumberFault.message : NumberFault → String
  | .countTooLarge => "int too large to convert to float"
  | .quotientTooLarge => "integer division result too large for a float"
  | .wholePartOfNan => "cannot convert float NaN to integer"
  | .wholePartOfInfinity => "cannot convert float infinity to integer"
  | .infiniteAngle => "math domain error"

namespace Num

instance (n : Nat) : OfNat Num n := ⟨int n⟩

/-- The number as an exact measure. -/
def exact : Num → Scalar
  | int n => .finite n
  | real x => x

/-- Strictly below. -/
def lt (a b : Num) : Bool := a.exact.lt b.exact

/-- Counts stand in the order of the whole numbers. -/
theorem lt_int (m n : Int) : (int m).lt (int n) = decide (m < n) := by
  have hr : ((m : Rat) < (n : Rat)) ↔ m < n := Rat.intCast_lt_intCast
  by_cases h : m < n
  · simp only [lt, exact, Scalar.lt, Scalar.compare?, Scalar.value, hr, h]
    simp
  · by_cases e : m = n <;>
      simp [lt, exact, Scalar.lt, Scalar.compare?, Scalar.value, hr, h, e]

/-- Below or equal. -/
def le (a b : Num) : Bool := a.exact.le b.exact

/-- Equal as numbers. -/
def same (a b : Num) : Bool := a.exact.same b.exact

/-- The smaller of two; the first when neither is. -/
def min (a b : Num) : Num := if b.lt a then b else a

/-- The larger of two; the first when neither is. -/
def max (a b : Num) : Num := if a.lt b then b else a

/-- A number brought between two bounds, the lower one winning. -/
def clamp (value low high : Num) : Num := low.max (high.min value)

/-- A change of sign. -/
def neg : Num → Num
  | int n => int (-n)
  | real x => real x.neg

/-- The whole part, with the fraction dropped. -/
def whole : Num → Except NumberFault Int
  | int n => .ok n
  | real (.finite q) => .ok (wholePart q)
  | real .negZero => .ok 0
  | real (.inf _) => .error .wholePartOfInfinity
  | real .nan => .error .wholePartOfNan

/-- Multiples of a positive count, the two zeros among them. -/
def isMultipleOf (k : Nat) : Num → Bool
  | int n => n % k = 0
  | real (.finite q) => q.den = 1 ∧ q.num % k = 0
  | real .negZero => true
  | real _ => false

variable [Arithmetic]

/-- The number as a measure; a count may be too large for one. -/
def measure : Num → Except NumberFault Scalar
  | real x => .ok x
  | int n =>
      match Arithmetic.round n with
      | .inf _ => .error .countTooLarge
      | x => .ok x

/-- Finite numbers, all counts that can be measured among them. -/
def isFinite (a : Num) : Except NumberFault Bool :=
  a.measure.map Scalar.isFinite

/-- The sum. -/
def add : Num → Num → Except NumberFault Num
  | int a, int b => .ok (int (a + b))
  | a, b => do return real ((← a.measure).add (← b.measure))

/-- The difference. -/
def sub : Num → Num → Except NumberFault Num
  | int a, int b => .ok (int (a - b))
  | a, b => do return real ((← a.measure).sub (← b.measure))

/-- The product. -/
def mul : Num → Num → Except NumberFault Num
  | int a, int b => .ok (int (a * b))
  | a, b => do return real ((← a.measure).mul (← b.measure))

/-- The quotient, always measured. -/
def div : Num → Num → Except NumberFault Scalar
  | int a, int b =>
      match Arithmetic.round ((a : Rat) / (b : Rat)) with
      | .inf _ => .error .quotientTooLarge
      | x => .ok x
  | a, b => do return (← a.measure).div (← b.measure)

end Num

end BlockStage
