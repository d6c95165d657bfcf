import BlockStage.Number.Binary64

/-! # Decimal digits of a measure

    Two ways to choose them.  `Decimal.shortest` takes the fewest digits
    that still read back as the same double, and of those the value
    nearest to it: the doubles around it bound an interval, and for one,
    two, … digits the value's two neighbours on that decimal grid are
    tried.  `Decimal.significant` takes a given count of digits, nearest to
    the exact value, a half going to the even neighbour. -/

namespace BlockStage

/-- A positive decimal: a whole number of units, each ten to `exponent`. -/
structure Decimal where
  /-- How many units. -/
  units : Nat
  /-- The power of ten one unit is. -/
  exponent : Int
deriving DecidableEq

namespace Decimal

/-- The ratio a decimal denotes. -/
def value (d : Decimal) : Rat :=
  d.units * tenTo d.exponent

/-- The power of ten that a positive ratio reaches: `10 ^ k ≤ q` and
    `q < 10 ^ (k + 1)`. -/
def magnitude (q : Rat) : Int :=
  let guess :=
    ((Nat.log2 q.num.natAbs : Int) - Nat.log2 q.den) * 30103 / 100000
  if tenTo (guess + 1) ≤ q then guess + 1
  else if tenTo guess ≤ q then guess
  else guess - 1

/-- The ratios that read back as one double: an interval, ends included
    when the significand is even. -/
structure Basin where
  /-- The lower end. -/
  low : Rat
  /-- The upper end. -/
  high : Rat
  /-- Whether the ends belong to it. -/
  closed : Bool

/-- Whether a ratio lies in the interval. -/
def Basin.holds (b : Basin) (q : Rat) : Bool :=
  (b.low < q ∧ q < b.high) ∨ (b.closed ∧ (q = b.low ∨ q = b.high))

/-- The interval around a positive double.  Below a power of two the next
    double is half as far away. -/
def basin (q : Rat) : Basin :=
  let e := Binary64.unitExponent q.num.natAbs q.den
  let m := Binary64.significand q.num.natAbs q.den e
  let half := Binary64.twoTo (e - 1)
  let below :=
    if m = Nat.pow 2 52 ∧ Binary64.leastExponent < e then half / 2 else half
  ⟨q - below, q + half, m % 2 = 0⟩

/-- The nearer of the value's two neighbours on a decimal grid, if it lies
    in the interval; the even one when both are equally near. -/
def onGrid? (b : Basin) (q : Rat) (exponent : Int) : Option Decimal :=
  let unit := tenTo exponent
  let below := (q / unit).floor.toNat
  let nearer := (roundEven (q / unit)).toNat
  let other := if nearer = below then below + 1 else below
  if b.holds (nearer * unit) then some ⟨nearer, exponent⟩
  else if b.holds (other * unit) then some ⟨other, exponent⟩
  else none

/-- A given count of significant digits, nearest to a positive ratio. -/
def significant (digits : Nat) (q : Rat) : Decimal :=
  let exponent := magnitude q + 1 - digits
  ⟨(roundEven (q / tenTo exponent)).toNat, exponent⟩

/-- The fewest digits that read back as the same positive double. -/
def shortest (q : Rat) : Decimal :=
  let b := basin q
  let k := magnitude q
  ((List.range 17).findSome? fun (n : Nat) =>
      onGrid? b q (k - (n : Int))).getD
    (significant 17 q)

end Decimal

end BlockStage
