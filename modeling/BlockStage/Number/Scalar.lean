/-! # Measured numbers — exact ratios, two zeros, infinities, no number

    A measured number is held as the exact rational it denotes.  Zero has
    a second form below it, and three more values stand for results that
    left the number line.  Order and equality look at the exact value
    only: `lt` and `le` are false wherever `nan` takes part, and the two
    zeros are equal. -/

namespace BlockStage

/-- A measured number.  `finite 0` is the zero above, `negZero` the zero
    below. -/
inductive Scalar where
  | finite (q : Rat)
  | negZero
  | inf (negative : Bool)
  | nan
deriving DecidableEq, Inhabited

namespace Scalar

/-- The rational a finite number denotes; the others count as zero. -/
def value : Scalar → Rat
  | finite q => q
  | _ => 0

/-- Finite numbers are the ones that denote a rational. -/
def isFinite : Scalar → Bool
  | finite _ => true
  | negZero => true
  | _ => false

/-- Both zeros. -/
def isZero : Scalar → Bool
  | finite q => q = 0
  | negZero => true
  | _ => false

/-- The sign, which the zero below also carries. -/
def isNegative : Scalar → Bool
  | finite q => q < 0
  | negZero => true
  | inf negative => negative
  | nan => false

/-- Where one number stands to another; `none` when either is `nan`. -/
def compare? : Scalar → Scalar → Option Ordering
  | nan, _ => none
  | _, nan => none
  | inf a, inf b => some (if a = b then .eq else if a then .lt else .gt)
  | inf a, _ => some (if a then .lt else .gt)
  | _, inf b => some (if b then .gt else .lt)
  | x, y =>
      some (if x.value < y.value then .lt
        else if x.value = y.value then .eq else .gt)

/-- Strictly below. -/
def lt (x y : Scalar) : Bool :=
  x.compare? y == some .lt

/-- Below or equal. -/
def le (x y : Scalar) : Bool :=
  x.compare? y == some .lt || x.compare? y == some .eq

/-- Equal as numbers: the two zeros are, `nan` is not even to itself. -/
def same (x y : Scalar) : Bool :=
  x.compare? y == some .eq

/-- A change of sign, of the zeros too. -/
def neg : Scalar → Scalar
  | finite q => if q = 0 then negZero else finite (-q)
  | negZero => finite 0
  | inf negative => inf (!negative)
  | nan => nan

/-- A zero takes the given sign; every other number keeps its own. -/
def signZero (negative : Bool) : Scalar → Scalar
  | finite q => if negative ∧ q = 0 then negZero else finite q
  | x => x

end Scalar

end BlockStage
