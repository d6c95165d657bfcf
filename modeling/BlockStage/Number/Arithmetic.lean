import BlockStage.Number.Binary64

/-! # Arithmetic — exact results brought back to representable numbers

    Each operation on measured numbers is the exact operation on ratios
    followed by one rounding.  What rounding means, and the three
    functions with no exact ratio, are the parameter `Arithmetic`:
    `Arithmetic.binary64` is the arithmetic of doubles,
    `Arithmetic.exact` keeps every ratio as it is. -/

namespace BlockStage

/-- How exact results become representable numbers, and the functions
    whose exact results are no ratios. -/
class Arithmetic where
  /-- The representable number nearest to a ratio. -/
  round : Rat → Scalar
  /-- The sine of an angle in radians. -/
  sin : Scalar → Scalar
  /-- The cosine of an angle in radians. -/
  cos : Scalar → Scalar
  /-- The third power. -/
  cube : Scalar → Scalar

namespace Arithmetic

/-- The arithmetic of doubles. -/
@[reducible] def binary64 : Arithmetic where
  round := Binary64.nearest
  sin := Binary64.lift Float.sin
  cos := Binary64.lift Float.cos
  cube := Binary64.lift (fun x => Float.pow x 3.0)

/-- The third power, exactly. -/
def exactCube : Scalar → Scalar
  | .finite q => .finite (q * q * q)
  | x => x

/-- Exact arithmetic over given sine and cosine functions. -/
@[reducible] def exact (sin cos : Scalar → Scalar) : Arithmetic where
  round := .finite
  sin := sin
  cos := cos
  cube := exactCube

end Arithmetic

namespace Scalar

variable [Arithmetic]

/-- The sum.  Two zeros below give the zero below, any other vanishing sum
    the zero above. -/
def add : Scalar → Scalar → Scalar
  | nan, _ => nan
  | _, nan => nan
  | inf a, inf b => if a = b then inf a else nan
  | inf a, _ => inf a
  | _, inf b => inf b
  | negZero, negZero => negZero
  | x, y => Arithmetic.round (x.value + y.value)

/-- The difference. -/
def sub (x y : Scalar) : Scalar :=
  x.add y.neg

/-- The product.  A product that vanishes keeps the sign its factors
    give. -/
def mul (x y : Scalar) : Scalar :=
  let negative := x.isNegative != y.isNegative
  match x, y with
  | nan, _ => nan
  | _, nan => nan
  | inf _, y => if y.isZero then nan else inf negative
  | x, inf _ => if x.isZero then nan else inf negative
  | x, y => signZero negative (Arithmetic.round (x.value * y.value))

/-- The quotient; a quotient by zero is no number. -/
def div (x y : Scalar) : Scalar :=
  let negative := x.isNegative != y.isNegative
  match x, y with
  | nan, _ => nan
  | _, nan => nan
  | inf _, inf _ => nan
  | inf _, _ => inf negative
  | _, inf _ => signZero negative (finite 0)
  | x, y =>
      if y.isZero then nan
      else signZero negative (Arithmetic.round (x.value / y.value))

end Scalar

end BlockStage
