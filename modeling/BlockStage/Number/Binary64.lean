import BlockStage.Number.Nearest
import BlockStage.Number.Scalar

/-! # Doubles — the ratios with 53 significant bits

    `Binary64.nearest` takes an exact ratio to the double nearest to it,
    a tie to the even significand, and past the largest double to an
    infinity.  The unit of the result is chosen first: the power of two
    that leaves 53 bits, but none below the smallest subnormal.  Bit
    patterns are read and written for the three functions that the
    mathematical library supplies: sine, cosine and cube. -/

namespace BlockStage

namespace Binary64

/-- The least exponent of a unit: the smallest subnormal is `2 ^ -1074`. -/
def leastExponent : Int := -1074

/-- Two to a power of either sign. -/
def twoTo (e : Int) : Rat :=
  if 0 ≤ e then ((Nat.pow 2 e.toNat : Nat) : Rat)
  else mkRat 1 (Nat.pow 2 (-e).toNat)

/-- The exponent of the unit of the double nearest to `a / d`: 53 bits
    stand before the point, or fewer below the normal range. -/
def unitExponent (a d : Nat) : Int :=
  let guess := (Nat.log2 a : Int) - Nat.log2 d - 53
  let quotient :=
    if 0 ≤ guess then a / (d * Nat.pow 2 guess.toNat)
    else a * Nat.pow 2 (-guess).toNat / d
  max (if quotient < Nat.pow 2 53 then guess else guess + 1) leastExponent

/-- The significand of the double nearest to `a / d` in units of
    `2 ^ e`. -/
def significand (a d : Nat) (e : Int) : Nat :=
  if 0 ≤ e then nearestEven a (d * Nat.pow 2 e.toNat)
  else nearestEven (a * Nat.pow 2 (-e).toNat) d

/-- The double nearest to a ratio; a tie goes to the even significand and
    what reaches `2 ^ 1024` to an infinity. -/
def nearest (q : Rat) : Scalar :=
  if q = 0 then .finite 0
  else
    let a := q.num.natAbs
    let e := unitExponent a q.den
    let m := significand a q.den e
    if 0 ≤ e ∧ Nat.pow 2 1024 ≤ m * Nat.pow 2 e.toNat then .inf (q < 0)
    else
      let size : Rat :=
        if 0 ≤ e then ((m * Nat.pow 2 e.toNat : Nat) : Rat)
        else mkRat m (Nat.pow 2 (-e).toNat)
      .finite (if q < 0 then -size else size)

/-- The double with a given bit pattern. -/
def ofBits (bits : UInt64) : Scalar :=
  let w := bits.toNat
  let negative := w / Nat.pow 2 63 = 1
  let exponent : Nat := w / Nat.pow 2 52 % Nat.pow 2 11
  let fraction : Nat := w % Nat.pow 2 52
  if exponent = 2047 then
    if fraction = 0 then .inf negative else .nan
  else
    let m : Nat := if exponent = 0 then fraction else Nat.pow 2 52 + fraction
    let e : Int := (max exponent 1 : Nat) - 1075
    let size : Rat := (m : Rat) * twoTo e
    if m = 0 then (if negative then .negZero else .finite 0)
    else .finite (if negative then -size else size)

/-- The bit pattern of a double.  A ratio that is none is taken to the
    nearest one first. -/
def toBits (x : Scalar) : UInt64 :=
  match x with
  | .nan => 0x7FF8000000000000
  | .inf negative => if negative then 0xFFF0000000000000 else 0x7FF0000000000000
  | .negZero => 0x8000000000000000
  | .finite q =>
      if q = 0 then 0
      else
        let a := q.num.natAbs
        let e := unitExponent a q.den
        let m := significand a q.den e
        let magnitude : Nat :=
          if m < Nat.pow 2 52 then m
          else (e + 1074).toNat * Nat.pow 2 52 + m
        .ofNat (magnitude + if q < 0 then Nat.pow 2 63 else 0)

/-- A function of doubles, carried to measured numbers by their bits. -/
def lift (f : Float → Float) (x : Scalar) : Scalar :=
  ofBits (f (Float.ofBits (toBits x))).toBits

end Binary64

end BlockStage
