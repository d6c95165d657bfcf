import BlockStage.Number.Num
import BlockStage.Number.Shortest

/-! # Numbers as texts

    A layout says where positional notation ends and whether a whole
    measure keeps a zero after the point.  `Layout.plain` is the layout of
    values and messages, `Layout.general` the one of traces and turn
    angles, which also fixes six significant digits.  `Scalar.fixed`
    writes a given count of places. -/

namespace BlockStage

/-- How the digits of a measure are laid out. -/
structure Layout where
  /-- Numbers below ten to this power are written with an exponent. -/
  lowest : Int
  /-- So are numbers from ten to this power on. -/
  highest : Int
  /-- Whether a whole number ends in a point and a zero. -/
  pointZero : Bool

namespace Layout

/-- Positional from `10 ^ -4` up to `10 ^ 16`, always with a point. -/
def plain : Layout := ⟨-4, 16, true⟩

/-- Positional from `10 ^ -4` up to `10 ^ 6`, a point only before
    digits. -/
def general : Layout := ⟨-4, 6, false⟩

/-- The exponent mark: a sign and at least two digits. -/
def exponentMark (k : Int) : String :=
  let digits := toString k.natAbs
  (if k < 0 then "e-" else "e+")
    ++ (if digits.length < 2 then "0" ++ digits else digits)

/-- A decimal without zeros at its end, as digits and the power of ten of
    the first one. -/
def digitsOf (d : Decimal) : List Char × Int :=
  let all := (toString d.units).toList
  let kept := (all.reverse.dropWhile (· = '0')).reverse
  (kept, d.exponent + (all.length : Int) - 1)

/-- A decimal laid out, without a sign. -/
def render (l : Layout) (d : Decimal) : String :=
  let (ds, k) := digitsOf d
  if k < l.lowest ∨ l.highest ≤ k then
    String.ofList (ds.take 1)
      ++ (if 1 < ds.length then "." ++ String.ofList (ds.drop 1) else "")
      ++ exponentMark k
  else if k < 0 then
    "0." ++ String.ofList (List.replicate (-k - 1).toNat '0' ++ ds)
  else
    let whole := (k + 1).toNat
    let front := ds.take whole ++ List.replicate (whole - ds.length) '0'
    let back := ds.drop whole
    String.ofList front
      ++ (if back = [] then (if l.pointZero then ".0" else "")
        else "." ++ String.ofList back)

end Layout

namespace Scalar

/-- The sign in front of a number, the plus only on demand. -/
def signMark (plus : Bool) (x : Scalar) : String :=
  if x.isNegative then "-" else if plus then "+" else ""

/-- A measure laid out, with its digits chosen by `digits`. -/
def layOut (l : Layout) (digits : Rat → Decimal) (zero : String)
    (plus : Bool) : Scalar → String
  | nan => signMark plus nan ++ "nan"
  | inf negative => signMark plus (inf negative) ++ "inf"
  | negZero => "-" ++ zero
  | finite q =>
      signMark plus (finite q)
        ++ (if q = 0 then zero
          else l.render (digits (if q < 0 then -q else q)))

/-- The fewest digits that read back. -/
def text (x : Scalar) : String :=
  x.layOut Layout.plain Decimal.shortest "0.0" false

/-- Six significant digits, a plus sign on demand. -/
def general (plus : Bool) (x : Scalar) : String :=
  x.layOut Layout.general (Decimal.significant 6) "0" plus

/-- A given count of places after the point, a half going to the even
    neighbour. -/
def fixed (places : Nat) : Scalar → String
  | nan => "nan"
  | inf negative => signMark false (inf negative) ++ "inf"
  | x =>
      let q := x.value
      let n := nearestEven (q.num.natAbs * Nat.pow 10 places) q.den
      let fraction := toString (n % Nat.pow 10 places)
      signMark false x ++ toString (n / Nat.pow 10 places)
        ++ (if places = 0 then ""
          else "." ++ String.ofList
            (List.replicate (places - fraction.length) '0') ++ fraction)

/-- The measure nearest to a number rounded to a count of places, a half
    going to the even neighbour. -/
def roundTo [Arithmetic] (places : Nat) : Scalar → Scalar
  | finite q =>
      signZero (q < 0)
        (Arithmetic.round
          (mkRat (roundEven (q * tenTo places)) (Nat.pow 10 places)))
  | x => x

end Scalar

namespace Num

/-- A number as values and messages show it. -/
def text : Num → String
  | int n => toString n
  | real x => x.text

/-- A measure rounded to a count of places; a count stays as it is. -/
def roundTo [Arithmetic] (places : Nat) : Num → Num
  | int n => int n
  | real x => real (x.roundTo places)

/-- Six significant digits, a plus sign on demand. -/
def general [Arithmetic] (plus : Bool) (a : Num) :
    Except NumberFault String :=
  a.measure.map (Scalar.general plus)

end Num

end BlockStage
