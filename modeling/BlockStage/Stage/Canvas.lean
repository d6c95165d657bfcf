import BlockStage.Stage.Grid

/-! # Moving on the canvas

    Positions are pixels, counted downwards, and heading 0 points up.  A
    move ends where its length along the heading leads, brought into the
    canvas once.  On the way there, and through a turn, values follow an
    ease-out curve that is steep at first and flat at the end. -/

namespace BlockStage

variable [Arithmetic]

/-- A point brought onto the canvas, inset by the margin. -/
def insetPoint (c : Config) (p : Point) : Except OperandFault Point := do
  let x ← p.1.clamp c.canvasMargin (← c.canvasWidth.sub c.canvasMargin)
  let y ← p.2.clamp c.canvasMargin (← c.canvasHeight.sub c.canvasMargin)
  return (x, y)

/-- A position brought onto the canvas, inset by the margin. -/
def clampToCanvas (c : Config) (p : Position) :
    Except OperandFault Point := do
  insetPoint c (← Value.pairOf p)

/-- The radians of one degree. -/
def degreeInRadians : Scalar :=
  Binary64.nearest (mkRat 17453292519943295 (Nat.pow 10 18))

/-- A function of an angle that is finite or no number. -/
def ofAngle (f : Scalar → Scalar) : Scalar → Except NumberFault Scalar
  | .inf _ => .error .infiniteAngle
  | x => .ok (f x)

/-- Where a move of a number of steps ends. -/
def canvasTarget (c : Config) (p : Position) (heading distance : Value) :
    Except OperandFault Point := do
  let radians := (← (← heading.sub 90).measure).mul degreeInRadians
  let (x, y) ← Value.pairOf p
  let length ← distance.mul c.unitStepPixels
  let along ← Value.calculate (ofAngle Arithmetic.cos radians)
  let x ← x.add (← (Value.real along).mul length)
  let across ← Value.calculate (ofAngle Arithmetic.sin radians)
  let y ← y.add (← (Value.real across).mul length)
  insetPoint c (x, y)

/-- The middle of the canvas. -/
def canvasCenter (c : Config) : Except OperandFault Point := do
  return (.real (← c.canvasWidth.div 2), .real (← c.canvasHeight.div 2))

/-- A position brought onto the playfield of the mode. -/
def clampPosition (c : Config) (p : Position) :
    Except OperandFault Point :=
  match c.mode with
  | .canvas => clampToCanvas c p
  | _ => clampToGrid c p

/-- One less the third power of what is left to one: 0 at 0, 1 at 1, and
    outside as at the nearer end. -/
def easeOut (t : Value) : Except OperandFault Scalar := do
  let one : Scalar := .finite 1
  let t ← (Value.real (.finite 0)).max (← (Value.real one).min t)
  return one.sub (Arithmetic.cube (one.sub (← t.measure)))

/-- The value on the way from one to another. -/
def interpolate (start finish t : Value) : Except OperandFault Value := do
  let way ← finish.sub start
  start.add (← way.mul (.real (← easeOut t)))

end BlockStage
