import BlockStage.Run.Fault
import BlockStage.Stage.Agent
import BlockStage.Stage.Config
import BlockStage.Value.Arithmetic

/-! # Moving on the grid

    Cells are counted from the lower left corner.  A step leads to the
    neighbour cell in the direction of the heading and stops at the edge.
    Headings are the four quarters; a turn adds to the heading, keeps the
    whole part and goes round at 360. -/

namespace BlockStage

/-- The four headings, clockwise from north. -/
def isCardinal (n : Int) : Bool :=
  n = 0 ∨ n = 90 ∨ n = 180 ∨ n = 270

/-- Column and row that one step adds. -/
def stepVector? (heading : Num) : Option (Int × Int) :=
  if heading.same 0 then some (0, 1)
  else if heading.same 90 then some (1, 0)
  else if heading.same 180 then some (0, -1)
  else if heading.same 270 then some (-1, 0)
  else none

/-- A value brought between 0 and `last`, as a cell index. -/
def cellIndex (v last : Value) : Except OperandFault Int := do
  (← v.clamp 0 last).whole

variable [Arithmetic]

/-- A position brought onto the grid. -/
def clampToGrid (c : Config) (p : Position) :
    Except OperandFault Point := do
  let (col, row) ← Value.pairOf p
  let col ← cellIndex col (← c.gridColumns.sub 1)
  let row ← cellIndex row (← c.gridRows.sub 1)
  return (.int col, .int row)

/-- The cell one step away, stopped at the edge. -/
def neighbour (c : Config) (p : Position) (dCol dRow : Int) :
    Except OperandFault Point := do
  let (col, row) ← Value.pairOf p
  let col ← cellIndex (← col.add (.int dCol)) (← c.gridColumns.sub 1)
  let row ← cellIndex (← row.add (.int dRow)) (← c.gridRows.sub 1)
  return (.int col, .int row)

/-- One step along a heading, stopped at the edge. -/
def gridStep (c : Config) (p : Position) (heading : Value) :
    Except RunFault Point := do
  let heading ← operate heading.key
  match heading.number?.bind stepVector? with
  | none => throw (.about .badHeading heading)
  | some (dCol, dRow) => operate (neighbour c p dCol dRow)

/-- Whether a number of degrees is a whole number of quarter turns. -/
def isQuarterTurns (degrees : Value) : Bool :=
  (degrees.number?.map (Num.isMultipleOf 90)).getD false

/-- A heading turned clockwise by a signed number of degrees. -/
def gridTurn (heading degrees : Value) : Except RunFault Int := do
  let finite ← operate degrees.isFinite
  if ¬ finite ∨ ¬ isQuarterTurns degrees then
    throw (.about .notQuarterTurns degrees)
  let turned ← operate do (← heading.add degrees).whole
  let result := turned % 360
  if isCardinal result then return result
  else throw (.badHeading (.int result))

end BlockStage
