import BlockStage.Value

/-! # Settings of a stage

    The playfield, its bounds, the timings in milliseconds and the loop
    ceiling.  Settings are values as they were given: whether one makes
    sense is found out where it is used.  A mode that is neither grid nor
    canvas has turns compiled as they are and lets agents walk as on the
    grid. -/

namespace BlockStage

/-- The kind of playfield. -/
inductive Mode where
  | grid
  | canvas
  | other (v : Value)

namespace Mode

/-- A mode as a value. -/
def toValue : Mode → Value
  | grid => .str "grid"
  | canvas => .str "canvas"
  | other v => v

/-- The mode of a value. -/
def ofValue : Value → Mode
  | .str "grid" => grid
  | .str "canvas" => canvas
  | v => other v

/-- Whether turns are quarter turns. -/
def isGrid : Mode → Bool
  | grid => true
  | _ => false

end Mode

/-- The settings of one stage. -/
structure Config where
  /-- The kind of playfield. -/
  mode : Mode
  /-- Pixels of one step on the canvas. -/
  unitStepPixels : Value
  /-- How long a step on the grid takes. -/
  stepMs : Value
  /-- How long a turn takes. -/
  turnMs : Value
  /-- How long a move on the canvas takes. -/
  moveMs : Value
  /-- How long a message stays. -/
  sayMs : Value
  /-- The time between two frames of an animation. -/
  frameMs : Value
  /-- What waiting times are multiplied by. -/
  waitScale : Value
  /-- The greatest number of passes of any loop. -/
  loopCeiling : Value
  /-- Columns of the grid. -/
  gridColumns : Value
  /-- Rows of the grid. -/
  gridRows : Value
  /-- Width of the canvas in pixels. -/
  canvasWidth : Value
  /-- Height of the canvas in pixels. -/
  canvasHeight : Value
  /-- The margin that agents keep from the edges of the canvas. -/
  canvasMargin : Value

namespace Config

/-- The settings the activities were tuned with. -/
def standard : Config where
  mode := .grid
  unitStepPixels := .real (.finite 3)
  stepMs := 280
  turnMs := 168
  moveMs := 300
  sayMs := 1200
  frameMs := 16
  waitScale := .real (.finite 1)
  loopCeiling := 100
  gridColumns := 10
  gridRows := 10
  canvasWidth := 480
  canvasHeight := 400
  canvasMargin := 20

/-- The same settings with all delays taken out. -/
def instant : Config :=
  { standard with
    stepMs := 0, turnMs := 0, moveMs := 0, sayMs := 0, frameMs := 0,
    waitScale := 0 }

end Config

end BlockStage
