import BlockStage.Stage.Config
import BlockStage.Value.Order
import BlockStage.Text.Upper
import BlockStage.Text.Quoted
import BlockStage.Number.Reading

/-! # Settings taken from the environment

    Each setting has a variable of its own.  A number that is not set, or
    set to the empty text, keeps its default; the mode and the level of the
    log are texts, whose empty form counts.  The variables are looked at in
    a fixed order, and only then the values are judged. -/

namespace BlockStage

/-- The variables of an environment. -/
abbrev Environment := List (String × String)

/-- Why the settings cannot be used. -/
inductive SettingFault where
  /-- A variable writes no number. -/
  | notNumber (name raw : String)
  /-- A variable writes no count. -/
  | notCount (name raw : String)
  /-- The mode is neither of the two. -/
  | unknownMode (raw : String)
  /-- The loop ceiling is less than one. -/
  | ceilingTooLow
deriving DecidableEq

/-- The wording of a fault. -/
def SettingFault.message : SettingFault → String
  | .notNumber name raw =>
      name ++ " must be a number, got " ++ Text.quoted raw
  | .notCount name raw =>
      name ++ " must be an integer, got " ++ Text.quoted raw
  | .unknownMode raw =>
      "ROBOLAB_MODE must be 'grid' or 'canvas', got " ++ Text.quoted raw
  | .ceilingTooLow => "ROBOLAB_LOOP_ITERATION_CEILING must be at least 1"

/-- A text that counts as not set. -/
def isUnset (raw : Option String) : Bool :=
  raw.getD "" = ""

/-- A number setting. -/
def numberSetting (name : String) (raw : Option String) (default : Value) :
    Except SettingFault Value :=
  if isUnset raw then .ok default
  else
    let raw := raw.getD ""
    match Reading.readMeasure? raw with
    | some x => .ok (.real x)
    | none => .error (.notNumber name raw)

/-- A count setting. -/
def countSetting (name : String) (raw : Option String) (default : Value) :
    Except SettingFault Value :=
  if isUnset raw then .ok default
  else
    let raw := raw.getD ""
    match Reading.readCount? raw with
    | some n => .ok (.int n)
    | none => .error (.notCount name raw)

/-- What the environment decides. -/
structure Settings where
  /-- The settings of the stage. -/
  config : Config
  /-- The least level of the log that is written, by name. -/
  logLevel : String

namespace Settings

/-- The names of the variables, in the order in which they are read. -/
def variableNames : List String :=
  ["ROBOLAB_MODE", "ROBOLAB_GRID_COLUMNS", "ROBOLAB_GRID_ROWS",
    "ROBOLAB_CANVAS_WIDTH", "ROBOLAB_CANVAS_HEIGHT",
    "ROBOLAB_CANVAS_MARGIN", "ROBOLAB_UNIT_STEP_PIXELS",
    "ROBOLAB_ANIMATION_STEP_DURATION_MS",
    "ROBOLAB_TURN_ANIMATION_DURATION_MS",
    "ROBOLAB_MOVE_ANIMATION_DURATION_MS",
    "ROBOLAB_SAY_DISPLAY_DURATION_MS", "ROBOLAB_FRAME_INTERVAL_MS",
    "ROBOLAB_WAIT_TIME_SCALE", "ROBOLAB_LOOP_ITERATION_CEILING",
    "ROBOLAB_LOG_LEVEL"]

/-- The settings before they are judged. -/
def gather (env : Environment) : Except SettingFault Settings := do
  let number (name : String) (default : Value) :=
    numberSetting name (env.lookup name) default
  let count (name : String) (default : Value) :=
    countSetting name (env.lookup name) default
  let std := Config.standard
  let gridColumns ← count "ROBOLAB_GRID_COLUMNS" std.gridColumns
  let gridRows ← count "ROBOLAB_GRID_ROWS" std.gridRows
  let canvasWidth ← number "ROBOLAB_CANVAS_WIDTH" std.canvasWidth
  let canvasHeight ← number "ROBOLAB_CANVAS_HEIGHT" std.canvasHeight
  let canvasMargin ← number "ROBOLAB_CANVAS_MARGIN" std.canvasMargin
  let unitStepPixels ← number "ROBOLAB_UNIT_STEP_PIXELS" 3
  let stepMs ← number "ROBOLAB_ANIMATION_STEP_DURATION_MS" std.stepMs
  let turnMs ← number "ROBOLAB_TURN_ANIMATION_DURATION_MS" std.turnMs
  let moveMs ← number "ROBOLAB_MOVE_ANIMATION_DURATION_MS" std.moveMs
  let sayMs ← number "ROBOLAB_SAY_DISPLAY_DURATION_MS" std.sayMs
  let frameMs ← number "ROBOLAB_FRAME_INTERVAL_MS" std.frameMs
  let waitScale ← number "ROBOLAB_WAIT_TIME_SCALE" std.waitScale
  let loopCeiling ← count "ROBOLAB_LOOP_ITERATION_CEILING" std.loopCeiling
  let mode := Mode.ofValue (.str ((env.lookup "ROBOLAB_MODE").getD "grid"))
  let logLevel :=
    Text.upper ((env.lookup "ROBOLAB_LOG_LEVEL").getD "WARNING")
  return ⟨⟨mode, unitStepPixels, stepMs, turnMs, moveMs, sayMs, frameMs,
    waitScale, loopCeiling, gridColumns, gridRows, canvasWidth,
    canvasHeight, canvasMargin⟩, logLevel⟩

/-- Settings whose mode is known and whose loop ceiling is usable. -/
def judge (s : Settings) : Except SettingFault Settings :=
  match s.config.mode with
  | .other v => .error (.unknownMode v.plain)
  | _ =>
      match s.config.loopCeiling.lt 1 with
      | .ok false => .ok s
      | _ => .error .ceilingTooLow

/-- The settings of an environment. -/
def ofEnvironment (env : Environment) : Except SettingFault Settings := do
  (← gather env).judge

end Settings

end BlockStage
