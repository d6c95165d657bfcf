import BlockStage.Value.Order

/-! # Agents and goals

    An agent stands at a position, has a heading, may show a message and
    remembers whether it reached the goal and where it started.  On the
    grid a position is a column and a row, row 0 at the bottom; on the
    canvas it is measured in pixels, downwards.  A host may give an agent
    any values, so all of them are kept as they are.  `latchGoal` is the
    only way a run sets the goal flag, and nothing in a run clears it. -/

namespace BlockStage

/-- A place on the playfield: two values, unless a host has put something
    else there. -/
abbrev Position := List Value

/-- The two values of a place. -/
abbrev Point := Value × Value

/-- The place of a point. -/
def Point.position (p : Point) : Position := [p.1, p.2]

/-- A place as messages quote it. -/
def Position.text : Position → String
  | [v] => "(" ++ v.text ++ ",)"
  | p => "(" ++ ", ".intercalate (p.map Value.text) ++ ")"

/-- A rectangle, its edges included.  The bounds are values as they were
    read. -/
structure GoalRegion where
  xMin : Value
  yMin : Value
  xMax : Value
  yMax : Value

namespace GoalRegion

/-- The rectangle of a single cell. -/
def cell (col row : Value) : GoalRegion := ⟨col, row, col, row⟩

/-- Whether a value lies between two others; the second is looked at only
    if the first allows it. -/
def between (low v high : Value) : Except OperandFault Bool := do
  if ← low.le v then v.le high else return false

/-- Whether a position lies in the rectangle. -/
def contains (g : GoalRegion) (p : Position) :
    Except OperandFault Bool := do
  let (x, y) ← Value.pairOf p
  if ← between g.xMin x g.xMax then between g.yMin y g.yMax
  else return false

/-- A rectangle whose bounds are all numbers. -/
def isNumeric (g : GoalRegion) : Bool :=
  g.xMin.number?.isSome && g.yMin.number?.isSome
    && g.xMax.number?.isSome && g.yMax.number?.isSome

/-- A rectangle as an object. -/
def toValue (g : GoalRegion) : Value :=
  .object [("x_min", g.xMin), ("y_min", g.yMin), ("x_max", g.xMax),
    ("y_max", g.yMax)]

/-- The bound of a rectangle under a name; the name itself if it is
    missing. -/
def bound (ms : Members) (name : String) : Except String Value :=
  match ms.get? name with
  | some v => .ok v
  | none => .error name

/-- A rectangle read from an object: a cell, or four bounds.  A missing
    bound is reported by its name. -/
def ofMembers (ms : Members) : Except String GoalRegion :=
  match ms.get? "col", ms.get? "row" with
  | some col, some row => .ok (cell col row)
  | _, _ => do
      let xMin ← bound ms "x_min"
      let yMin ← bound ms "y_min"
      let xMax ← bound ms "x_max"
      let yMax ← bound ms "y_max"
      return ⟨xMin, yMin, xMax, yMax⟩

end GoalRegion

/-- One agent on the stage. -/
structure Agent where
  /-- Its name. -/
  id : Value
  /-- Where it stands. -/
  position : Position
  /-- Where it looks, in degrees clockwise from north. -/
  heading : Value
  /-- The message it shows, or nothing. -/
  message : Value
  /-- Whether it has reached the goal. -/
  goalReached : Value
  /-- Where it starts. -/
  startPosition : Position
  /-- Where it looks at the start. -/
  startHeading : Value
deriving Inhabited

namespace Agent

/-- An agent at its start. -/
def atStart (id : Value) (position : Position) (heading : Value) : Agent :=
  ⟨id, position, heading, .null, .bool false, position, heading⟩

/-- Back to the start, with no message and no goal reached. -/
def reset (a : Agent) : Agent :=
  { a with
    position := a.startPosition, heading := a.startHeading,
    message := .null, goalReached := .bool false }

/-- The goal flag set if the agent stands in the goal; it is never
    cleared. -/
def latchGoal (a : Agent) (goal : Option GoalRegion) :
    Except OperandFault Agent :=
  match goal with
  | none => .ok a
  | some g =>
      if a.goalReached.holds then .ok a
      else do
        if ← g.contains a.position then
          return { a with goalReached := .bool true }
        else return a

/-- An agent as an object. -/
def toValue (a : Agent) : Value :=
  .object [("agent_id", a.id), ("position", .list a.position),
    ("heading", a.heading), ("transient_message", a.message),
    ("goal_reached", a.goalReached)]

end Agent

end BlockStage
