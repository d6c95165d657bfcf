import BlockStage.Stage.Canvas

/-! # Presets — the starting layouts of the two activities

    Four robots on a grid with one finish cell, and one sprite in the
    middle of a canvas.  A preset fixes the mode of the stage and leaves
    all other settings alone. -/

namespace BlockStage

/-- An agent of a layout. -/
structure AgentDef where
  /-- Its name in programs and results. -/
  agentId : String
  /-- Its name on the stage. -/
  name : String
  /-- Its colour. -/
  color : String
  /-- Its cell at the start; none for the middle of the canvas. -/
  start : Option (Int × Int)
  /-- Its heading at the start. -/
  heading : Int

/-- A starting layout. -/
structure Preset where
  /-- The name it is chosen by. -/
  name : String
  /-- The kind of playfield. -/
  mode : Mode
  /-- Where the finish is. -/
  goal : Option GoalRegion
  /-- The agents, in their order on the stage. -/
  agents : List AgentDef

namespace Preset

/-- Four robots and a finish cell. -/
def robotManual : Preset where
  name := "robot-manual"
  mode := .grid
  goal := some (.cell (.int 7) (.int 6))
  agents :=
    [⟨"merah", "Si Merah", "#ef4444", some (0, 8), 90⟩,
      ⟨"pink", "Si Pink", "#ec4899", some (1, 0), 0⟩,
      ⟨"hijau", "Si Hijau", "#22c55e", some (7, 0), 0⟩,
      ⟨"kuning", "Si Kuning", "#eab308", some (9, 9), 180⟩]

/-- One sprite on a canvas. -/
def canvas : Preset where
  name := "canvas"
  mode := .canvas
  goal := none
  agents := [⟨"sprite", "Kucing", "#FF9500", none, 0⟩]

/-- All layouts. -/
def all : List Preset := [robotManual, canvas]

/-- The layout of a name. -/
def named? (name : String) : Option Preset :=
  all.find? fun p => p.name = name

/-- The complaint about a name that no layout has. -/
def unknownMessage (name : Value) : String :=
  "Unknown preset: " ++ name.text ++ ". Valid presets: "
    ++ (Value.list (all.map fun p => .str p.name)).text

/-- Settings with the mode of the layout. -/
def config (p : Preset) (base : Config) : Config :=
  { base with mode := p.mode }

/-- Where an agent of a layout starts. -/
def startOf [Arithmetic] (c : Config) (d : AgentDef) :
    Except OperandFault Point :=
  match d.start with
  | some (col, row) => .ok (.int col, .int row)
  | none => canvasCenter c

/-- The agents at their starts. -/
def initialAgents [Arithmetic] (p : Preset) (c : Config) :
    Except OperandFault (List (String × Agent)) :=
  p.agents.mapM fun d => do
    let start ← startOf c d
    return (d.agentId,
      .atStart (.str d.agentId) start.position (.int d.heading))

end Preset

end BlockStage
