import BlockStage.Value

/-! # Snapshots — what an observer of a run is shown

    A snapshot is the state of an agent with all numbers measured and all
    words read; a completion tells that everyone has reached the goal.
    `Snapshot.line` is the line of a trace. -/

namespace BlockStage

/-- The state of an agent at one moment. -/
structure Snapshot where
  /-- The name of the agent. -/
  agentId : String
  /-- Where it stands. -/
  position : Scalar × Scalar
  /-- Where it looks. -/
  heading : Scalar
  /-- The message it shows. -/
  message : Option String
  /-- Whether it has reached the goal. -/
  goalReached : Bool
deriving DecidableEq

namespace Snapshot

/-- A text filled up with blanks on the right. -/
def padded (width : Nat) (s : String) : String :=
  s ++ .ofList (List.replicate (width - s.length) ' ')

/-- A snapshot as a line of a trace. -/
def line (s : Snapshot) : String :=
  let place :=
    "(" ++ s.position.1.general false ++ ", "
      ++ s.position.2.general false ++ ")"
  let message :=
    match s.message with
    | some m => if m = "" then "" else "  \"" ++ m ++ "\""
    | none => ""
  "  " ++ padded 8 s.agentId ++ " " ++ place ++ " ∠"
    ++ s.heading.general false ++ "°" ++ message
    ++ (if s.goalReached then "  [finish]" else "")

end Snapshot

/-- What is announced when every agent has reached the goal. -/
structure CompletionEvent where
  /-- How many agents reached it. -/
  reachedCount : Nat
  /-- How many agents there are. -/
  totalAgents : Nat
  /-- How long the session took. -/
  elapsedSeconds : Scalar
deriving DecidableEq

end BlockStage
