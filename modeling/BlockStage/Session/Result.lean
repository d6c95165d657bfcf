import BlockStage.Compile.Warning

/-! # The result of a session

    Who reached the goal, who failed and why, how long it took and whether
    it was cut short.  The report names the warnings of each agent by code,
    wording and place, and the time in thousandths of a second. -/

namespace BlockStage

/-- A warning as results carry it. -/
structure WarningReport where
  /-- Its code. -/
  code : String
  /-- Its wording. -/
  message : String
  /-- The place it is about, in writing. -/
  path : String
  /-- Its details, if it has any. -/
  details : Option Members

/-- A compile warning as results carry it. -/
def Warning.report (w : Warning) : WarningReport :=
  ⟨w.code, w.message, w.path.text, w.complaint.details⟩

/-- A reported warning as an object, without its details. -/
def WarningReport.toValue (w : WarningReport) : Value :=
  .object [("code", .str w.code), ("message", .str w.message),
    ("path", .str w.path)]

/-- The outcome of one session. -/
structure SessionResult where
  /-- How many agents reached the goal. -/
  reachedCount : Int
  /-- How many agents there are. -/
  totalAgents : Int
  /-- Whether there are agents and all reached the goal. -/
  allReached : Bool
  /-- The agents that reached the goal, in their order. -/
  reached : List String
  /-- The agents that failed, each with the text of its error. -/
  failed : List (String × String)
  /-- How long the session took. -/
  elapsedSeconds : Num
  /-- Whether the session was cancelled. -/
  cancelled : Bool
  /-- The compile warnings of each agent that has any. -/
  warnings : List (String × List WarningReport)

/-- A result as an object, from what it says. -/
def resultObject (reachedCount totalAgents allReached : Value)
    (reached : List Value) (failed : Members)
    (elapsedSeconds cancelled : Value)
    (warnings : List (String × List Value)) : Value :=
  .object [("reached_count", reachedCount), ("total_agents", totalAgents),
    ("all_reached", allReached), ("reached", .list reached),
    ("failed", .object failed), ("elapsed_seconds", elapsedSeconds),
    ("cancelled", cancelled),
    ("warnings", .object (warnings.map fun w => (w.1, .list w.2)))]

/-- A result as an object. -/
def SessionResult.toValue [Arithmetic] (r : SessionResult) : Value :=
  resultObject (.int r.reachedCount) (.int r.totalAgents)
    (.bool r.allReached) (r.reached.map .str)
    (r.failed.map fun f => (f.1, .str f.2))
    (.num (r.elapsedSeconds.roundTo 3)) (.bool r.cancelled)
    (r.warnings.map fun w => (w.1, w.2.map WarningReport.toValue))

end BlockStage
