import BlockStage.Run.Fault

/-! # Log lines

    What the parts of the engine report while they work, from details to
    errors.  A line is worded by whoever writes the log, if at all, and
    never by the one who reports it: a line that has no wording, because a
    count in it is too long to be written out, is left out of the log, and
    nothing else comes of it. -/

namespace BlockStage

/-- How much a line matters. -/
inductive Level where
  | debug
  | info
  | warning
  | error
deriving DecidableEq

/-- The part of the engine that reports. -/
inductive Reporter where
  | interpreter
  | guard
  | coordinator
deriving DecidableEq

/-- The written name of a part, which its lines begin with. -/
def Reporter.name : Reporter → String
  | interpreter => "interpreter"
  | guard => "guard"
  | coordinator => "coordinator"

/-- The written name of a level. -/
def Level.name : Level → String
  | debug => "DEBUG"
  | info => "INFO"
  | warning => "WARNING"
  | error => "ERROR"

/-- One line of the log. -/
structure LogLine where
  /-- How much it matters. -/
  level : Level
  /-- Who reports. -/
  reporter : Reporter
  /-- What is reported, or why it cannot be put into words. -/
  report : Except RunFault String

/-- How much a level matters, as a number. -/
def Level.severity : Level → Nat
  | debug => 10
  | info => 20
  | warning => 30
  | error => 40

/-- A line as it is written, if it can be: level, channel and wording. -/
def LogLine.full? (l : LogLine) : Option String :=
  l.report.toOption.map fun what =>
    l.level.name ++ " robolab.kernel." ++ l.reporter.name ++ ": "
      ++ l.reporter.name ++ ": " ++ what

end BlockStage
