import BlockStage.Stage.Misfit

/-! # Faults of a run

    Why an instruction, a snapshot or a goal test failed.  A fault that
    would have to show a count too long to be written out becomes
    `illegible` instead: `RunFault.about` makes that choice. -/

namespace BlockStage

/-- Why a run failed. -/
inductive RunFault where
  /-- An operation on values has no result. -/
  | operand (f : OperandFault)
  /-- The distance of a move is not positive and finite. -/
  | badDistance (v : Value)
  /-- A move on the grid is no whole number of steps. -/
  | brokenStep (v : Value)
  /-- The angle of a turn is not finite. -/
  | badAngle (v : Value)
  /-- A turn on the grid is no multiple of a quarter. -/
  | notQuarterTurns (v : Value)
  /-- A heading on the grid is not one of the four. -/
  | badHeading (v : Value)
  /-- A wait is not finite or less than nothing. -/
  | badWait (v : Value)
  /-- The count of a loop is no count. -/
  | countNotInteger (v : Value)
  /-- The count of a loop is negative. -/
  | countNegative (n : Int)
  /-- The loop ceiling is less than one. -/
  | badCeiling (v : Value)
  /-- A value in the program is no instruction. -/
  | notAnInstruction (v : Value)
  /-- A state or an announcement is no valid record. -/
  | badRecord (name : String) (misfits : List Misfit)
  /-- The observer of the run raised an error. -/
  | observerFailed
  /-- A count is too long to be written out. -/
  | illegible

namespace RunFault

/-- The wording of a fault. -/
def message : RunFault → String
  | operand f => f.message
  | badDistance v =>
      "Move distance must be a positive finite number, got " ++ v.text
  | brokenStep v => "Grid moves must be whole steps, got " ++ v.text
  | badAngle v => "Turn angle must be a finite number, got " ++ v.text
  | notQuarterTurns v =>
      "Grid turns must be multiples of 90 degrees, got " ++ v.text
  | badHeading v =>
      "Grid heading must be one of (0, 90, 180, 270), got " ++ v.text
  | badWait v =>
      "Wait must be a non-negative finite number of seconds, got " ++ v.text
  | countNotInteger v => "Loop count must be an integer, got " ++ v.text
  | countNegative n => "Loop count must not be negative, got " ++ toString n
  | badCeiling v => "Loop ceiling must be at least 1, got " ++ v.plain
  | notAnInstruction v => "Unknown instruction: " ++ v.text
  | badRecord name misfits => Misfit.report name misfits
  | observerFailed => "sink failed"
  | illegible =>
      "Exceeds the limit (4300 digits) for integer string conversion; "
        ++ "use sys.set_int_max_str_digits() to increase the limit"

/-- The state of an agent is no valid snapshot. -/
def badSnapshot (misfits : List Misfit) : RunFault :=
  badRecord "AgentSnapshot" misfits

/-- The time a session took cannot be announced. -/
def badDuration (elapsed : Num) : RunFault :=
  badRecord "CompletionEvent"
    [⟨["elapsed_seconds"], .belowZero, .num elapsed⟩]

/-- A fault that shows a value, if the value can be written out. -/
def about (fault : Value → RunFault) (v : Value) : RunFault :=
  if v.legible then fault v else illegible

/-- The fault of a negative loop count. -/
def negativeCount (n : Int) : RunFault :=
  if Value.legibleInt n then countNegative n else illegible

end RunFault

/-- An operation on values as part of a run. -/
def operate {α : Type} (x : Except OperandFault α) : Except RunFault α :=
  x.mapError .operand

end BlockStage
