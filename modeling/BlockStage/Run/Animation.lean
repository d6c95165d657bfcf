import BlockStage.Stage.Canvas

/-! # Animation — values sampled frame by frame

    A frame shows the share of the duration that has passed on the clock,
    at most one; a duration of nothing or less has one frame, which shows
    one.  Between two frames the clock moves on by the frame interval.
    The frame that shows one is the last. -/

namespace BlockStage

/-- A moment on the clock, in seconds. -/
abbrev Time := Scalar

variable [Arithmetic]

/-- The share of a duration that has passed since a start. -/
def progressAt (durationMs : Value) (started now : Time) :
    Except OperandFault Num := do
  if ← durationMs.le 0 then return .real (.finite 1)
  else
    let elapsed ← (Value.real (now.sub started)).mul 1000
    let share ← elapsed.div durationMs
    return (Num.real share).min (.real (.finite 1))

/-- Whether a share is all of it. -/
def isComplete (progress : Num) : Bool :=
  (Scalar.finite 1).le progress.exact

/-- The clock after a sleep: nothing or less takes no time. -/
def Time.after (now : Time) (seconds : Scalar) : Time :=
  if seconds.le (.finite 0) then now
  else
    let due := now.add seconds
    if now.lt due then due else now

/-- One frame of an animation. -/
structure Frame where
  /-- When it was shown. -/
  time : Time
  /-- What share of the duration had passed. -/
  progress : Num
deriving DecidableEq

/-- The frames of an animation that started at `started`, from `now` on,
    at most `fuel` of them. -/
def framesFrom (durationMs intervalMs : Value) (started : Time) :
    Nat → Time → Except OperandFault (List Frame)
  | 0, _ => .ok []
  | fuel + 1, now => do
      let progress ← progressAt durationMs started now
      if isComplete progress then return [⟨now, progress⟩]
      else
        let pause ← intervalMs.div 1000
        let rest ← framesFrom durationMs intervalMs started fuel
          (Time.after now pause)
        return ⟨now, progress⟩ :: rest

end BlockStage
