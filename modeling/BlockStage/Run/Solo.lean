import BlockStage.Run.Walker
import BlockStage.Stage.Record

/-! # A run on its own

    One agent, one program, a clock that only the agent's own sleeps move.
    The observer is shown every snapshot; it may lower the running flag,
    then it may sleep for a while, and in the end it may raise an error.
    Without an observer snapshots are not even made. -/

namespace BlockStage

/-- What somebody who has been called still has to do: to sleep, one time
    after another, and then perhaps to raise an error. -/
structure Errand where
  /-- The seconds of the sleeps to come. -/
  rests : List Scalar
  /-- Whether it raises an error in the end. -/
  fails : Bool
deriving DecidableEq

/-- What an observer does after it has recorded a snapshot. -/
structure Reaction extends Errand where
  /-- It lowers the running flag, before anything else. -/
  stops : Bool
deriving DecidableEq

/-- Whether snapshots are observed. -/
inductive ObserverMode where
  | absent
  | present
deriving DecidableEq

/-- The observer of a run. -/
structure Observer where
  /-- Whether there is one. -/
  mode : ObserverMode
  /-- What it does at the snapshot of a number, counted from one. -/
  reaction : Nat → Reaction

/-- A snapshot and when it was shown. -/
structure Event where
  /-- When it was shown. -/
  time : Time
  /-- What was shown. -/
  snapshot : Snapshot
deriving DecidableEq

/-- How a run ended. -/
inductive Outcome where
  /-- At the end of the program. -/
  | finished
  /-- At a check with the running flag down. -/
  | halted
  /-- With a fault. -/
  | failed (f : RunFault)

/-- A run on its own, in progress or over. -/
structure Solo where
  /-- The agent. -/
  agent : Agent
  /-- What is left to do. -/
  walker : Walker
  /-- The clock. -/
  now : Time
  /-- The running flag. -/
  running : Bool
  /-- The snapshots shown so far, the latest first. -/
  shown : List Event
  /-- The lines reported so far, the latest first. -/
  reported : List LogLine
  /-- How it ended, once it has. -/
  outcome : Option Outcome

namespace Solo

/-- A run about to start. -/
def start (program : Program) (a : Agent) (running : Bool) : Solo where
  agent := a
  walker := .start program
  now := .finite 0
  running := running
  shown := []
  reported := []
  outcome := none

/-- The snapshots in the order in which they were shown. -/
def events (r : Solo) : List Event := r.shown.reverse

/-- The lines in the order in which they were reported. -/
def log (r : Solo) : List LogLine := r.reported.reverse

variable [Arithmetic]

/-- The run waits until an errand is done, and fails if it does. -/
def await (e : Errand) (r : Solo) : Solo :=
  { r with
    now := e.rests.foldl Time.after r.now
    outcome := if e.fails then some (.failed .observerFailed) else none }

/-- The observer is shown a snapshot. -/
def observe (o : Observer) (r : Solo) : Solo :=
  match o.mode with
  | .absent => r
  | .present =>
      match Snapshot.ofAgent r.agent with
      | .error ms => { r with outcome := some (.failed (.badSnapshot ms)) }
      | .ok snapshot =>
          let shown := ⟨r.now, snapshot⟩ :: r.shown
          let reaction := o.reaction shown.length
          { r with
            shown := shown
            running := r.running && !reaction.stops }.await
              reaction.toErrand

/-- What the world does about a signal. -/
def answer (o : Observer) (r : Solo) : Signal → Solo
  | .proceed => r
  | .emit => r.observe o
  | .sleep seconds => { r with now := r.now.after seconds }
  | .finish => { r with outcome := some .finished }
  | .halt => { r with outcome := some .halted }
  | .fail f => { r with outcome := some (.failed f) }

/-- One step; a run that is over stays as it is. -/
def step (s : Scene) (o : Observer) (r : Solo) : Solo :=
  match r.outcome with
  | some _ => r
  | none =>
      let next := r.walker.step s r.now r.running r.agent
      answer o
        { r with
          agent := next.agent
          walker := next.walker
          reported := next.log.reverse ++ r.reported }
        next.signal

/-- At most `fuel` steps, fewer if the run is over before. -/
def run (s : Scene) (o : Observer) : Nat → Solo → Solo
  | 0, r => r
  | fuel + 1, r =>
      match r.outcome with
      | some _ => r
      | none => run s o fuel (r.step s o)

end Solo

end BlockStage
