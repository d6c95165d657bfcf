import BlockStage.Program.Instruction
import BlockStage.Run.Animation
import BlockStage.Run.Guard

/-! # Walkers — one agent's run as a list of things left to do

    A run is cut into acts so small that nothing else can happen within
    one: setting out, a look at the running flag, one instruction, one
    pass of a loop, one step, one frame, one snapshot, one pause.
    `Walker.step` takes the first act off the list and does it.  Whatever
    the rest of the world has to answer, it learns from the signal: that a
    snapshot is due, that the agent sleeps, or that the run is over. -/

namespace BlockStage

/-- The smallest parts of a run. -/
inductive Act where
  /-- Bring the agent onto the playfield. -/
  | place
  /-- Stop if the running flag is down. -/
  | check
  /-- Run one instruction. -/
  | perform (i : Instruction)
  /-- Run a body a number of times. -/
  | pass (left : Nat) (body : List Instruction)
  /-- Walk a number of steps on the grid. -/
  | stride (left : Nat)
  /-- Show a snapshot. -/
  | emit
  /-- Sleep for milliseconds, for no time if they are negative. -/
  | pause (ms : Value)
  /-- Take the message down. -/
  | hush
  /-- Show the next frame of a move. -/
  | glide (start finish : Point) (started : Time)
  /-- Show the next frame of a turn. -/
  | swing (start finish : Value) (started : Time)
  /-- Sleep until the next frame. -/
  | awaitFrame
deriving Inhabited

/-- What a run knows of the stage. -/
structure Scene where
  /-- The settings. -/
  config : Config
  /-- The goal, if there is one. -/
  goal : Option GoalRegion
  /-- The ceiling of the loop guard. -/
  ceiling : Value

/-- A run in progress. -/
structure Walker where
  /-- What is left to do. -/
  todo : List Act
  /-- How many loops the guard has cut short. -/
  truncations : Nat
deriving Inhabited

/-- What one step of a run asks of the world. -/
inductive Signal where
  /-- Nothing; the run goes on. -/
  | proceed
  /-- A snapshot of the agent is to be shown. -/
  | emit
  /-- The agent sleeps for so many seconds. -/
  | sleep (seconds : Scalar)
  /-- The program has come to its end. -/
  | finish
  /-- The running flag was down. -/
  | halt
  /-- The run failed. -/
  | fail (f : RunFault)

/-- What one step of a run does. -/
structure Step where
  /-- The agent after it. -/
  agent : Agent
  /-- The run after it. -/
  walker : Walker
  /-- What it reports. -/
  log : List LogLine
  /-- What it asks for. -/
  signal : Signal

namespace Walker

/-- A program about to start. -/
def start (program : Program) : Walker :=
  ⟨.place :: .check :: program.map .perform, 0⟩

/-- The wording of a detail about an agent, if the name of the agent and
    the values shown in it can be written out. -/
def detailText (a : Agent) (shown : List Value)
    (what : Except RunFault String) : Except RunFault String := do
  if ¬ (a.id.legible ∧ shown.all Value.legible) then throw .illegible
  return "agent " ++ a.id.plain ++ " " ++ (← what)

/-- A detail reported about an agent. -/
def detail (a : Agent) (shown : List Value)
    (what : Except RunFault String) : List LogLine :=
  [⟨.debug, .interpreter, detailText a shown what⟩]

/-- On with other things to do. -/
def goOn (w : Walker) (a : Agent) (todo : List Act)
    (log : List LogLine) : Step :=
  ⟨a, { w with todo := todo }, log, .proceed⟩

/-- The end of a run that failed. -/
def failed (w : Walker) (a : Agent) (log : List LogLine)
    (f : RunFault) : Step :=
  ⟨a, w, log, .fail f⟩

/-- On if a calculation has a result, else the end. -/
def goOnWith {α : Type} (w : Walker) (a : Agent) (log : List LogLine)
    (result : Except RunFault α) (next : α → Step) : Step :=
  match result with
  | .ok x => next x
  | .error f => w.failed a log f

/-- The agent at another place, with the goal flag set if it has arrived.
    The place counts even if the goal cannot be tested. -/
def arrive (s : Scene) (a : Agent) (p : Point) :
    Agent × Except RunFault Agent :=
  let moved := { a with position := p.position }
  (moved, operate (moved.latchGoal s.goal))

variable [Arithmetic]

/-- A move: on the canvas a glide, on the grid whole steps. -/
def move (s : Scene) (now : Time) (a : Agent) (w : Walker)
    (rest : List Act) (distance : Value) : Step :=
  w.goOnWith a [] (operate distance.finiteNumber?) fun
    | none => w.failed a [] (.about .badDistance distance)
    | some n =>
        if n.le 0 then w.failed a [] (.about .badDistance distance)
        else
          let log :=
            detail a [distance] (.ok ("moving " ++ n.text ++ " steps"))
          match s.config.mode with
          | .canvas =>
              w.goOnWith a log (operate (Value.pairOf a.position))
                fun start =>
                  w.goOnWith a log
                    (operate (canvasTarget s.config a.position a.heading
                      distance))
                    fun target =>
                      w.goOn a (.glide start target now :: .check :: rest)
                        log
          | _ =>
              w.goOnWith a log (operate distance.whole) fun steps =>
                if n.same (.int steps) then
                  w.goOn a (.stride steps.toNat :: rest) log
                else w.failed a log (.about .brokenStep distance)

/-- A turn: on the canvas a swing, on the grid at once. -/
def turn (s : Scene) (now : Time) (a : Agent) (w : Walker)
    (rest : List Act) (degrees : Value) : Step :=
  w.goOnWith a [] (operate degrees.finiteNumber?) fun
    | none => w.failed a [] (.about .badAngle degrees)
    | some n =>
        let log := detail a [] do
          let shown ← operate (Value.calculate (n.general true))
          return "turning " ++ shown ++ " degrees"
        match s.config.mode with
        | .canvas =>
            w.goOnWith a log (operate (a.heading.add degrees)) fun finish =>
              w.goOn a (.swing a.heading finish now :: .check :: rest) log
        | _ =>
            w.goOnWith a log (gridTurn a.heading degrees) fun heading =>
              w.goOn { a with heading := .int heading }
                (.emit :: .pause s.config.turnMs :: .check :: rest) log

/-- The milliseconds of a wait. -/
def waitMs (c : Config) (seconds : Value) : Except OperandFault Value := do
  (← seconds.mul 1000).mul c.waitScale

/-- A wait: first the sleep, then the snapshot. -/
def wait (s : Scene) (a : Agent) (w : Walker) (rest : List Act)
    (seconds : Value) : Step :=
  w.goOnWith a [] (operate seconds.finiteNumber?) fun
    | none => w.failed a [] (.about .badWait seconds)
    | some n =>
        if n.lt 0 then w.failed a [] (.about .badWait seconds)
        else
          let log :=
            detail a [seconds] (.ok ("waiting " ++ n.text ++ " seconds"))
          w.goOnWith a log (operate (waitMs s.config seconds)) fun ms =>
            w.goOn a (.pause ms :: .emit :: .check :: rest) log

/-- A message: shown, kept for a while, taken down. -/
def say (s : Scene) (a : Agent) (w : Walker) (rest : List Act)
    (text : Value) : Step :=
  w.goOn { a with message := text }
    (.emit :: .pause s.config.sayMs :: .hush :: .emit :: .check :: rest)
    (detail a [text] (.ok ("says " ++ text.text)))

/-- A loop: as many passes as the guard grants. -/
def loop (s : Scene) (a : Agent) (w : Walker) (rest : List Act)
    (forever : Bool) (count : Value) (body : List Instruction) : Step :=
  w.goOnWith a [] (grant s.ceiling count) fun g =>
    if g.truncated then
      let w := { w with truncations := w.truncations + 1 }
      let log := [truncationLine s.ceiling forever a.id count]
      w.goOnWith a log (operate g.passes.count) fun n =>
        w.goOn a (.pass n.toNat body :: rest) log
    else
      w.goOnWith a [] (operate g.passes.count) fun n =>
        w.goOn a (.pass n.toNat body :: rest) []

/-- One instruction. -/
def perform (s : Scene) (now : Time) (a : Agent) (w : Walker)
    (rest : List Act) : Instruction → Step
  | .move distance => w.move s now a rest distance
  | .turnRight degrees => w.turn s now a rest degrees
  | .turnLeft degrees =>
      w.goOnWith a [] (operate degrees.neg) fun v => w.turn s now a rest v
  | .wait seconds => w.wait s a rest seconds
  | .say text => w.say s a rest text
  | .repeatTimes count body => w.loop s a rest false count body
  | .repeatBounded limit body => w.loop s a rest true limit body
  | .ifGoalReached body =>
      if a.goalReached.holds then
        w.goOn a (body.map .perform ++ rest)
          (detail a [] (.ok "at goal, running conditional body"))
      else w.goOn a rest []
  | .foreign v => w.failed a [] (.about .notAnInstruction v)

/-- The agent moved to a place, then a snapshot, then whatever follows. -/
def moveTo (s : Scene) (a : Agent) (w : Walker) (p : Point)
    (next : List Act) : Step :=
  match arrive s a p with
  | (_, .ok arrived) => w.goOn arrived (.emit :: next) []
  | (moved, .error f) => w.failed moved [] f

/-- The point at a share of the way. -/
def between (start finish : Point) (progress : Num) :
    Except OperandFault Point := do
  let x ← interpolate start.1 finish.1 (.num progress)
  let y ← interpolate start.2 finish.2 (.num progress)
  return (x, y)

/-- What follows a frame: a pause and the next frame, unless it was the
    last. -/
def afterFrame (progress : Num) (again : Act) (rest : List Act) :
    List Act :=
  if isComplete progress then rest else .awaitFrame :: again :: rest

/-- The seconds of a pause; one below zero is none. -/
def pauseSeconds (ms : Value) : Except OperandFault Scalar := do
  (← ms.max 0).div 1000

/-- One step of a run: the first act on the list. -/
def step (s : Scene) (now : Time) (running : Bool) (a : Agent)
    (w : Walker) : Step :=
  match w.todo with
  | [] => ⟨a, w, [], .finish⟩
  | .place :: rest =>
      w.goOnWith a [] (operate (clampPosition s.config a.position))
        fun p => w.goOn { a with position := p.position } rest []
  | .check :: rest =>
      if running then w.goOn a rest []
      else
        ⟨a, w, detail a a.position
          (.ok ("halted at " ++ Position.text a.position)), .halt⟩
  | .perform i :: rest => w.perform s now a rest i
  | .pass 0 _ :: rest => w.goOn a rest []
  | .pass (left + 1) body :: rest =>
      w.goOn a (body.map .perform ++ .pass left body :: rest) []
  | .stride 0 :: rest => w.goOn a rest []
  | .stride (left + 1) :: rest =>
      w.goOnWith a [] (gridStep s.config a.position a.heading) fun p =>
        w.moveTo s a p
          (.pause s.config.stepMs :: .check :: .stride left :: rest)
  | .emit :: rest => ⟨a, { w with todo := rest }, [], .emit⟩
  | .pause ms :: rest =>
      w.goOnWith a [] (operate (pauseSeconds ms)) fun seconds =>
        ⟨a, { w with todo := rest }, [], .sleep seconds⟩
  | .hush :: rest => w.goOn { a with message := .null } rest []
  | .glide start finish started :: rest =>
      w.goOnWith a [] (operate (progressAt s.config.moveMs started now))
        fun progress =>
          w.goOnWith a [] (operate (between start finish progress))
            fun p =>
              w.moveTo s a p
                (afterFrame progress (.glide start finish started) rest)
  | .swing start finish started :: rest =>
      w.goOnWith a [] (operate (progressAt s.config.turnMs started now))
        fun progress =>
          w.goOnWith a []
            (operate (interpolate start finish (.num progress)))
            fun heading =>
              w.goOn { a with heading := heading }
                (.emit
                  :: afterFrame progress (.swing start finish started) rest)
                []
  | .awaitFrame :: rest =>
      w.goOnWith a [] (operate (s.config.frameMs.div 1000)) fun seconds =>
        ⟨a, { w with todo := rest }, [], .sleep seconds⟩

end Walker

end BlockStage
