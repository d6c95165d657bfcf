import BlockStage.Session.World

/-! # The event loop

    Rounds follow one another.  At the start of a round the clock moves on
    to the first sleep that ends, but only if nothing else is to be done;
    then every sleep that is due ends, and the turns of the round are
    taken in order.  `World.step` is the smallest part of it: one act of
    the agent whose turn it is, or of the observer whom it shows a snapshot,
    the next turn, or the next round. -/

namespace BlockStage

namespace World

variable [Arithmetic]

/-- How close together two moments count as one. -/
def resolution : Scalar := Binary64.nearest (mkRat 1 (Nat.pow 10 9))

/-! ## Sleeping -/

/-- A timer put after all that end no later. -/
def insertTimer (t : Timer) : List Timer → List Timer
  | [] => [t]
  | u :: us => if t.due.lt u.due then t :: u :: us else u :: insertTimer t us

/-- A sleep of some seconds; none at all is only a turn for others. -/
def sleep (w : World) (seconds : Scalar) (sleeper : Job) : World :=
  if seconds.le (.finite 0) then w.enqueue sleeper
  else
    { w with
      timers := insertTimer ⟨w.now.add seconds, sleeper⟩ w.timers }

/-- The clock of the next round. -/
def nextTime (w : World) : Time :=
  match w.ready, w.timers with
  | [], t :: _ => if w.now.lt t.due then t.due else w.now
  | _, _ => w.now

/-- Whether a timer ends in a round at a moment. -/
def isDue (now : Time) (t : Timer) : Bool :=
  !(now.add resolution).le t.due

/-- The start of the next round. -/
def nextRound (w : World) : World :=
  let now := w.nextTime
  let due := w.timers.takeWhile (isDue now)
  { w with
    now := now
    timers := w.timers.dropWhile (isDue now)
    round := w.ready ++ due.map fun t => .wake t.sleeper
    ready := [] }

/-! ## Agents -/

/-- The running flag lowered, with a line if it was up. -/
def cancel (w : World) : World :=
  if w.isRunning then
    (w.report .info "cancelling session").withSession fun s =>
      { s with running := false }
  else w

/-- The end of an agent's part. -/
def endTask (w : World) (i : Nat) (e : AgentEnd) : World :=
  let w := w.withTask i fun t => { t with showing := none, ending := some e }
  { w with active := none }.enqueue .noticed

/-- The end of an agent's part by a fault, with a line about it. -/
def failTask (w : World) (i : Nat) (id : String) (f : RunFault) : World :=
  (w.report .error ("agent " ++ id ++ " failed")).endTask i (.failed f)

/-- The agent whose turn it is sleeps.  One that must end does not get to
    sleep: its turn comes in the next round. -/
def suspend (w : World) (i : Nat) (t : AgentTask) (seconds : Scalar) :
    World :=
  { w with active := none }.sleep
    (if t.doomed then .finite 0 else seconds) (.agent i)

/-- The agent whose turn it is comes to the end of its part, unless it must
    end anyway. -/
def comeThrough (w : World) (i : Nat) (t : AgentTask) : World :=
  w.endTask i (if t.doomed then .killed else .returned)

/-- The observer is shown a snapshot of the agent whose turn it is. -/
def observe (c : Coordinator) (w : World) (i : Nat) (id : String)
    (a : Agent) : World :=
  match c.observer.mode with
  | .absent => w
  | .present =>
      match Snapshot.ofAgent a with
      | .error ms => w.failTask i id (.badSnapshot ms)
      | .ok snapshot =>
          let w := { w with shown := ⟨w.now, snapshot⟩ :: w.shown }
          let reaction := c.observer.reaction w.shown.length
          let w := if reaction.stops then w.cancel else w
          w.withTask i fun t => { t with showing := some reaction.toErrand }

/-- The observer goes on with a snapshot that it is shown: it sleeps, or it
    is done. -/
def attend (w : World) (i : Nat) (t : AgentTask) (e : Errand) : World :=
  match e.rests with
  | [] =>
      let w := w.withTask i fun t => { t with showing := none }
      if e.fails then w.failTask i t.agentId .observerFailed else w
  | seconds :: rests =>
      (w.withTask i fun t =>
        { t with showing := some { e with rests := rests } }).suspend i t
          seconds

/-- What the world does about a signal of the agent whose turn it is. -/
def answer (c : Coordinator) (w : World) (i : Nat) (t : AgentTask)
    (a : Agent) : Signal → World
  | .proceed => w
  | .emit => w.observe c i t.agentId a
  | .sleep seconds => w.suspend i t seconds
  | .finish => w.comeThrough i t
  | .halt => w.comeThrough i t
  | .fail f => w.failTask i t.agentId f

/-- What an agent of a session knows of the stage. -/
def scene (c : Coordinator) : Scene :=
  ⟨c.config, c.goal, c.config.loopCeiling⟩

/-- One act of the agent whose turn it is. -/
def actTask (c : Coordinator) (w : World) (i : Nat) (t : AgentTask)
    (a : Agent) : World :=
  match t.walker with
  | none => { w with active := none }
  | some walker =>
      let next := walker.step (scene c) w.now w.isRunning a
      let w := w.setAgent t.agentId next.agent
      let w := w.withTask i fun t => { t with walker := some next.walker }
      let w := { w with reported := next.log.reverse ++ w.reported }
      w.answer c i t next.agent next.signal

/-- A turn of an agent begins: a doomed part ends, a new one sets out. -/
def turnTask (c : Coordinator) (w : World) (i : Nat) (t : AgentTask) :
    World :=
  if t.ending.isSome then w
  else if t.doomed then w.endTask i .killed
  else
    match t.walker with
    | some _ => { w with active := some i }
    | none =>
        match checkCeiling c.config.loopCeiling with
        | .error f => w.endTask i (.failed f)
        | .ok _ =>
            let w := w.withTask i fun t =>
              { t with walker := some (.start t.program) }
            { w with active := some i }

/-- The part of an agent, by its place in the session. -/
def task? (w : World) (i : Nat) : Option AgentTask :=
  w.session.bind fun s => s.tasks[i]?

/-! ## Calls -/

/-- A waiter for idleness has come so far. -/
def setWaiter (w : World) (k : Nat) (state : Waiter) : World :=
  { w with waiters := w.waiters.set k state }

/-- A waiter for idleness is told to go on, if it waits. -/
def Waiter.wake : Waiter → Waiter
  | .waits => .woken
  | state => state

/-- The coordinator is free again: whoever waits for it goes on. -/
def becomeIdle (w : World) : World :=
  let waiting := (List.range w.waiters.length).filter fun k =>
    w.waiters[k]? = some .waits
  { w with
    idle := true
    waiters := w.waiters.map Waiter.wake
    ready := w.ready ++ waiting.map .release }

/-- A forest compiled for a stage. -/
def compileFor (c : Config) : Forest → Except BlockFault Compiled
  | .nodes blocks => compileForest? (c.target) blocks
  | .source v => compileSource c.target v

/-- The programs of a script and the warnings of compiling them. -/
def scriptPrograms (c : Config) : Script →
    Except BlockFault
      (List (String × Program) × List (String × List WarningReport))
  | .programs ps => .ok (ps, [])
  | .forests fs => do
      let compiled ← fs.mapM fun f => do
        return (f.1, ← compileFor c f.2)
      return (compiled.map fun p => (p.1, p.2.program),
        (compiled.filter fun p => ¬ p.2.warnings.isEmpty).map fun p =>
          (p.1, p.2.warnings.map Warning.report))

/-- A call ends and leaves the coordinator free. -/
def leave (w : World) (n : Nat) (e : CallEnd) : World :=
  (w.endCall n e).becomeIdle

/-- The text of an agent's error, if it failed. -/
def failure? (t : AgentTask) : Option (String × String) :=
  match t.ending with
  | some (.failed f) => some (t.agentId, f.message)
  | _ => none

/-- The agents that stand in the goal, of those that did not fail.  Each
    of them gets its flag before the next one is looked at. -/
def score (goal : Option GoalRegion) (failed : List (String × String))
    (agents : List (String × Agent)) : List String →
    List (String × Agent) × Except RunFault (List String)
  | [] => (agents, .ok [])
  | id :: ids =>
      match goal, agents.lookup id with
      | some g, some a =>
          if (failed.lookup id).isSome then score goal failed agents ids
          else
            match g.contains a.position with
            | .error f => (agents, .error (.operand f))
            | .ok false => score goal failed agents ids
            | .ok true =>
                let flagged := agents.map fun b =>
                  if b.1 = id then
                    (id, { b.2 with goalReached := .bool true })
                  else b
                let (agents, reached) := score goal failed flagged ids
                (agents, reached.map (id :: ·))
      | _, _ => score goal failed agents ids

/-- The result of a session whose agents have all ended. -/
def resultOf (s : Session) (reached : List String)
    (failed : List (String × String)) (cancelled : Bool)
    (elapsed : Scalar) : SessionResult where
  reachedCount := reached.length
  totalAgents := s.tasks.length
  allReached := 0 < s.tasks.length ∧ reached.length = s.tasks.length
  reached := reached
  failed := failed
  elapsedSeconds := .real elapsed
  cancelled := cancelled
  warnings := []

/-- The line about a result. -/
def resultLine (r : SessionResult) (elapsed : Scalar) : String :=
  "session finished, " ++ toString r.reachedCount ++ "/"
    ++ toString r.totalAgents ++ " reached goal in " ++ elapsed.fixed 2
    ++ "s" ++ (if r.cancelled then " (cancelled)" else "")

/-- The call returns the result of its session. -/
def finishCall (w : World) (s : Session) (r : SessionResult) : World :=
  let r := { r with warnings := s.warnings }
  (w.withSession fun s => { s with result := some r }).leave s.call
    (.returned r)

/-- The announcement of a result. -/
def completionOf (s : Session) (r : SessionResult) : CompletionEvent :=
  ⟨r.reachedCount.toNat, s.tasks.length, r.elapsedSeconds.exact⟩

/-- A completion recorded by the handler. -/
def record (w : World) (e : CompletionEvent) : World :=
  { w with completed := ⟨w.now, e⟩ :: w.completed }

/-- The handler goes on with a completion: it sleeps, or it records the
    completion and is done, and then the call returns. -/
def handle (w : World) (s : Session) (r : SessionResult) (e : Errand) :
    World :=
  match e.rests with
  | [] =>
      let w := w.record (completionOf s r)
      let w :=
        if e.fails then w.report .error "completion handler failed" else w
      w.finishCall s r
  | seconds :: rests =>
      (w.withSession fun s =>
        { s with handling := some { e with rests := rests } }).sleep seconds
          .handled

/-- The completion of a session is announced, once. -/
def announce (c : Coordinator) (w : World) (s : Session)
    (r : SessionResult) : World :=
  let w := w.withSession fun s => { s with completionFired := true }
  if ¬ (Scalar.finite 0).le r.elapsedSeconds.exact then
    w.leave s.call (.failed (.badDuration r.elapsedSeconds))
  else
    let w := w.report .info "all agents reached the goal"
    match c.handler with
    | .absent => w.finishCall s r
    | .present errand => w.handle s r errand

/-- The call goes on after the join: the session is scored. -/
def afterJoin (c : Coordinator) (w : World) (s : Session) : World :=
  let failed := s.tasks.filterMap failure?
  let cancelled := !s.running
  let w := w.withSession fun s => { s with running := false }
  match score c.goal failed w.agents (s.tasks.map (·.agentId)) with
  | (agents, .error f) =>
      { w with agents := agents }.leave s.call (.failed f)
  | (agents, .ok reached) =>
      let elapsed := w.now.sub s.startedAt
      let r := resultOf s reached failed cancelled elapsed
      let w := { w with agents := agents }
      let w := w.withSession fun s => { s with result := some r }
      let w := w.report .info (resultLine r elapsed)
      if r.allReached then w.announce c s r else w.finishCall s r

/-- A session is set up: programs without an agent are reported, the
    agents go back to their starts and get a first turn each.  Without
    agents there is nothing to wait for, and it is scored at once. -/
def launch (c : Coordinator) (w : World) (n : Nat) (cast : List String)
    (programs : List (String × Program))
    (warnings : List (String × List WarningReport)) : World :=
  let strangers := programs.filter fun p => ¬ cast.contains p.1
  let w := strangers.foldl (fun w p =>
    w.report .warning ("program for unknown agent " ++ p.1 ++ " ignored")) w
  let tasks := cast.map fun id =>
    { agentId := id, program := (programs.lookup id).getD [],
      walker := none, showing := none, doomed := false,
      ending := none : AgentTask }
  let s : Session :=
    { call := n, tasks := tasks, joined := 0, running := true,
      startedAt := w.now, warnings := warnings, result := none,
      completionFired := false, handling := none }
  let w :=
    { w with
      idle := false
      agents := w.agents.map fun (a : String × Agent) =>
        if cast.contains a.1 then (a.1, a.2.reset) else a
      session := some s }
  let w := w.report .info
    ("session started with " ++ toString cast.length ++ " agents")
  match cast with
  | [] => w.afterJoin c s
  | _ => { w with ready := w.ready ++ (List.range cast.length).map .agent }

/-- A call begins. -/
def beginCall (c : Coordinator) (w : World) (n : Nat) (call : Call) :
    World :=
  if call.doomed then w.endCall n .killed
  else
    match scriptPrograms c.config call.script with
    | .error f => w.endCall n (.uncompiled f)
    | .ok (programs, warnings) =>
        if w.idle then w.launch c n call.cast programs warnings
        else w.endCall n .rejected

/-- The call was killed while it waited for its agents. -/
def abandon (w : World) (s : Session) : World :=
  ((w.withSession fun s => { s with running := false }).report .info
    "session task cancelled").leave s.call .killed

/-- Whether the call of a session must end. -/
def isDoomed (w : World) (s : Session) : Bool :=
  ((w.calls[s.call]?).map (·.doomed)).getD false

/-- The join wakes the call, which scores the session or is gone. -/
def join (c : Coordinator) (w : World) (s : Session) : World :=
  if w.isDoomed s then w.abandon s else w.afterJoin c s

/-- The handler wakes up and goes on, or is gone with the call. -/
def handled (w : World) (s : Session) : World :=
  if w.isDoomed s then w.leave s.call .killed
  else
    match s.result, s.handling with
    | some r, some e => w.handle s r e
    | _, _ => w

/-- One more end noticed; the last one wakes the call. -/
def notice (w : World) (s : Session) : World :=
  let w := w.withSession fun s => { s with joined := s.joined + 1 }
  if s.tasks.length ≤ s.joined + 1 then w.enqueue .join else w

/-! ## Rounds -/

/-- One turn that is no agent's, or the beginning of an agent's turn. -/
def runJob (c : Coordinator) (w : World) : Job → World
  | .begin n =>
      match w.calls[n]? with
      | none => w
      | some call => w.beginCall c n call
  | .agent i =>
      match w.task? i with
      | none => w
      | some t => w.turnTask c i t
  | .noticed =>
      match w.session with
      | none => w
      | some s => w.notice s
  | .join =>
      match w.session with
      | none => w
      | some s => w.join c s
  | .handled =>
      match w.session with
      | none => w
      | some s => w.handled s
  | .ask k => w.setWaiter k (if w.idle then .released else .waits)
  | .release k => w.setWaiter k .released
  | .wake sleeper => w.enqueue sleeper

/-- The smallest part of the event loop. -/
def step (c : Coordinator) (w : World) : World :=
  match w.active with
  | some i =>
      match w.task? i with
      | none => { w with active := none }
      | some t =>
          match t.showing, w.agent? t.agentId with
          | some e, _ => w.attend i t e
          | none, none => { w with active := none }
          | none, some a => w.actTask c i t a
  | none =>
      match w.round with
      | j :: rest => { w with round := rest }.runJob c j
      | [] => w.nextRound

/-- Whether nothing more happens up to a moment.  A sleep until no moment
    at all ends at once. -/
def isSettled (horizon : Time) (w : World) : Bool :=
  w.active.isNone && w.round.isEmpty && w.ready.isEmpty
    && match w.timers with
      | [] => true
      | t :: _ => horizon.lt t.due

/-- At most `fuel` steps, up to a moment. -/
def runUntil (c : Coordinator) (horizon : Time) : Nat → World → World
  | 0, w => w
  | fuel + 1, w =>
      if w.isSettled horizon then w
      else runUntil c horizon fuel (w.step c)

/-- Everything up to a moment happens; then the clock shows that moment,
    if it is one. -/
def settle (c : Coordinator) (horizon : Time) (fuel : Nat) (w : World) :
    World :=
  let w := w.runUntil c horizon fuel
  if horizon.isFinite ∧ w.now.lt horizon then { w with now := horizon } else w

end World

end BlockStage
