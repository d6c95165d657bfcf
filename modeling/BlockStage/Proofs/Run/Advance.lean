import BlockStage.Proofs.Stage.Goal
import BlockStage.Run.Walker

/-! # Advances — what one step of a run can do

    A step fails, ends the run, stops it at a check with the flag down, or
    advances.  `Advance` lists every way to advance with what becomes of
    the agent and of the things left to do, and with the calculations that
    it takes; `Walker.step_cases` says that there is no other.  Whatever is
    proved about all runs is proved for each of these. -/

namespace BlockStage

variable [Arithmetic]

/-- A step that goes on: from an agent and the things left to do to an
    agent, the things then left to do, and a signal. -/
inductive Advance (s : Scene) (now : Time) :
    Agent → List Act → Agent → List Act → Signal → Prop
  | place {a : Agent} {rest : List Act} {p : Point} :
      clampPosition s.config a.position = .ok p →
      Advance s now a (.place :: rest)
        { a with position := p.position } rest .proceed
  | check {a : Agent} {rest : List Act} :
      Advance s now a (.check :: rest) a rest .proceed
  | glideOff {a : Agent} {rest : List Act} {d : Value}
      {start target : Point} :
      s.config.mode = .canvas →
      Value.pairOf a.position = .ok start →
      canvasTarget s.config a.position a.heading d = .ok target →
      Advance s now a (.perform (.move d) :: rest) a
        (.glide start target now :: .check :: rest) .proceed
  | strideOff {a : Agent} {rest : List Act} {d : Value} {n : Int} :
      s.config.mode ≠ .canvas → d.whole = .ok n → 0 < n →
      Advance s now a (.perform (.move d) :: rest) a
        (.stride n.toNat :: rest) .proceed
  | swingOff {a : Agent} {rest : List Act} {i : Instruction}
      {d finish : Value} :
      s.config.mode = .canvas →
      i = .turnRight d ∨ (∃ e, i = .turnLeft e ∧ e.neg = .ok d) →
      a.heading.add d = .ok finish →
      Advance s now a (.perform i :: rest) a
        (.swing a.heading finish now :: .check :: rest) .proceed
  | quarters {a : Agent} {rest : List Act} {i : Instruction} {d : Value}
      {h : Int} :
      s.config.mode ≠ .canvas →
      i = .turnRight d ∨ (∃ e, i = .turnLeft e ∧ e.neg = .ok d) →
      gridTurn a.heading d = .ok h →
      Advance s now a (.perform i :: rest) { a with heading := .int h }
        (.emit :: .pause s.config.turnMs :: .check :: rest) .proceed
  | wait {a : Agent} {rest : List Act} {v ms : Value} :
      Walker.waitMs s.config v = .ok ms →
      Advance s now a (.perform (.wait v) :: rest) a
        (.pause ms :: .emit :: .check :: rest) .proceed
  | say {a : Agent} {rest : List Act} {text : Value} :
      Advance s now a (.perform (.say text) :: rest)
        { a with message := text }
        (.emit :: .pause s.config.sayMs :: .hush :: .emit :: .check :: rest)
        .proceed
  | loop {a : Agent} {rest : List Act} {i : Instruction} {v : Value}
      {body : List Instruction} {g : Grant} {n : Int} :
      i = .repeatTimes v body ∨ i = .repeatBounded v body →
      grant s.ceiling v = .ok g → g.passes.count = .ok n →
      Advance s now a (.perform i :: rest) a
        (.pass n.toNat body :: rest) .proceed
  | atGoal {a : Agent} {rest : List Act} {body : List Instruction} :
      a.goalReached.holds = true →
      Advance s now a (.perform (.ifGoalReached body) :: rest) a
        (body.map .perform ++ rest) .proceed
  | notAtGoal {a : Agent} {rest : List Act} {body : List Instruction} :
      a.goalReached.holds = false →
      Advance s now a (.perform (.ifGoalReached body) :: rest) a rest
        .proceed
  | lastPass {a : Agent} {rest : List Act} {body : List Instruction} :
      Advance s now a (.pass 0 body :: rest) a rest .proceed
  | nextPass {a : Agent} {rest : List Act} {left : Nat}
      {body : List Instruction} :
      Advance s now a (.pass (left + 1) body :: rest) a
        (body.map .perform ++ .pass left body :: rest) .proceed
  | lastStride {a : Agent} {rest : List Act} :
      Advance s now a (.stride 0 :: rest) a rest .proceed
  | nextStride {a b : Agent} {rest : List Act} {left : Nat} {p : Point} :
      gridStep s.config a.position a.heading = .ok p →
      { a with position := p.position }.latchGoal s.goal = .ok b →
      Advance s now a (.stride (left + 1) :: rest) b
        (.emit :: .pause s.config.stepMs :: .check :: .stride left :: rest)
        .proceed
  | emit {a : Agent} {rest : List Act} :
      Advance s now a (.emit :: rest) a rest .emit
  | pause {a : Agent} {rest : List Act} {ms : Value} {seconds : Scalar} :
      Walker.pauseSeconds ms = .ok seconds →
      Advance s now a (.pause ms :: rest) a rest (.sleep seconds)
  | hush {a : Agent} {rest : List Act} :
      Advance s now a (.hush :: rest) { a with message := .null } rest
        .proceed
  | glides {a b : Agent} {rest : List Act} {start finish p : Point}
      {started : Time} {progress : Num} :
      progressAt s.config.moveMs started now = .ok progress →
      Walker.between start finish progress = .ok p →
      { a with position := p.position }.latchGoal s.goal = .ok b →
      Advance s now a (.glide start finish started :: rest) b
        (.emit :: Walker.afterFrame progress (.glide start finish started)
          rest) .proceed
  | swings {a : Agent} {rest : List Act} {start finish heading : Value}
      {started : Time} {progress : Num} :
      progressAt s.config.turnMs started now = .ok progress →
      interpolate start finish (.num progress) = .ok heading →
      Advance s now a (.swing start finish started :: rest)
        { a with heading := heading }
        (.emit :: Walker.afterFrame progress (.swing start finish started)
          rest) .proceed
  | awaitFrame {a : Agent} {rest : List Act} {seconds : Scalar} :
      s.config.frameMs.div 1000 = .ok seconds →
      Advance s now a (.awaitFrame :: rest) a rest (.sleep seconds)

/-- Where a step that fails leaves the agent: where it was, unless it was
    moved to a place that cannot be compared with the goal. -/
inductive Falters (s : Scene) (now : Time) (a : Agent) :
    List Act → Agent → Prop
  | stays {todo : List Act} : Falters s now a todo a
  | strides {rest : List Act} {left : Nat} {p : Point} {f : OperandFault} :
      gridStep s.config a.position a.heading = .ok p →
      { a with position := p.position }.latchGoal s.goal = .error f →
      Falters s now a (.stride (left + 1) :: rest)
        { a with position := p.position }
  | glides {rest : List Act} {start finish p : Point} {started : Time}
      {progress : Num} {f : OperandFault} :
      progressAt s.config.moveMs started now = .ok progress →
      Walker.between start finish progress = .ok p →
      { a with position := p.position }.latchGoal s.goal = .error f →
      Falters s now a (.glide start finish started :: rest)
        { a with position := p.position }

/-- No advance renames the agent. -/
theorem Advance.named {s : Scene} {now : Time} {a b : Agent}
    {todo next : List Act} {signal : Signal}
    (h : Advance s now a todo b next signal) : b.id = a.id := by
  cases h with
  | nextStride _ hb =>
      obtain ⟨g, rfl⟩ := Agent.latchGoal_ok hb
      rfl
  | glides _ _ hb =>
      obtain ⟨g, rfl⟩ := Agent.latchGoal_ok hb
      rfl
  | _ => rfl

/-- No step that fails renames the agent. -/
theorem Falters.named {s : Scene} {now : Time} {a b : Agent}
    {todo : List Act} (h : Falters s now a todo b) : b.id = a.id := by
  cases h <;> rfl

namespace Walker

variable {s : Scene} {now : Time} {running : Bool} {a : Agent} {w : Walker}

/-- What a step does, if it neither ends nor stops the run: it fails with
    nothing done, or it advances. -/
def Goes (s : Scene) (now : Time) (a : Agent) (w : Walker) (n : Step) :
    Prop :=
  (∃ f, n.signal = .fail f ∧ n.walker.todo = w.todo
      ∧ Falters s now a w.todo n.agent)
    ∨ Advance s now a w.todo n.agent n.walker.todo n.signal

omit [Arithmetic] in
theorem operate_ok {α : Type} {x : Except OperandFault α} {y : α}
    (h : operate x = .ok y) : x = .ok y := by
  cases x with
  | ok z =>
      cases h
      rfl
  | error f => cases h

omit [Arithmetic] in
theorem operate_error {α : Type} {x : Except OperandFault α} {f : RunFault}
    (h : operate x = .error f) : ∃ g, x = .error g := by
  cases x with
  | ok z => cases h
  | error g => exact ⟨g, rfl⟩

/-- A step that needs the result of a calculation goes if it goes with
    every result. -/
theorem goes_goOnWith {α : Type} {log : List LogLine}
    {result : Except RunFault α} {next : α → Step}
    (h : ∀ x, result = .ok x → Goes s now a w (next x)) :
    Goes s now a w (w.goOnWith a log result next) := by
  cases result with
  | ok x => exact h x rfl
  | error f => exact .inl ⟨f, rfl, rfl, .stays⟩

theorem goes_failed {log : List LogLine} {f : RunFault} :
    Goes s now a w (w.failed a log f) :=
  .inl ⟨f, rfl, rfl, .stays⟩

theorem goes_move {rest : List Act} {d : Value}
    (h : w.todo = .perform (.move d) :: rest) :
    Goes s now a w (w.move s now a rest d) := by
  refine goes_goOnWith fun n _ => ?_
  cases n with
  | none => exact goes_failed
  | some n =>
      dsimp only
      split
      · exact goes_failed
      · rename_i hpos
        split
        · rename_i hmode
          refine goes_goOnWith fun start hstart => ?_
          refine goes_goOnWith fun target htarget => ?_
          refine .inr ?_
          rw [h]
          exact .glideOff hmode (operate_ok hstart) (operate_ok htarget)
        · rename_i hmode
          refine goes_goOnWith fun steps hsteps => ?_
          split
          · rename_i hsame
            refine .inr ?_
            rw [h]
            exact .strideOff hmode (operate_ok hsteps)
              (Num.pos_of_same (by simpa using hpos) hsame)
          · exact goes_failed

theorem goes_turn {rest : List Act} {i : Instruction} {d : Value}
    (h : w.todo = .perform i :: rest)
    (hi : i = .turnRight d ∨ ∃ e, i = .turnLeft e ∧ e.neg = .ok d) :
    Goes s now a w (w.turn s now a rest d) := by
  refine goes_goOnWith fun n _ => ?_
  cases n with
  | none => exact goes_failed
  | some n =>
      dsimp only
      split
      · rename_i hmode
        refine goes_goOnWith fun finish hfinish => ?_
        refine .inr ?_
        rw [h]
        exact .swingOff hmode hi (operate_ok hfinish)
      · rename_i hmode
        refine goes_goOnWith fun heading hheading => ?_
        refine .inr ?_
        rw [h]
        exact .quarters hmode hi hheading

theorem goes_wait {rest : List Act} {v : Value}
    (h : w.todo = .perform (.wait v) :: rest) :
    Goes s now a w (w.wait s a rest v) := by
  refine goes_goOnWith fun n _ => ?_
  cases n with
  | none => exact goes_failed
  | some n =>
      dsimp only
      split
      · exact goes_failed
      · refine goes_goOnWith fun ms hms => ?_
        refine .inr ?_
        rw [h]
        exact .wait (operate_ok hms)

theorem goes_loop {rest : List Act} {i : Instruction} {forever : Bool}
    {v : Value} {body : List Instruction}
    (h : w.todo = .perform i :: rest)
    (hi : i = .repeatTimes v body ∨ i = .repeatBounded v body) :
    Goes s now a w (w.loop s a rest forever v body) := by
  refine goes_goOnWith fun g hg => ?_
  split
  · dsimp only
    unfold goOnWith
    split
    · rename_i n hn
      refine .inr ?_
      rw [h]
      exact .loop hi hg (operate_ok hn)
    · exact .inl ⟨_, rfl, rfl, .stays⟩
  · refine goes_goOnWith fun n hn => ?_
    refine .inr ?_
    rw [h]
    exact .loop hi hg (operate_ok hn)

theorem goes_perform {rest : List Act} {i : Instruction}
    (h : w.todo = .perform i :: rest) :
    Goes s now a w (w.perform s now a rest i) := by
  cases i with
  | move d => exact goes_move h
  | turnRight d => exact goes_turn h (.inl rfl)
  | turnLeft d =>
      refine goes_goOnWith fun v hv => ?_
      exact goes_turn h (.inr ⟨d, rfl, operate_ok hv⟩)
  | wait v => exact goes_wait h
  | say text =>
      refine .inr ?_
      rw [h]
      exact .say
  | repeatTimes v body => exact goes_loop h (.inl rfl)
  | repeatBounded v body => exact goes_loop h (.inr rfl)
  | ifGoalReached body =>
      show Goes s now a w (if a.goalReached.holds then
        w.goOn a (body.map .perform ++ rest)
          (detail a [] (.ok "at goal, running conditional body"))
        else w.goOn a rest [])
      split
      · refine .inr ?_
        rw [h]
        exact .atGoal ‹_›
      · rename_i hgoal
        refine .inr ?_
        rw [h]
        exact .notAtGoal (Bool.eq_false_iff.2 hgoal)
  | foreign v => exact goes_failed

/-- The agent is moved and shown, unless the goal cannot be tested. -/
theorem goes_moveTo {p : Point} {next : List Act}
    (h : ∀ b, { a with position := p.position }.latchGoal s.goal = .ok b →
      Advance s now a w.todo b (.emit :: next) .proceed)
    (hf : ∀ f, { a with position := p.position }.latchGoal s.goal
      = .error f → Falters s now a w.todo { a with position := p.position }) :
    Goes s now a w (w.moveTo s a p next) := by
  unfold moveTo arrive
  split
  · rename_i arrived heq
    injection heq with _ hb
    exact .inr (h arrived (operate_ok hb))
  · rename_i moved f heq
    injection heq with hmoved hlatch
    obtain ⟨g, hg⟩ := operate_error hlatch
    exact .inl ⟨f, rfl, rfl, hmoved ▸ hf g hg⟩

/-- A step ends the run, stops it at a check, or goes. -/
theorem step_cases (s : Scene) (now : Time) (running : Bool) (a : Agent)
    (w : Walker) :
    (w.todo = [] ∧ w.step s now running a = ⟨a, w, [], .finish⟩)
      ∨ (running = false ∧ ∃ rest log, w.todo = .check :: rest
        ∧ w.step s now running a = ⟨a, w, log, .halt⟩)
      ∨ Goes s now a w (w.step s now running a) := by
  unfold step
  split
  · rename_i h
    exact .inl ⟨h, rfl⟩
  · rename_i rest h
    refine .inr (.inr (goes_goOnWith fun p hp => .inr ?_))
    rw [h]
    exact .place (operate_ok hp)
  · rename_i rest h
    cases running with
    | true =>
        refine .inr (.inr (.inr ?_))
        rw [h]
        exact .check
    | false =>
        exact .inr (.inl ⟨rfl, rest, _, h, rfl⟩)
  · exact .inr (.inr (goes_perform ‹_›))
  · rename_i body rest h
    refine .inr (.inr (.inr ?_))
    rw [h]
    exact .lastPass
  · rename_i left body rest h
    refine .inr (.inr (.inr ?_))
    rw [h]
    exact .nextPass
  · rename_i rest h
    refine .inr (.inr (.inr ?_))
    rw [h]
    exact .lastStride
  · rename_i left rest h
    refine .inr (.inr (goes_goOnWith fun p hp => ?_))
    refine goes_moveTo (fun b hb => ?_) fun f hf => ?_
    · rw [h]
      exact .nextStride hp hb
    · rw [h]
      exact .strides hp hf
  · rename_i rest h
    refine .inr (.inr (.inr ?_))
    rw [h]
    exact .emit
  · rename_i ms rest h
    refine .inr (.inr (goes_goOnWith fun seconds hs => .inr ?_))
    rw [h]
    exact .pause (operate_ok hs)
  · rename_i rest h
    refine .inr (.inr (.inr ?_))
    rw [h]
    exact .hush
  · rename_i start finish started rest h
    refine .inr (.inr (goes_goOnWith fun progress hprogress => ?_))
    refine goes_goOnWith fun p hp => ?_
    refine goes_moveTo (fun b hb => ?_) fun f hf => ?_
    · rw [h]
      exact .glides (operate_ok hprogress) (operate_ok hp) hb
    · rw [h]
      exact .glides (operate_ok hprogress) (operate_ok hp) hf
  · rename_i start finish started rest h
    refine .inr (.inr (goes_goOnWith fun progress hprogress => ?_))
    refine goes_goOnWith fun heading hheading => .inr ?_
    rw [h]
    exact .swings (operate_ok hprogress) (operate_ok hheading)
  · rename_i rest h
    refine .inr (.inr (goes_goOnWith fun seconds hs => .inr ?_))
    rw [h]
    exact .awaitFrame (operate_ok hs)

/-- With the flag down a check stops the run. -/
theorem step_down (s : Scene) (now : Time) (a : Agent) {rest : List Act}
    (h : w.todo = .check :: rest) :
    ∃ log, w.step s now false a = ⟨a, w, log, .halt⟩ := by
  unfold step
  rw [h]
  exact ⟨_, rfl⟩

/-- So with the flag down nobody goes on past a check. -/
theorem check_stops {s : Scene} {now : Time} {a : Agent} {rest : List Act}
    (h : w.todo = .check :: rest) :
    (w.step s now false a).signal ≠ .proceed := by
  obtain ⟨log, heq⟩ := step_down s now a h
  rw [heq]
  exact nofun

/-- No step renames the agent. -/
theorem step_named : (w.step s now running a).agent.id = a.id := by
  rcases step_cases s now running a w with ⟨-, heq⟩ |
    ⟨-, rest, log, -, heq⟩ | ⟨f, -, -, hfalters⟩ | hadv
  · rw [heq]
  · rw [heq]
  · exact hfalters.named
  · exact hadv.named

end Walker

end BlockStage
