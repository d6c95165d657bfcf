import BlockStage.Proofs.Run.Effort
import BlockStage.Run.Solo

/-! # Runs on their own — one verdict a step, and an end

    What the world makes of a step's signal is a verdict: how the run ended
    if it did, which snapshot was shown if one was, and whether the flag is
    still up.  A run on its own takes exactly these steps, and on the grid
    it ends, whatever the program and wherever the agent stands. -/

namespace BlockStage

/-- What the world makes of a signal. -/
structure Verdict where
  /-- How the run ended, if it did. -/
  outcome : Option Outcome
  /-- The snapshot that was shown, if any. -/
  shown : List Event
  /-- The flag. -/
  running : Bool

/-- The verdict on a signal, when `count` snapshots have been shown. -/
def verdict [Arithmetic] (o : Observer) (count : Nat) (now : Time)
    (a : Agent) (running : Bool) : Signal → Verdict
  | .proceed => ⟨none, [], running⟩
  | .emit =>
      match o.mode with
      | .absent => ⟨none, [], running⟩
      | _ =>
          match Snapshot.ofAgent a with
          | .error ms => ⟨some (.failed (.badSnapshot ms)), [], running⟩
          | .ok snapshot =>
              ⟨if (o.reaction (count + 1)).fails then
                  some (.failed .observerFailed)
                else none,
                [⟨now, snapshot⟩],
                running && !(o.reaction (count + 1)).stops⟩
  | .sleep _ => ⟨none, [], running⟩
  | .finish => ⟨some .finished, [], running⟩
  | .halt => ⟨some .halted, [], running⟩
  | .fail f => ⟨some (.failed f), [], running⟩

/-- What comes of a snapshot that is due: nothing if nobody looks, a fault
    if the agent cannot be shown, and else an event. -/
theorem verdict_emit [Arithmetic] (o : Observer) (count : Nat) (now : Time)
    (a : Agent) (running : Bool) :
    (o.mode = .absent ∧ verdict o count now a running .emit
        = ⟨none, [], running⟩)
      ∨ (o.mode ≠ .absent ∧ ∃ ms, Snapshot.ofAgent a = .error ms
        ∧ verdict o count now a running .emit
          = ⟨some (.failed (.badSnapshot ms)), [], running⟩)
      ∨ (o.mode ≠ .absent ∧ ∃ snapshot, Snapshot.ofAgent a = .ok snapshot
        ∧ verdict o count now a running .emit
          = ⟨if (o.reaction (count + 1)).fails then
              some (.failed .observerFailed)
            else none, [⟨now, snapshot⟩],
            running && !(o.reaction (count + 1)).stops⟩) := by
  unfold verdict
  cases hmode : o.mode with
  | absent => exact .inl ⟨rfl, rfl⟩
  | _ =>
      refine .inr ?_
      cases Snapshot.ofAgent a with
      | error ms => exact .inl ⟨nofun, ms, rfl, rfl⟩
      | ok snapshot => exact .inr ⟨nofun, snapshot, rfl, rfl⟩

/-- Whatever is shown was due, somebody sees it, and it shows the agent as
    it is; then the run goes on unless the observer fails. -/
theorem verdict_shows [Arithmetic] {o : Observer} {count : Nat} {now : Time}
    {a : Agent} {running : Bool} {signal : Signal}
    (h : (verdict o count now a running signal).shown ≠ []) :
    signal = .emit ∧ o.mode ≠ .absent
      ∧ (∃ snapshot, Snapshot.ofAgent a = .ok snapshot
        ∧ (verdict o count now a running signal).shown = [⟨now, snapshot⟩])
      ∧ ((o.reaction (count + 1)).fails = false →
        (verdict o count now a running signal).outcome = none) := by
  have hemit : signal = .emit := by
    cases signal <;> first | rfl | exact absurd rfl h
  subst hemit
  rcases verdict_emit o count now a running with
    ⟨-, heq⟩ | ⟨-, ms, -, heq⟩ | ⟨hseen, snapshot, hok, heq⟩
  · rw [heq] at h
    exact absurd rfl h
  · rw [heq] at h
    exact absurd rfl h
  · rw [heq]
    exact ⟨rfl, hseen, ⟨snapshot, hok, rfl⟩, fun hspared => by simp [hspared]⟩

/-- The flag stays unless the observer lowers it. -/
theorem verdict_running [Arithmetic] (o : Observer) (count : Nat)
    (now : Time) (a : Agent) (running : Bool) (signal : Signal) :
    (verdict o count now a running signal).running = running
      ∨ running = true ∧ (o.reaction (count + 1)).stops = true
        ∧ (verdict o count now a running signal).running = false := by
  cases signal with
  | emit =>
      rcases verdict_emit o count now a running with
        ⟨-, heq⟩ | ⟨-, ms, -, heq⟩ | ⟨-, snapshot, -, heq⟩
      · exact .inl (by rw [heq])
      · exact .inl (by rw [heq])
      · rw [heq]
        cases running <;> cases (o.reaction (count + 1)).stops <;> simp
  | _ => exact .inl rfl

/-- The flag stays if the observer does not lower it. -/
theorem verdict_gentle [Arithmetic] {o : Observer} {count : Nat}
    {now : Time} {a : Agent} {running : Bool} {signal : Signal}
    (h : (o.reaction (count + 1)).stops = false) :
    (verdict o count now a running signal).running = running := by
  rcases verdict_running o count now a running signal with
    hsame | ⟨-, hstops, -⟩
  · exact hsame
  · rw [h] at hstops
    cases hstops

/-- Two observers of the same kind that both accept a snapshot come to the
    same verdict, times and flags aside. -/
theorem verdict_congr [Arithmetic] (o o' : Observer) (count count' : Nat)
    (now now' : Time) (running running' : Bool) (a : Agent)
    (signal : Signal) (hmode : o'.mode = o.mode)
    (h : (o.reaction (count + 1)).fails = false)
    (h' : (o'.reaction (count' + 1)).fails = false) :
    (verdict o' count' now' a running' signal).outcome
        = (verdict o count now a running signal).outcome
      ∧ (verdict o' count' now' a running' signal).shown.map (·.snapshot)
        = (verdict o count now a running signal).shown.map
          (·.snapshot) := by
  cases signal with
  | emit =>
      unfold verdict
      rw [hmode]
      cases o.mode <;> cases Snapshot.ofAgent a <;> simp [h, h']
  | _ => exact ⟨rfl, rfl⟩

/-- What advances goes on, or fails at a snapshot. -/
theorem Advance.lasts [Arithmetic] {s : Scene} {now now' : Time}
    {a b c : Agent} {todo next : List Act} {signal : Signal} {o : Observer}
    {count : Nat} {running : Bool} (h : Advance s now a todo b next signal) :
    (verdict o count now' c running signal).outcome = none
      ∨ ∃ f, (verdict o count now' c running signal).outcome
        = some (.failed f) := by
  cases h with
  | emit =>
      rcases verdict_emit o count now' c running with
        ⟨-, heq⟩ | ⟨-, ms, -, heq⟩ | ⟨-, snapshot, -, heq⟩
      · rw [heq]
        exact .inl rfl
      · rw [heq]
        exact .inr ⟨_, rfl⟩
      · rw [heq]
        dsimp only
        split
        · exact .inr ⟨_, rfl⟩
        · exact .inl rfl
  | _ => exact .inl rfl

/-- What advances does not halt. -/
theorem Advance.unhalted [Arithmetic] {s : Scene} {now now' : Time}
    {a b c : Agent} {todo next : List Act} {signal : Signal} {o : Observer}
    {count : Nat} {running : Bool} (h : Advance s now a todo b next signal) :
    (verdict o count now' c running signal).outcome ≠ some .halted := by
  intro hhalted
  have hlasts : (verdict o count now' c running signal).outcome = none
      ∨ ∃ f, (verdict o count now' c running signal).outcome
        = some (.failed f) := h.lasts
  rcases hlasts with hnone | ⟨f, hfailed⟩
  · rw [hhalted] at hnone
    cases hnone
  · rw [hhalted] at hfailed
    cases hfailed

/-- What advances has not come to the end of its program. -/
theorem Advance.unfinished [Arithmetic] {s : Scene} {now now' : Time}
    {a b c : Agent} {todo next : List Act} {signal : Signal} {o : Observer}
    {count : Nat} {running : Bool} (h : Advance s now a todo b next signal) :
    (verdict o count now' c running signal).outcome ≠ some .finished := by
  intro hfinished
  have hlasts : (verdict o count now' c running signal).outcome = none
      ∨ ∃ f, (verdict o count now' c running signal).outcome
        = some (.failed f) := h.lasts
  rcases hlasts with hnone | ⟨f, hfailed⟩
  · rw [hfinished] at hnone
    cases hnone
  · rw [hfinished] at hfailed
    cases hfailed

/-- Nothing is shown unless a snapshot is due. -/
theorem Advance.unshown [Arithmetic] {s : Scene} {now now' : Time}
    {a b c : Agent} {todo next : List Act} {signal : Signal} {o : Observer}
    {count : Nat} {running : Bool} (h : Advance s now a todo b next signal)
    (hno : signal ≠ .emit) :
    verdict o count now' c running signal = ⟨none, [], running⟩ := by
  cases h with
  | emit => exact absurd rfl hno
  | _ => rfl

/-- A snapshot that is due leaves the agent as it is. -/
theorem Advance.showing [Arithmetic] {s : Scene} {now : Time} {a b : Agent}
    {todo next : List Act} {signal : Signal}
    (h : Advance s now a todo b next signal) (hemit : signal = .emit) :
    todo = .emit :: next ∧ b = a := by
  cases h with
  | emit => exact ⟨rfl, rfl⟩
  | _ => cases hemit

/-- A step ends the run or advances it. -/
theorem Walker.step_advances [Arithmetic] (s : Scene) (now now' : Time)
    (running : Bool) (a : Agent) (w : Walker) (o : Observer) (count : Nat) :
    (verdict o count now' (w.step s now running a).agent running
        (w.step s now running a).signal).outcome.isSome = true
      ∨ Advance s now a w.todo (w.step s now running a).agent
        (w.step s now running a).walker.todo
        (w.step s now running a).signal := by
  rcases Walker.step_cases s now running a w with ⟨-, heq⟩ |
    ⟨-, rest, log, -, heq⟩ | ⟨f, hsig, -⟩ | hadv
  · rw [heq]
    exact .inl rfl
  · rw [heq]
    exact .inl rfl
  · rw [hsig]
    exact .inl rfl
  · exact .inr hadv

/-- A step that shows no frame ends the run or lowers the cost of what is
    left. -/
theorem Walker.step_cost [Arithmetic] {s : Scene} {now now' : Time}
    {running : Bool} {a : Agent} {w : Walker} {o : Observer} {count : Nat}
    (hstill : ∀ act rest, w.todo = act :: rest → act.isFrame = false) :
    (verdict o count now' (w.step s now running a).agent running
        (w.step s now running a).signal).outcome.isSome = true
      ∨ Act.cost s.ceiling (w.step s now running a).walker.todo
        < Act.cost s.ceiling w.todo :=
  (Walker.step_advances s now now' running a w o count).imp id
    fun hadv => hadv.cost_lt hstill

/-- An observer that neither stops nor fails. -/
def Observer.quiet (mode : ObserverMode) : Observer :=
  ⟨mode, fun _ => ⟨⟨[], false⟩, false⟩⟩

/-- An observer that lets others have their turn after each snapshot. -/
def Observer.yielding : Observer :=
  ⟨.present, fun _ => ⟨⟨[.finite 0], false⟩, false⟩⟩

namespace Solo

variable [Arithmetic] {s : Scene} {o : Observer} {r : Solo}

/-- The next act of a run. -/
def next (s : Scene) (r : Solo) : Step :=
  r.walker.step s r.now r.running r.agent

/-- The verdict on the next act of a run. -/
def nextVerdict (s : Scene) (o : Observer) (r : Solo) : Verdict :=
  verdict o r.shown.length r.now (r.next s).agent r.running (r.next s).signal

/-- What the next act of a run does.  It ends the run at the end of its
    program, or stops it at a check, or fails, and nothing is shown then;
    or else it is an advance. -/
inductive NextAct (s : Scene) (o : Observer) (r : Solo) : Prop where
  | finishes (empty : r.walker.todo = [])
      (agent : (r.next s).agent = r.agent)
      (todo : (r.next s).walker.todo = r.walker.todo)
      (verdict : r.nextVerdict s o = ⟨some .finished, [], r.running⟩)
  | halts {rest : List Act} (down : r.running = false)
      (check : r.walker.todo = .check :: rest)
      (agent : (r.next s).agent = r.agent)
      (todo : (r.next s).walker.todo = r.walker.todo)
      (verdict : r.nextVerdict s o = ⟨some .halted, [], r.running⟩)
  | fails {f : RunFault} (signal : (r.next s).signal = .fail f)
      (todo : (r.next s).walker.todo = r.walker.todo)
      (falters : Falters s r.now r.agent r.walker.todo (r.next s).agent)
      (verdict : r.nextVerdict s o = ⟨some (.failed f), [], r.running⟩)
  | advances (advance : Advance s r.now r.agent r.walker.todo
      (r.next s).agent (r.next s).walker.todo (r.next s).signal)

/-- There is no other act for a run to take. -/
theorem next_cases (s : Scene) (o : Observer) (r : Solo) :
    NextAct s o r := by
  rcases Walker.step_cases s r.now r.running r.agent r.walker with
    ⟨hempty, heq⟩ | ⟨hdown, rest, log, hcheck, heq⟩ |
      ⟨f, hsig, htodo, hfalters⟩ | hadv
  · refine .finishes hempty (congrArg Step.agent heq)
      (congrArg (fun n : Step => n.walker.todo) heq) ?_
    rw [nextVerdict,
      show (r.next s).signal = .finish from congrArg Step.signal heq]
    rfl
  · refine .halts hdown hcheck (congrArg Step.agent heq)
      (congrArg (fun n : Step => n.walker.todo) heq) ?_
    rw [nextVerdict,
      show (r.next s).signal = .halt from congrArg Step.signal heq]
    rfl
  · refine .fails hsig htodo hfalters ?_
    rw [nextVerdict, show (r.next s).signal = .fail f from hsig]
    rfl
  · exact .advances hadv

/-- A run that is over stays as it is. -/
theorem step_over (h : r.outcome.isSome = true) : r.step s o = r := by
  unfold step
  split
  · rfl
  · rename_i hnone
    rw [hnone] at h
    cases h

/-- A run that goes on takes its next act and the verdict on it. -/
theorem step_spec (h : r.outcome = none) :
    (r.step s o).agent = (r.next s).agent
      ∧ (r.step s o).walker = (r.next s).walker
      ∧ (r.step s o).shown = (r.nextVerdict s o).shown ++ r.shown
      ∧ (r.step s o).running = (r.nextVerdict s o).running
      ∧ (r.step s o).outcome = (r.nextVerdict s o).outcome := by
  unfold step nextVerdict next
  rw [h]
  dsimp only
  generalize r.walker.step s r.now r.running r.agent = n
  cases n.signal with
  | emit =>
      simp only [answer, observe, verdict]
      cases o.mode <;> cases Snapshot.ofAgent n.agent <;>
        exact ⟨rfl, rfl, rfl, rfl, rfl⟩
  | _ => exact ⟨rfl, rfl, rfl, rfl, rfl⟩

/-- A step that goes on. -/
theorem step_goOn {b : Agent} {todo : List Act} {log : List LogLine}
    (hnone : r.outcome = none)
    (h : r.next s = r.walker.goOn b todo log) :
    r.step s o = { r with
      agent := b
      walker := { r.walker with todo := todo }
      reported := log.reverse ++ r.reported } := by
  unfold next at h
  unfold step
  rw [hnone]
  simp only [h, Walker.goOn, answer]

/-- A step that sleeps. -/
theorem step_sleep {todo : List Act} {seconds : Scalar}
    (hnone : r.outcome = none)
    (h : r.next s = ⟨r.agent, { r.walker with todo := todo }, [],
      .sleep seconds⟩) :
    r.step s o = { r with
      walker := { r.walker with todo := todo }
      now := r.now.after seconds } := by
  unfold next at h
  unfold step
  rw [hnone]
  simp [h, answer]

/-- A step that fails. -/
theorem step_fail {b : Agent} {log : List LogLine} {f : RunFault}
    (hnone : r.outcome = none) (h : r.next s = r.walker.failed b log f) :
    r.step s o = { r with
      agent := b
      reported := log.reverse ++ r.reported
      outcome := some (.failed f) } := by
  unfold next at h
  unfold step
  rw [hnone]
  simp only [h, Walker.failed, answer]

/-- A run whose flag is up passes a check. -/
theorem step_check {rest : List Act} (hnone : r.outcome = none)
    (hrunning : r.running = true) (htodo : r.walker.todo = .check :: rest) :
    r.step s o = { r with walker := { r.walker with todo := rest } } := by
  have hnext : r.next s = r.walker.goOn r.agent rest [] := by
    simp only [next, Walker.step, htodo, hrunning, if_true]
  rw [step_goOn hnone hnext]
  rfl

/-- The last step of a run may be taken last. -/
theorem run_succ (k : Nat) :
    run s o (k + 1) r = (run s o k r).step s o := by
  induction k generalizing r with
  | zero =>
      unfold run
      split
      · rename_i hover
        exact (step_over (by rw [hover]; rfl)).symm
      · rfl
  | succ k ih =>
      rw [run]
      split
      · rename_i hover
        rw [show run s o (k + 1) r = r by rw [run, hover]]
        exact (step_over (by rw [hover]; rfl)).symm
      · rename_i hnone
        rw [ih, show run s o (k + 1) r = run s o k (r.step s o) by
          rw [run, hnone]]

/-- A quiet observer leaves the flag up. -/
theorem quiet_running {mode : ObserverMode} (h : r.running = true)
    (hnone : r.outcome = none) :
    (r.step s (.quiet mode)).running = true := by
  obtain ⟨-, -, -, hrunning, -⟩ := step_spec (s := s) (o := .quiet mode) hnone
  rw [hrunning]
  unfold nextVerdict verdict
  split
  · exact h
  · split
    · exact h
    · split
      · exact h
      · simp [Observer.quiet, h]
  · exact h
  · exact h
  · exact h
  · exact h

/-- What every step of a run keeps holds after any number of steps. -/
theorem run_keeps {P : Solo → Prop} (h : P r)
    (step : ∀ r, P r → r.outcome = none → P (r.step s o)) (k : Nat) :
    P (run s o k r) := by
  induction k with
  | zero => exact h
  | succ k ih =>
      rw [run_succ]
      cases hnone : (run s o k r).outcome with
      | none => exact step _ ih hnone
      | some outcome =>
          rw [step_over (by rw [hnone]; rfl)]
          exact ih

/-- A run on the grid has no frames before it. -/
theorem grounded_step (hmode : s.config.mode ≠ .canvas)
    (hg : Act.Grounded r.walker.todo) (hnone : r.outcome = none) :
    Act.Grounded (r.step s o).walker.todo := by
  obtain ⟨-, hwalker, -⟩ := step_spec (s := s) (o := o) hnone
  rw [hwalker]
  exact Walker.step_grounded hmode hg

/-- A step on the grid ends the run or lowers the cost of what is left. -/
theorem step_cost (hg : Act.Grounded r.walker.todo)
    (hnone : r.outcome = none) :
    (r.step s o).outcome.isSome = true
      ∨ Act.cost s.ceiling (r.step s o).walker.todo
        < Act.cost s.ceiling r.walker.todo := by
  obtain ⟨-, hwalker, -, -, houtcome⟩ := step_spec (s := s) (o := o) hnone
  rw [hwalker, houtcome]
  exact Walker.step_cost fun act rest htodo =>
    hg act (htodo ▸ List.mem_cons_self ..)

/-- A run stays over. -/
theorem run_over {k j : Nat} (h : (run s o k r).outcome.isSome = true)
    (hle : k ≤ j) : run s o j r = run s o k r := by
  induction hle with
  | refl => rfl
  | step _ ih => rw [run_succ, ih, step_over h]

/-- Whether a run has come to the end of its program. -/
def isFinished (r : Solo) : Bool :=
  match r.outcome with
  | some .finished => true
  | _ => false

omit [Arithmetic] in
theorem isFinished_iff :
    r.isFinished = true ↔ r.outcome = some .finished := by
  unfold isFinished
  constructor
  · intro h
    split at h
    · assumption
    · cases h
  · intro h
    rw [h]

omit [Arithmetic] in
/-- A run that has come to its end is over. -/
theorem isFinished_over (h : r.isFinished = true) :
    r.outcome.isSome = true := by
  rw [isFinished_iff.1 h]
  rfl

/-- A run on the grid is over after as many steps as it costs, and one
    more. -/
theorem run_ends (hmode : s.config.mode ≠ .canvas) {r : Solo}
    (hg : Act.Grounded r.walker.todo) :
    (run s o (Act.cost s.ceiling r.walker.todo + 1) r).outcome.isSome
      = true := by
  -- what `k` steps leave costs `k` less, unless the run is over
  have hsteps : ∀ k, (run s o k r).outcome.isSome = true
      ∨ Act.Grounded (run s o k r).walker.todo
        ∧ Act.cost s.ceiling (run s o k r).walker.todo + k
          ≤ Act.cost s.ceiling r.walker.todo := by
    intro k
    induction k with
    | zero => exact .inr ⟨hg, Nat.le_refl _⟩
    | succ k ih =>
        rw [run_succ]
        rcases ih with hover | ⟨hground, hle⟩
        · rw [step_over hover]
          exact .inl hover
        · cases hnone : (run s o k r).outcome with
          | some outcome =>
              rw [step_over (by rw [hnone]; rfl), hnone]
              exact .inl rfl
          | none =>
              rcases step_cost (s := s) (o := o) hground hnone with
                hover | hless
              · exact .inl hover
              · exact .inr ⟨grounded_step hmode hground hnone, by omega⟩
  rcases hsteps (Act.cost s.ceiling r.walker.todo + 1) with hover | ⟨-, hle⟩
  · exact hover
  · omega

/-- A run that nobody stops is never halted. -/
theorem quiet_keeps {mode : ObserverMode} (h : r.running = true)
    (hnone : r.outcome = none) (k : Nat) :
    (run s (.quiet mode) k r).running = true
      ∧ (run s (.quiet mode) k r).outcome ≠ some .halted := by
  refine run_keeps (P := fun r => r.running = true
    ∧ r.outcome ≠ some .halted) ⟨h, by rw [hnone]; exact nofun⟩ ?_ k
  rintro r ⟨hup, -⟩ hgoes
  refine ⟨quiet_running hup hgoes, ?_⟩
  obtain ⟨-, -, -, -, houtcome⟩ := step_spec (s := s) (o := .quiet mode) hgoes
  rw [houtcome]
  cases next_cases s (.quiet mode) r with
  | finishes _ _ _ hverdict =>
      rw [hverdict]
      exact nofun
  | halts hdown =>
      rw [hup] at hdown
      cases hdown
  | fails _ _ _ hverdict =>
      rw [hverdict]
      exact nofun
  | advances hadv => exact hadv.unhalted

/-- No run renames its agent. -/
theorem run_named (k : Nat) : (run s o k r).agent.id = r.agent.id := by
  refine run_keeps (P := fun q => q.agent.id = r.agent.id) rfl ?_ k
  intro q hq hnone
  obtain ⟨hagent, -⟩ := step_spec (s := s) (o := o) hnone
  rw [hagent]
  exact Walker.step_named.trans hq

/-- On the grid it makes no difference to a run how long the observer of its
    snapshots sleeps, as long as it neither stops the run nor fails. -/
theorem run_gentle {o' : Observer} (hmode : s.config.mode ≠ .canvas)
    (hkind : o'.mode = o.mode)
    (ho : ∀ k, (o.reaction k).fails = false ∧ (o.reaction k).stops = false)
    (ho' : ∀ k, (o'.reaction k).fails = false
      ∧ (o'.reaction k).stops = false)
    (hg : Act.Grounded r.walker.todo) (k : Nat) :
    (run s o' k r).agent = (run s o k r).agent
      ∧ (run s o' k r).walker = (run s o k r).walker
      ∧ (run s o' k r).running = (run s o k r).running
      ∧ (run s o' k r).shown.map (·.snapshot)
        = (run s o k r).shown.map (·.snapshot)
      ∧ (run s o' k r).outcome = (run s o k r).outcome := by
  induction k with
  | zero => exact ⟨rfl, rfl, rfl, rfl, rfl⟩
  | succ k ih =>
      obtain ⟨hagent, hwalker, hrunning, hshown, hout⟩ := ih
      rw [run_succ, run_succ]
      cases hnone : (run s o k r).outcome with
      | some outcome =>
          rw [step_over (by rw [hout, hnone]; rfl),
            step_over (by rw [hnone]; rfl)]
          exact ⟨hagent, hwalker, hrunning, hshown, hout⟩
      | none =>
          have hground : Act.Grounded (run s o k r).walker.todo :=
            run_keeps (P := fun q => Act.Grounded q.walker.todo) hg
              (fun q hq hnone => grounded_step hmode hq hnone) k
          have hnext : (run s o' k r).next s = (run s o k r).next s := by
            unfold next
            rw [hagent, hwalker, hrunning]
            exact Walker.step_congr hmode hground (.inl rfl)
          obtain ⟨h₁, h₂, h₃, h₄, h₅⟩ :=
            step_spec (s := s) (o := o) hnone
          obtain ⟨h₁', h₂', h₃', h₄', h₅'⟩ :=
            step_spec (s := s) (o := o') (hout.trans hnone)
          obtain ⟨hends, hshows⟩ := verdict_congr o o'
            (run s o k r).shown.length (run s o' k r).shown.length
            (run s o k r).now (run s o' k r).now (run s o k r).running
            (run s o' k r).running ((run s o k r).next s).agent
            ((run s o k r).next s).signal hkind (ho _).1 (ho' _).1
          unfold nextVerdict at h₃ h₄ h₅ h₃' h₄' h₅'
          rw [hnext] at h₁' h₂' h₃' h₄' h₅'
          refine ⟨h₁'.trans h₁.symm, h₂'.trans h₂.symm, ?_, ?_, ?_⟩
          · rw [h₄, h₄', verdict_gentle (ho _).2, verdict_gentle (ho' _).2,
              hrunning]
          · rw [h₃, h₃', List.map_append, List.map_append, hshows, hshown]
          · rw [h₅, h₅', hends]

end Solo

end BlockStage
