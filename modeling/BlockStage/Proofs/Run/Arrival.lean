import BlockStage.Proofs.Number.Finite
import BlockStage.Proofs.Run.Journey
import BlockStage.Proofs.Run.Landing
import BlockStage.Proofs.Stage.Snapshot

/-! # Arrival — who stands in the goal knows it, once it has moved

    A run looks for the goal after every step and every frame, but not when
    it brings its agent onto the playfield.  So an agent in the goal has its
    flag up unless it has not moved since (`Agent.Aware`), and so does every
    snapshot of it (`Snapshot.Tells`).  Each step keeps this, and with it
    that the latest snapshot shows the agent as it is unless one is due
    (`Agent.Watched.step`). -/

namespace BlockStage

variable [Arithmetic]

/-! ## Agents -/

/-- An agent that is where its run has brought it onto the playfield, with
    the goal flag that it came with. -/
structure Agent.Unmoved (c : Config) (a a₀ : Agent) : Prop where
  place : ∃ p, clampPosition c a₀.position = .ok p ∧ a.position = p.position
  flag : a.goalReached = a₀.goalReached

/-- Where an agent can be: where it was brought onto the playfield, on a
    cell, or on the way between two points. -/
inductive Agent.Whereabouts (c : Config) (a a₀ : Agent) : Prop
  | start {p : Point} : clampPosition c a₀.position = .ok p →
      a.position = p.position → Whereabouts c a a₀
  | cell {col row : Int} : c.mode ≠ .canvas →
      a.position = [.int col, .int row] → Whereabouts c a a₀
  | frame {x y : Scalar} : a.position = [.real x, .real y] →
      Whereabouts c a a₀

/-- Only the place of an agent matters to where it can be. -/
theorem Agent.Whereabouts.same {c : Config} {a b a₀ : Agent}
    (h : a.Whereabouts c a₀) (hpos : b.position = a.position) :
    b.Whereabouts c a₀ := by
  cases h with
  | start hp ha => exact .start hp (hpos.trans ha)
  | cell hmode ha => exact .cell hmode (hpos.trans ha)
  | frame ha => exact .frame (hpos.trans ha)

/-- What is true of an agent on its way about the goal: in it the agent has
    its flag up, unless it has not moved. -/
structure Agent.Aware (s : Scene) (a a₀ : Agent) : Prop where
  heeds : a.InGoal s.goal →
    a.goalReached.holds = true ∨ a.Unmoved s.config a₀
  flag : a.goalReached = a₀.goalReached ∨ a.goalReached = .bool true
  whereabouts : a.Whereabouts s.config a₀

namespace Agent.Aware

variable {s : Scene} {a₀ a b : Agent} {p : Point}

/-- An agent that has just been brought onto the playfield. -/
theorem placed (hp : clampPosition s.config a.position = .ok p) :
    Aware s { a with position := p.position } a :=
  ⟨fun _ => .inr ⟨⟨p, hp, rfl⟩, rfl⟩, .inl rfl, .start hp rfl⟩

/-- Nothing changes if neither the place nor the flag does. -/
theorem same (h : a.Aware s a₀) (hpos : b.position = a.position)
    (hflag : b.goalReached = a.goalReached) : b.Aware s a₀ := by
  refine ⟨fun ⟨g, hg, hin⟩ => ?_, hflag ▸ h.flag, h.whereabouts.same hpos⟩
  rw [hflag]
  exact (h.heeds ⟨g, hg, hpos ▸ hin⟩).imp_right fun hun =>
    ⟨hpos ▸ hun.place, hflag.trans hun.flag⟩

/-- The flag may be put up at any time. -/
theorem raised (h : a.Aware s a₀) :
    Aware s { a with goalReached := .bool true } a₀ :=
  ⟨fun _ => .inl rfl, .inr rfl, h.whereabouts.same rfl⟩

/-- An agent that has moved and then looked for the goal. -/
theorem arrived (h : a.Aware s a₀)
    (hp : Whereabouts s.config { a with position := p.position } a₀)
    (hb : { a with position := p.position }.latchGoal s.goal = .ok b) :
    b.Aware s a₀ := by
  obtain ⟨hwhich, hup⟩ := latchGoal_up hb
  rcases hwhich with rfl | rfl
  · exact ⟨fun hin => .inl (hup hin), h.flag, hp⟩
  · exact ⟨fun hin => .inl (hup hin), .inr rfl, hp.same rfl⟩

/-- An agent that has moved to where the goal cannot be looked for is not
    known to be in it. -/
theorem astray (h : a.Aware s a₀)
    (hp : Whereabouts s.config { a with position := p.position } a₀)
    {f : OperandFault}
    (hf : { a with position := p.position }.latchGoal s.goal = .error f) :
    Aware s { a with position := p.position } a₀ :=
  ⟨fun hin => absurd hin (latchGoal_error hf), h.flag, hp⟩

end Agent.Aware

/-! ## Snapshots -/

section

/-- A snapshot shows where an agent is and what its flag says. -/
structure Agent.ShownAs (a : Agent) (x : Snapshot) : Prop where
  place : ∃ u v, a.position = [u, v]
    ∧ Lenient.measure u = .ok x.position.1
    ∧ Lenient.measure v = .ok x.position.2
  flag : Lenient.truth a.goalReached = .ok x.goalReached

/-- A snapshot of an agent that was aware of the goal. -/
def Snapshot.Tells (s : Scene) (a₀ : Agent) (x : Snapshot) : Prop :=
  ∃ a : Agent, a.Aware s a₀ ∧ a.ShownAs x

/-- A snapshot of a place in the goal. -/
def Snapshot.InGoal (goal : Option GoalRegion) (x : Snapshot) : Prop :=
  ∃ g, goal = some g
    ∧ g.contains [.real x.position.1, .real x.position.2] = .ok true

/-- A snapshot of a place that 53 bits are enough for. -/
def Snapshot.Small (x : Snapshot) : Prop :=
  ∀ q, x.position.1 = .finite q ∨ x.position.2 = .finite q → |q| < 2 ^ 53

/-- A snapshot of where a run has brought its agent onto the playfield, with
    the goal flag that the agent came with. -/
def Snapshot.OfStart (c : Config) (a₀ : Agent) (x : Snapshot) : Prop :=
  ∃ a : Agent, a.Unmoved c a₀ ∧ a.ShownAs x

variable {s : Scene} {o : Observer} {a₀ a b : Agent} {x : Snapshot}

theorem Agent.ShownAs.of_snapshot (h : Snapshot.ofAgent a = .ok x) :
    a.ShownAs x := by
  obtain ⟨-, hplace, -, -, hflag⟩ := Snapshot.ofAgent_ok.1 h
  exact ⟨hplace, hflag⟩

theorem Agent.ShownAs.same (h : a.ShownAs x) (hpos : b.position = a.position)
    (hflag : b.goalReached = a.goalReached) : b.ShownAs x :=
  ⟨hpos ▸ h.place, hflag ▸ h.flag⟩

/-- A flag that is a truth value is shown as it is. -/
theorem Agent.ShownAs.reads (h : a.ShownAs x) {up : Bool}
    (hup : a.goalReached = .bool up) : x.goalReached = up := by
  have hread := h.flag
  rw [hup] at hread
  exact (Except.ok.inj hread).symm

/-- A snapshot of an agent that is in the goal says so, or the agent has not
    moved yet. -/
theorem Agent.Aware.shown (h : a.Aware s a₀) (hx : a.ShownAs x) {up : Bool}
    (hup : a₀.goalReached = .bool up) (hin : a.InGoal s.goal) :
    x.goalReached = true ∨ x.OfStart s.config a₀ := by
  refine (h.heeds hin).imp (fun hholds => ?_) fun hun => ⟨a, hun, hx⟩
  rcases h.flag with heq | heq
  · rw [heq, hup] at hholds
    exact (hx.reads (heq.trans hup)).trans hholds
  · exact hx.reads heq

/-- What 53 bits are enough for is measured exactly. -/
theorem Lenient.measure_exact
    (hround : ∀ q, Arithmetic.round q = Binary64.nearest q) {n : Int}
    {z : Scalar} (h : Lenient.measure (.int n) = .ok z)
    (hsmall : ∀ q, z = .finite q → |q| < 2 ^ 53) : (Num.int n).exact = z := by
  have h : ((Num.int n).measure.mapError fun _ => Flaw.notAMeasure)
      = .ok z := h
  unfold Num.measure at h
  dsimp only at h
  rw [hround] at h
  rcases Binary64.nearest_count n with ⟨negative, hinf⟩ | ⟨m, hm⟩
  · rw [hinf] at h
    cases h
  · rw [hm] at h
    cases h
    exact congrArg Scalar.finite (Binary64.nearest_exact hm (hsmall _ rfl)).symm

/-- On a cell that 53 bits are enough for an agent is in the goal exactly if
    its snapshot is. -/
theorem Agent.ShownAs.cell_inGoal
    (hround : ∀ q, Arithmetic.round q = Binary64.nearest q)
    {goal : Option GoalRegion} {col row : Int} (hx : a.ShownAs x)
    (hpos : a.position = [.int col, .int row]) (hsmall : x.Small) :
    a.InGoal goal ↔ x.InGoal goal := by
  obtain ⟨u, v, huv, hu, hv⟩ := hx.place
  rw [hpos] at huv
  cases huv
  have hcol : (Num.int col).exact = (Num.real x.position.1).exact :=
    Lenient.measure_exact hround hu fun q hq => hsmall q (.inl hq)
  have hrow : (Num.int row).exact = (Num.real x.position.2).exact :=
    Lenient.measure_exact hround hv fun q hq => hsmall q (.inr hq)
  constructor
  · rintro ⟨g, hg, hin⟩
    rw [hpos] at hin
    exact ⟨g, hg, GoalRegion.contains_exact rfl hcol.symm rfl hrow.symm hin⟩
  · rintro ⟨g, hg, hin⟩
    refine ⟨g, hg, ?_⟩
    rw [hpos]
    exact GoalRegion.contains_exact rfl hcol rfl hrow hin

/-- A measured place is shown as it is. -/
theorem Agent.ShownAs.frame_inGoal {goal : Option GoalRegion} {y z : Scalar}
    (hx : a.ShownAs x) (hpos : a.position = [.real y, .real z]) :
    a.InGoal goal ↔ x.InGoal goal := by
  obtain ⟨u, v, huv, hu, hv⟩ := hx.place
  rw [hpos] at huv
  cases huv
  cases hu
  cases hv
  unfold Agent.InGoal Snapshot.InGoal
  rw [hpos]

/-- A snapshot that shows a place in the goal says that the goal is reached,
    or its agent has not moved yet: on the canvas always, and on the grid
    where 53 bits are enough for the cell. -/
theorem Snapshot.Tells.flagged
    (hround : ∀ q, Arithmetic.round q = Binary64.nearest q)
    (h : x.Tells s a₀) {up : Bool} (hup : a₀.goalReached = .bool up)
    (hsmall : s.config.mode = .canvas ∨ x.Small) (hin : x.InGoal s.goal) :
    x.goalReached = true ∨ x.OfStart s.config a₀ := by
  obtain ⟨a, ha, hx⟩ := h
  cases ha.whereabouts with
  | start hp hpos =>
      rcases ha.flag with hflag | hflag
      · exact .inr ⟨a, ⟨⟨_, hp, hpos⟩, hflag⟩, hx⟩
      · exact .inl (hx.reads hflag)
  | cell hmode hpos =>
      have hsmall := hsmall.resolve_left hmode
      exact ha.shown hx hup ((hx.cell_inGoal hround hpos hsmall).2 hin)
  | frame hpos => exact ha.shown hx hup ((hx.frame_inGoal hpos).2 hin)

end

/-! ## Steps -/

open Act

section

variable {s : Scene} {o : Observer} {now : Time}
  {a₀ a b : Agent} {todo next : List Act} {signal : Signal}

/-- An advance leaves an agent where it is with the flag it has, or shows it
    next; either way it is aware of the goal. -/
theorem Advance.aware (h : Advance s now a todo b next signal)
    (hway : UnderWay s.config todo) (ha : a.Aware s a₀) :
    b.Aware s a₀ ∧ (b.position = a.position ∧ b.goalReached = a.goalReached
      ∨ ∃ rest, next = .emit :: rest) := by
  cases h with
  | place => exact (hway.head nofun).elim
  | nextStride hp hb =>
      obtain ⟨col, row, rfl⟩ := gridStep_cell hp
      exact ⟨ha.arrived (.cell (hway.head nofun) rfl) hb, .inr ⟨_, rfl⟩⟩
  | glides _ hp hb =>
      obtain ⟨x, y, rfl⟩ := Walker.between_real hp
      exact ⟨ha.arrived (.frame rfl) hb, .inr ⟨_, rfl⟩⟩
  | _ => exact ⟨ha.same rfl rfl, .inl ⟨rfl, rfl⟩⟩

/-- After a step that fails an agent is aware of the goal. -/
theorem Falters.aware (h : Falters s now a todo b)
    (hway : UnderWay s.config todo) (ha : a.Aware s a₀) : b.Aware s a₀ := by
  cases h with
  | stays => exact ha
  | strides hp hf =>
      obtain ⟨col, row, rfl⟩ := gridStep_cell hp
      exact ha.astray (.cell (hway.head nofun) rfl) hf
  | glides _ hp hf =>
      obtain ⟨x, y, rfl⟩ := Walker.between_real hp
      exact ha.astray (.frame rfl) hf

/-- A run that has placed its agent, and what has been shown of the agent,
    the latest first: the latest snapshot shows it as it is, unless one is
    due. -/
structure Agent.Watched (s : Scene) (o : Observer) (a a₀ : Agent)
    (todo : List Act) (shown : List Snapshot) : Prop where
  aware : a.Aware s a₀
  underWay : UnderWay s.config todo
  told : ∀ x ∈ shown, x.Tells s a₀
  last : (∃ rest, todo = .emit :: rest)
    ∨ ∀ x, shown.head? = some x → a.ShownAs x
  unseen : o.mode = .absent → shown = []

namespace Agent.Watched

variable {w : Walker} {running : Bool} {shown : List Snapshot} {n : Step}
  {e : Verdict} {count : Nat} {moment : Time}

/-- An agent that has just been brought onto the playfield. -/
theorem placed {p : Point} {program : Program}
    (hp : clampPosition s.config a.position = .ok p) :
    Watched s o { a with position := p.position } a
      (.check :: program.map .perform) [] :=
  ⟨.placed hp, .inl (allSilent_program program), List.forall_mem_nil _,
    .inr (fun _ hno => nomatch hno), fun _ => rfl⟩

/-- Once no snapshot is due any more, the latest one of an agent in the goal
    says so, or the agent has not moved. -/
theorem closed (h : a.Watched s o a₀ todo shown)
    (hdue : ∀ rest, todo ≠ .emit :: rest) {up : Bool}
    (hup : a₀.goalReached = .bool up) (hin : a.InGoal s.goal) {x : Snapshot}
    (hx : shown.head? = some x) :
    x.goalReached = true ∨ x.OfStart s.config a₀ := by
  refine h.aware.shown (h.last.resolve_left ?_ x hx) hup hin
  rintro ⟨rest, hno⟩
  exact hdue rest hno

/-- A step that shows nothing leaves the latest snapshot true, or has one
    due. -/
theorem silent (h : a.Watched s o a₀ todo shown)
    (hstep : Advance s now a todo b next signal) (hno : signal ≠ .emit) :
    b.Watched s o a₀ next shown := by
  obtain ⟨haware, hmoved⟩ := hstep.aware h.underWay h.aware
  refine ⟨haware, hstep.underWay h.underWay, h.told, ?_, h.unseen⟩
  rcases hmoved with ⟨hpos, hflag⟩ | hdue
  · refine .inr fun x hx => ?_
    rcases h.last with ⟨rest, rfl⟩ | hlast
    · cases hstep
      exact absurd rfl hno
    · exact (hlast x hx).same hpos hflag
  · exact .inl hdue

/-- One step of a watched run.  The run goes on, or it ends with no snapshot
    due, or it fails. -/
theorem step (h : a.Watched s o a₀ w.todo shown)
    (hn : n = w.step s now running a)
    (he : e = verdict o count moment n.agent running n.signal) :
    n.agent.Watched s o a₀ n.walker.todo
          (e.shown.map (·.snapshot) ++ shown)
        ∧ (e.outcome = none ∨ ∀ rest, n.walker.todo ≠ .emit :: rest)
      ∨ (∃ f, e.outcome = some (.failed f)) ∧ n.agent.Aware s a₀
        ∧ ∀ x ∈ e.shown.map (·.snapshot) ++ shown, x.Tells s a₀ := by
  subst hn he
  rcases Walker.step_cases s now running a w with
    ⟨htodo, heq⟩ | ⟨-, rest, log, htodo, heq⟩ | ⟨f, hfail, -, hfalters⟩ | hadv
  · rw [heq]
    refine .inl ⟨h, .inr fun rest => ?_⟩
    rw [htodo]
    exact nofun
  · rw [heq]
    refine .inl ⟨h, .inr fun rest' => ?_⟩
    rw [htodo]
    exact nofun
  · rw [hfail]
    exact .inr ⟨⟨f, rfl⟩, hfalters.aware h.underWay h.aware, h.told⟩
  · generalize w.step s now running a = n at hadv
    by_cases hemit : n.signal = .emit
    · obtain ⟨-, hagent⟩ := hadv.showing hemit
      have hway := hadv.underWay h.underWay
      rw [hemit, hagent]
      rcases verdict_emit o count moment a running with
        ⟨habsent, heq⟩ | ⟨-, ms, -, heq⟩ | ⟨hseen, x, hx, heq⟩
      · rw [heq]
        refine .inl ⟨⟨h.aware, hway, h.told, .inr ?_, h.unseen⟩, .inl rfl⟩
        rw [h.unseen habsent]
        exact fun _ hno => nomatch hno
      · rw [heq]
        exact .inr ⟨⟨_, rfl⟩, hagent ▸ h.aware, h.told⟩
      · rw [heq]
        -- the agent is shown as it is
        have hshown : a.ShownAs x := .of_snapshot hx
        have htold : ∀ y ∈ x :: shown, y.Tells s a₀ :=
          List.forall_mem_cons.2 ⟨⟨a, h.aware, hshown⟩, h.told⟩
        by_cases hfails : (o.reaction (count + 1)).fails = true
        · rw [if_pos hfails]
          exact .inr ⟨⟨_, rfl⟩, hagent ▸ h.aware, htold⟩
        · rw [if_neg hfails]
          refine .inl ⟨⟨h.aware, hway, htold, .inr fun y hy => ?_,
            fun habsent => absurd habsent hseen⟩, .inl rfl⟩
          obtain rfl := Option.some.inj hy
          exact hshown
    · rw [hadv.unshown hemit]
      exact .inl ⟨h.silent hadv hemit, .inl rfl⟩

end Agent.Watched

/-- The first step of a run brings its agent onto the playfield, or fails. -/
theorem Walker.sets_out {p : Program} {running : Bool} {n : Step}
    {e : Verdict} {count : Nat} {moment : Time}
    (hn : n = (Walker.start p).step s now running a)
    (he : e = verdict o count moment n.agent running n.signal) :
    e.shown = [] ∧ (e.outcome = none
        ∧ n.agent.Watched s o a n.walker.todo []
      ∨ n.agent = a ∧ ∃ f, e.outcome = some (.failed f)) := by
  have hstep : (Walker.start p).step s now running a
      = (Walker.start p).goOnWith a [] (operate (clampPosition s.config
        a.position)) fun q => (Walker.start p).goOn
          { a with position := q.position } (.check :: p.map .perform) [] :=
    rfl
  rw [hstep] at hn
  cases hp : clampPosition s.config a.position with
  | ok point =>
      rw [hp] at hn
      subst hn he
      exact ⟨rfl, .inl ⟨rfl, .placed hp⟩⟩
  | error f =>
      rw [hp] at hn
      subst hn he
      exact ⟨rfl, .inr ⟨rfl, _, rfl⟩⟩

/-- An agent with its flag up enters the body of a conditional. -/
theorem Walker.step_enters {w : Walker} {running : Bool}
    {body : List Instruction} {rest : List Act}
    (htodo : w.todo = .perform (.ifGoalReached body) :: rest)
    (hup : a.goalReached.holds = true) :
    ∃ log, w.step s now running a
      = w.goOn a (body.map .perform ++ rest) log := by
  rw [Walker.step, htodo]
  exact ⟨_, if_pos hup⟩

end

/-! ## Runs -/

namespace Solo

/-- How a run stands with the goal: it has not begun, it could not even
    bring its agent onto the playfield, it is watched, or it has failed. -/
inductive Attended (s : Scene) (o : Observer) (p : Program) (a₀ : Agent)
    (r : Solo) : Prop
  | begins : r.outcome = none → r.walker = .start p → r.agent = a₀ →
      r.shown = [] → Attended s o p a₀ r
  | unplaced {f : RunFault} : r.outcome = some (.failed f) → r.agent = a₀ →
      r.shown = [] → Attended s o p a₀ r
  | goes : r.agent.Watched s o a₀ r.walker.todo
      (r.shown.map (·.snapshot)) → Attended s o p a₀ r
  | fails {f : RunFault} : r.outcome = some (.failed f) →
      r.agent.Aware s a₀ → (∀ x ∈ r.shown.map (·.snapshot), x.Tells s a₀) →
      Attended s o p a₀ r

/-- What a run does about the goal. -/
structure Notices (s : Scene) (o : Observer) (a₀ : Agent) (r : Solo) :
    Prop where
  /-- The agent is aware of the goal, once it is on the playfield. -/
  aware : r.agent.Aware s a₀ ∨ r.agent = a₀ ∧ r.shown = []
  /-- A snapshot of a place in the goal says that it is reached, unless the
      agent has not moved. -/
  shown : ∀ up, a₀.goalReached = .bool up → ∀ e ∈ r.events,
    s.config.mode = .canvas ∨ e.snapshot.Small →
    e.snapshot.InGoal s.goal →
    e.snapshot.goalReached = true ∨ e.snapshot.OfStart s.config a₀
  /-- In the goal the body of a conditional is run, unless the agent has not
      moved. -/
  enters : ∀ body rest, r.outcome = none →
    r.walker.todo = .perform (.ifGoalReached body) :: rest →
    r.agent.InGoal s.goal →
    r.agent.Unmoved s.config a₀
      ∨ (r.step s o).walker.todo = body.map .perform ++ rest
        ∧ (r.step s o).agent = r.agent ∧ (r.step s o).outcome = none

variable {s : Scene} {o : Observer} {p : Program} {a₀ : Agent} {r q : Solo}

/-- Neither the clock nor the running flag matters to the goal. -/
theorem Attended.congr (h : r.Attended s o p a₀)
    (hagent : q.agent = r.agent) (hwalker : q.walker = r.walker)
    (hshown : q.shown = r.shown) (houtcome : q.outcome = r.outcome) :
    q.Attended s o p a₀ := by
  cases h with
  | begins hnone hwalk hag hsh =>
      exact .begins (houtcome.trans hnone) (hwalker.trans hwalk)
        (hagent.trans hag) (hshown.trans hsh)
  | unplaced hfail hag hsh =>
      exact .unplaced (houtcome.trans hfail) (hagent.trans hag)
        (hshown.trans hsh)
  | goes hw =>
      rw [← hagent, ← hwalker, ← hshown] at hw
      exact .goes hw
  | fails hfail ha htold =>
      rw [← hagent] at ha
      rw [← hshown] at htold
      exact .fails (houtcome.trans hfail) ha htold

/-- A step of a run that goes on. -/
theorem Attended.step (h : r.Attended s o p a₀) (hnone : r.outcome = none) :
    (r.step s o).Attended s o p a₀ := by
  obtain ⟨hagent, hwalker, hshown, -, houtcome⟩ :=
    step_spec (s := s) (o := o) hnone
  cases h with
  | begins _ hwalk hag hsh =>
      have hn : r.next s
          = (Walker.start p).step s r.now r.running a₀ := by
        rw [Solo.next, hwalk, hag]
      obtain ⟨hquiet, ⟨-, hw⟩ | ⟨hsame, f, hf⟩⟩ :=
        Walker.sets_out hn (e := r.nextVerdict s o) rfl
      · refine .goes ?_
        rw [hagent, hwalker, hshown, hquiet, hsh]
        exact hw
      · refine .unplaced (houtcome.trans hf) (hagent.trans hsame) ?_
        rw [hshown, hquiet, hsh]
        rfl
  | unplaced hfail => rw [hnone] at hfail; cases hfail
  | fails hfail => rw [hnone] at hfail; cases hfail
  | goes hw =>
      rcases hw.step (n := r.next s) (e := r.nextVerdict s o) rfl rfl with
        ⟨hw', -⟩ | ⟨⟨f, hf⟩, ha, htold⟩
      · refine .goes ?_
        rw [hagent, hwalker, hshown, List.map_append]
        exact hw'
      · refine .fails (houtcome.trans hf) (hagent ▸ ha) ?_
        rw [hshown, List.map_append]
        exact htold

/-- All along its way a run is attended to. -/
theorem Journey.attended {running : Bool}
    (h : Journey s o (.start p a₀ running) r) : r.Attended s o p a₀ := by
  induction h with
  | starts => exact .begins rfl rfl rfl rfl
  | acts _ hnone ih => exact ih.step hnone
  | flagged _ _ ih => exact ih.congr rfl rfl rfl rfl
  | later _ _ ih => exact ih.congr rfl rfl rfl rfl

/-- What a run that is attended to does about the goal. -/
theorem Attended.notices
    (hround : ∀ q, Arithmetic.round q = Binary64.nearest q)
    (h : r.Attended s o p a₀) : r.Notices s o a₀ := by
  have htold : ∀ x ∈ r.shown.map (·.snapshot), x.Tells s a₀ := by
    cases h with
    | begins _ _ _ hsh => rw [hsh]; exact List.forall_mem_nil _
    | unplaced _ _ hsh => rw [hsh]; exact List.forall_mem_nil _
    | goes hw => exact hw.told
    | fails _ _ htold => exact htold
  refine ⟨?_, fun up hup e he hsmall hin => ?_, ?_⟩
  · cases h with
    | begins _ _ hag hsh => exact .inr ⟨hag, hsh⟩
    | unplaced _ hag hsh => exact .inr ⟨hag, hsh⟩
    | goes hw => exact .inl hw.aware
    | fails _ ha => exact .inl ha
  · have hmem : e.snapshot ∈ r.shown.map (·.snapshot) :=
      List.mem_map_of_mem (List.mem_reverse.1 he)
    exact (htold _ hmem).flagged hround hup hsmall hin
  · intro body rest hnone htodo hin
    cases h with
    | begins _ hwalk =>
        rw [hwalk] at htodo
        cases htodo
    | unplaced hfail => rw [hnone] at hfail; cases hfail
    | fails hfail => rw [hnone] at hfail; cases hfail
    | goes hw =>
        refine (hw.aware.heeds hin).symm.imp_right fun hup => ?_
        obtain ⟨log, hstep⟩ : ∃ log,
            r.walker.step s r.now r.running r.agent
              = r.walker.goOn r.agent (body.map Act.perform ++ rest) log :=
          Walker.step_enters htodo hup
        rw [step_goOn hnone hstep]
        exact ⟨rfl, rfl, hnone⟩

end Solo

end BlockStage
