import BlockStage.Proofs.Run.Journey
import BlockStage.Proofs.Run.Landing
import BlockStage.Proofs.Run.Progress
import BlockStage.Proofs.Stage.Goal

/-! # Publication — nothing about an agent is left untold

    An agent that can be shown once it has been brought onto the playfield
    can be shown all along its journey, if it says only text and the stage
    is surveyed: steps lead to cells that can be measured, frames to measured
    points and headings.  Whatever changes the agent is followed at once by
    a snapshot, so that whenever a run gives up its turn or ends, the agent
    is as it was last shown (`Solo.Told`).  A message that was put up is
    shown once, and the next snapshot shows it taken down (`Solo.Utters`). -/

namespace BlockStage

/-- An agent that can be shown. -/
def Agent.Showable [Arithmetic] (a : Agent) : Prop :=
  ∃ snapshot, Snapshot.ofAgent a = .ok snapshot

/-- A goal of numbers, if there is one, and a grid that can be measured, if
    it is one. -/
structure Scene.Surveyed [Arithmetic] (s : Scene) : Prop where
  goal : ∀ g, s.goal = some g → g.isNumeric = true
  grid : s.config.mode ≠ .canvas → ∃ columns rows, s.Measured columns rows

/-- A grid, if it is one, whose cells and headings can be measured. -/
structure Scene.Charted [Arithmetic] (s : Scene) : Prop where
  cells : s.config.mode ≠ .canvas → ∃ columns rows,
    s.config.Counted columns rows ∧ ∀ n : Int, 0 ≤ n →
      n ≤ max 0 (columns - 1) ∨ n ≤ max 0 (rows - 1) →
        ∃ x, (Num.int n).measure = .ok x
  headings : s.config.mode ≠ .canvas → ∀ n : Int, isCardinal n = true →
    ∃ x, (Num.int n).measure = .ok x

/-- A surveyed stage is charted. -/
theorem Scene.Surveyed.charted [Arithmetic] {s : Scene} (hs : s.Surveyed) :
    s.Charted := by
  constructor
  · intro hmode
    obtain ⟨columns, rows, hgrid⟩ := hs.grid hmode
    exact ⟨columns, rows, hgrid.counted, hgrid.cells⟩
  · intro hmode
    obtain ⟨columns, rows, hgrid⟩ := hs.grid hmode
    exact hgrid.headings

/-- An observer that looks at every snapshot and never raises an error. -/
structure Observer.Attends (o : Observer) : Prop where
  present : o.mode ≠ .absent
  agrees : ∀ k, (o.reaction k).fails = false

/-- A snapshot is shown, and the flag is then up if it was up and the observer
    leaves it. -/
theorem Solo.step_shows [Arithmetic] {s : Scene} {o : Observer} {r : Solo}
    {rest : List Act} (ho : o.Attends) (hnone : r.outcome = none)
    (ha : r.agent.Showable) (htodo : r.walker.todo = .emit :: rest) :
    ∃ z, Snapshot.ofAgent r.agent = .ok z
      ∧ r.step s o = { r with
          walker := { r.walker with todo := rest }
          now := (o.reaction (r.shown.length + 1)).rests.foldl Time.after r.now
          shown := ⟨r.now, z⟩ :: r.shown
          running := r.running
            && !(o.reaction (r.shown.length + 1)).stops } := by
  obtain ⟨z, hz⟩ := ha
  have hnext : r.walker.step s r.now r.running r.agent
      = ⟨r.agent, { r.walker with todo := rest }, [], .emit⟩ := by
    unfold Walker.step
    rw [htodo]
  refine ⟨z, hz, ?_⟩
  unfold step
  rw [hnone]
  simp only [hnext, answer, observe, hz]
  cases hmode : o.mode with
  | absent => exact absurd hmode ho.present
  | present => simp [await, ho.agrees]

section

variable [Arithmetic] {s : Scene} {now : Time} {a b : Agent}
  {todo next : List Act} {signal : Signal}

/-! ## What can be shown -/

namespace Agent.Showable

/-- At another place that can be measured. -/
theorem moved (h : a.Showable) {u v : Value} {x y : Scalar}
    (hu : Lenient.measure u = .ok x) (hv : Lenient.measure v = .ok y) :
    Agent.Showable { a with position := [u, v] } := by
  obtain ⟨z, hz⟩ := h
  obtain ⟨hname, -, hheading, hmessage, hgoal⟩ := Snapshot.ofAgent_ok.1 hz
  exact ⟨{ z with position := (x, y) }, Snapshot.ofAgent_ok.2
    ⟨hname, ⟨u, v, rfl, hu, hv⟩, hheading, hmessage, hgoal⟩⟩

/-- With another heading that can be measured. -/
theorem turned (h : a.Showable) {v : Value} {x : Scalar}
    (hv : Lenient.measure v = .ok x) :
    Agent.Showable { a with heading := v } := by
  obtain ⟨z, hz⟩ := h
  obtain ⟨hname, hplace, -, hmessage, hgoal⟩ := Snapshot.ofAgent_ok.1 hz
  exact ⟨{ z with heading := x }, Snapshot.ofAgent_ok.2
    ⟨hname, hplace, hv, hmessage, hgoal⟩⟩

/-- With another message that is a text or nothing: only the message is
    shown anew. -/
theorem spoken {z : Snapshot} (hz : Snapshot.ofAgent a = .ok z) {v : Value}
    {m : Option String} (hv : Lenient.text? v = .ok m) :
    Snapshot.ofAgent { a with message := v } = .ok { z with message := m } := by
  obtain ⟨hname, hplace, hheading, -, hgoal⟩ := Snapshot.ofAgent_ok.1 hz
  exact Snapshot.ofAgent_ok.2 ⟨hname, hplace, hheading, hv, hgoal⟩

/-- With the goal flag set as a run sets it. -/
theorem latched (h : a.Showable) {goal : Option GoalRegion}
    (hb : a.latchGoal goal = .ok b) : b.Showable := by
  rcases (Agent.latchGoal_up hb).1 with rfl | rfl
  · exact h
  · obtain ⟨z, hz⟩ := h
    obtain ⟨hname, hplace, hheading, hmessage, -⟩ := Snapshot.ofAgent_ok.1 hz
    exact ⟨{ z with goalReached := true }, Snapshot.ofAgent_ok.2
      ⟨hname, hplace, hheading, hmessage, rfl⟩⟩

end Agent.Showable

/-- A step on a charted grid leads to a cell that can be measured. -/
theorem Scene.Charted.cell (hs : s.Charted) (hmode : s.config.mode ≠ .canvas)
    {position : Position} {heading : Value} {p : Point}
    (h : gridStep s.config position heading = .ok p) :
    ∃ (x y : Int) (u v : Scalar), p = (.int x, .int y)
      ∧ Lenient.measure (.int x) = .ok u
      ∧ Lenient.measure (.int y) = .ok v := by
  obtain ⟨columns, rows, hcounted, hcells⟩ := hs.cells hmode
  obtain ⟨x, y, rfl, hx, hxlast, hy, hylast⟩ := gridStep_isCell hcounted h
  obtain ⟨u, hu⟩ := hcells x hx (.inl hxlast)
  obtain ⟨v, hv⟩ := hcells y hy (.inr hylast)
  exact ⟨x, y, u, v, rfl, Lenient.measure_int hu, Lenient.measure_int hv⟩

/-- An agent under way that can be shown can be shown after a step, if it
    says only text. -/
theorem Advance.showable (h : Advance s now a todo b next signal)
    (hs : s.Charted) (hway : Act.UnderWay s.config todo)
    (hspoken : Act.EveryOf Instruction.IsSpoken todo) (ha : a.Showable) :
    b.Showable := by
  cases h with
  | place => exact (hway.head nofun).elim
  | quarters hmode _ hturn =>
      obtain ⟨x, hx⟩ := hs.headings hmode _ (gridTurn_isCardinal hturn)
      exact ha.turned (Lenient.measure_int hx)
  | say =>
      obtain ⟨text, rfl⟩ := (Act.everyOf_cons.1 hspoken).1
      obtain ⟨z, hz⟩ := ha
      exact ⟨_, Agent.Showable.spoken hz (v := .str text) rfl⟩
  | nextStride hstep hb =>
      obtain ⟨x, y, u, v, rfl, hu, hv⟩ := hs.cell (hway.head nofun) hstep
      exact (ha.moved hu hv).latched hb
  | hush =>
      obtain ⟨z, hz⟩ := ha
      exact ⟨_, Agent.Showable.spoken hz (v := .null) rfl⟩
  | glides _ hp hb =>
      obtain ⟨x, y, rfl⟩ := Walker.between_real hp
      exact (ha.moved (u := .real x) (v := .real y) rfl rfl).latched hb
  | swings _ hheading =>
      obtain ⟨x, rfl⟩ := interpolate_real hheading
      exact ha.turned (v := .real x) rfl
  | _ => exact ha

/-- Under way a step that fails leaves the agent as it is: wherever it may
    have been moved can be compared with the goal. -/
theorem Falters.unmoved (h : Falters s now a todo b) (hs : s.Surveyed)
    (hway : Act.UnderWay s.config todo) : b = a := by
  cases h with
  | stays => rfl
  | strides hp hno =>
      obtain ⟨x, y, -, -, rfl, -⟩ := hs.charted.cell (hway.head nofun) hp
      obtain ⟨b, hb⟩ : ∃ b, Agent.latchGoal
          { a with position := Point.position (.int x, .int y) } s.goal
            = .ok b :=
        Agent.latchGoal_numbers hs.goal rfl rfl rfl
      rw [hno] at hb
      cases hb
  | glides _ hp hno =>
      obtain ⟨x, y, rfl⟩ := Walker.between_real hp
      obtain ⟨b, hb⟩ : ∃ b, Agent.latchGoal
          { a with position := Point.position (.real x, .real y) } s.goal
            = .ok b :=
        Agent.latchGoal_numbers hs.goal rfl rfl rfl
      rw [hno] at hb
      cases hb

/-- Under way an advance shows the agent as it is, leaves it as it was, or
    has a snapshot to follow at once. -/
theorem Advance.publishes (h : Advance s now a todo b next signal)
    (hway : Act.UnderWay s.config todo) :
    (signal = .emit ∧ b = a)
      ∨ (signal ≠ .emit ∧ Act.Settled todo
        ∧ (b = a ∨ signal = .proceed ∧ ∃ rest, next = .emit :: rest)) := by
  cases h with
  | place => exact (hway.head nofun).elim
  | emit => exact .inl ⟨rfl, rfl⟩
  | quarters => exact .inr ⟨nofun, nofun, .inr ⟨rfl, _, rfl⟩⟩
  | say => exact .inr ⟨nofun, nofun, .inr ⟨rfl, _, rfl⟩⟩
  | nextStride => exact .inr ⟨nofun, nofun, .inr ⟨rfl, _, rfl⟩⟩
  | glides => exact .inr ⟨nofun, nofun, .inr ⟨rfl, _, rfl⟩⟩
  | swings => exact .inr ⟨nofun, nofun, .inr ⟨rfl, _, rfl⟩⟩
  | hush =>
      refine .inr ⟨nofun, nofun, .inr ⟨rfl, ?_⟩⟩
      rcases hway with hsilent | hspeaking
      · exact (Act.allSilent_cons.1 hsilent).1.elim
      · cases hspeaking with
        | hushes => exact ⟨_, rfl⟩
  | _ => exact .inr ⟨nofun, nofun, .inl rfl⟩

/-! ## Journeys of agents that can be shown -/

namespace Solo

variable {o : Observer} {r q z : Solo} {a₀ : Agent}

/-- The agent is as in the last snapshot, or as it was at first if there is
    none. -/
def AsShown (a₀ : Agent) (r : Solo) : Prop :=
  match r.shown with
  | [] => r.agent = a₀
  | e :: _ => Snapshot.ofAgent r.agent = .ok e.snapshot

/-- What a run keeps once its agent has been brought onto the playfield as
    `a₀`: unless a snapshot is due the agent is as it was last shown. -/
structure Told (s : Scene) (a₀ : Agent) (r : Solo) : Prop where
  way : Act.UnderWay s.config r.walker.todo
  spoken : Act.EveryOf Instruction.IsSpoken r.walker.todo
  showable : r.agent.Showable
  shown : Act.Settled r.walker.todo ∨ r.outcome.isSome = true → AsShown a₀ r

/-- A snapshot of an agent that can be shown is shown to whoever attends,
    and the run goes on. -/
theorem step_emit (ho : o.Attends) (hnone : r.outcome = none)
    (ha : (r.next s).agent.Showable) (hemit : (r.next s).signal = .emit) :
    ∃ snapshot, Snapshot.ofAgent (r.next s).agent = .ok snapshot
      ∧ (r.step s o).shown = ⟨r.now, snapshot⟩ :: r.shown
      ∧ (r.step s o).outcome = none := by
  obtain ⟨-, -, hshown, -, houtcome⟩ := step_spec (s := s) (o := o) hnone
  obtain ⟨snapshot, hsnap⟩ := ha
  refine ⟨snapshot, hsnap, ?_⟩
  unfold nextVerdict at hshown houtcome
  rw [hemit] at hshown houtcome
  rcases verdict_emit o r.shown.length r.now (r.next s).agent r.running with
    ⟨hno, -⟩ | ⟨-, ms, hno, -⟩ | ⟨-, snapshot', hsnap', heq⟩
  · exact absurd hno ho.present
  · rw [hsnap] at hno
    cases hno
  · rw [hsnap] at hsnap'
    cases hsnap'
    rw [heq] at hshown houtcome
    rw [ho.agrees] at houtcome
    exact ⟨hshown, houtcome⟩

/-- Being as shown depends on the agent and the snapshots alone. -/
theorem AsShown.congr (h : AsShown a₀ r) (hagent : q.agent = r.agent)
    (hshown : q.shown = r.shown) : AsShown a₀ q := by
  unfold AsShown at h ⊢
  rw [hagent, hshown]
  exact h

/-- A step that ends the run changes nothing that is shown. -/
theorem Told.ends {e : Outcome} (h : Told s a₀ r) (hnone : r.outcome = none)
    (hset : Act.Settled r.walker.todo) (hsame : (r.next s).agent = r.agent)
    (htodo : (r.next s).walker.todo = r.walker.todo)
    (hverdict : r.nextVerdict s o = ⟨some e, [], r.running⟩) :
    Told s a₀ (r.step s o)
      ∧ ((r.next s).signal ≠ .proceed → AsShown a₀ (r.step s o)) := by
  obtain ⟨hagent, hwalker, hshown, -, -⟩ :=
    step_spec (s := s) (o := o) hnone
  rw [hverdict] at hshown
  have has : AsShown a₀ (r.step s o) :=
    (h.shown (.inl hset)).congr (hagent.trans hsame) hshown
  refine ⟨⟨?_, ?_, ?_, fun _ => has⟩, fun _ => has⟩
  · rw [hwalker, htodo]
    exact h.way
  · rw [hwalker]
    exact Walker.step_everyOf h.spoken
  · rw [hagent, hsame]
    exact h.showable

/-- A step that goes on shows what it has changed, or has a snapshot to
    follow. -/
theorem Told.advances (hs : s.Surveyed) (ho : o.Attends)
    (h : Told s a₀ r) (hnone : r.outcome = none)
    (hadv : Advance s r.now r.agent r.walker.todo (r.next s).agent
      (r.next s).walker.todo (r.next s).signal) :
    Told s a₀ (r.step s o)
      ∧ ((r.next s).signal ≠ .proceed → AsShown a₀ (r.step s o)) := by
  obtain ⟨hagent, hwalker, hshown, -, houtcome⟩ :=
    step_spec (s := s) (o := o) hnone
  have hspoken : Act.EveryOf Instruction.IsSpoken
      (r.step s o).walker.todo := by
    rw [hwalker]
    exact Walker.step_everyOf h.spoken
  have hshowable := hadv.showable hs.charted h.way h.spoken h.showable
  have hway : Act.UnderWay s.config (r.step s o).walker.todo := by
    rw [hwalker]
    exact hadv.underWay h.way
  rcases hadv.publishes h.way with ⟨hemit, -⟩ | ⟨hquiet, hset, hdue⟩
  · obtain ⟨snapshot, hsnap, hshown, -⟩ :=
      step_emit ho hnone hshowable hemit
    have has : AsShown a₀ (r.step s o) := by
      unfold AsShown
      rw [hshown, hagent]
      exact hsnap
    exact ⟨⟨hway, hspoken, hagent ▸ hshowable, fun _ => has⟩, fun _ => has⟩
  · have hverdict : r.nextVerdict s o = ⟨none, [], r.running⟩ :=
      hadv.unshown hquiet
    rw [hverdict] at hshown houtcome
    -- what changes the agent goes on at once, to a snapshot of that
    have has : (r.next s).agent = r.agent → AsShown a₀ (r.step s o) :=
      fun hsame =>
        (h.shown (.inl hset)).congr (hagent.trans hsame) hshown
    refine ⟨⟨hway, hspoken, hagent ▸ hshowable, ?_⟩, ?_⟩
    · rintro (hsettled | hover)
      · rcases hdue with hsame | ⟨-, rest, hnext⟩
        · exact has hsame
        · rw [hwalker] at hsettled
          exact absurd hnext (hsettled rest)
      · rw [houtcome] at hover
        cases hover
    · intro hyields
      rcases hdue with hsame | ⟨hgoes, -⟩
      · exact has hsame
      · exact absurd hgoes hyields

/-- A step keeps the run told, and if the run gives up its turn with it or
    ends, the agent is as it was last shown. -/
theorem Told.step (hs : s.Surveyed) (ho : o.Attends)
    (h : Told s a₀ r) (hnone : r.outcome = none) :
    Told s a₀ (r.step s o)
      ∧ ((r.next s).signal ≠ .proceed → AsShown a₀ (r.step s o)) := by
  cases next_cases s o r with
  | finishes hempty hsame htodo hverdict =>
      exact h.ends hnone (hempty ▸ nofun) hsame htodo hverdict
  | halts _ hcheck hsame htodo hverdict =>
      exact h.ends hnone (hcheck ▸ nofun) hsame htodo hverdict
  | fails hsig htodo hfalters hverdict =>
      exact h.ends hnone (settled_of_fail hsig) (hfalters.unmoved hs h.way)
        htodo hverdict
  | advances hadv => exact h.advances hs ho hnone hadv

/-- A journey keeps the run told. -/
theorem Told.journey (hs : s.Surveyed)
    (ho : o.Attends) (h : Told s a₀ r) (hq : Journey s o r q) :
    Told s a₀ q := by
  induction hq with
  | starts => exact h
  | acts _ hnone ih => exact (ih.step hs ho hnone).1
  | flagged _ _ ih => exact ⟨ih.way, ih.spoken, ih.showable, ih.shown⟩
  | later _ _ ih => exact ⟨ih.way, ih.spoken, ih.showable, ih.shown⟩

/-- A run that says only text is told once its agent has been brought onto
    the playfield and can be shown there. -/
theorem Told.placed (running : Bool) {p : Program} {a : Agent}
    {point : Point} (hp : Instruction.EveryOf Instruction.IsSpoken p)
    (hplaced : clampPosition s.config a.position = .ok point)
    (ha : Agent.Showable { a with position := point.position }) :
    Told s { a with position := point.position }
      ((Solo.start p a running).step s o) := by
  obtain ⟨hagent, htodo, hshown, -⟩ :=
    start_placed (s := s) (o := o) (p := p) running hplaced
  refine ⟨?_, ?_, hagent ▸ ha, fun _ => ?_⟩
  · rw [htodo]
    exact .inl (Act.allSilent_program p)
  · rw [htodo]
    exact fun act hact => Walker.start_everyOf hp act
      (List.mem_cons_of_mem _ hact)
  · unfold AsShown
    rw [hshown]
    exact hagent

/-! ## Messages -/

/-- The text that a run is about to say, if it is. -/
def about? (r : Solo) : Option String :=
  match r.walker.todo with
  | .perform (.say (.str text)) :: _ => some text
  | _ => none

omit [Arithmetic] in
theorem about?_eq {text : String} (h : r.about? = some text) :
    ∃ rest, r.walker.todo = .perform (.say (.str text)) :: rest := by
  unfold about? at h
  split at h
  · rename_i heq
    cases h
    exact ⟨_, heq⟩
  · cases h

/-- The next act, when a snapshot is due. -/
theorem next_emit {rest : List Act} (h : r.walker.todo = .emit :: rest) :
    r.next s = ⟨r.agent, { r.walker with todo := rest }, [], .emit⟩ := by
  unfold next Walker.step
  rw [h]

/-- The next act, when a message is to be taken down. -/
theorem next_hush {rest : List Act} (h : r.walker.todo = .hush :: rest) :
    r.next s = r.walker.goOn { r.agent with message := .null } rest [] := by
  unfold next Walker.step
  rw [h]

/-- The next act, when the agent is to sleep for a time that can be
    measured. -/
theorem next_pause {rest : List Act} {ms : Value} {seconds : Scalar}
    (h : r.walker.todo = .pause ms :: rest)
    (hms : Walker.pauseSeconds ms = .ok seconds) :
    r.next s
      = ⟨r.agent, { r.walker with todo := rest }, [], .sleep seconds⟩ := by
  unfold next Walker.step
  rw [h]
  dsimp only
  rw [hms]
  rfl

/-- The next act, when a text is to be said. -/
theorem next_say {rest : List Act} {text : String}
    (h : r.walker.todo = .perform (.say (.str text)) :: rest) :
    ∃ log, r.next s = r.walker.goOn { r.agent with message := .str text }
      (.emit :: .pause s.config.sayMs :: .hush :: .emit :: .check :: rest)
      log := by
  unfold next Walker.step
  rw [h]
  exact ⟨_, rfl⟩

/-- A step that asks for nothing, or for a sleep, shows nothing. -/
theorem step_quietly (hnone : r.outcome = none)
    (h : (r.next s).signal = .proceed
      ∨ ∃ seconds, (r.next s).signal = .sleep seconds) :
    (r.step s o).shown = r.shown ∧ (r.step s o).outcome = none := by
  obtain ⟨-, -, hshown, -, houtcome⟩ := step_spec (s := s) (o := o) hnone
  have hverdict : r.nextVerdict s o = ⟨none, [], r.running⟩ := by
    unfold nextVerdict
    rcases h with h | ⟨seconds, h⟩ <;> rw [h] <;> rfl
  rw [hverdict] at hshown houtcome
  exact ⟨hshown, houtcome⟩

/-- How far a run has come since it was about to say a text: it has put the
    message up, has shown it, has slept, has taken it down, and has shown
    that. -/
inductive Utters (c : Config) (text : String) (rest : List Act) (q z : Solo) :
    Prop
  | about : z.outcome = none → z.agent = q.agent →
      z.walker.todo = .perform (.say (.str text)) :: rest →
      z.shown = q.shown → Utters c text rest q z
  | spoke : z.outcome = none → z.agent = { q.agent with message := .str text } →
      z.walker.todo
        = .emit :: .pause c.sayMs :: .hush :: .emit :: .check :: rest →
      z.shown = q.shown → Utters c text rest q z
  | speaks (e : Event) : z.outcome = none →
      z.agent = { q.agent with message := .str text } →
      z.walker.todo = .pause c.sayMs :: .hush :: .emit :: .check :: rest →
      Snapshot.ofAgent { q.agent with message := .str text }
        = .ok e.snapshot →
      z.shown = e :: q.shown → Utters c text rest q z
  | hushes (e : Event) : z.outcome = none →
      z.agent = { q.agent with message := .str text } →
      z.walker.todo = .hush :: .emit :: .check :: rest →
      Snapshot.ofAgent { q.agent with message := .str text }
        = .ok e.snapshot →
      z.shown = e :: q.shown → Utters c text rest q z
  | hushed (e : Event) : z.outcome = none →
      z.agent = { q.agent with message := .null } →
      z.walker.todo = .emit :: .check :: rest →
      Snapshot.ofAgent { q.agent with message := .str text }
        = .ok e.snapshot →
      z.shown = e :: q.shown → Utters c text rest q z
  | uttered (later : List Event) (e e' : Event) :
      Snapshot.ofAgent { q.agent with message := .str text }
        = .ok e.snapshot →
      e'.snapshot = { e.snapshot with message := none } →
      z.shown = later ++ e' :: e :: q.shown → Utters c text rest q z

/-- A step takes a run on with what it says. -/
theorem Utters.step {text : String} {rest : List Act} {seconds : Scalar}
    (ho : o.Attends)
    (hms : Walker.pauseSeconds s.config.sayMs = .ok seconds)
    (hq : q.agent.Showable) (h : Utters s.config text rest q z)
    (hnone : z.outcome = none) :
    Utters s.config text rest q (z.step s o) := by
  obtain ⟨hagent, hwalker, hmore, -⟩ := step_spec (s := s) (o := o) hnone
  obtain ⟨snapshot, hsnap⟩ := hq
  have hloud := Agent.Showable.spoken hsnap (v := .str text) rfl
  cases h with
  | about _ ha htodo hshown =>
      obtain ⟨log, hnext⟩ := next_say (s := s) htodo
      obtain ⟨hsame, hgoes⟩ := step_quietly (s := s) (o := o) hnone
        (.inl (by rw [hnext]; rfl))
      rw [hnext] at hagent hwalker
      exact .spoke hgoes (hagent.trans (by rw [← ha]; rfl))
        (by rw [hwalker]; rfl) (hsame.trans hshown)
  | spoke _ ha htodo hshown =>
      have hnext := next_emit (s := s) htodo
      obtain ⟨snapshot', hsnap', hshows, hgoes⟩ := step_emit (s := s) ho hnone
        (by rw [hnext, ha]; exact ⟨_, hloud⟩) (by rw [hnext])
      rw [hnext] at hagent hwalker hsnap'
      exact .speaks ⟨z.now, snapshot'⟩ hgoes (hagent.trans ha)
        (by rw [hwalker]) (by rw [← ha]; exact hsnap')
        (by rw [hshows, hshown])
  | speaks e _ ha htodo he hshown =>
      have hnext := next_pause (s := s) htodo hms
      obtain ⟨hsame, hgoes⟩ := step_quietly (s := s) (o := o) hnone
        (.inr ⟨seconds, by rw [hnext]⟩)
      rw [hnext] at hagent hwalker
      exact .hushes e hgoes (hagent.trans ha) (by rw [hwalker]) he
        (hsame.trans hshown)
  | hushes e _ ha htodo he hshown =>
      have hnext := next_hush (s := s) htodo
      obtain ⟨hsame, hgoes⟩ := step_quietly (s := s) (o := o) hnone
        (.inl (by rw [hnext]; rfl))
      rw [hnext] at hagent hwalker
      exact .hushed e hgoes (hagent.trans (by rw [ha]; rfl))
        (by rw [hwalker]; rfl) he (hsame.trans hshown)
  | hushed e _ ha htodo he hshown =>
      have hnext := next_emit (s := s) htodo
      have hstill : Snapshot.ofAgent z.agent
          = .ok { e.snapshot with message := none } := by
        rw [ha]
        exact Agent.Showable.spoken he (v := .null) rfl
      obtain ⟨snapshot', hsnap', hshows, -⟩ := step_emit (s := s) ho hnone
        (by rw [hnext]; exact ⟨_, hstill⟩) (by rw [hnext])
      rw [hnext] at hsnap'
      have hcleared : snapshot' = { e.snapshot with message := none } :=
        Except.ok.inj (hsnap'.symm.trans hstill)
      exact .uttered [] e ⟨z.now, snapshot'⟩ he hcleared
        (by rw [hshows, hshown]; rfl)
  | uttered later e e' he he' hshown =>
      exact .uttered (_ ++ later) e e' he he' (by
        rw [hmore, hshown, List.append_assoc])

/-- Neither the clock nor the flag matters. -/
theorem Utters.congr {c : Config} {text : String} {rest : List Act}
    {y : Solo} (h : Utters c text rest q z) (hagent : y.agent = z.agent)
    (hwalker : y.walker = z.walker) (hshown : y.shown = z.shown)
    (houtcome : y.outcome = z.outcome) : Utters c text rest q y := by
  cases h with
  | about hnone ha htodo hs =>
      exact .about (houtcome.trans hnone) (hagent.trans ha)
        (hwalker ▸ htodo) (hshown.trans hs)
  | spoke hnone ha htodo hs =>
      exact .spoke (houtcome.trans hnone) (hagent.trans ha)
        (hwalker ▸ htodo) (hshown.trans hs)
  | speaks e hnone ha htodo he hs =>
      exact .speaks e (houtcome.trans hnone) (hagent.trans ha)
        (hwalker ▸ htodo) he (hshown.trans hs)
  | hushes e hnone ha htodo he hs =>
      exact .hushes e (houtcome.trans hnone) (hagent.trans ha)
        (hwalker ▸ htodo) he (hshown.trans hs)
  | hushed e hnone ha htodo he hs =>
      exact .hushed e (houtcome.trans hnone) (hagent.trans ha)
        (hwalker ▸ htodo) he (hshown.trans hs)
  | uttered later e e' he he' hs =>
      exact .uttered later e e' he he' (hshown.trans hs)

/-- A run that is about to say a text is somewhere on its way through it, or
    has shown it and then shown it taken down. -/
theorem Utters.journey {text : String} {rest : List Act} {seconds : Scalar}
    (ho : o.Attends)
    (hms : Walker.pauseSeconds s.config.sayMs = .ok seconds)
    (hq : q.agent.Showable)
    (htodo : q.walker.todo = .perform (.say (.str text)) :: rest)
    (hnone : q.outcome = none) (h : Journey s o q z) :
    Utters s.config text rest q z := by
  induction h with
  | starts => exact .about hnone rfl htodo rfl
  | acts _ hgoes ih => exact ih.step ho hms hq hgoes
  | flagged _ _ ih => exact ih.congr rfl rfl rfl rfl
  | later _ _ ih => exact ih.congr rfl rfl rfl rfl

/-- A run that is over, or has shown two snapshots since, has shown the text
    and then shown it taken down. -/
theorem Utters.pair {c : Config} {text : String} {rest : List Act}
    (h : Utters c text rest q z)
    (hfar : z.outcome.isSome = true ∨ q.shown.length + 1 < z.shown.length) :
    ∃ later e e', z.shown = later ++ e' :: e :: q.shown
      ∧ Snapshot.ofAgent { q.agent with message := .str text }
        = .ok e.snapshot
      ∧ e.snapshot.message = some text
      ∧ e'.snapshot = { e.snapshot with message := none } := by
  cases h with
  | uttered later e e' he he' hshown =>
      have hmessage := (Snapshot.ofAgent_ok.1 he).2.2.2.1
      exact ⟨later, e, e', hshown, he, (Except.ok.inj hmessage).symm, he'⟩
  | about hgoes _ _ hshown | spoke hgoes _ _ hshown =>
      simp [hgoes, hshown] at hfar
  | speaks _ hgoes _ _ _ hshown | hushes _ hgoes _ _ _ hshown
  | hushed _ hgoes _ _ _ hshown =>
      simp [hgoes, hshown] at hfar

/-- No message is up, or the run is about to take it down. -/
def Hushed (s : Scene) (r : Solo) : Prop :=
  Act.AllSilent s.config r.walker.todo ∧ r.agent.message = .null
    ∨ Act.Speaking s.config r.walker.todo ∧ r.outcome = none

/-- What says something goes on to its end, if the time to show it for can
    be measured. -/
theorem speaking_advances {seconds : Scalar} (hnone : r.outcome = none)
    (ho : o.Attends) (ha : r.agent.Showable)
    (hms : Walker.pauseSeconds s.config.sayMs = .ok seconds)
    (h : Act.Speaking s.config r.walker.todo) :
    (r.step s o).outcome = none := by
  generalize htodo : r.walker.todo = todo at h
  cases h with
  | spoke hr =>
      have hnext := next_emit (s := s) htodo
      obtain ⟨-, -, -, hgoes⟩ := step_emit (s := s) ho hnone
        (by rw [hnext]; exact ha) (by rw [hnext])
      exact hgoes
  | speaks hr =>
      exact (step_quietly hnone (.inr ⟨seconds, by
        rw [next_pause htodo hms]⟩)).2
  | hushes hr =>
      exact (step_quietly hnone (.inl (by rw [next_hush htodo]; rfl))).2

/-- A run that leaves no message up goes on to leave none. -/
theorem Hushed.step {seconds : Scalar} (ho : o.Attends)
    (hms : Walker.pauseSeconds s.config.sayMs = .ok seconds)
    (ha : r.agent.Showable) (h : Hushed s r) (hnone : r.outcome = none) :
    Hushed s (r.step s o) := by
  obtain ⟨hagent, hwalker, -, -, houtcome⟩ :=
    step_spec (s := s) (o := o) hnone
  rcases h with ⟨hsilent, hnull⟩ | ⟨hspeaking, -⟩
  · -- a step that ends the run leaves the message as it was
    have hends : (r.next s).agent.message = r.agent.message →
        (r.next s).walker.todo = r.walker.todo → Hushed s (r.step s o) := by
      intro hsame htodo
      refine .inl ⟨?_, ?_⟩
      · rw [hwalker, htodo]
        exact hsilent
      · rw [hagent, hsame]
        exact hnull
    cases next_cases s o r with
    | finishes _ hsame htodo => exact hends (congrArg Agent.message hsame) htodo
    | halts _ _ hsame htodo => exact hends (congrArg Agent.message hsame) htodo
    | fails _ htodo hfalters => exact hends hfalters.message htodo
    | advances hadv =>
        rcases hadv.silent hsilent with ⟨hnext, hsame⟩ | ⟨hnext, hsig⟩
        · refine .inl ⟨?_, ?_⟩
          · rw [hwalker]
            exact hnext
          · rw [hagent]
            exact hsame.trans hnull
        · -- a text is said, and the run goes on to show it
          refine .inr ⟨?_, (step_quietly hnone (.inl hsig)).2⟩
          rw [hwalker]
          exact hnext
  · -- what is being said is taken down, for nothing ends the run before
    have hgoes := speaking_advances hnone ho ha hms hspeaking
    cases next_cases s o r with
    | finishes hempty =>
        rw [hempty] at hspeaking
        cases hspeaking
    | halts _ hcheck =>
        rw [hcheck] at hspeaking
        cases hspeaking
    | fails _ _ _ hverdict =>
        rw [houtcome, hverdict] at hgoes
        cases hgoes
    | advances hadv =>
        rcases hadv.speaking hspeaking with ⟨hnext, -⟩ | ⟨hb, -, -, hnext⟩
        · refine .inr ⟨?_, hgoes⟩
          rw [hwalker]
          exact hnext
        · refine .inl ⟨?_, ?_⟩
          · rw [hwalker]
            exact hnext
          · rw [hagent, hb]

/-- A journey leaves no message up if it began without one. -/
theorem Hushed.journey {seconds : Scalar}
    (hs : s.Surveyed) (ho : o.Attends)
    (hms : Walker.pauseSeconds s.config.sayMs = .ok seconds)
    (htold : Told s a₀ r) (h : Hushed s r) (hq : Journey s o r q) :
    Hushed s q := by
  induction hq with
  | starts => exact h
  | acts hq hnone ih =>
      exact ih.step ho hms (htold.journey hs ho hq).showable hnone
  | flagged _ _ ih => exact ih
  | later _ _ ih => exact ih

/-- Snapshots tell all there is to tell.  Once its agent has been brought
    onto the playfield and can be shown there, a run that says only text
    leaves the agent as it was last shown whenever it gives up its turn or
    ends, however the clock and the flag went meanwhile.  If the time to show
    a message for can be measured, every text that is said is shown, the next
    snapshot differs only in that it is taken down, and a run that began
    without a message ends without one. -/
theorem journey_tells {p : Program} {a : Agent} {point : Point}
    (running : Bool) (hs : s.Surveyed) (ho : o.Attends)
    (hp : Instruction.EveryOf Instruction.IsSpoken p)
    (hplaced : clampPosition s.config a.position = .ok point)
    (ha : Agent.Showable { a with position := point.position })
    (hq : Journey s o ((Solo.start p a running).step s o) q)
    (hnone : q.outcome = none) :
    ((q.next s).signal ≠ .proceed →
        AsShown { a with position := point.position } (q.step s o))
      ∧ ∀ seconds, Walker.pauseSeconds s.config.sayMs = .ok seconds →
        (∀ text, q.about? = some text → ∀ z, Journey s o q z →
            z.outcome.isSome = true ∨ q.shown.length + 1 < z.shown.length →
            ∃ later e e', z.shown = later ++ e' :: e :: q.shown
              ∧ Snapshot.ofAgent { q.agent with message := .str text }
                = .ok e.snapshot
              ∧ e.snapshot.message = some text
              ∧ e'.snapshot = { e.snapshot with message := none })
          ∧ (a.message = .null → (q.step s o).outcome.isSome = true →
            (q.step s o).agent.message = .null) := by
  have hbegins := Told.placed (o := o) running hp hplaced ha
  have htold := hbegins.journey hs ho hq
  refine ⟨(htold.step hs ho hnone).2, fun seconds hms => ⟨?_, ?_⟩⟩
  · intro text habout z hz hfar
    obtain ⟨rest, htodo⟩ := about?_eq habout
    exact (Utters.journey ho hms htold.showable htodo hnone hz).pair hfar
  · intro hnull hover
    obtain ⟨hagent, htodo, -⟩ := start_placed (s := s) (o := o) (p := p)
      running hplaced
    have hstart : Hushed s ((Solo.start p a running).step s o) := by
      refine .inl ⟨?_, by rw [hagent]; exact hnull⟩
      rw [htodo]
      exact Act.allSilent_program p
    rcases (hstart.journey hs ho hms hbegins hq).step ho hms htold.showable
      hnone with ⟨-, hmessage⟩ | ⟨-, hgoes⟩
    · exact hmessage
    · rw [hgoes] at hover
      cases hover

end Solo

end

namespace Solo

attribute [local instance] Arithmetic.binary64

/-- A grid of doubles whose columns and rows are below the bound can be
    measured. -/
theorem measured_doubles {s : Scene} {columns rows : Int}
    (hmode : s.config.mode ≠ .canvas) (hc : s.config.Counted columns rows)
    (hcolumns : (columns : Rat) < Binary64.bound)
    (hrows : (rows : Rat) < Binary64.bound)
    (hgoal : ∀ g, s.goal = some g → g.isNumeric = true) :
    s.Measured columns rows := by
  refine ⟨hmode, hc, fun n hn hlast => ?_, fun n hn => ?_, hgoal⟩
  · have hsmall : |(n : Rat)| < Binary64.bound :=
      hlast.elim (Binary64.index_small hcolumns hn)
        (Binary64.index_small hrows hn)
    obtain ⟨r, hr⟩ := Num.measure_int hsmall
    exact ⟨_, hr⟩
  · unfold isCardinal at hn
    rcases of_decide_eq_true hn with rfl | rfl | rfl | rfl
    all_goals exact ⟨_, rfl⟩

/-- A grid of doubles whose columns and rows can be measured, with a goal of
    numbers if there is one. -/
theorem surveyed_doubles {s : Scene} (columns rows : Int)
    (hmode : s.config.mode ≠ .canvas) (hc : s.config.Counted columns rows)
    (hcolumns : (columns : Rat) < Binary64.bound)
    (hrows : (rows : Rat) < Binary64.bound)
    (hgoal : ∀ g, s.goal = some g → g.isNumeric = true) : s.Surveyed :=
  ⟨hgoal, fun _ => ⟨columns, rows,
    measured_doubles hmode hc hcolumns hrows hgoal⟩⟩

/-- An open grid. -/
def openGrid : Scene := ⟨.standard, none, .int 100⟩

/-- A text said twice, with a step after each. -/
def greetings : Program := [.repeatTimes 2 [.say (.str "hi"), .move 1]]

/-- A run of it, right after its agent has been brought onto the grid. -/
def greeter : Solo :=
  (Solo.start greetings (.atStart (.str "a") [0, 0] 90) true).step openGrid
    (.quiet .present)

/-- The run after some steps. -/
def greeterAt (k : Nat) : Solo :=
  run openGrid (.quiet .present) k greeter

/-- The text is said a second time: it is shown, and then shown taken down;
    the agent sleeps as it was shown; and no message is left at the end. -/
theorem journey_tells_greetings :
    (greeterAt 16).about? = some "hi"
      ∧ (run openGrid (.quiet .present) 14 (greeterAt 16)).outcome.isSome = true
      ∧ (∃ later e e', (run openGrid (.quiet .present) 14 (greeterAt 16)).shown
          = later ++ e' :: e :: (greeterAt 16).shown
        ∧ e.snapshot.message = some "hi"
        ∧ e'.snapshot = { e.snapshot with message := none })
      ∧ (∃ a₀, AsShown a₀ ((greeterAt 18).step openGrid (.quiet .present)))
      ∧ ((greeterAt 29).step openGrid (.quiet .present)).agent.message
        = .null := by
  -- the grid, the agent on it and the time to show a text for
  have hs : openGrid.Surveyed :=
    surveyed_doubles 10 10 nofun ⟨rfl, rfl⟩
      (by decide +kernel) (by decide +kernel) nofun
  obtain ⟨columns, rows, hgrid⟩ := hs.grid nofun
  obtain ⟨p, hplaced⟩ := clampToGrid_ok hgrid.counted 0 0
  have ha : Agent.Showable { Agent.atStart (.str "a") [0, 0] 90 with
      position := p.position } := by
    refine Agent.Readable.snapshot ⟨⟨_, rfl⟩, ?_, .inl rfl, _, rfl⟩ hgrid
      ⟨p, clampToGrid_isCell hgrid.counted hplaced, rfl⟩
    obtain ⟨x, hx⟩ := hgrid.headings 90 rfl
    exact ⟨x, Lenient.measure_int hx⟩
  obtain ⟨seconds, hms⟩ : ∃ seconds,
      Walker.pauseSeconds openGrid.config.sayMs = .ok seconds := by
    have hsome : (Walker.pauseSeconds
        openGrid.config.sayMs).toOption.isSome = true := by
      decide +kernel
    cases h : Walker.pauseSeconds openGrid.config.sayMs with
    | ok seconds => exact ⟨seconds, rfl⟩
    | error f =>
        rw [h] at hsome
        cases hsome
  have hgoes : ∀ k, (greeterAt k).outcome.isNone = true →
      (greeterAt k).outcome = none := fun k => Option.isNone_iff_eq_none.1
  have htells := fun k hnone =>
    journey_tells (p := greetings) (a := .atStart (.str "a") [0, 0] 90)
      true hs (o := .quiet .present) ⟨nofun, fun _ => rfl⟩
      ⟨⟨trivial, ⟨_, rfl⟩, trivial, trivial⟩, trivial⟩ hplaced ha
      (q := greeterAt k) (Journey.run k) (hgoes k hnone)
  have habout : (greeterAt 16).about? = some "hi" := by decide +kernel
  have hover : (run openGrid (.quiet .present) 14
      (greeterAt 16)).outcome.isSome = true := by
    decide +kernel
  refine ⟨habout, hover, ?_, ⟨_, (htells 18 (by decide +kernel)).1 ?_⟩, ?_⟩
  · obtain ⟨later, e, e', hshown, -, he, he'⟩ :=
      ((htells 16 (by decide +kernel)).2 seconds hms).1 "hi" habout _
        (.run 14) (.inl hover)
    exact ⟨later, e, e', hshown, he, he'⟩
  · intro hgoes
    have hsleeps : (match ((greeterAt 18).next openGrid).signal with
        | .sleep _ => true
        | _ => false) = true := by
      decide +kernel
    rw [hgoes] at hsleeps
    cases hsleeps
  · exact ((htells 29 (by decide +kernel)).2 seconds hms).2 rfl
      (by decide +kernel)

/-- A grid on which messages are shown for longer than can be measured. -/
def endlessTalk : Scene :=
  ⟨{ Config.standard with sayMs := .int (10 ^ 400) }, none, .int 100⟩

/-- There a run that begins without a message says a text, fails before it
    can take the message down, and ends with it. -/
theorem journey_tells_endless :
    (Agent.atStart (.str "a") [0, 0] 90).message = .null
      ∧ (run endlessTalk (.quiet .present) 10 (Solo.start [.say (.str "hi")]
          (.atStart (.str "a") [0, 0] 90) true)).outcome.isSome = true
      ∧ (run endlessTalk (.quiet .present) 10 (Solo.start [.say (.str "hi")]
          (.atStart (.str "a") [0, 0] 90) true)).shown.map
            (·.snapshot.message) = [some "hi"]
      ∧ (run endlessTalk (.quiet .present) 10 (Solo.start [.say (.str "hi")]
          (.atStart (.str "a") [0, 0] 90) true)).agent.message ≠ .null := by
  refine ⟨rfl, by decide +kernel, by decide +kernel, fun hnull => ?_⟩
  have hholds : (run endlessTalk (.quiet .present) 10 (Solo.start
      [.say (.str "hi")] (.atStart (.str "a") [0, 0] 90)
        true)).agent.message.holds = true := by
    decide +kernel
  rw [hnull] at hholds
  cases hholds

end Solo

end BlockStage
