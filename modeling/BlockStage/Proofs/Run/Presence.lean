import BlockStage.Proofs.Run.Every
import BlockStage.Proofs.Run.Poise
import BlockStage.Proofs.Stage.Grid
import BlockStage.Proofs.Stage.Snapshot

/-! # Presence — an agent on the grid stands as it was last shown

    On a grid whose cells can be measured, with a goal that cells can be
    compared with, an agent that can be shown at its start can be shown
    all along a run on its own, if all that it says is text.  Between two
    snapshots nothing changes but what the second one shows: whenever no
    snapshot is due, the agent stands, looks and speaks as in the last one,
    or as at its start if there was none. -/

namespace BlockStage

/-! ## Agents that can be shown -/

/-- All of an agent can be read, its place aside. -/
structure Agent.Readable [Arithmetic] (a : Agent) : Prop where
  name : ∃ s, a.id = .str s
  heading : ∃ x, Lenient.measure a.heading = .ok x
  message : a.message = .null ∨ ∃ s, a.message = .str s
  goal : ∃ b, a.goalReached = .bool b

/-- What an instruction says is text. -/
def Instruction.IsSpoken : Instruction → Prop
  | say v => ∃ s, v = .str s
  | _ => True

/-- A grid of counted columns and rows, all of which can be measured, like
    the four headings, and a goal of numbers, if there is one. -/
structure Scene.Measured [Arithmetic] (s : Scene) (columns rows : Int) :
    Prop where
  mode : s.config.mode ≠ .canvas
  counted : s.config.Counted columns rows
  cells : ∀ n : Int, 0 ≤ n → n ≤ max 0 (columns - 1) ∨ n ≤ max 0 (rows - 1) →
    ∃ x, (Num.int n).measure = .ok x
  headings : ∀ n : Int, isCardinal n = true →
    ∃ x, (Num.int n).measure = .ok x
  goal : ∀ g, s.goal = some g → g.isNumeric = true

/-- An agent stands on a cell. -/
def Agent.OnCell (columns rows : Int) (a : Agent) : Prop :=
  ∃ p : Point, p.IsCell columns rows ∧ a.position = p.position

variable [Arithmetic] {s : Scene} {now : Time} {a b : Agent}
  {todo next : List Act} {signal : Signal} {columns rows : Int}

/-- A count that can be measured is read as what it measures. -/
theorem Lenient.measure_int {n : Int} {z : Scalar}
    (h : (Num.int n).measure = .ok z) : Lenient.measure (.int n) = .ok z := by
  show ((Num.int n).measure.mapError fun _ => Flaw.notAMeasure) = .ok z
  rw [h]
  rfl

/-- A turn on the grid ends at one of the four headings. -/
theorem gridTurn_isCardinal {heading degrees : Value} {h : Int}
    (hturn : gridTurn heading degrees = .ok h) : isCardinal h = true := by
  obtain ⟨finite, -, hturn⟩ := bind_ok hturn
  split at hturn
  · cases hturn
  · obtain ⟨turned, -, hturn⟩ := bind_ok hturn
    dsimp only at hturn
    split at hturn
    · cases hturn
      assumption
    · cases hturn

/-- A readable agent on a cell can be shown. -/
theorem Agent.Readable.snapshot (h : a.Readable)
    (hs : s.Measured columns rows) (hc : a.OnCell columns rows) :
    ∃ snapshot, Snapshot.ofAgent a = .ok snapshot := by
  obtain ⟨name, hname⟩ := h.name
  obtain ⟨p, ⟨x, y, rfl, hx₀, hx₁, hy₀, hy₁⟩, hp⟩ := hc
  obtain ⟨u, hu⟩ := hs.cells x hx₀ (.inl hx₁)
  obtain ⟨v, hv⟩ := hs.cells y hy₀ (.inr hy₁)
  obtain ⟨heading, hheading⟩ := h.heading
  obtain ⟨reached, hreached⟩ := h.goal
  obtain ⟨message, hmessage⟩ :
      ∃ m, Lenient.text? a.message = .ok m := by
    rcases h.message with hm | ⟨text, hm⟩ <;> rw [hm]
    · exact ⟨none, rfl⟩
    · exact ⟨some text, rfl⟩
  refine ⟨⟨name, (u, v), heading, message, reached⟩,
    Snapshot.ofAgent_ok.2 ⟨hname, ⟨.int x, .int y, hp,
      Lenient.measure_int hu, Lenient.measure_int hv⟩, hheading, hmessage,
      ?_⟩⟩
  rw [hreached]
  rfl

/-- Setting the goal flag leaves an agent readable. -/
theorem Agent.Readable.latch (h : a.Readable) {goal : Option GoalRegion}
    (hb : a.latchGoal goal = .ok b) : b.Readable := by
  unfold latchGoal at hb
  split at hb
  · cases hb
    exact h
  · split at hb
    · cases hb
      exact h
    · obtain ⟨inside, -, hb⟩ := bind_ok hb
      cases inside with
      | false =>
          cases hb
          exact h
      | true =>
          cases hb
          exact ⟨h.name, h.heading, h.message, true, rfl⟩

/-- On the grid an advance leaves an agent readable, if it says only
    text. -/
theorem Advance.readable (h : Advance s now a todo b next signal)
    (hs : s.Measured columns rows)
    (hfit : Act.Fit s.config todo ∨ Act.Fresh todo)
    (hp : Act.EveryOf Instruction.IsSpoken todo) (ha : a.Readable) :
    b.Readable := by
  rcases hfit with hfit | ⟨rest, -, rfl⟩
  rotate_left
  · cases h
    exact ⟨ha.name, ha.heading, ha.message, ha.goal⟩
  cases h with
  | quarters _ _ hturn =>
      obtain ⟨x, hx⟩ := hs.headings _ (gridTurn_isCardinal hturn)
      exact ⟨ha.name, ⟨x, Lenient.measure_int hx⟩, ha.message, ha.goal⟩
  | say =>
      obtain ⟨text, rfl⟩ := (Act.everyOf_cons.1 hp).1
      exact ⟨ha.name, ha.heading, .inr ⟨text, rfl⟩, ha.goal⟩
  | nextStride _ hb =>
      refine Agent.Readable.latch ?_ hb
      exact ⟨ha.name, ha.heading, ha.message, ha.goal⟩
  | hush => exact ⟨ha.name, ha.heading, .inl rfl, ha.goal⟩
  | place => exact ⟨ha.name, ha.heading, ha.message, ha.goal⟩
  | glides => cases hfit.unframed
  | swings => cases hfit.unframed
  | _ => exact ha

/-- On the grid an advance leaves an agent on a cell, or brings it onto
    one. -/
theorem Advance.onCell (h : Advance s now a todo b next signal)
    (hs : s.Measured columns rows)
    (ha : Act.Fit s.config todo ∧ a.OnCell columns rows
      ∨ Act.Fresh todo) :
    b.OnCell columns rows := by
  rcases ha with ⟨hfit, ha⟩ | ⟨rest, -, rfl⟩
  rotate_left
  · cases h with
    | place hp =>
      have hgrid : clampPosition s.config a.position
          = clampToGrid s.config a.position := by
        unfold clampPosition
        split
        · rename_i hcanvas
          exact absurd hcanvas hs.mode
        · rfl
      rw [hgrid] at hp
      exact ⟨_, clampToGrid_isCell hs.counted hp, rfl⟩
  cases h with
  | place => exact absurd rfl (hfit.unplaced _)
  | nextStride hstep hb =>
      obtain ⟨g, rfl⟩ := Agent.latchGoal_ok hb
      exact ⟨_, gridStep_isCell hs.counted hstep, rfl⟩
  | glides => cases hfit.unframed
  | quarters => exact ha
  | say => exact ha
  | hush => exact ha
  | swings => exact ha
  | _ => exact ha

/-! ## As it was last shown -/

/-- An agent stands, looks and speaks as in the last of some snapshots, the
    latest first, or as at its start if there is none. -/
def Agent.FacesAs (c : Config) (a₀ a : Agent) : List Snapshot → Prop
  | [] => ∃ p, clampPosition c a₀.startPosition = .ok p
      ∧ a.position = p.position ∧ a.heading = a₀.startHeading
      ∧ a.message = .null
  | snapshot :: _ =>
      (∃ u v, a.position = [u, v]
        ∧ Lenient.measure u = .ok snapshot.position.1
        ∧ Lenient.measure v = .ok snapshot.position.2)
      ∧ Lenient.measure a.heading = .ok snapshot.heading
      ∧ Lenient.text? a.message = .ok snapshot.message

/-- Only its place, heading and message matter. -/
theorem Agent.FacesAs.congr {c : Config} {a₀ : Agent} {l : List Snapshot}
    (h : Agent.FacesAs c a₀ a l) (hp : b.position = a.position)
    (hh : b.heading = a.heading) (hm : b.message = a.message) :
    Agent.FacesAs c a₀ b l := by
  cases l with
  | nil =>
      unfold FacesAs at h ⊢
      rw [hp, hh, hm]
      exact h
  | cons snapshot l =>
      unfold FacesAs at h ⊢
      rw [hp, hh, hm]
      exact h

/-- No snapshot comes first. -/
def Act.Settled (todo : List Act) : Prop :=
  ∀ rest, todo ≠ .emit :: rest

/-- An advance leaves an agent as it was shown, shows it as it is, or has a
    snapshot to follow. -/
theorem Advance.faces {a₀ : Agent} {l : List Snapshot}
    (h : Advance s now a todo b next signal) (hfit : Act.Fit s.config todo)
    (hset : Act.Settled todo) (ha : Agent.FacesAs s.config a₀ a l) :
    signal ≠ .emit ∧ (Act.Settled next → Agent.FacesAs s.config a₀ b l) := by
  have hdue : ∀ {rest b}, Act.Settled (.emit :: rest) →
      Agent.FacesAs s.config a₀ b l := fun hno => absurd rfl (hno _)
  cases h with
  | place => exact absurd rfl (hfit.unplaced _)
  | emit => exact absurd rfl (hset _)
  | quarters => exact ⟨nofun, hdue⟩
  | say => exact ⟨nofun, hdue⟩
  | nextStride => exact ⟨nofun, hdue⟩
  | glides => exact ⟨nofun, hdue⟩
  | swings => exact ⟨nofun, hdue⟩
  | hush =>
      cases hfit with
      | poised hp =>
          cases hp
          exact ⟨nofun, hdue⟩
      | steady hs => cases (Act.steady_cons.1 hs).1
  | _ => exact ⟨nofun, fun _ => ha⟩

/-! ## Runs on their own -/

/-- A check that is passed asks for nothing. -/
theorem Advance.checks {rest : List Act}
    (h : Advance s now a (.check :: rest) b next signal) :
    signal = .proceed := by
  cases h
  rfl

/-- A snapshot that is due is shown. -/
theorem Advance.emits {rest : List Act}
    (h : Advance s now a (.emit :: rest) b next signal) :
    signal = .emit := by
  cases h
  rfl

/-- Setting out from a place that can be brought onto the grid. -/
theorem Advance.placed {rest : List Act}
    (h : Advance s now a (.place :: rest) b next signal) :
    ∃ p, clampPosition s.config a.position = .ok p
      ∧ b = { a with position := p.position } := by
  cases h with
  | place hp => exact ⟨_, hp, rfl⟩

namespace Solo

variable {o : Observer} {r : Solo} {a₀ : Agent} {mode : ObserverMode}

/-- Where the agent of a run is: at its start, on its way, or where the run
    ended; and unless a snapshot is due, as it was last shown. -/
inductive Placed (s : Scene) (columns rows : Int) (a₀ : Agent) (r : Solo) :
    Prop
  | begins : r.outcome = none → Act.Fresh r.walker.todo →
      r.agent = a₀.reset → r.shown = [] → Placed s columns rows a₀ r
  | goes : r.outcome = none → Act.Fit s.config r.walker.todo →
      r.agent.OnCell columns rows →
      (Act.Settled r.walker.todo →
        Agent.FacesAs s.config a₀ r.agent (r.shown.map (·.snapshot))) →
      Placed s columns rows a₀ r
  | ended : r.outcome.isSome = true → r.agent.OnCell columns rows →
      Agent.FacesAs s.config a₀ r.agent (r.shown.map (·.snapshot)) →
      Placed s columns rows a₀ r

/-- What a run that says only text keeps on such a grid. -/
structure Kept (s : Scene) (columns rows : Int) (a₀ : Agent) (r : Solo) :
    Prop where
  up : r.running = true
  spoken : Act.EveryOf Instruction.IsSpoken r.walker.todo
  readable : r.agent.Readable
  placed : Placed s columns rows a₀ r

/-- A run keeps it from its start, if the agent's name is a text and the
    heading it starts with can be measured. -/
theorem Kept.start {p : Program} (hname : ∃ t, a₀.id = .str t)
    (hheading : ∃ x, Lenient.measure a₀.startHeading = .ok x)
    (hp : Instruction.EveryOf Instruction.IsSpoken p) :
    Kept s columns rows a₀ (Solo.start p a₀.reset true) where
  up := rfl
  spoken := Walker.start_everyOf hp
  readable := ⟨hname, hheading, .inl rfl, false, rfl⟩
  placed := .begins rfl (Walker.start_fresh p) rfl rfl

/-- A snapshot that is due is asked for, and asking does not fail. -/
theorem settled_of_fail {f : RunFault}
    (hsig : (r.next s).signal = .fail f) : Act.Settled r.walker.todo := by
  intro rest htodo
  unfold next Walker.step at hsig
  rw [htodo] at hsig
  cases hsig

/-- Setting out does not fail for an agent that can be brought onto the
    grid. -/
theorem Placed.unfresh {f : RunFault} (h : Placed s columns rows a₀ r)
    (hstart : ∃ p, clampPosition s.config a₀.startPosition = .ok p)
    (hnone : r.outcome = none) (hsig : (r.next s).signal = .fail f) :
    ¬ Act.Fresh r.walker.todo := by
  rintro ⟨rest, -, htodo⟩
  cases h with
  | begins _ _ ha =>
      obtain ⟨p, hp⟩ := hstart
      unfold next Walker.step at hsig
      rw [htodo, ha] at hsig
      dsimp only [Agent.reset] at hsig
      rw [hp] at hsig
      cases hsig
  | goes _ hfit => exact hfit.unplaced _ htodo
  | ended hover =>
      rw [hnone] at hover
      cases hover

/-- A step that ends the run leaves its agent as it was shown. -/
theorem Placed.ends {e : Outcome} (h : Placed s columns rows a₀ r)
    (hnone : r.outcome = none) (hset : Act.Settled r.walker.todo)
    (hfresh : ¬ Act.Fresh r.walker.todo)
    (hsame : (r.next s).agent = r.agent)
    (hverdict : r.nextVerdict s o = ⟨some e, [], r.running⟩) :
    Placed s columns rows a₀ (r.step s o) := by
  obtain ⟨hagent, -, hshown, -, houtcome⟩ :=
    step_spec (s := s) (o := o) hnone
  rw [hverdict] at hshown houtcome
  rw [hsame] at hagent
  cases h with
  | begins _ hno => exact absurd hno hfresh
  | goes _ _ hc hfaces =>
      refine .ended (by rw [houtcome]; rfl) (hagent ▸ hc) ?_
      rw [hshown, hagent]
      exact hfaces hset
  | ended hover =>
      rw [hnone] at hover
      cases hover

/-- The agent of a step that fails on its way stays as it was shown. -/
theorem Placed.falters (hs : s.Measured columns rows)
    (hfit : Act.Fit s.config todo) (h : Falters s now a todo b) :
    b = a := by
  cases h with
  | stays => rfl
  | strides hp hno =>
      obtain ⟨x, y, rfl, -⟩ := gridStep_isCell hs.counted hp
      obtain ⟨b, hb⟩ : ∃ b, Agent.latchGoal
          { a with position := Point.position (.int x, .int y) } s.goal
            = .ok b :=
        Agent.latchGoal_numbers hs.goal rfl rfl rfl
      rw [hno] at hb
      cases hb
  | glides => cases hfit.unframed

/-- A run that advances keeps its agent where it can be shown. -/
theorem Placed.advances (hs : s.Measured columns rows)
    (hmode : mode ≠ .absent) (h : Placed s columns rows a₀ r)
    (hup : r.running = true) (hb : (r.next s).agent.Readable)
    (hnone : r.outcome = none)
    (hadv : Advance s r.now r.agent r.walker.todo (r.next s).agent
      (r.next s).walker.todo (r.next s).signal) :
    Placed s columns rows a₀ (r.step s (.quiet mode)) := by
  obtain ⟨hagent, hwalker, hshown, -, houtcome⟩ :=
    step_spec (s := s) (o := .quiet mode) hnone
  -- where the agent is, whatever the world makes of the signal
  have hcell : (r.next s).agent.OnCell columns rows := by
    cases h with
    | begins _ hfresh => exact hadv.onCell hs (.inr hfresh)
    | goes _ hfit hc => exact hadv.onCell hs (.inl ⟨hfit, hc⟩)
    | ended hover => rw [hnone] at hover; cases hover
  have hfit : Act.Fit s.config (r.next s).walker.todo := by
    cases h with
    | begins _ hfresh => exact (hadv.fit hs.mode (.inr hfresh)).1
    | goes _ hfit => exact (hadv.fit hs.mode (.inl hfit)).1
    | ended hover => rw [hnone] at hover; cases hover
  rw [← hwalker] at hfit
  by_cases hemit : (r.next s).signal = .emit
  · -- a snapshot is shown
    obtain ⟨snapshot, hsnap⟩ := hb.snapshot hs hcell
    have hverdict : r.nextVerdict s (.quiet mode)
        = ⟨none, [⟨r.now, snapshot⟩], true⟩ := by
      unfold nextVerdict
      rw [hemit]
      rcases verdict_emit (.quiet mode) r.shown.length r.now
        (r.next s).agent r.running with
        ⟨hno, -⟩ | ⟨-, ms, hno, -⟩ | ⟨-, snapshot', hsnap', heq⟩
      · exact absurd hno hmode
      · rw [hsnap] at hno
        cases hno
      · rw [hsnap] at hsnap'
        cases hsnap'
        rw [heq, hup]
        rfl
    rw [hverdict] at hshown houtcome
    refine .goes houtcome hfit (hagent ▸ hcell) fun _ => ?_
    obtain ⟨-, hplace, hheading, hmessage, -⟩ := Snapshot.ofAgent_ok.1 hsnap
    rw [hshown, hagent]
    exact ⟨hplace, hheading, hmessage⟩
  · -- nothing is shown
    have hverdict : r.nextVerdict s (.quiet mode) = ⟨none, [], r.running⟩ := by
      exact hadv.unshown hemit
    rw [hverdict] at hshown houtcome
    refine .goes houtcome hfit (hagent ▸ hcell) fun hset => ?_
    rw [hshown, hagent, List.nil_append]
    rw [hwalker] at hset
    cases h with
    | begins _ hfresh ha hno =>
        obtain ⟨rest, -, htodo⟩ := hfresh
        rw [htodo] at hadv
        obtain ⟨p, hp, heq⟩ := hadv.placed
        rw [ha] at hp heq
        rw [hno, heq]
        exact ⟨p, hp, rfl, rfl, rfl⟩
    | goes _ hfit' _ hfaces =>
        by_cases hset' : Act.Settled r.walker.todo
        · exact (hadv.faces hfit' hset' (hfaces hset')).2 hset
        · unfold Act.Settled at hset'
          push Not at hset'
          obtain ⟨rest, htodo⟩ := hset'
          rw [htodo] at hadv
          exact absurd hadv.emits hemit
    | ended hover => rw [hnone] at hover; cases hover

/-- Every step of a run keeps it, if its agent can be brought onto the grid
    at its start. -/
theorem Kept.step (hs : s.Measured columns rows) (hmode : mode ≠ .absent)
    (hstart : ∃ p, clampPosition s.config a₀.startPosition = .ok p)
    (h : Kept s columns rows a₀ r) (hnone : r.outcome = none) :
    Kept s columns rows a₀ (r.step s (.quiet mode)) := by
  obtain ⟨hagent, hwalker, -⟩ := step_spec (s := s) (o := .quiet mode) hnone
  have hstep : (r.next s).agent.Readable
      ∧ Placed s columns rows a₀ (r.step s (.quiet mode)) := by
    cases next_cases s (.quiet mode) r with
    | finishes hempty hsame _ hverdict =>
        refine ⟨hsame ▸ h.readable, h.placed.ends hnone (hempty ▸ nofun) ?_
          hsame hverdict⟩
        rw [hempty]
        rintro ⟨rest, -, hno⟩
        cases hno
    | halts hdown =>
        rw [h.up] at hdown
        cases hdown
    | fails hsig _ hfalters hverdict =>
        have hfresh := h.placed.unfresh hstart hnone hsig
        have hsame : (r.next s).agent = r.agent := by
          cases h.placed with
          | begins _ hno => exact absurd hno hfresh
          | goes _ hfit => exact Placed.falters hs hfit hfalters
          | ended hover =>
              rw [hnone] at hover
              cases hover
        exact ⟨hsame ▸ h.readable, h.placed.ends hnone
          (settled_of_fail hsig) hfresh hsame hverdict⟩
    | advances hadv =>
        have hb : (r.next s).agent.Readable := by
          cases h.placed with
          | begins _ hfresh =>
              exact hadv.readable hs (.inr hfresh) h.spoken h.readable
          | goes _ hfit =>
              exact hadv.readable hs (.inl hfit) h.spoken h.readable
          | ended hover =>
              rw [hnone] at hover
              cases hover
        exact ⟨hb, h.placed.advances hs hmode h.up hb hnone hadv⟩
  exact ⟨quiet_running h.up hnone, hwalker ▸ Walker.step_everyOf h.spoken,
    hagent ▸ hstep.1, hstep.2⟩

end Solo

end BlockStage
