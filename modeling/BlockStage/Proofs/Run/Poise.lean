import BlockStage.Proofs.Run.Solo

/-! # Poise — where an agent stands while others have their turn

    On the grid an agent gives up its turn only at a few places of its run,
    after a snapshot or in a sleep.  What it has left to do then begins
    with one of five short lists that end in a check, and everything behind
    the check is instructions, passes and steps.  If the flag falls there,
    the agent shows at most one snapshot more before the check stops it:
    the one that ends a wait, or the one that takes a message down. -/

namespace BlockStage

namespace Act

/-- Acts that neither show anything nor give up the turn. -/
def isBody : Act → Bool
  | perform _ => true
  | pass _ _ => true
  | stride _ => true
  | _ => false

/-- Nothing but instructions, passes and steps is left to do. -/
def Steady (todo : List Act) : Prop :=
  ∀ act ∈ todo, act.isBody = true

variable {act : Act} {todo rest : List Act}

theorem steady_cons :
    Steady (act :: rest) ↔ act.isBody = true ∧ Steady rest :=
  List.forall_mem_cons

/-- A body in front of what is steady. -/
theorem steady_body (body : List Instruction) (h : Steady rest) :
    Steady (body.map perform ++ rest) := by
  intro act hact
  rcases List.mem_append.1 hact with hact | hact
  · obtain ⟨i, -, rfl⟩ := List.mem_map.1 hact
    rfl
  · exact h act hact

/-- A run has just set out. -/
def Fresh (todo : List Act) : Prop :=
  ∃ rest, Steady rest ∧ todo = .place :: .check :: rest

/-- What an agent may have left to do when it gives up its turn. -/
inductive Poised (c : Config) : List Act → Prop
  /-- It goes on to a check. -/
  | check {rest : List Act} : Steady rest → Poised c (.check :: rest)
  /-- It has been shown after a step or a turn and has to pause. -/
  | rests {ms : Value} {rest : List Act} : ms = c.stepMs ∨ ms = c.turnMs →
      Steady rest → Poised c (.pause ms :: .check :: rest)
  /-- It has waited and has to be shown. -/
  | shows {rest : List Act} : Steady rest →
      Poised c (.emit :: .check :: rest)
  /-- It has said something for long enough. -/
  | hushes {rest : List Act} : Steady rest →
      Poised c (.hush :: .emit :: .check :: rest)
  /-- It has just begun to say something. -/
  | speaks {rest : List Act} : Steady rest →
      Poised c (.pause c.sayMs :: .hush :: .emit :: .check :: rest)

/-- What an agent has left to do when it has just been shown. -/
inductive Beheld (c : Config) : List Act → Prop
  /-- At the end of a wait, or with its message taken down. -/
  | check {rest : List Act} : Steady rest → Beheld c (.check :: rest)
  /-- After a step or a turn. -/
  | rests {ms : Value} {rest : List Act} : ms = c.stepMs ∨ ms = c.turnMs →
      Steady rest → Beheld c (.pause ms :: .check :: rest)
  /-- With a new message. -/
  | speaks {rest : List Act} : Steady rest →
      Beheld c (.pause c.sayMs :: .hush :: .emit :: .check :: rest)

/-- Whoever has just been shown is poised. -/
theorem Beheld.poised {c : Config} (h : Beheld c todo) : Poised c todo := by
  cases h with
  | check hs => exact .check hs
  | rests hms hs => exact .rests hms hs
  | speaks hs => exact .speaks hs

/-- What an agent may have left to do at any time after it has set out. -/
inductive Fit (c : Config) : List Act → Prop
  | poised {todo : List Act} : Poised c todo → Fit c todo
  /-- In the middle of its instructions. -/
  | steady {todo : List Act} : Steady todo → Fit c todo
  /-- After a step or a turn. -/
  | moved {ms : Value} {rest : List Act} : ms = c.stepMs ∨ ms = c.turnMs →
      Steady rest → Fit c (.emit :: .pause ms :: .check :: rest)
  /-- With a new message. -/
  | spoke {rest : List Act} : Steady rest →
      Fit c (.emit :: .pause c.sayMs :: .hush :: .emit :: .check :: rest)
  /-- At the beginning of a wait. -/
  | waits {ms : Value} {rest : List Act} : Steady rest →
      Fit c (.pause ms :: .emit :: .check :: rest)

/-- Where an agent has given up its turn nothing but a check stands behind a
    snapshot that is due. -/
theorem Poised.checked {c : Config} (h : Poised c (.emit :: todo)) :
    ∃ rest, Steady rest ∧ todo = .check :: rest := by
  cases h with
  | shows hs => exact ⟨_, hs, rfl⟩

/-- How many snapshots come before the next check. -/
def dues : List Act → Nat
  | emit :: rest => dues rest + 1
  | pause _ :: rest => dues rest
  | hush :: rest => dues rest
  | _ => 0

/-- At most one snapshot is due when an agent has given up its turn. -/
theorem Poised.dues_le {c : Config} (h : Poised c todo) : dues todo ≤ 1 := by
  cases h <;> simp [dues]

/-- Nothing is due before an agent has set out. -/
theorem Fresh.dues_eq (h : Fresh todo) : dues todo = 0 := by
  obtain ⟨rest, -, rfl⟩ := h
  rfl

/-- No frames are drawn on the grid. -/
theorem Fit.unframed {c : Config} (h : Fit c (act :: rest)) :
    act.isFrame = false := by
  cases h with
  | poised hp => cases hp <;> rfl
  | steady hs =>
      have hact := (steady_cons.1 hs).1
      cases act <;> cases hact <;> rfl
  | moved => rfl
  | spoke => rfl
  | waits => rfl

/-- Behind an act of a body stand only others. -/
theorem Fit.behind {c : Config} (h : Fit c (act :: rest))
    (hact : act.isBody = true) : Steady rest := by
  cases h with
  | poised hp => cases hp <;> cases hact
  | steady hs => exact (steady_cons.1 hs).2
  | moved => cases hact
  | spoke => cases hact
  | waits => cases hact

/-- Whoever is on its way has set out. -/
theorem Fit.unplaced {c : Config} (h : Fit c todo) :
    ∀ rest, todo ≠ .place :: rest := by
  rintro rest rfl
  cases h with
  | poised hp => cases hp
  | steady hs => cases (steady_cons.1 hs).1

end Act

open Act

variable [Arithmetic] {s : Scene} {now : Time} {a b : Agent}
  {todo next : List Act} {signal : Signal}

/-- On the grid an agent has always left to do what it may, and what it may
    at the end of its turn when it gives it up. -/
theorem Advance.fit (h : Advance s now a todo b next signal)
    (hmode : s.config.mode ≠ .canvas)
    (hfit : Fit s.config todo ∨ Fresh todo) :
    Fit s.config next ∧ (signal ≠ .proceed → Poised s.config next)
      ∧ (signal = .emit → Beheld s.config next) := by
  rcases hfit with hfit | ⟨rest, hs, rfl⟩
  rotate_left
  · cases h
    exact ⟨.poised (.check hs), fun _ => .check hs, nofun⟩
  have hstay : ∀ {next}, Steady next →
      Fit s.config next ∧ (Signal.proceed ≠ .proceed →
        Poised s.config next)
      ∧ (Signal.proceed = .emit → Beheld s.config next) :=
    fun hs => ⟨.steady hs, fun hno => absurd rfl hno, nofun⟩
  cases h with
  | place => exact absurd rfl (hfit.unplaced _)
  | check =>
      cases hfit with
      | poised hp =>
          cases hp with
          | check hs => exact hstay hs
      | steady hs => cases (steady_cons.1 hs).1
  | glideOff hcanvas => exact absurd hcanvas hmode
  | strideOff => exact hstay (steady_cons.2 ⟨rfl, hfit.behind rfl⟩)
  | swingOff hcanvas => exact absurd hcanvas hmode
  | quarters =>
      exact ⟨.moved (.inr rfl) (hfit.behind rfl), fun hno => absurd rfl hno,
        nofun⟩
  | wait =>
      exact ⟨.waits (hfit.behind rfl), fun hno => absurd rfl hno, nofun⟩
  | say =>
      exact ⟨.spoke (hfit.behind rfl), fun hno => absurd rfl hno, nofun⟩
  | loop => exact hstay (steady_cons.2 ⟨rfl, hfit.behind rfl⟩)
  | atGoal => exact hstay (steady_body _ (hfit.behind rfl))
  | notAtGoal => exact hstay (hfit.behind rfl)
  | lastPass => exact hstay (hfit.behind rfl)
  | nextPass =>
      exact hstay (steady_body _ (steady_cons.2 ⟨rfl, hfit.behind rfl⟩))
  | lastStride => exact hstay (hfit.behind rfl)
  | nextStride =>
      exact ⟨.moved (.inl rfl) (steady_cons.2 ⟨rfl, hfit.behind rfl⟩),
        fun hno => absurd rfl hno, nofun⟩
  | emit =>
      have hb : Beheld s.config next := by
        cases hfit with
        | poised hp =>
            cases hp with
            | shows hs => exact .check hs
        | steady hs => cases (steady_cons.1 hs).1
        | moved hms hs => exact .rests hms hs
        | spoke hs => exact .speaks hs
      exact ⟨.poised hb.poised, fun _ => hb.poised, fun _ => hb⟩
  | pause =>
      have hp : Poised s.config next := by
        cases hfit with
        | poised hp =>
            cases hp with
            | rests _ hs => exact .check hs
            | speaks hs => exact .hushes hs
        | steady hs => cases (steady_cons.1 hs).1
        | waits hs => exact .shows hs
      exact ⟨.poised hp, fun _ => hp, nofun⟩
  | hush =>
      cases hfit with
      | poised hp =>
          cases hp with
          | hushes hs =>
              exact ⟨.poised (.shows hs), fun _ => .shows hs, nofun⟩
      | steady hs => cases (steady_cons.1 hs).1
  | glides => cases hfit.unframed
  | swings => cases hfit.unframed
  | awaitFrame =>
      cases hfit with
      | poised hp => cases hp
      | steady hs => cases (steady_cons.1 hs).1

/-- From where an agent has given up its turn it goes straight to the next
    check, and shows what is due on the way. -/
theorem Advance.winds (h : Advance s now a todo b next signal)
    (hp : Poised s.config todo ∨ Fresh todo)
    (hno : ∀ rest, todo ≠ .check :: rest) :
    Poised s.config next
      ∧ (signal = .emit ∧ dues next + 1 = dues todo
        ∨ signal ≠ .emit ∧ dues next = dues todo) := by
  rcases hp with hp | ⟨rest, hs, rfl⟩
  rotate_left
  · cases h
    exact ⟨.check hs, .inr ⟨nofun, rfl⟩⟩
  cases hp with
  | check hs => exact absurd rfl (hno _)
  | rests _ hs =>
      cases h
      exact ⟨.check hs, .inr ⟨nofun, rfl⟩⟩
  | shows hs =>
      cases h
      exact ⟨.check hs, .inl ⟨rfl, rfl⟩⟩
  | hushes hs =>
      cases h
      exact ⟨.shows hs, .inr ⟨nofun, rfl⟩⟩
  | speaks hs =>
      cases h
      exact ⟨.hushes hs, .inr ⟨nofun, rfl⟩⟩

omit [Arithmetic] in
/-- What a run sets out with. -/
theorem Walker.start_fresh (p : Program) : Fresh (start p).todo := by
  refine ⟨_, fun act hact => ?_, rfl⟩
  obtain ⟨i, -, rfl⟩ := List.mem_map.1 hact
  rfl

end BlockStage
