import BlockStage.Proofs.Run.Solo

/-! # Journeys — runs among others

    A run that shares the stage with others takes its own acts one by one,
    but between two of them the clock may have moved on and the running
    flag may have been lowered or raised.  A journey is any such course of a
    run.  A run on its own is the journey on which neither happens.

    Seen from its messages, a journey is always in one of two parts: it
    leaves the message alone, or it is in the middle of saying something,
    between putting the message up and taking it down. -/

namespace BlockStage

namespace Solo

variable [Arithmetic] {s : Scene} {o : Observer} {r q : Solo}

/-- All that a run can come to while the clock and the flag are also in
    other hands. -/
inductive Journey (s : Scene) (o : Observer) (r : Solo) : Solo → Prop
  | starts : Journey s o r r
  | acts {q : Solo} : Journey s o r q → q.outcome = none →
      Journey s o r (q.step s o)
  | flagged {q : Solo} (running : Bool) : Journey s o r q →
      Journey s o r { q with running := running }
  | later {q : Solo} (now : Time) : Journey s o r q →
      Journey s o r { q with now := now }

/-- A run begins by bringing its agent onto the playfield. -/
theorem start_step (running : Bool) {p : Program} {a : Agent} {point : Point}
    (hplaced : clampPosition s.config a.position = .ok point) :
    (Solo.start p a running).step s o = { Solo.start p a running with
      agent := { a with position := point.position }
      walker := ⟨.check :: p.map .perform, 0⟩ } := by
  have hnext : (Solo.start p a running).next s
      = (Walker.start p).goOn { a with position := point.position }
        (.check :: p.map .perform) [] := by
    show Walker.goOnWith _ _ _ (operate (clampPosition s.config a.position)) _
      = _
    rw [hplaced]
    rfl
  rw [step_goOn (r := Solo.start p a running) rfl hnext]
  rfl

/-- A run whose agent has been brought onto the playfield, and what is left
    of it. -/
theorem start_placed (running : Bool) {p : Program} {a : Agent}
    {point : Point} (hplaced : clampPosition s.config a.position = .ok point) :
    ((Solo.start p a running).step s o).agent
        = { a with position := point.position }
      ∧ ((Solo.start p a running).step s o).walker.todo
        = .check :: p.map .perform
      ∧ ((Solo.start p a running).step s o).shown = []
      ∧ ((Solo.start p a running).step s o).outcome = none := by
  rw [start_step running hplaced]
  exact ⟨rfl, rfl, rfl, rfl⟩

namespace Journey

/-- A run on its own is a journey. -/
theorem run (k : Nat) : Journey s o r (Solo.run s o k r) :=
  run_keeps (P := Journey s o r) .starts (fun _ h hnone => .acts h hnone) k

end Journey

end Solo

/-! ## Messages -/

namespace Act

/-- Acts of a run on its way that leave the message alone.  Strides belong
    to the grid. -/
def Silent (c : Config) : Act → Prop
  | place => False
  | hush => False
  | stride _ => c.mode ≠ .canvas
  | _ => True

/-- Nothing but such acts is left to do. -/
def AllSilent (c : Config) (todo : List Act) : Prop :=
  ∀ act ∈ todo, act.Silent c

/-- A message is up: not shown yet, shown, or about to be taken down. -/
inductive Speaking (c : Config) : List Act → Prop
  | spoke {rest : List Act} : AllSilent c rest →
      Speaking c (.emit :: .pause c.sayMs :: .hush :: .emit :: .check :: rest)
  | speaks {rest : List Act} : AllSilent c rest →
      Speaking c (.pause c.sayMs :: .hush :: .emit :: .check :: rest)
  | hushes {rest : List Act} : AllSilent c rest →
      Speaking c (.hush :: .emit :: .check :: rest)

/-- What a run may have left to do once it has been brought onto the
    playfield. -/
def UnderWay (c : Config) (todo : List Act) : Prop :=
  AllSilent c todo ∨ Speaking c todo

variable {c : Config} {act : Act} {todo rest : List Act}

theorem allSilent_cons :
    AllSilent c (act :: rest) ↔ act.Silent c ∧ AllSilent c rest :=
  List.forall_mem_cons

/-- A body in front of silent acts. -/
theorem allSilent_body (body : List Instruction) (h : AllSilent c rest) :
    AllSilent c (body.map perform ++ rest) := by
  intro act hact
  rcases List.mem_append.1 hact with hact | hact
  · obtain ⟨i, -, rfl⟩ := List.mem_map.1 hact
    trivial
  · exact h act hact

/-- The frames to come are silent. -/
theorem allSilent_afterFrame {progress : Num} {again : Act}
    (ha : again.Silent c) (h : AllSilent c rest) :
    AllSilent c (Walker.afterFrame progress again rest) := by
  unfold Walker.afterFrame
  split
  · exact h
  · exact allSilent_cons.2 ⟨trivial, allSilent_cons.2 ⟨ha, h⟩⟩

/-- Nothing but a message to be taken down is not silent. -/
theorem UnderWay.head (h : UnderWay c (act :: rest)) (hno : act ≠ .hush) :
    act.Silent c := by
  rcases h with hsilent | hspeaking
  · exact (allSilent_cons.1 hsilent).1
  · cases hspeaking with
    | spoke => trivial
    | speaks => trivial
    | hushes => exact absurd rfl hno

/-- A program is silent until it is read. -/
theorem allSilent_program (p : Program) :
    AllSilent c (.check :: p.map perform) := by
  refine allSilent_cons.2 ⟨trivial, ?_⟩
  rw [← List.append_nil (p.map perform)]
  exact allSilent_body p fun _ hno => by cases hno

end Act

open Act

variable [Arithmetic] {s : Scene} {now : Time} {a b : Agent}
  {todo next : List Act} {signal : Signal}

/-- A step that fails leaves the message alone. -/
theorem Falters.message (h : Falters s now a todo b) :
    b.message = a.message := by
  cases h <;> rfl

/-- A silent run stays silent with the message it has, or puts a message
    up. -/
theorem Advance.silent (h : Advance s now a todo b next signal)
    (hs : AllSilent s.config todo) :
    AllSilent s.config next ∧ b.message = a.message
      ∨ Speaking s.config next ∧ signal = .proceed := by
  have hrest : ∀ {act rest}, todo = act :: rest →
      act.Silent s.config ∧ AllSilent s.config rest := by
    rintro act rest rfl
    exact allSilent_cons.1 hs
  cases h with
  | place => exact (hrest rfl).1.elim
  | hush => exact (hrest rfl).1.elim
  | say => exact .inr ⟨.spoke (hrest rfl).2, rfl⟩
  | strideOff hmode =>
      exact .inl ⟨allSilent_cons.2 ⟨hmode, (hrest rfl).2⟩, rfl⟩
  | nextStride _ hb =>
      obtain ⟨g, rfl⟩ := Agent.latchGoal_ok hb
      obtain ⟨hmode, hr⟩ := hrest rfl
      refine .inl ⟨?_, rfl⟩
      simp only [allSilent_cons, Act.Silent, true_and]
      exact ⟨hmode, hr⟩
  | glides _ _ hb =>
      obtain ⟨g, rfl⟩ := Agent.latchGoal_ok hb
      exact .inl ⟨allSilent_cons.2 ⟨trivial,
        allSilent_afterFrame trivial (hrest rfl).2⟩, rfl⟩
  | swings =>
      exact .inl ⟨allSilent_cons.2 ⟨trivial,
        allSilent_afterFrame trivial (hrest rfl).2⟩, rfl⟩
  | atGoal => exact .inl ⟨allSilent_body _ (hrest rfl).2, rfl⟩
  | nextPass =>
      exact .inl ⟨allSilent_body _ (allSilent_cons.2
        ⟨trivial, (hrest rfl).2⟩), rfl⟩
  | _ =>
      -- what follows in the place of the act is silent by its kind
      refine .inl ⟨?_, rfl⟩
      simpa only [allSilent_cons, Act.Silent, true_and] using (hrest rfl).2

/-- A run that says something goes on to say it, or has taken the message
    down and is about to show that. -/
theorem Advance.speaking (h : Advance s now a todo b next signal)
    (hs : Speaking s.config todo) :
    Speaking s.config next ∧ b = a
      ∨ b = { a with message := .null }
        ∧ ∃ rest, next = .emit :: rest ∧ AllSilent s.config next := by
  cases hs with
  | spoke hr =>
      cases h
      exact .inl ⟨.speaks hr, rfl⟩
  | speaks hr =>
      cases h
      exact .inl ⟨.hushes hr, rfl⟩
  | hushes hr =>
      cases h
      refine .inr ⟨rfl, _, rfl, ?_⟩
      simp only [allSilent_cons, Act.Silent, true_and]
      exact hr

/-- A run that is under way stays under way. -/
theorem Advance.underWay (h : Advance s now a todo b next signal)
    (hway : UnderWay s.config todo) : UnderWay s.config next := by
  rcases hway with hsilent | hspeaking
  · exact (h.silent hsilent).imp And.left And.left
  · rcases h.speaking hspeaking with ⟨hnext, -⟩ | ⟨-, rest, -, hnext⟩
    · exact .inr hnext
    · exact .inl hnext

end BlockStage
