import BlockStage.Proofs.Run.Arrival
import BlockStage.Proofs.Run.Trail

/-! # Latches — which moves put the goal flag up

    A step of a walk and a frame of a glide take the agent to another place,
    look for the goal there and show the agent next; nothing else touches
    the flag.  So a record of all snapshots that also notes which of them a
    move has shown tells the history of the flag: it goes up at the first
    snapshot of a move into the goal, or it was up from the start, and it
    never comes down (`Solo.journey_latches`).  What a record notes is put
    together act by act, beside the run. -/

namespace BlockStage

/-- Acts that take the agent to another place: a step of a walk, or a frame
    of a glide. -/
def Act.moves : Act → Bool
  | .stride (_ + 1) => true
  | .glide _ _ _ => true
  | _ => false

/-- A snapshot, the agent it was taken of, and whether a move has shown it:
    whether the act right before it took the agent to its place. -/
structure Shot where
  event : Event
  agent : Agent
  byMove : Bool

namespace Shot

/-- The snapshot says that the goal is reached. -/
def Raised (x : Shot) : Prop := x.event.snapshot.goalReached = true

/-- A move has shown the agent in the goal. -/
def Arrives (goal : Option GoalRegion) (x : Shot) : Prop :=
  x.byMove = true ∧ x.agent.InGoal goal

/-- The agent is in the goal exactly if the place shown is: on the canvas,
    and on the grid where 53 bits are enough for the cell. -/
def Faithful (s : Scene) (x : Shot) : Prop :=
  s.config.mode = .canvas ∨ x.event.snapshot.Small →
    (x.agent.InGoal s.goal ↔ x.event.snapshot.InGoal s.goal)

end Shot

/-! ## Records -/

/-- What a record of snapshots tells about a flag that was `up` or not at the
    start and is `g` now. -/
structure History (s : Scene) (up g : Bool) (record : List Shot) : Prop where
  /-- Once a snapshot says that the goal is reached all later ones do. -/
  kept : record.Pairwise fun later earlier => earlier.Raised → later.Raised
  /-- Then the flag is up now. -/
  stays : ∀ x ∈ record, x.Raised → g = true
  /-- A flag that was up at the start has stayed so. -/
  outset : up = true → g = true ∧ ∀ x ∈ record, x.Raised
  /-- A snapshot says so only if the flag was up at the start or a move had
      shown the agent in the goal by then. -/
  cause : ∀ after x before, record = after ++ x :: before → x.Raised →
    up = true ∨ ∃ y ∈ x :: before, y.Arrives s.goal
  /-- Every snapshot of a move into the goal says so. -/
  told : ∀ y ∈ record, y.Arrives s.goal → y.Raised
  /-- The snapshots of moves show who is in the goal. -/
  faithful : ∀ y ∈ record, y.byMove = true → y.Faithful s

namespace History

variable {s : Scene} {up g : Bool} {record : List Shot} {x : Shot}

/-- Before the first snapshot. -/
theorem empty : History s up up [] where
  kept := .nil
  stays := List.forall_mem_nil _
  outset hup := ⟨hup, List.forall_mem_nil _⟩
  cause after x before heq := by simp at heq
  told := List.forall_mem_nil _
  faithful := List.forall_mem_nil _

/-- The flag may go up between two snapshots. -/
theorem raised (h : History s up g record) : History s up true record :=
  { h with
    stays := fun _ _ _ => rfl
    outset := fun hup => ⟨rfl, (h.outset hup).2⟩ }

/-- One more snapshot that reads the flag. -/
theorem snap (h : History s up g record)
    (hreads : x.event.snapshot.goalReached = g)
    (hcause : g = true → up = true ∨ ∃ y ∈ x :: record, y.Arrives s.goal)
    (htold : x.Arrives s.goal → g = true)
    (hfaithful : x.byMove = true → x.Faithful s) :
    History s up g (x :: record) where
  kept := by
    refine List.pairwise_cons.2 ⟨fun y hy hraised => ?_, h.kept⟩
    exact hreads.trans (h.stays y hy hraised)
  stays := by
    refine List.forall_mem_cons.2 ⟨fun hraised => ?_, h.stays⟩
    exact hreads.symm.trans hraised
  outset hup := by
    obtain ⟨hg, hall⟩ := h.outset hup
    exact ⟨hg, List.forall_mem_cons.2 ⟨hreads.trans hg, hall⟩⟩
  cause := by
    intro after y before heq hraised
    cases after with
    | nil =>
        -- the new snapshot itself
        cases heq
        exact hcause (hreads.symm.trans hraised)
    | cons z after =>
        cases heq
        exact h.cause after y before rfl hraised
  told := List.forall_mem_cons.2 ⟨fun hin => hreads.trans (htold hin), h.told⟩
  faithful := List.forall_mem_cons.2 ⟨hfaithful, h.faithful⟩

end History

/-! ## Journeys on record -/

section

variable [Arithmetic]

namespace Solo

/-- Whether the next act of a run takes its agent to another place. -/
def moves (r : Solo) : Bool := r.walker.todo.head?.any Act.moves

/-- The snapshot that the next act of a run shows, if any. -/
def shots (s : Scene) (o : Observer) (r : Solo) (byMove : Bool) :
    List Shot :=
  (r.nextVerdict s o).shown.map fun e => ⟨e, r.agent, byMove⟩

/-- A journey with the record of its snapshots, the latest first; between
    them stands whether the latest act was a move. -/
inductive Recorded (s : Scene) (o : Observer) (r : Solo) :
    Solo → Bool → List Shot → Prop
  | starts : Recorded s o r r false []
  | acts {q : Solo} {moved : Bool} {record : List Shot} :
      Recorded s o r q moved record → q.outcome = none →
      Recorded s o r (q.step s o) q.moves (q.shots s o moved ++ record)
  | flagged {q : Solo} {moved : Bool} {record : List Shot}
      (running : Bool) : Recorded s o r q moved record →
      Recorded s o r { q with running := running } moved record
  | later {q : Solo} {moved : Bool} {record : List Shot} (now : Time) :
      Recorded s o r q moved record →
      Recorded s o r { q with now := now } moved record

/-- Every journey has a record. -/
theorem Journey.recorded {s : Scene} {o : Observer} {r q : Solo}
    (h : Journey s o r q) :
    ∃ moved record, Recorded s o r q moved record := by
  induction h with
  | starts => exact ⟨_, _, .starts⟩
  | acts _ hnone ih =>
      obtain ⟨moved, record, hrecord⟩ := ih
      exact ⟨_, _, .acts hrecord hnone⟩
  | flagged running _ ih =>
      obtain ⟨moved, record, hrecord⟩ := ih
      exact ⟨_, _, .flagged running hrecord⟩
  | later now _ ih =>
      obtain ⟨moved, record, hrecord⟩ := ih
      exact ⟨_, _, .later now hrecord⟩

end Solo

/-! ## Steps -/

section

variable {s : Scene} {now : Time} {a b : Agent} {todo next : List Act}
  {signal : Signal}

/-- An agent that a move has just taken to its place: a cell of the grid, or
    a point between two on the canvas. -/
inductive Agent.Landed (c : Config) (a : Agent) : Prop
  | cell {col row : Int} : c.mode ≠ .canvas →
      a.position = [.int col, .int row] → Landed c a
  | frame {x y : Scalar} : a.position = [.real x, .real y] → Landed c a

/-- Where a move has landed an agent, it is in the goal exactly if its
    snapshot is. -/
theorem Agent.Landed.faithful
    (hround : ∀ q, Arithmetic.round q = Binary64.nearest q)
    (h : a.Landed s.config) {x : Snapshot} (hx : a.ShownAs x)
    (hsmall : s.config.mode = .canvas ∨ x.Small) :
    a.InGoal s.goal ↔ x.InGoal s.goal := by
  cases h with
  | cell hmode hpos =>
      exact hx.cell_inGoal hround hpos (hsmall.resolve_left hmode)
  | frame hpos => exact hx.frame_inGoal hpos

/-- What an advance does about the goal.  A move lands the agent, looks for
    the goal and has a snapshot due; everything else leaves the flag. -/
theorem Advance.latches (h : Advance s now a todo b next signal)
    (hway : Act.UnderWay s.config todo ∨ ∃ p, todo = (Walker.start p).todo) :
    todo.head?.any Act.moves = false ∧ b.goalReached = a.goalReached
      ∨ todo.head?.any Act.moves = true ∧ signal = .proceed
        ∧ (∃ rest, next = .emit :: rest) ∧ b.Landed s.config
        ∧ ∃ p : Position,
          { a with position := p }.latchGoal s.goal = .ok b := by
  -- a run that is still to set out does not move
  have hway : ∀ {act rest}, todo = act :: rest → act.moves = true →
      Act.UnderWay s.config (act :: rest) := by
    rintro act rest rfl hmoves
    refine hway.resolve_right ?_
    rintro ⟨p, heq⟩
    cases heq
    cases hmoves
  cases h with
  | nextStride hp hb =>
      obtain ⟨col, row, rfl⟩ := gridStep_cell hp
      have hmode : s.config.mode ≠ .canvas := (hway rfl rfl).head nofun
      refine .inr ⟨rfl, rfl, ⟨_, rfl⟩, ?_, _, hb⟩
      obtain ⟨g, rfl⟩ := Agent.latchGoal_ok hb
      exact .cell hmode rfl
  | glides _ hp hb =>
      obtain ⟨x, y, rfl⟩ := Walker.between_real hp
      refine .inr ⟨rfl, rfl, ⟨_, rfl⟩, ?_, _, hb⟩
      obtain ⟨g, rfl⟩ := Agent.latchGoal_ok hb
      exact .frame rfl
  | _ => exact .inl ⟨rfl, rfl⟩

/-- Once a run has set out it is under way. -/
theorem Advance.setOut (h : Advance s now a todo b next signal)
    (hway : Act.UnderWay s.config todo ∨ ∃ p, todo = (Walker.start p).todo) :
    Act.UnderWay s.config next ∨ ∃ p, next = (Walker.start p).todo := by
  rcases hway with hway | ⟨p, rfl⟩
  · exact .inl (h.underWay hway)
  · cases h
    exact .inl (.inl (Act.allSilent_program p))

/-- An agent with its flag down passes over the body of a conditional. -/
theorem Walker.step_skips {w : Walker} {running : Bool}
    {body : List Instruction} {rest : List Act}
    (htodo : w.todo = .perform (.ifGoalReached body) :: rest)
    (hdown : a.goalReached.holds = false) :
    w.step s now running a = w.goOn a rest [] := by
  rw [Walker.step, htodo]
  show (if a.goalReached.holds then _ else w.goOn a rest []) = _
  rw [if_neg (Bool.eq_false_iff.1 hdown)]

/-- A step that fails leaves the flag. -/
theorem Falters.flag (h : Falters s now a todo b) :
    b.goalReached = a.goalReached := by
  cases h <;> rfl

end

namespace Solo

variable {s : Scene} {o : Observer} {up moved : Bool} {record : List Shot}
  {a₀ : Agent} {q : Solo}

/-- A run with the record of its snapshots: its flag is what the record
    makes it, but for a move into the goal whose snapshot is due or could not
    be made. -/
structure Latched (s : Scene) (up moved : Bool) (record : List Shot)
    (q : Solo) : Prop where
  way : Act.UnderWay s.config q.walker.todo
    ∨ ∃ p, q.walker.todo = (Walker.start p).todo
  shown : q.shown = record.map (·.event)
  history : ∃ g, q.agent.goalReached = .bool g ∧ History s up g record
  reason : q.agent.goalReached.holds = true → up = true
    ∨ (∃ y ∈ record, y.Arrives s.goal)
    ∨ q.outcome = none ∧ moved = true ∧ q.agent.InGoal s.goal
    ∨ ∃ ms, q.outcome = some (.failed (.badSnapshot ms))
  due : moved = true → q.outcome = none →
    (∃ rest, q.walker.todo = .emit :: rest) ∧ q.agent.Landed s.config
      ∧ (q.agent.InGoal s.goal → q.agent.goalReached.holds = true)

namespace Latched

omit [Arithmetic] in
/-- A run about to start. -/
theorem start (p : Program) (running : Bool)
    (hup : a₀.goalReached = .bool up) :
    Latched s up false [] (.start p a₀ running) where
  way := .inr ⟨p, rfl⟩
  shown := rfl
  history := ⟨up, hup, .empty⟩
  reason hholds := by
    rw [show (Solo.start p a₀ running).agent.goalReached = .bool up from hup]
      at hholds
    exact .inl hholds
  due hno := by cases hno

omit [Arithmetic] in
/-- Unless a snapshot is due, a flag that is up has its reason on record. -/
theorem settled (h : Latched s up moved record q) (hnone : q.outcome = none)
    (hdue : ∀ rest, q.walker.todo ≠ .emit :: rest)
    (hholds : q.agent.goalReached.holds = true) :
    up = true ∨ ∃ y ∈ record, y.Arrives s.goal := by
  rcases h.reason hholds with hup | hrecord | ⟨-, hmoved, -⟩ | ⟨ms, hfail⟩
  · exact .inl hup
  · exact .inr hrecord
  · obtain ⟨⟨rest, htodo⟩, -⟩ := h.due hmoved hnone
    exact absurd htodo (hdue rest)
  · rw [hnone] at hfail
    cases hfail

/-- A step that ends the run with nothing due leaves the record as it is. -/
theorem ends (h : Latched s up moved record q) (hnone : q.outcome = none)
    (hdue : ∀ rest, q.walker.todo ≠ .emit :: rest)
    (htodo : (q.next s).walker.todo = q.walker.todo)
    (hflag : (q.next s).agent.goalReached = q.agent.goalReached)
    {e : Outcome} (hverdict : q.nextVerdict s o = ⟨some e, [], q.running⟩) :
    Latched s up q.moves (q.shots s o moved ++ record) (q.step s o) := by
  obtain ⟨hagent, hwalker, hshown, -, houtcome⟩ :=
    step_spec (s := s) (o := o) hnone
  rw [hverdict] at hshown houtcome
  have hshots : q.shots s o moved = [] := by
    rw [shots, hverdict]
    rfl
  rw [hshots]
  obtain ⟨g, hg, hhistory⟩ := h.history
  refine ⟨?_, ?_, ⟨g, ?_, hhistory⟩, fun hholds => ?_, fun _ hgoes => ?_⟩
  · rw [hwalker, htodo]
    exact h.way
  · rw [hshown]
    exact h.shown
  · rw [hagent, hflag, hg]
  · rw [hagent, hflag] at hholds
    exact (h.settled hnone hdue hholds).imp_right .inl
  · rw [houtcome] at hgoes
    cases hgoes

/-- A step that shows nothing and goes on leaves the flag, or it is a move
    whose snapshot is due. -/
theorem goes (h : Latched s up moved record q) (hnone : q.outcome = none)
    (hquiet : (q.next s).signal ≠ .emit)
    (hadv : Advance s q.now q.agent q.walker.todo (q.next s).agent
      (q.next s).walker.todo (q.next s).signal) :
    Latched s up q.moves (q.shots s o moved ++ record) (q.step s o) := by
  obtain ⟨hagent, hwalker, hshown, -, houtcome⟩ :=
    step_spec (s := s) (o := o) hnone
  have hverdict : q.nextVerdict s o = ⟨none, [], q.running⟩ :=
    hadv.unshown hquiet
  rw [hverdict] at hshown houtcome
  have hshots : q.shots s o moved = [] := by
    rw [shots, hverdict]
    rfl
  have hdue : ∀ rest, q.walker.todo ≠ .emit :: rest := fun rest htodo =>
    hquiet (htodo ▸ hadv).emits
  have hway := hadv.setOut h.way
  obtain ⟨g, hg, hhistory⟩ := h.history
  rw [hshots]
  rw [← hwalker] at hway
  rcases hadv.latches h.way with ⟨hstill, hflag⟩ |
    ⟨hmoves, -, hnext, hlanded, p, hlatch⟩
  · refine ⟨hway, hshown.trans h.shown, ⟨g, ?_, hhistory⟩, fun hholds => ?_,
      fun hmoved => ?_⟩
    · rw [hagent, hflag, hg]
    · rw [hagent, hflag] at hholds
      exact (h.settled hnone hdue hholds).imp_right .inl
    · rw [moves, hstill] at hmoved
      cases hmoved
  · have hin : (q.next s).agent.InGoal s.goal →
        (q.next s).agent.goalReached.holds = true :=
      (Agent.latchGoal_up hlatch).2
    rw [← hwalker] at hnext
    rw [← hagent] at hlanded hin
    have hdue' : q.moves = true → (q.step s o).outcome = none →
        (∃ rest, (q.step s o).walker.todo = .emit :: rest)
          ∧ (q.step s o).agent.Landed s.config
          ∧ ((q.step s o).agent.InGoal s.goal →
            (q.step s o).agent.goalReached.holds = true) :=
      fun _ _ => ⟨hnext, hlanded, hin⟩
    rcases Agent.latchGoal_inside hlatch with hsame | hinside
    · have hflag : (q.step s o).agent.goalReached = q.agent.goalReached := by
        rw [hagent, hsame]
      refine ⟨hway, hshown.trans h.shown, ⟨g, hflag.trans hg, hhistory⟩,
        fun hholds => ?_, hdue'⟩
      rw [hflag] at hholds
      exact (h.settled hnone hdue hholds).imp_right .inl
    · rw [← hagent] at hinside
      refine ⟨hway, hshown.trans h.shown, ⟨true, ?_, hhistory.raised⟩,
        fun _ => .inr (.inr (.inl ⟨houtcome, hmoves, hinside⟩)), hdue'⟩
      -- the flag is up, as the truth value it is
      have hup := hin hinside
      rcases (Agent.latchGoal_up hlatch).1 with hsame | hraised
      · rw [hagent, hsame] at hup ⊢
        rw [show ({ q.agent with position := p } : Agent).goalReached
          = .bool g from hg] at hup ⊢
        rw [show g = true from hup]
      · rw [hagent, hraised]

/-- A snapshot that is due goes on record with the flag as it is. -/
theorem emits (hround : ∀ q, Arithmetic.round q = Binary64.nearest q)
    (hseen : o.mode ≠ .absent) (h : Latched s up moved record q)
    (hnone : q.outcome = none) (hemit : (q.next s).signal = .emit)
    (hadv : Advance s q.now q.agent q.walker.todo (q.next s).agent
      (q.next s).walker.todo (q.next s).signal) :
    Latched s up q.moves (q.shots s o moved ++ record) (q.step s o) := by
  obtain ⟨hagent, hwalker, hshown, -, houtcome⟩ :=
    step_spec (s := s) (o := o) hnone
  obtain ⟨htodo, hsame⟩ := hadv.showing hemit
  have hway := hadv.setOut h.way
  have hstill : q.moves = false := by
    rw [moves, htodo]
    rfl
  obtain ⟨g, hg, hhistory⟩ := h.history
  rw [← hwalker] at hway
  rw [hsame] at hagent
  have hverdict : q.nextVerdict s o
      = verdict o q.shown.length q.now q.agent q.running .emit := by
    rw [nextVerdict, hemit, hsame]
  rcases verdict_emit o q.shown.length q.now q.agent q.running with
    ⟨habsent, -⟩ | ⟨-, ms, -, heq⟩ | ⟨-, x, hx, heq⟩
  · exact absurd habsent hseen
  · -- the snapshot cannot be made, which ends the run
    rw [hverdict, heq] at hshown houtcome
    rw [show q.shots s o moved = [] by rw [shots, hverdict, heq]; rfl]
    refine ⟨hway, hshown.trans h.shown, ⟨g, by rw [hagent, hg], hhistory⟩,
      fun _ => .inr (.inr (.inr ⟨ms, houtcome⟩)), fun hmoved => ?_⟩
    rw [hstill] at hmoved
    cases hmoved
  · rw [hverdict, heq] at hshown
    rw [show q.shots s o moved = [⟨⟨q.now, x⟩, q.agent, moved⟩] by
      rw [shots, hverdict, heq]
      rfl]
    have hread : q.agent.ShownAs x := .of_snapshot hx
    -- what made the flag go up is on record with this snapshot
    have hcause : q.agent.goalReached.holds = true → up = true
        ∨ ∃ y ∈ ⟨⟨q.now, x⟩, q.agent, moved⟩ :: record, y.Arrives s.goal := by
      intro hholds
      rcases h.reason hholds with hup | ⟨y, hy, harrives⟩ |
        ⟨-, hmoved, hin⟩ | ⟨ms, hfail⟩
      · exact .inl hup
      · exact .inr ⟨y, List.mem_cons_of_mem _ hy, harrives⟩
      · exact .inr ⟨_, List.mem_cons_self .., hmoved, hin⟩
      · rw [hnone] at hfail
        cases hfail
    have hholds : q.agent.goalReached.holds = g := by
      rw [hg]
      rfl
    refine ⟨hway, ?_, ⟨g, by rw [hagent, hg], ?_⟩, fun hup => ?_,
      fun hmoved => ?_⟩
    · rw [hshown, h.shown]
      rfl
    · refine hhistory.snap (hread.reads hg) (fun hup => ?_) ?_ ?_
      · exact hcause (hholds.trans hup)
      · rintro ⟨hmoved, hin⟩
        obtain ⟨-, -, hlatched⟩ := h.due hmoved hnone
        exact hholds.symm.trans (hlatched hin)
      · intro hmoved hsmall
        obtain ⟨-, hlanded, -⟩ := h.due hmoved hnone
        exact hlanded.faithful hround hread hsmall
    · rw [hagent] at hup
      exact (hcause hup).imp_right .inl
    · rw [hstill] at hmoved
      cases hmoved

/-- One step of a run and its record. -/
theorem step (hround : ∀ q, Arithmetic.round q = Binary64.nearest q)
    (hseen : o.mode ≠ .absent) (h : Latched s up moved record q)
    (hnone : q.outcome = none) :
    Latched s up q.moves (q.shots s o moved ++ record) (q.step s o) := by
  cases next_cases s o q with
  | finishes hempty hagent htodo hverdict =>
      exact h.ends hnone (hempty ▸ nofun) htodo
        (congrArg Agent.goalReached hagent) hverdict
  | halts _ hcheck hagent htodo hverdict =>
      exact h.ends hnone (hcheck ▸ nofun) htodo
        (congrArg Agent.goalReached hagent) hverdict
  | fails hsig htodo hfalters hverdict =>
      exact h.ends hnone (settled_of_fail hsig) htodo hfalters.flag hverdict
  | advances hadv =>
      by_cases hemit : (q.next s).signal = .emit
      · exact h.emits hround hseen hnone hemit hadv
      · exact h.goes hnone hemit hadv

end Latched

/-- All along a journey the flag is what its record makes it. -/
theorem Recorded.latched
    (hround : ∀ q, Arithmetic.round q = Binary64.nearest q)
    (hseen : o.mode ≠ .absent) {p : Program} {running : Bool}
    (hup : a₀.goalReached = .bool up)
    (h : Recorded s o (.start p a₀ running) q moved record) :
    Latched s up moved record q := by
  induction h with
  | starts => exact .start p running hup
  | acts _ hnone ih => exact ih.step hround hseen hnone
  | flagged _ _ ih =>
      exact ⟨ih.way, ih.shown, ih.history, ih.reason, ih.due⟩
  | later _ _ ih => exact ⟨ih.way, ih.shown, ih.history, ih.reason, ih.due⟩

/-- A run whose record tells what has become of the goal flag it came
    with. -/
structure KeepsLatch (s : Scene) (o : Observer) (up : Bool)
    (record : List Shot) (q : Solo) : Prop where
  /-- Every snapshot is on record. -/
  shown : q.shown = record.map (·.event)
  /-- The record tells how the flag has come to be what it is. -/
  history : ∃ g, q.agent.goalReached = .bool g ∧ History s up g record
  /-- It is up only if it was up at the start or a move has shown the agent
      in the goal, unless a snapshot of it is still due or could not be
      made. -/
  reason : q.agent.goalReached.holds = true → up = true
    ∨ (∃ y ∈ record, y.Arrives s.goal)
    ∨ (q.outcome = none ∧ ∃ rest, q.walker.todo = .emit :: rest)
    ∨ ∃ ms, q.outcome = some (.failed (.badSnapshot ms))
  /-- Before a move has shown the agent in the goal, a conditional is passed
      over if the flag was down at the start. -/
  skips : ∀ body rest, up = false → q.outcome = none →
    q.walker.todo = .perform (.ifGoalReached body) :: rest →
    (∀ y ∈ record, ¬ y.Arrives s.goal) →
    q.step s o = { q with walker := { q.walker with todo := rest } }

/-- The goal flag along a journey, with whatever program and however it ends.
    The flag goes up when a move takes the agent into the goal, the snapshot
    of that move says so, and from then on every snapshot does; it goes up
    for no other reason, and never comes down. -/
theorem journey_latches
    (hround : ∀ q, Arithmetic.round q = Binary64.nearest q)
    (hseen : o.mode ≠ .absent) (p : Program) (running : Bool)
    (hup : a₀.goalReached = .bool up)
    (hq : Journey s o (.start p a₀ running) q) :
    (∃ moved record, Recorded s o (.start p a₀ running) q moved record)
      ∧ ∀ moved record, Recorded s o (.start p a₀ running) q moved record →
        KeepsLatch s o up record q := by
  refine ⟨hq.recorded, fun moved record hrecord => ?_⟩
  have h := hrecord.latched hround hseen hup
  refine ⟨h.shown, h.history, fun hholds => ?_, ?_⟩
  · rcases h.reason hholds with hstart | harrives | ⟨hnone, hmoved, -⟩ | hfail
    · exact .inl hstart
    · exact .inr (.inl harrives)
    · exact .inr (.inr (.inl ⟨hnone, (h.due hmoved hnone).1⟩))
    · exact .inr (.inr (.inr hfail))
  · intro body rest hdown hnone htodo hnowhere
    have hflag : q.agent.goalReached.holds = false := by
      by_contra hholds
      rw [Bool.not_eq_false] at hholds
      have hdue : ∀ rest, q.walker.todo ≠ .emit :: rest := by
        rw [htodo]
        exact nofun
      rcases h.settled hnone hdue hholds with hstart | ⟨y, hy, harrives⟩
      · rw [hdown] at hstart
        cases hstart
      · exact hnowhere y hy harrives
    have hnext : q.next s = q.walker.goOn q.agent rest [] :=
      Walker.step_skips htodo hflag
    rw [step_goOn hnone hnext]
    rfl

end Solo

end

namespace Solo

attribute [local instance] Arithmetic.binary64

/-- Through the goal in the second column and out of it again; the body of
    the second conditional is run. -/
def passing : Solo :=
  run { tenByTen with goal := some (.cell 1 0) } .yielding 40
    (.start [.ifGoalReached [.foreign .null], .move 2,
      .ifGoalReached [.turnRight 90]] (.atStart (.str "a") [0, 0] 90) true)

/-- A run through the goal: both steps and the turn say that it is
    reached. -/
theorem journey_latches_passing :
    passing.outcome.isSome = true
      ∧ passing.shown.map (·.snapshot.goalReached) = [true, true, true]
      ∧ ∃ record, KeepsLatch { tenByTen with goal := some (.cell 1 0) }
        .yielding false record passing := by
  have hdown : (Agent.atStart (.str "a") [0, 0] 90).goalReached
      = .bool false := rfl
  obtain ⟨⟨moved, record, hrecord⟩, hkeeps⟩ :=
    journey_latches (s := { tenByTen with goal := some (.cell 1 0) })
      (o := .yielding) (fun _ => rfl) nofun
      [.ifGoalReached [.foreign .null], .move 2,
        .ifGoalReached [.turnRight 90]] true hdown (.run 40)
  exact ⟨by decide +kernel, by decide +kernel, record, hkeeps _ _ hrecord⟩

/-- One step to the right, from a column of a grid with more columns than
    doubles can tell apart, or measure. -/
def farOut (columns start goal : Int) : Solo :=
  run ⟨{ Config.standard with gridColumns := .int columns },
      some (.cell (.int goal) 0), .int 100⟩ (.quiet .present) 20
    (.start [.move 1] (.atStart (.str "a") [.int start, 0] 90) true)

/-- Far out, a step into the goal is shown beside the goal, a step out of it
    is shown in the goal, and where no step can be shown at all the flag goes
    up unseen. -/
theorem journey_latches_vast :
    (∃ e, (farOut (10 ^ 17) (2 ^ 53) (2 ^ 53 + 1)).shown = [e]
        ∧ e.snapshot.goalReached = true
        ∧ ¬ e.snapshot.InGoal (some (.cell (.int (2 ^ 53 + 1)) 0)))
      ∧ (∃ e, (farOut (10 ^ 17) (2 ^ 53) (2 ^ 53)).shown = [e]
        ∧ e.snapshot.goalReached = false
        ∧ e.snapshot.InGoal (some (.cell (.int (2 ^ 53)) 0)))
      ∧ (farOut (10 ^ 400) (10 ^ 309) (10 ^ 309 + 1)).shown = []
      ∧ (farOut (10 ^ 400) (10 ^ 309) (10 ^ 309 + 1)).outcome.isSome = true
      ∧ (farOut (10 ^ 400) (10 ^ 309) (10 ^ 309 + 1)).agent.goalReached.holds
        = true := by
  -- the only snapshot of the first two runs
  have hone : ∀ goal : Int, (farOut (10 ^ 17) (2 ^ 53) goal).shown.map
      (·.snapshot.position) = [(.finite (2 ^ 53), .finite 0)] →
      ∃ e, (farOut (10 ^ 17) (2 ^ 53) goal).shown = [e]
        ∧ e.snapshot.position = (.finite (2 ^ 53), .finite 0) :=
    fun goal h => List.map_eq_singleton_iff.1 h
  obtain ⟨e, he, hpos⟩ := hone (2 ^ 53 + 1) (by decide +kernel)
  obtain ⟨e', he', hpos'⟩ := hone (2 ^ 53) (by decide +kernel)
  have hflag : (farOut (10 ^ 17) (2 ^ 53) (2 ^ 53 + 1)).shown.map
      (·.snapshot.goalReached) = [true] := by
    decide +kernel
  have hflag' : (farOut (10 ^ 17) (2 ^ 53) (2 ^ 53)).shown.map
      (·.snapshot.goalReached) = [false] := by
    decide +kernel
  rw [he] at hflag
  rw [he'] at hflag'
  refine ⟨⟨e, he, List.singleton_inj.1 hflag, ?_⟩,
    ⟨e', he', List.singleton_inj.1 hflag', ?_⟩,
    by decide +kernel, by decide +kernel, by decide +kernel⟩
  · rintro ⟨g, hg, hin⟩
    cases hg
    rw [hpos] at hin
    revert hin
    decide +kernel
  · refine ⟨_, rfl, ?_⟩
    rw [hpos']
    decide +kernel

end Solo

end BlockStage
