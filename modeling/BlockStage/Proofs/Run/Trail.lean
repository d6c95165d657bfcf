import BlockStage.Proofs.Run.Journey
import BlockStage.Proofs.Run.Presence
import BlockStage.Proofs.Stage.Quarters

/-! # Trails — the cells a run has been shown on

    On the grid an agent stands on a cell from the moment it has been
    brought onto the playfield, wherever it was before, and looks in one of
    the four directions.  It moves by single steps, each to the cell ahead
    or nowhere, and every step is shown before the next: the cells of the
    snapshots form a trail.  Snapshots hold doubles, which are the cells
    themselves up to 53 bits and the doubles nearest to them beyond. -/

namespace BlockStage

/-! ## Cells -/

/-- A column and a row. -/
abbrev Cell := Int × Int

namespace Cell

/-- A cell of a grid. -/
def InGrid (columns rows : Int) (c : Cell) : Prop :=
  0 ≤ c.1 ∧ c.1 ≤ max 0 (columns - 1) ∧ 0 ≤ c.2 ∧ c.2 ≤ max 0 (rows - 1)

/-- The place of a cell. -/
def position (c : Cell) : Position := [.int c.1, .int c.2]

/-- The same cell, or the one ahead. -/
def Next (heading : Num) (c d : Cell) : Prop :=
  d = c ∨ ∃ v, stepVector? heading = some v ∧ d = (c.1 + v.1, c.2 + v.2)

end Cell

/-- One of the four directions. -/
theorem stepVector?_cases {n : Num} {v : Int × Int}
    (h : stepVector? n = some v) :
    v = (0, 1) ∨ v = (1, 0) ∨ v = (0, -1) ∨ v = (-1, 0) := by
  unfold stepVector? at h
  split at h
  · exact .inl (Option.some.inj h).symm
  · split at h
    · exact .inr (.inl (Option.some.inj h).symm)
    · split at h
      · exact .inr (.inr (.inl (Option.some.inj h).symm))
      · split at h
        · exact .inr (.inr (.inr (Option.some.inj h).symm))
        · cases h

section

variable [Arithmetic] {c : Config} {columns rows : Int}

/-- The neighbour of a cell, stopped at the edge. -/
theorem neighbour_cell (hc : c.Counted columns rows) (x y dCol dRow : Int) :
    neighbour c (Cell.position (x, y)) dCol dRow
      = .ok (.int (max 0 (min (columns - 1) (x + dCol))),
        .int (max 0 (min (rows - 1) (y + dRow)))) :=
  neighbour_int hc x y dCol dRow

/-- A step from a cell leads to the cell ahead, or stays at the edge. -/
theorem gridStep_next (hc : c.Counted columns rows) {cell : Cell}
    (hcell : cell.InGrid columns rows) {n : Num} {p : Point}
    (h : gridStep c cell.position (.num n) = .ok p) :
    ∃ next : Cell, p = (.int next.1, .int next.2)
      ∧ next.InGrid columns rows ∧ cell.Next n next := by
  obtain ⟨x, y⟩ := cell
  obtain ⟨key, hkey, h⟩ := bind_ok h
  cases hkey
  split at h
  · cases h
  · rename_i dCol dRow hvector
    have hvector : stepVector? n = some (dCol, dRow) := hvector
    rw [neighbour_cell hc] at h
    cases h
    obtain ⟨hx, hx', hy, hy'⟩ := hcell
    dsimp only at hx hx' hy hy'
    refine ⟨(max 0 (min (columns - 1) (x + dCol)),
      max 0 (min (rows - 1) (y + dRow))), rfl, ?_, ?_⟩
    · unfold Cell.InGrid
      dsimp only
      omega
    · -- the row or the column stays, and the other one moves or is at its end
      have hstays : (max 0 (min (columns - 1) (x + dCol)),
          max 0 (min (rows - 1) (y + dRow))) = (x, y)
        ∨ (max 0 (min (columns - 1) (x + dCol)),
          max 0 (min (rows - 1) (y + dRow))) = (x + dCol, y + dRow) := by
        simp only [Prod.mk.injEq]
        rcases stepVector?_cases hvector with hv | hv | hv | hv <;>
          cases hv <;> omega
      exact hstays.imp id fun heq => ⟨_, hvector, heq⟩

/-- Every place of numbers is brought onto a cell. -/
theorem clampPosition_cell (hmode : c.mode ≠ .canvas)
    (hc : c.Counted columns rows) (u v : Num) :
    ∃ cell : Cell, clampPosition c [.num u, .num v]
        = .ok (.int cell.1, .int cell.2)
      ∧ cell.InGrid columns rows := by
  obtain ⟨p, hp⟩ := clampToGrid_ok hc u v
  obtain ⟨x, y, rfl, hx, hx', hy, hy'⟩ := clampToGrid_isCell hc hp
  refine ⟨(x, y), ?_, hx, hx', hy, hy'⟩
  unfold clampPosition
  split
  · exact absurd ‹_› hmode
  · exact hp

end

/-! ## Trails -/

/-- A snapshot of a cell that was entered along its heading, or not left. -/
structure Snapshot.Enters (view : Int → Scalar) (c d : Cell) (e : Snapshot) :
    Prop where
  column : e.position.1 = view d.1
  row : e.position.2 = view d.2
  heading : (stepVector? (.real e.heading)).isSome = true
  next : c.Next (.real e.heading) d

/-- From a first cell to a last one through snapshots of cells of a grid, the
    latest snapshot first. -/
inductive Trail (view : Int → Scalar) (columns rows : Int) (start : Cell) :
    List Event → Cell → Prop
  | starts : Trail view columns rows start [] start
  | enters {shown : List Event} {c d : Cell} {e : Event} :
      Trail view columns rows start shown c → d.InGrid columns rows →
      e.snapshot.Enters view c d →
      Trail view columns rows start (e :: shown) d

/-- The doubles nearest to the indices of a small grid are the indices. -/
theorem Binary64.nearest_index {size n : Int} (hsize : size ≤ 2 ^ 53 + 1)
    (hlow : 0 ≤ n) (hhigh : n ≤ max 0 (size - 1)) : nearest n = .finite n := by
  refine nearest_whole ?_
  rw [abs_of_nonneg hlow]
  omega

/-- Up to 53 bits the doubles nearest to the cells are the cells. -/
theorem Trail.exact {columns rows : Int} {start c : Cell}
    {shown : List Event} (hcolumns : columns ≤ 2 ^ 53 + 1)
    (hrows : rows ≤ 2 ^ 53 + 1)
    (h : Trail (fun n => Binary64.nearest n) columns rows start shown c) :
    Trail (fun n => .finite n) columns rows start shown c := by
  induction h with
  | starts => exact .starts
  | enters _ hd he ih =>
      obtain ⟨hx, hx', hy, hy'⟩ := hd
      exact .enters ih ⟨hx, hx', hy, hy'⟩
        ⟨he.column.trans (Binary64.nearest_index hcolumns hx hx'),
          he.row.trans (Binary64.nearest_index hrows hy hy'), he.heading,
          he.next⟩

section

variable [Arithmetic] {s : Scene} {now : Time} {a b : Agent}
  {todo next : List Act} {signal : Signal} {columns rows : Int}

/-- A count is read as what it is rounded to. -/
theorem Lenient.measure_int_eq {n : Int} {z : Scalar}
    (h : Lenient.measure (.int n) = .ok z) : z = Arithmetic.round n := by
  have h : ((Num.int n).measure.mapError fun _ => Flaw.notAMeasure)
      = .ok z := h
  unfold Num.measure at h
  dsimp only at h
  split at h
  · cases h
  · cases h
    rfl

/-- One of the four headings is read as one that leads the same way. -/
theorem Value.IsCardinal.shown
    (hround : ∀ q : Rat, Arithmetic.round q = Binary64.nearest q) {n : Num}
    (hn : (stepVector? n).isSome = true) {z : Scalar}
    (h : Lenient.measure (.num n) = .ok z) :
    stepVector? (.real z) = stepVector? n := by
  cases n with
  | real x =>
      cases h
      rfl
  | int i =>
      obtain ⟨k, hk, hk', hsame⟩ := isCardinal_cases hn
      have hi : (i : Rat) = ((90 * k : Int) : Rat) :=
        (Scalar.same_finite hsame).2
      obtain rfl : i = 90 * k := by exact_mod_cast hi
      rw [Lenient.measure_int_eq h, hround,
        nearest_quarters (by omega) (by omega)]
      rfl

/-- On the grid an advance leaves the agent on its cell, or takes it one
    step on, which is to be shown next. -/
theorem Advance.walks (h : Advance s now a todo b next signal)
    (hfit : Act.Fit s.config todo) :
    b.position = a.position
        ∧ (b.heading = a.heading
          ∨ ∃ k, isCardinal k = true ∧ b.heading = .int k)
      ∨ b.heading = a.heading ∧ ∃ p rest,
        gridStep s.config a.position a.heading = .ok p
          ∧ b.position = p.position ∧ next = .emit :: rest := by
  cases h with
  | place => exact absurd rfl (hfit.unplaced _)
  | quarters _ _ hturn =>
      exact .inl ⟨rfl, .inr ⟨_, gridTurn_isCardinal hturn, rfl⟩⟩
  | nextStride hstep hb =>
      obtain ⟨g, rfl⟩ := Agent.latchGoal_ok hb
      exact .inr ⟨rfl, _, _, hstep, rfl, rfl⟩
  | glides => cases hfit.unframed
  | swings => cases hfit.unframed
  | _ => exact .inl ⟨rfl, .inl rfl⟩

/-- On the grid a step that fails leaves the agent on its cell, or takes it
    one step on. -/
theorem Falters.walks (h : Falters s now a todo b)
    (hfit : Act.Fit s.config todo) :
    b.heading = a.heading ∧ (b.position = a.position
      ∨ ∃ p, gridStep s.config a.position a.heading = .ok p
        ∧ b.position = p.position) := by
  cases h with
  | stays => exact ⟨rfl, .inl rfl⟩
  | strides hp => exact ⟨rfl, .inr ⟨_, hp, rfl⟩⟩
  | glides => cases hfit.unframed

/-! ## Runs -/

namespace Solo

variable {o : Observer} {r q : Solo} {start : Cell}

/-- What a run on the grid keeps once its agent stands on a cell: if
    anybody looks, the agent is where its trail ends, or one step on with a
    snapshot due. -/
structure Tracked (s : Scene) (o : Observer) (columns rows : Int)
    (start : Cell) (r : Solo) : Prop where
  fit : Act.Fit s.config r.walker.todo
  heading : r.agent.heading.IsCardinal
  trail : ∃ c last : Cell, r.agent.position = c.position
    ∧ c.InGrid columns rows
    ∧ Trail (fun n => Binary64.nearest n) columns rows start r.shown last
    ∧ (o.mode ≠ .absent → r.outcome = none →
      (Act.Settled r.walker.todo → c = last)
        ∧ ∀ n, r.agent.heading = .num n → last.Next n c)

/-- A snapshot of an agent on a cell continues its trail. -/
theorem trail_shown
    (hround : ∀ q : Rat, Arithmetic.round q = Binary64.nearest q)
    {c last : Cell} {shown : List Event} {snapshot : Snapshot} {time : Time}
    (ha : a.heading.IsCardinal) (hpos : a.position = c.position)
    (hc : c.InGrid columns rows) (hnext : ∀ n, a.heading = .num n →
      last.Next n c)
    (h : Trail (fun n => Binary64.nearest n) columns rows start shown last)
    (hsnap : Snapshot.ofAgent a = .ok snapshot) :
    Trail (fun n => Binary64.nearest n) columns rows start
      (⟨time, snapshot⟩ :: shown) c := by
  obtain ⟨-, ⟨u, v, huv, hu, hv⟩, hheading, -⟩ := Snapshot.ofAgent_ok.1 hsnap
  obtain ⟨n, hn, hvector⟩ := ha
  rw [hpos] at huv
  cases huv
  rw [hn] at hheading
  have hsame := Value.IsCardinal.shown hround hvector hheading
  refine .enters h hc ⟨?_, ?_, ?_, ?_⟩
  · rw [Lenient.measure_int_eq hu, hround]
  · rw [Lenient.measure_int_eq hv, hround]
  · show (stepVector? (.real snapshot.heading)).isSome = true
    rw [hsame]
    exact hvector
  · refine (hnext n hn).imp id ?_
    rintro ⟨v, hv, heq⟩
    exact ⟨v, hsame.trans hv, heq⟩

/-- A step that ends the run leaves the agent on its trail if it leaves it
    on a cell. -/
theorem Tracked.ends (h : Tracked s o columns rows start r)
    (hnone : r.outcome = none)
    (htodo : (r.next s).walker.todo = r.walker.todo)
    (hheading : (r.next s).agent.heading = r.agent.heading)
    (hcell : ∃ d : Cell, (r.next s).agent.position = d.position
      ∧ d.InGrid columns rows)
    {e : Outcome} (hverdict : r.nextVerdict s o = ⟨some e, [], r.running⟩) :
    Tracked s o columns rows start (r.step s o) := by
  obtain ⟨hagent, hwalker, hshown, -, houtcome⟩ :=
    step_spec (s := s) (o := o) hnone
  obtain ⟨d, hd, hgrid⟩ := hcell
  obtain ⟨-, last, -, -, htrail, -⟩ := h.trail
  rw [hverdict] at hshown houtcome
  refine ⟨by rw [hwalker, htodo]; exact h.fit,
    by rw [hagent, hheading]; exact h.heading, d, last,
    by rw [hagent, hd], hgrid, by rw [hshown]; exact htrail, ?_⟩
  intro _ hgoes
  rw [houtcome] at hgoes
  cases hgoes

/-- A snapshot that is due leaves the agent on its trail, whatever comes of
    it. -/
theorem Tracked.emits
    (hround : ∀ q : Rat, Arithmetic.round q = Binary64.nearest q)
    (h : Tracked s o columns rows start r) (hnone : r.outcome = none)
    (hfit : Act.Fit s.config (r.step s o).walker.todo)
    (hemit : (r.next s).signal = .emit)
    (hsame : (r.next s).agent = r.agent) :
    Tracked s o columns rows start (r.step s o) := by
  obtain ⟨hagent, -, hshown, -, houtcome⟩ :=
    step_spec (s := s) (o := o) hnone
  obtain ⟨-, hheading, c, last, hpos, hcell, htrail, hdue⟩ := h
  rw [hsame] at hagent
  have hlook : (r.step s o).agent.heading.IsCardinal := hagent ▸ hheading
  unfold nextVerdict at hshown houtcome
  rw [hemit, hsame] at hshown houtcome
  rcases verdict_emit o r.shown.length r.now r.agent r.running with
    ⟨habsent, heq⟩ | ⟨-, ms, -, heq⟩ | ⟨hpresent, snapshot, hsnap, heq⟩
  · -- nobody looks
    rw [heq] at hshown
    exact ⟨hfit, hlook, c, last, hagent ▸ hpos, hcell,
      by rw [hshown]; exact htrail, fun hno => absurd habsent hno⟩
  · -- the agent cannot be shown, which ends the run
    rw [heq] at hshown houtcome
    refine ⟨hfit, hlook, c, last, hagent ▸ hpos, hcell,
      by rw [hshown]; exact htrail, fun _ hgoes => ?_⟩
    rw [houtcome] at hgoes
    cases hgoes
  · rw [heq] at hshown
    refine ⟨hfit, hlook, c, c, hagent ▸ hpos, hcell, ?_,
      fun _ _ => ⟨fun _ => rfl, fun _ _ => .inl rfl⟩⟩
    rw [hshown]
    exact trail_shown hround hheading hpos hcell
      (hdue hpresent hnone).2 htrail hsnap

/-- An advance that shows nothing leaves the agent on its trail: it stays on
    its cell, or goes one step on and has that to show. -/
theorem Tracked.goes (hc : s.config.Counted columns rows)
    (h : Tracked s o columns rows start r) (hnone : r.outcome = none)
    (hfit : Act.Fit s.config (r.step s o).walker.todo)
    (hquiet : (r.next s).signal ≠ .emit)
    (hadv : Advance s r.now r.agent r.walker.todo (r.next s).agent
      (r.next s).walker.todo (r.next s).signal) :
    Tracked s o columns rows start (r.step s o) := by
  obtain ⟨hagent, hwalker, hshown, -, -⟩ := step_spec (s := s) (o := o) hnone
  obtain ⟨hfit₀, ⟨n, hn, hvector⟩, c, last, hpos, hcell, htrail, hdue⟩ := h
  have hverdict : r.nextVerdict s o = ⟨none, [], r.running⟩ :=
    hadv.unshown hquiet
  rw [hverdict] at hshown
  have htrail' : Trail (fun n => Binary64.nearest n) columns rows start
      (r.step s o).shown last := by
    rw [hshown]
    exact htrail
  have hset : Act.Settled r.walker.todo := fun rest htodo =>
    hquiet ((htodo ▸ hadv).emits)
  rcases hadv.walks hfit₀ with ⟨hplace, hlook⟩ |
    ⟨hlook, p, rest, hp, hplace, hnext⟩
  · -- it stays on its cell, where its trail ends
    refine ⟨hfit, ?_, c, last, ?_, hcell, htrail', ?_⟩
    · rw [hagent]
      rcases hlook with hsame | ⟨k, hk, hturned⟩
      · rw [hsame]
        exact ⟨n, hn, hvector⟩
      · rw [hturned]
        exact Value.isCardinal_int hk
    · rw [hagent, hplace, hpos]
    · intro hpresent _
      have hhere := (hdue hpresent hnone).1 hset
      exact ⟨fun _ => hhere, fun _ _ => .inl hhere⟩
  · -- it enters the next cell, and a snapshot of it there is due
    rw [hpos, hn] at hp
    obtain ⟨d, rfl, hd, hahead⟩ := gridStep_next hc hcell hp
    refine ⟨hfit, ?_, d, last, ?_, hd, htrail', ?_⟩
    · rw [hagent, hlook]
      exact ⟨n, hn, hvector⟩
    · rw [hagent, hplace]
      rfl
    · intro hpresent _
      have hhere := (hdue hpresent hnone).1 hset
      refine ⟨fun hsettled => ?_, fun m hm => ?_⟩
      · rw [hwalker] at hsettled
        exact absurd hnext (hsettled rest)
      · rw [hagent, hlook, hn] at hm
        cases hm
        exact hhere ▸ hahead

/-- A step keeps an agent on its trail, however it ends. -/
theorem Tracked.step
    (hround : ∀ q : Rat, Arithmetic.round q = Binary64.nearest q)
    (hmode : s.config.mode ≠ .canvas) (hc : s.config.Counted columns rows)
    (h : Tracked s o columns rows start r) (hnone : r.outcome = none) :
    Tracked s o columns rows start (r.step s o) := by
  obtain ⟨c, -, hpos, hcell, -⟩ := h.trail
  cases next_cases s o r with
  | finishes _ hagent htodo hverdict =>
      exact h.ends hnone htodo (congrArg Agent.heading hagent)
        ⟨c, (congrArg Agent.position hagent).trans hpos, hcell⟩ hverdict
  | halts _ _ hagent htodo hverdict =>
      exact h.ends hnone htodo (congrArg Agent.heading hagent)
        ⟨c, (congrArg Agent.position hagent).trans hpos, hcell⟩ hverdict
  | fails _ htodo hfalters hverdict =>
      obtain ⟨hheading, hplace⟩ := hfalters.walks h.fit
      refine h.ends hnone htodo hheading ?_ hverdict
      rcases hplace with hsame | ⟨p, hp, hplace⟩
      · exact ⟨c, hsame.trans hpos, hcell⟩
      · -- it was moved a cell on before it failed
        obtain ⟨n, hn, -⟩ := h.heading
        rw [hpos, hn] at hp
        obtain ⟨d, rfl, hd, -⟩ := gridStep_next hc hcell hp
        exact ⟨d, hplace, hd⟩
  | advances hadv =>
      obtain ⟨-, hwalker, -⟩ := step_spec (s := s) (o := o) hnone
      have hfit : Act.Fit s.config (r.step s o).walker.todo := by
        rw [hwalker]
        exact (hadv.fit hmode (.inl h.fit)).1
      by_cases hemit : (r.next s).signal = .emit
      · exact h.emits hround hnone hfit hemit (hadv.showing hemit).2
      · exact h.goes hc hnone hfit hemit hadv

/-- A journey keeps an agent on its trail. -/
theorem Tracked.journey
    (hround : ∀ q : Rat, Arithmetic.round q = Binary64.nearest q)
    (hmode : s.config.mode ≠ .canvas) (hc : s.config.Counted columns rows)
    (h : Tracked s o columns rows start r) (hq : Journey s o r q) :
    Tracked s o columns rows start q := by
  induction hq with
  | starts => exact h
  | acts _ hnone ih => exact ih.step hround hmode hc hnone
  | flagged _ _ ih => exact ⟨ih.fit, ih.heading, ih.trail⟩
  | later _ _ ih => exact ⟨ih.fit, ih.heading, ih.trail⟩

/-- A run on the grid keeps to its cells.  From wherever it is, a place of
    numbers is brought onto a cell; if the agent looks along one of the four
    headings there, then throughout its run and however that ends it stands
    on a cell and looks along one of the four, and the snapshots form a trail
    that begins where it was brought to. -/
theorem journey_keeps_cells
    (hround : ∀ q : Rat, Arithmetic.round q = Binary64.nearest q)
    (hmode : s.config.mode ≠ .canvas) (hc : s.config.Counted columns rows)
    (o : Observer) (p : Program) (running : Bool) {a : Agent} {u v : Num}
    (hpos : a.position = [.num u, .num v])
    (hheading : a.heading.IsCardinal) :
    ∃ start : Cell, start.InGrid columns rows
      ∧ ((Solo.start p a running).step s o).agent
        = { a with position := start.position }
      ∧ ∀ q, Journey s o ((Solo.start p a running).step s o) q →
        (∃ c : Cell, c.InGrid columns rows ∧ q.agent.position = c.position)
          ∧ q.agent.heading.IsCardinal
          ∧ (∃ last, Trail (fun n => Binary64.nearest n) columns rows start
            q.shown last)
          ∧ (columns ≤ 2 ^ 53 + 1 → rows ≤ 2 ^ 53 + 1 →
            ∃ last, Trail (fun n => .finite n) columns rows start q.shown
              last) := by
  obtain ⟨start, hplaced, hstart⟩ := clampPosition_cell hmode hc u v
  rw [← hpos] at hplaced
  obtain ⟨hagent, htodo, hshown, hnone⟩ :=
    start_placed (s := s) (o := o) (p := p) running hplaced
  have hbegins : Tracked s o columns rows start
      ((Solo.start p a running).step s o) := by
    refine ⟨?_, by rw [hagent]; exact hheading, start, start,
      by rw [hagent]; rfl, hstart, ?_, fun _ _ => ⟨fun _ => rfl,
        fun _ _ => .inl rfl⟩⟩
    · obtain ⟨rest, hsteady, hrest⟩ := Walker.start_fresh p
      cases hrest
      rw [htodo]
      exact .poised (.check hsteady)
    · rw [hshown]
      exact .starts
  refine ⟨start, hstart, hagent, fun q hq => ?_⟩
  obtain ⟨-, hlook, c, last, hcpos, hc', htrail, -⟩ :=
    hbegins.journey hround hmode hc hq
  exact ⟨⟨c, hc', hcpos⟩, hlook, ⟨last, htrail⟩,
    fun hcolumns hrows => ⟨last, htrail.exact hcolumns hrows⟩⟩

end Solo

end

namespace Solo

attribute [local instance] Arithmetic.binary64

/-- The standard grid of ten columns and ten rows. -/
def tenByTen : Scene := ⟨.standard, none, .int 100⟩

/-- Into the corner and back, and then something that cannot be done. -/
def cornering : Program :=
  [.move 3, .turnRight 90, .repeatTimes 2 [.move 2], .turnLeft (.int (-180)),
    .move 1, .say (.str "back"), .foreign .null]

/-- From outside the grid, at the end of the run. -/
def cornered : Solo :=
  run tenByTen (.quiet .present) 60 ((Solo.start cornering
    (.atStart (.str "a") [.real (.finite (17 / 2)), .real (.inf false)] 90)
      true).step tenByTen (.quiet .present))

/-- An agent is brought to the edge of the grid, is stopped in the corner,
    comes back and fails, with a snapshot for every step and turn. -/
theorem journey_keeps_cells_corner :
    cornered.outcome.isSome = true ∧ cornered.shown.length = 12
      ∧ ∃ start last : Cell, start.InGrid 10 10
        ∧ Trail (fun n => .finite n) 10 10 start cornered.shown last := by
  obtain ⟨start, hstart, -, hkeeps⟩ :=
    journey_keeps_cells (s := tenByTen) (fun _ => rfl) nofun ⟨rfl, rfl⟩
      (.quiet .present) cornering true
      (a := .atStart (.str "a") [.real (.finite (17 / 2)), .real (.inf false)]
        90) rfl (Value.isCardinal_int rfl)
  obtain ⟨-, -, -, hexact⟩ := hkeeps _ (.run 60)
  obtain ⟨last, hlast⟩ := hexact (by decide) (by decide)
  exact ⟨by decide +kernel, by decide +kernel, start, last, hstart, hlast⟩

/-- A grid with more columns than doubles can tell apart. -/
def vastGrid : Scene :=
  ⟨{ Config.standard with gridColumns := .int (10 ^ 17) }, none, .int 100⟩

/-- One step to the right, far out on it. -/
def faraway : Solo :=
  run vastGrid (.quiet .present) 20 ((Solo.start [.move 1]
    (.atStart (.str "a") [.int (2 ^ 53 + 2), .int 0] 90) true).step vastGrid
      (.quiet .present))

/-- The step is shown two cells away from where the agent was brought to. -/
theorem journey_keeps_cells_vast :
    clampPosition vastGrid.config [.int (2 ^ 53 + 2), .int 0]
        = .ok (.int (2 ^ 53 + 2), .int 0)
      ∧ faraway.shown.map (·.snapshot.position)
        = [(.finite (2 ^ 53 + 4), .finite 0)]
      ∧ ¬ ∃ last, Trail (fun n => .finite n) (10 ^ 17) 10 (2 ^ 53 + 2, 0)
        faraway.shown last := by
  have hshown : faraway.shown.map (·.snapshot.position)
      = [(.finite (2 ^ 53 + 4), .finite 0)] := by
    decide +kernel
  refine ⟨?_, hshown, ?_⟩
  · show clampToGrid vastGrid.config _ = _
    unfold clampToGrid
    rw [show vastGrid.config.gridColumns.sub 1
        = .ok (.int (10 ^ 17 - 1)) from rfl,
      show vastGrid.config.gridRows.sub 1 = .ok (.int 9) from rfl]
    simp only [Value.pairOf, bind, Except.bind, pure, Except.pure,
      cellIndex_int]
    rfl
  · rintro ⟨last, htrail⟩
    obtain ⟨e, he⟩ := List.map_eq_singleton_iff.1 hshown
    rw [he.1] at htrail
    cases htrail with
    | enters hstart _ henters =>
        cases hstart
        have hcolumn : (last.1 : Rat) = 2 ^ 53 + 4 := by
          have heq := henters.column
          rw [he.2] at heq
          exact (Scalar.finite.inj heq).symm
        have hcolumn : last.1 = 2 ^ 53 + 4 := by exact_mod_cast hcolumn
        -- no neighbour is two columns away
        rcases henters.next with rfl | ⟨v, hv, rfl⟩
        · exact absurd hcolumn (by decide)
        · rcases stepVector?_cases hv with rfl | rfl | rfl | rfl <;>
            exact absurd hcolumn (by decide)

end Solo

end BlockStage
