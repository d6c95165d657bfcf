import BlockStage.Proofs.Compile.Domain
import BlockStage.Proofs.Run.Presence
import BlockStage.Proofs.Stage.Canvas
import BlockStage.Proofs.Stage.Quarters

/-! # Progress — steps of sound runs go through

    A run is sound if its agent can be shown where it stands, the operands
    of all instructions left to do lie in their domains, and every other act
    left to do can be calculated (`Sound`).  On a stage whose settings leave
    room for what is calculated from them (`Scene.Roomy`) no step of a sound
    run fails (`Sound.unfailing`). -/

namespace BlockStage

open Instruction

/-- What is given of a stage: the size of the grid, the loop ceiling, and
    the numbers at which an agent may stand on the canvas. -/
structure Room where
  columns : Int
  rows : Int
  ceiling : Int
  across : List Num
  down : List Num

/-- A stage whose settings leave room for what runs calculate from them:
    cells and the canvas, the sleeps, the animations and the waits. -/
structure Scene.Roomy [Arithmetic] (s : Scene) (g : Room) : Prop where
  mode : s.config.mode = .grid ∨ s.config.mode = .canvas
  counted : s.config.Counted g.columns g.rows
  cells : ∀ n : Int, 0 ≤ n →
    n ≤ max 0 (g.columns - 1) ∨ n ≤ max 0 (g.rows - 1) →
      (Num.int n).Measurable
  loops : s.config.loopCeiling = .int g.ceiling
  guard : s.ceiling = .int g.ceiling
  positive : 1 ≤ g.ceiling
  drawable : s.config.mode = .canvas → s.config.Drawable g.across g.down
  turns : s.config.turnMs.InRange
  moves : s.config.moveMs.InRange
  pauses : ∀ ms, ms = s.config.stepMs ∨ ms = s.config.turnMs
      ∨ ms = s.config.sayMs →
    ∃ seconds, Walker.pauseSeconds ms = .ok seconds
  frames : ∃ seconds, s.config.frameMs.div 1000 = .ok seconds
  waits : ∀ m : Num, shortestWait.le m = true → m.le 10 = true →
    ∃ ms seconds, Walker.waitMs s.config (.num m) = .ok ms
      ∧ Walker.pauseSeconds ms = .ok seconds
  goal : ∀ g, s.goal = some g → g.isNumeric = true

/-! ## Sound runs -/

/-- Where an agent stands once it has been placed, and where it looks: on a
    cell at one of the four headings, or on the canvas at a heading within
    the range of doubles. -/
inductive Agent.Stands (s : Scene) (g : Room) (a : Agent) : Prop
  | onGrid : s.config.mode ≠ .canvas → a.OnCell g.columns g.rows →
      a.heading.IsCardinal → Agent.Stands s g a
  | onCanvas {p : Point} : s.config.mode = .canvas →
      a.position = p.position → p.Drawn g.across g.down →
      a.heading.InRange → Agent.Stands s g a

/-- Where an agent stands and looks before it has been placed. -/
inductive Agent.Starts [Arithmetic] (s : Scene) (g : Room) (a : Agent) : Prop
  | onGrid {u v : Num} : s.config.mode ≠ .canvas →
      a.position = [.num u, .num v] → a.heading.IsCardinal →
      Agent.Starts s g a
  | onCanvas {u v : Num} {q : Point} : s.config.mode = .canvas →
      a.position = [.num u, .num v] →
      insetPoint s.config (.num u, .num v) = .ok q →
      q.Drawn g.across g.down → a.heading.InRange → Agent.Starts s g a

/-- An act that can be calculated, its instructions aside. -/
def Act.Fits [Arithmetic] (s : Scene) (g : Room) : Act → Prop
  | place => False
  | stride _ => s.config.mode ≠ .canvas
  | pause ms => ∃ seconds, Walker.pauseSeconds ms = .ok seconds
  | glide start finish _ => s.config.mode = .canvas
      ∧ start.Drawn g.across g.down ∧ finish.Drawn g.across g.down
  | swing start finish _ => s.config.mode = .canvas ∧ start.Arc finish
  | _ => True

/-- Things left to do that can all be calculated. -/
def Act.FitsAll [Arithmetic] (s : Scene) (g : Room) (todo : List Act) :
    Prop :=
  ∀ act ∈ todo, act.Fits s g

/-- An agent that is about to be placed, or stands somewhere. -/
inductive Agent.Placed [Arithmetic] (s : Scene) (g : Room) (a : Agent) :
    List Act → Prop
  | starts {rest : List Act} : a.Starts s g → Act.FitsAll s g rest →
      Agent.Placed s g a (.place :: rest)
  | stands {todo : List Act} : a.Stands s g → Act.FitsAll s g todo →
      Agent.Placed s g a todo

/-- A run that cannot go wrong. -/
structure Sound [Arithmetic] (s : Scene) (g : Room) (a : Agent)
    (todo : List Act) : Prop where
  readable : a.Readable
  domain : Act.EveryOf (InDomain s.config.target g.ceiling) todo
  placed : a.Placed s g todo

open Act

variable [Arithmetic] {s : Scene} {g : Room} {now : Time} {a b : Agent}
  {todo next rest : List Act} {signal : Signal}

namespace Act

theorem fitsAll_cons {act : Act} :
    FitsAll s g (act :: rest) ↔ act.Fits s g ∧ FitsAll s g rest :=
  List.forall_mem_cons

/-- A body in front of what can be calculated. -/
theorem fitsAll_body (body : List Instruction) (h : FitsAll s g rest) :
    FitsAll s g (body.map perform ++ rest) := by
  intro act hact
  rcases List.mem_append.1 hact with hact | hact
  · obtain ⟨i, -, rfl⟩ := List.mem_map.1 hact
    trivial
  · exact h act hact

/-- What follows a frame can be calculated if the frame can. -/
theorem fitsAll_afterFrame {progress : Num} {again : Act}
    (ha : again.Fits s g) (h : FitsAll s g rest) :
    FitsAll s g (Walker.afterFrame progress again rest) := by
  unfold Walker.afterFrame
  split
  · exact h
  · exact fitsAll_cons.2 ⟨trivial, fitsAll_cons.2 ⟨ha, h⟩⟩

end Act

/-- Once it has been placed an agent stands somewhere, and all that is left
    to do can be calculated. -/
theorem Agent.Placed.goes (h : a.Placed s g todo)
    (hno : ∀ rest, todo ≠ .place :: rest) :
    a.Stands s g ∧ FitsAll s g todo := by
  cases h with
  | starts => exact absurd rfl (hno _)
  | stands hstands hfits => exact ⟨hstands, hfits⟩

namespace Agent.Stands

omit [Arithmetic] in
/-- Only its place and heading matter. -/
theorem congr (h : a.Stands s g) (hp : b.position = a.position)
    (hh : b.heading = a.heading) : b.Stands s g := by
  cases h with
  | onGrid hmode hcell hcardinal =>
      obtain ⟨p, hp', hpos⟩ := hcell
      exact .onGrid hmode ⟨p, hp', hp.trans hpos⟩ (hh ▸ hcardinal)
  | onCanvas hmode hpos hdrawn hrange =>
      exact .onCanvas hmode (hp.trans hpos) hdrawn (hh ▸ hrange)

omit [Arithmetic] in
/-- On the grid it stands on a cell and looks along the grid. -/
theorem cell (h : a.Stands s g) (hmode : s.config.mode ≠ .canvas) :
    a.OnCell g.columns g.rows ∧ a.heading.IsCardinal := by
  cases h with
  | onGrid _ hcell hcardinal => exact ⟨hcell, hcardinal⟩
  | onCanvas hcanvas => exact absurd hcanvas hmode

omit [Arithmetic] in
/-- On the canvas it stands at a point that can be drawn and looks wherever
    it likes. -/
theorem point (h : a.Stands s g) (hmode : s.config.mode = .canvas) :
    ∃ p : Point, a.position = p.position ∧ p.Drawn g.across g.down
      ∧ a.heading.InRange := by
  cases h with
  | onGrid hno => exact absurd hmode hno
  | onCanvas _ hpos hdrawn hrange => exact ⟨_, hpos, hdrawn, hrange⟩

/-- Numbers tell where an agent stands, and they can be measured. -/
theorem coordinates (hs : s.Roomy g) (h : a.Stands s g) :
    ∃ u v : Num, a.position = [.num u, .num v] ∧ u.Measurable
      ∧ v.Measurable := by
  cases h with
  | onGrid _ hcell =>
      obtain ⟨p, ⟨x, y, rfl, hx, hx', hy, hy'⟩, hpos⟩ := hcell
      exact ⟨.int x, .int y, hpos, hs.cells x hx (.inl hx'),
        hs.cells y hy (.inr hy')⟩
  | @onCanvas p hmode hpos hdrawn =>
      have hd := hs.drawable hmode
      obtain ⟨u, hu, hum⟩ := hdrawn.1.measurable hd.across
      obtain ⟨v, hv, hvm⟩ := hdrawn.2.measurable hd.down
      refine ⟨u, v, ?_, hum, hvm⟩
      rw [hpos, Point.position, hu, hv]

end Agent.Stands

/-- A number that can be measured is read as what it measures. -/
theorem Lenient.measure_measurable {n : Num} (h : n.Measurable) :
    ∃ z, Lenient.measure (.num n) = .ok z := by
  obtain ⟨z, hz⟩ := h
  cases n with
  | int i => exact ⟨z, Lenient.measure_int hz⟩
  | real x => exact ⟨x, rfl⟩

/-- A readable agent that stands somewhere can be shown. -/
theorem Agent.Stands.snapshot (hs : s.Roomy g) (h : a.Stands s g)
    (ha : a.Readable) : ∃ snapshot, Snapshot.ofAgent a = .ok snapshot := by
  obtain ⟨u, v, hpos, hu, hv⟩ := h.coordinates hs
  obtain ⟨x, hx⟩ := Lenient.measure_measurable hu
  obtain ⟨y, hy⟩ := Lenient.measure_measurable hv
  obtain ⟨name, hname⟩ := ha.name
  obtain ⟨heading, hheading⟩ := ha.heading
  obtain ⟨reached, hreached⟩ := ha.goal
  obtain ⟨message, hmessage⟩ : ∃ m, Lenient.text? a.message = .ok m := by
    rcases ha.message with hm | ⟨text, hm⟩
    · exact ⟨none, by rw [hm]; rfl⟩
    · exact ⟨some text, by rw [hm]; rfl⟩
  refine ⟨⟨name, (x, y), heading, message, reached⟩, Snapshot.ofAgent_ok.2
    ⟨hname, ⟨_, _, hpos, hx, hy⟩, hheading, hmessage, ?_⟩⟩
  rw [hreached]
  rfl

/-! ## Operands that can be used -/

section

variable [Arithmetic.Doubles]

/-- A number within the range of doubles is read as a measure. -/
theorem Value.InRange.read {v : Value} (h : v.InRange) :
    ∃ x, Lenient.measure v = .ok x := by
  obtain ⟨n, rfl, hn⟩ := h
  exact Lenient.measure_measurable hn.short.measurable

theorem Value.IsCardinal.read {v : Value} (h : v.IsCardinal) :
    ∃ x, Lenient.measure v = .ok x := by
  obtain ⟨n, rfl, hn⟩ := h.measurable
  exact Lenient.measure_measurable hn

/-- A count of a few digits is a finite number. -/
theorem Value.finiteNumber_short {n : Num} (h : n.Short) :
    (Value.num n).finiteNumber? = .ok (some n) := by
  obtain ⟨x, hx, hfin, -⟩ := h.measure
  have hfinite : n.isFinite = .ok true := by
    unfold Num.isFinite
    rw [hx]
    exact congrArg Except.ok hfin
  simp only [Value.finiteNumber?, hfinite]
  rfl

omit [Arithmetic] [Arithmetic.Doubles] in
/-- A wait in its domain lasts between no time and ten seconds. -/
theorem wait_between {m : Num} (hlow : shortestWait.le m = true)
    (hhigh : m.le 10 = true) :
    m.exact.isFinite = true ∧ 0 ≤ m.exact.value ∧ m.exact.value ≤ 10 := by
  have hfin : m.exact.isFinite = true := by
    cases m with
    | int i => rfl
    | real x =>
        cases x with
        | finite q => rfl
        | negZero => rfl
        | inf negative =>
            cases negative with
            | false => cases hhigh
            | true => exact absurd hlow (by decide +kernel)
        | nan => cases hhigh
  have hshortest : shortestWait.exact.isFinite = true
      ∧ 0 ≤ shortestWait.exact.value := by
    decide +kernel
  exact ⟨hfin, hshortest.2.trans ((Scalar.le_iff hshortest.1 hfin).1 hlow),
    (Scalar.le_iff (y := .finite 10) hfin rfl).1 hhigh⟩

omit [Arithmetic] [Arithmetic.Doubles] in
/-- A wait in its domain is a short number and not below zero. -/
theorem wait_short {m : Num} (hlow : shortestWait.le m = true)
    (hhigh : m.le 10 = true) : m.Short ∧ m.lt 0 = false := by
  obtain ⟨hfin, hpos, hten⟩ := wait_between hlow hhigh
  have hlarge := Binary64.lastHalf_large
  refine ⟨⟨hfin, ?_⟩, ?_⟩
  · rw [abs_of_nonneg hpos]
    unfold Binary64.bound
    linarith
  · refine Bool.eq_false_iff.2 fun hlt => ?_
    have := (Scalar.lt_iff (y := .finite 0) hfin rfl).1 hlt
    exact absurd hpos (not_le.2 this)

end

/-! ## Steps that go through -/

/-- A step that does not fail. -/
def Step.Unfailing (n : Step) : Prop := ∀ f, n.signal ≠ .fail f

namespace Walker

variable {w : Walker}

omit [Arithmetic] in
/-- A step does not fail if it has the result it needs and goes on without
    failing. -/
theorem unfailing_goOnWith {α : Type} {log : List LogLine}
    {result : Except RunFault α} {next : α → Step} {x : α}
    (hx : result = .ok x) (h : (next x).Unfailing) :
    (w.goOnWith a log result next).Unfailing := by
  unfold goOnWith
  rw [hx]
  exact h

omit [Arithmetic] in
theorem unfailing_goOn {log : List LogLine} :
    (w.goOn a todo log).Unfailing := nofun

omit [Arithmetic] in
theorem operate_eq {α : Type} {x : Except OperandFault α} {y : α}
    (h : x = .ok y) : operate x = .ok y := by
  rw [h]
  rfl

variable [Arithmetic.Doubles]

/-- Moves in their domain go through. -/
theorem unfailing_move (hs : s.Roomy g)
    (hstands : a.Stands s g) {d : Int} (hlow : 1 ≤ d) (hhigh : d ≤ 100) :
    (w.move s now a rest (.int d)).Unfailing := by
  have hshort : (Num.int d).Short := Num.short_few (by omega) (by omega)
  have hpositive : (Num.int d).le 0 = false := by
    refine Bool.eq_false_iff.2 fun hle => ?_
    have hle : (d : Rat) ≤ 0 :=
      (Scalar.le_iff (x := .finite d) (y := .finite 0) rfl rfl).1 hle
    have : d ≤ 0 := by exact_mod_cast hle
    omega
  unfold move
  refine unfailing_goOnWith (operate_eq (Value.finiteNumber_short hshort)) ?_
  dsimp only
  rw [if_neg (by rw [hpositive]; exact Bool.false_ne_true)]
  split
  · rename_i hmode
    obtain ⟨p, hpos, hdrawn, hrange⟩ := hstands.point hmode
    obtain ⟨q, hq, -⟩ :=
      (hs.drawable hmode).target hdrawn hrange hlow hhigh
    rw [hpos]
    refine unfailing_goOnWith
      (operate_eq (show Value.pairOf p.position = .ok p from rfl)) ?_
    exact unfailing_goOnWith (operate_eq hq) unfailing_goOn
  · refine unfailing_goOnWith
      (operate_eq (show (Value.int d).whole = .ok d from rfl)) ?_
    have hsame : (Num.int d).same (.int d) = true := by
      simp [Num.same, Num.exact, Scalar.same, Scalar.compare?]
    rw [if_pos hsame]
    exact unfailing_goOn

/-- Turns in their domain go through, in either direction. -/
theorem unfailing_turn (hstands : a.Stands s g) {d : Int}
    (hlow : -360 ≤ d) (hhigh : d ≤ 360)
    (hquarters : s.config.mode ≠ .canvas → ∃ k, d = 90 * k ∧ -4 ≤ k ∧ k ≤ 4) :
    (w.turn s now a rest (.int d)).Unfailing := by
  have hshort : (Num.int d).Short := Num.short_few hlow hhigh
  unfold turn
  refine unfailing_goOnWith (operate_eq (Value.finiteNumber_short hshort)) ?_
  dsimp only
  split
  · rename_i hmode
    obtain ⟨-, -, -, hrange⟩ := hstands.point hmode
    obtain ⟨finish, hfinish, -⟩ := hrange.arc (Num.abs_few hlow hhigh)
    exact unfailing_goOnWith (operate_eq hfinish) unfailing_goOn
  · rename_i hmode
    obtain ⟨-, hcardinal⟩ := hstands.cell hmode
    obtain ⟨k, rfl, hk, hk'⟩ := hquarters hmode
    obtain ⟨h, hh⟩ := gridTurn_ok hcardinal hk hk'
    exact unfailing_goOnWith hh unfailing_goOn

omit [Arithmetic.Doubles] in
/-- Waits that are not below zero go through, if their milliseconds can be
    calculated. -/
theorem unfailing_wait {v ms : Value} {m : Num}
    (hm : v.finiteNumber? = .ok (some m))
    (hpositive : m.lt 0 = false) (hms : waitMs s.config v = .ok ms) :
    (w.wait s a rest v).Unfailing := by
  unfold wait
  refine unfailing_goOnWith (operate_eq hm) ?_
  dsimp only
  rw [if_neg (by rw [hpositive]; exact Bool.false_ne_true)]
  exact unfailing_goOnWith (operate_eq hms) unfailing_goOn

omit [Arithmetic] [Arithmetic.Doubles] in
/-- Loops with counts go through. -/
theorem unfailing_loop {ceiling : Int} (hguard : s.ceiling = .int ceiling)
    {forever : Bool} {k : Int} {body : List Instruction} (hk : 0 ≤ k) :
    (w.loop s a rest forever (.int k) body).Unfailing := by
  unfold loop
  rw [hguard]
  have hgrant := grant_int ceiling k
  rw [if_neg (Int.not_lt.2 hk)] at hgrant
  split at hgrant
  · refine unfailing_goOnWith hgrant ?_
    dsimp only
    rw [if_pos rfl]
    exact unfailing_goOnWith (operate_eq rfl) unfailing_goOn
  · refine unfailing_goOnWith hgrant ?_
    dsimp only
    rw [if_neg Bool.false_ne_true]
    exact unfailing_goOnWith (operate_eq rfl) unfailing_goOn

/-- Every instruction in its domain goes through. -/
theorem unfailing_perform (hs : s.Roomy g)
    (hstands : a.Stands s g) {i : Instruction}
    (hi : InDomain s.config.target g.ceiling i) :
    (w.perform s now a rest i).Unfailing := by
  -- on the grid a turn is made of quarters
  have hturn : ∀ {d : Int}, (s.config.target.quarterTurns = true →
      d ∈ ([90, 180, 270, 360] : List Int)) → s.config.mode ≠ .canvas →
      ∃ k, d = 90 * k ∧ -4 ≤ k ∧ k ≤ 4 := by
    intro d hd hno
    have hgrid : s.config.target.quarterTurns = true := by
      show s.config.mode.isGrid = true
      rw [hs.mode.resolve_right hno]
      rfl
    have hmem := hd hgrid
    simp only [List.mem_cons, List.not_mem_nil, or_false] at hmem
    exact ⟨d / 90, by omega, by omega, by omega⟩
  cases i with
  | move v =>
      obtain ⟨d, rfl, hlow, hhigh⟩ := hi
      exact unfailing_move hs hstands hlow hhigh
  | turnRight v =>
      obtain ⟨d, rfl, hlow, hhigh, hd⟩ := hi
      exact unfailing_turn hstands (by omega) hhigh (hturn hd)
  | turnLeft v =>
      obtain ⟨d, rfl, hlow, hhigh, hd⟩ := hi
      show (w.goOnWith a [] (operate (Value.int d).neg) fun v =>
        w.turn s now a rest v).Unfailing
      refine unfailing_goOnWith
        (operate_eq (show (Value.int d).neg = .ok (.int (-d)) from rfl)) ?_
      refine unfailing_turn hstands (by omega) (by omega) fun hno => ?_
      obtain ⟨k, rfl, hk, hk'⟩ := hturn hd hno
      exact ⟨-k, by omega, by omega, by omega⟩
  | wait v =>
      obtain ⟨m, rfl, hlow, hhigh⟩ := hi
      obtain ⟨hshort, hpositive⟩ := wait_short hlow hhigh
      obtain ⟨ms, seconds, hms, -⟩ := hs.waits m hlow hhigh
      exact unfailing_wait (Value.finiteNumber_short hshort) hpositive hms
  | say v =>
      exact unfailing_goOn
  | repeatTimes v body =>
      obtain ⟨k, rfl, hlow, hhigh⟩ := hi
      exact unfailing_loop hs.guard (by omega)
  | repeatBounded v body =>
      have hv : v = .int g.ceiling := hi.trans hs.loops
      rw [hv]
      exact unfailing_loop hs.guard (by have := hs.positive; omega)
  | ifGoalReached body =>
      show (if a.goalReached.holds then
        w.goOn a (body.map .perform ++ rest)
          (detail a [] (.ok "at goal, running conditional body"))
        else w.goOn a rest []).Unfailing
      split
      · exact unfailing_goOn
      · exact unfailing_goOn
  | foreign v => exact hi.elim

omit [Arithmetic.Doubles] in
/-- Brought to a place of numbers an agent is shown next. -/
theorem unfailing_moveTo (hs : s.Roomy g) {u v : Num} :
    (w.moveTo s a (.num u, .num v) next).Unfailing := by
  obtain ⟨b, hb⟩ : ∃ b, Agent.latchGoal
      { a with position := Point.position (.num u, .num v) } s.goal = .ok b :=
    Agent.latchGoal_numbers hs.goal rfl rfl rfl
  unfold moveTo arrive
  dsimp only
  rw [operate_eq hb]
  exact unfailing_goOn

end Walker

/-! ## Sound steps -/

namespace Sound

/-- Setting out goes through. -/
theorem places (hs : s.Roomy g) (ha : a.Starts s g) :
    ∃ p, clampPosition s.config a.position = .ok p := by
  unfold clampPosition
  cases ha with
  | onGrid hmode hpos =>
      rw [hpos]
      split
      · exact absurd ‹_› hmode
      · exact clampToGrid_ok hs.counted _ _
  | onCanvas hmode hpos hq =>
      rw [hpos, hmode]
      exact ⟨_, hq⟩

variable [Arithmetic.Doubles] {w : Walker} {running : Bool}

/-- No step of a sound run fails. -/
theorem unfailing (hs : s.Roomy g) (h : Sound s g a w.todo) :
    (w.step s now running a).Unfailing := by
  obtain ⟨ha, hdomain, hplaced⟩ := h
  unfold Walker.step
  generalize w.todo = todo at hdomain hplaced
  cases hplaced with
  | starts hstarts =>
      obtain ⟨p, hp⟩ := places hs hstarts
      exact Walker.unfailing_goOnWith (Walker.operate_eq hp)
        Walker.unfailing_goOn
  | stands hstands hfits =>
      cases todo with
      | nil => exact nofun
      | cons act rest =>
          have hact : act.Fits s g := (fitsAll_cons.1 hfits).1
          cases act with
          | place => exact hact.elim
          | check =>
              dsimp only
              split
              · exact Walker.unfailing_goOn
              · exact nofun
          | perform i =>
              have hi : i.Every (InDomain s.config.target g.ceiling) :=
                (everyOf_cons.1 hdomain).1
              exact Walker.unfailing_perform hs hstands hi.head
          | pass left body => cases left <;> exact nofun
          | stride left =>
              cases left with
              | zero => exact nofun
              | succ left =>
                  obtain ⟨⟨p, ⟨x, y, rfl, -⟩, hpos⟩, hcardinal⟩ :=
                    hstands.cell hact
                  obtain ⟨q, hq⟩ := gridStep_ok hs.counted x y hcardinal
                  obtain ⟨i, j, rfl, -⟩ := gridStep_isCell hs.counted hq
                  dsimp only
                  rw [hpos]
                  exact Walker.unfailing_goOnWith hq
                    (Walker.unfailing_moveTo hs)
          | emit => exact nofun
          | pause ms =>
              obtain ⟨seconds, hseconds⟩ := hact
              exact Walker.unfailing_goOnWith (Walker.operate_eq hseconds)
                nofun
          | hush => exact nofun
          | glide start finish started =>
              obtain ⟨hmode, hstart, hfinish⟩ := hact
              have hd := hs.drawable hmode
              obtain ⟨x, hx⟩ := progressAt_ok hs.moves started now
              obtain ⟨u, hu⟩ := hstart.1.between hd.across hfinish.1 x
              obtain ⟨v, hv⟩ := hstart.2.between hd.down hfinish.2 x
              have hp : Walker.between start finish (.real x)
                  = .ok (.real u, .real v) := by
                unfold Walker.between
                rw [hu, hv]
                rfl
              refine Walker.unfailing_goOnWith (Walker.operate_eq hx) ?_
              exact Walker.unfailing_goOnWith (Walker.operate_eq hp)
                (Walker.unfailing_moveTo hs)
          | swing start finish started =>
              obtain ⟨x, hx⟩ := progressAt_ok hs.turns started now
              obtain ⟨v, hv, -⟩ := hact.2.turns x
              refine Walker.unfailing_goOnWith (Walker.operate_eq hx) ?_
              exact Walker.unfailing_goOnWith (Walker.operate_eq hv)
                Walker.unfailing_goOn
          | awaitFrame =>
              obtain ⟨seconds, hseconds⟩ := hs.frames
              exact Walker.unfailing_goOnWith (Walker.operate_eq hseconds)
                nofun

end Sound

end BlockStage
