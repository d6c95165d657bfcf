import BlockStage.Proofs.Run.Trail
import BlockStage.Proofs.Run.Unrolled
import BlockStage.Proofs.Stage.Exact
import Mathlib.Data.Int.ModEq

/-! # Turning — what the turns of a program add up to

    On the grid a turn adds its angle to the heading and keeps the whole
    part of the sum, round at 360.  From the first turn on the heading is
    one of the four, so later turns only add up; the first one meets the
    heading as the host gave it.  Where nothing is rounded, a heading that
    is no whole number loses its fraction in that turn, and is refused
    unless what is left happens to be quarter turns
    (`Solo.turns_add_up`). -/

namespace BlockStage

/-! ## Headings that are given as they are -/

/-- The whole part of a number is that of its ratio. -/
theorem Num.Denotes.whole {n : Num} {q : Rat} (hn : n.Denotes q) :
    n.whole = .ok (wholePart q) := by
  cases n with
  | int i =>
      rw [← hn.2]
      exact congrArg Except.ok (wholePart_int i).symm
  | real x =>
      obtain ⟨hfin, rfl⟩ := hn
      rcases Scalar.isFinite_iff.1 hfin with ⟨q, heq⟩ | heq
      · have heq : x = .finite q := heq
        rw [heq]
        rfl
      · have heq : x = .negZero := heq
        rw [heq]
        rfl

/-- Whole degrees are quarter turns if 90 divides them. -/
theorem Value.Denotes.isQuarterTurns {v : Value} {i : Int} (hv : v.Denotes i) :
    isQuarterTurns v = decide ((90 : Int) ∣ i) := by
  obtain ⟨n, rfl, hn⟩ := hv
  rw [Bool.eq_iff_iff, decide_eq_true_iff, Int.dvd_iff_emod_eq_zero]
  cases n with
  | int j =>
      have hvalue : (j : Rat) = i := hn.2
      obtain rfl : j = i := by exact_mod_cast hvalue
      exact decide_eq_true_iff
  | real x =>
      obtain ⟨hfin, hvalue⟩ := hn
      rcases Scalar.isFinite_iff.1 hfin with ⟨q, heq⟩ | heq
      · have heq : x = .finite q := heq
        subst heq
        obtain rfl : q = i := hvalue
        show decide ((i : Rat).den = 1 ∧ (i : Rat).num % ((90 : Nat) : Int) = 0)
          = true ↔ _
        rw [decide_eq_true_iff, Rat.num_intCast, Rat.den_intCast]
        exact and_iff_right rfl
      · have heq : x = .negZero := heq
        subst heq
        have hvalue : (0 : Rat) = i := hvalue
        obtain rfl : i = 0 := by exact_mod_cast hvalue.symm
        exact iff_of_true rfl rfl

/-- A broken number is no quarter turn. -/
theorem not_quarters {h : Rat} (hden : h.den ≠ 1) (j : Int) :
    h ≠ (90 * j : Int) := by
  rintro rfl
  exact hden (Rat.den_intCast _)

section

variable [Arithmetic] [Arithmetic.Exact]

theorem Value.Denotes.isFinite {v : Value} {q : Rat} (hv : v.Denotes q) :
    v.isFinite = .ok true := by
  obtain ⟨n, rfl, hn⟩ := hv
  obtain ⟨x, hx, hfin, -⟩ := hn.measure
  show Value.calculate (n.measure.map Scalar.isFinite) = _
  rw [hx, ← hfin]
  rfl

omit [Arithmetic.Exact] in
/-- A turn by whole degrees, by what the sum with the heading stands for. -/
theorem gridTurn_denotes {heading degrees sum : Value} {n : Int} {q : Rat}
    (hfinite : degrees.isFinite = .ok true) (hn : degrees.Denotes n)
    (hsum : heading.add degrees = .ok sum) (hq : sum.Denotes q) :
    gridTurn heading degrees
      = if (90 : Int) ∣ n then
          if (90 : Int) ∣ wholePart q then .ok (wholePart q % 360)
          else .error (.badHeading (.int (wholePart q % 360)))
        else .error (.about .notQuarterTurns degrees) := by
  obtain ⟨m, rfl, hm⟩ := hq
  have hwhole : (Value.num m).whole = .ok (wholePart q) := by
    show Value.calculate m.whole = _
    rw [hm.whole]
    rfl
  rw [gridTurn_eq hfinite hsum hwhole, hn.isQuarterTurns]
  simp only [decide_eq_true_iff, isCardinal_round]

/-- A turn by whole degrees where nothing is rounded. -/
theorem gridTurn_exact {heading degrees : Value} {h : Rat} {n : Int}
    (hh : heading.Denotes h) (hn : degrees.Denotes n) :
    gridTurn heading degrees
      = if (90 : Int) ∣ n then
          if (90 : Int) ∣ wholePart (h + n) then
            .ok (wholePart (h + n) % 360)
          else .error (.badHeading (.int (wholePart (h + n) % 360)))
        else .error (.about .notQuarterTurns degrees) := by
  obtain ⟨sum, hsum, hq⟩ := hh.add hn
  exact gridTurn_denotes hn.isFinite hn hsum hq

/-- What a turn that can be taken has met and what it leaves. -/
theorem gridTurn_taken {heading degrees : Value} {h : Rat} {n k : Int}
    (hh : heading.Denotes h) (hn : degrees.Denotes n)
    (hturn : gridTurn heading degrees = .ok k) :
    (90 : Int) ∣ n ∧ (90 : Int) ∣ wholePart (h + n)
      ∧ k = wholePart (h + n) % 360 := by
  rw [gridTurn_exact hh hn] at hturn
  split at hturn
  · split at hturn
    · cases hturn
      exact ⟨‹_›, ‹_›, rfl⟩
    · cases hturn
  · cases hturn

omit [Arithmetic.Exact] in
/-- A step needs one of the four headings. -/
theorem gridStep_refused {c : Config} {heading : Value} {h : Rat}
    (hh : heading.Denotes h) (hno : ∀ j : Int, h ≠ (90 * j : Int))
    (p : Position) :
    gridStep c p heading = .error (RunFault.about .badHeading heading) := by
  obtain ⟨n, rfl, hn⟩ := hh
  have hvector : stepVector? n = none := by
    by_contra hsome
    obtain ⟨j, -, -, hsame⟩ :=
      isCardinal_cases (Option.isSome_iff_ne_none.2 hsome)
    exact hno j (hn.2.symm.trans (Scalar.same_finite hsame).2)
  have hnone : (Value.num n).number?.bind stepVector? = none := hvector
  unfold gridStep
  rw [show operate (Value.num n).key = .ok (.num n) from rfl]
  simp only [bind, Except.bind, hnone]
  rfl

end

/-! ## Turns -/

/-- The two kinds of turns. -/
def Instruction.isTurn : Instruction → Bool
  | .turnRight _ => true
  | .turnLeft _ => true
  | _ => false

/-- A turn by whole degrees, to the right or to the left. -/
structure Turning where
  right : Bool
  degrees : Value
  amount : Int
  denotes : degrees.Denotes amount

namespace Turning

/-- The instruction. -/
def instruction (t : Turning) : Instruction :=
  if t.right then .turnRight t.degrees else .turnLeft t.degrees

theorem instruction_isTurn (t : Turning) : t.instruction.isTurn = true := by
  unfold instruction
  split <;> rfl

/-- The degrees that it adds to the heading. -/
def signed (t : Turning) : Int := if t.right then t.amount else -t.amount

/-- The degrees that a sequence of turns adds. -/
def total (ts : List Turning) : Int := (ts.map signed).sum

/-- What is left to do of a sequence of turns. -/
def acts (ts : List Turning) : List Act :=
  (ts.map instruction).map .perform

/-- A quarter turn meets a heading with a fraction, and what is left of the
    sum without the fraction is quarter turns too. -/
def Slips (h : Rat) (t : Turning) : Prop :=
  h.den ≠ 1 ∧ (90 : Int) ∣ t.signed ∧ (90 : Int) ∣ wholePart (h + t.signed)

/-- What is left to do when no turn is left. -/
theorem acts_eq_nil {ts : List Turning} : acts ts = [] ↔ ts = [] := by
  simp [acts]

theorem total_cons (t : Turning) (ts : List Turning) :
    total (t :: ts) = t.signed + total ts := rfl

/-- The angle that the turn works with. -/
theorem angle (t : Turning) {d : Value}
    (hd : t.instruction = .turnRight d
      ∨ ∃ e, t.instruction = .turnLeft e ∧ e.neg = .ok d) :
    d.Denotes t.signed := by
  obtain ⟨right, degrees, amount, hdenotes⟩ := t
  cases right with
  | true =>
      rcases hd with heq | ⟨e, heq, -⟩
      · cases heq
        exact hdenotes
      · cases heq
  | false =>
      rcases hd with heq | ⟨e, heq, hneg⟩
      · cases heq
      · cases heq
        obtain ⟨w, hw, hwn⟩ := hdenotes.neg
        rw [hw] at hneg
        cases hneg
        show d.Denotes ((-amount : Int) : Rat)
        rw [Int.cast_neg]
        exact hwn

/-- Without a slip, a turn that can be taken has met a whole heading. -/
theorem met_whole {h : Rat} {t : Turning} (hslip : ¬ t.Slips h)
    (hquarters : (90 : Int) ∣ t.signed)
    (hleft : (90 : Int) ∣ wholePart (h + t.signed)) :
    ∃ m : Int, h = m ∧ wholePart (h + t.signed) = m + t.signed := by
  have hden : h.den = 1 := by
    by_contra hden
    exact hslip ⟨hden, hquarters, hleft⟩
  have hh : h = (h.num : Rat) := (Rat.coe_int_num_of_den_eq_one hden).symm
  refine ⟨h.num, hh, ?_⟩
  rw [hh, Rat.num_intCast, ← Int.cast_add, wholePart_int]

/-- What a run of turns may have left to do before the next of them. -/
inductive Lead (c : Config) (ts : List Turning) : List Act → Prop
  | outset : Lead c ts (.place :: .check :: acts ts)
  | checks : Lead c ts (.check :: acts ts)
  | turns : Lead c ts (acts ts)
  | turned : Lead c ts (.emit :: .pause c.turnMs :: .check :: acts ts)
  | rests : Lead c ts (.pause c.turnMs :: .check :: acts ts)

end Turning

/-! ## Steps -/

section

variable [Arithmetic] {s : Scene} {now : Time} {a b : Agent}
  {rest todo next : List Act} {signal : Signal}

/-- Without a slip the first turn refuses a heading that is no quarter
    turn. -/
theorem gridTurn_refused [Arithmetic.Exact] {heading d : Value} {h : Rat}
    {t : Turning} (hslip : ¬ t.Slips h)
    (hno : ∀ j : Int, h ≠ (90 * j : Int)) (hh : heading.Denotes h)
    (hd : d.Denotes t.signed) :
    ∃ f, (f = RunFault.about .notQuarterTurns d ∨ ∃ k, f = .badHeading (.int k))
      ∧ gridTurn heading d = .error f := by
  rw [gridTurn_exact hh hd]
  by_cases hquarters : (90 : Int) ∣ t.signed
  · rw [if_pos hquarters, if_neg]
    · exact ⟨_, .inr ⟨_, rfl⟩, rfl⟩
    · -- what would be left would be quarter turns, and the heading too
      intro hleft
      obtain ⟨m, rfl, hwhole⟩ := Turning.met_whole hslip hquarters hleft
      rw [hwhole] at hleft
      obtain ⟨j, hj⟩ := (Int.dvd_add_left hquarters).1 hleft
      exact hno j (congrArg _ hj)
  · rw [if_neg hquarters]
    exact ⟨_, .inl rfl, rfl⟩

/-- Off the canvas a turn by a finite number works on the heading alone. -/
theorem Walker.turn_grid {w : Walker} (hmode : s.config.mode ≠ .canvas)
    {d : Value} {n : Num} (hfinite : d.finiteNumber? = .ok (some n)) :
    ∃ log, w.turn s now a rest d
      = w.goOnWith a log (gridTurn a.heading d) fun heading =>
        w.goOn { a with heading := .int heading }
          (.emit :: .pause s.config.turnMs :: .check :: rest) log := by
  unfold turn
  rw [hfinite]
  -- off the canvas, as `hmode` says
  simp only [operate, Except.mapError, goOnWith]
  exact ⟨_, rfl⟩

/-- A turn by whole degrees works on the heading alone. -/
theorem Walker.perform_turning [Arithmetic.Exact] {w : Walker}
    (hmode : s.config.mode ≠ .canvas) (t : Turning) :
    ∃ d log, d.Denotes t.signed
      ∧ w.perform s now a rest t.instruction
        = w.goOnWith a log (gridTurn a.heading d) fun heading =>
          w.goOn { a with heading := .int heading }
            (.emit :: .pause s.config.turnMs :: .check :: rest) log := by
  have hturn : ∀ d, d.Denotes t.signed → ∃ log, w.turn s now a rest d
      = w.goOnWith a log (gridTurn a.heading d) fun heading =>
        w.goOn { a with heading := .int heading }
          (.emit :: .pause s.config.turnMs :: .check :: rest) log := by
    intro d hd
    obtain ⟨n, -, hfinite, -⟩ := hd.finiteNumber?
    exact turn_grid hmode hfinite
  obtain ⟨right, degrees, amount, hdenotes⟩ := t
  cases right with
  | true =>
      obtain ⟨log, hlog⟩ := hturn degrees hdenotes
      exact ⟨degrees, log, hdenotes, hlog⟩
  | false =>
      obtain ⟨d, hd, hdn⟩ := hdenotes.neg
      have hdn : d.Denotes ((-amount : Int) : Rat) := by
        rw [Int.cast_neg]
        exact hdn
      obtain ⟨log, hlog⟩ := hturn d hdn
      refine ⟨d, log, hdn, ?_⟩
      show w.goOnWith a [] (operate degrees.neg) _ = _
      rw [hd]
      exact hlog

/-- A step that fails leaves the heading. -/
theorem Falters.heading (h : Falters s now a todo b) :
    b.heading = a.heading := by
  cases h <;> rfl

/-- On the grid a turn is taken at once, shown, and paused after. -/
theorem Advance.at_turn {i : Instruction} (hi : i.isTurn = true)
    (h : Advance s now a (.perform i :: rest) b next signal)
    (hmode : s.config.mode ≠ .canvas) :
    ∃ d k, (i = .turnRight d ∨ ∃ e, i = .turnLeft e ∧ e.neg = .ok d)
      ∧ gridTurn a.heading d = .ok k ∧ b = { a with heading := .int k }
      ∧ next = .emit :: .pause s.config.turnMs :: .check :: rest := by
  cases i with
  | turnRight d =>
      cases h with
      | swingOff hcanvas => exact absurd hcanvas hmode
      | quarters _ hd hturn => exact ⟨_, _, hd, hturn, rfl, rfl⟩
      | loop hloop => rcases hloop with hloop | hloop <;> cases hloop
  | turnLeft d =>
      cases h with
      | swingOff hcanvas => exact absurd hcanvas hmode
      | quarters _ hd hturn => exact ⟨_, _, hd, hturn, rfl, rfl⟩
      | loop hloop => rcases hloop with hloop | hloop <;> cases hloop
  | _ => cases hi

/-- An advance through turns keeps the heading, or takes the next turn. -/
theorem Advance.turning (h : Advance s now a todo b next signal)
    (hmode : s.config.mode ≠ .canvas) {ts : List Turning}
    (hlead : Turning.Lead s.config ts todo) :
    Turning.Lead s.config ts next ∧ b.heading = a.heading
      ∨ ∃ t left d k, ts = t :: left ∧ d.Denotes t.signed
        ∧ gridTurn a.heading d = .ok k ∧ b.heading = .int k
        ∧ Turning.Lead s.config left next := by
  cases hlead with
  | outset =>
      cases h
      exact .inl ⟨.checks, rfl⟩
  | checks =>
      cases h
      exact .inl ⟨.turns, rfl⟩
  | turned =>
      cases h
      exact .inl ⟨.rests, rfl⟩
  | rests =>
      cases h
      exact .inl ⟨.checks, rfl⟩
  | turns =>
      cases ts with
      | nil => cases h
      | cons t left =>
          obtain ⟨d, k, hd, hturn, rfl, rfl⟩ :=
            h.at_turn t.instruction_isTurn hmode
          exact .inr ⟨t, left, d, k, rfl, t.angle hd, hturn, rfl, .turned⟩

end

/-! ## Runs -/

namespace Solo

section

variable [Arithmetic] [Arithmetic.Exact] {s : Scene} {o : Observer}
  {r : Solo} {a : Agent} {h : Rat} {t : Turning} {ts : List Turning}

/-- A run of turns from a heading that stands for `h`: the first turn is
    still to come, or it has been taken and the heading and the turns still
    to come make up what it left and the others. -/
structure Turns (s : Scene) (a : Agent) (h : Rat) (t : Turning)
    (ts : List Turning) (r : Solo) : Prop where
  led : ∃ left, Turning.Lead s.config left r.walker.todo
    ∧ (left = t :: ts ∧ r.agent.heading = a.heading
      ∨ (90 : Int) ∣ t.signed ∧ (90 : Int) ∣ wholePart (h + t.signed)
        ∧ ∃ k, r.agent.heading = .int k ∧ isCardinal k = true
          ∧ Int.ModEq 360 (k + Turning.total left)
            (wholePart (h + t.signed) + Turning.total ts))
  ended : r.outcome = some .finished → r.walker.todo = []

namespace Turns

omit [Arithmetic.Exact] in
/-- A step that ends the run with the heading as it is. -/
theorem ends (hr : Turns s a h t ts r) (hnone : r.outcome = none)
    (htodo : (r.next s).walker.todo = r.walker.todo)
    (hheading : (r.next s).agent.heading = r.agent.heading)
    (hover : (r.nextVerdict s o).outcome = some .finished →
      r.walker.todo = []) :
    Turns s a h t ts (r.step s o) := by
  obtain ⟨hagent, hwalker, -, -, houtcome⟩ := step_spec (s := s) (o := o) hnone
  refine ⟨?_, fun hfinished => ?_⟩
  · rw [hwalker, htodo, hagent, hheading]
    exact hr.led
  · rw [hwalker, htodo]
    exact hover (houtcome ▸ hfinished)

/-- A step that goes on through the turns. -/
theorem goes (hr : Turns s a h t ts r) (hnone : r.outcome = none)
    (hmode : s.config.mode ≠ .canvas) (hh : a.heading.Denotes h)
    (hadv : Advance s r.now r.agent r.walker.todo (r.next s).agent
      (r.next s).walker.todo (r.next s).signal) :
    Turns s a h t ts (r.step s o) := by
  obtain ⟨hagent, hwalker, -, -, houtcome⟩ := step_spec (s := s) (o := o) hnone
  have hover : (r.step s o).outcome = some .finished →
      (r.step s o).walker.todo = [] := by
    intro hfinished
    rw [houtcome] at hfinished
    exact absurd hfinished hadv.unfinished
  obtain ⟨left, hlead, hstate⟩ := hr.led
  rw [← hwalker, ← hagent] at hadv
  refine ⟨?_, hover⟩
  rcases hadv.turning hmode hlead with ⟨hnext, hsame⟩ |
    ⟨t', left', d, k, rfl, hd, hturn, hheading, hnext⟩
  · refine ⟨left, hnext, ?_⟩
    rw [hsame]
    exact hstate
  · refine ⟨left', hnext, .inr ?_⟩
    rcases hstate with ⟨heq, hsame⟩ | ⟨hquarters, hleft, j, hj, -, hsum⟩
    · -- the first turn
      cases heq
      rw [hsame] at hturn
      obtain ⟨hquarters, hleft, rfl⟩ := gridTurn_taken hh hd hturn
      refine ⟨hquarters, hleft, _, hheading, (isCardinal_round _).2 hleft, ?_⟩
      exact (Int.mod_modEq _ _).add_right _
    · -- a later one, from one of the four
      rw [hj] at hturn
      obtain ⟨-, hleft', rfl⟩ := gridTurn_taken (Value.denotes_int j) hd hturn
      refine ⟨hquarters, hleft, _, hheading, (isCardinal_round _).2 hleft', ?_⟩
      rw [← Int.cast_add, wholePart_int]
      have hround : Int.ModEq 360
          ((j + t'.signed) % 360 + Turning.total left')
          (j + t'.signed + Turning.total left') :=
        (Int.mod_modEq _ _).add_right _
      rw [Turning.total_cons, ← add_assoc] at hsum
      exact hround.trans hsum

/-- A run of turns stays one. -/
theorem step (hr : Turns s a h t ts r) (hnone : r.outcome = none)
    (hmode : s.config.mode ≠ .canvas) (hh : a.heading.Denotes h) :
    Turns s a h t ts (r.step s o) := by
  cases next_cases s o r with
  | finishes hempty hagent htodo _ =>
      exact hr.ends hnone htodo (congrArg Agent.heading hagent)
        fun _ => hempty
  | halts _ _ hagent htodo hverdict =>
      refine hr.ends hnone htodo (congrArg Agent.heading hagent)
        fun hfinished => ?_
      rw [hverdict] at hfinished
      cases hfinished
  | fails _ htodo hfalters hverdict =>
      refine hr.ends hnone htodo hfalters.heading fun hfinished => ?_
      rw [hverdict] at hfinished
      cases hfinished
  | advances hadv => exact hr.goes hnone hmode hh hadv

omit [Arithmetic] [Arithmetic.Exact] in
/-- Where the turns have left a run that has come to its end. -/
theorem finished (hr : Turns s a h t ts r)
    (hfinished : r.outcome = some .finished) :
    (90 : Int) ∣ t.signed ∧ (90 : Int) ∣ wholePart (h + t.signed)
      ∧ ∃ k, r.agent.heading = .int k ∧ isCardinal k = true
        ∧ Int.ModEq 360 k (wholePart (h + t.signed) + Turning.total ts) := by
  obtain ⟨left, hlead, hstate⟩ := hr.led
  rw [hr.ended hfinished] at hlead
  obtain rfl : left = [] := by
    generalize htodo : ([] : List Act) = todo at hlead
    cases hlead with
    | turns => exact Turning.acts_eq_nil.1 htodo.symm
    | _ => cases htodo
  rcases hstate with ⟨heq, -⟩ | ⟨hquarters, hleft, k, hk, hcardinal, hsum⟩
  · cases heq
  · refine ⟨hquarters, hleft, k, hk, hcardinal, ?_⟩
    rwa [show Turning.total [] = 0 from rfl, add_zero] at hsum

end Turns

/-- The first turn of a run whose agent can be brought onto the playfield:
    what becomes of it is what becomes of its heading. -/
theorem first_turn (hmode : s.config.mode ≠ .canvas) {p : Point}
    (hplaced : clampPosition s.config a.position = .ok p) (t : Turning)
    (ts : List Turning) :
    ∃ d, d.Denotes t.signed
      ∧ (∀ k, gridTurn a.heading d = .ok k →
        (run s o 3 (.start ((t :: ts).map Turning.instruction) a true)).agent
          = { a with position := p.position, heading := .int k }
        ∧ (run s o 3 (.start ((t :: ts).map Turning.instruction) a
          true)).outcome = none)
      ∧ ∀ f, gridTurn a.heading d = .error f → ∀ n, 3 ≤ n →
        (run s o n (.start ((t :: ts).map Turning.instruction) a
          true)).agent = { a with position := p.position }
        ∧ (run s o n (.start ((t :: ts).map Turning.instruction) a
          true)).shown = []
        ∧ (run s o n (.start ((t :: ts).map Turning.instruction) a
          true)).outcome = some (.failed f) := by
  let b : Agent := { a with position := p.position }
  let q : Solo := { Solo.start ((t :: ts).map Turning.instruction) a true with
    agent := b, walker := ⟨Turning.acts (t :: ts), 0⟩ }
  -- the agent is placed and the flag is up
  have htwo : run s o 2 (.start ((t :: ts).map Turning.instruction) a true)
      = q := by
    rw [run_succ, run_succ]
    show ((Solo.start _ a true).step s o).step s o = q
    rw [start_step true hplaced]
    exact step_check rfl rfl rfl
  have hthree : run s o 3 (.start ((t :: ts).map Turning.instruction) a true)
      = q.step s o := by
    rw [run_succ, htwo]
  obtain ⟨d, log, hd, hperform⟩ : ∃ d log, d.Denotes t.signed
      ∧ q.next s = q.walker.goOnWith b log (gridTurn a.heading d)
        fun heading => q.walker.goOn { b with heading := .int heading }
          (.emit :: .pause s.config.turnMs :: .check :: Turning.acts ts)
          log :=
    Walker.perform_turning (w := q.walker) (a := b) hmode t
  refine ⟨d, hd, fun k hk => ?_, fun f hf n hn => ?_⟩
  · rw [hk] at hperform
    rw [hthree, step_goOn (r := q) rfl hperform]
    exact ⟨rfl, rfl⟩
  · rw [hf] at hperform
    have hfailed := step_fail (o := o) (r := q) rfl hperform
    rw [← hthree] at hfailed
    rw [run_over (k := 3) (by rw [hfailed]; rfl) hn, hfailed]
    exact ⟨rfl, rfl, rfl⟩

/-- Turns on the grid where nothing is rounded, from any finite heading.  If
    the run comes to its end, the heading is one of the four and is what the
    turns add up to; a heading that is no quarter turn is refused by the
    first turn, as a step refuses it, and stays.  Both hold unless the first
    turn slips: then it takes the heading without its fraction. -/
theorem turns_add_up (hmode : s.config.mode ≠ .canvas) (o : Observer)
    (running : Bool) (hh : a.heading.Denotes h) (t : Turning)
    (ts : List Turning) :
    (¬ t.Slips h → ∀ n,
      (run s o n (.start ((t :: ts).map Turning.instruction) a
        running)).outcome = some .finished →
      ∃ k m : Int, (run s o n (.start ((t :: ts).map Turning.instruction) a
          running)).agent.heading = .int k ∧ isCardinal k = true
        ∧ (k : Rat) = h + Turning.total (t :: ts) + 360 * m)
    ∧ (¬ t.Slips h → (∀ j : Int, h ≠ (90 * j : Int)) →
      (∀ p, gridStep s.config p a.heading
        = .error (.about .badHeading a.heading))
      ∧ (running = true →
        (∃ p, clampPosition s.config a.position = .ok p) →
        ∃ f, ((∃ d, d.Denotes t.signed ∧ f = .about .notQuarterTurns d)
            ∨ ∃ k, f = .badHeading (.int k))
          ∧ ∀ n, 3 ≤ n →
            (run s o n (.start ((t :: ts).map Turning.instruction) a
              running)).outcome = some (.failed f)
            ∧ (run s o n (.start ((t :: ts).map Turning.instruction) a
              running)).agent.heading = a.heading
            ∧ (run s o n (.start ((t :: ts).map Turning.instruction) a
              running)).shown = []))
    ∧ (t.Slips h → running = true →
      (∃ p, clampPosition s.config a.position = .ok p) →
      (run s o 3 (.start ((t :: ts).map Turning.instruction) a
        running)).outcome = none
      ∧ (run s o 3 (.start ((t :: ts).map Turning.instruction) a
        running)).agent.heading = .int (wholePart (h + t.signed) % 360)) := by
  refine ⟨fun hslip n hfinished => ?_, fun hslip hno => ⟨?_, ?_⟩, ?_⟩
  · have hstart : Turns s a h t ts
        (.start ((t :: ts).map Turning.instruction) a running) :=
      ⟨⟨t :: ts, .outset, .inl ⟨rfl, rfl⟩⟩, nofun⟩
    obtain ⟨hquarters, hleft, k, hk, hcardinal, hsum⟩ :=
      (run_keeps (s := s) (o := o) hstart
        (fun _ hr hnone => hr.step hnone hmode hh) n).finished hfinished
    obtain ⟨i, rfl, hwhole⟩ := Turning.met_whole hslip hquarters hleft
    rw [hwhole] at hsum
    obtain ⟨m, hm⟩ := hsum.dvd
    refine ⟨k, -m, hk, hcardinal, ?_⟩
    rw [Turning.total_cons]
    have hk : k = i + (t.signed + Turning.total ts) + 360 * -m := by omega
    exact_mod_cast hk
  · exact gridStep_refused hh hno
  · rintro rfl ⟨p, hplaced⟩
    obtain ⟨d, hd, -, hrefused⟩ := first_turn (o := o) hmode hplaced t ts
    obtain ⟨f, hf, hturn⟩ := gridTurn_refused hslip hno hh hd
    refine ⟨f, hf.imp (fun heq => ⟨d, hd, heq⟩) id, fun n hn => ?_⟩
    obtain ⟨hagent, hshown, houtcome⟩ := hrefused f hturn n hn
    exact ⟨houtcome, by rw [hagent], hshown⟩
  · rintro ⟨-, hquarters, hleft⟩ rfl ⟨p, hplaced⟩
    obtain ⟨d, hd, htaken, -⟩ := first_turn (o := o) hmode hplaced t ts
    have hturn : gridTurn a.heading d
        = .ok (wholePart (h + t.signed) % 360) := by
      rw [gridTurn_exact hh hd, if_pos hquarters, if_pos hleft]
    obtain ⟨hagent, hnone⟩ := htaken _ hturn
    exact ⟨hnone, by rw [hagent]⟩

end

/-- A turn to the right by one quarter. -/
def quarter : Turning := ⟨true, 90, 90, Value.denotes_int 90⟩

/-- Two turns that add up to more than a full circle to the left. -/
def spins : List Turning :=
  [⟨false, 720, 720, Value.denotes_int 720⟩,
    ⟨true, .real (.finite 270), 270, Value.denotes_real Scalar.denotes_finite⟩]

/-- Turns on the standard grid from a heading. -/
def spun [Arithmetic] (heading : Value) (ts : List Turning) : Solo :=
  run tenByTen (.quiet .present) 20 (.start (ts.map Turning.instruction)
    (.atStart (.str "a") [0, 0] heading) true)

section

attribute [local instance] Arithmetic.level

/-- From 450 degrees the turns come to their end at one of the four headings;
    45 and a half degrees are refused and stay. -/
theorem turns_add_up_spins :
    (∃ k m : Int, (spun (.int 450) (quarter :: spins)).agent.heading = .int k
        ∧ isCardinal k = true
        ∧ (k : Rat) = 450 + Turning.total (quarter :: spins) + 360 * m)
      ∧ (∃ f, (spun (.real (.finite (91 / 2))) [quarter]).outcome
        = some (.failed f))
      ∧ (spun (.real (.finite (91 / 2))) [quarter]).agent.heading
        = .real (.finite (91 / 2)) := by
  have hexact : Arithmetic.Exact := Arithmetic.exact_exact _ _
  have hplaced : ∃ p, clampPosition tenByTen.config [0, 0] = .ok p := by
    obtain ⟨cell, hcell, -⟩ := clampPosition_cell (c := tenByTen.config) nofun
      ⟨rfl, rfl⟩ (.int 0) (.int 0)
    exact ⟨_, hcell⟩
  refine ⟨?_, ?_⟩
  · obtain ⟨hsum, -, -⟩ := turns_add_up (s := tenByTen) nofun (.quiet .present)
      true (a := .atStart (.str "a") [0, 0] (.int 450))
      (Value.denotes_int 450) quarter spins
    exact hsum (fun hslip => hslip.1 rfl) 20
      (isFinished_iff.1 (by decide +kernel))
  · obtain ⟨-, hrefused, -⟩ := turns_add_up (s := tenByTen) nofun
      (.quiet .present) true
      (a := .atStart (.str "a") [0, 0] (.real (.finite (91 / 2))))
      (Value.denotes_real Scalar.denotes_finite) quarter []
    have hslip : ¬ quarter.Slips (91 / 2) := fun hslip =>
      absurd hslip.2.2 (by decide +kernel)
    obtain ⟨-, hends⟩ := hrefused hslip (not_quarters (by decide +kernel))
    obtain ⟨f, -, hfailed⟩ := hends rfl hplaced
    obtain ⟨houtcome, hheading, -⟩ := hfailed 20 (by decide)
    exact ⟨⟨f, houtcome⟩, hheading⟩

end

/-- A heading of 90 and a half degrees, which a step refuses, is taken to 180
    by a turn, with or without rounding. -/
theorem turns_add_up_skewed :
    quarter.Slips (181 / 2)
      ∧ @gridStep .level tenByTen.config [0, 0] (.real (.finite (181 / 2)))
        = .error (.about .badHeading (.real (.finite (181 / 2))))
      ∧ (@spun .level (.real (.finite (181 / 2))) [quarter]).isFinished = true
      ∧ (@spun .level (.real (.finite (181 / 2))) [quarter]).shown.map
        (·.snapshot.heading) = [.finite 180]
      ∧ (@spun .binary64 (.real (.finite (181 / 2))) [quarter]).isFinished
        = true
      ∧ (@spun .binary64 (.real (.finite (181 / 2))) [quarter]).shown.map
        (·.snapshot.heading) = [.finite 180] := by
  refine ⟨⟨by decide +kernel, by decide +kernel, by decide +kernel⟩,
    @gridStep_refused .level _ _ _ (Value.denotes_real Scalar.denotes_finite)
      (not_quarters (by decide +kernel)) _,
    by decide +kernel, by decide +kernel, by decide +kernel,
    by decide +kernel⟩

end Solo

end BlockStage
