import BlockStage.Proofs.Run.Publication
import BlockStage.Proofs.Run.Replay
import BlockStage.Proofs.Run.Trail

/-! # Strides — moves on the grid add up

    A move on the grid stops at the edge after each of its steps.  From a
    cell of the grid this is no different from walking on and being brought
    onto the grid once at the end (`Cell.ahead_succ`), and so the steps of a
    move can be told in advance (`Solo.Strode`).  Two moves one after the
    other do what one move of both distances does, wherever they stand in a
    program and whoever looks: the runs keep matching, the one with two moves
    a step or two behind (`Fused`). -/

namespace BlockStage

/-! ## Cells ahead -/

namespace Cell

/-- The cell so many steps ahead in a direction, brought onto the grid once. -/
def ahead (columns rows : Int) (v : Int × Int) (i : Nat) (c : Cell) : Cell :=
  (max 0 (min (columns - 1) (c.1 + i * v.1)),
    max 0 (min (rows - 1) (c.2 + i * v.2)))

variable {columns rows : Int} {v : Int × Int} {c : Cell}

theorem ahead_inGrid (columns rows : Int) (v : Int × Int) (i : Nat)
    (c : Cell) : (c.ahead columns rows v i).InGrid columns rows := by
  show 0 ≤ max 0 (min (columns - 1) (c.1 + i * v.1)) ∧ _
    ∧ 0 ≤ max 0 (min (rows - 1) (c.2 + i * v.2)) ∧ _
  exact ⟨le_max_left .., max_le_max le_rfl (min_le_left ..),
    le_max_left .., max_le_max le_rfl (min_le_left ..)⟩

/-- An agent that stands there stands on a cell. -/
theorem ahead_onCell {a : Agent} (i : Nat)
    (ha : a.position = (c.ahead columns rows v i).position) :
    a.OnCell columns rows := by
  obtain ⟨hx, hx', hy, hy'⟩ := c.ahead_inGrid columns rows v i
  exact ⟨(.int _, .int _), ⟨_, _, rfl, hx, hx', hy, hy'⟩, ha⟩

/-- A cell of the grid is where it is. -/
theorem ahead_zero (hc : c.InGrid columns rows) :
    c.ahead columns rows v 0 = c := by
  obtain ⟨x, y⟩ := c
  obtain ⟨hx, hx', hy, hy'⟩ := hc
  have hx : max 0 (min (columns - 1) x) = x := by omega
  have hy : max 0 (min (rows - 1) y) = y := by omega
  show (max 0 (min (columns - 1) (x + (0 : Nat) * v.1)),
    max 0 (min (rows - 1) (y + (0 : Nat) * v.2))) = (x, y)
  rw [Nat.cast_zero, zero_mul, zero_mul, add_zero, add_zero, hx, hy]

/-- On one axis, to be stopped at an edge after the last step as well makes no
    difference. -/
theorem stop_again {last x d : Int} (hx : 0 ≤ x) (hlast : x ≤ max 0 last)
    (hd : d = 0 ∨ d = 1 ∨ d = -1) (i : Nat) :
    max 0 (min last (max 0 (min last (x + i * d)) + d))
      = max 0 (min last (x + (i + 1 : Nat) * d)) := by
  rw [Nat.cast_succ, add_mul, one_mul, ← add_assoc]
  rcases hd with rfl | rfl | rfl
  · rw [mul_zero]
    omega
  · rw [mul_one]
    omega
  · rw [mul_neg_one]
    omega

/-- To be stopped at the edge after every step, or once after all of them,
    makes no difference. -/
theorem ahead_succ (hc : c.InGrid columns rows) {n : Num}
    (hv : stepVector? n = some v) (i : Nat) :
    (c.ahead columns rows v i).ahead columns rows v 1
      = c.ahead columns rows v (i + 1) := by
  obtain ⟨hx, hx', hy, hy'⟩ := hc
  have hunit : (v.1 = 0 ∨ v.1 = 1 ∨ v.1 = -1)
      ∧ (v.2 = 0 ∨ v.2 = 1 ∨ v.2 = -1) := by
    rcases stepVector?_cases hv with rfl | rfl | rfl | rfl <;> decide
  simp only [ahead, Nat.cast_one, one_mul, stop_again hx hx' hunit.1,
    stop_again hy hy' hunit.2]

end Cell

/-- A step from a cell leads one step ahead. -/
theorem gridStep_ahead [Arithmetic] {c : Config} {columns rows : Int}
    (hc : c.Counted columns rows) (cell : Cell) {n : Num} {v : Int × Int}
    (hv : stepVector? n = some v) :
    gridStep c cell.position (.num n)
      = .ok (.int (cell.ahead columns rows v 1).1,
        .int (cell.ahead columns rows v 1).2) := by
  have hnext := neighbour_cell hc cell.1 cell.2 v.1 v.2
  have hvector : (Value.num n).number?.bind stepVector? = some v := hv
  unfold gridStep
  rw [show operate (Value.num n).key = .ok (.num n) from rfl]
  simp only [bind, Except.bind, hvector]
  rw [show cell.position = Cell.position (cell.1, cell.2) from rfl, hnext]
  simp [operate, Except.mapError, Cell.ahead]

/-! ## Distances -/

/-- A whole distance within the range of doubles, as a count or as a
    measure. -/
structure Value.IsWhole (v : Value) (n : Nat) : Prop where
  form : v = .int n ∨ v = .real (.finite n)
  positive : 1 ≤ n
  range : (n : Rat) < Binary64.bound

section

attribute [local instance] Arithmetic.binary64

/-- A whole distance is a finite number of so many steps. -/
theorem Value.IsWhole.reads {v : Value} {n : Nat} (h : v.IsWhole n) :
    v.whole = .ok n
      ∧ ∃ m : Num, v.finiteNumber? = .ok (some m) ∧ m.le 0 = false
        ∧ m.same (.int n) = true := by
  obtain ⟨hform, hpositive, hrange⟩ := h
  have hsize : |((n : Int) : Rat)| < Binary64.bound := by
    rw [Int.cast_natCast, abs_of_nonneg (Nat.cast_nonneg n)]
    exact hrange
  have habove : (Scalar.finite n).le (.finite ((0 : Int) : Rat)) = false := by
    refine Bool.eq_false_iff.2 fun hle => ?_
    have hle : (n : Rat) ≤ ((0 : Int) : Rat) := (Scalar.le_iff rfl rfl).1 hle
    have : (n : Int) ≤ 0 := by exact_mod_cast hle
    omega
  have hsame : (Scalar.finite n).same (.finite n) = true := by
    simp [Scalar.same, Scalar.compare?]
  rcases hform with rfl | rfl
  · obtain ⟨r, hr⟩ := Num.measure_int hsize
    refine ⟨rfl, .int n, ?_, ?_, ?_⟩
    · show (calculate ((Num.int n).measure.map Scalar.isFinite) >>= _) = _
      rw [hr]
      rfl
    · exact habove
    · exact hsame
  · refine ⟨?_, .real (.finite n), rfl, habove, hsame⟩
    show Except.ok (wholePart (n : Rat)) = _
    rw [wholePart, Rat.num_natCast, Rat.den_natCast]
    exact congrArg Except.ok (Int.tdiv_one _)

/-- On the grid a move of a whole distance sets out on so many steps. -/
theorem Walker.step_move_whole {s : Scene} (hmode : s.config.mode ≠ .canvas)
    {a : Agent} {v : Value} {n : Nat} (hv : v.IsWhole n) :
    ∃ log, ∀ (now : Time) (running : Bool) (w : Walker) (rest : List Act),
      w.todo = .perform (.move v) :: rest →
      w.step s now running a = w.goOn a (.stride n :: rest) log := by
  obtain ⟨hwhole, m, hm, habove, hsame⟩ := hv.reads
  refine ⟨detail a [v] (.ok ("moving " ++ m.text ++ " steps")),
    fun now running w rest htodo => ?_⟩
  have hperform : w.step s now running a = w.move s now a rest v := by
    simp only [step, htodo, perform]
  rw [hperform]
  simp only [move, operate_eq hm, operate_eq hwhole, goOnWith, habove,
    Bool.false_eq_true, if_false, hsame, if_true, Int.toNat_natCast]

end

/-! ## Two moves as one -/

namespace Solo

variable [Arithmetic] {s : Scene} {o : Observer} {r q : Solo}

/-- Runs that match and whose next acts do the same match after it. -/
theorem Matches.both {n n' : Step} (h : r.Matches q) (hnone : r.outcome = none)
    (hr : r.next s = n) (hq : q.next s = n') (hagent : n'.agent = n.agent)
    (hsignal : n'.signal = n.signal) :
    (r.step s o).Matches (q.step s o) ∧ (r.step s o).walker = n.walker
      ∧ (q.step s o).walker = n'.walker := by
  subst hr hq
  obtain ⟨-, hwalker, -⟩ := step_spec (s := s) (o := o) hnone
  obtain ⟨-, hwalker', -⟩ :=
    step_spec (s := s) (o := o) (h.outcome.trans hnone)
  refine ⟨?_, hwalker, hwalker'⟩
  rw [step_eq hnone, step_eq (h.outcome.trans hnone), hsignal]
  refine Matches.answer ?_ _
  exact ⟨hagent, h.now, h.running, h.shown, h.outcome⟩

end Solo

/-- A step on the grid is the same whatever is left of the move. -/
theorem Walker.step_stride [Arithmetic] (s : Scene) (now : Time) (a : Agent) :
    (∃ b f, ∀ (w : Walker) (running : Bool) (left : Nat) (rest : List Act),
        w.todo = .stride (left + 1) :: rest →
        w.step s now running a = w.failed b [] f)
      ∨ ∃ b, ∀ (w : Walker) (running : Bool) (left : Nat) (rest : List Act),
        w.todo = .stride (left + 1) :: rest →
        w.step s now running a = w.goOn b
          (.emit :: .pause s.config.stepMs :: .check :: .stride left :: rest)
          [] := by
  cases hp : gridStep s.config a.position a.heading with
  | error f =>
      refine .inl ⟨a, f, fun w running left rest htodo => ?_⟩
      simp only [step, htodo, hp, goOnWith]
  | ok p =>
      rcases harrive : arrive s a p with ⟨moved, f | b⟩
      · refine .inl ⟨moved, f, fun w running left rest htodo => ?_⟩
        simp only [step, htodo, hp, goOnWith, moveTo, harrive]
      · refine .inr ⟨b, fun w running left rest htodo => ?_⟩
        simp only [step, htodo, hp, goOnWith, moveTo, harrive]

/-- What is left to do with two moves in a row, and with one move in their
    place: before they begin, within the first or about to begin the second
    one, or with nothing left that differs. -/
inductive Fused (u v w : Value) (b : Nat) : List Act → List Act → Prop
  | before {rest : List Act} : Fused u v w b
      (.perform (.move u) :: .perform (.move v) :: rest)
      (.perform (.move w) :: rest)
  | first {left : Nat} {rest : List Act} : Fused u v w b
      (.stride left :: .perform (.move v) :: rest)
      (.stride (left + b) :: rest)
  | second {rest : List Act} : Fused u v w b
      (.perform (.move v) :: rest) (.stride b :: rest)
  | same {todo : List Act} : Fused u v w b todo todo
  | later {act : Act} {todo todo' : List Act} : Fused u v w b todo todo' →
      Fused u v w b (act :: todo) (act :: todo')

namespace Fused

variable {u v w : Value} {b : Nat}

theorem append {todo todo' : List Act} (acts : List Act)
    (h : Fused u v w b todo todo') :
    Fused u v w b (acts ++ todo) (acts ++ todo') := by
  induction acts with
  | nil => exact h
  | cons act acts ih => exact .later ih

end Fused

/-- The run of two moves in a row and the run of one in their place. -/
structure Merges (u v w : Value) (b : Nat) (r q : Solo) : Prop
    extends r.Matches q where
  todo : Fused u v w b r.walker.todo q.walker.todo

namespace Merges

attribute [local instance] Arithmetic.binary64

variable {u v w : Value} {a b : Nat} {s : Scene} {o : Observer} {r q : Solo}

/-- Both runs do an act that is the next of both. -/
theorem shares (h : Merges u v w b r q) (hnone : r.outcome = none)
    {act : Act} {todo todo' : List Act} (hr : r.walker.todo = act :: todo)
    (hq : q.walker.todo = act :: todo') (hrest : Fused u v w b todo todo') :
    Merges u v w b (r.step s o) (q.step s o) := by
  obtain ⟨hstep, htodo⟩ := h.step (s := s) (o := o) hnone hr hq
  obtain ⟨-, hwalker, -⟩ := Solo.step_spec (s := s) (o := o) hnone
  refine ⟨hstep, ?_⟩
  rw [htodo, hwalker, Solo.next_only hr]
  exact hrest.append _

/-- Both runs do acts that do the same. -/
theorem agrees (h : Merges u v w b r q) (hnone : r.outcome = none)
    {n n' : Step} (hr : r.next s = n)
    (hq : q.walker.step s r.now r.running r.agent = n')
    (hagent : n'.agent = n.agent) (hsignal : n'.signal = n.signal)
    (htodo : Fused u v w b n.walker.todo n'.walker.todo) :
    Merges u v w b (r.step s o) (q.step s o) := by
  have hnext : q.next s = n' := by
    rw [Solo.next, h.now, h.running, h.agent, hq]
  obtain ⟨hstep, hwalker, hwalker'⟩ :=
    h.both (o := o) hnone hr hnext hagent hsignal
  exact ⟨hstep, by rw [hwalker, hwalker']; exact htodo⟩

/-- The run with two moves does something that cannot be seen. -/
theorem alone (h : Merges u v w b r q) (hnone : r.outcome = none)
    {todo : List Act} {log : List LogLine}
    (hr : r.next s = r.walker.goOn r.agent todo log)
    (htodo : Fused u v w b todo q.walker.todo) :
    Merges u v w b (r.step s o) q := by
  rw [Solo.step_goOn hnone hr]
  exact ⟨⟨h.agent, h.now, h.running, h.shown, h.outcome⟩, htodo⟩

/-- A step of the run with two moves is a step of the other run, or cannot be
    seen. -/
theorem step (hmode : s.config.mode ≠ .canvas) (hu : u.IsWhole a)
    (hv : v.IsWhole b) (hw : w.IsWhole (a + b)) (h : Merges u v w b r q)
    (hnone : r.outcome = none) :
    Merges u v w b (r.step s o) (q.step s o)
      ∨ Merges u v w b (r.step s o) q := by
  have htodo := h.todo
  generalize hr : r.walker.todo = todo at htodo
  generalize hq : q.walker.todo = todo' at htodo
  cases htodo with
  | before =>
      obtain ⟨log, hlog⟩ := Walker.step_move_whole hmode hu
      obtain ⟨log', hlog'⟩ := Walker.step_move_whole hmode hw
      exact .inl (h.agrees hnone (hlog _ _ _ _ hr) (hlog' _ _ _ _ hq) rfl rfl
        .first)
  | @first left rest =>
      cases left with
      | zero =>
          -- the first move is over, which nobody sees
          have hnext : r.next s
              = r.walker.goOn r.agent (.perform (.move v) :: rest) [] := by
            simp only [Solo.next, Walker.step, hr]
          refine .inr (h.alone hnone hnext ?_)
          rw [hq, zero_add]
          exact .second
      | succ left =>
          rw [Nat.add_right_comm] at hq
          rcases Walker.step_stride s r.now r.agent with
            ⟨c, f, hfails⟩ | ⟨c, hgoes⟩
          · refine .inl (h.agrees hnone (hfails _ _ _ _ hr)
              (hfails _ _ _ _ hq) rfl rfl ?_)
            show Fused u v w b r.walker.todo q.walker.todo
            rw [hr, hq, Nat.add_right_comm]
            exact .first
          · exact .inl (h.agrees hnone (hgoes _ _ _ _ hr) (hgoes _ _ _ _ hq)
              rfl rfl (.append [_, _, _] .first))
  | second =>
      -- the second move begins, which nobody sees
      obtain ⟨log, hlog⟩ := Walker.step_move_whole hmode hv
      refine .inr (h.alone hnone (hlog _ _ _ _ hr) ?_)
      rw [hq]
      exact .same
  | same =>
      cases todo with
      | nil =>
          have hfinish : ∀ (a : Agent) (w : Walker), w.todo = [] →
              w.step s r.now r.running a = ⟨a, w, [], .finish⟩ := by
            intro a w hw
            simp only [Walker.step, hw]
          exact .inl (h.agrees hnone (hfinish _ _ hr) (hfinish _ _ hq) rfl rfl
            h.todo)
      | cons act rest => exact .inl (h.shares hnone hr hq .same)
  | later hrest => exact .inl (h.shares hnone hr hq hrest)

/-- Whatever the run with two moves comes to, the other one comes to. -/
theorem run (hmode : s.config.mode ≠ .canvas) (hu : u.IsWhole a)
    (hv : v.IsWhole b) (hw : w.IsWhole (a + b)) (h : Merges u v w b r q)
    (k : Nat) :
    ∃ j, Merges u v w b (Solo.run s o k r) (Solo.run s o j q) := by
  refine Solo.run_follows h ?_ k
  intro r q h hnone
  rcases h.step hmode hu hv hw hnone with hboth | halone
  · exact ⟨1, by rw [Solo.run_succ]; exact hboth⟩
  · exact ⟨0, halone⟩

end Merges

/-! ## The steps of a move -/

/-- How many of so many snapshots an observer lets a run show: all of them,
    or those up to the first at which it lowers the flag. -/
structure Observer.Watches (o : Observer) (d m : Nat) : Prop where
  positive : 1 ≤ m
  within : m ≤ d
  patient : ∀ i, 1 ≤ i → i < m → (o.reaction i).stops = false
  done : m = d ∨ (o.reaction m).stops = true

theorem Observer.watches (o : Observer) {d : Nat} (hd : 1 ≤ d) :
    ∃ m, o.Watches d m := by
  induction d, hd using Nat.le_induction with
  | base =>
      exact ⟨1, le_rfl, le_rfl, fun i hi hlt => absurd hi (by omega), .inl rfl⟩
  | succ d hd ih =>
      obtain ⟨m, hm⟩ := ih
      cases hstops : (o.reaction m).stops with
      | true =>
          exact ⟨m, hm.positive, by have := hm.within; omega, hm.patient,
            .inr hstops⟩
      | false =>
          -- nothing has lowered the flag so far
          obtain rfl : m = d := hm.done.resolve_right (by simp [hstops])
          refine ⟨m + 1, by omega, le_rfl, fun i hi hlt => ?_, .inl rfl⟩
          rcases Nat.lt_succ_iff_lt_or_eq.1 hlt with hlt | rfl
          · exact hm.patient i hi hlt
          · exact hstops

/-- The double nearest to a count. -/
abbrev Binary64.ofCount (n : Int) : Scalar := nearest n

/-- A snapshot of an agent on a cell with a heading. -/
structure Snapshot.Stands [Arithmetic] (view : Int → Scalar) (c : Cell)
    (heading : Value) (z : Snapshot) : Prop where
  column : z.position.1 = view c.1
  row : z.position.2 = view c.2
  heading : Lenient.measure heading = .ok z.heading

namespace Solo

attribute [local instance] Arithmetic.binary64

/-- A run whose agent has been shown on so many cells ahead of the first one,
    and stands on the last of them. -/
structure Strode (view : Int → Scalar) (columns rows : Int) (v : Int × Int)
    (start : Cell) (a : Agent) (m : Nat) (q : Solo) : Prop where
  agent : ∃ reached : Bool, q.agent = { a with
    position := (start.ahead columns rows v m).position
    goalReached := .bool reached }
  events : List.Forall₂ (fun i (e : Event) =>
      e.snapshot.Stands view (start.ahead columns rows v i) a.heading)
    (List.range' 1 m) q.events

/-- Up to 53 bits the doubles nearest to the cells are the cells. -/
theorem Strode.exact {columns rows : Int} {v : Int × Int} {start : Cell}
    {a : Agent} {m : Nat} {q : Solo} (hcolumns : columns ≤ 2 ^ 53 + 1)
    (hrows : rows ≤ 2 ^ 53 + 1)
    (h : Strode Binary64.ofCount columns rows v start a m q) :
    Strode (fun n => .finite n) columns rows v start a m q := by
  refine ⟨h.agent, h.events.imp fun i e he => ?_⟩
  obtain ⟨hx, hx', hy, hy'⟩ := start.ahead_inGrid columns rows v i
  exact ⟨he.column.trans (Binary64.nearest_index hcolumns hx hx'),
    he.row.trans (Binary64.nearest_index hrows hy hy'), he.heading⟩

variable {s : Scene} {o : Observer} {columns rows : Int} {v : Int × Int}
  {start : Cell} {a : Agent} {n : Num} {m left : Nat} {q : Solo}
  {rest : List Act} {seconds : Scalar}

/-- As many snapshots have been shown as cells. -/
theorem Strode.length {view : Int → Scalar}
    (h : Strode view columns rows v start a m q) : q.shown.length = m := by
  have hlength := h.events.length_eq
  rw [List.length_range', Solo.events, List.length_reverse] at hlength
  exact hlength.symm

/-- The next step of a move leads one cell further ahead. -/
theorem Strode.strides {view : Int → Scalar}
    (h : Strode view columns rows v start a m q)
    (hs : s.Measured columns rows) (hn : a.heading = .num n)
    (hv : stepVector? n = some v) (hstart : start.InGrid columns rows)
    (htodo : q.walker.todo = .stride (left + 1) :: rest) :
    ∃ reached : Bool, q.next s = q.walker.goOn
      { a with
        position := (start.ahead columns rows v (m + 1)).position
        goalReached := .bool reached }
      (.emit :: .pause s.config.stepMs :: .check :: .stride left :: rest)
      [] := by
  obtain ⟨reached, hagent⟩ := h.agent
  let c : Cell := start.ahead columns rows v (m + 1)
  have hstep : gridStep s.config q.agent.position q.agent.heading
      = .ok (.int c.1, .int c.2) := by
    rw [hagent]
    show gridStep s.config (start.ahead columns rows v m).position a.heading
      = _
    rw [hn, gridStep_ahead hs.counted _ hv, Cell.ahead_succ hstart hv]
  -- the goal can be tested on the cell, and then the flag is up or as it was
  obtain ⟨b, hb⟩ : ∃ b, Agent.latchGoal
      { q.agent with position := c.position } s.goal = .ok b :=
    Agent.latchGoal_numbers hs.goal rfl rfl rfl
  have harrive : Walker.arrive s q.agent (.int c.1, .int c.2)
      = ({ q.agent with position := c.position }, .ok b) := by
    show ({ q.agent with position := c.position },
      operate (Agent.latchGoal { q.agent with position := c.position } s.goal))
      = _
    rw [hb]
    rfl
  have hnext : q.next s = q.walker.goOn b
      (.emit :: .pause s.config.stepMs :: .check :: .stride left :: rest)
      [] := by
    simp only [next, Walker.step, htodo, hstep, Walker.goOnWith,
      Walker.moveTo, harrive]
  rw [hagent] at hb
  rcases (Agent.latchGoal_up hb).1 with rfl | rfl
  · exact ⟨reached, hnext⟩
  · exact ⟨true, hnext⟩

/-- The next step of a move is shown and slept over. -/
theorem Strode.stride (h : Strode Binary64.ofCount columns rows v start a m q)
    (hnone : q.outcome = none) (hs : s.Measured columns rows) (ho : o.Attends)
    (ha : a.Readable) (hn : a.heading = .num n) (hv : stepVector? n = some v)
    (hstart : start.InGrid columns rows)
    (hpause : Walker.pauseSeconds s.config.stepMs = .ok seconds)
    (hrunning : q.running = true)
    (htodo : q.walker.todo = .stride (left + 1) :: rest) :
    Strode Binary64.ofCount columns rows v start a (m + 1) (run s o 3 q)
      ∧ (run s o 3 q).outcome = none
      ∧ (run s o 3 q).walker.todo = .check :: .stride left :: rest
      ∧ (run s o 3 q).running = !(o.reaction (m + 1)).stops := by
  obtain ⟨reached, hnext⟩ := h.strides hs hn hv hstart htodo
  let c : Cell := start.ahead columns rows v (m + 1)
  let b : Agent := { a with
    position := c.position
    goalReached := .bool reached }
  have hmoved := step_goOn (o := o) hnone hnext
  -- the agent can be shown on the cell
  have hcell : b.OnCell columns rows := start.ahead_onCell (m + 1) rfl
  have hshowable : b.Showable :=
    Agent.Readable.snapshot ⟨ha.name, ha.heading, ha.message, reached, rfl⟩ hs
      hcell
  have hdue : (q.step s o).walker.todo = .emit :: .pause s.config.stepMs
      :: .check :: .stride left :: rest := by
    rw [hmoved]
  obtain ⟨z, hz, hshown⟩ := step_shows (s := s) (r := q.step s o) ho
    (by rw [hmoved]; exact hnone) (by rw [hmoved]; exact hshowable) hdue
  have hpaused : ((q.step s o).step s o).next s
      = ⟨((q.step s o).step s o).agent,
        { ((q.step s o).step s o).walker with
          todo := .check :: .stride left :: rest }, [], .sleep seconds⟩ := by
    rw [hshown]
    simp only [next, Walker.step, hpause, operate, Except.mapError,
      Walker.goOnWith]
  have hslept := step_sleep (o := o) (r := (q.step s o).step s o)
    (by rw [hshown, hmoved]; exact hnone) hpaused
  have hthree : run s o 3 q = ((q.step s o).step s o).step s o := by
    rw [run_succ, run_succ, run_succ]
    rfl
  rw [hthree, hslept, hshown, hmoved]
  refine ⟨⟨⟨reached, rfl⟩, ?_⟩, hnone, rfl, ?_⟩
  · show List.Forall₂ _ _ (⟨q.now, z⟩ :: q.shown).reverse
    rw [List.reverse_cons, List.range'_1_concat]
    refine List.rel_append h.events (.cons ?_ .nil)
    rw [hmoved] at hz
    obtain ⟨-, ⟨x, y, hxy, hx, hy⟩, hheading, -⟩ := Snapshot.ofAgent_ok.1 hz
    cases hxy
    rw [Nat.add_comm]
    exact ⟨Lenient.measure_int_eq hx, Lenient.measure_int_eq hy, hheading⟩
  · show (q.running && !(o.reaction (q.shown.length + 1)).stops) = _
    rw [hrunning, h.length, Bool.true_and]

/-- Nothing that leaves the agent and the snapshots as they are counts. -/
theorem Strode.congr {view : Int → Scalar} {r : Solo}
    (h : Strode view columns rows v start a m q) (hagent : r.agent = q.agent)
    (hshown : r.shown = q.shown) : Strode view columns rows v start a m r := by
  obtain ⟨hstands, hevents⟩ := h
  refine ⟨by rw [hagent]; exact hstands, ?_⟩
  rw [Solo.events, hshown]
  exact hevents

/-- A run whose flag is down halts at a check. -/
theorem step_halt (hnone : q.outcome = none) (hrunning : q.running = false)
    (htodo : q.walker.todo = .check :: rest) :
    (q.step s o).outcome = some .halted ∧ (q.step s o).agent = q.agent
      ∧ (q.step s o).shown = q.shown := by
  obtain ⟨log, hnext⟩ : ∃ log, q.next s = ⟨q.agent, q.walker, log, .halt⟩ :=
    ⟨Walker.detail q.agent q.agent.position
      (.ok ("halted at " ++ Position.text q.agent.position)),
      by simp [next, Walker.step, htodo, hrunning]⟩
  rw [step_eq hnone, hnext]
  exact ⟨rfl, rfl, rfl⟩

/-- The steps of a move follow one another as long as nobody lowers the
    flag. -/
theorem Strode.walks (h : Strode Binary64.ofCount columns rows v start a m q)
    (hnone : q.outcome = none) (hs : s.Measured columns rows) (ho : o.Attends)
    (ha : a.Readable) (hn : a.heading = .num n) (hv : stepVector? n = some v)
    (hstart : start.InGrid columns rows)
    (hpause : Walker.pauseSeconds s.config.stepMs = .ok seconds)
    (hrunning : q.running = true) (k : Nat)
    (hpatient : ∀ i, m < i → i ≤ m + k → (o.reaction i).stops = false)
    (htodo : q.walker.todo = .stride (left + k) :: rest) :
    ∃ j, Strode Binary64.ofCount columns rows v start a (m + k) (run s o j q)
      ∧ (run s o j q).outcome = none ∧ (run s o j q).running = true
      ∧ (run s o j q).walker.todo = .stride left :: rest := by
  induction k generalizing left with
  | zero => exact ⟨0, h, hnone, hrunning, htodo⟩
  | succ k ih =>
      have hleft : q.walker.todo = .stride (left + 1 + k) :: rest := by
        rw [htodo, Nat.add_right_comm]
        rfl
      obtain ⟨j, hj, hgoes, hup, hdo⟩ :=
        ih (fun i hi hle => hpatient i hi (by omega)) hleft
      obtain ⟨hnext, hon, hcheck, hflag⟩ := hj.stride hgoes hs ho ha hn hv
        hstart hpause hup hdo
      rw [hpatient (m + k + 1) (by omega) (by omega)] at hflag
      have hgo := step_check (s := s) (o := o) hon hflag hcheck
      refine ⟨j + 3 + 1, ?_⟩
      rw [run_succ, run_add, hgo]
      exact ⟨hnext.congr rfl rfl, hon, hflag, rfl⟩

/-- A run with no step left of its only move finishes. -/
theorem Strode.finishes {view : Int → Scalar}
    (h : Strode view columns rows v start a m q) (hnone : q.outcome = none)
    (htodo : q.walker.todo = [.stride 0]) :
    (run s o 2 q).outcome = some .finished
      ∧ Strode view columns rows v start a m (run s o 2 q) := by
  have hnext : q.next s = q.walker.goOn q.agent [] [] := by
    simp only [next, Walker.step, htodo]
  have hstep := step_goOn (o := o) hnone hnext
  have hlast : (q.step s o).next s
      = ⟨q.agent, (q.step s o).walker, [], .finish⟩ := by
    rw [hstep]
    simp only [next, Walker.step]
  have htwo : run s o 2 q = (q.step s o).step s o := by
    rw [run_succ, run_succ]
    rfl
  rw [htwo, step_eq (by rw [hstep]; exact hnone), hlast, hstep]
  exact ⟨rfl, h.congr rfl rfl⟩

/-- A run whose flag is down after a step of its move halts. -/
theorem Strode.halts {view : Int → Scalar}
    (h : Strode view columns rows v start a m q) (hnone : q.outcome = none)
    (hrunning : q.running = false) (htodo : q.walker.todo = .check :: rest) :
    (q.step s o).outcome = some .halted
      ∧ Strode view columns rows v start a m (q.step s o) := by
  obtain ⟨hhalted, hsame, hshown⟩ :=
    step_halt (s := s) (o := o) hnone hrunning htodo
  exact ⟨hhalted, h.congr hsame hshown⟩

/-- A move from a cell on is shown step by step, up to its end or to the
    snapshot at which somebody lowers the flag. -/
theorem Strode.ends {d : Nat}
    (h : Strode Binary64.ofCount columns rows v start a 0 q)
    (hs : s.Measured columns rows) (ho : o.Attends)
    (hpause : Walker.pauseSeconds s.config.stepMs = .ok seconds)
    (ha : a.Readable) (hn : a.heading = .num n) (hv : stepVector? n = some v)
    (hstart : start.InGrid columns rows) (hnone : q.outcome = none)
    (hrunning : q.running = true) (hd : 1 ≤ d)
    (htodo : q.walker.todo = [.stride d]) :
    ∃ m k, o.Watches d m
      ∧ (run s o k q).outcome
        = some (if (o.reaction m).stops then .halted else .finished)
      ∧ Strode Binary64.ofCount columns rows v start a m (run s o k q) := by
  obtain ⟨m, hm⟩ := o.watches hd
  cases hstops : (o.reaction m).stops with
  | false =>
      -- nobody lowers the flag
      obtain rfl : m = d := hm.done.resolve_right (by simp [hstops])
      have hpatient : ∀ i, 0 < i → i ≤ 0 + m →
          (o.reaction i).stops = false := by
        intro i hi hle
        rcases Nat.lt_or_eq_of_le (by omega : i ≤ m) with hlt | rfl
        · exact hm.patient i hi hlt
        · exact hstops
      have hall : q.walker.todo = .stride (0 + m) :: [] := by
        rw [htodo, zero_add]
      obtain ⟨j, hj, hgoes, -, hdo⟩ := h.walks hnone hs ho ha hn hv hstart
        hpause hrunning m hpatient hall
      rw [zero_add] at hj
      refine ⟨m, j + 2, hm, ?_⟩
      rw [run_add, hstops]
      exact hj.finishes hgoes hdo
  | true =>
      -- the flag is lowered after the last of the steps that are shown
      obtain ⟨l, rfl⟩ : ∃ l, m = l + 1 :=
        Nat.exists_eq_add_of_le' hm.positive
      obtain ⟨left, rfl⟩ : ∃ left, d = left + 1 + l := by
        obtain ⟨left, hleft⟩ := Nat.exists_eq_add_of_le' hm.within
        exact ⟨left, by omega⟩
      obtain ⟨j, hj, hgoes, hup, hdo⟩ := h.walks hnone hs ho ha hn hv hstart
        hpause hrunning l (fun i hi hle => hm.patient i hi (by omega)) htodo
      rw [zero_add] at hj
      obtain ⟨hnext, hon, hcheck, hflag⟩ := hj.stride hgoes hs ho ha hn hv
        hstart hpause hup hdo
      rw [hstops] at hflag
      refine ⟨l + 1, j + 3 + 1, hm, ?_⟩
      rw [run_succ, run_add, hstops]
      exact hnext.halts hon hflag hcheck

/-- A run with a move of a whole distance as its only instruction brings its
    agent onto the grid and sets out. -/
theorem start_strode {value : Value} {d : Nat} (hmode : s.config.mode ≠ .canvas)
    (ha : a.Readable) (hvalue : value.IsWhole d)
    (hplaced : clampPosition s.config a.position
      = .ok (.int start.1, .int start.2)) (hstart : start.InGrid columns rows) :
    Strode Binary64.ofCount columns rows v start a 0
        (run s o 3 (.start [.move value] a true))
      ∧ (run s o 3 (.start [.move value] a true)).outcome = none
      ∧ (run s o 3 (.start [.move value] a true)).running = true
      ∧ (run s o 3 (.start [.move value] a true)).walker.todo
        = [.stride d] := by
  obtain ⟨log, hlog⟩ := Walker.step_move_whole
    (a := { a with position := start.position }) hmode hvalue
  obtain ⟨reached, hreached⟩ := ha.goal
  let r : Solo := { Solo.start [.move value] a true with
    agent := { a with position := start.position }
    walker := ⟨[.check, .perform (.move value)], 0⟩ }
  let q : Solo := { r with walker := ⟨[.perform (.move value)], 0⟩ }
  have hfirst : (Solo.start [.move value] a true).step s o = r :=
    start_step true hplaced
  have hsecond : r.step s o = q := step_check rfl rfl rfl
  have hthird : q.next s = q.walker.goOn q.agent [.stride d] log :=
    hlog _ _ _ _ rfl
  have hthree : run s o 3 (.start [.move value] a true)
      = (((Solo.start [.move value] a true).step s o).step s o).step s o := by
    rw [run_succ, run_succ, run_succ]
    rfl
  rw [hthree, hfirst, hsecond, step_goOn rfl hthird]
  refine ⟨⟨⟨reached, ?_⟩, .nil⟩, rfl, rfl, rfl⟩
  rw [Cell.ahead_zero hstart, ← hreached]

/-- Moves on the grid can be told in advance, and add up.  A run of one move
    of a whole distance brings its agent onto the grid and shows it on the
    cells ahead, one after the other, each brought onto the grid once and with
    the heading that the agent has at the start; it ends on the last of these
    cells, or at the snapshot at which somebody lowers the flag.  Snapshots
    hold doubles, which are the cells themselves up to 53 bits.  Two moves in
    a row, wherever they stand in a program, whatever the stage and the agent
    are and whoever looks, come to the same agent, the same snapshots at the
    same times, the same clock and the same end as one move of both
    distances. -/
theorem moves_add_up {s : Scene} (hmode : s.config.mode ≠ .canvas) :
    (∀ (columns rows : Int) (seconds : Scalar),
        s.config.Counted columns rows → (columns : Rat) < Binary64.bound →
        (rows : Rat) < Binary64.bound →
        (∀ g, s.goal = some g → g.isNumeric = true) →
        Walker.pauseSeconds s.config.stepMs = .ok seconds →
        ∀ (o : Observer) (a : Agent) (x y n : Num) (v : Int × Int)
          (value : Value) (d : Nat),
          o.Attends → a.Readable → a.position = [.num x, .num y] →
          a.heading = .num n → stepVector? n = some v → value.IsWhole d →
          ∃ (start : Cell) (m k : Nat),
            clampPosition s.config a.position
                = .ok (.int start.1, .int start.2)
              ∧ start.InGrid columns rows ∧ o.Watches d m
              ∧ (run s o k (.start [.move value] a true)).outcome
                = some (if (o.reaction m).stops then .halted else .finished)
              ∧ Strode Binary64.ofCount columns rows v start a m
                (run s o k (.start [.move value] a true))
              ∧ (columns ≤ 2 ^ 53 + 1 → rows ≤ 2 ^ 53 + 1 →
                Strode (fun i => .finite i) columns rows v start a m
                  (run s o k (.start [.move value] a true))))
      ∧ ∀ (o : Observer) (p q : Program) (a : Agent) (running : Bool)
          (u v w : Value) (i j : Nat),
          u.IsWhole i → v.IsWhole j → w.IsWhole (i + j) →
          ∃ k l,
            (run s o k (.start (p ++ .move u :: .move v :: q) a
              running)).outcome.isSome = true
              ∧ (run s o k (.start (p ++ .move u :: .move v :: q) a
                  running)).Matches
                (run s o l (.start (p ++ .move w :: q) a running)) := by
  constructor
  · intro columns rows seconds hc hcolumns hrows hgoal hpause o a x y n v value
      d ho ha hpos hn hv hvalue
    have hs := measured_doubles hmode hc hcolumns hrows hgoal
    obtain ⟨start, hplaced, hstart⟩ := clampPosition_cell hmode hc x y
    rw [← hpos] at hplaced
    obtain ⟨h, hnone, hrunning, htodo⟩ := start_strode (o := o) (v := v) hmode
      ha hvalue hplaced hstart
    obtain ⟨m, k, hm, houtcome, hstrode⟩ := h.ends hs ho hpause ha
      hn hv hstart hnone hrunning hvalue.positive htodo
    rw [← run_add] at houtcome hstrode
    exact ⟨start, m, 3 + k, hplaced, hstart, hm, houtcome, hstrode,
      fun hcolumns hrows => hstrode.exact hcolumns hrows⟩
  · intro o p q a running u v w i j hu hv hw
    have hbegins : Merges u v w j (.start (p ++ .move u :: .move v :: q) a
        running) (.start (p ++ .move w :: q) a running) := by
      refine ⟨⟨rfl, rfl, rfl, rfl, rfl⟩, .later (.later ?_)⟩
      rw [List.map_append, List.map_append]
      exact .append _ .before
    obtain ⟨l, hl⟩ := hbegins.run (o := o) hmode hu hv hw _
    exact ⟨_, l, run_ends hmode (Walker.start_grounded _), hl.toMatches⟩

/-- Two columns before the last one. -/
def nearWall : Agent := .atStart (.str "a") [7, 0] 90

/-- A move of four steps against the wall is shown on the last column from its
    second step on, and one step and three in a row do the same. -/
theorem moves_add_up_wall :
    (∃ k, (run tenByTen (.quiet .present) k (.start
          [.move (.real (.finite (4 : Nat)))] nearWall true)).outcome
        = some .finished
      ∧ Strode (fun i => .finite i) 10 10 (1, 0) (7, 0) nearWall 4
        (run tenByTen (.quiet .present) k (.start
          [.move (.real (.finite (4 : Nat)))] nearWall true)))
      ∧ (List.range' 1 4).map (fun i => Cell.ahead 10 10 (1, 0) i (7, 0))
        = [(8, 0), (9, 0), (9, 0), (9, 0)]
      ∧ ∃ k l, (run tenByTen (.quiet .present) k (.start
          [.move 1, .move 3] nearWall true)).Matches
        (run tenByTen (.quiet .present) l (.start
          [.move (.real (.finite (4 : Nat)))] nearWall true)) := by
  have hsmall : ∀ n : Nat, n ≤ 4 → (n : Rat) < Binary64.bound := by
    intro n hn
    have hn : (n : Rat) ≤ 4 := by exact_mod_cast hn
    have hlarge := Binary64.lastHalf_large
    unfold Binary64.bound
    linarith
  have hfour : (Value.real (.finite (4 : Nat))).IsWhole 4 :=
    ⟨.inr rfl, by decide, hsmall 4 le_rfl⟩
  obtain ⟨seconds, hpause⟩ := Option.isSome_iff_exists.1
    (show (Walker.pauseSeconds tenByTen.config.stepMs).toOption.isSome = true by
      decide +kernel)
  obtain ⟨htold, hadds⟩ := moves_add_up (s := tenByTen) nofun
  refine ⟨?_, by decide, ?_⟩
  · obtain ⟨start, m, k, hplaced, -, hm, houtcome, -, hstrode⟩ :=
      htold 10 10 seconds ⟨rfl, rfl⟩ (by decide +kernel) (by decide +kernel)
        nofun (ok_of_toOption hpause) (.quiet .present) nearWall (.int 7)
        (.int 0) (.int 90) (1, 0) _ 4 ⟨nofun, fun _ => rfl⟩
        ⟨⟨_, rfl⟩, ⟨_, rfl⟩, .inl rfl, _, rfl⟩ rfl rfl (by decide +kernel) hfour
    obtain rfl : m = 4 := hm.done.resolve_right nofun
    have hstart : clampPosition tenByTen.config nearWall.position
        = .ok (.int 7, .int 0) := rfl
    obtain ⟨x, y⟩ := start
    obtain ⟨rfl, rfl⟩ : 7 = x ∧ 0 = y := by
      simpa [hstart, Value.int] using hplaced
    exact ⟨k, houtcome, hstrode (by decide) (by decide)⟩
  · obtain ⟨k, l, -, hmatches⟩ := hadds (.quiet .present) [] [] nearWall true 1
      3 _ 1 3 ⟨.inl rfl, le_rfl, hsmall 1 (by decide)⟩
      ⟨.inl rfl, by decide, hsmall 3 (by decide)⟩ hfour
    exact ⟨k, l, hmatches⟩

/-- Far out on a grid with more columns than doubles can tell apart, a single
    step is not shown on the cell one step ahead. -/
theorem moves_add_up_vast :
    clampPosition vastGrid.config [.int (2 ^ 53 + 2), .int 0]
        = .ok (.int (2 ^ 53 + 2), .int 0)
      ∧ stepVector? 90 = some (1, 0) ∧ (Value.int 1).IsWhole 1
      ∧ faraway.outcome.isSome = true ∧ faraway.shown.length = 1
      ∧ ¬ Strode (fun i => .finite i) (10 ^ 17) 10 (1, 0) (2 ^ 53 + 2, 0)
        (.atStart (.str "a") [.int (2 ^ 53 + 2), .int 0] 90) 1 faraway := by
  have hshown : faraway.events.map (·.snapshot.position)
      = [(.finite (2 ^ 53 + 4), .finite 0)] := by
    decide +kernel
  refine ⟨rfl, by decide +kernel, ⟨.inl rfl, le_rfl, ?_⟩, by decide +kernel,
    by decide +kernel, fun h => ?_⟩
  · have hlarge := Binary64.lastHalf_large
    unfold Binary64.bound
    push_cast
    linarith
  · have hevents := h.events
    obtain ⟨e, he, hposition⟩ := List.map_eq_singleton_iff.1 hshown
    rw [he] at hevents
    cases hevents with
    | cons hstands _ =>
        have hcolumn := hstands.column
        rw [hposition] at hcolumn
        exact absurd hcolumn (by decide +kernel)

end Solo

end BlockStage
