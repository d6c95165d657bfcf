import BlockStage.Proofs.Run.Failure
import BlockStage.Proofs.Run.Schedules

/-! # Settling — an instruction that has begun goes through or fails at once

    On a grid whose times are calculated without rounding an instruction
    without a body can fail where it begins, and with the first act that it
    leaves to do: a step that leads nowhere, or a message that is no text
    (`Act.Opening`).  After that nothing of it can go wrong any more
    (`Act.Smooth`), and act by act the run comes as far as the schedule of the
    instruction goes: what has been done and what is left to do make up the
    schedules of all that was begun (`Solo.Settles`). -/

namespace BlockStage

open Act

/-- The times of the settings are numbers. -/
structure Config.Timed (c : Config) : Prop where
  step : ∃ q, c.stepMs.Denotes q
  turn : ∃ q, c.turnMs.Denotes q
  say : ∃ q, c.sayMs.Denotes q
  scale : ∃ q, c.waitScale.Denotes q

/-- A grid of counted columns and rows with numbers for times, and for the
    sides of the goal, if there is one. -/
structure Scene.Timed (s : Scene) (columns rows : Int) : Prop where
  mode : s.config.mode ≠ .canvas
  counted : s.config.Counted columns rows
  times : s.config.Timed
  goal : ∀ g, s.goal = some g → g.isNumeric = true

/-- An operand that an instruction can be carried out with: whole steps, or a
    number of seconds. -/
def Instruction.Proper : Instruction → Prop
  | move d => ratioOf d = stepsOf d
  | wait v => ∃ q, v.Denotes q
  | _ => True

/-- An agent can be read, if anybody looks. -/
def ObserverMode.Reads [Arithmetic] (mode : ObserverMode) (a : Agent) : Prop :=
  mode = .absent ∨ a.Readable

/-- Acts with which nothing can go wrong once the instruction that they belong
    to has had an effect. -/
def Act.Smooth [Arithmetic] (s : Scene) (a : Agent) : Act → Prop
  | emit => True
  | check => True
  | hush => True
  | pause ms => ∃ q, ms.Denotes q
  | stride _ => ∀ x y : Int, ∃ p,
      gridStep s.config [.int x, .int y] a.heading = .ok p
  | _ => False

/-- What is left to do of an instruction whose first act may still fail: a
    step that leads nowhere, or a message that is no text. -/
inductive Act.Opening [Arithmetic] (c : Config) (mode : ObserverMode) :
    Agent → List Act → Prop
  | walks {a : Agent} {n : Nat} : mode.Reads a →
      Opening c mode a [.stride (n + 1)]
  | speaks {a : Agent} {text : Value} : mode.Reads a →
      Opening c mode { a with message := text }
        [.emit, .pause c.sayMs, .hush, .emit, .check]

section

variable [Arithmetic] {s : Scene} {now : Time} {a b : Agent}
  {next rest : List Act} {signal : Signal} {mode : ObserverMode}
  {columns rows : Int} {i : Instruction}

/-! ## Instructions that begin -/

omit [Arithmetic] in
/-- What goes on has calculated what it needs. -/
theorem Walker.goOnWith_proceeds {α : Type} {w : Walker} {log : List LogLine}
    {x : Except RunFault α} {f : α → Step}
    (h : (w.goOnWith a log x f).signal = .proceed) :
    ∃ y, x = .ok y ∧ (f y).signal = .proceed := by
  cases x with
  | ok y => exact ⟨y, rfl, h⟩
  | error e => cases h

/-- A value that is read as a finite number is that number. -/
theorem Value.denotes_of_finite {v : Value} {n : Num}
    (h : v.finiteNumber? = .ok (some n)) :
    v = .num n ∧ n.Denotes n.exact.value := by
  cases v with
  | num m =>
      obtain ⟨finite, hfinite, h⟩ := bind_ok h
      cases finite with
      | false => cases h
      | true =>
          cases h
          refine ⟨rfl, ?_⟩
          cases n with
          | int i => exact Num.denotes_int i
          | real x => exact ⟨Except.ok.inj hfinite, rfl⟩
  | _ => cases h

omit [Arithmetic] in
/-- What is read as a message is text, or nothing. -/
theorem Lenient.text?_ok {v : Value} {m : Option String}
    (h : Lenient.text? v = .ok m) : v = .null ∨ ∃ t, v = .str t := by
  cases v with
  | null => exact .inl rfl
  | str t => exact .inr ⟨t, rfl⟩
  | _ => cases h

/-- Only instructions with proper operands begin. -/
theorem Walker.begins_proper {w : Walker} {running : Bool}
    (hmode : s.config.mode ≠ .canvas) (htodo : w.todo = .perform i :: rest)
    (h : (w.step s now running a).signal = .proceed) : i.Proper := by
  rw [Walker.step, htodo] at h
  cases i with
  | move d =>
      obtain ⟨m, hm, h⟩ := goOnWith_proceeds h
      cases m with
      | none => cases h
      | some n =>
          obtain ⟨rfl, -⟩ := Value.denotes_of_finite (operate_ok hm)
          dsimp only at h
          split at h
          · cases h
          · rename_i hpos
            split at h
            · exact absurd ‹_› hmode
            · obtain ⟨steps, hsteps, h⟩ := goOnWith_proceeds h
              split at h
              · rename_i hsame
                have habove : 0 < steps :=
                  Num.pos_of_same (Bool.eq_false_iff.2 hpos) hsame
                have hcast : ((steps.toNat : Int) : Rat) = steps := by
                  rw [Int.toNat_of_nonneg habove.le]
                show n.exact.value = (stepsOf (.num n) : Rat)
                rw [stepsOf, operate_ok hsteps, (Scalar.same_finite hsame).2,
                  ← hcast]
                exact Int.cast_natCast _
              · cases h
  | wait v =>
      obtain ⟨m, hm, h⟩ := goOnWith_proceeds h
      cases m with
      | none => cases h
      | some n =>
          obtain ⟨hv, hn⟩ := Value.denotes_of_finite (operate_ok hm)
          exact ⟨_, n, hv, hn⟩
  | _ => trivial

/-- Nothing of an agent but its heading matters for what can go wrong. -/
theorem Act.Smooth.congr {act : Act} (h : act.Smooth s a)
    (hheading : b.heading = a.heading) : act.Smooth s b := by
  cases act with
  | stride left =>
      show ∀ x y : Int, ∃ p, gridStep s.config [.int x, .int y] b.heading
        = .ok p
      rw [hheading]
      exact h
  | _ => exact h

/-- Which instruction comes next is decided and begun at once. -/
theorem Advance.proceeds {act : Act} (hact : act.isControl = true)
    (h : Advance s now a (act :: rest) b next signal) : signal = .proceed := by
  cases h with
  | emit => cases hact
  | pause => cases hact
  | awaitFrame => cases hact
  | _ => rfl

variable [Arithmetic.Exact]

/-- Cells and headings are measured as they are. -/
theorem Scene.Timed.measured (hs : s.Timed columns rows) :
    s.Measured columns rows := by
  have hmeasure : ∀ n : Int, ∃ x, (Num.int n).measure = .ok x := by
    intro n
    obtain ⟨x, hx, -⟩ := (Num.denotes_int n).measure
    exact ⟨x, hx⟩
  exact ⟨hs.mode, hs.counted, fun n _ _ => hmeasure n, fun n _ => hmeasure n,
    hs.goal⟩

/-- The milliseconds of a wait. -/
theorem Walker.waitMs_exact {c : Config} (hc : c.Timed) {v ms : Value}
    (hv : ∃ q, v.Denotes q) (hms : Walker.waitMs c v = .ok ms) :
    ∃ q, ms.Denotes q ∧ ratioOf ms = ratioOf v * 1000 * ratioOf c.waitScale := by
  obtain ⟨q, hv⟩ := hv
  obtain ⟨scale, hscale⟩ := hc.scale
  obtain ⟨u, hu, huq⟩ := hv.mul (Value.denotes_int 1000)
  obtain ⟨w, hw, hwq⟩ := huq.mul hscale
  obtain ⟨u', hu', hms⟩ := bind_ok hms
  cases hu.symm.trans hu'
  cases hw.symm.trans hms
  refine ⟨_, hwq, ?_⟩
  rw [hwq.ratioOf_eq, hv.ratioOf_eq, hscale.ratioOf_eq]
  norm_num

/-- An instruction without a body that begins leaves the agent in its place
    and has its own schedule to come; nothing of it can go wrong any more, or
    its first act may. -/
theorem Advance.begins (hs : s.Timed columns rows) (hi : i.isLeaf = true)
    (hproper : i.Proper) (hread : mode.Reads a)
    (h : Advance s now a [.perform i] b next signal) :
    plans s.config next = i.schedule s.config ∧ b.position = a.position
      ∧ ((∀ x ∈ next, x.Smooth s b) ∧ mode.Reads b
        ∨ Opening s.config mode b next) := by
  cases h with
  | glideOff hmode => exact absurd hmode hs.mode
  | swingOff hmode => exact absurd hmode hs.mode
  | @strideOff _ d n _ hd hpos =>
      have hsteps : stepsOf d = n.toNat := by
        rw [stepsOf, hd]
      obtain ⟨k, hk⟩ : ∃ k, n.toNat = k + 1 :=
        ⟨n.toNat - 1, by omega⟩
      refine ⟨?_, rfl, .inr ?_⟩
      · rw [← plans_move hproper, hsteps]
      · rw [hk]
        exact .walks hread
  | @quarters _ _ d h _ hturns hturn =>
      refine ⟨?_, rfl, .inl ⟨?_, ?_⟩⟩
      · rcases hturns with rfl | ⟨e, rfl, -⟩
        · exact plans_turn (.inl rfl)
        · exact plans_turn (.inr rfl)
      · simp only [List.forall_mem_cons, List.not_mem_nil, false_implies,
          implies_true, and_true]
        exact ⟨trivial, hs.times.turn, trivial⟩
      · obtain ⟨x, hx⟩ := hs.measured.headings _ (gridTurn_isCardinal hturn)
        refine hread.imp_right fun ha => ?_
        exact ⟨ha.name, ⟨x, Lenient.measure_int hx⟩, ha.message, ha.goal⟩
  | wait hms =>
      obtain ⟨q, hq, hratio⟩ := Walker.waitMs_exact hs.times hproper hms
      refine ⟨plans_wait hratio, rfl, .inl ⟨?_, hread⟩⟩
      simp only [List.forall_mem_cons, List.not_mem_nil, false_implies,
        implies_true, and_true]
      exact ⟨⟨q, hq⟩, trivial, trivial⟩
  | say => exact ⟨plans_say, rfl, .inr (.speaks hread)⟩
  | loop hloop => rcases hloop with rfl | rfl <;> cases hi
  | atGoal => cases hi
  | notAtGoal => cases hi

end

namespace Solo

/-! ## How far a run has come -/

/-- Those of the instructions begun that a run is through with: all of them
    if it is in the middle of none, and all but the last one otherwise. -/
def through (is : Program) (r : Solo) : Program :=
  if r.walker.todo.all Act.isControl then is else is.dropLast

variable [Arithmetic]

/-- A run that began at `t` has come as far as a schedule goes. -/
structure Follows (mode : ObserverMode) (t : Rat) (σ : Schedule) (r : Solo) :
    Prop where
  clock : r.now = .finite (t + σ.span)
  shown : r.events.map (·.time)
    = if mode = .absent then [] else σ.times.map fun d => .finite (t + d)

/-- A run that is somewhere within its program, its agent on a cell of the
    grid: some acts are left to do of an instruction, and then it is decided
    which instruction comes next. -/
structure Amid (columns rows : Int) (head tail : List Act) (r : Solo) :
    Prop where
  goes : r.outcome = none
  todo : r.walker.todo = head ++ tail
  control : ∀ x ∈ tail, x.isControl = true
  running : r.running = true
  cell : r.agent.OnCell columns rows

/-- Nothing can go wrong with what is left to do of the instruction begun
    last, and with it the run will have come as far as all that were begun. -/
structure Settles (s : Scene) (mode : ObserverMode) (t : Rat)
    (columns rows : Int) (is : Program) (head tail : List Act) (σ : Schedule)
    (r : Solo) : Prop extends Amid columns rows head tail r where
  smooth : ∀ x ∈ head, x.Smooth s r.agent
  reads : mode.Reads r.agent
  follows : Follows mode t σ r
  total : σ * plans s.config head = Instruction.schedules s.config is

/-- The first act of an instruction may still fail, and the run has come as
    far as those before it. -/
structure Opens (s : Scene) (mode : ObserverMode) (t : Rat)
    (columns rows : Int) (before : Program) (i : Instruction)
    (head tail : List Act) (r : Solo) : Prop
    extends Amid columns rows head tail r where
  opening : Opening s.config mode r.agent head
  follows : Follows mode t (Instruction.schedules s.config before) r
  total : plans s.config head = i.schedule s.config

/-- A run has come as far as the instructions that it is through with. -/
def Reckons (s : Scene) (mode : ObserverMode) (t : Rat) (is : Program)
    (r : Solo) : Prop :=
  Follows mode t (Instruction.schedules s.config (through is r)) r

variable {s : Scene} {mode : ObserverMode} {t : Rat} {columns rows : Int}
  {is before : Program} {i : Instruction} {head tail rest next : List Act}
  {σ τ : Schedule} {r q : Solo} {act : Act}

namespace Follows

omit [Arithmetic] in
/-- Neither the clock nor what was shown has changed. -/
theorem stays (h : Follows mode t σ r) (hnow : q.now = r.now)
    (hshown : q.shown = r.shown) : Follows mode t σ q := by
  refine ⟨hnow.trans h.clock, ?_⟩
  rw [Solo.events, hshown]
  exact h.shown

omit [Arithmetic] in
/-- A run has done what takes no time and shows nothing. -/
theorem idles (h : Follows mode t σ r) (hnow : q.now = r.now)
    (hshown : q.shown = r.shown) : Follows mode t (σ * 1) q := by
  rw [mul_one]
  exact h.stays hnow hshown

omit [Arithmetic] in
/-- A run has slept. -/
theorem sleeps (h : Follows mode t σ r) {seconds : Rat}
    (hnow : q.now = .finite (t + σ.span + seconds))
    (hshown : q.shown = r.shown) :
    Follows mode t (σ * .pause seconds) q := by
  refine ⟨?_, ?_⟩
  · rw [hnow, Schedule.mul_span, ← add_assoc]
    rfl
  · rw [Solo.events, hshown, Schedule.mul_times]
    show r.events.map _ = _
    rw [h.shown]
    exact congrArg _ (congrArg _ (List.append_nil _).symm)

omit [Arithmetic] in
/-- A run has shown a snapshot, if anybody looks. -/
theorem shows (h : Follows mode t σ r) (hnow : q.now = r.now)
    (hshown : q.shown.map (·.time) = if mode = .absent then
        r.shown.map (·.time)
      else r.now :: r.shown.map (·.time)) :
    Follows mode t (σ * .shot) q := by
  have hevents := h.shown
  rw [Solo.events, List.map_reverse] at hevents
  refine ⟨?_, ?_⟩
  · rw [hnow, h.clock, Schedule.mul_span]
    exact congrArg _ (congrArg _ (add_zero _).symm)
  · rw [Solo.events, List.map_reverse, hshown]
    by_cases habsent : mode = .absent
    · rw [if_pos habsent] at hevents ⊢
      rw [if_pos habsent, hevents]
    · rw [if_neg habsent] at hevents ⊢
      rw [if_neg habsent, List.reverse_cons, hevents, h.clock,
        Schedule.mul_times, List.map_append]
      simp [Schedule.shot]

end Follows

/-! ## One act -/

/-- The next act, when a step of a walk leads somewhere. -/
theorem next_stride {left : Nat} {p : Point} {b : Agent}
    (htodo : r.walker.todo = .stride (left + 1) :: rest)
    (hp : gridStep s.config r.agent.position r.agent.heading = .ok p)
    (hb : { r.agent with position := p.position }.latchGoal s.goal = .ok b) :
    r.next s = r.walker.goOn b
      (.emit :: .pause s.config.stepMs :: .check :: .stride left :: rest)
      [] := by
  simp only [next, Walker.step, htodo, hp, Walker.goOnWith, Walker.moveTo,
    Walker.arrive, hb, operate, Except.mapError]

/-- A snapshot that is due is shown, if anybody looks and the agent can be
    shown. -/
theorem step_shot (hnone : r.outcome = none)
    (htodo : r.walker.todo = .emit :: rest)
    (hsnap : mode = .absent ∨ ∃ z, Snapshot.ofAgent r.agent = .ok z) :
    ∃ shown, r.step s (.quiet mode) = { r with
        walker := { r.walker with todo := rest }, shown := shown }
      ∧ shown.map (·.time) = if mode = .absent then r.shown.map (·.time)
        else r.now :: r.shown.map (·.time) := by
  rw [step_eq hnone, next_emit htodo]
  by_cases habsent : mode = .absent
  · subst habsent
    exact ⟨r.shown, rfl, rfl⟩
  · obtain ⟨z, hz⟩ := hsnap.resolve_left habsent
    refine ⟨⟨r.now, z⟩ :: r.shown, ?_, ?_⟩
    · cases mode with
      | absent => exact absurd rfl habsent
      | _ => simp [answer, observe, await, Observer.quiet, hz, hnone]
    · rw [if_neg habsent]
      rfl

namespace Settles

/-- Between two instructions the run has come as far as all that it has
    begun. -/
theorem caughtUp (h : Settles s mode t columns rows is [] tail σ r) :
    Follows mode t (Instruction.schedules s.config is) r := by
  rw [← h.total, plans_nil, mul_one]
  exact h.follows

/-- While something is left to do of an instruction the run is in the middle
    of it. -/
theorem amid (h : Settles s mode t columns rows is (act :: head) tail σ r) :
    r.walker.todo.all Act.isControl = false ∧ r.leaf? = none := by
  have hsmooth : act.Smooth s r.agent := h.smooth _ (List.mem_cons_self ..)
  refine ⟨?_, leaf?_none h.todo ?_⟩
  · rw [h.todo]
    cases act with
    | perform i => exact hsmooth.elim
    | pass left body => exact hsmooth.elim
    | _ => rfl
  · rintro i rfl
    exact hsmooth.elim

/-- An act has been done of an instruction, and others may have taken its
    place. -/
theorem on (h : Settles s mode t columns rows is (act :: head) tail σ r)
    (hgoes : q.outcome = none)
    (htodo : q.walker.todo = next ++ (head ++ tail))
    (hrunning : q.running = true) (hcell : q.agent.OnCell columns rows)
    (hheading : q.agent.heading = r.agent.heading)
    (hsmooth : ∀ x ∈ next, x.Smooth s q.agent) (hreads : mode.Reads q.agent)
    (hfollows : Follows mode t τ q)
    (hplan : τ * plans s.config next = σ * act.plan s.config) :
    Settles s mode t columns rows is (next ++ head) tail τ q := by
  refine ⟨⟨hgoes, ?_, h.control, hrunning, hcell⟩, ?_, hreads, hfollows, ?_⟩
  · rw [htodo, List.append_assoc]
  · intro x hx
    rcases List.mem_append.1 hx with hx | hx
    · exact hsmooth x hx
    · exact (h.smooth x (List.mem_cons_of_mem _ hx)).congr hheading
  · rw [plans_append, ← mul_assoc, hplan, mul_assoc, ← plans_cons]
    exact h.total

/-- An act has been done, and nothing has taken its place. -/
theorem done (h : Settles s mode t columns rows is (act :: head) tail σ r)
    (hgoes : q.outcome = none) (htodo : q.walker.todo = head ++ tail)
    (hrunning : q.running = true) (hcell : q.agent.OnCell columns rows)
    (hheading : q.agent.heading = r.agent.heading)
    (hreads : mode.Reads q.agent)
    (hfollows : Follows mode t (σ * act.plan s.config) q) :
    Settles s mode t columns rows is head tail (σ * act.plan s.config) q := by
  show Settles s mode t columns rows is ([] ++ head) tail _ q
  exact h.on hgoes htodo hrunning hcell hheading (List.forall_mem_nil _)
    hreads hfollows (mul_one _)

/-- A step of a walk is taken. -/
theorem strides {left : Nat} (hs : s.Timed columns rows)
    (h : Settles s mode t columns rows is (.stride (left + 1) :: head) tail σ
      r) :
    Settles s mode t columns rows is
      ([.emit, .pause s.config.stepMs, .check, .stride left] ++ head) tail σ
      (r.step s (.quiet mode)) := by
  obtain ⟨z, ⟨x, y, rfl, -⟩, hplace⟩ := h.cell
  have hsmooth : (Act.stride left).Smooth s r.agent :=
    h.smooth (.stride (left + 1)) (List.mem_cons_self ..)
  obtain ⟨p, hp⟩ := hsmooth x y
  have hstep : gridStep s.config r.agent.position r.agent.heading = .ok p := by
    rw [hplace]
    exact hp
  have hcell : p.IsCell columns rows := gridStep_isCell hs.counted hp
  obtain ⟨u, v, rfl, -⟩ := id hcell
  obtain ⟨b, hb⟩ : ∃ b, Agent.latchGoal { r.agent with
      position := Point.position (.int u, .int v) } s.goal = .ok b :=
    Agent.latchGoal_numbers hs.goal rfl rfl rfl
  rw [step_goOn h.goes (next_stride h.todo hstep hb)]
  obtain ⟨g, hg⟩ := Agent.latchGoal_ok hb
  refine h.on h.goes rfl h.running ⟨_, hcell, by rw [hg]⟩ ?_ ?_ ?_
    (h.follows.stays rfl rfl) (congrArg (σ * ·) (plans_stride left))
  · rw [hg]
  · simp only [List.forall_mem_cons, List.not_mem_nil, false_implies,
      implies_true, and_true]
    exact ⟨trivial, hs.times.step, trivial, hsmooth.congr (by rw [hg])⟩
  · refine h.reads.imp_right fun ha => Agent.Readable.latch ?_ hb
    exact ⟨ha.name, ha.heading, ha.message, ha.goal⟩

variable [Arithmetic.Exact]

/-- What nothing can go wrong with goes on. -/
theorem step (hs : s.Timed columns rows)
    (h : Settles s mode t columns rows is (act :: head) tail σ r) :
    ∃ head' τ, Settles s mode t columns rows is head' tail τ
      (r.step s (.quiet mode)) := by
  have hsmooth : act.Smooth s r.agent := h.smooth _ (List.mem_cons_self ..)
  cases act with
  | check =>
      rw [step_check h.goes h.running h.todo]
      exact ⟨_, _, h.done h.goes rfl h.running h.cell rfl h.reads
        (h.follows.idles rfl rfl)⟩
  | emit =>
      have hsnap : mode = .absent ∨ ∃ z, Snapshot.ofAgent r.agent = .ok z :=
        h.reads.imp_right fun ha => ha.snapshot hs.measured h.cell
      obtain ⟨shown, heq, hshown⟩ :=
        step_shot (s := s) h.goes h.todo hsnap
      rw [heq]
      exact ⟨_, _, h.done h.goes rfl h.running h.cell rfl h.reads
        (h.follows.shows rfl hshown)⟩
  | hush =>
      rw [step_goOn h.goes (next_hush h.todo)]
      refine ⟨_, _, h.done h.goes rfl h.running h.cell rfl ?_
        (h.follows.idles rfl rfl)⟩
      exact h.reads.imp_right fun ha =>
        ⟨ha.name, ha.heading, .inl rfl, ha.goal⟩
  | pause ms =>
      obtain ⟨q, hq⟩ := hsmooth
      obtain ⟨x, hx, hseconds⟩ := Walker.pauseSeconds_exact hq
      rw [step_sleep h.goes (next_pause h.todo hx)]
      refine ⟨_, _, h.done h.goes rfl h.running h.cell rfl h.reads
        (h.follows.sleeps ?_ rfl)⟩
      show Time.after r.now x = _
      rw [h.follows.clock]
      exact Time.after_denotes hseconds secondsOf_nonneg
  | stride left =>
      cases left with
      | zero =>
          have hnext : r.next s = r.walker.goOn r.agent (head ++ tail) [] := by
            rw [next, Walker.step, h.todo]
            rfl
          rw [step_goOn h.goes hnext]
          exact ⟨_, _, h.done h.goes rfl h.running h.cell rfl h.reads
            (h.follows.idles rfl rfl)⟩
      | succ left => exact ⟨_, _, h.strides hs⟩
  | _ => exact hsmooth.elim

end Settles

/-- Nothing has happened in a step that ended the run. -/
structure Stops (r q : Solo) : Prop where
  ended : q.outcome.isSome = true
  now : q.now = r.now
  shown : q.shown = r.shown

namespace Opens

/-- The run is in the middle of an instruction. -/
theorem amid (h : Opens s mode t columns rows before i head tail r) :
    r.walker.todo.all Act.isControl = false ∧ r.leaf? = none := by
  have hopening := h.opening
  have htodo := h.todo
  generalize r.agent = a at hopening
  cases hopening with
  | walks => exact ⟨by rw [htodo]; rfl, leaf?_none htodo nofun⟩
  | speaks => exact ⟨by rw [htodo]; rfl, leaf?_none htodo nofun⟩

/-- With a first act that does not fail nothing can go wrong any more. -/
theorem settled (h : Opens s mode t columns rows before i head tail r)
    (hsmooth : ∀ x ∈ head, x.Smooth s r.agent) (hreads : mode.Reads r.agent) :
    Settles s mode t columns rows (before ++ [i]) head tail
      (Instruction.schedules s.config before) r := by
  refine ⟨h.toAmid, hsmooth, hreads, h.follows, ?_⟩
  rw [Instruction.schedules_append, h.total]

/-- The first step of a walk leads somewhere, and then all of them do, or it
    fails. -/
theorem walks {n : Nat} (hs : s.Timed columns rows)
    (h : Opens s mode t columns rows before i [.stride (n + 1)] tail r)
    (hreads : mode.Reads r.agent) :
    Settles s mode t columns rows (before ++ [i]) [.stride (n + 1)] tail
        (Instruction.schedules s.config before) r
      ∨ Stops r (r.step s (.quiet mode))
        ∧ (r.step s (.quiet mode)).walker.todo = .stride (n + 1) :: tail := by
  cases hp : gridStep s.config r.agent.position r.agent.heading with
  | ok p =>
      refine .inl (h.settled (List.forall_mem_singleton.2 ?_) hreads)
      exact gridStep_again hs.counted hp
  | error f =>
      have hnext : r.next s = r.walker.failed r.agent [] f := by
        simp only [next, Walker.step, h.todo, List.cons_append, hp,
          Walker.goOnWith]
      rw [step_fail h.goes hnext]
      exact .inr ⟨⟨rfl, rfl, rfl⟩, h.todo⟩

/-- A message is shown, and then it can be taken down, or it is no text. -/
theorem speaks (h : Opens s mode t columns rows before i
      [.emit, .pause s.config.sayMs, .hush, .emit, .check] tail r)
    (hs : s.Timed columns rows) {a : Agent} {text : Value}
    (hagent : r.agent = { a with message := text }) (hreads : mode.Reads a) :
    Settles s mode t columns rows (before ++ [i])
        [.emit, .pause s.config.sayMs, .hush, .emit, .check] tail
        (Instruction.schedules s.config before) r
      ∨ Stops r (r.step s (.quiet mode))
        ∧ (r.step s (.quiet mode)).walker.todo
          = .pause s.config.sayMs :: .hush :: .emit :: .check :: tail := by
  have hsmooth : ∀ x ∈ [.emit, .pause s.config.sayMs, .hush, .emit, .check],
      Act.Smooth s r.agent x := by
    simp only [List.forall_mem_cons, List.not_mem_nil, false_implies,
      implies_true, and_true]
    exact ⟨trivial, hs.times.say, trivial, trivial, trivial⟩
  by_cases habsent : mode = .absent
  · exact .inl (h.settled hsmooth (.inl habsent))
  · have ha : a.Readable := hreads.resolve_left habsent
    cases hsnap : Snapshot.ofAgent r.agent with
    | ok z =>
        -- what has been shown was text, or nothing
        refine .inl (h.settled hsmooth (.inr ?_))
        obtain ⟨-, -, -, hmessage, -⟩ := Snapshot.ofAgent_ok.1 hsnap
        rw [hagent] at hmessage ⊢
        exact ⟨ha.name, ha.heading, Lenient.text?_ok hmessage, ha.goal⟩
    | error ms =>
        rw [step_eq h.goes, next_emit h.todo]
        refine .inr ⟨⟨?_, ?_, ?_⟩, ?_⟩ <;> cases mode with
        | absent => exact absurd rfl habsent
        | _ => simp [answer, observe, Observer.quiet, hsnap]

variable [Arithmetic.Exact]

/-- An instruction that has begun goes on, or it fails at its first act and
    the run has come as far as those before it. -/
theorem step (hs : s.Timed columns rows)
    (h : Opens s mode t columns rows before i head tail r) :
    (∃ head' τ, Settles s mode t columns rows (before ++ [i]) head' tail τ
        (r.step s (.quiet mode)))
      ∨ (r.step s (.quiet mode)).outcome.isSome = true
        ∧ Reckons s mode t (before ++ [i]) (r.step s (.quiet mode)) := by
  have hreckons : Stops r (r.step s (.quiet mode)) →
      (r.step s (.quiet mode)).walker.todo.all Act.isControl = false →
      Reckons s mode t (before ++ [i]) (r.step s (.quiet mode)) := by
    intro hstops hmidst
    rw [Reckons, through, hmidst, if_neg Bool.false_ne_true,
      List.dropLast_concat]
    exact h.follows.stays hstops.now hstops.shown
  have hopening := h.opening
  generalize ha : r.agent = a at hopening
  cases hopening with
  | walks hreads =>
      rcases h.walks hs (ha ▸ hreads) with hsettles | ⟨hstops, htodo⟩
      · exact .inl (hsettles.step hs)
      · exact .inr ⟨hstops.ended, hreckons hstops (by rw [htodo]; rfl)⟩
  | speaks hreads =>
      rcases h.speaks hs ha hreads with hsettles | ⟨hstops, htodo⟩
      · exact .inl (hsettles.step hs)
      · exact .inr ⟨hstops.ended, hreckons hstops (by rw [htodo]; rfl)⟩

end Opens

end Solo

end BlockStage
