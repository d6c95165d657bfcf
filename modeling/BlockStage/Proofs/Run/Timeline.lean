import BlockStage.Proofs.Run.Settling

/-! # The timeline of a run — every leaf takes its time and no other

    However deep an instruction without a body lies in loops and conditions,
    on the grid it begins where the one before it has ended, and it takes the
    time and shows the snapshots of its own schedule; nothing else takes time
    or shows anything.  So a run that nobody stops is on schedule until it is
    over (`Solo.Keeps`): between two instructions and at its end it has come
    exactly as far as the instructions that it has completed take, one after
    the other (`Solo.runs_on_schedule`).  An instruction that fails has taken
    no time and shown nothing, and is none of them. -/

namespace BlockStage

open Act

namespace Solo

/-! ## What a run has completed -/

/-- A run about to start at some time, with the flag up. -/
def startAt (p : Program) (a : Agent) (t : Rat) : Solo :=
  { Solo.start p a true with now := .finite t }

variable [Arithmetic]

/-- The instructions without a body that a run begins in its first steps and
    that do not fail at once. -/
def accepted (s : Scene) (o : Observer) (r : Solo) : Nat → Program
  | 0 => []
  | k + 1 =>
      accepted s o r k
        ++ if (run s o (k + 1) r).outcome.isNone then
          (run s o k r).leaf?.toList
        else []

/-- The instructions without a body that a run completes in its first
    steps. -/
def completed (s : Scene) (o : Observer) (r : Solo) (n : Nat) : Program :=
  (run s o n r).through (accepted s o r n)

/-! ## Runs on schedule -/

/-- A run that goes on is on schedule. -/
inductive OnSchedule (s : Scene) (mode : ObserverMode) (t : Rat)
    (columns rows : Int) : Program → Solo → Prop
  | settles {is : Program} {head tail : List Act} {σ : Schedule} {r : Solo} :
      Settles s mode t columns rows is head tail σ r →
      OnSchedule s mode t columns rows is r
  | opens {before : Program} {i : Instruction} {head tail : List Act}
      {r : Solo} : Opens s mode t columns rows before i head tail r →
      OnSchedule s mode t columns rows (before ++ [i]) r

variable {s : Scene} {mode : ObserverMode} {t : Rat} {columns rows : Int}
  {is before : Program} {i : Instruction} {head tail rest next : List Act}
  {σ τ : Schedule} {r q : Solo} {act : Act}

/-! ## One step -/

omit [Arithmetic] in
/-- A run that is over before it is in the middle of an instruction has come
    as far as all that it has begun. -/
theorem reckons_between
    (h : Follows mode t (Instruction.schedules s.config is) r)
    (hcontrol : ∀ x ∈ tail, x.isControl = true)
    (htodo : q.walker.todo = tail) (hstops : Stops r q) :
    Reckons s mode t is q := by
  have hbetween : q.walker.todo.all Act.isControl = true := by
    rw [htodo]
    exact List.all_eq_true.2 hcontrol
  rw [Reckons, through, if_pos hbetween]
  exact h.stays hstops.now hstops.shown

/-- Where it is decided which instruction comes next a step that does not go
    on changes nothing. -/
theorem stops_between (hcontrol : act.isControl = true)
    (hnone : r.outcome = none) (hup : r.running = true)
    (htodo : r.walker.todo = act :: rest)
    (hover : (r.step s (.quiet mode)).outcome.isSome = true) :
    Stops r (r.step s (.quiet mode))
      ∧ (r.step s (.quiet mode)).walker.todo = act :: rest := by
  rw [step_eq hnone] at hover ⊢
  cases next_cases s (.quiet mode) r with
  | finishes hempty =>
      rw [htodo] at hempty
      cases hempty
  | halts hdown =>
      rw [hup] at hdown
      cases hdown
  | fails hsig hsame =>
      rw [hsig] at hover ⊢
      exact ⟨⟨hover, rfl, rfl⟩, hsame.trans htodo⟩
  | advances hadv =>
      -- an advance would have gone on
      have hsig : (r.next s).signal = .proceed :=
        Advance.proceeds hcontrol (htodo ▸ hadv)
      rw [hsig] at hover
      change r.outcome.isSome = true at hover
      rw [hnone] at hover
      cases hover

/-- A run on its way is on schedule with what it has begun, and one that is
    over has come as far as those of `is` go that it is through with. -/
structure Keeps (s : Scene) (mode : ObserverMode) (t : Rat)
    (columns rows : Int) (begun is : Program) (r : Solo) : Prop where
  goes : r.outcome = none → OnSchedule s mode t columns rows begun r
  ended : r.outcome.isSome = true → Reckons s mode t is r

/-- A run on schedule is not over. -/
theorem OnSchedule.unfinished (h : OnSchedule s mode t columns rows is r) :
    r.outcome = none := by
  cases h with
  | settles h => exact h.goes
  | opens h => exact h.goes

namespace Keeps

theorem onSchedule (h : OnSchedule s mode t columns rows is r) :
    Keeps s mode t columns rows is before r := by
  refine ⟨fun _ => h, fun hover => ?_⟩
  rw [h.unfinished] at hover
  cases hover

theorem reckoned (h : Reckons s mode t is r)
    (hover : r.outcome.isSome = true) :
    Keeps s mode t columns rows before is r := by
  refine ⟨fun hgo => ?_, fun _ => h⟩
  rw [hgo] at hover
  cases hover

end Keeps

namespace Settles

/-- To decide which instruction comes next takes no time. -/
theorem decides (h : Settles s mode t columns rows is [] (act :: tail) σ r)
    (hnever : ∀ i, act = .perform i → i.isLeaf = false)
    (hgo : (r.step s (.quiet mode)).outcome = none) :
    Settles s mode t columns rows is [] ((r.only s act).walker.todo ++ tail) σ
      (r.step s (.quiet mode)) := by
  obtain ⟨hact, htail⟩ := List.forall_mem_cons.1 h.control
  have hadv := only_advances h.todo h.goes hgo
  obtain ⟨hproceeds, hsame, hcontrol⟩ := hadv.control hact hnever
  obtain ⟨hagent, hwalker, -⟩ :=
    step_spec (s := s) (o := .quiet mode) h.goes
  rw [next_only h.todo] at hagent hwalker
  obtain ⟨hnow, hrunning, hshown⟩ := step_proceeds (s := s)
    (o := .quiet mode) h.goes (by rw [next_only h.todo]; exact hproceeds)
  have hagent : (r.step s (.quiet mode)).agent = r.agent :=
    hagent.trans hsame
  refine ⟨⟨hgo, ?_, ?_, hrunning.trans h.running, ?_⟩,
    List.forall_mem_nil _, ?_, h.follows.stays hnow hshown, h.total⟩
  · rw [hwalker]
    rfl
  · intro x hx
    rcases List.mem_append.1 hx with hx | hx
    · exact hcontrol x hx
    · exact htail x hx
  · rw [hagent]
    exact h.cell
  · rw [hagent]
    exact h.reads

/-- A run with nothing left to do finishes on schedule. -/
theorem finishes (h : Settles s mode t columns rows is [] [] σ r) :
    Keeps s mode t columns rows (is ++ r.leaf?.toList) is
      (r.step s (.quiet mode)) := by
  have hnext : r.next s = ⟨r.agent, r.walker, [], .finish⟩ := by
    rw [next, Walker.step, h.todo]
    rfl
  rw [step_eq h.goes, hnext]
  exact .reckoned
    (reckons_between h.caughtUp h.control h.todo ⟨rfl, rfl, rfl⟩) rfl

variable [Arithmetic.Exact]

/-- An instruction without a body that has begun is on schedule. -/
theorem leaf (hs : s.Timed columns rows)
    (h : Settles s mode t columns rows is [] (.perform i :: tail) σ r)
    (hi : i.isLeaf = true) (hgo : (r.step s (.quiet mode)).outcome = none) :
    OnSchedule s mode t columns rows (is ++ [i])
      (r.step s (.quiet mode)) := by
  have hadv := only_advances h.todo h.goes hgo
  have hproceeds := Advance.proceeds rfl hadv
  have hproper : i.Proper := Walker.begins_proper hs.mode rfl hproceeds
  obtain ⟨hplan, hplace, hnext⟩ := hadv.begins hs hi hproper h.reads
  obtain ⟨hagent, hwalker, -⟩ :=
    step_spec (s := s) (o := .quiet mode) h.goes
  rw [next_only h.todo] at hagent hwalker
  obtain ⟨hnow, hrunning, hshown⟩ := step_proceeds (s := s)
    (o := .quiet mode) h.goes (by rw [next_only h.todo]; exact hproceeds)
  have hfollows : Follows mode t (Instruction.schedules s.config is)
      (r.step s (.quiet mode)) := h.caughtUp.stays hnow hshown
  have hamid : Amid columns rows (r.only s (.perform i)).walker.todo tail
      (r.step s (.quiet mode)) := by
    refine ⟨hgo, ?_, (List.forall_mem_cons.1 h.control).2,
      hrunning.trans h.running, ?_⟩
    · rw [hwalker]
      rfl
    · obtain ⟨z, hz, hcell⟩ := h.cell
      refine ⟨z, hz, ?_⟩
      rw [hagent]
      exact hplace.trans hcell
  have hagent : (r.step s (.quiet mode)).agent
      = (r.only s (.perform i)).agent := hagent
  rcases hnext with ⟨hsmooth, hreads⟩ | hopening
  · rw [← hagent] at hsmooth hreads
    refine .settles ⟨hamid, hsmooth, hreads, hfollows, ?_⟩
    rw [hplan, Instruction.schedules_append]
  · rw [← hagent] at hopening
    exact .opens ⟨hamid, hopening, hfollows, hplan⟩

/-- A step from where it is decided which instruction comes next. -/
theorem between (hs : s.Timed columns rows)
    (h : Settles s mode t columns rows is [] (act :: tail) σ r) :
    Keeps s mode t columns rows (is ++ r.leaf?.toList) is
      (r.step s (.quiet mode)) := by
  obtain ⟨hact, -⟩ := List.forall_mem_cons.1 h.control
  refine ⟨fun hgo => ?_, fun hover => ?_⟩
  · by_cases hleaf : ∃ i, act = .perform i ∧ i.isLeaf = true
    · obtain ⟨i, rfl, hi⟩ := hleaf
      rw [leaf?_some h.goes h.todo hi]
      exact h.leaf hs hi hgo
    · have hnever : ∀ i, act = .perform i → i.isLeaf = false := by
        intro i hi
        exact Bool.eq_false_iff.2 fun hyes => hleaf ⟨i, hi, hyes⟩
      rw [leaf?_none h.todo hnever, Option.toList_none, List.append_nil]
      exact .settles (h.decides hnever hgo)
  · obtain ⟨hstops, htodo⟩ :=
      stops_between hact h.goes h.running h.todo hover
    exact reckons_between h.caughtUp h.control htodo hstops

end Settles

variable [Arithmetic.Exact]

/-- A step of a run on schedule. -/
theorem OnSchedule.step (hs : s.Timed columns rows)
    (h : OnSchedule s mode t columns rows is r) :
    Keeps s mode t columns rows (is ++ r.leaf?.toList) is
      (r.step s (.quiet mode)) := by
  cases h with
  | opens h =>
      rw [h.amid.2, Option.toList_none, List.append_nil]
      rcases h.step hs with ⟨head', τ, hsettles⟩ | ⟨hover, hreckons⟩
      · exact .onSchedule (.settles hsettles)
      · exact .reckoned hreckons hover
  | @settles _ head tail σ _ h =>
      cases head with
      | nil =>
          cases tail with
          | nil => exact h.finishes
          | cons act tail => exact h.between hs
      | cons act head =>
          obtain ⟨head', τ, hsettles⟩ := h.step hs
          rw [h.amid.2, Option.toList_none, List.append_nil]
          exact .onSchedule (.settles hsettles)

/-! ## The run as a whole -/

variable {p : Program} {a : Agent} {point : Point}

/-- A run begins on schedule, or it is over at once if its agent cannot be
    brought onto the grid. -/
theorem Keeps.starts (hs : s.Timed columns rows) (ha : mode.Reads a) :
    Keeps s mode t columns rows [] []
      ((startAt p a t).step s (.quiet mode)) := by
  -- nothing has been shown and no time has passed
  have hfollows : Follows mode t 1 (startAt p a t) :=
    ⟨congrArg Scalar.finite (add_zero t).symm, (ite_self _).symm⟩
  cases hplaced : clampPosition s.config a.position with
  | ok point =>
      have hnext : (startAt p a t).next s
          = (Walker.start p).goOn { a with position := point.position }
            (.check :: p.map .perform) [] := by
        show Walker.goOnWith _ _ _
          (operate (clampPosition s.config a.position)) _ = _
        rw [hplaced]
        rfl
      have hadv : Advance s (.finite t) a (Walker.start p).todo
          { a with position := point.position } (.check :: p.map .perform)
          .proceed := .place hplaced
      have hcell := hadv.onCell hs.measured (.inr (Walker.start_fresh p))
      rw [step_goOn rfl hnext]
      refine .onSchedule (@OnSchedule.settles _ s mode t columns rows []
        [.check] (p.map .perform) 1 _ ⟨⟨rfl, rfl, ?_, rfl, hcell⟩, ?_, ?_,
        hfollows.stays rfl rfl, ?_⟩)
      · intro x hx
        obtain ⟨i, -, rfl⟩ := List.mem_map.1 hx
        rfl
      · intro x hx
        obtain rfl := List.mem_singleton.1 hx
        trivial
      · exact ha.imp_right fun ha =>
          ⟨ha.name, ha.heading, ha.message, ha.goal⟩
      · rw [plans_cons, plans_nil, one_mul, mul_one]
        rfl
  | error e =>
      have hnext : (startAt p a t).next s
          = (Walker.start p).failed a [] (.operand e) := by
        show Walker.goOnWith _ _ _
          (operate (clampPosition s.config a.position)) _ = _
        rw [hplaced]
        rfl
      rw [step_fail rfl hnext]
      exact .reckoned (hfollows.stays rfl rfl) rfl

/-- From its first step on a run is on schedule, until it is over; and then it
    has come as far as the instructions that it is through with. -/
theorem Keeps.run (hs : s.Timed columns rows) (ha : mode.Reads a)
    (p : Program) (t : Rat) (k : Nat) :
    Keeps s mode t columns rows
      (accepted s (.quiet mode) (startAt p a t) (k + 1))
      (accepted s (.quiet mode) (startAt p a t) (k + 1))
      (Solo.run s (.quiet mode) (k + 1) (startAt p a t)) := by
  induction k with
  | zero =>
      have hnone : accepted s (.quiet mode) (startAt p a t) 1 = [] :=
        ite_self _
      rw [hnone, run_succ]
      exact .starts hs ha
  | succ k ih =>
      rw [accepted]
      cases hnone : (Solo.run s (.quiet mode) (k + 1)
          (startAt p a t)).outcome with
      | some outcome =>
          have hover : (Solo.run s (.quiet mode) (k + 1)
              (startAt p a t)).outcome.isSome = true := by
            rw [hnone]
            rfl
          rw [run_over hover (Nat.le_succ (k + 1)), hnone, Option.isNone_some,
            if_neg Bool.false_ne_true, List.append_nil]
          exact ih
      | none =>
          have hstep := (ih.goes hnone).step hs
          rw [← run_succ] at hstep
          cases hend : (Solo.run s (.quiet mode) (k + 1 + 1)
              (startAt p a t)).outcome with
          | none =>
              rw [Option.isNone_none, if_pos rfl]
              exact .onSchedule (hstep.goes hend)
          | some outcome =>
              have hover : (Solo.run s (.quiet mode) (k + 1 + 1)
                  (startAt p a t)).outcome.isSome = true := by
                rw [hend]
                rfl
              rw [Option.isNone_some, if_neg Bool.false_ne_true,
                List.append_nil]
              exact .reckoned (hstep.ended hover) hover

omit [Arithmetic.Exact] in
/-- A run on schedule is between two instructions and has come as far as all
    that it has begun, or it is in the middle of one. -/
theorem OnSchedule.between_or_amid
    (h : OnSchedule s mode t columns rows is r) :
    r.walker.todo.all Act.isControl = true ∧ Reckons s mode t is r
      ∨ r.walker.todo.all Act.isControl = false ∧ r.leaf? = none := by
  cases h with
  | opens h => exact .inr h.amid
  | @settles _ head tail σ _ h =>
      cases head with
      | nil =>
          have hbetween : r.walker.todo.all Act.isControl = true := by
            rw [h.todo]
            exact List.all_eq_true.2 h.control
          refine .inl ⟨hbetween, ?_⟩
          rw [Reckons, through, if_pos hbetween]
          exact h.caughtUp
      | cons act head => exact .inr h.amid

/-! ## Each instruction -/

/-- A run that began at `t` has taken as long as some instructions do, one
    after the other, and has shown its snapshots when they do, if anybody
    looked. -/
structure OnTime (c : Config) (mode : ObserverMode) (t : Rat) (is : Program)
    (r : Solo) : Prop where
  clock : r.now = .finite (t + Instruction.duration c is)
  shown : r.events.map (·.time) = if mode = .absent then []
    else (Instruction.timeline c t is).map .finite

omit [Arithmetic] [Arithmetic.Exact] in
/-- What follows the schedule of instructions is on time. -/
theorem Follows.onTime {c : Config}
    (h : Follows mode t (Instruction.schedules c is) r) :
    OnTime c mode t is r := by
  refine ⟨?_, ?_⟩
  · rw [h.clock, Instruction.schedules_span]
  · rw [h.shown, Instruction.schedules_timeline, List.map_map]
    rfl

/-- A run that is over, or is between two instructions. -/
def Rests (r : Solo) : Prop :=
  r.outcome.isSome = true ∨ r.walker.todo.all Act.isControl = true

/-- A run that rests is on time. -/
theorem onTime_rests (hs : s.Timed columns rows) (ha : mode.Reads a)
    (p : Program) (t : Rat) {k : Nat}
    (hrests : (run s (.quiet mode) (k + 1) (startAt p a t)).Rests) :
    OnTime s.config mode t (completed s (.quiet mode) (startAt p a t) (k + 1))
      (run s (.quiet mode) (k + 1) (startAt p a t)) := by
  have hkeeps := Keeps.run hs ha p t k
  cases hnone : (run s (.quiet mode) (k + 1) (startAt p a t)).outcome with
  | some outcome => exact (hkeeps.ended (by rw [hnone]; rfl)).onTime
  | none =>
      have hall := hrests.resolve_left (by rw [hnone]; exact nofun)
      rcases (hkeeps.goes hnone).between_or_amid with ⟨-, hreckons⟩ |
        ⟨hamid, -⟩
      · exact hreckons.onTime
      · rw [hall] at hamid
        cases hamid

/-- A run on its way comes to rest before it begins another instruction. -/
theorem comes_to_rest (hs : s.Timed columns rows) (ha : mode.Reads a)
    (p : Program) (t : Rat) (k : Nat) :
    ∃ m ≥ k, (run s (.quiet mode) (m + 1) (startAt p a t)).Rests
      ∧ accepted s (.quiet mode) (startAt p a t) (m + 1)
        = accepted s (.quiet mode) (startAt p a t) (k + 1) := by
  have hends := run_ends (s := s) (o := .quiet mode) (r := startAt p a t)
    hs.mode (Walker.start_grounded p)
  generalize cost s.ceiling (startAt p a t).walker.todo + 1 = last at hends
  -- the induction is on the steps that are left until the run is over
  generalize hleft : last - k = left
  induction left generalizing k with
  | zero =>
      refine ⟨k, le_rfl, .inl ?_, rfl⟩
      rw [run_over hends (by omega)]
      exact hends
  | succ left ih =>
      have hkeeps := Keeps.run hs ha p t k
      cases hnone : (run s (.quiet mode) (k + 1) (startAt p a t)).outcome with
      | some outcome => exact ⟨k, le_rfl, .inl (by rw [hnone]; rfl), rfl⟩
      | none =>
          rcases (hkeeps.goes hnone).between_or_amid with ⟨hbetween, -⟩ |
            ⟨-, hleaf⟩
          · exact ⟨k, le_rfl, .inr hbetween, rfl⟩
          · obtain ⟨m, hm, hrests, hsame⟩ := ih (k + 1) (by omega)
            refine ⟨m, by omega, hrests, ?_⟩
            rw [hsame, accepted, hleaf, Option.toList_none, ite_self,
              List.append_nil]

/-- From where an instruction begins to where it is completed a run takes the
    time of the instruction, and shows its snapshots when they are due, if
    anybody looks. -/
structure Carries (c : Config) (mode : ObserverMode) (i : Instruction)
    (start : Rat) (r q : Solo) : Prop where
  clock : q.now = .finite (start + i.span c)
  shown : q.events.map (·.time) = r.events.map (·.time)
    ++ if mode = .absent then [] else (i.shows c start).map .finite

omit [Arithmetic] [Arithmetic.Exact] in
/-- One more instruction is carried out between two moments on time. -/
theorem OnTime.carries {c : Config} (h : OnTime c mode t is r)
    (h' : OnTime c mode t (is ++ [i]) q) :
    Carries c mode i (t + Instruction.duration c is) r q := by
  refine ⟨?_, ?_⟩
  · rw [h'.clock, Instruction.duration_append, add_assoc]
  · rw [h'.shown, h.shown]
    by_cases habsent : mode = .absent
    · simp only [if_pos habsent, List.append_nil]
    · simp only [if_neg habsent]
      rw [Instruction.timeline_append, List.map_append]

omit [Arithmetic.Exact] in
/-- A run that rests is through with all that it has begun, or it is over and
    is through with all but the last. -/
theorem completed_rests {o : Observer} {k : Nat}
    (hrests : (run s o k r).Rests) :
    completed s o r k = accepted s o r k
      ∨ (run s o k r).outcome.isSome = true
        ∧ completed s o r k = (accepted s o r k).dropLast := by
  rw [completed, through]
  cases hall : (run s o k r).walker.todo.all Act.isControl with
  | true => exact .inl (if_pos rfl)
  | false =>
      refine .inr ⟨hrests.resolve_right ?_, if_neg Bool.false_ne_true⟩
      rw [hall]
      exact Bool.false_ne_true

/-- An instruction that is about to begin is completed next, or the run ends
    in it without it. -/
theorem completes (hs : s.Timed columns rows) (ha : mode.Reads a)
    (p : Program) (t : Rat) {n : Nat}
    (hleaf : (run s (.quiet mode) n (startAt p a t)).leaf? = some i) :
    (run s (.quiet mode) n (startAt p a t)).Rests
      ∧ ∃ m > n, (run s (.quiet mode) m (startAt p a t)).Rests
        ∧ (completed s (.quiet mode) (startAt p a t) m
            = completed s (.quiet mode) (startAt p a t) n ++ [i]
          ∨ (run s (.quiet mode) m (startAt p a t)).outcome.isSome = true
            ∧ completed s (.quiet mode) (startAt p a t) m
              = completed s (.quiet mode) (startAt p a t) n) := by
  obtain ⟨hnone, rest, htodo⟩ := leaf?_eq hleaf
  cases n with
  | zero => cases htodo
  | succ k =>
      have hkeeps := Keeps.run hs ha p t k
      have hbetween : (run s (.quiet mode) (k + 1)
          (startAt p a t)).walker.todo.all Act.isControl = true := by
        rcases (hkeeps.goes hnone).between_or_amid with ⟨hall, -⟩ | ⟨-, hno⟩
        · exact hall
        · rw [hno] at hleaf
          cases hleaf
      have hbefore : completed s (.quiet mode) (startAt p a t) (k + 1)
          = accepted s (.quiet mode) (startAt p a t) (k + 1) := by
        rw [completed, through, if_pos hbetween]
      refine ⟨.inr hbetween, ?_⟩
      rw [hbefore]
      cases hend : (run s (.quiet mode) (k + 1 + 1)
          (startAt p a t)).outcome with
      | some outcome =>
          -- the instruction fails at once
          have hover : (run s (.quiet mode) (k + 1 + 1)
              (startAt p a t)).outcome.isSome = true := by
            rw [hend]
            rfl
          have hup : (run s (.quiet mode) (k + 1)
              (startAt p a t)).running = true := (quiet_keeps rfl rfl _).1
          obtain ⟨-, hsame⟩ := stops_between rfl hnone hup htodo
            (by rw [← run_succ]; exact hover)
          rw [← run_succ, ← htodo] at hsame
          refine ⟨k + 1 + 1, Nat.lt_succ_self _, .inl hover, .inr ⟨hover, ?_⟩⟩
          rw [completed, through, hsame, if_pos hbetween, accepted, hend,
            Option.isNone_some, if_neg Bool.false_ne_true, List.append_nil]
      | none =>
          have hbegun : accepted s (.quiet mode) (startAt p a t) (k + 1 + 1)
              = accepted s (.quiet mode) (startAt p a t) (k + 1) ++ [i] := by
            rw [accepted, hend, hleaf]
            rfl
          obtain ⟨m, hm, hrests, hsame⟩ := comes_to_rest hs ha p t (k + 1)
          refine ⟨m + 1, by omega, hrests, ?_⟩
          have hrest := completed_rests hrests
          rw [hsame, hbegun, List.dropLast_concat] at hrest
          exact hrest

/-- On a grid whose times are calculated without rounding a run that nobody
    stops comes to its end.  By then it has taken exactly as long as the
    instructions that it has completed take one after the other, and has shown
    exactly their snapshots.  Each instruction without a body that is about to
    begin is the next to be completed, in its own time and with its own
    snapshots from where it began, or the run ends in it with no time passed
    and nothing shown. -/
theorem runs_on_schedule (hs : s.Timed columns rows)
    (ha : mode = .absent ∨ a.Readable) (p : Program) (t : Rat) :
    let r n := run s (.quiet mode) n (startAt p a t)
    let done n := completed s (.quiet mode) (startAt p a t) n
    (∃ m, ∀ n ≥ m, (r n).outcome.isSome = true
        ∧ OnTime s.config mode t (done n) (r n))
      ∧ ∀ n i, (r n).leaf? = some i →
        ∃ start, (r n).now = .finite start ∧ ∃ m > n,
          (done m = done n ++ [i]
            ∧ Carries s.config mode i start (r n) (r m))
          ∨ ((r m).outcome.isSome = true ∧ done m = done n
            ∧ (r m).now = (r n).now
            ∧ (r m).events.map (·.time) = (r n).events.map (·.time)) := by
  intro r done
  have hrests : ∀ {n}, (r n).Rests → OnTime s.config mode t (done n) (r n) := by
    intro n hn
    cases n with
    | zero => rcases hn with hn | hn <;> cases hn
    | succ k => exact onTime_rests hs ha p t hn
  constructor
  · have hends := run_ends (s := s) (o := .quiet mode) (r := startAt p a t)
      hs.mode (Walker.start_grounded p)
    refine ⟨cost s.ceiling (startAt p a t).walker.todo + 1, fun n hn => ?_⟩
    have hover : (r n).outcome.isSome = true := by
      show (run s (.quiet mode) n (startAt p a t)).outcome.isSome = true
      rw [run_over hends hn]
      exact hends
    exact ⟨hover, hrests (.inl hover)⟩
  · intro n i hleaf
    obtain ⟨hn, m, hm, hm', hnext⟩ := completes hs ha p t hleaf
    have hnow : OnTime s.config mode t (done n) (r n) := hrests hn
    have hlater : OnTime s.config mode t (done m) (r m) := hrests hm'
    refine ⟨_, hnow.clock, m, hm, ?_⟩
    rcases hnext with hnext | ⟨hover, hnext⟩
    · have hnext : done m = done n ++ [i] := hnext
      rw [hnext] at hlater
      exact .inl ⟨hnext, hnow.carries hlater⟩
    · have hnext : done m = done n := hnext
      rw [hnext] at hlater
      exact .inr ⟨hover, hnext, hlater.clock.trans hnow.clock.symm,
        hlater.shown.trans hnow.shown.symm⟩

end Solo

attribute [local instance] Arithmetic.level

/-- A grid with a goal two cells from the corner, on which no loop may have
    more than two passes. -/
def shortLoops : Scene :=
  ⟨.standard, some (.cell 2 0), .int 2⟩

/-- A walk to the goal in a loop that is cut short, and then a move that is no
    whole number of steps. -/
def brokenStroll : Solo :=
  .startAt [.repeatTimes (.int 3) [.move 1, .wait (.real (.finite (1 / 2)))],
    .ifGoalReached [.say (.str "there")], .turnRight 90,
    .move (.real (.finite (5 / 2))), .say (.str "never")]
    (.atStart (.str "a") [0, 0] 90) 5

/-- Two steps of 280 milliseconds and two waits of half a second, the message
    of 1200 milliseconds and the turn of 168 are completed; the broken move
    takes no time, and what comes after it is not reached. -/
theorem runs_on_schedule_broken :
    (Agent.atStart (.str "a") [0, 0] 90).Readable
      ∧ shortLoops.Timed 10 10
      ∧ (∃ m, ∀ n ≥ m,
        (Solo.run shortLoops (.quiet .present) n brokenStroll).outcome.isSome
          = true
        ∧ Solo.OnTime shortLoops.config .present 5
          (Solo.completed shortLoops (.quiet .present) brokenStroll n)
          (Solo.run shortLoops (.quiet .present) n brokenStroll))
      ∧ (Solo.run shortLoops (.quiet .present) 60 brokenStroll).outcome.isSome
        = true
      ∧ (Solo.completed shortLoops (.quiet .present) brokenStroll 60).length = 6
      ∧ Instruction.duration shortLoops.config
          (Solo.completed shortLoops (.quiet .present) brokenStroll 60)
        = 366 / 125
      ∧ Instruction.timeline shortLoops.config 5
          (Solo.completed shortLoops (.quiet .present) brokenStroll 60)
        = [5, 289 / 50, 289 / 50, 164 / 25, 164 / 25, 194 / 25, 194 / 25] := by
  have hreadable : (Agent.atStart (.str "a") [0, 0] 90).Readable :=
    ⟨⟨_, rfl⟩, ⟨_, rfl⟩, .inl rfl, _, rfl⟩
  have htimed : shortLoops.Timed 10 10 := by
    refine ⟨nofun, ⟨rfl, rfl⟩, ⟨?_, ?_, ?_, ?_⟩, ?_⟩
    · exact ⟨_, Value.denotes_int 280⟩
    · exact ⟨_, Value.denotes_int 168⟩
    · exact ⟨_, Value.denotes_int 1200⟩
    · exact ⟨_, Value.denotes_real Scalar.denotes_finite⟩
    · rintro g ⟨⟩
      rfl
  have hexact : Arithmetic.Exact := Arithmetic.exact_exact _ _
  exact ⟨hreadable, htimed,
    (Solo.runs_on_schedule htimed (.inr hreadable) _ 5).1, by decide +kernel,
    by decide +kernel, by decide +kernel, by decide +kernel⟩

end BlockStage
