import BlockStage.Proofs.Run.Effort
import BlockStage.Proofs.Run.Pacing

/-! # Schedules — how long things take and when they are shown

    On the grid an instruction without a body takes a time of its own and
    shows its snapshots at times of its own, whatever was done before
    (`Instruction.span`, `Instruction.shows`).  A schedule has both, the times
    counted from its beginning; schedules one after the other are multiplied
    (`Schedule`), so that a program has the product of what its instructions
    have (`Instruction.schedules_timeline`), and a move the power of a step
    (`Schedule.step_pow`).  The acts that are left to do of an instruction
    have schedules too, which are used up act by act (`Act.plan`). -/

namespace BlockStage

/-! ## Schedules -/

/-- How long something takes, and when snapshots are shown meanwhile, in
    seconds from its beginning. -/
@[ext]
structure Schedule where
  span : Rat
  times : List Rat

namespace Schedule

instance : Mul Schedule :=
  ⟨fun σ τ => ⟨σ.span + τ.span, σ.times ++ τ.times.map (σ.span + ·)⟩⟩

instance : One Schedule := ⟨⟨0, []⟩⟩

@[simp] theorem mul_span (σ τ : Schedule) :
    (σ * τ).span = σ.span + τ.span := rfl

@[simp] theorem mul_times (σ τ : Schedule) :
    (σ * τ).times = σ.times ++ τ.times.map (σ.span + ·) := rfl

@[simp] theorem one_span : (1 : Schedule).span = 0 := rfl

@[simp] theorem one_times : (1 : Schedule).times = [] := rfl

instance : Monoid Schedule where
  mul_assoc σ τ υ := by
    refine Schedule.ext (add_assoc ..) ?_
    simp [Function.comp_def, add_assoc]
  one_mul σ := by
    refine Schedule.ext (zero_add _) ?_
    simp
  mul_one σ := by
    refine Schedule.ext (add_zero _) ?_
    simp

/-- A snapshot that takes no time. -/
def shot : Schedule := ⟨0, [0]⟩

/-- A pause in which nothing is shown. -/
def pause (seconds : Rat) : Schedule := ⟨seconds, []⟩

/-- So many steps show as many snapshots, one at the beginning of each. -/
theorem step_pow (seconds : Rat) (n : Nat) :
    (shot * pause seconds) ^ n
      = ⟨n * seconds, (List.range n).map fun k : Nat => k * seconds⟩ := by
  induction n with
  | zero =>
      refine Schedule.ext ?_ rfl
      simp
  | succ n ih =>
      rw [pow_succ, ih]
      refine Schedule.ext ?_ ?_
      · simp only [mul_span, shot, pause, Nat.cast_succ]
        ring
      · simp only [mul_times, shot, pause, List.range_succ,
          List.map_append, List.map_cons, List.map_nil, List.append_nil,
          add_zero]

end Schedule

/-! ## What instructions take -/

/-- The ratio that a number stands for. -/
def ratioOf (v : Value) : Rat :=
  match v.number? with
  | some n => n.exact.value
  | none => 0

/-- How many seconds a pause of so many milliseconds takes: none if they are
    negative. -/
def secondsOf (ms : Value) : Rat := max (ratioOf ms) 0 / 1000

namespace Instruction

/-- How many seconds an instruction without a body takes on the grid. -/
def span (c : Config) : Instruction → Rat
  | move d => ratioOf d * secondsOf c.stepMs
  | turnRight _ => secondsOf c.turnMs
  | turnLeft _ => secondsOf c.turnMs
  | wait v => max (ratioOf v * 1000 * ratioOf c.waitScale) 0 / 1000
  | say _ => secondsOf c.sayMs
  | _ => 0

/-- When an instruction without a body that begins at `t` shows its
    snapshots: a move at the beginning of each step, a turn at its beginning,
    a wait at its end, a message at both. -/
def shows (c : Config) (t : Rat) : Instruction → List Rat
  | move d =>
      (List.range (stepsOf d)).map fun k : Nat => t + k * secondsOf c.stepMs
  | turnRight _ => [t]
  | turnLeft _ => [t]
  | wait v => [t + (wait v).span c]
  | say text => [t, t + (say text).span c]
  | _ => []

/-- How many seconds instructions take one after the other. -/
def duration (c : Config) (is : List Instruction) : Rat :=
  (is.map (span c)).sum

/-- When instructions that begin at `t`, one after the other, show their
    snapshots. -/
def timeline (c : Config) (t : Rat) : List Instruction → List Rat
  | [] => []
  | i :: is => i.shows c t ++ timeline c (t + i.span c) is

/-- The schedule of an instruction without a body. -/
def schedule (c : Config) (i : Instruction) : Schedule :=
  ⟨i.span c, i.shows c 0⟩

/-- The schedule of instructions one after the other. -/
def schedules (c : Config) (is : List Instruction) : Schedule :=
  (is.map (schedule c)).prod

variable {c : Config}

/-- An instruction that begins later shows everything as much later. -/
theorem shows_later (i : Instruction) (t : Rat) :
    i.shows c t = (i.shows c 0).map (t + ·) := by
  cases i with
  | move d =>
      simp only [shows, List.map_map, Function.comp_def, zero_add]
  | _ => simp [shows]

theorem schedules_append (is : List Instruction) (i : Instruction) :
    schedules c (is ++ [i]) = schedules c is * i.schedule c := by
  rw [schedules, List.map_append, List.prod_append, List.map_singleton,
    List.prod_singleton]
  rfl

theorem schedules_cons (i : Instruction) (is : List Instruction) :
    schedules c (i :: is) = i.schedule c * schedules c is := by
  rw [schedules, List.map_cons, List.prod_cons]
  rfl

/-- The schedule of a program takes as long as its instructions do. -/
theorem schedules_span (is : List Instruction) :
    (schedules c is).span = duration c is := by
  induction is with
  | nil => rfl
  | cons i is ih =>
      rw [schedules_cons, Schedule.mul_span, ih]
      exact List.sum_cons.symm

/-- The schedule of a program shows its snapshots when its instructions
    do. -/
theorem schedules_timeline (is : List Instruction) (t : Rat) :
    timeline c t is = (schedules c is).times.map (t + ·) := by
  induction is generalizing t with
  | nil => rfl
  | cons i is ih =>
      rw [schedules_cons, Schedule.mul_times, List.map_append, List.map_map,
        timeline, ih, shows_later]
      refine congrArg (_ ++ ·) (List.map_congr_left fun x _ => ?_)
      exact add_assoc ..

theorem duration_append (is : List Instruction) (i : Instruction) :
    duration c (is ++ [i]) = duration c is + i.span c := by
  rw [← schedules_span, ← schedules_span, schedules_append]
  rfl

/-- What comes after some instructions begins when they are done. -/
theorem timeline_append (is : List Instruction) (i : Instruction) (t : Rat) :
    timeline c t (is ++ [i])
      = timeline c t is ++ i.shows c (t + duration c is) := by
  rw [schedules_timeline, schedules_timeline, schedules_append,
    Schedule.mul_times, List.map_append, List.map_map, shows_later,
    schedules_span]
  refine congrArg (_ ++ ·) (List.map_congr_left fun x _ => ?_)
  exact (add_assoc ..).symm

end Instruction

/-! ## What acts take -/

namespace Act

/-- The schedule of an act that belongs to an instruction on the grid. -/
def plan (c : Config) : Act → Schedule
  | stride left => (.shot * .pause (secondsOf c.stepMs)) ^ left
  | emit => .shot
  | pause ms => .pause (secondsOf ms)
  | _ => 1

/-- The schedule of acts one after the other. -/
def plans (c : Config) (todo : List Act) : Schedule :=
  (todo.map (plan c)).prod

variable {c : Config}

theorem plans_cons (act : Act) (todo : List Act) :
    plans c (act :: todo) = act.plan c * plans c todo := by
  rw [plans, List.map_cons, List.prod_cons]
  rfl

theorem plans_nil : plans c [] = 1 := rfl

theorem plans_append (todo next : List Act) :
    plans c (todo ++ next) = plans c todo * plans c next := by
  rw [plans, List.map_append, List.prod_append]
  rfl

/-- A step that is taken belongs to the steps to come. -/
theorem plans_stride (left : Nat) :
    plans c [.emit, .pause c.stepMs, .check, .stride left]
      = (stride (left + 1)).plan c := by
  simp only [plans_cons, plans_nil, plan, one_mul, mul_one]
  rw [pow_succ', mul_assoc]

/-- A move by a whole number of steps takes as long as they do. -/
theorem plans_move {d : Value} (hwhole : ratioOf d = stepsOf d) :
    plans c [.stride (stepsOf d)] = (Instruction.move d).schedule c := by
  rw [plans_cons, plans_nil, mul_one, plan, Schedule.step_pow]
  refine Schedule.ext ?_ ?_
  · show (stepsOf d : Rat) * _ = ratioOf d * _
    rw [hwhole]
  · simp only [Instruction.schedule, Instruction.shows, zero_add]

/-- A turn is shown, and then takes its time. -/
theorem plans_turn {i : Instruction} {v : Value}
    (hi : i = .turnRight v ∨ i = .turnLeft v) :
    plans c [.emit, .pause c.turnMs, .check] = i.schedule c := by
  rcases hi with rfl | rfl <;> refine Schedule.ext ?_ ?_ <;>
    simp [plans_cons, plans_nil, plan, Schedule.shot, Schedule.pause,
      Instruction.schedule, Instruction.span, Instruction.shows]

/-- A wait takes its time, and then is shown. -/
theorem plans_wait {v ms : Value}
    (hms : ratioOf ms = ratioOf v * 1000 * ratioOf c.waitScale) :
    plans c [.pause ms, .emit, .check] = (Instruction.wait v).schedule c := by
  refine Schedule.ext ?_ ?_ <;>
    simp [plans_cons, plans_nil, plan, Schedule.shot, Schedule.pause,
      Instruction.schedule, Instruction.span, Instruction.shows,
      secondsOf, hms]

/-- A message is shown, takes its time, and is shown to be gone. -/
theorem plans_say {text : Value} :
    plans c [.emit, .pause c.sayMs, .hush, .emit, .check]
      = (Instruction.say text).schedule c := by
  refine Schedule.ext ?_ ?_ <;>
    simp [plans_cons, plans_nil, plan, Schedule.shot, Schedule.pause,
      Instruction.schedule, Instruction.span, Instruction.shows]

end Act

/-! ## Sleeping -/

theorem Value.Denotes.ratioOf_eq {v : Value} {q : Rat} (h : v.Denotes q) :
    ratioOf v = q := by
  obtain ⟨n, rfl, hn⟩ := h
  exact hn.2

section

variable [Arithmetic] {u v : Value} {p q : Rat}

omit [Arithmetic] in
/-- The larger of two numbers. -/
theorem Value.Denotes.max (hu : u.Denotes p) (hv : v.Denotes q) :
    ∃ w, u.max v = .ok w ∧ w.Denotes (Max.max p q) := by
  obtain ⟨m, rfl, hm⟩ := hu
  obtain ⟨n, rfl, hn⟩ := hv
  refine ⟨.num (m.max n), ?_, m.max n, rfl, hm.max hn⟩
  unfold Value.max Value.gt Num.max
  rw [Value.relate_num]
  show (if m.lt n = true then _ else _) = _
  by_cases hlt : m.lt n = true
  · rw [if_pos hlt, if_pos hlt]
    rfl
  · rw [if_neg hlt, if_neg hlt]
    rfl

variable [Arithmetic.Exact] {ms : Value}

/-- A pause takes exactly its seconds. -/
theorem Walker.pauseSeconds_exact (h : ms.Denotes q) :
    ∃ x, Walker.pauseSeconds ms = .ok x ∧ x.Denotes (secondsOf ms) := by
  obtain ⟨w, hw, hwq⟩ := h.max (Value.denotes_int 0)
  obtain ⟨x, hx, hxq⟩ := hwq.div (Value.denotes_int 1000) (by norm_num)
  refine ⟨x, ?_, ?_⟩
  · unfold Walker.pauseSeconds
    rw [show (0 : Value) = .int 0 from rfl, hw]
    exact hx
  · unfold secondsOf
    rw [h.ratioOf_eq]
    exact_mod_cast hxq

/-- A sleep moves the clock on by exactly its seconds. -/
theorem Time.after_denotes {now : Rat} {x : Scalar} (hx : x.Denotes q)
    (hq : 0 ≤ q) : Time.after (.finite now) x = .finite (now + q) := by
  rcases hq.eq_or_lt with rfl | hpos
  · have hnone : x.le (.finite 0) = true :=
      (hx.le_iff Scalar.denotes_finite).2 le_rfl
    rw [Time.after, if_pos hnone, add_zero]
  · rw [hx.eq_finite hpos.ne']
    exact Time.after_exact hpos

omit [Arithmetic] [Arithmetic.Exact] in
theorem secondsOf_nonneg {ms : Value} : 0 ≤ secondsOf ms :=
  div_nonneg (le_max_right ..) (by norm_num)

end

end BlockStage
