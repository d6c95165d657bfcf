import BlockStage.Proofs.Run.Pacing

/-! # Motions — what a frame on the canvas makes of an agent

    A move on the canvas glides and a turn swings.  On exact numbers either
    leads from one pose to another, and a frame takes the agent to the eased
    share of the way between them (`Motion.Reaches.next`).  The rest of the
    agent stays as it is, and so does its heading on a glide and its place on
    a swing. -/

namespace BlockStage

/-! ## Poses -/

/-- Where an agent stands and where it looks, as ratios. -/
structure Pose where
  x : Rat
  y : Rat
  heading : Rat

/-- The pose at a share of the way from one pose to another. -/
def Pose.toward (p q : Pose) (e : Rat) : Pose :=
  ⟨p.x + (q.x - p.x) * e, p.y + (q.y - p.y) * e,
    p.heading + (q.heading - p.heading) * e⟩

@[simp] theorem Pose.toward_zero (p q : Pose) : p.toward q 0 = p := by
  simp [toward]

@[simp] theorem Pose.toward_one (p q : Pose) : p.toward q 1 = q := by
  simp [toward]

/-- An agent that holds a pose. -/
structure Agent.Holds (a : Agent) (p : Pose) : Prop where
  place : ∃ u v : Value, a.position = [u, v] ∧ u.Denotes p.x ∧ v.Denotes p.y
  heading : a.heading.Denotes p.heading

/-- A snapshot that shows a pose. -/
structure Snapshot.Shows (z : Snapshot) (p : Pose) : Prop where
  x : z.position.1.Denotes p.x
  y : z.position.2.Denotes p.y
  heading : z.heading.Denotes p.heading

/-- Where a move of a number of steps takes an agent. -/
def Surface.moved [Arithmetic] (g : Surface) (p : Pose) (distance : Rat) :
    Pose :=
  ⟨(g.target p.x p.y p.heading distance).1,
    (g.target p.x p.y p.heading distance).2, p.heading⟩

/-- Where a turn takes an agent. -/
def Pose.turned (p : Pose) (degrees : Rat) : Pose :=
  ⟨p.x, p.y, p.heading + degrees⟩

/-- An instruction that turns by a number of degrees, clockwise. -/
def Instruction.Turns (degrees : Rat) : Instruction → Prop
  | .turnRight v => v.Denotes degrees
  | .turnLeft v => v.Denotes (-degrees)
  | _ => False

/-- What heads from one ratio to another goes there monotonically and never
    past it. -/
def Heads (start finish : Rat) (qs : List Rat) : Prop :=
  (start ≤ finish → (start :: (qs ++ [finish])).Pairwise (· ≤ ·))
    ∧ (finish ≤ start → (start :: (qs ++ [finish])).Pairwise (· ≥ ·))

/-- A list put between two ends is in order if it is on its own and lies
    between them. -/
theorem pairwise_between {R : Rat → Rat → Prop} {start finish : Rat}
    {qs : List Rat} (hends : R start finish) (hqs : qs.Pairwise R)
    (hstart : ∀ q ∈ qs, R start q) (hfinish : ∀ q ∈ qs, R q finish) :
    (start :: (qs ++ [finish])).Pairwise R := by
  refine .cons ?_ (List.pairwise_append.2 ⟨hqs, List.pairwise_singleton ..,
    fun q hq _ hr => List.mem_singleton.1 hr ▸ hfinish q hq⟩)
  intro q hq
  rcases List.mem_append.1 hq with hq | hq
  · exact hstart q hq
  · exact List.mem_singleton.1 hq ▸ hends

/-- What follows shares that never fall heads for its end. -/
theorem heads_shares {es : List Rat} (hsorted : es.Pairwise (· ≤ ·))
    (hunit : ∀ e ∈ es, 0 ≤ e ∧ e ≤ 1) (start finish : Rat) :
    Heads start finish (es.map fun e => start + (finish - start) * e) := by
  constructor
  · intro hle
    have hway : 0 ≤ finish - start := sub_nonneg.2 hle
    refine pairwise_between hle (List.pairwise_map.2
      (hsorted.imp fun h => ?_)) ?_ ?_
    · linarith [mul_le_mul_of_nonneg_left h hway]
    · intro q hq
      obtain ⟨e, he, rfl⟩ := List.mem_map.1 hq
      linarith [mul_nonneg hway (hunit e he).1]
    · intro q hq
      obtain ⟨e, he, rfl⟩ := List.mem_map.1 hq
      linarith [mul_le_mul_of_nonneg_left (hunit e he).2 hway]
  · intro hle
    have hway : finish - start ≤ 0 := sub_nonpos.2 hle
    refine pairwise_between (R := (· ≥ ·)) hle (List.pairwise_map.2
      (hsorted.imp fun h => ?_)) ?_ ?_
    · linarith [mul_le_mul_of_nonpos_left h hway]
    · intro q hq
      obtain ⟨e, he, rfl⟩ := List.mem_map.1 hq
      linarith [mul_nonpos_of_nonpos_of_nonneg hway (hunit e he).1]
    · intro q hq
      obtain ⟨e, he, rfl⟩ := List.mem_map.1 hq
      linarith [mul_le_mul_of_nonpos_left (hunit e he).2 hway]

/-- Between two ratios within bounds all of the way is. -/
theorem toward_within {low high p q e : Rat} (hp : low ≤ p ∧ p ≤ high)
    (hq : low ≤ q ∧ q ≤ high) (he : 0 ≤ e ∧ e ≤ 1) :
    low ≤ p + (q - p) * e ∧ p + (q - p) * e ≤ high := by
  have hmix : p + (q - p) * e = (1 - e) * p + e * q := by ring
  have hless : 0 ≤ 1 - e := sub_nonneg.2 he.2
  rw [hmix]
  constructor
  · nlinarith [mul_le_mul_of_nonneg_left hp.1 hless,
      mul_le_mul_of_nonneg_left hq.1 he.1]
  · nlinarith [mul_le_mul_of_nonneg_left hp.2 hless,
      mul_le_mul_of_nonneg_left hq.2 he.1]

section

variable [Arithmetic] [Arithmetic.Exact] {a b : Agent} {p q : Pose}

/-- A number that denotes a ratio is read as one that denotes it. -/
theorem Lenient.measure_denotes {v : Value} {r : Rat} (hv : v.Denotes r) :
    ∃ x, Lenient.measure v = .ok x ∧ x.Denotes r := by
  obtain ⟨n, rfl, hn⟩ := hv
  obtain ⟨x, hx, hxr⟩ := hn.measure
  refine ⟨x, ?_, hxr⟩
  show n.measure.mapError (fun _ => Flaw.notAMeasure) = _
  rw [hx]
  rfl

/-- The snapshot of an agent shows the pose that the agent holds. -/
theorem Agent.Holds.shows (h : a.Holds p) {z : Snapshot}
    (hz : Snapshot.ofAgent a = .ok z) : z.Shows p := by
  obtain ⟨-, ⟨u, v, hplace, hu, hv⟩, hheading, -, -⟩ := Snapshot.ofAgent_ok.1 hz
  obtain ⟨u', v', hplace', hup, hvp⟩ := h.place
  rw [hplace] at hplace'
  cases hplace'
  have hread : ∀ {v : Value} {x : Scalar} {r : Rat},
      Lenient.measure v = .ok x → v.Denotes r → x.Denotes r := by
    intro v x r hx hv
    obtain ⟨y, hy, hyr⟩ := Lenient.measure_denotes hv
    rw [hx] at hy
    cases hy
    exact hyr
  exact ⟨hread hu hup, hread hv hvp, hread hheading h.heading⟩

end

/-! ## Motions -/

/-- What an animation changes: the place of an agent or its heading. -/
inductive Motion where
  | glide (start finish : Point)
  | swing (start finish : Value)

namespace Motion

/-- The act that shows the frames of a motion. -/
def frame (started : Time) : Motion → Act
  | glide start finish => .glide start finish started
  | swing start finish => .swing start finish started

/-- How long a motion takes. -/
def lasts (c : Config) : Motion → Value
  | glide _ _ => c.moveMs
  | swing _ _ => c.turnMs

/-- A motion leads from one pose to another. -/
def Leads (p q : Pose) : Motion → Prop
  | glide start finish =>
      start.1.Denotes p.x ∧ start.2.Denotes p.y ∧ finish.1.Denotes q.x
        ∧ finish.2.Denotes q.y ∧ q.heading = p.heading
  | swing start finish =>
      start.Denotes p.heading ∧ finish.Denotes q.heading ∧ q.x = p.x
        ∧ q.y = p.y

/-- What a motion leaves of an agent: all but the place and the goal flag, or
    all but the heading. -/
def Keeps (a b : Agent) : Motion → Prop
  | glide _ _ =>
      ∃ place goal, b = { a with position := place, goalReached := goal }
  | swing _ _ => ∃ heading, b = { a with heading := heading }

variable [Arithmetic]

/-- An agent at a share of the way of a motion. -/
structure Reaches (p q : Pose) (a : Agent) (m : Motion) (e : Rat) (b : Agent) :
    Prop where
  keeps : m.Keeps a b
  holds : b.Holds (p.toward q e)
  showable : b.Showable

variable [Arithmetic.Exact] {s : Scene} {m : Motion} {p q : Pose} {a b : Agent}
  {e duration t₀ t : Rat} {w : Walker} {rest : List Act}

omit [Arithmetic.Exact] in
/-- A frame of a glide that can be calculated is shown. -/
theorem step_glide {now started : Time} {running : Bool}
    {start finish point : Point} {progress : Num}
    (htodo : w.todo = .glide start finish started :: rest)
    (hprogress : progressAt s.config.moveMs started now = .ok progress)
    (hpoint : Walker.between start finish progress = .ok point)
    (hb : { a with position := point.position }.latchGoal s.goal = .ok b) :
    w.step s now running a = w.goOn b
      (.emit :: Walker.afterFrame progress (.glide start finish started) rest)
      [] := by
  unfold Walker.step Walker.moveTo Walker.arrive
  rw [htodo]
  simp only [hprogress, hpoint, hb, operate, Except.mapError,
    Walker.goOnWith]

omit [Arithmetic.Exact] in
/-- A frame of a swing that can be calculated is shown. -/
theorem step_swing {now started : Time} {running : Bool}
    {start finish heading : Value} {progress : Num}
    (htodo : w.todo = .swing start finish started :: rest)
    (hprogress : progressAt s.config.turnMs started now = .ok progress)
    (hheading : interpolate start finish (.num progress) = .ok heading) :
    w.step s now running a = w.goOn { a with heading := heading }
      (.emit :: Walker.afterFrame progress (.swing start finish started) rest)
      [] := by
  unfold Walker.step
  rw [htodo]
  simp only [hprogress, hheading, operate, Except.mapError, Walker.goOnWith]

/-- The next frame takes the agent to the share of the duration that has
    passed, eased. -/
theorem Reaches.next (h : m.Reaches p q a e b) (hleads : m.Leads p q)
    (hgoal : ∀ g, s.goal = some g → g.isNumeric = true)
    (hlasts : (m.lasts s.config).Denotes duration) (hle : t₀ ≤ t)
    (htodo : w.todo = m.frame (.finite t₀) :: rest) (running : Bool) :
    ∃ c, w.step s (.finite t) running b
        = w.goOn c (.emit :: Walker.afterFrame
          (.real (.finite (shareOf duration ((t - t₀) * 1000))))
          (m.frame (.finite t₀)) rest) []
      ∧ m.Reaches p q a (eased (shareOf duration ((t - t₀) * 1000))) c := by
  have hprogress := progressAt_exact hlasts hle
  generalize shareOf duration ((t - t₀) * 1000) = share at hprogress ⊢
  have hshare : (Scalar.finite share).Denotes share := Scalar.denotes_finite
  cases m with
  | glide start finish =>
      obtain ⟨hx, hy, hx', hy', hsame⟩ := hleads
      obtain ⟨u, hu, hux⟩ := interpolate_exact hx hx' hshare
      obtain ⟨v, hv, hvy⟩ := interpolate_exact hy hy' hshare
      have hpoint : Walker.between start finish (.real (.finite share))
          = .ok (u, v) := by
        simp only [Walker.between, hu, hv, bind, Except.bind, pure,
          Except.pure]
      obtain ⟨c, hc⟩ : ∃ c, Agent.latchGoal { b with position := [u, v] } s.goal
          = .ok c :=
        Agent.latchGoal_numbers hgoal rfl hux.isNumber hvy.isNumber
      obtain ⟨g, hg⟩ := Agent.latchGoal_ok hc
      obtain ⟨x, hx, -⟩ := Lenient.measure_denotes hux
      obtain ⟨y, hy, -⟩ := Lenient.measure_denotes hvy
      refine ⟨c, step_glide htodo hprogress hpoint hc, ?_, ?_,
        (h.showable.moved hx hy).latched hc⟩
      · obtain ⟨place, goal, rfl⟩ := h.keeps
        exact ⟨_, g, hg⟩
      · have hheading := h.holds.heading
        rw [hg]
        refine ⟨⟨u, v, rfl, hux, hvy⟩, ?_⟩
        simpa [Pose.toward, hsame] using hheading
  | swing start finish =>
      obtain ⟨hh, hh', hx, hy⟩ := hleads
      obtain ⟨v, hv, hvh⟩ := interpolate_exact hh hh' hshare
      obtain ⟨z, hz, -⟩ := Lenient.measure_denotes hvh
      refine ⟨_, step_swing htodo hprogress hv, ?_, ⟨?_, hvh⟩,
        h.showable.turned hz⟩
      · obtain ⟨heading, rfl⟩ := h.keeps
        exact ⟨v, rfl⟩
      · simpa [Pose.toward, hx, hy] using h.holds.place

omit [Arithmetic.Exact] in
/-- An agent about to set out has gone no share of the way. -/
theorem reaches_start (hholds : a.Holds p) (hshow : a.Showable) :
    m.Reaches p q a 0 a := by
  refine ⟨?_, by rwa [Pose.toward_zero], hshow⟩
  cases m with
  | glide start finish => exact ⟨_, _, rfl⟩
  | swing start finish => exact ⟨_, rfl⟩

end Motion

section

variable [Arithmetic] [Arithmetic.Exact] {s : Scene} {g : Surface} {p : Pose}
  {a : Agent} {w : Walker} {rest : List Act}

/-- A move sets out to glide to where it takes the agent. -/
theorem step_move (hc : s.config.Denotes g)
    (hcos : ∀ q, (Arithmetic.cos (.finite q)).isFinite = true)
    (hsin : ∀ q, (Arithmetic.sin (.finite q)).isFinite = true)
    (hholds : a.Holds p) {v : Value} {distance : Rat}
    (hv : v.Denotes distance) (hpos : 0 < distance)
    (htodo : w.todo = .perform (.move v) :: rest) (now : Time) :
    ∃ start finish log, (∀ running, w.step s now running a
        = w.goOn a (.glide start finish now :: .check :: rest) log)
      ∧ (Motion.glide start finish).Leads p (g.moved p distance) := by
  obtain ⟨x, y, hplace, hx, hy⟩ := hholds.place
  obtain ⟨n, hn, hfinite, hnd⟩ := hv.finiteNumber?
  obtain ⟨finish, hfinish, hx', hy'⟩ :=
    canvasTarget_exact hc hcos hsin hx hy hholds.heading hv
  have habove : ¬ n.le 0 = true := by
    rw [show n.le 0 = true ↔ distance ≤ (0 : Int) from
      Scalar.Denotes.le_iff hnd (Num.denotes_int 0)]
    exact_mod_cast not_le.2 hpos
  refine ⟨(x, y), finish,
    Walker.detail a [v] (.ok ("moving " ++ n.text ++ " steps")),
    fun running => ?_, hx, hy, hx', hy', rfl⟩
  rw [← hplace] at hfinish
  have hstart : Value.pairOf a.position = .ok (x, y) := by
    rw [hplace]
    rfl
  unfold Walker.step
  rw [htodo]
  simp only [Walker.perform, Walker.move, hfinite, operate, Except.mapError,
    Walker.goOnWith, if_neg habove, hc.mode, hstart, hfinish]

/-- A turn by a number of degrees. -/
theorem walker_turn (hc : s.config.Denotes g) (hholds : a.Holds p) {v : Value}
    {degrees : Rat} (hv : v.Denotes degrees) (now : Time) :
    ∃ finish log, w.turn s now a rest v
        = w.goOn a (.swing a.heading finish now :: .check :: rest) log
      ∧ (Motion.swing a.heading finish).Leads p (p.turned degrees) := by
  obtain ⟨n, -, hfinite, -⟩ := hv.finiteNumber?
  obtain ⟨finish, hfinish, hturned⟩ := hholds.heading.add hv
  have hleads : (Motion.swing a.heading finish).Leads p (p.turned degrees) :=
    ⟨hholds.heading, hturned, rfl, rfl⟩
  simp only [Walker.turn, hfinite, operate, Except.mapError, Walker.goOnWith,
    hc.mode, hfinish]
  exact ⟨finish, _, rfl, hleads⟩

/-- A turn sets out to swing to where it takes the agent. -/
theorem step_turn (hc : s.config.Denotes g) (hholds : a.Holds p)
    {i : Instruction} {degrees : Rat} (hi : i.Turns degrees)
    (htodo : w.todo = .perform i :: rest) (now : Time) :
    ∃ finish log, (∀ running, w.step s now running a
        = w.goOn a (.swing a.heading finish now :: .check :: rest) log)
      ∧ (Motion.swing a.heading finish).Leads p (p.turned degrees) := by
  have hperform : ∀ running, w.step s now running a
      = w.perform s now a rest i := by
    intro running
    unfold Walker.step
    rw [htodo]
  simp only [hperform, forall_const]
  cases i with
  | turnRight v => exact walker_turn hc hholds hi now
  | turnLeft v =>
      obtain ⟨u, hu, hud⟩ := Value.Denotes.neg hi
      rw [neg_neg] at hud
      simp only [Walker.perform, hu, operate, Except.mapError,
        Walker.goOnWith]
      exact walker_turn hc hholds hud now
  | _ => cases hi

end

end BlockStage
