import BlockStage.Proofs.Run.Turning
import Mathlib.GroupTheory.OrderOfElement
import Mathlib.NumberTheory.Zsqrtd.GaussianInt

/-! # Legs — walks on the grid compose

    Where no step is stopped by the edge, what an agent does displaces and
    turns it in the same way from every cell, but that the displacement
    turns with the heading.  Cells are Gaussian integers and headings are
    units: a leg of a walk is then an affine map, legs are composed by
    multiplying them (`Leg`), and four times the same leg is no leg at all
    if it turns the agent by quarters but not all round (`Leg.pow_four`).
    On the way the place and heading of an agent and the legs to come make
    up the same leg at all times (`Advance.faces_on`). -/

namespace BlockStage

/-- A displacement and a turn, the displacement as seen by an agent that
    looks east. -/
@[ext]
structure Leg where
  shift : GaussianInt
  turn : GaussianIntˣ

namespace Leg

instance : Mul Leg :=
  ⟨fun l m => ⟨l.shift + l.turn * m.shift, l.turn * m.turn⟩⟩

instance : One Leg := ⟨⟨0, 1⟩⟩

@[simp] theorem mul_shift (l m : Leg) :
    (l * m).shift = l.shift + l.turn * m.shift := rfl

@[simp] theorem mul_turn (l m : Leg) : (l * m).turn = l.turn * m.turn := rfl

@[simp] theorem one_shift : (1 : Leg).shift = 0 := rfl

@[simp] theorem one_turn : (1 : Leg).turn = 1 := rfl

instance : Monoid Leg where
  mul_assoc l m n := by
    refine Leg.ext ?_ (mul_assoc ..)
    simp only [mul_shift, mul_turn, Units.val_mul]
    ring
  one_mul l := by
    refine Leg.ext ?_ (one_mul _)
    simp
  mul_one l := by
    refine Leg.ext ?_ (mul_one _)
    simp

/-- Only straight on. -/
def ahead (n : Nat) : Leg := ⟨n, 1⟩

/-- Only a turn. -/
def turning (u : GaussianIntˣ) : Leg := ⟨0, u⟩

theorem ahead_zero : ahead 0 = 1 :=
  Leg.ext Nat.cast_zero rfl

theorem ahead_succ (n : Nat) : ahead (n + 1) = ahead 1 * ahead n := by
  refine Leg.ext ?_ (one_mul 1).symm
  simp only [ahead, mul_shift, Units.val_one, one_mul, Nat.cast_add,
    Nat.cast_one]
  ring

/-- Four times the same leg leads back if it turns by quarters, and not all
    round: the four displacements are those of a closed square. -/
theorem pow_four {l : Leg} (hquarters : l.turn ^ 4 = 1) (hturns : l.turn ≠ 1) :
    l ^ 4 = 1 := by
  have hfour : (l.turn : GaussianInt) ^ 4 = 1 := by
    rw [← Units.val_pow_eq_pow_val, hquarters, Units.val_one]
  have hproduct : ((l.turn : GaussianInt) - 1)
      * (1 + l.turn + (l.turn : GaussianInt) ^ 2
        + (l.turn : GaussianInt) ^ 3) = 0 := by
    calc _ = (l.turn : GaussianInt) ^ 4 - 1 := by ring
      _ = 0 := by rw [hfour, sub_self]
  have hsum : 1 + (l.turn : GaussianInt) + (l.turn : GaussianInt) ^ 2
      + (l.turn : GaussianInt) ^ 3 = 0 := by
    rcases mul_eq_zero.1 hproduct with hone | hsum
    · exact absurd (Units.ext (sub_eq_zero.1 hone)) hturns
    · exact hsum
  refine Leg.ext ?_ ?_
  · calc (l ^ 4).shift
        = l.shift * (1 + (l.turn : GaussianInt) + (l.turn : GaussianInt) ^ 2
          + (l.turn : GaussianInt) ^ 3) := by
          simp only [pow_succ, pow_zero, one_mul, mul_shift, mul_turn,
            Units.val_mul]
          ring
      _ = 0 := by rw [hsum, mul_zero]
  · calc (l ^ 4).turn = l.turn ^ 4 := by
          simp only [pow_succ, pow_zero, one_mul, mul_turn]
      _ = 1 := hquarters

end Leg

/-! ## Quarter turns -/

/-- A quarter turn to the right. -/
def clockwise : GaussianIntˣ :=
  ⟨⟨0, -1⟩, ⟨0, 1⟩, by decide, by decide⟩

theorem orderOf_clockwise : orderOf clockwise = 4 :=
  orderOf_eq_prime_pow (p := 2) (n := 1) (by decide) (by decide)

/-- Quarter turns go all round by fours. -/
theorem clockwise_zpow_eq_one {q : Int} :
    clockwise ^ q = 1 ↔ (4 : Int) ∣ q := by
  rw [← orderOf_dvd_iff_zpow_eq_one, orderOf_clockwise]
  rfl

theorem clockwise_zpow_congr {p q : Int} (h : (4 : Int) ∣ p - q) :
    clockwise ^ p = clockwise ^ q := by
  have hone : clockwise ^ (p - q) = 1 := clockwise_zpow_eq_one.2 h
  rwa [zpow_sub, mul_inv_eq_one] at hone

/-- The direction of a heading, as one of the units. -/
theorem stepVector?_clockwise {n : Num} {v : Int × Int}
    (hv : stepVector? n = some v) {q : Int} (hn : n.Denotes (90 * q : Int)) :
    ((clockwise ^ (q - 1) : GaussianIntˣ) : GaussianInt) = ⟨v.1, v.2⟩ := by
  have hquarter : ∀ j : Int, n.same (.int (90 * j)) = true → q = j := by
    intro j hsame
    have hvalue : ((90 * j : Int) : Rat) = (90 * q : Int) :=
      (Scalar.same_finite hsame).2.symm.trans hn.2
    have hvalue : 90 * j = 90 * q := by exact_mod_cast hvalue
    omega
  unfold stepVector? at hv
  split at hv
  · obtain rfl := hquarter 0 ‹_›
    cases hv
    decide
  · split at hv
    · obtain rfl := hquarter 1 ‹_›
      cases hv
      decide
    · split at hv
      · obtain rfl := hquarter 2 ‹_›
        cases hv
        decide
      · split at hv
        · obtain rfl := hquarter 3 ‹_›
          cases hv
          decide
        · cases hv

/-! ## The legs of a program -/

/-- The whole degrees that a value counts. -/
def degreesOf (v : Value) : Int :=
  match v.whole with
  | .ok n => n
  | .error _ => 0

namespace Instruction

/-- The degrees by which an instruction without a body turns, clockwise. -/
def degrees : Instruction → Int
  | turnRight v => degreesOf v
  | turnLeft v => -degreesOf v
  | _ => 0

/-- The leg that an instruction without a body is. -/
def leg : Instruction → Leg
  | move d => .ahead (stepsOf d)
  | i => .turning (clockwise ^ (i.degrees / 90))

/-- The legs of instructions one after the other. -/
def legs (is : List Instruction) : Leg := (is.map leg).prod

/-- The degrees by which one execution of a program turns, with its loops cut
    down to a ceiling. -/
def netTurn (ceiling : Int) (p : List Instruction) : Int :=
  ((unrollAll ceiling p).map degrees).sum

theorem legs_copies (n : Nat) (is : List Instruction) :
    legs (copies n is) = legs is ^ n := by
  induction n with
  | zero => rfl
  | succ n ih =>
      have hcopies : copies (n + 1) is = is ++ copies n is := by
        rw [copies, List.replicate_succ, List.flatten_cons, copies]
      rw [pow_succ', ← ih, hcopies, legs, List.map_append, List.prod_append]
      rfl

theorem turn_leg (i : Instruction) : i.leg.turn = clockwise ^ (i.degrees / 90) := by
  cases i with
  | move d => exact (zpow_zero clockwise).symm
  | _ => rfl

/-- Legs turn by as many quarters as their degrees are. -/
theorem turn_legs {is : List Instruction}
    (h : ∀ i ∈ is, (90 : Int) ∣ i.degrees) :
    (90 : Int) ∣ (is.map degrees).sum
      ∧ (legs is).turn = clockwise ^ ((is.map degrees).sum / 90) := by
  induction is with
  | nil => exact ⟨dvd_zero _, (zpow_zero clockwise).symm⟩
  | cons i is ih =>
      obtain ⟨hi, his⟩ := List.forall_mem_cons.1 h
      obtain ⟨hdvd, hturn⟩ := ih his
      rw [List.map_cons, List.sum_cons]
      refine ⟨dvd_add hi hdvd, ?_⟩
      rw [Int.add_ediv_of_dvd_left hi, zpow_add, ← hturn, ← turn_leg]
      rfl

/-- What turns by quarters but not all round leads back when it is done four
    times. -/
theorem legs_pow_four {is : List Instruction}
    (h : ∀ i ∈ is, (90 : Int) ∣ i.degrees)
    (hnet : ¬ (360 : Int) ∣ (is.map degrees).sum) : legs is ^ 4 = 1 := by
  obtain ⟨⟨q, hq⟩, hturn⟩ := turn_legs h
  rw [hq] at hnet hturn
  rw [Int.mul_ediv_cancel_left q (by decide)] at hturn
  refine Leg.pow_four ?_ ?_
  · rw [hturn, ← zpow_natCast, ← zpow_mul]
    exact clockwise_zpow_eq_one.2 (dvd_mul_left ..)
  · rw [hturn]
    intro hone
    obtain ⟨k, rfl⟩ := clockwise_zpow_eq_one.1 hone
    exact hnet ⟨k, by ring⟩

theorem mem_copies {n : Nat} {body : List Instruction} {j : Instruction}
    (hj : j ∈ copies n body) : j ∈ body := by
  obtain ⟨is, his, hj⟩ := List.mem_flatten.1 hj
  rwa [List.eq_of_mem_replicate his] at hj

/-- A loop unrolls to instructions of its unrolled body, or stays as it
    is. -/
theorem mem_unroll_loop {ceiling : Int} {i j : Instruction} {v : Value}
    {body : List Instruction}
    (hi : i = repeatTimes v body ∨ i = repeatBounded v body)
    (hj : j ∈ i.unroll ceiling) : j = i ∨ j ∈ unrollAll ceiling body := by
  rcases hi with rfl | rfl
  · unfold unroll at hj
    split at hj
    · rename_i heq
      cases heq
      exact .inr (mem_copies hj)
    · rename_i heq
      cases heq
    · rename_i heq
      cases heq
    · exact .inl (List.mem_singleton.1 hj)
  · unfold unroll at hj
    split at hj
    · rename_i heq
      cases heq
    · rename_i heq
      cases heq
      exact .inr (mem_copies hj)
    · rename_i heq
      cases heq
    · exact .inl (List.mem_singleton.1 hj)

mutual

/-- Where no condition has a property, what all of an instruction has is had
    by all that it unrolls to. -/
theorem Every.unroll {P : Instruction → Prop}
    (hP : ∀ body, ¬ P (ifGoalReached body)) (ceiling : Int) :
    ∀ {i : Instruction}, i.Every P → ∀ j ∈ i.unroll ceiling, P j
  | repeatTimes _ _, h, j, hj => by
      rcases mem_unroll_loop (.inl rfl) hj with rfl | hj
      · exact h.1
      · exact EveryOf.unrollAll hP ceiling h.2 j hj
  | repeatBounded _ _, h, j, hj => by
      rcases mem_unroll_loop (.inr rfl) hj with rfl | hj
      · exact h.1
      · exact EveryOf.unrollAll hP ceiling h.2 j hj
  | ifGoalReached body, h, _, _ => absurd h.1 (hP body)
  | move _, h, _, hj => List.mem_singleton.1 hj ▸ h
  | turnRight _, h, _, hj => List.mem_singleton.1 hj ▸ h
  | turnLeft _, h, _, hj => List.mem_singleton.1 hj ▸ h
  | wait _, h, _, hj => List.mem_singleton.1 hj ▸ h
  | say _, h, _, hj => List.mem_singleton.1 hj ▸ h
  | foreign _, h, _, hj => List.mem_singleton.1 hj ▸ h

theorem EveryOf.unrollAll {P : Instruction → Prop}
    (hP : ∀ body, ¬ P (ifGoalReached body)) (ceiling : Int) :
    ∀ {is : List Instruction}, EveryOf P is →
      ∀ j ∈ unrollAll ceiling is, P j
  | [], _, _, hj => absurd hj List.not_mem_nil
  | _ :: _, h, j, hj => by
      rcases List.mem_append.1 hj with hj | hj
      · exact Every.unroll hP ceiling h.1 j hj
      · exact EveryOf.unrollAll hP ceiling h.2 j hj

end

end Instruction

namespace Act

open Instruction

/-- The leg that an act is, if it has no body. -/
def leg : Act → Leg
  | perform i => i.leg
  | stride left => .ahead left
  | _ => 1

/-- The legs of all that is left to do, with its loops cut down to a
    ceiling. -/
def route (ceiling : Int) (todo : List Act) : Leg :=
  ((unrollAll ceiling todo).map leg).prod

variable {ceiling : Int} {rest : List Act}

theorem route_cons (act : Act) :
    route ceiling (act :: rest)
      = ((act.unroll ceiling).map leg).prod * route ceiling rest := by
  rw [route, unrollAll_cons, List.map_append, List.prod_append]
  rfl

/-- What unrolling leaves as it is is a leg itself. -/
theorem route_single {act : Act} (hact : act.unroll ceiling = [act]) :
    route ceiling (act :: rest) = act.leg * route ceiling rest := by
  rw [route_cons, hact, List.map_singleton, List.prod_singleton]

/-- Instructions to be performed are the legs of their unrolled form. -/
theorem route_body (body : List Instruction) :
    route ceiling (body.map perform)
      = legs (Instruction.unrollAll ceiling body) := by
  rw [route, unrollAll_body, List.map_map]
  rfl

theorem route_stride_zero :
    route ceiling (.stride 0 :: rest) = route ceiling rest := by
  rw [route_single rfl, show (Act.stride 0).leg = Leg.ahead 0 from rfl,
    Leg.ahead_zero, one_mul]

theorem route_stride_succ (left : Nat) :
    route ceiling (.stride (left + 1) :: rest)
      = .ahead 1 * route ceiling (.stride left :: rest) := by
  rw [route_single rfl, route_single rfl, ← mul_assoc]
  exact congrArg (· * _) (Leg.ahead_succ left)

/-- Acts that are no leg do not matter. -/
theorem route_idle {act : Act} (hact : act.unroll ceiling = [act])
    (hleg : act.leg = 1) : route ceiling (act :: rest) = route ceiling rest := by
  rw [route_single hact, hleg, one_mul]

/-- To wait or to speak is no leg. -/
theorem route_still {i : Instruction}
    (hi : (∃ v, i = .wait v) ∨ ∃ text, i = .say text) :
    route ceiling (.perform i :: rest) = route ceiling rest := by
  have hnone : Leg.turning (clockwise ^ ((0 : Int) / 90)) = 1 := by
    rw [Int.zero_ediv, zpow_zero]
    rfl
  rcases hi with ⟨v, rfl⟩ | ⟨text, rfl⟩
  · exact route_idle rfl hnone
  · exact route_idle rfl hnone

/-- A loop with a count is its passes. -/
theorem route_loop {i : Instruction} {v : Value} {body : List Instruction}
    {k n : Int} {g : Grant} (hv : v = .int k) (hk : 0 ≤ k)
    (hi : i = .repeatTimes v body ∨ i = .repeatBounded v body)
    (hg : grant (.int ceiling) v = .ok g) (hn : g.passes.count = .ok n) :
    route ceiling (.perform i :: rest)
      = route ceiling (.pass n.toNat body :: rest) := by
  have hpasses : n = min k ceiling := by
    subst hv
    rw [grant_int, if_neg (Int.not_lt.2 hk)] at hg
    split at hg
    · rename_i hlt
      cases hg
      cases hn
      exact (Int.min_eq_right hlt.le).symm
    · rename_i hle
      cases hg
      cases hn
      exact (Int.min_eq_left (Int.not_lt.1 hle)).symm
  have hunroll : (Act.perform i).unroll ceiling
      = (Act.pass n.toNat body).unroll ceiling := by
    subst hv hpasses
    rcases hi with rfl | rfl <;> rfl
  rw [route_cons, route_cons, hunroll]

/-- A pass that begins is the body and the passes to come. -/
theorem route_pass (left : Nat) (body : List Instruction) :
    route ceiling (body.map perform ++ .pass left body :: rest)
      = route ceiling (.pass (left + 1) body :: rest) := by
  rw [route, unrollAll_pass]
  rfl

theorem route_last_pass (body : List Instruction) :
    route ceiling (.pass 0 body :: rest) = route ceiling rest := by
  rw [route_cons]
  exact one_mul _

end Act

/-! ## Where an agent stands and looks -/

/-- A cell as a Gaussian integer, and a number of quarter turns from north as
    the unit that leads that way. -/
def Cell.pose (c : Cell) (q : Int) : Leg := ⟨⟨c.1, c.2⟩, clockwise ^ (q - 1)⟩

/-- An agent stands on a cell and looks along one of the four headings. -/
structure Agent.Faces (a : Agent) (c : Cell) (q : Int) : Prop where
  position : a.position = c.position
  heading : a.heading.Denotes (90 * q : Int)
  low : 0 ≤ q
  high : q ≤ 3

/-- A heading that an agent faces is one of the four. -/
theorem Agent.Faces.isCardinal {a : Agent} {c : Cell} {q : Int}
    (h : a.Faces c q) : a.heading.IsCardinal := by
  obtain ⟨n, hn, hfin, hvalue⟩ := h.heading
  have hlow := h.low
  have hhigh := h.high
  have hsame : n.same (.int (90 * q)) = true := by
    unfold Num.same
    rcases Scalar.isFinite_iff.1 hfin with ⟨r, heq⟩ | heq
    · rw [heq] at hvalue ⊢
      obtain rfl : r = (90 * q : Int) := hvalue
      simp [Num.exact, Scalar.same, Scalar.compare?]
    · rw [heq] at hvalue ⊢
      have hzero : (0 : Rat) = (90 * q : Int) := hvalue
      simp [Num.exact, Scalar.same, Scalar.compare?, Scalar.value, ← hzero]
  refine ⟨n, hn, ?_⟩
  unfold stepVector?
  split
  · rfl
  · split
    · rfl
    · split
      · rfl
      · split
        · rfl
        · -- it would equal none of the four
          obtain rfl | rfl | rfl | rfl : q = 0 ∨ q = 1 ∨ q = 2 ∨ q = 3 := by
            omega
          · contradiction
          · contradiction
          · contradiction
          · contradiction

/-- What an agent faces is all there is to its pose. -/
theorem Cell.pose_inj {c d : Cell} {p q : Int} (hp : 0 ≤ p) (hp' : p ≤ 3)
    (hq : 0 ≤ q) (hq' : q ≤ 3) (h : c.pose p = d.pose q) : c = d ∧ p = q := by
  constructor
  · have hshift : (⟨c.1, c.2⟩ : GaussianInt) = ⟨d.1, d.2⟩ :=
      congrArg Leg.shift h
    injection hshift with hcolumn hrow
    exact Prod.ext hcolumn hrow
  · have hturn : clockwise ^ (p - 1) = clockwise ^ (q - 1) :=
      congrArg Leg.turn h
    have hone : clockwise ^ ((p - 1) - (q - 1)) = 1 := by
      rw [zpow_sub, hturn, mul_inv_cancel]
    obtain ⟨k, hk⟩ := clockwise_zpow_eq_one.1 hone
    omega

/-- A turn by quarters turns the pose by them. -/
theorem Cell.pose_turning (c : Cell) (q n : Int) :
    c.pose ((q + n) % 4) = c.pose q * .turning (clockwise ^ n) := by
  refine Leg.ext ?_ ?_
  · show (⟨c.1, c.2⟩ : GaussianInt)
      = ⟨c.1, c.2⟩ + ((clockwise ^ (q - 1) : GaussianIntˣ) : GaussianInt) * 0
    rw [mul_zero, add_zero]
  · show clockwise ^ ((q + n) % 4 - 1) = clockwise ^ (q - 1) * clockwise ^ n
    rw [← zpow_add]
    exact clockwise_zpow_congr (by omega)

section

variable [Arithmetic] {s : Scene} {now : Time} {a b : Agent}
  {todo next : List Act} {signal : Signal} {columns rows : Int} {c : Cell}
  {q : Int}

/-- A step that is not stopped by the edge is one straight on. -/
theorem Agent.Faces.stride (h : a.Faces c q)
    (hc : s.config.Counted columns rows) (hcell : c.InGrid columns rows)
    {p : Point} (hstep : gridStep s.config a.position a.heading = .ok p)
    (hfree : p.position ≠ a.position) :
    ∃ d : Cell, p.position = d.position ∧ d.pose q = c.pose q * .ahead 1 := by
  obtain ⟨n, hn, hdenotes⟩ := h.heading
  rw [h.position, hn] at hstep
  obtain ⟨d, rfl, -, hnext⟩ := gridStep_next hc hcell hstep
  rcases hnext with rfl | ⟨v, hv, rfl⟩
  · exact absurd h.position.symm hfree
  · refine ⟨_, rfl, Leg.ext ?_ (mul_one _).symm⟩
    show (⟨c.1 + v.1, c.2 + v.2⟩ : GaussianInt)
      = ⟨c.1, c.2⟩ + ((clockwise ^ (q - 1) : GaussianIntˣ) : GaussianInt)
        * (1 : Nat)
    rw [stepVector?_clockwise hv hdenotes, Nat.cast_one, mul_one]
    rfl

end

end BlockStage
