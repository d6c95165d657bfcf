import BlockStage.Proofs.Run.Progress

/-! # Settings — what a stage leaves room for

    Settings within the range of doubles (`Config.Ranged`) leave room for all
    that runs calculate from them, if the counts among them do so too: ten
    times the wait scale, a hundred unit steps, and the ways between the
    bounds of the canvas (`Config.Spacious`, `Value.Spaced`).  An agent that
    starts where such settings allow it sets out on a roomy stage
    (`Config.Spacious.roomy`). -/

namespace BlockStage

open Binary64

/-- Settings within the range of doubles. -/
structure Config.Ranged (c : Config) (columns rows ceiling : Int) : Prop where
  mode : c.mode = .grid ∨ c.mode = .canvas
  counted : c.Counted columns rows
  columns : (columns : Rat) < bound
  rows : (rows : Rat) < bound
  loops : c.loopCeiling = .int ceiling
  positive : 1 ≤ ceiling
  ceiling : (ceiling : Rat) < bound
  timings : ∀ ms ∈ [c.stepMs, c.turnMs, c.moveMs, c.sayMs, c.frameMs],
    ms.InRange
  waitScale : c.waitScale.InRange
  unitStep : c.unitStepPixels.InRange
  width : c.canvasWidth.InRange
  height : c.canvasHeight.InRange
  margin : c.canvasMargin.InRange

/-- Settings that leave room for the longest wait and the longest move.
    Counts are multiplied without rounding, so that the products of two
    counts have to stay below the bound, too. -/
structure Config.Spacious (c : Config) (columns rows ceiling : Int) : Prop
    extends Config.Ranged c columns rows ceiling where
  waits : ∀ k : Int, c.waitScale = .int k → 10 * (k : Rat) < bound
  lengths : c.mode = .canvas → ∀ k : Int, c.unitStepPixels = .int k →
    |100 * (k : Rat)| < bound

/-- An axis on which the counts among zero, the two bounds and the place of
    an agent that is brought between them are no further apart than can be
    measured. -/
def Value.Spaced [Arithmetic] (size margin : Value) (start : Num) : Prop :=
  ∀ low high : Num, margin = .num low → size.sub margin = .ok (.num high) →
    Num.Apart [.int 0, low, high, start.clamp low high]

/-- Where an agent may start and look: anywhere on the grid at one of the
    four headings, or on the canvas where both axes are spaced. -/
inductive Config.Allows [Arithmetic] (c : Config) (position : Position)
    (heading : Value) : Prop
  | onGrid {u v : Num} : c.mode = .grid → position = [.num u, .num v] →
      heading.IsCardinal → Config.Allows c position heading
  | onCanvas {u v : Num} : c.mode = .canvas → position = [.num u, .num v] →
      c.canvasWidth.Spaced c.canvasMargin u →
      c.canvasHeight.Spaced c.canvasMargin v → heading.InRange →
      Config.Allows c position heading

variable [Arithmetic] [Arithmetic.Doubles]

/-! ## Pauses -/

/-- A quotient of counts below the bound is a measure. -/
theorem Num.div_counts {a b : Int} (h : |(a : Rat) / b| < bound) :
    ∃ x, (Num.int a).div (.int b) = .ok x := by
  obtain ⟨r, hr, -⟩ := nearest_spec h
  have hround : Arithmetic.round ((a : Rat) / b) = .finite r :=
    (Arithmetic.Doubles.round_eq _).trans hr
  exact ⟨.finite r, by simp only [Num.div, hround]⟩

/-- A thousandth of a number is a measure if it stays below the bound where
    the number is a count. -/
theorem Value.div_thousand {n : Num}
    (h : ∀ i : Int, n = .int i → |(i : Rat) / (1000 : Int)| < bound) :
    ∃ x, (Value.num n).div 1000 = .ok x := by
  cases n with
  | int i =>
      obtain ⟨x, hx⟩ := Num.div_counts (h i rfl)
      exact ⟨x, Value.div_num hx⟩
  | real x =>
      obtain ⟨k, hk, -⟩ :=
        (Num.short_small (i := 1000) (by norm_num)).measure
      exact ⟨_, Value.div_num (Num.div_measured rfl hk (.inl ⟨x, rfl⟩))⟩

omit [Arithmetic] [Arithmetic.Doubles] in
/-- A thousandth of a count within the range stays within it. -/
theorem thousandth_small {i : Int} (h : |(i : Rat)| < bound) :
    |(i : Rat) / (1000 : Int)| < bound := by
  rw [abs_div]
  refine (div_le_self (abs_nonneg _) ?_).trans_lt h
  norm_num

/-- A pause lasts a number of seconds that can be measured if what it lasts
    in milliseconds is a measure, or a count whose thousandth is below the
    bound. -/
theorem pauseSeconds_num {n : Num}
    (h : ∀ i : Int, n = .int i → (i : Rat) / (1000 : Int) < bound) :
    ∃ seconds, Walker.pauseSeconds (.num n) = .ok seconds := by
  have hmax : (Value.num n).max 0
      = .ok (.num (if n.lt (.int 0) then .int 0 else n)) := by
    unfold Value.max Value.gt
    rw [show (0 : Value) = .num (.int 0) from rfl, Value.relate_num]
    show (if n.lt (.int 0) = true then _ else _) = _
    split <;> rfl
  unfold Walker.pauseSeconds
  rw [hmax]
  refine Value.div_thousand fun i hi => ?_
  by_cases hlt : n.lt (.int 0) = true
  · rw [if_pos hlt] at hi
    obtain rfl : (0 : Int) = i := Num.int.inj hi
    rw [Int.cast_zero, zero_div, abs_zero]
    exact bound_pos
  · rw [if_neg hlt] at hi
    subst hi
    have hpos : 0 ≤ i := by
      rw [Num.lt_int, decide_eq_true_eq] at hlt
      omega
    rw [abs_of_nonneg (div_nonneg (by exact_mod_cast hpos) (by norm_num))]
    exact h i rfl

/-- A pause within the range of doubles can be measured. -/
theorem Value.InRange.pauseSeconds {ms : Value} (h : ms.InRange) :
    ∃ seconds, Walker.pauseSeconds ms = .ok seconds := by
  obtain ⟨n, rfl, hn⟩ := h
  refine pauseSeconds_num fun i hi => ?_
  subst hi
  exact (le_abs_self _).trans_lt (thousandth_small hn.short.size)

/-! ## Settings and starts -/

omit [Arithmetic] [Arithmetic.Doubles] in
/-- Counts among which is zero can be measured, since they are no further
    from it than from each other. -/
theorem Num.Apart.short {ns : List Num} (h : Num.Apart (.int 0 :: ns))
    {i : Int} (hi : Num.int i ∈ .int 0 :: ns) : (Num.int i).Short := by
  refine ⟨rfl, ?_⟩
  have := h i 0 hi (List.mem_cons_self ..)
  rwa [sub_zero] at this

/-- A difference of numbers within the range of doubles. -/
theorem Value.InRange.sub {a b : Value} (ha : a.InRange) (hb : b.InRange) :
    ∃ d : Num, a.sub b = .ok (.num d) := by
  obtain ⟨m, rfl, hm⟩ := ha
  obtain ⟨n, rfl, hn⟩ := hb
  obtain ⟨x, hx, -⟩ := hm.short.measure
  obtain ⟨y, hy, -⟩ := hn.short.measure
  cases m with
  | real u =>
      exact ⟨_, Value.sub_num (Num.sub_measured hx hy (.inl ⟨u, rfl⟩))⟩
  | int i =>
      cases n with
      | real v =>
          exact ⟨_, Value.sub_num (Num.sub_measured hx hy (.inr ⟨v, rfl⟩))⟩
      | int j => exact ⟨_, Value.sub_num rfl⟩

/-- A spaced axis is spanned, and what starts on it is brought onto it. -/
theorem Value.Spaced.spans {size margin : Value} {start : Num}
    (h : size.Spaced margin start) (hsize : size.InRange)
    (hmargin : margin.InRange) :
    ∃ (ns : List Num) (high w : Value), Spans size margin ns
      ∧ size.sub margin = .ok high
      ∧ (Value.num start).clamp margin high = .ok w ∧ w.Coordinate ns := by
  obtain ⟨high, hhigh⟩ := hsize.sub hmargin
  obtain ⟨low, rfl, -⟩ := hmargin
  have hapart := h low high rfl hhigh
  generalize hns : [.int 0, low, high, start.clamp low high] = ns at hapart
  have hshort : ∀ i : Int, .int i ∈ ns → (Num.int i).Short := by
    subst hns
    exact fun i hi => hapart.short hi
  refine ⟨ns, _, _, ⟨⟨low, ?_, rfl⟩, ⟨high, ?_, hhigh⟩, ?_, hapart⟩, hhigh,
    Value.clamp_num start low high, ⟨_, rfl, .inl ?_⟩⟩
  · simp [← hns]
  · simp [← hns]
  · rintro (i | x) hn
    · exact (hshort i hn).measurable
    · exact Num.measurable_real
  · simp [← hns]

section

variable {c : Config} {columns rows ceiling : Int}

omit [Arithmetic] [Arithmetic.Doubles] in
/-- The loop ceiling can be written out. -/
theorem Config.Ranged.legible_ceiling (h : c.Ranged columns rows ceiling) :
    Value.legibleInt ceiling = true := by
  have hpos : (0 : Rat) ≤ ceiling := by
    exact_mod_cast (show 0 ≤ ceiling by linarith [h.positive])
  refine Value.legibleInt_small ?_
  rw [abs_of_nonneg hpos]
  exact h.ceiling

namespace Config.Spacious

variable (h : c.Spacious columns rows ceiling)

include h

/-- Waits in their domain can be measured. -/
theorem waitMs_ok {m : Num} (hlow : shortestWait.le m = true)
    (hhigh : m.le 10 = true) :
    ∃ ms seconds, Walker.waitMs c (.num m) = .ok ms
      ∧ Walker.pauseSeconds ms = .ok seconds := by
  obtain ⟨-, hpos, hten⟩ := wait_between hlow hhigh
  obtain ⟨hshort, -⟩ := wait_short hlow hhigh
  obtain ⟨k, hk, hkr⟩ := h.waitScale
  obtain ⟨z, hz, -⟩ := hkr.short.measure
  obtain ⟨t, ht, -⟩ := (Num.short_small (i := 1000) (by norm_num)).measure
  -- where the wait or the scale is a measure, so is the product
  have hmeasured : ∀ x : Scalar,
      (Value.num m).mul 1000 = .ok (.num (.real x)) →
      ∃ ms seconds, Walker.waitMs c (.num m) = .ok ms
        ∧ Walker.pauseSeconds ms = .ok seconds := by
    intro x hx
    obtain ⟨seconds, hseconds⟩ :=
      pauseSeconds_num (n := .real (x.mul z)) nofun
    refine ⟨_, seconds, ?_, hseconds⟩
    unfold Walker.waitMs
    rw [hx, hk]
    exact Value.mul_num (Num.mul_measured rfl hz (.inl ⟨x, rfl⟩))
  cases m with
  | real x =>
      exact hmeasured _
        (Value.mul_num (Num.mul_measured rfl ht (.inl ⟨x, rfl⟩)))
  | int i =>
      have hthousand : (Value.num (.int i)).mul 1000
          = .ok (.num (.int (i * 1000))) := Value.mul_num rfl
      have hi : (0 : Rat) ≤ i ∧ (i : Rat) ≤ 10 := ⟨hpos, hten⟩
      cases k with
      | real y =>
          have hsmall : (Num.int (i * 1000)).Short := by
            refine Num.short_small ?_
            push_cast
            rw [abs_of_nonneg (by linarith)]
            norm_num
            linarith
          obtain ⟨x, hx, -⟩ := hsmall.measure
          obtain ⟨seconds, hseconds⟩ :=
            pauseSeconds_num (n := .real (x.mul z)) nofun
          refine ⟨_, seconds, ?_, hseconds⟩
          unfold Walker.waitMs
          rw [hthousand, hk]
          exact Value.mul_num (Num.mul_measured hx hz (.inr ⟨y, rfl⟩))
      | int j =>
          obtain ⟨seconds, hseconds⟩ :=
            pauseSeconds_num (n := .int (i * 1000 * j)) (by
              intro _ heq
              obtain rfl := Num.int.inj heq
              have hj := h.waits j hk
              have hpos := bound_pos
              rw [show ((i * 1000 * j : Int) : Rat) / (1000 : Int)
                  = (i : Rat) * j by push_cast; ring]
              rcases le_total (j : Rat) 0 with hj0 | hj0
              · exact (mul_nonpos_of_nonneg_of_nonpos hi.1 hj0).trans_lt
                  hpos
              · exact (mul_le_mul_of_nonneg_right hi.2 hj0).trans_lt hj)
          have hproduct : (Num.int (i * 1000)).mul (.int j)
              = .ok (.int (i * 1000 * j)) := rfl
          refine ⟨_, seconds, ?_, hseconds⟩
          unfold Walker.waitMs
          rw [hthousand, hk]
          exact Value.mul_num hproduct

/-- The length of a move in its domain can be measured. -/
theorem length_ok (hmode : c.mode = .canvas) {d : Int} (hlow : 1 ≤ d)
    (hhigh : d ≤ 100) :
    ∃ k : Num, (Value.int d).mul c.unitStepPixels = .ok (.num k)
      ∧ k.Measurable := by
  obtain ⟨n, hn, hrange⟩ := h.unitStep
  obtain ⟨x, hx, -⟩ := hrange.short.measure
  cases n with
  | real y =>
      obtain ⟨z, hz, -⟩ := (Num.short_few (d := d) (by omega) (by omega)).measure
      rw [hn]
      exact ⟨_, Value.mul_num (Num.mul_measured hz hx (.inr ⟨y, rfl⟩)),
        Num.measurable_real⟩
  | int j =>
      have hshort : (Num.int (d * j)).Short := by
        refine ⟨rfl, ?_⟩
        show |((d * j : Int) : Rat)| < bound
        refine lt_of_le_of_lt ?_ (h.lengths hmode j hn)
        rw [Int.cast_mul, abs_mul, abs_mul]
        refine mul_le_mul_of_nonneg_right ?_ (abs_nonneg _)
        rw [abs_of_nonneg (by exact_mod_cast (by omega : 0 ≤ d)),
          abs_of_nonneg (by norm_num)]
        exact_mod_cast hhigh
      have hproduct : (Num.int d).mul (.int j) = .ok (.int (d * j)) := rfl
      rw [hn]
      exact ⟨_, Value.mul_num hproduct, hshort.measurable⟩

/-- **Spacious settings make a roomy stage** for every agent that starts
    where they allow it. -/
theorem roomy {goal : Option GoalRegion} (a : Agent)
    (hgoal : ∀ g, goal = some g → g.isNumeric = true)
    (ha : c.Allows a.position a.heading) :
    ∃ g : Room, Scene.Roomy ⟨c, goal, c.loopCeiling⟩ g
      ∧ g.ceiling = ceiling
      ∧ a.Starts ⟨c, goal, c.loopCeiling⟩ g := by
  -- all but the canvas is the same for everybody
  have hroomy : ∀ xs ys : List Num,
      (c.mode = .canvas → c.Drawable xs ys) →
      Scene.Roomy ⟨c, goal, c.loopCeiling⟩
        ⟨columns, rows, ceiling, xs, ys⟩ := by
    intro xs ys hdrawable
    refine ⟨h.mode, h.counted, fun n hn hlast => ?_, h.loops, h.loops,
      h.positive, hdrawable,
      h.timings _ (by simp), h.timings _ (by simp), ?_, ?_,
      fun m hlow hhigh => h.waitMs_ok hlow hhigh, hgoal⟩
    · exact Num.Short.measurable ⟨rfl,
        hlast.elim (index_small h.columns hn) (index_small h.rows hn)⟩
    · rintro ms (rfl | rfl | rfl)
      all_goals exact (h.timings _ (by simp)).pauseSeconds
    · obtain ⟨n, hn, hrange⟩ := h.timings c.frameMs (by simp)
      rw [hn]
      refine Value.div_thousand fun i hi => ?_
      subst hi
      exact thousandth_small hrange.short.size
  cases ha with
  | onGrid hmode hpos hcardinal =>
      have hno : c.mode ≠ .canvas := by
        rw [hmode]
        exact nofun
      exact ⟨_, hroomy [] [] fun hcanvas => absurd hcanvas hno, rfl,
        .onGrid hno hpos hcardinal⟩
  | @onCanvas u v hmode hpos hu hv hrange =>
      obtain ⟨xs, right, x, hxs, hright, hx, hxd⟩ :=
        hu.spans h.width h.margin
      obtain ⟨ys, bottom, y, hys, hbottom, hy, hyd⟩ :=
        hv.spans h.height h.margin
      refine ⟨_, hroomy xs ys
        fun _ => ⟨hxs, hys, fun d hd hd' => h.length_ok hmode hd hd'⟩, rfl,
        .onCanvas (q := (x, y)) hmode hpos ?_ ⟨hxd, hyd⟩ hrange⟩
      unfold insetPoint
      simp only [hright, hx, hbottom, hy, bind, Except.bind, pure,
        Except.pure]

end Config.Spacious

end

end BlockStage
