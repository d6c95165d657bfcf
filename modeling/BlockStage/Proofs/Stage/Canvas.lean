import BlockStage.Proofs.Number.Finite
import BlockStage.Run.Animation

/-! # Canvas moves — every glide and every turn can be calculated

    Where an agent stands on the canvas each coordinate is a measure, or one
    of a few counts: the margin, the far edge and the place it started from.
    If these counts can be measured, and so can the way from one to another,
    then moves end at such places and pass through nothing else
    (`Drawable.target`, `Coordinate.between`).  A turn from a heading within
    the range of doubles by at most a full turn stays within the range all
    along (`Arc.turns`). -/

namespace BlockStage

open Binary64

namespace Value

variable [Arithmetic] {m n k : Num} {x : Scalar}

theorem add_num (h : m.add n = .ok k) :
    (num m).add (num n) = .ok (num k) := by
  show calculate ((m.add n).map num) = _
  rw [h]
  rfl

theorem sub_num (h : m.sub n = .ok k) :
    (num m).sub (num n) = .ok (num k) := by
  show calculate ((m.sub n).map num) = _
  rw [h]
  rfl

theorem mul_num (h : m.mul n = .ok k) :
    (num m).mul (num n) = .ok (num k) := by
  show calculate ((m.mul n).map num) = _
  rw [h]
  rfl

theorem div_num (h : m.div n = .ok x) : (num m).div (num n) = .ok x := by
  show calculate (m.div n) = _
  rw [h]
  rfl

theorem measure_num (h : m.measure = .ok x) : (num m).measure = .ok x := by
  show calculate m.measure = _
  rw [h]
  rfl

/-- A number within the range of doubles. -/
def InRange (v : Value) : Prop := ∃ n : Num, v = num n ∧ n.InRange

/-- A coordinate: one of some numbers, or any measure. -/
def Coordinate (ns : List Num) (v : Value) : Prop :=
  ∃ n : Num, v = num n ∧ (n ∈ ns ∨ ∃ x, n = .real x)

end Value

/-- Counts no further apart than can be measured. -/
def Num.Apart (ns : List Num) : Prop :=
  ∀ m n : Int, .int m ∈ ns → .int n ∈ ns →
    |((m - n : Int) : Rat)| < bound

/-- Numbers among which are the two bounds of an axis, all of which can be
    measured, and the ways between them. -/
structure Spans [Arithmetic] (size margin : Value) (ns : List Num) : Prop where
  low : ∃ l ∈ ns, margin = .num l
  high : ∃ h ∈ ns, size.sub margin = .ok (.num h)
  measurable : ∀ n ∈ ns, n.Measurable
  apart : Num.Apart ns

variable [Arithmetic]

/-! ## Easing -/

section

variable [Arithmetic.Doubles]

/-- What is left of one. -/
theorem one_sub {t : Scalar} (h : t.isFinite = true) :
    (Scalar.finite 1).sub t = nearest (1 - t.value) := by
  rw [← Arithmetic.Doubles.round_eq, sub_eq_add_neg,
    ← (Scalar.neg_value h).2]
  unfold Scalar.sub
  rcases Scalar.isFinite_iff.1 (Scalar.neg_value h).1 with ⟨q, hq⟩ | hq
  · rw [hq]
    rfl
  · rw [hq]
    rfl

/-- An eased share lies between zero and one. -/
theorem easeOut_unit (x : Scalar) :
    ∃ e : Rat, easeOut (.num (.real x)) = .ok (.finite e)
      ∧ 0 ≤ e ∧ e ≤ 1 := by
  -- the share is brought into the unit interval
  obtain ⟨t, ht₀, ht₁, hclamp⟩ : ∃ t : Rat, 0 ≤ t ∧ t ≤ 1
      ∧ (Num.real x).clamp (.real (.finite 0)) (.real (.finite 1))
        = .real (.finite t) := by
    rcases Num.clamp_cases (.real x) (.real (.finite 0)) (.real (.finite 1))
      with heq | ⟨heq, -⟩ | ⟨heq, hlow, hhigh⟩
    · exact ⟨0, le_rfl, zero_le_one, heq⟩
    · exact ⟨1, zero_le_one, le_rfl, heq⟩
    · cases x with
      | finite q =>
          have hl : (0 : Rat) < q :=
            (Scalar.lt_iff (x := .finite 0) (y := .finite q) rfl rfl).1 hlow
          have hh : q < 1 :=
            (Scalar.lt_iff (x := .finite q) (y := .finite 1) rfl rfl).1 hhigh
          exact ⟨q, hl.le, hh.le, heq⟩
      | negZero =>
          have := (Scalar.lt_iff (x := .finite 0) (y := .negZero) rfl rfl).1
            hlow
          exact absurd this (lt_irrefl _)
      | inf negative => cases negative <;> contradiction
      | nan => contradiction
  obtain ⟨u, hu, hu₀, hu₁⟩ := nearest_unit (q := 1 - t) (by linarith)
    (by linarith)
  obtain ⟨c, hc, hc₀, hc₁⟩ := Arithmetic.Doubles.cube_unit u hu₀ hu₁
  obtain ⟨e, he, he₀, he₁⟩ := nearest_unit (q := 1 - c) (by linarith)
    (by linarith)
  refine ⟨e, ?_, he₀, he₁⟩
  have heased : ∀ v : Value, (do
      (Value.real (.finite 0)).max (← (Value.real (.finite 1)).min v))
        = v.clamp (.real (.finite 0)) (.real (.finite 1)) := fun v => rfl
  have hbound := Value.clamp_num (.real x) (.real (.finite 0))
    (.real (.finite 1))
  rw [hclamp] at hbound
  unfold easeOut
  obtain ⟨w, hw, hbound⟩ := bind_ok hbound
  have hw : (Value.real (.finite 1)).min (.num (.real x)) = .ok w := hw
  have hbound : (Value.real (.finite 0)).max w
    = .ok (.num (.real (.finite t))) := hbound
  have ht : (Value.num (.real (.finite t))).measure = .ok (.finite t) := rfl
  simp only [hw, hbound, ht, bind, Except.bind, pure, Except.pure]
  rw [one_sub (t := .finite t) rfl, show (Scalar.finite t).value = t from rfl,
    hu, hc, one_sub (t := .finite c) rfl,
    show (Scalar.finite c).value = c from rfl, he]

/-- The share of a duration within the range of doubles is a measure. -/
theorem progressAt_ok {ms : Value} (h : ms.InRange) (started now : Time) :
    ∃ x, progressAt ms started now = .ok (.real x) := by
  obtain ⟨n, rfl, hn⟩ := h
  obtain ⟨d, hd, -⟩ := hn.short.measure
  obtain ⟨k, hk, -⟩ := (Num.short_small (i := 1000) (by norm_num)).measure
  unfold progressAt Value.le
  rw [show (0 : Value) = .num (.int 0) from rfl, Value.relate_num]
  simp only [bind, Except.bind, pure, Except.pure]
  split
  · exact ⟨_, rfl⟩
  · rw [show (Value.real (now.sub started)).mul 1000
        = .ok (.num (.real ((now.sub started).mul k))) from
      Value.mul_num (Num.mul_measured rfl hk (.inl ⟨_, rfl⟩))]
    dsimp only
    rw [Value.div_num (Num.div_measured rfl hd (.inl ⟨_, rfl⟩))]
    dsimp only
    unfold Num.min
    split
    · exact ⟨_, rfl⟩
    · exact ⟨_, rfl⟩

end

/-! ## Glides -/

namespace Value.Coordinate

variable {ns : List Num} {u v : Value} {size margin : Value}

theorem measurable (h : Spans size margin ns) (hv : v.Coordinate ns) :
    ∃ n : Num, v = .num n ∧ n.Measurable := by
  obtain ⟨n, rfl, hn | ⟨x, rfl⟩⟩ := hv
  · exact ⟨n, rfl, h.measurable n hn⟩
  · exact ⟨_, rfl, Num.measurable_real⟩

omit [Arithmetic] in
theorem real (x : Scalar) : (Value.real x).Coordinate ns :=
  ⟨_, rfl, .inr ⟨x, rfl⟩⟩

/-- The way from one coordinate to another can be measured. -/
theorem way (h : Spans size margin ns) (hu : u.Coordinate ns)
    (hv : v.Coordinate ns) [Arithmetic.Doubles] :
    ∃ k : Num, v.sub u = .ok (.num k) ∧ k.Measurable := by
  obtain ⟨m, rfl, x, hx⟩ := hu.measurable h
  obtain ⟨n, rfl, y, hy⟩ := hv.measurable h
  have hmeasured : Num.OneMeasured n m → ∃ k : Num,
      (Value.num n).sub (.num m) = .ok (.num k) ∧ k.Measurable := fun hone =>
    ⟨_, Value.sub_num (Num.sub_measured hy hx hone), Num.measurable_real⟩
  cases n with
  | real z => exact hmeasured (.inl ⟨z, rfl⟩)
  | int j =>
      cases m with
      | real z => exact hmeasured (.inr ⟨z, rfl⟩)
      | int i =>
          -- two counts are among the numbers of the axis
          obtain ⟨_, ⟨⟩, hi | ⟨_, ⟨⟩⟩⟩ := hu
          obtain ⟨_, ⟨⟩, hj | ⟨_, ⟨⟩⟩⟩ := hv
          have hshort : (Num.int (j - i)).Short := ⟨rfl, h.apart j i hj hi⟩
          exact ⟨_, Value.sub_num rfl, hshort.measurable⟩

/-- Every place on the way is a measure. -/
theorem between (h : Spans size margin ns) (hu : u.Coordinate ns)
    (hv : v.Coordinate ns) [Arithmetic.Doubles] (x : Scalar) :
    ∃ z, interpolate u v (.num (.real x)) = .ok (.real z) := by
  obtain ⟨k, hk, w, hw⟩ := way h hu hv
  obtain ⟨m, rfl, y, hy⟩ := hu.measurable h
  obtain ⟨e, he, -⟩ := easeOut_unit x
  unfold interpolate
  rw [hk, he]
  simp only [bind, Except.bind]
  rw [show (Value.num k).mul (.real (.finite e))
      = .ok (.num (.real (w.mul (.finite e)))) from
    Value.mul_num (Num.mul_measured hw rfl (.inr ⟨_, rfl⟩))]
  exact ⟨_, Value.add_num (Num.add_measured hy rfl (.inr ⟨_, rfl⟩))⟩

end Value.Coordinate

/-- A coordinate is brought between the bounds of its axis. -/
theorem Spans.clamp {size margin v : Value} {ns : List Num}
    (h : Spans size margin ns) (hv : v.Coordinate ns) :
    ∃ high w, size.sub margin = .ok high ∧ v.clamp margin high = .ok w
      ∧ w.Coordinate ns := by
  obtain ⟨l, hl, rfl⟩ := h.low
  obtain ⟨t, ht, hhigh⟩ := h.high
  obtain ⟨n, rfl, hn⟩ := hv
  refine ⟨_, _, hhigh, Value.clamp_num n l t, _, rfl, ?_⟩
  rcases Num.clamp_cases n l t with heq | ⟨heq, -⟩ | ⟨heq, -⟩
  · rw [heq]
    exact .inl hl
  · rw [heq]
    exact .inl ht
  · rw [heq]
    exact hn

/-- A canvas on which agents can move: its two axes are spanned, and the
    lengths of moves can be measured. -/
structure Config.Drawable (c : Config) (xs ys : List Num) : Prop where
  across : Spans c.canvasWidth c.canvasMargin xs
  down : Spans c.canvasHeight c.canvasMargin ys
  lengths : ∀ d : Int, 1 ≤ d → d ≤ 100 →
    ∃ k : Num, (Value.int d).mul c.unitStepPixels = .ok (.num k)
      ∧ k.Measurable

/-- A place on the canvas. -/
def Point.Drawn (xs ys : List Num) (p : Point) : Prop :=
  p.1.Coordinate xs ∧ p.2.Coordinate ys

namespace Config.Drawable

variable {c : Config} {xs ys : List Num} {p : Point}

/-- Every place is brought onto the canvas. -/
theorem inset (h : c.Drawable xs ys) (hp : p.Drawn xs ys) :
    ∃ q, insetPoint c p = .ok q ∧ q.Drawn xs ys := by
  obtain ⟨right, x, hright, hx, hxs⟩ := h.across.clamp hp.1
  obtain ⟨bottom, y, hbottom, hy, hys⟩ := h.down.clamp hp.2
  refine ⟨(x, y), ?_, hxs, hys⟩
  unfold insetPoint
  simp only [hright, hx, hbottom, hy, bind, Except.bind, pure, Except.pure]

variable [Arithmetic.Doubles]

omit [Arithmetic] [Arithmetic.Doubles] in
/-- One degree is less than one. -/
theorem degree_small : degreeInRadians.isFinite = true
    ∧ |degreeInRadians.value| ≤ 1 := by
  decide +kernel

/-- The direction of a heading is a finite number of radians. -/
theorem radians {heading : Value} (h : heading.InRange) :
    ∃ v x, heading.sub 90 = .ok v ∧ v.measure = .ok x
      ∧ (x.mul degreeInRadians).isFinite = true := by
  obtain ⟨n, rfl, hn⟩ := h
  obtain ⟨hfin, hsmall⟩ := degree_small
  -- a quarter turn less does not leave the range
  suffices hless : ∃ k : Num, (Value.num n).sub 90 = .ok (.num k)
      ∧ ∃ x, k.measure = .ok x ∧ x.Within greatest by
    obtain ⟨k, hk, x, hx, hwithin⟩ := hless
    refine ⟨_, x, hk, Value.measure_num hx, ?_⟩
    refine (Scalar.near_mul hwithin.finite hfin ?_).finite
    rw [abs_mul]
    calc |x.value| * |degreeInRadians.value|
        ≤ |x.value| * 1 :=
          mul_le_mul_of_nonneg_left hsmall (abs_nonneg _)
      _ ≤ greatest := by rw [mul_one]; exact hwithin.size
      _ < bound := greatest_lt_bound
  have hroom : ∀ q : Rat, |q| ≤ greatest → |q - 90| < bound := by
    intro q hq
    have hlarge := lastHalf_large
    unfold greatest at hq
    unfold bound
    rw [abs_le] at hq
    rw [abs_lt]
    constructor <;> linarith [hq.1, hq.2]
  cases n with
  | int i =>
      have hq : |((i - 90 : Int) : Rat)| < bound := by
        push_cast
        exact hroom i hn.size
      obtain ⟨r, hr, hsize, -⟩ := nearest_spec hq
      refine ⟨.int (i - 90), Value.sub_num rfl, .finite r, ?_, rfl, hsize⟩
      have hround : Arithmetic.round ((i - 90 : Int) : Rat) = .finite r :=
        (Arithmetic.Doubles.round_eq _).trans hr
      simp only [Num.measure, hround]
  | real x =>
      have hninety : (Num.int 90).measure = .ok (.finite 90) := by
        have hround : Arithmetic.round ((90 : Int) : Rat) = .finite 90 :=
          (Arithmetic.Doubles.round_eq _).trans (by decide +kernel)
        simp only [Num.measure, hround]
      have hnear := Scalar.near_sub (x := x) (y := .finite 90) hn.finite rfl
        (hroom x.value hn.size)
      exact ⟨.real (x.sub (.finite 90)),
        Value.sub_num (Num.sub_measured rfl hninety (.inl ⟨x, rfl⟩)),
        _, rfl, hnear.within⟩

/-- Every move ends somewhere on the canvas. -/
theorem target (h : c.Drawable xs ys) (hp : p.Drawn xs ys) {heading : Value}
    (hh : heading.InRange) {d : Int} (hlow : 1 ≤ d) (hhigh : d ≤ 100) :
    ∃ q, canvasTarget c p.position heading (.int d) = .ok q
      ∧ q.Drawn xs ys := by
  obtain ⟨v, x, hv, hx, hfin⟩ := radians hh
  obtain ⟨k, hk, l, hl⟩ := h.lengths d hlow hhigh
  obtain ⟨m, hm, a, ha⟩ := hp.1.measurable h.across
  obtain ⟨n, hn, b, hb⟩ := hp.2.measurable h.down
  have hangle : ∀ f : Scalar → Scalar,
      Value.calculate (ofAngle f (x.mul degreeInRadians))
        = .ok (f (x.mul degreeInRadians)) := by
    intro f
    rcases Scalar.isFinite_iff.1 hfin with ⟨q, hq⟩ | hq
    · rw [hq]
      rfl
    · rw [hq]
      rfl
  -- whatever sine and cosine are, the way along an axis is a measure
  have hway : ∀ z : Scalar, (Value.real z).mul (.num k)
      = .ok (.num (.real (z.mul l))) := fun z =>
    Value.mul_num (Num.mul_measured rfl hl (.inl ⟨z, rfl⟩))
  unfold canvasTarget
  rw [show Value.pairOf p.position = .ok p from rfl]
  simp only [hv, hx, hk, hangle, hway, bind, Except.bind]
  rw [hm, hn,
    Value.add_num (Num.add_measured ha rfl (.inr ⟨_, rfl⟩)),
    Value.add_num (Num.add_measured hb rfl (.inr ⟨_, rfl⟩))]
  exact h.inset ⟨.real _, .real _⟩

end Config.Drawable

/-! ## Swings -/

section

variable [Arithmetic.Doubles]

/-- A turn that stays within the range of doubles: from a heading, by a way
    that is short beside the range, to a heading that hardly leaves it. -/
def Value.Arc (start finish : Value) : Prop :=
  ∃ (m k : Num) (x w : Scalar), start = .num m
    ∧ finish.sub start = .ok (.num k) ∧ m.measure = .ok x
    ∧ k.measure = .ok w ∧ x.Within greatest ∧ w.Within (4 * lastHalf)
    ∧ |x.value + w.value| ≤ greatest + lastHalf / 2

/-- Every heading on the way of a turn lies within the range of doubles. -/
theorem Value.Arc.turns {start finish : Value} (h : start.Arc finish)
    (x : Scalar) : ∃ v, interpolate start finish (.num (.real x)) = .ok v
      ∧ v.InRange := by
  obtain ⟨m, k, x₀, w, rfl, hk, hm, hkw, hx₀, hw, hend⟩ := h
  obtain ⟨e, he, he₀, he₁⟩ := easeOut_unit x
  have hlarge := lastHalf_large
  have hless : 1 - e ≥ 0 := sub_nonneg.2 he₁
  have hshare : |w.value * e| ≤ 4 * lastHalf := by
    rw [abs_mul, abs_of_nonneg he₀]
    exact (mul_le_of_le_one_right (abs_nonneg _) he₁).trans hw.size
  have hpart := Scalar.near_mul (x := w) (y := .finite e) hw.finite rfl
    (hshare.trans_lt (by unfold bound; linarith))
  generalize hp : w.mul (.finite e) = p at hpart
  have hpart' : |p.value - w.value * e| ≤ slack (w.value * e) := hpart.close
  have hclose : |p.value - w.value * e| ≤ lastHalf / 4 := by
    refine hpart'.trans ?_
    unfold slack
    linarith [leastHalf_le]
  -- between the two ends, but for what rounding adds
  have hmid : |x₀.value + w.value * e| ≤ greatest + lastHalf / 2 := by
    have hsplit : x₀.value + w.value * e
        = (1 - e) * x₀.value + e * (x₀.value + w.value) := by ring
    rw [hsplit]
    calc |(1 - e) * x₀.value + e * (x₀.value + w.value)|
        ≤ (1 - e) * |x₀.value| + e * |x₀.value + w.value| := by
          refine (abs_add_le _ _).trans ?_
          rw [abs_mul, abs_mul, abs_of_nonneg he₀, abs_of_nonneg hless]
      _ ≤ (1 - e) * (greatest + lastHalf / 2)
          + e * (greatest + lastHalf / 2) := by
          refine add_le_add (mul_le_mul_of_nonneg_left ?_ hless)
            (mul_le_mul_of_nonneg_left hend he₀)
          linarith [hx₀.size]
      _ = greatest + lastHalf / 2 := by ring
  have hsum : |x₀.value + p.value| < bound := by
    have hsplit : x₀.value + p.value
        = (x₀.value + w.value * e) + (p.value - w.value * e) := by ring
    have hadd := abs_add_le (x₀.value + w.value * e)
      (p.value - w.value * e)
    rw [hsplit]
    unfold greatest at hmid
    unfold bound
    linarith
  have hnear := Scalar.near_add hx₀.finite hpart.finite hsum
  refine ⟨.real (x₀.add p), ?_, _, rfl, hnear.within⟩
  unfold interpolate
  rw [hk, he]
  simp only [bind, Except.bind]
  rw [show (Value.num k).mul (.real (.finite e)) = .ok (.num (.real p)) from
    hp ▸ Value.mul_num (Num.mul_measured hkw rfl (.inr ⟨_, rfl⟩))]
  exact Value.add_num (Num.add_measured hm rfl (.inr ⟨_, rfl⟩))

/-- A turn by at most a full turn stays within the range of doubles. -/
theorem Value.InRange.arc {heading : Value} (h : heading.InRange) {d : Int}
    (hd : |(d : Rat)| ≤ 360) :
    ∃ finish, heading.add (.int d) = .ok finish ∧ heading.Arc finish := by
  obtain ⟨m, rfl, hm⟩ := h
  have hlarge := lastHalf_large
  have htiny := leastHalf_le
  have hsmall : (Num.int d).Short := Num.short_small (hd.trans (by norm_num))
  obtain ⟨y, hy, hyfin, hyclose, -⟩ := hsmall.measure
  have hysize : |y.value| ≤ 400 := by
    have hsplit : y.value = (y.value - d) + d := by ring
    have hadd := abs_add_le (y.value - d) (d : Rat)
    have hyclose : |y.value - (d : Rat)| ≤ |(d : Rat)| / 2 ^ 53 + leastHalf :=
      hyclose
    rw [hsplit]
    linarith
  cases m with
  | int i =>
      -- the way is the count of degrees itself
      obtain ⟨x, hx, -, -, hwithin⟩ := hm.short.measure
      have hxs := hwithin hm
      refine ⟨.int (i + d), Value.add_num rfl, .int i, .int d, x, y, rfl, ?_,
        hx, hy, hxs, ⟨hyfin, by linarith⟩, ?_⟩
      · have hway : (Num.int (i + d)).sub (.int i) = .ok (.int d) := by
          show Except.ok (Num.int (i + d - i)) = _
          rw [add_sub_cancel_left]
        exact Value.sub_num hway
      · linarith [abs_add_le x.value y.value, hxs.size]
  | real x =>
      have hxs : |x.value| ≤ greatest := hm.size
      have hadd := abs_add_le x.value y.value
      have hsum : |x.value + y.value| < bound := by
        unfold greatest at hxs
        unfold bound
        linarith
      have hfinish := Scalar.near_add (x := x) hm.finite hyfin hsum
      generalize hz : x.add y = z at hfinish
      have hzclose : |z.value - (x.value + y.value)|
          ≤ |x.value + y.value| / 2 ^ 53 + leastHalf := hfinish.close
      have hway : |z.value - x.value| ≤ 3 * lastHalf := by
        have hsplit : z.value - x.value
            = (z.value - (x.value + y.value)) + y.value := by ring
        rw [hsplit]
        unfold greatest at hxs
        linarith [abs_add_le (z.value - (x.value + y.value)) y.value]
      have hbig : 3 * lastHalf < bound := by
        unfold bound
        linarith
      have hback := Scalar.near_sub (y := x) hfinish.finite hm.finite
        (hway.trans_lt hbig)
      generalize hw : z.sub x = w at hback
      have hwclose : |w.value - (z.value - x.value)|
          ≤ |z.value - x.value| / 2 ^ 53 + leastHalf := hback.close
      have hwclose : |w.value - (z.value - x.value)| ≤ lastHalf / 2 := by
        linarith
      refine ⟨.real z, hz ▸ Value.add_num (Num.add_measured rfl hy
        (.inl ⟨x, rfl⟩)), .real x, .real w, x, w, rfl,
        hw ▸ Value.sub_num (Num.sub_measured rfl rfl (.inl ⟨z, rfl⟩)), rfl,
        rfl, hm, ⟨hback.finite, ?_⟩, ?_⟩
      · have hsplit : w.value
            = (w.value - (z.value - x.value)) + (z.value - x.value) := by ring
        rw [hsplit]
        linarith [abs_add_le (w.value - (z.value - x.value))
          (z.value - x.value)]
      · have hsplit : x.value + w.value
            = z.value + (w.value - (z.value - x.value)) := by ring
        rw [hsplit]
        linarith [abs_add_le z.value (w.value - (z.value - x.value)),
          hfinish.within.size]

end

end BlockStage
