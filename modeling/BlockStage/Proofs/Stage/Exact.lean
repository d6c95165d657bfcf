import BlockStage.Proofs.Stage.Canvas

/-! # Exact arithmetic — every result is the ratio it stands for

    Where nothing is rounded a finite number denotes a ratio, whichever zero
    it is and whether it is a count or a measure, and what is calculated from
    numbers denotes what is calculated from their ratios (`Value.Denotes`).
    The ease-out curve is then the polynomial it is named for: it begins at
    zero, ends at one and never falls (`eased_mono`). -/

namespace BlockStage

/-- Exact arithmetic: a ratio is kept as it is, and so is its third power. -/
class Arithmetic.Exact [Arithmetic] : Prop where
  round_eq : ∀ q, Arithmetic.round q = .finite q
  cube_eq : ∀ q, Arithmetic.cube (.finite q) = .finite (q * q * q)

/-- Exact arithmetic is exact, whatever sine and cosine are. -/
theorem Arithmetic.exact_exact (sin cos : Scalar → Scalar) :
    @Arithmetic.Exact (.exact sin cos) :=
  @Arithmetic.Exact.mk (.exact sin cos) (fun _ => rfl) fun _ => rfl

/-- Exact arithmetic in which every angle is none: its sine is zero and its
    cosine one. -/
@[reducible] def Arithmetic.level : Arithmetic :=
  .exact (fun _ => .finite 0) fun _ => .finite 1

/-- A ratio brought between two bounds, the lower one winning. -/
def confined (low high q : Rat) : Rat := max low (min high q)

/-- A finite measure that stands for a ratio. -/
def Scalar.Denotes (x : Scalar) (q : Rat) : Prop :=
  x.isFinite = true ∧ x.value = q

/-- A finite number that stands for a ratio. -/
def Num.Denotes (n : Num) (q : Rat) : Prop := n.exact.Denotes q

/-- A value that is a number and stands for a ratio. -/
def Value.Denotes (v : Value) (q : Rat) : Prop :=
  ∃ n : Num, v = .num n ∧ n.Denotes q

namespace Scalar

variable {x y : Scalar} {p q : Rat}

theorem denotes_finite : (finite q).Denotes q := ⟨rfl, rfl⟩

/-- Two measures that stand for ratios compare as these do. -/
theorem Denotes.le_iff (hx : x.Denotes p) (hy : y.Denotes q) :
    x.le y = true ↔ p ≤ q := by
  rw [Scalar.le_iff hx.1 hy.1, hx.2, hy.2]

theorem Denotes.lt_iff (hx : x.Denotes p) (hy : y.Denotes q) :
    x.lt y = true ↔ p < q := by
  rw [Scalar.lt_iff hx.1 hy.1, hx.2, hy.2]

/-- Apart from zero there is one measure for a ratio. -/
theorem Denotes.eq_finite (hx : x.Denotes q) (h : q ≠ 0) : x = finite q := by
  obtain ⟨hfin, rfl⟩ := hx
  rcases isFinite_iff.1 hfin with ⟨r, rfl⟩ | rfl
  · rfl
  · exact absurd rfl h

theorem denotes_signZero {negative : Bool} :
    (signZero negative (finite q)).Denotes q :=
  signZero_value rfl

variable [Arithmetic]

/-- A sum that is kept as it is stands for the sum of the ratios. -/
theorem Denotes.add_kept (hx : x.Denotes p) (hy : y.Denotes q)
    (hkept : Arithmetic.round (p + q) = finite (p + q)) :
    (x.add y).Denotes (p + q) := by
  obtain ⟨hx, rfl⟩ := hx
  obtain ⟨hy, rfl⟩ := hy
  rcases add_finite hx hy with heq | ⟨heq, hzero⟩
  · rw [heq, hkept]
    exact denotes_finite
  · rw [heq, hzero]
    exact ⟨rfl, rfl⟩

variable [Arithmetic.Exact]

theorem Denotes.add (hx : x.Denotes p) (hy : y.Denotes q) :
    (x.add y).Denotes (p + q) :=
  hx.add_kept hy (Arithmetic.Exact.round_eq _)

theorem Denotes.sub (hx : x.Denotes p) (hy : y.Denotes q) :
    (x.sub y).Denotes (p - q) := by
  obtain ⟨hfin, hvalue⟩ := neg_value hy.1
  rw [sub_eq_add_neg, ← hy.2, ← hvalue]
  exact hx.add ⟨hfin, rfl⟩

theorem Denotes.mul (hx : x.Denotes p) (hy : y.Denotes q) :
    (x.mul y).Denotes (p * q) := by
  obtain ⟨hx, rfl⟩ := hx
  obtain ⟨hy, rfl⟩ := hy
  have heq : x.mul y = signZero (x.isNegative != y.isNegative)
      (finite (x.value * y.value)) := by
    rw [← Arithmetic.Exact.round_eq]
    rcases isFinite_iff.1 hx with ⟨q, rfl⟩ | rfl <;>
      rcases isFinite_iff.1 hy with ⟨r, rfl⟩ | rfl <;> rfl
  rw [heq]
  exact denotes_signZero

theorem Denotes.div (hx : x.Denotes p) (hy : y.Denotes q) (hq : q ≠ 0) :
    (x.div y).Denotes (p / q) := by
  obtain rfl := hy.eq_finite hq
  obtain ⟨hx, rfl⟩ := hx
  have heq : x.div (finite q) = signZero (x.isNegative != (finite q).isNegative)
      (finite (x.value / q)) := by
    rcases isFinite_iff.1 hx with ⟨r, rfl⟩ | rfl <;>
      simp [Scalar.div, isZero, hq, value, Arithmetic.Exact.round_eq]
  rw [heq]
  exact denotes_signZero

/-- A difference of ratios is never the zero below. -/
theorem finite_sub : (finite p).sub (finite q) = finite (p - q) := by
  have hsum : (finite p).sub (finite q) = Arithmetic.round (p - q) := by
    by_cases hq : q = 0
    · subst hq
      simp [sub, neg, add, value]
    · simp [sub, neg, hq, add, value, sub_eq_add_neg]
  rw [hsum, Arithmetic.Exact.round_eq]

/-- Neither is any other difference, unless nothing is taken away. -/
theorem Denotes.sub_finite (hx : x.Denotes p) (hq : q ≠ 0) :
    x.sub (finite q) = finite (p - q) := by
  obtain ⟨hfin, rfl⟩ := hx
  rcases isFinite_iff.1 hfin with ⟨r, rfl⟩ | rfl
  · exact finite_sub
  · simp [Scalar.sub, neg, hq, Scalar.add, value, Arithmetic.Exact.round_eq]

/-- A product with a ratio above zero is the zero below for that one
    only. -/
theorem finite_mul (hq : 0 < q) :
    (finite p).mul (finite q) = finite (p * q) := by
  have hsign : ¬ (p < 0 ∧ p = 0) := fun h => h.1.ne h.2
  simp only [mul, isNegative, not_lt.2 hq.le, value, signZero,
    Arithmetic.Exact.round_eq]
  simp [hq.ne', hsign]

/-- A quotient of ratios from zero on is not the zero below. -/
theorem finite_div (hp : 0 ≤ p) (hq : 0 < q) :
    (finite p).div (finite q) = finite (p / q) := by
  simp [div, isZero, hq.ne', isNegative, not_lt.2 hp, not_lt.2 hq.le, value,
    signZero, Arithmetic.Exact.round_eq]

end Scalar

namespace Num

variable {m n k : Num} {p q : Rat}

theorem Denotes.min (hm : m.Denotes p) (hn : n.Denotes q) :
    (m.min n).Denotes (Min.min p q) := by
  unfold Num.min
  split
  · rename_i h
    rw [min_eq_right ((Scalar.Denotes.lt_iff hn hm).1 h).le]
    exact hn
  · rename_i h
    rw [min_eq_left (not_lt.1 (mt (Scalar.Denotes.lt_iff hn hm).2 h))]
    exact hm

theorem Denotes.max (hm : m.Denotes p) (hn : n.Denotes q) :
    (m.max n).Denotes (Max.max p q) := by
  unfold Num.max
  split
  · rename_i h
    rw [max_eq_right ((Scalar.Denotes.lt_iff hm hn).1 h).le]
    exact hn
  · rename_i h
    rw [max_eq_left (not_lt.1 (mt (Scalar.Denotes.lt_iff hm hn).2 h))]
    exact hm

/-- A number brought between two others denotes its ratio brought between
    theirs. -/
theorem Denotes.clamp {l r : Rat} (hn : n.Denotes q) (hm : m.Denotes l)
    (hk : k.Denotes r) : (n.clamp m k).Denotes (confined l r q) :=
  hm.max (hk.min hn)

/-- Unless both are counts, numbers are calculated with as measures. -/
theorem counts_or (m n : Num) :
    (∃ i j, m = .int i ∧ n = .int j) ∨ OneMeasured m n := by
  cases m with
  | real x => exact .inr (.inl ⟨x, rfl⟩)
  | int i =>
      cases n with
      | real y => exact .inr (.inr ⟨y, rfl⟩)
      | int j => exact .inl ⟨i, j, rfl, rfl⟩

/-- A count stands for itself. -/
theorem denotes_int (i : Int) : (int i).Denotes i := ⟨rfl, rfl⟩

variable [Arithmetic]

/-- A number whose ratio is kept as it is is measured as what it stands
    for. -/
theorem Denotes.measure_kept (hn : n.Denotes q)
    (hkept : Arithmetic.round q = .finite q) :
    ∃ x, n.measure = .ok x ∧ x.Denotes q := by
  cases n with
  | real x => exact ⟨x, rfl, hn⟩
  | int i =>
      obtain ⟨-, rfl⟩ := hn
      refine ⟨.finite i, ?_, Scalar.denotes_finite⟩
      simp only [Num.measure, show Arithmetic.round (i : Rat) = .finite i from
        hkept]

/-- Numbers are added without rounding if they and their sum are kept as they
    are. -/
theorem Denotes.add_kept (hm : m.Denotes p) (hn : n.Denotes q)
    (hp : Arithmetic.round p = .finite p) (hq : Arithmetic.round q = .finite q)
    (hsum : Arithmetic.round (p + q) = .finite (p + q)) :
    ∃ k, m.add n = .ok k ∧ k.Denotes (p + q) := by
  obtain ⟨x, hx, hxp⟩ := hm.measure_kept hp
  obtain ⟨y, hy, hyq⟩ := hn.measure_kept hq
  rcases counts_or m n with ⟨i, j, rfl, rfl⟩ | hone
  · refine ⟨_, rfl, ?_⟩
    rw [← hm.2, ← hn.2]
    exact ⟨rfl, Rat.intCast_add i j⟩
  · exact ⟨_, add_measured hx hy hone, hxp.add_kept hyq hsum⟩

variable [Arithmetic.Exact]

theorem Denotes.measure (hn : n.Denotes q) :
    ∃ x, n.measure = .ok x ∧ x.Denotes q :=
  hn.measure_kept (Arithmetic.Exact.round_eq q)

theorem Denotes.add (hm : m.Denotes p) (hn : n.Denotes q) :
    ∃ k, m.add n = .ok k ∧ k.Denotes (p + q) :=
  hm.add_kept hn (Arithmetic.Exact.round_eq p) (Arithmetic.Exact.round_eq q)
    (Arithmetic.Exact.round_eq _)

theorem Denotes.sub (hm : m.Denotes p) (hn : n.Denotes q) :
    ∃ k, m.sub n = .ok k ∧ k.Denotes (p - q) := by
  obtain ⟨x, hx, hxp⟩ := hm.measure
  obtain ⟨y, hy, hyq⟩ := hn.measure
  rcases counts_or m n with ⟨i, j, rfl, rfl⟩ | hone
  · refine ⟨_, rfl, ?_⟩
    rw [← hm.2, ← hn.2]
    exact ⟨rfl, Rat.intCast_sub i j⟩
  · exact ⟨_, sub_measured hx hy hone, hxp.sub hyq⟩

theorem Denotes.mul (hm : m.Denotes p) (hn : n.Denotes q) :
    ∃ k, m.mul n = .ok k ∧ k.Denotes (p * q) := by
  obtain ⟨x, hx, hxp⟩ := hm.measure
  obtain ⟨y, hy, hyq⟩ := hn.measure
  rcases counts_or m n with ⟨i, j, rfl, rfl⟩ | hone
  · refine ⟨_, rfl, ?_⟩
    rw [← hm.2, ← hn.2]
    exact ⟨rfl, Rat.intCast_mul i j⟩
  · exact ⟨_, mul_measured hx hy hone, hxp.mul hyq⟩

theorem Denotes.div (hm : m.Denotes p) (hn : n.Denotes q) (hq : q ≠ 0) :
    ∃ x, m.div n = .ok x ∧ x.Denotes (p / q) := by
  obtain ⟨x, hx, hxp⟩ := hm.measure
  obtain ⟨y, hy, hyq⟩ := hn.measure
  rcases counts_or m n with ⟨i, j, rfl, rfl⟩ | hone
  · have hquotient : (int i).div (int j) = .ok (.finite ((i : Rat) / j)) := by
      simp only [Num.div, Arithmetic.Exact.round_eq]
    refine ⟨_, hquotient, ?_⟩
    rw [← hm.2, ← hn.2]
    exact Scalar.denotes_finite
  · exact ⟨_, div_measured hx hy hone, hxp.div hyq hq⟩

end Num

namespace Value

variable {u v low high : Value} {p q : Rat}

theorem denotes_int (i : Int) : (Value.int i).Denotes i :=
  ⟨.int i, rfl, Num.denotes_int i⟩

theorem denotes_real {x : Scalar} (h : x.Denotes q) : (Value.real x).Denotes q :=
  ⟨.real x, rfl, h⟩

/-- It is a number. -/
theorem Denotes.isNumber (hv : v.Denotes q) : v.number?.isSome = true := by
  obtain ⟨n, rfl, -⟩ := hv
  rfl

theorem Denotes.clamp {l r : Rat} (hv : v.Denotes q) (hlow : low.Denotes l)
    (hhigh : high.Denotes r) :
    ∃ w, v.clamp low high = .ok w ∧ w.Denotes (confined l r q) := by
  obtain ⟨n, rfl, hn⟩ := hv
  obtain ⟨m, rfl, hm⟩ := hlow
  obtain ⟨k, rfl, hk⟩ := hhigh
  exact ⟨_, clamp_num n m k, _, rfl, hn.clamp hm hk⟩

/-- A value that denotes a ratio is at most one that denotes another if the
    ratio is. -/
theorem Denotes.le (hu : u.Denotes p) (hv : v.Denotes q) :
    u.le v = .ok (decide (p ≤ q)) := by
  obtain ⟨m, rfl, hm⟩ := hu
  obtain ⟨n, rfl, hn⟩ := hv
  unfold Value.le
  rw [relate_num]
  refine congrArg Except.ok (Bool.eq_iff_iff.2 ?_)
  rw [decide_eq_true_iff]
  exact Scalar.Denotes.le_iff hm hn

/-- The opposite of a number that denotes a ratio. -/
theorem Denotes.neg (hv : v.Denotes q) :
    ∃ w, v.neg = .ok w ∧ w.Denotes (-q) := by
  obtain ⟨n, rfl, hn⟩ := hv
  refine ⟨_, rfl, n.neg, rfl, ?_⟩
  cases n with
  | int i =>
      rw [← hn.2]
      exact ⟨rfl, Rat.intCast_neg i⟩
  | real x =>
      rw [← hn.2]
      exact Scalar.neg_value hn.1

variable [Arithmetic] [Arithmetic.Exact]

theorem Denotes.add (hu : u.Denotes p) (hv : v.Denotes q) :
    ∃ w, u.add v = .ok w ∧ w.Denotes (p + q) := by
  obtain ⟨m, rfl, hm⟩ := hu
  obtain ⟨n, rfl, hn⟩ := hv
  obtain ⟨k, hk, hkq⟩ := hm.add hn
  exact ⟨_, add_num hk, k, rfl, hkq⟩

theorem Denotes.sub (hu : u.Denotes p) (hv : v.Denotes q) :
    ∃ w, u.sub v = .ok w ∧ w.Denotes (p - q) := by
  obtain ⟨m, rfl, hm⟩ := hu
  obtain ⟨n, rfl, hn⟩ := hv
  obtain ⟨k, hk, hkq⟩ := hm.sub hn
  exact ⟨_, sub_num hk, k, rfl, hkq⟩

theorem Denotes.mul (hu : u.Denotes p) (hv : v.Denotes q) :
    ∃ w, u.mul v = .ok w ∧ w.Denotes (p * q) := by
  obtain ⟨m, rfl, hm⟩ := hu
  obtain ⟨n, rfl, hn⟩ := hv
  obtain ⟨k, hk, hkq⟩ := hm.mul hn
  exact ⟨_, mul_num hk, k, rfl, hkq⟩

theorem Denotes.div (hu : u.Denotes p) (hv : v.Denotes q) (hq : q ≠ 0) :
    ∃ x, u.div v = .ok x ∧ x.Denotes (p / q) := by
  obtain ⟨m, rfl, hm⟩ := hu
  obtain ⟨n, rfl, hn⟩ := hv
  obtain ⟨x, hx, hxq⟩ := hm.div hn hq
  exact ⟨x, div_num hx, hxq⟩

theorem Denotes.measure (hv : v.Denotes q) :
    ∃ x, v.measure = .ok x ∧ x.Denotes q := by
  obtain ⟨n, rfl, hn⟩ := hv
  obtain ⟨x, hx, hxq⟩ := hn.measure
  exact ⟨x, measure_num hx, hxq⟩

/-- The finite number that it is. -/
theorem Denotes.finiteNumber? (hv : v.Denotes q) :
    ∃ n, v = .num n ∧ v.finiteNumber? = .ok (some n) ∧ n.Denotes q := by
  obtain ⟨n, rfl, hn⟩ := hv
  obtain ⟨x, hx, hfin, -⟩ := hn.measure
  refine ⟨n, rfl, ?_, hn⟩
  have hfinite : n.isFinite = .ok true := by
    show n.measure.map Scalar.isFinite = _
    rw [hx, ← hfin]
    rfl
  simp [Value.finiteNumber?, calculate, hfinite, bind, Except.bind, pure,
    Except.pure, Except.mapError]

end Value

/-! ## Shares of a duration -/

/-- The share of a duration that has passed after some milliseconds, all of
    it at once if the duration is nothing or less. -/
def shareOf (duration elapsed : Rat) : Rat :=
  if duration ≤ 0 then 1 else min (elapsed / duration) 1

/-- The height of the ease-out curve at a share. -/
def eased (t : Rat) : Rat :=
  1 - (1 - confined 0 1 t) ^ 3

theorem shareOf_mono {duration s t : Rat} (h : s ≤ t) :
    shareOf duration s ≤ shareOf duration t := by
  unfold shareOf
  split
  · exact le_rfl
  · rename_i hpos
    exact min_le_min_right 1 (div_le_div_of_nonneg_right h (not_le.1 hpos).le)

/-- What is brought between zero and one lies there. -/
theorem confined_unit (t : Rat) :
    0 ≤ confined 0 1 t ∧ confined 0 1 t ≤ 1 :=
  ⟨le_max_left .., max_le zero_le_one (min_le_left ..)⟩

theorem confined_mono {low high s t : Rat} (h : s ≤ t) :
    confined low high s ≤ confined low high t :=
  max_le_max_left low (min_le_min_left high h)

/-- The ease-out curve never falls. -/
theorem eased_mono {s t : Rat} (h : s ≤ t) : eased s ≤ eased t := by
  have hclamp : confined 0 1 s ≤ confined 0 1 t := confined_mono h
  have hcube := pow_le_pow_left₀ (sub_nonneg.2 (confined_unit t).2)
    (sub_le_sub_left hclamp 1) 3
  unfold eased
  linarith

theorem eased_zero : eased 0 = 0 := by
  norm_num [eased, confined]

theorem eased_one : eased 1 = 1 := by
  norm_num [eased, confined]

/-- It lies between zero and one. -/
theorem eased_unit (t : Rat) : 0 ≤ eased t ∧ eased t ≤ 1 := by
  obtain ⟨hlow, hhigh⟩ := confined_unit t
  have hleft : 0 ≤ 1 - confined 0 1 t := sub_nonneg.2 hhigh
  have hcube : (1 - confined 0 1 t) ^ 3 ≤ 1 :=
    pow_le_one₀ hleft (by linarith)
  unfold eased
  exact ⟨by linarith, by linarith [pow_nonneg hleft 3]⟩

section

variable [Arithmetic] [Arithmetic.Exact]

/-- The ease-out curve is calculated exactly. -/
theorem easeOut_exact {x : Scalar} {t : Rat} (h : x.Denotes t) :
    easeOut (.num (.real x)) = .ok (.finite (eased t)) := by
  have hclamp := Value.clamp_num (.real x) (.real (.finite 0))
    (.real (.finite 1))
  have hshare := Num.Denotes.clamp (n := .real x) (m := .real (.finite 0))
    (k := .real (.finite 1)) h Scalar.denotes_finite Scalar.denotes_finite
  generalize Num.clamp _ _ _ = n at hclamp hshare
  obtain ⟨w, hw, hclamp⟩ := bind_ok hclamp
  have hw : (Value.real (.finite 1)).min (.num (.real x)) = .ok w := hw
  have hclamp : (Value.real (.finite 0)).max w = .ok (.num n) := hclamp
  obtain ⟨z, hz, hzt⟩ := hshare.measure
  -- what is left to one is no zero below, so its third power is a ratio
  have hleft : ∀ {y : Scalar} {q : Rat}, y.Denotes q →
      (Scalar.finite 1).sub y = .finite (1 - q) := by
    rintro y q ⟨hfin, rfl⟩
    rcases Scalar.isFinite_iff.1 hfin with ⟨r, rfl⟩ | rfl
    · exact Scalar.finite_sub
    · exact Scalar.finite_sub (q := 0) ▸ rfl
  unfold easeOut
  simp only [hw, hclamp, Value.measure_num hz, hleft hzt, bind, Except.bind,
    pure, Except.pure, Arithmetic.Exact.cube_eq, Scalar.finite_sub]
  congr 2
  unfold eased
  ring

/-- A value on the way from one to another is found exactly. -/
theorem interpolate_exact {u v : Value} {p q t : Rat} {x : Scalar}
    (hu : u.Denotes p) (hv : v.Denotes q) (h : x.Denotes t) :
    ∃ w, interpolate u v (.num (.real x)) = .ok w
      ∧ w.Denotes (p + (q - p) * eased t) := by
  obtain ⟨way, hway, hwayq⟩ := hv.sub hu
  obtain ⟨part, hpart, hpartq⟩ := hwayq.mul
    (Value.denotes_real (Scalar.denotes_finite (q := eased t)))
  obtain ⟨w, hw, hwq⟩ := hu.add hpartq
  refine ⟨w, ?_, hwq⟩
  unfold interpolate
  simp only [hway, easeOut_exact h, hpart, bind, Except.bind]
  exact hw

/-- The share of a duration that has passed is found exactly. -/
theorem progressAt_exact {ms : Value} {duration : Rat} {t₀ t : Rat}
    (hms : ms.Denotes duration) (hle : t₀ ≤ t) :
    progressAt ms (.finite t₀) (.finite t)
      = .ok (.real (.finite (shareOf duration ((t - t₀) * 1000)))) := by
  unfold progressAt
  rw [show (0 : Value) = .int 0 from rfl, hms.le (Value.denotes_int 0)]
  simp only [bind, Except.bind, pure, Except.pure, decide_eq_true_eq]
  unfold shareOf
  by_cases hpos : duration ≤ 0
  · simp [hpos]
  · simp only [Int.cast_zero, hpos, if_false]
    have hpos := not_le.1 hpos
    obtain ⟨n, rfl, hn⟩ := hms
    obtain ⟨x, hx, hxd⟩ := hn.measure
    obtain rfl := hxd.eq_finite hpos.ne'
    obtain ⟨y, hy, hyd⟩ := (Num.denotes_int 1000).measure
    obtain rfl := hyd.eq_finite (by norm_num)
    have hsince : 0 ≤ t - t₀ := sub_nonneg.2 hle
    have helapsed : (Value.real ((Scalar.finite t).sub (.finite t₀))).mul 1000
        = .ok (.real (.finite ((t - t₀) * 1000))) := by
      have h := Value.mul_num (Num.mul_measured (m := .real (.finite (t - t₀)))
        rfl hy (.inl ⟨_, rfl⟩))
      rw [Scalar.finite_mul (by norm_num)] at h
      rw [Scalar.finite_sub]
      exact_mod_cast h
    have hshare : (Value.real (.finite ((t - t₀) * 1000))).div (.num n)
        = .ok (.finite ((t - t₀) * 1000 / duration)) := by
      have h := Value.div_num (Num.div_measured
        (m := .real (.finite ((t - t₀) * 1000))) rfl hx (.inl ⟨_, rfl⟩))
      rw [Scalar.finite_div (by positivity) hpos] at h
      exact h
    rw [helapsed]
    simp only [hshare]
    generalize (t - t₀) * 1000 / duration = share
    have hone : (Num.real (.finite 1)).lt (.real (.finite share)) = true
        ↔ 1 < share :=
      Scalar.Denotes.lt_iff Scalar.denotes_finite Scalar.denotes_finite
    unfold Num.min
    split
    · rename_i h
      rw [min_eq_right (hone.1 h).le]
    · rename_i h
      rw [min_eq_left (not_lt.1 (mt hone.2 h))]

omit [Arithmetic] [Arithmetic.Exact] in
/-- A share is all of it from one on. -/
theorem isComplete_exact {q : Rat} :
    isComplete (.real (.finite q)) = true ↔ 1 ≤ q :=
  Scalar.Denotes.le_iff Scalar.denotes_finite Scalar.denotes_finite

end

/-! ## The canvas -/

/-- The measures of a canvas as ratios, and how long its animations take. -/
structure Surface where
  width : Rat
  height : Rat
  margin : Rat
  unit : Rat
  moveMs : Rat
  turnMs : Rat
  frameMs : Rat

namespace Surface

/-- A place brought onto the canvas. -/
def inset (g : Surface) (x y : Rat) : Rat × Rat :=
  (confined g.margin (g.width - g.margin) x,
    confined g.margin (g.height - g.margin) y)

/-- A place that keeps the margin from the edges, as far as there is room for
    it. -/
def Holds (g : Surface) (x y : Rat) : Prop :=
  (g.margin ≤ x ∧ x ≤ max g.margin (g.width - g.margin))
    ∧ g.margin ≤ y ∧ y ≤ max g.margin (g.height - g.margin)

/-- What has been brought onto the canvas keeps the margin. -/
theorem inset_holds (g : Surface) (x y : Rat) :
    g.Holds (g.inset x y).1 (g.inset x y).2 :=
  ⟨⟨le_max_left .., max_le_max_left _ (min_le_left ..)⟩,
    le_max_left .., max_le_max_left _ (min_le_left ..)⟩

end Surface

/-- A canvas whose settings are ratios. -/
structure Config.Denotes (c : Config) (g : Surface) : Prop where
  mode : c.mode = .canvas
  width : c.canvasWidth.Denotes g.width
  height : c.canvasHeight.Denotes g.height
  margin : c.canvasMargin.Denotes g.margin
  unit : c.unitStepPixels.Denotes g.unit
  moveMs : c.moveMs.Denotes g.moveMs
  turnMs : c.turnMs.Denotes g.turnMs
  frameMs : c.frameMs.Denotes g.frameMs

/-- The angle of a heading. -/
def angleOf (heading : Rat) : Scalar :=
  .finite ((heading - 90) * degreeInRadians.value)

/-- Where a move of a number of steps ends. -/
def Surface.target [Arithmetic] (g : Surface) (x y heading distance : Rat) :
    Rat × Rat :=
  g.inset (x + (Arithmetic.cos (angleOf heading)).value * (distance * g.unit))
    (y + (Arithmetic.sin (angleOf heading)).value * (distance * g.unit))

section

variable [Arithmetic] [Arithmetic.Exact] {c : Config} {g : Surface}
  {u v : Value} {x y : Rat}

/-- Places are brought onto the canvas exactly. -/
theorem insetPoint_exact (hc : c.Denotes g) (hu : u.Denotes x)
    (hv : v.Denotes y) :
    ∃ p, insetPoint c (u, v) = .ok p ∧ p.1.Denotes (g.inset x y).1
      ∧ p.2.Denotes (g.inset x y).2 := by
  obtain ⟨right, hright, hrightq⟩ := hc.width.sub hc.margin
  obtain ⟨bottom, hbottom, hbottomq⟩ := hc.height.sub hc.margin
  obtain ⟨x', hx', hxq⟩ := hu.clamp hc.margin hrightq
  obtain ⟨y', hy', hyq⟩ := hv.clamp hc.margin hbottomq
  refine ⟨(x', y'), ?_, hxq, hyq⟩
  simp [insetPoint, hright, hbottom, hx', hy', bind, Except.bind, pure,
    Except.pure]

/-- A difference is measured as a ratio. -/
theorem Value.Denotes.sub_measure {p q : Rat} (hu : u.Denotes p)
    (hv : v.Denotes q) (hq : q ≠ 0) :
    ∃ w, u.sub v = .ok w ∧ w.measure = .ok (.finite (p - q)) := by
  obtain ⟨m, rfl, hm⟩ := hu
  obtain ⟨n, rfl, hn⟩ := hv
  obtain ⟨a, ha, hap⟩ := hm.measure
  obtain ⟨b, hb, hbq⟩ := hn.measure
  obtain rfl := hbq.eq_finite hq
  rcases Num.counts_or m n with ⟨i, j, rfl, rfl⟩ | hone
  · refine ⟨_, Value.sub_num rfl, Value.measure_num ?_⟩
    rw [← hm.2, ← hn.2]
    simp only [Num.measure, Arithmetic.Exact.round_eq, Rat.intCast_sub]
    rfl
  · refine ⟨_, Value.sub_num (Num.sub_measured ha hb hone),
      Value.measure_num ?_⟩
    rw [hap.sub_finite hq]
    rfl

/-- The end of a move is calculated exactly, if sine and cosine are
    finite. -/
theorem canvasTarget_exact (hc : c.Denotes g)
    (hcos : ∀ q, (Arithmetic.cos (.finite q)).isFinite = true)
    (hsin : ∀ q, (Arithmetic.sin (.finite q)).isFinite = true)
    {heading distance : Value} {h d : Rat} (hu : u.Denotes x)
    (hv : v.Denotes y) (hh : heading.Denotes h) (hd : distance.Denotes d) :
    ∃ p, canvasTarget c [u, v] heading distance = .ok p
      ∧ p.1.Denotes (g.target x y h d).1
      ∧ p.2.Denotes (g.target x y h d).2 := by
  obtain ⟨w, hw, hwm⟩ := hh.sub_measure (Value.denotes_int 90) (by norm_num)
  have hdegree : degreeInRadians = .finite degreeInRadians.value
      ∧ 0 < degreeInRadians.value := by decide +kernel
  have hangle : (Scalar.finite (h - (90 : Int))).mul degreeInRadians
      = angleOf h := by
    rw [hdegree.1, Scalar.finite_mul hdegree.2]
    rfl
  obtain ⟨l, hl, hlq⟩ := hd.mul hc.unit
  have hway : ∀ (f : Scalar → Scalar), (f (angleOf h)).isFinite = true →
      ∀ (z : Value) (q : Rat), z.Denotes q → ∃ k j : Value,
        (Value.real (f (angleOf h))).mul l = .ok k ∧ z.add k = .ok j
          ∧ j.Denotes (q + (f (angleOf h)).value * (d * g.unit)) := by
    intro f hf z q hz
    obtain ⟨k, hk, hkq⟩ := (Value.denotes_real ⟨hf, rfl⟩).mul hlq
    obtain ⟨j, hj, hjq⟩ := hz.add hkq
    exact ⟨k, j, hk, hj, hjq⟩
  obtain ⟨k, j, hk, hj, hjq⟩ := hway Arithmetic.cos (hcos _) u x hu
  obtain ⟨k', j', hk', hj', hjq'⟩ := hway Arithmetic.sin (hsin _) v y hv
  obtain ⟨p, hp, hpx, hpy⟩ := insetPoint_exact hc hjq hjq'
  refine ⟨p, ?_, hpx, hpy⟩
  have hfinite : ∀ f : Scalar → Scalar,
      Value.calculate (ofAngle f (angleOf h)) = .ok (f (angleOf h)) :=
    fun _ => rfl
  unfold canvasTarget
  rw [show (90 : Value) = .int 90 from rfl]
  simp only [hw, hwm, hangle, Value.pairOf, hl, hfinite, hk, hj, hk', hj',
    bind, Except.bind]
  exact hp

end

end BlockStage
