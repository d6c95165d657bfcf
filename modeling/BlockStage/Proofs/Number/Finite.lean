import BlockStage.Proofs.Number.Range
import BlockStage.Proofs.Value.Number

/-! # Calculations that stay finite — doubles within their range

    `Scalar.Within` bounds a finite measure.  A sum, a difference or a
    product of doubles whose exact value stays below the bound of their
    range is a double again, off by no more than `slack` (`Scalar.near_add`,
    `Scalar.near_sub`, `Scalar.near_mul`), and a ratio of the unit interval
    is rounded into it (`nearest_unit`).  Rounding takes a whole number
    above a small one no further down than that (`nearest_above`), and no
    other one to a small one (`nearest_exact`).  All this is said of any
    arithmetic that rounds as doubles do, `Arithmetic.Doubles`. -/

namespace BlockStage

namespace Binary64

/-- How far rounding may take a ratio. -/
def slack (q : Rat) : Rat := |q| / 2 ^ 53 + leastHalf

/-- Half the least unit is less than one. -/
theorem leastHalf_le : leastHalf ≤ 1 := by
  unfold leastHalf
  exact inv_le_one_of_one_le₀ (one_le_pow₀ one_le_two)

/-- The last doubles are far apart. -/
theorem lastHalf_large : (2 : Rat) ^ 60 ≤ lastHalf :=
  pow_le_pow_right₀ one_le_two (by decide)

theorem bound_pos : 0 < bound := by
  have := lastHalf_pos
  unfold bound
  linarith

/-- An index below a count is below the bound if the count is. -/
theorem index_small {n x : Int} (h : (n : Rat) < bound) (hx : 0 ≤ x)
    (hlast : x ≤ max 0 (n - 1)) : |(x : Rat)| < bound := by
  rw [abs_of_nonneg (by exact_mod_cast hx)]
  by_cases hzero : x = 0
  · subst hzero
    exact_mod_cast bound_pos
  · have hle : x ≤ n := by omega
    exact lt_of_le_of_lt (by exact_mod_cast hle) h

variable {a d : Nat}

/-- A ratio not above one is rounded to no more than one. -/
theorem size_le_one (ha : 0 < a) (hd : 0 < d) (h : (a : Rat) / d ≤ 1) :
    (significand a d (unitExponent a d) * 2 ^ unitExponent a d : Rat)
      ≤ 1 := by
  obtain ⟨hup, -⟩ := significand_near (a := a) hd (unitExponent a d)
  obtain ⟨-, hlow⟩ := unitExponent_spec ha hd
  generalize unitExponent a d = e at hup hlow ⊢
  generalize significand a d e = m at hup ⊢
  -- one is a whole number of units
  obtain ⟨k, rfl⟩ : ∃ k : Nat, e = -(k : Int) := by
    have hneg : e ≤ 0 := by
      rcases hlow with rfl | hlow
      · decide
      · by_contra hpos
        have hone : (2 : Rat) ^ (52 + e) ≤ 2 ^ (0 : Int) := by
          rw [zpow_zero]
          exact hlow.trans h
        have := (zpow_le_zpow_iff_right₀ one_lt_two).1 hone
        omega
    exact ⟨(-e).toNat, by omega⟩
  rw [zpow_neg, zpow_natCast] at hup ⊢
  have hp : (0 : Rat) < 2 ^ k := by positivity
  have hm : 2 * (m : Rat) ≤ 2 * 2 ^ k + 1 := by
    have := mul_le_mul_of_nonneg_right hup hp.le
    rw [add_mul, inv_mul_cancel₀ hp.ne', mul_assoc, mul_assoc,
      inv_mul_cancel₀ hp.ne', mul_one] at this
    have hle := mul_le_mul_of_nonneg_right h hp.le
    linarith
  have hm : 2 * m ≤ 2 * 2 ^ k + 1 := by exact_mod_cast hm
  have hm : m ≤ 2 ^ k := by omega
  have hm : (m : Rat) ≤ 2 ^ k := by exact_mod_cast hm
  rw [← div_eq_mul_inv]
  exact (div_le_one hp).2 hm

/-- Rounding takes a ratio towards zero by no more than `slack`. -/
theorem nearest_size {q : Rat} (hq : q ≠ 0) :
    nearest q = .inf (q < 0)
      ∨ ∃ r, nearest q = .finite r ∧ |q| - slack q ≤ |r|
        ∧ (0 ≤ q → 0 ≤ r) := by
  have ha : 0 < q.num.natAbs := Int.natAbs_pos.2 (Rat.num_ne_zero.2 hq)
  have heq : (q.num.natAbs : Rat) / q.den = |q| := by
    rw [Rat.abs_def, Rat.divInt_eq_div]
    rfl
  have hnear := size_near ha q.den_pos
  rw [heq, abs_le] at hnear
  unfold nearest
  rw [if_neg hq]
  simp only [size_eq]
  generalize hsize : (significand q.num.natAbs q.den
    (unitExponent q.num.natAbs q.den)
    * 2 ^ unitExponent q.num.natAbs q.den : Rat) = size at hnear ⊢
  have hpos : 0 ≤ size := hsize ▸ by positivity
  split
  · exact .inl rfl
  · refine .inr ⟨_, rfl, ?_, fun h => by rw [if_neg (not_lt.2 h)]; exact hpos⟩
    rw [slack, apply_ite abs, abs_neg, ite_self, abs_of_nonneg hpos]
    linarith [hnear.1]

/-- A ratio from one on is rounded down by no more than `slack`. -/
theorem nearest_down {q : Rat} (h : 1 ≤ q) :
    nearest q = .inf false
      ∨ ∃ r, nearest q = .finite r ∧ q - slack q ≤ r := by
  have hpos : 0 ≤ q := by linarith
  rcases nearest_size (q := q) (by linarith) with hinf | ⟨r, hr, hle, hsign⟩
  · rw [decide_eq_false (not_lt.2 hpos)] at hinf
    exact .inl hinf
  · rw [abs_of_nonneg hpos, abs_of_nonneg (hsign hpos)] at hle
    exact .inr ⟨r, hr, hle⟩

/-- Half the least unit is less than a quarter. -/
theorem leastHalf_small : leastHalf ≤ 1 / 4 := by
  unfold leastHalf
  rw [one_div]
  exact inv_anti₀ (by norm_num) ((show (4 : Rat) ≤ 2 ^ 2 by norm_num).trans
    (pow_le_pow_right₀ one_le_two (by decide)))

/-- A ratio from one on is rounded to no less than its half. -/
theorem nearest_large {q : Rat} (h : 1 ≤ q) :
    nearest q = .inf false ∨ ∃ r, nearest q = .finite r ∧ q / 2 ≤ r := by
  refine (nearest_down h).imp_right fun ⟨r, hr, hle⟩ => ⟨r, hr, ?_⟩
  have htiny := leastHalf_small
  rw [slack, abs_of_nonneg (by linarith)] at hle
  linarith

/-- A count above another one of up to 53 bits is rounded to a measure
    above that. -/
theorem nearest_above {m n : Int} (hm : 0 ≤ m) (h : m < n)
    (hbits : m < 2 ^ 53) : (Scalar.finite m).lt (nearest n) = true := by
  by_cases hn : n ≤ 2 ^ 53
  · rw [nearest_whole (abs_le.2 ⟨by omega, hn⟩)]
    refine (Scalar.lt_iff rfl rfl).2 ?_
    show (m : Rat) < n
    exact_mod_cast h
  · have hlarge : (2 : Rat) ^ 53 + 1 ≤ n := by
      exact_mod_cast (show (2 : Int) ^ 53 + 1 ≤ n by omega)
    have hsmall : (m : Rat) + 1 ≤ 2 ^ 53 := by
      exact_mod_cast (show m + 1 ≤ 2 ^ 53 by omega)
    rcases nearest_down (q := (n : Rat)) (by linarith) with hinf | ⟨r, hr, hle⟩
    · rw [hinf]
      rfl
    · rw [hr]
      refine (Scalar.lt_iff rfl rfl).2 ?_
      show (m : Rat) < r
      have htiny := leastHalf_small
      rw [slack, abs_of_nonneg (by linarith)] at hle
      linarith

/-- A count is rounded to a count or to an infinity. -/
theorem nearest_count (n : Int) :
    (∃ negative, nearest n = .inf negative)
      ∨ ∃ m : Int, nearest n = .finite m := by
  by_cases hsmall : |n| ≤ 2 ^ 53
  · exact .inr ⟨n, nearest_whole hsmall⟩
  have hlarge : 2 ^ 53 < n.natAbs := by
    rw [Int.abs_eq_natAbs] at hsmall
    omega
  have hne : (n : Rat) ≠ 0 := by
    exact_mod_cast (show n ≠ 0 by omega)
  -- beyond 53 bits the unit is a whole number
  obtain ⟨hlt, -⟩ := unitExponent_spec (show 0 < n.natAbs by omega) one_pos
  obtain ⟨e, he⟩ : ∃ e : Nat, unitExponent n.natAbs 1 = e := by
    refine Int.eq_ofNat_of_zero_le ?_
    by_contra hneg
    have hle : (2 : Rat) ^ (53 + unitExponent n.natAbs 1) ≤ 2 ^ (53 : Int) :=
      zpow_le_zpow_right₀ one_le_two (by omega)
    have hbig : (2 : Rat) ^ (53 : Int) < n.natAbs := by
      exact_mod_cast hlarge
    rw [Nat.cast_one, div_one] at hlt
    linarith
  unfold nearest
  simp only [if_neg hne, Rat.num_intCast, Rat.den_intCast, he]
  generalize significand n.natAbs 1 e * Nat.pow 2 (e : Int).toNat = size
  generalize Nat.pow 2 1024 = top
  by_cases hinf : top ≤ size
  · exact .inl ⟨_, if_pos ⟨Int.natCast_nonneg e, hinf⟩⟩
  · right
    rw [if_neg fun h => hinf h.2, if_pos (Int.natCast_nonneg e)]
    by_cases hn : (n : Rat) < 0
    · exact ⟨-size, by simp [hn]⟩
    · exact ⟨size, by simp [hn]⟩

/-- A count that is rounded to a measure of up to 53 bits is that
    measure. -/
theorem nearest_exact {n : Int} {q : Rat} (h : nearest n = .finite q)
    (hq : |q| < 2 ^ 53) : q = n := by
  by_cases hsmall : |n| ≤ 2 ^ 53
  · rw [nearest_whole hsmall] at h
    exact (Scalar.finite.inj h).symm
  exfalso
  have hlarge : (2 : Rat) ^ 53 + 1 ≤ |(n : Rat)| := by
    exact_mod_cast show (2 : Int) ^ 53 + 1 ≤ |n| by omega
  have hne : (n : Rat) ≠ 0 := by
    intro hzero
    rw [hzero, abs_zero] at hlarge
    linarith
  -- what it is rounded to is a whole number not far below it
  rcases nearest_size hne with hinf | ⟨r, hr, hle, -⟩
  · rw [hinf] at h
    cases h
  rw [h] at hr
  obtain rfl := Scalar.finite.inj hr
  rcases nearest_count n with ⟨negative, hinf⟩ | ⟨m, hm⟩
  · rw [hinf] at h
    cases h
  rw [h] at hm
  obtain rfl := Scalar.finite.inj hm
  have htiny := leastHalf_small
  rw [slack] at hle
  have hwhole : |m| ≤ 2 ^ 53 - 1 := by
    have : |m| < 2 ^ 53 := by exact_mod_cast hq
    omega
  have hwhole : |(m : Rat)| ≤ 2 ^ 53 - 1 := by exact_mod_cast hwhole
  linarith

/-- A ratio of the unit interval is rounded into the unit interval. -/
theorem nearest_unit {q : Rat} (h₀ : 0 ≤ q) (h₁ : q ≤ 1) :
    ∃ r, nearest q = .finite r ∧ 0 ≤ r ∧ r ≤ 1 := by
  by_cases hq : q = 0
  · exact ⟨0, if_pos hq, le_rfl, zero_le_one⟩
  have ha : 0 < q.num.natAbs := Int.natAbs_pos.2 (Rat.num_ne_zero.2 hq)
  have heq : q = (q.num.natAbs : Rat) / q.den := by
    conv_lhs => rw [← abs_of_nonneg h₀, Rat.abs_def, Rat.divInt_eq_div]
    rfl
  have hle := size_le_one ha q.den_pos (heq ▸ h₁)
  refine ⟨_, ?_, ?_, hle⟩
  · unfold nearest
    rw [if_neg hq]
    simp only [size_eq]
    rw [if_neg, if_neg (not_lt.2 h₀)]
    -- no infinity is reached
    rintro ⟨he, hbig⟩
    obtain ⟨k, hk⟩ := Int.eq_ofNat_of_zero_le he
    rw [hk] at hle hbig
    rw [zpow_natCast] at hle
    rw [Int.toNat_natCast] at hbig
    have hle : significand q.num.natAbs q.den k * Nat.pow 2 k ≤ 1 := by
      exact_mod_cast hle
    exact absurd (hbig.trans hle) (by decide +kernel)
  · positivity

end Binary64

/-- A count below the bound can be written out. -/
theorem Value.legibleInt_small {x : Int} (h : |(x : Rat)| < Binary64.bound) :
    legibleInt x = true := by
  have hbound : Binary64.bound < 2 ^ 54 * Binary64.lastHalf := by
    have := Binary64.lastHalf_pos
    unfold Binary64.bound
    linarith
  have hlt : x.natAbs < Nat.pow 2 (54 + 970) := by
    rw [← Nat.cast_lt (α := Rat), Nat.cast_natAbs, Int.cast_abs, Nat.pow_eq,
      Nat.cast_pow, Nat.cast_two, pow_add]
    exact h.trans hbound
  exact decide_eq_true (hlt.trans_le
    ((Nat.pow_le_pow_left (by decide) _).trans
      (Nat.pow_le_pow_right (by decide) (by decide))))

/-- The arithmetic of doubles: results are rounded to the nearest one, and
    the third powers of the unit interval lie in it. -/
class Arithmetic.Doubles [Arithmetic] : Prop where
  round_eq : ∀ q, Arithmetic.round q = Binary64.nearest q
  cube_unit : ∀ q : Rat, 0 ≤ q → q ≤ 1 →
    ∃ r : Rat, Arithmetic.cube (.finite q) = .finite r ∧ 0 ≤ r ∧ r ≤ 1

/-- The arithmetic of doubles with third powers that are rounded once. -/
@[reducible] def Arithmetic.cubed : Arithmetic :=
  { Arithmetic.binary64 with
    cube := fun
      | .finite q => Scalar.signZero (q < 0) (Binary64.nearest (q * q * q))
      | x => x }

section

attribute [local instance] Arithmetic.cubed

/-- Rounded once, the third powers of the unit interval stay in it. -/
theorem Arithmetic.cubed_doubles : Arithmetic.Doubles where
  round_eq _ := rfl
  cube_unit q h₀ h₁ := by
    have hcube : q * q * q ≤ 1 :=
      mul_le_one₀ (mul_le_one₀ h₁ h₀ h₁) h₀ h₁
    obtain ⟨r, hr, hr₀, hr₁⟩ := Binary64.nearest_unit
      (mul_nonneg (mul_nonneg h₀ h₀) h₀) hcube
    refine ⟨r, ?_, hr₀, hr₁⟩
    show Scalar.signZero (q < 0) (Binary64.nearest (q * q * q)) = _
    rw [decide_eq_false (not_lt.2 h₀), hr]
    rfl

end

open Binary64

namespace Scalar

variable {x y : Scalar} {k : Rat} {q : Rat}

/-- A finite measure of at most some size. -/
structure Within (k : Rat) (x : Scalar) : Prop where
  finite : x.isFinite = true
  size : |x.value| ≤ k

/-- A double close to a ratio. -/
structure Near (q : Rat) (x : Scalar) : Prop where
  within : x.Within greatest
  close : |x.value - q| ≤ slack q

theorem Near.finite (h : x.Near q) : x.isFinite = true := h.within.finite

/-- A ratio below the bound is rounded to a double close to it. -/
theorem near_nearest (h : |q| < bound) : (nearest q).Near q := by
  obtain ⟨r, hr, hsize, hclose⟩ := nearest_spec h
  rw [hr]
  exact ⟨⟨rfl, hsize⟩, hclose⟩

/-- The sign of a zero does not matter. -/
theorem signZero_value {negative : Bool} (h : x.isFinite = true) :
    (signZero negative x).isFinite = true
      ∧ (signZero negative x).value = x.value := by
  rcases isFinite_iff.1 h with ⟨q, rfl⟩ | rfl
  · by_cases hzero : negative = true ∧ q = 0
    · rw [signZero, if_pos hzero]
      exact ⟨rfl, hzero.2.symm⟩
    · rw [signZero, if_neg hzero]
      exact ⟨rfl, rfl⟩
  · exact ⟨rfl, rfl⟩

variable [Arithmetic] [Arithmetic.Doubles]

/-- The sum of two finite measures. -/
theorem near_add (hx : x.isFinite = true) (hy : y.isFinite = true)
    (h : |x.value + y.value| < bound) : (x.add y).Near (x.value + y.value) := by
  rcases add_finite hx hy with heq | ⟨heq, hzero⟩
  · rw [heq, Arithmetic.Doubles.round_eq]
    exact near_nearest h
  · rw [heq, hzero]
    have hpos := lastHalf_pos
    have htiny := leastHalf_pos
    refine ⟨⟨rfl, ?_⟩, ?_⟩
    · show |(0 : Rat)| ≤ _
      rw [abs_zero, greatest]
      linarith
    · show |(0 : Rat) - 0| ≤ _
      rw [slack, sub_zero, abs_zero]
      linarith

/-- The difference of two finite measures. -/
theorem near_sub (hx : x.isFinite = true) (hy : y.isFinite = true)
    (h : |x.value - y.value| < bound) : (x.sub y).Near (x.value - y.value) := by
  obtain ⟨hneg, hvalue⟩ := neg_value hy
  rw [sub_eq_add_neg, ← hvalue] at h ⊢
  exact near_add hx hneg h

/-- The product of two finite measures. -/
theorem near_mul (hx : x.isFinite = true) (hy : y.isFinite = true)
    (h : |x.value * y.value| < bound) : (x.mul y).Near (x.value * y.value) := by
  have heq : x.mul y = signZero (x.isNegative != y.isNegative)
      (nearest (x.value * y.value)) := by
    rw [← Arithmetic.Doubles.round_eq]
    rcases isFinite_iff.1 hx with ⟨q, rfl⟩ | rfl <;>
      rcases isFinite_iff.1 hy with ⟨r, rfl⟩ | rfl <;> rfl
  have hnear := near_nearest h
  rw [heq]
  generalize (x.isNegative != y.isNegative) = negative
  obtain ⟨hfin, hvalue⟩ : (signZero negative _).isFinite = true
      ∧ (signZero negative _).value = _ := signZero_value hnear.finite
  exact ⟨⟨hfin, by rw [hvalue]; exact hnear.within.size⟩,
    by rw [hvalue]; exact hnear.close⟩

end Scalar

/-! ## Calculations with large measures -/

namespace Scalar

/-- The infinity above, or a finite measure of at least some size. -/
def AtLeast (q : Rat) (x : Scalar) : Prop :=
  x = .inf false ∨ x.isFinite = true ∧ q ≤ x.value

variable {x y : Scalar} {q r : Rat}

theorem AtLeast.mono (h : x.AtLeast q) (hle : r ≤ q) : x.AtLeast r :=
  h.imp id fun hx => ⟨hx.1, hle.trans hx.2⟩

/-- What is large is not below a smaller number. -/
theorem AtLeast.le (h : x.AtLeast q) : (finite q).le x = true := by
  rcases h with rfl | ⟨hfin, hle⟩
  · rfl
  · exact (le_iff rfl hfin).2 hle

theorem atLeast_nearest (h : 1 ≤ q) : (nearest q).AtLeast (q / 2) := by
  rcases nearest_large h with heq | ⟨r, heq, hle⟩
  · exact .inl heq
  · rw [heq]
    exact .inr ⟨rfl, hle⟩

/-- The sign of a large measure is never changed. -/
theorem atLeast_signZero (h : 1 ≤ q) :
    (signZero false (nearest q)).AtLeast (q / 2) := by
  have heq : ∀ x : Scalar, signZero false x = x := by
    intro x
    cases x <;> simp [signZero]
  rw [heq]
  exact atLeast_nearest h

variable [Arithmetic] [Arithmetic.Doubles]

/-- A large difference of finite measures. -/
theorem atLeast_sub (hx : x.isFinite = true) (hy : y.isFinite = true)
    (h : 1 ≤ x.value - y.value) :
    (x.sub y).AtLeast ((x.value - y.value) / 2) := by
  obtain ⟨hneg, hvalue⟩ := neg_value hy
  rcases add_finite hx hneg with heq | ⟨-, hzero⟩
  · rw [Scalar.sub, heq, Arithmetic.Doubles.round_eq, hvalue,
      ← sub_eq_add_neg]
    exact atLeast_nearest h
  · rw [hvalue, ← sub_eq_add_neg] at hzero
    linarith

/-- A large measure times a positive number. -/
theorem AtLeast.mul (hx : x.AtLeast q) (hr : 0 < r) (h : 1 ≤ q * r) :
    (x.mul (.finite r)).AtLeast (q * r / 2) := by
  have hsign : ¬ r < 0 := not_lt.2 hr.le
  rcases hx with rfl | ⟨hfin, hle⟩
  · left
    simp [mul, isZero, hr.ne', isNegative, hsign]
  · have hpos : 0 < x.value := by
      have hq : 0 < q := pos_of_mul_pos_left (by linarith) hr.le
      exact hq.trans_le hle
    rcases isFinite_iff.1 hfin with ⟨p, rfl⟩ | rfl
    · have hpos : 0 < p := hpos
      have hle : q * r ≤ p * r := mul_le_mul_of_nonneg_right hle hr.le
      have heq : (Scalar.finite p).mul (.finite r)
          = signZero false (nearest (p * r)) := by
        rw [← Arithmetic.Doubles.round_eq]
        simp [mul, isNegative, hsign, not_lt.2 hpos.le, value]
      rw [heq]
      exact (atLeast_signZero (h.trans hle)).mono (by linarith)
    · exact absurd hpos (lt_irrefl _)

/-- A large measure divided by a positive number. -/
theorem AtLeast.div (hx : x.AtLeast q) (hr : 0 < r) (h : 1 ≤ q / r) :
    (x.div (.finite r)).AtLeast (q / r / 2) := by
  have hsign : ¬ r < 0 := not_lt.2 hr.le
  rcases hx with rfl | ⟨hfin, hle⟩
  · left
    simp [div, isNegative, hsign]
  · have hpos : 0 < x.value := by
      have hq : r ≤ q := (one_le_div hr).1 h
      linarith
    rcases isFinite_iff.1 hfin with ⟨p, rfl⟩ | rfl
    · have hpos : 0 < p := hpos
      have hle : q / r ≤ p / r := div_le_div_of_nonneg_right hle hr.le
      have heq : (Scalar.finite p).div (.finite r)
          = signZero false (nearest (p / r)) := by
        rw [← Arithmetic.Doubles.round_eq]
        simp [div, isZero, hr.ne', isNegative, hsign, not_lt.2 hpos.le, value]
      rw [heq]
      exact (atLeast_signZero (h.trans hle)).mono (by linarith)
    · exact absurd hpos (lt_irrefl _)

end Scalar

/-! ## Numbers that can be measured -/

namespace Num

variable {n m : Num} {x : Scalar}

/-- A finite number within the range of doubles. -/
def InRange (n : Num) : Prop := n.exact.Within greatest

/-- A finite number that is measured without going to infinity. -/
structure Short (n : Num) : Prop where
  finite : n.exact.isFinite = true
  size : |n.exact.value| < bound

/-- Counts of a few digits are far below the bound. -/
theorem short_small {i : Int} (h : |(i : Rat)| ≤ 2 ^ 60) :
    (int i).Short := by
  have hlarge := lastHalf_large
  refine ⟨rfl, h.trans_lt ?_⟩
  unfold bound
  linarith

theorem abs_few {d : Int} (hlow : -360 ≤ d) (hhigh : d ≤ 360) :
    |(d : Rat)| ≤ 360 := by
  rw [abs_le]
  constructor <;> exact_mod_cast ‹_›

/-- Counts up to a full turn are short. -/
theorem short_few {d : Int} (hlow : -360 ≤ d) (hhigh : d ≤ 360) :
    (int d).Short :=
  short_small ((abs_few hlow hhigh).trans (by norm_num))

theorem InRange.short (h : n.InRange) : n.Short :=
  ⟨h.finite, h.size.trans_lt greatest_lt_bound⟩

/-- A short number can be written out. -/
theorem Short.legible (h : n.Short) : (Value.num n).legible = true := by
  cases n with
  | int i => exact Value.legibleInt_small h.size
  | real x => rfl

/-- A number that can be measured. -/
def Measurable [Arithmetic] (n : Num) : Prop := ∃ x, n.measure = .ok x

variable [Arithmetic]

theorem measurable_real : (real x).Measurable := ⟨x, rfl⟩

section

variable [Arithmetic.Doubles]

/-- What is measured of a number below the bound lies close to it, and
    within the range of doubles if the number does. -/
theorem Short.measure (h : n.Short) : ∃ x, n.measure = .ok x
    ∧ x.isFinite = true ∧ |x.value - n.exact.value| ≤ slack n.exact.value
    ∧ (n.InRange → x.Within greatest) := by
  cases n with
  | int n =>
      obtain ⟨r, hr, hsize, hclose⟩ := nearest_spec h.size
      have hround : Arithmetic.round (n : Rat) = .finite r :=
        (Arithmetic.Doubles.round_eq _).trans hr
      exact ⟨.finite r, by simp only [Num.measure, hround], rfl, hclose,
        fun _ => ⟨rfl, hsize⟩⟩
  | real x =>
      have htiny := leastHalf_pos
      refine ⟨x, rfl, h.finite, ?_, id⟩
      show |x.value - x.value| ≤ |x.value| / 2 ^ 53 + leastHalf
      rw [sub_self, abs_zero]
      positivity

theorem Short.measurable (h : n.Short) : n.Measurable := by
  obtain ⟨x, hx, -⟩ := h.measure
  exact ⟨x, hx⟩

end

/-! ## Calculations that involve a measure -/

/-- One of two numbers is a measure. -/
def OneMeasured (m n : Num) : Prop := (∃ z, m = .real z) ∨ ∃ z, n = .real z

section

variable {y : Scalar} (hm : m.measure = .ok x) (hn : n.measure = .ok y)
  (h : OneMeasured m n)

include hm hn h

theorem add_measured : m.add n = .ok (.real (x.add y)) := by
  have hsum : m.add n
      = do return real ((← m.measure).add (← n.measure)) := by
    rcases h with ⟨z, rfl⟩ | ⟨z, rfl⟩
    · rfl
    · cases m <;> rfl
  rw [hsum, hm, hn]
  rfl

theorem sub_measured : m.sub n = .ok (.real (x.sub y)) := by
  have hdifference : m.sub n
      = do return real ((← m.measure).sub (← n.measure)) := by
    rcases h with ⟨z, rfl⟩ | ⟨z, rfl⟩
    · rfl
    · cases m <;> rfl
  rw [hdifference, hm, hn]
  rfl

theorem mul_measured : m.mul n = .ok (.real (x.mul y)) := by
  have hproduct : m.mul n
      = do return real ((← m.measure).mul (← n.measure)) := by
    rcases h with ⟨z, rfl⟩ | ⟨z, rfl⟩
    · rfl
    · cases m <;> rfl
  rw [hproduct, hm, hn]
  rfl

theorem div_measured : m.div n = .ok (x.div y) := by
  have hquotient : m.div n = do return (← m.measure).div (← n.measure) := by
    rcases h with ⟨z, rfl⟩ | ⟨z, rfl⟩
    · rfl
    · cases m <;> rfl
  rw [hquotient, hm, hn]
  rfl

end

end Num

end BlockStage
