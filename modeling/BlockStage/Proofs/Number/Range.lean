import BlockStage.Number.Num
import BlockStage.Proofs.Number.Binary64
import Mathlib.Algebra.Order.Field.Power
import Mathlib.Tactic.FieldSimp
import Mathlib.Tactic.Ring

/-! # The range of doubles — how far rounding goes

    The unit of a rounded ratio is chosen so that at most 53 bits stand
    before the point, and no fewer unless it is the least unit.  Hence what
    is rounded lies within half a unit of the ratio, and only a ratio from
    `bound` on, half a unit past the greatest double, goes to infinity.
    The whole numbers of no more than 53 bits are doubles themselves
    (`nearest_whole`). -/

namespace BlockStage

namespace Binary64

/-- Half a unit of the greatest double. -/
def lastHalf : Rat := 2 ^ 970

/-- Half the least unit. -/
def leastHalf : Rat := (2 ^ 1075)⁻¹

/-- The greatest double, `2 ^ 1024 - 2 ^ 971`. -/
def greatest : Rat := (2 ^ 54 - 2) * lastHalf

/-- The least size that is rounded to an infinity,
    `2 ^ 1024 - 2 ^ 970`. -/
def bound : Rat := (2 ^ 54 - 1) * lastHalf

theorem lastHalf_pos : 0 < lastHalf := by
  unfold lastHalf
  positivity

theorem leastHalf_pos : 0 < leastHalf := by
  unfold leastHalf
  positivity

theorem greatest_lt_bound : greatest < bound := by
  have := lastHalf_pos
  unfold greatest bound
  linarith

variable {a d : Nat}

/-- A quotient of counts over a power of two of either sign. -/
theorem quotient_lt (hd : 0 < d) (g : Int) (n : Nat) :
    (if 0 ≤ g then a / (d * Nat.pow 2 g.toNat)
      else a * Nat.pow 2 (-g).toNat / d) < n
      ↔ (a : Rat) / d < n * 2 ^ g := by
  have hd' : (0 : Rat) < d := by exact_mod_cast hd
  by_cases hg : 0 ≤ g
  · obtain ⟨k, rfl⟩ := Int.eq_ofNat_of_zero_le hg
    rw [if_pos hg, Int.toNat_natCast, Nat.div_lt_iff_lt_mul
      (show 0 < d * Nat.pow 2 k from Nat.mul_pos hd (Nat.pow_pos Nat.two_pos)),
      div_lt_iff₀ hd', zpow_natCast]
    rw [show (n : Rat) * 2 ^ k * d = ((n * (d * Nat.pow 2 k) : Nat) : Rat) by
      push_cast [Nat.pow_eq]; ring]
    exact_mod_cast Iff.rfl
  · obtain ⟨k, hk⟩ := Int.eq_ofNat_of_zero_le (show 0 ≤ -g by omega)
    obtain rfl : g = -(k : Int) := by omega
    rw [if_neg hg, Int.neg_neg, Int.toNat_natCast,
      Nat.div_lt_iff_lt_mul hd, div_lt_iff₀ hd', zpow_neg, zpow_natCast,
      mul_assoc, inv_mul_eq_div, ← mul_div_assoc, lt_div_iff₀ (by positivity)]
    rw [show (n : Rat) * d = ((n * d : Nat) : Rat) by push_cast; ring,
      show (a : Rat) * 2 ^ k = ((a * Nat.pow 2 k : Nat) : Rat) by
        push_cast [Nat.pow_eq]; ring]
    exact_mod_cast Iff.rfl

/-- Two whole powers of two. -/
theorem two_zpow_add (m n : Int) : (2 : Rat) ^ m * 2 ^ n = 2 ^ (m + n) :=
  (zpow_add₀ two_ne_zero m n).symm

/-- A quotient lies between powers of two that the numbers of bits of its
    parts tell. -/
theorem quotient_bits (ha : 0 < a) (hd : 0 < d) :
    (2 : Rat) ^ ((Nat.log2 a : Int) - Nat.log2 d - 1) ≤ (a : Rat) / d
      ∧ (a : Rat) / d < 2 ^ ((Nat.log2 a : Int) - Nat.log2 d + 1) := by
  have hd' : (0 : Rat) < d := by exact_mod_cast hd
  have halow : (2 : Rat) ^ (Nat.log2 a : Int) ≤ a := by
    rw [zpow_natCast]
    exact_mod_cast Nat.log2_self_le ha.ne'
  have hahigh : (a : Rat) < 2 ^ ((Nat.log2 a : Int) + 1) := by
    rw [← Nat.cast_succ, zpow_natCast]
    exact_mod_cast Nat.lt_log2_self
  have hdlow : (2 : Rat) ^ (Nat.log2 d : Int) ≤ d := by
    rw [zpow_natCast]
    exact_mod_cast Nat.log2_self_le hd.ne'
  have hdhigh : (d : Rat) < 2 ^ ((Nat.log2 d : Int) + 1) := by
    rw [← Nat.cast_succ, zpow_natCast]
    exact_mod_cast Nat.lt_log2_self
  constructor
  · rw [le_div_iff₀ hd']
    calc (2 : Rat) ^ ((Nat.log2 a : Int) - Nat.log2 d - 1) * d
        ≤ 2 ^ ((Nat.log2 a : Int) - Nat.log2 d - 1)
          * 2 ^ ((Nat.log2 d : Int) + 1) :=
          mul_le_mul_of_nonneg_left hdhigh.le (by positivity)
      _ = 2 ^ (Nat.log2 a : Int) := by
          rw [two_zpow_add]
          congr 1
          ring
      _ ≤ a := halow
  · rw [div_lt_iff₀ hd']
    calc (a : Rat) < 2 ^ ((Nat.log2 a : Int) + 1) := hahigh
      _ = 2 ^ ((Nat.log2 a : Int) - Nat.log2 d + 1)
          * 2 ^ (Nat.log2 d : Int) := by
          rw [two_zpow_add]
          congr 1
          ring
      _ ≤ 2 ^ ((Nat.log2 a : Int) - Nat.log2 d + 1) * d :=
          mul_le_mul_of_nonneg_left hdlow (by positivity)

/-- At most 53 bits stand before the point, and no fewer unless the unit is
    the least one. -/
theorem unitExponent_spec (ha : 0 < a) (hd : 0 < d) :
    (a : Rat) / d < 2 ^ (53 + unitExponent a d)
      ∧ (unitExponent a d = leastExponent
        ∨ 2 ^ (52 + unitExponent a d) ≤ (a : Rat) / d) := by
  obtain ⟨hlow, hhigh⟩ := quotient_bits ha hd
  have hquot := quotient_lt (a := a) hd
    ((Nat.log2 a : Int) - Nat.log2 d - 53) (Nat.pow 2 53)
  rw [show ((Nat.pow 2 53 : Nat) : Rat) = 2 ^ (53 : Int) by norm_num,
    two_zpow_add] at hquot
  unfold unitExponent
  simp only [hquot]
  generalize (Nat.log2 a : Int) - Nat.log2 d = l at hlow hhigh ⊢
  have hmono : ∀ {m n : Int}, m ≤ n → (2 : Rat) ^ m ≤ 2 ^ n := fun h =>
    zpow_le_zpow_right₀ one_le_two h
  split
  · rename_i hlt
    rcases max_cases (l - 53) leastExponent with ⟨heq, -⟩ | ⟨heq, hle⟩
    · rw [heq]
      exact ⟨hlt, .inr (le_trans (hmono (by omega)) hlow)⟩
    · rw [heq]
      exact ⟨lt_of_lt_of_le hlt (hmono (by omega)), .inl rfl⟩
  · rename_i hge
    rcases max_cases (l - 53 + 1) leastExponent with ⟨heq, -⟩ | ⟨heq, hle⟩
    · rw [heq]
      refine ⟨lt_of_lt_of_le hhigh (hmono (by omega)), .inr ?_⟩
      exact le_trans (hmono (by omega)) (not_lt.1 hge)
    · rw [heq]
      exact ⟨lt_of_lt_of_le hhigh (hmono (by omega)), .inl rfl⟩

/-- A significand is at most half a unit away. -/
theorem significand_near (hd : 0 < d) (e : Int) :
    2 * (significand a d e * 2 ^ e : Rat) ≤ 2 * ((a : Rat) / d) + 2 ^ e
      ∧ 2 * ((a : Rat) / d)
        ≤ 2 * (significand a d e * 2 ^ e : Rat) + 2 ^ e := by
  have hd' : (0 : Rat) < d := by exact_mod_cast hd
  unfold significand
  by_cases he : 0 ≤ e
  · obtain ⟨k, rfl⟩ := Int.eq_ofNat_of_zero_le he
    rw [if_pos he, Int.toNat_natCast, zpow_natCast]
    have hup := nearestEven_le a (d * Nat.pow 2 k)
    have hdown := le_nearestEven a (d * Nat.pow 2 k)
      (Nat.mul_pos hd (Nat.pow_pos Nat.two_pos))
    generalize nearestEven a (d * Nat.pow 2 k) = m at hup hdown ⊢
    have hup : (2 : Rat) * (m * (d * 2 ^ k)) ≤ 2 * a + d * 2 ^ k := by
      exact_mod_cast hup
    have hdown : (2 : Rat) * a ≤ 2 * (m * (d * 2 ^ k)) + d * 2 ^ k := by
      exact_mod_cast hdown
    constructor
    · rw [← sub_nonneg]
      have : 2 * ((a : Rat) / d) + 2 ^ k - 2 * (m * 2 ^ k)
          = (2 * a + d * 2 ^ k - 2 * (m * (d * 2 ^ k))) / d := by
        field_simp
      rw [this]
      exact div_nonneg (sub_nonneg.2 hup) hd'.le
    · rw [← sub_nonneg]
      have : 2 * (m * 2 ^ k : Rat) + 2 ^ k - 2 * ((a : Rat) / d)
          = (2 * (m * (d * 2 ^ k)) + d * 2 ^ k - 2 * a) / d := by
        field_simp
      rw [this]
      exact div_nonneg (sub_nonneg.2 hdown) hd'.le
  · obtain ⟨k, hk⟩ := Int.eq_ofNat_of_zero_le (show 0 ≤ -e by omega)
    obtain rfl : e = -(k : Int) := by omega
    rw [if_neg he, Int.neg_neg, Int.toNat_natCast, zpow_neg, zpow_natCast]
    have hup := nearestEven_le (a * Nat.pow 2 k) d
    have hdown := le_nearestEven (a * Nat.pow 2 k) d hd
    generalize nearestEven (a * Nat.pow 2 k) d = m at hup hdown ⊢
    have hup : (2 : Rat) * (m * d) ≤ 2 * (a * 2 ^ k) + d := by
      exact_mod_cast hup
    have hdown : (2 : Rat) * (a * 2 ^ k) ≤ 2 * (m * d) + d := by
      exact_mod_cast hdown
    have hp : (0 : Rat) < d * 2 ^ k := by positivity
    constructor
    · rw [← sub_nonneg]
      have : 2 * ((a : Rat) / d) + (2 ^ k)⁻¹ - 2 * (m * (2 ^ k)⁻¹)
          = (2 * (a * 2 ^ k) + d - 2 * (m * d)) / (d * 2 ^ k) := by
        field_simp
      rw [this]
      exact div_nonneg (sub_nonneg.2 hup) hp.le
    · rw [← sub_nonneg]
      have : 2 * (m * (2 ^ k)⁻¹ : Rat) + (2 ^ k)⁻¹ - 2 * ((a : Rat) / d)
          = (2 * (m * d) + d - 2 * (a * 2 ^ k)) / (d * 2 ^ k) := by
        field_simp
      rw [this]
      exact div_nonneg (sub_nonneg.2 hdown) hp.le

/-! ## Rounded ratios -/

/-- A ratio in units of a power of two of either sign. -/
theorem size_eq (m : Nat) (e : Int) :
    (if 0 ≤ e then ((m * Nat.pow 2 e.toNat : Nat) : Rat)
      else mkRat m (Nat.pow 2 (-e).toNat)) = m * 2 ^ e := by
  by_cases he : 0 ≤ e
  · obtain ⟨k, rfl⟩ := Int.eq_ofNat_of_zero_le he
    rw [if_pos he, Int.toNat_natCast, zpow_natCast]
    push_cast [Nat.pow_eq]
    rfl
  · obtain ⟨k, hk⟩ := Int.eq_ofNat_of_zero_le (show 0 ≤ -e by omega)
    obtain rfl : e = -(k : Int) := by omega
    rw [if_neg he, Int.neg_neg, Int.toNat_natCast, Rat.mkRat_eq_div,
      zpow_neg, zpow_natCast, div_eq_mul_inv]
    push_cast [Nat.pow_eq]
    rfl

/-- What stays below the bound is rounded to no more than the greatest
    double. -/
theorem size_le (ha : 0 < a) (hd : 0 < d) (h : (a : Rat) / d < bound) :
    (significand a d (unitExponent a d) * 2 ^ unitExponent a d : Rat)
      ≤ greatest := by
  obtain ⟨hup, -⟩ := significand_near (a := a) hd (unitExponent a d)
  obtain ⟨hhigh, hlow⟩ := unitExponent_spec ha hd
  generalize unitExponent a d = e at hup hhigh hlow ⊢
  generalize significand a d e = m at hup ⊢
  unfold bound at h
  unfold greatest
  have hpos := lastHalf_pos
  have hhalf : ∀ k : Int, (2 : Rat) ^ (k + 970) = 2 ^ k * lastHalf :=
    fun k => (two_zpow_add k 970).symm
  have hmono : ∀ {m n : Int}, m ≤ n → (2 : Rat) ^ m ≤ 2 ^ n := fun h =>
    zpow_le_zpow_right₀ one_le_two h
  rcases lt_trichotomy e 971 with he | rfl | he
  · -- far below the greatest double
    have hle : (2 : Rat) ^ e ≤ lastHalf := hmono (n := 970) (by omega)
    have hx : (a : Rat) / d < 2 ^ (53 : Int) * lastHalf := by
      rw [← hhalf]
      exact lt_of_lt_of_le hhigh (hmono (by omega))
    norm_num at hx
    linarith
  · -- one of the last doubles: the significand has 53 bits
    rw [show (971 : Int) = 1 + 970 from rfl, hhalf, zpow_one] at hup ⊢
    have hm : (m : Rat) < 2 ^ 53 := by
      refine lt_of_mul_lt_mul_right (a := 2 * lastHalf) ?_ (by linarith)
      linarith
    have hm : (m : Rat) ≤ 2 ^ 53 - 1 := by
      have : m < 2 ^ 53 := by exact_mod_cast hm
      have : m + 1 ≤ 2 ^ 53 := this
      have : ((m : Rat) + 1) ≤ 2 ^ 53 := by exact_mod_cast this
      linarith
    have := mul_le_mul_of_nonneg_right hm
      (show (0 : Rat) ≤ 2 * lastHalf by linarith)
    linarith
  · -- past the bound
    rcases hlow with hleast | hlow
    · rw [hleast] at he
      exact absurd he (by decide)
    · have hge : (2 : Rat) ^ (54 + 970 : Int) ≤ 2 ^ (52 + e) :=
        hmono (by omega)
      rw [hhalf] at hge
      norm_num at hge
      linarith

/-- A rounded ratio is off by no more than one part in `2 ^ 53`, or half
    the least unit. -/
theorem size_near (ha : 0 < a) (hd : 0 < d) :
    |(significand a d (unitExponent a d) * 2 ^ unitExponent a d : Rat)
      - (a : Rat) / d| ≤ (a : Rat) / d / 2 ^ 53 + leastHalf := by
  obtain ⟨hup, hdown⟩ := significand_near (a := a) hd (unitExponent a d)
  obtain ⟨-, hlow⟩ := unitExponent_spec ha hd
  generalize unitExponent a d = e at hup hdown hlow ⊢
  generalize significand a d e = m at hup hdown ⊢
  have hx : (0 : Rat) ≤ (a : Rat) / d := by positivity
  have hunit : (2 : Rat) ^ e / 2 ≤ (a : Rat) / d / 2 ^ 53 + leastHalf := by
    rcases hlow with rfl | hlow
    · have hleast : (2 : Rat) ^ leastExponent / 2 = leastHalf := by
        rw [show leastExponent = -((1074 : Nat) : Int) from rfl, zpow_neg,
          zpow_natCast, leastHalf, pow_succ 2 1074, mul_inv, div_eq_mul_inv]
      rw [hleast]
      have : (0 : Rat) ≤ (a : Rat) / d / 2 ^ 53 := by positivity
      linarith
    · rw [← two_zpow_add, show ((2 : Rat) ^ (52 : Int)) = 2 ^ 52 from rfl]
        at hlow
      have htiny := leastHalf_pos
      have : (2 : Rat) ^ e / 2 ≤ (a : Rat) / d / 2 ^ 53 := by
        rw [div_le_div_iff₀ two_pos (by positivity), pow_succ 2 52]
        linarith
      linarith
  rw [abs_le]
  constructor <;> linarith

/-- Rounding a ratio below the bound gives a double close to it. -/
theorem nearest_spec {q : Rat} (h : |q| < bound) :
    ∃ r, nearest q = .finite r ∧ |r| ≤ greatest
      ∧ |r - q| ≤ |q| / 2 ^ 53 + leastHalf := by
  unfold nearest
  split
  · rename_i hq
    refine ⟨0, rfl, ?_, ?_⟩
    · have := lastHalf_pos
      rw [abs_zero, greatest]
      linarith
    · have := leastHalf_pos
      rw [hq, sub_zero, abs_zero]
      linarith
  · rename_i hq
    have ha : 0 < q.num.natAbs := Int.natAbs_pos.2 (Rat.num_ne_zero.2 hq)
    have hd : 0 < q.den := q.den_pos
    have habs : |q| = (q.num.natAbs : Rat) / q.den := by
      rw [Rat.abs_def, Rat.divInt_eq_div]
      rfl
    rw [habs] at h ⊢
    have hle := size_le ha hd h
    have hnear := size_near ha hd
    simp only [size_eq]
    generalize unitExponent q.num.natAbs q.den = e at hle hnear ⊢
    generalize significand q.num.natAbs q.den e = m at hle hnear ⊢
    have hpos : (0 : Rat) ≤ m * 2 ^ e := by positivity
    rw [if_neg]
    · by_cases hneg : q < 0
      · rw [if_pos hneg]
        refine ⟨_, rfl, ?_, ?_⟩
        · rwa [abs_neg, abs_of_nonneg hpos]
        · rw [abs_of_neg hneg] at habs
          rw [show -(m * 2 ^ e : Rat) - q = -((m * 2 ^ e : Rat) - -q) by ring,
            abs_neg, habs]
          exact hnear
      · rw [if_neg hneg]
        refine ⟨_, rfl, ?_, ?_⟩
        · rwa [abs_of_nonneg hpos]
        · rw [abs_of_nonneg (not_lt.1 hneg)] at habs
          rw [← habs] at hnear ⊢
          exact hnear
    · -- no infinity is reached
      rintro ⟨he, hbig⟩
      obtain ⟨k, rfl⟩ := Int.eq_ofNat_of_zero_le he
      rw [zpow_natCast] at hle
      rw [Int.toNat_natCast] at hbig
      have hpow : ∀ i j n : Nat, n = i + j → Nat.pow 2 n ≤ m * Nat.pow 2 k →
          (2 : Rat) ^ i * 2 ^ j ≤ m * 2 ^ k := by
        rintro i j n rfl hle
        rw [← pow_add]
        exact_mod_cast hle
      have hbig : (2 : Rat) ^ 54 * lastHalf ≤ m * 2 ^ k :=
        hpow 54 970 _ rfl hbig
      have := lastHalf_pos
      unfold greatest at hle
      linarith

/-! ## Counts -/

/-- A whole multiple is its own rounding. -/
theorem nearestEven_mul (m : Nat) {d : Nat} (hd : 0 < d) :
    nearestEven (m * d) d = m := by
  unfold nearestEven
  rw [Nat.mul_mod_left, Nat.mul_zero, if_pos hd, Nat.mul_div_cancel _ hd]

/-- In a unit of no more than one a count is its own significand. -/
theorem significand_whole (a : Nat) {e : Int} (he : e ≤ 0) :
    (significand a 1 e * 2 ^ e : Rat) = a := by
  obtain ⟨k, hk⟩ := Int.eq_ofNat_of_zero_le (show 0 ≤ -e by omega)
  obtain rfl : e = -(k : Int) := by omega
  have hm : significand a 1 (-(k : Int)) = a * 2 ^ k := by
    have hround := nearestEven_mul (a * 2 ^ k) Nat.one_pos
    rw [Nat.mul_one] at hround
    unfold significand
    by_cases hzero : 0 ≤ -(k : Int)
    · obtain rfl : k = 0 := by omega
      rw [if_pos hzero]
      rwa [pow_zero, Nat.mul_one] at hround ⊢
    · rw [if_neg hzero, Int.neg_neg, Int.toNat_natCast]
      exact hround
  rw [hm, zpow_neg, zpow_natCast]
  push_cast
  field_simp

/-- The significand of a count of up to 53 bits gives the count back. -/
theorem size_whole {a : Nat} (ha : 0 < a) (h : a ≤ 2 ^ 53) :
    (significand a 1 (unitExponent a 1) * 2 ^ unitExponent a 1 : Rat) = a := by
  rcases h.eq_or_lt with rfl | hlt
  · decide +kernel
  · refine significand_whole a ?_
    by_contra hpos
    obtain ⟨-, hleast | hlow⟩ := unitExponent_spec ha Nat.one_pos
    · rw [hleast] at hpos
      exact hpos (by decide)
    · have hlarge : (2 : Rat) ^ (53 : Int) ≤ 2 ^ (52 + unitExponent a 1) :=
        zpow_le_zpow_right₀ one_le_two (by omega)
      have hsmall : (a : Rat) < 2 ^ 53 := by exact_mod_cast hlt
      rw [Nat.cast_one, div_one] at hlow
      exact absurd (hlarge.trans hlow) (not_le.2 hsmall)

/-- Counts of up to 53 bits are doubles. -/
theorem nearest_whole {n : Int} (h : |n| ≤ 2 ^ 53) :
    nearest (n : Rat) = .finite (n : Rat) := by
  by_cases hzero : n = 0
  · subst hzero
    rfl
  have ha : 0 < n.natAbs := Int.natAbs_pos.2 hzero
  have hsmall : n.natAbs ≤ 2 ^ 53 := by
    rw [Int.abs_eq_natAbs] at h
    exact_mod_cast h
  have hsize : (significand (n : Rat).num.natAbs (n : Rat).den
      (unitExponent (n : Rat).num.natAbs (n : Rat).den)
      * 2 ^ unitExponent (n : Rat).num.natAbs (n : Rat).den : Rat)
        = n.natAbs := by
    rw [Rat.num_intCast, Rat.den_intCast]
    exact size_whole ha hsmall
  unfold nearest
  rw [if_neg (by exact_mod_cast hzero)]
  simp only [size_eq]
  generalize unitExponent (n : Rat).num.natAbs (n : Rat).den = e at hsize ⊢
  generalize significand (n : Rat).num.natAbs (n : Rat).den e = m
    at hsize ⊢
  rw [if_neg, hsize, ← Int.cast_natCast, ← Int.abs_eq_natAbs]
  · rcases lt_or_gt_of_ne hzero with hneg | hpos
    · rw [if_pos (by exact_mod_cast hneg), abs_of_neg hneg, Int.cast_neg,
        neg_neg]
    · rw [if_neg (not_lt.2 (by exact_mod_cast hpos.le)), abs_of_pos hpos]
  · -- no infinity is reached
    rintro ⟨he, hbig⟩
    obtain ⟨k, rfl⟩ := Int.eq_ofNat_of_zero_le he
    rw [zpow_natCast] at hsize
    rw [Int.toNat_natCast] at hbig
    have heq : m * Nat.pow 2 k = n.natAbs := by exact_mod_cast hsize
    rw [heq] at hbig
    exact absurd (hbig.trans hsmall) (by decide +kernel)

end Binary64

attribute [local instance] Arithmetic.binary64

/-- A count below the bound can be measured. -/
theorem Num.measure_int {n : Int} (h : |(n : Rat)| < Binary64.bound) :
    ∃ r : Rat, (Num.int n).measure = .ok (.finite r) := by
  obtain ⟨r, hr, -⟩ := Binary64.nearest_spec h
  have hround : Arithmetic.round (n : Rat) = .finite r := hr
  exact ⟨r, by simp only [Num.measure, hround]⟩

end BlockStage
