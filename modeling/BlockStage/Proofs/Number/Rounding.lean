import Mathlib.Algebra.Order.Field.Rat
import Mathlib.Tactic.FieldSimp
import Mathlib.Tactic.Linarith
import BlockStage.Number.Nearest

/-! # Rounding — the nearest whole number stays between counts

    A rational is at most half a unit away from the whole number it is
    rounded to (`roundEven_near`), and so rounding never leaves a range
    that begins and ends with counts (`roundEven_between`). -/

namespace BlockStage

/-- A ratio of counts is at most half a unit away from its rounding. -/
theorem nearestEven_near {a d : Nat} (hd : 0 < d) :
    2 * ((a : Rat) / d) - 1 ≤ 2 * (nearestEven a d : Rat)
      ∧ 2 * (nearestEven a d : Rat) ≤ 2 * ((a : Rat) / d) + 1 := by
  have hpos : (0 : Rat) < d := by exact_mod_cast hd
  have hup : 2 * ((nearestEven a d : Rat) * d) ≤ 2 * a + d := by
    exact_mod_cast nearestEven_le a d
  have hdown : 2 * (a : Rat) ≤ 2 * ((nearestEven a d : Rat) * d) + d := by
    exact_mod_cast le_nearestEven a d hd
  have hratio : ((a : Rat) / d) * d = a := div_mul_cancel₀ _ hpos.ne'
  constructor
  · refine le_of_mul_le_mul_right ?_ hpos
    linarith
  · refine le_of_mul_le_mul_right ?_ hpos
    linarith

/-- A rational is at most half a unit away from its rounding. -/
theorem roundEven_near (q : Rat) :
    2 * q - 1 ≤ 2 * (roundEven q : Rat)
      ∧ 2 * (roundEven q : Rat) ≤ 2 * q + 1 := by
  obtain ⟨hdown, hup⟩ := nearestEven_near (a := q.num.natAbs) q.den_pos
  have hq : (q.num : Rat) / q.den = q := q.num_div_den
  have habs : ((q.num.natAbs : Nat) : Rat) = |(q.num : Rat)| := by
    rw [← Int.cast_abs, Int.abs_eq_natAbs, Int.cast_natCast]
  unfold roundEven
  rw [habs] at hdown hup
  split
  · rename_i hneg
    have hcast : (q.num : Rat) < 0 := by exact_mod_cast hneg
    rw [abs_of_neg hcast, neg_div, hq] at hdown hup
    push_cast
    constructor <;> linarith
  · rename_i hneg
    have hcast : (0 : Rat) ≤ q.num := by exact_mod_cast not_lt.1 hneg
    rw [abs_of_nonneg hcast, hq] at hdown hup
    push_cast
    exact ⟨hdown, hup⟩

/-- Rounding never leaves a range between two counts. -/
theorem roundEven_between {q : Rat} {low high : Int} (hlow : low ≤ q)
    (hhigh : q ≤ high) : low ≤ roundEven q ∧ roundEven q ≤ high := by
  obtain ⟨hdown, hup⟩ := roundEven_near q
  have hlow' : 2 * (low : Rat) - 1 ≤ 2 * (roundEven q : Rat) := by linarith
  have hhigh' : 2 * (roundEven q : Rat) ≤ 2 * high + 1 := by linarith
  have hlow' : 2 * low - 1 ≤ 2 * roundEven q := by exact_mod_cast hlow'
  have hhigh' : 2 * roundEven q ≤ 2 * high + 1 := by exact_mod_cast hhigh'
  omega

/-- A count is its own rounding. -/
theorem roundEven_int (n : Int) : roundEven n = n := by
  obtain ⟨hlow, hhigh⟩ : n ≤ roundEven n ∧ roundEven n ≤ n :=
    roundEven_between le_rfl le_rfl
  exact le_antisymm hhigh hlow

end BlockStage
