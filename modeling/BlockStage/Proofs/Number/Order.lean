import Mathlib.Algebra.Order.Field.Rat
import Mathlib.Tactic.Linarith
import Mathlib.Tactic.Positivity
import BlockStage.Number.Num

/-! # The order of scalars — finite ones stand where their ratios stand

    Comparisons of finite scalars are comparisons of the ratios that they
    denote, whichever zero they are. -/

namespace BlockStage

namespace Scalar

variable {x y z : Scalar}

/-- The finite scalars. -/
theorem isFinite_iff : x.isFinite = true ↔ (∃ q, x = finite q) ∨ x = negZero := by
  cases x <;> simp [isFinite]

theorem compare?_finite (hx : x.isFinite = true) (hy : y.isFinite = true) :
    x.compare? y = some (if x.value < y.value then .lt
      else if x.value = y.value then .eq else .gt) := by
  rcases isFinite_iff.1 hx with ⟨q, rfl⟩ | rfl <;>
    rcases isFinite_iff.1 hy with ⟨r, rfl⟩ | rfl <;> rfl

theorem le_iff (hx : x.isFinite = true) (hy : y.isFinite = true) :
    x.le y = true ↔ x.value ≤ y.value := by
  unfold le
  rw [compare?_finite hx hy]
  rcases lt_trichotomy x.value y.value with h | h | h
  · simp [h, h.le]
  · simp [h]
  · simp [h.not_gt, h.ne', not_le.2 h]

theorem lt_iff (hx : x.isFinite = true) (hy : y.isFinite = true) :
    x.lt y = true ↔ x.value < y.value := by
  unfold lt
  rw [compare?_finite hx hy]
  rcases lt_trichotomy x.value y.value with h | h | h
  · simp [h]
  · simp [h]
  · simp [h.not_gt, h.ne']

theorem le_self (hx : x.isFinite = true) : x.le x = true :=
  (le_iff hx hx).2 le_rfl

theorem le_trans (hx : x.isFinite = true) (hy : y.isFinite = true)
    (hz : z.isFinite = true) (hxy : x.le y = true) (hyz : y.le z = true) :
    x.le z = true :=
  (le_iff hx hz).2 (((le_iff hx hy).1 hxy).trans ((le_iff hy hz).1 hyz))

theorem neg_value (hx : x.isFinite = true) :
    x.neg.isFinite = true ∧ x.neg.value = -x.value := by
  rcases isFinite_iff.1 hx with ⟨q, rfl⟩ | rfl
  · by_cases hq : q = 0 <;> simp [neg, hq, isFinite, value]
  · simp [neg, isFinite, value]

/-- A sum of finite scalars is the rounded sum, or zero below. -/
theorem add_finite [Arithmetic] (hx : x.isFinite = true)
    (hy : y.isFinite = true) :
    x.add y = Arithmetic.round (x.value + y.value)
      ∨ x.add y = negZero ∧ x.value + y.value = 0 := by
  rcases isFinite_iff.1 hx with ⟨q, rfl⟩ | rfl <;>
    rcases isFinite_iff.1 hy with ⟨r, rfl⟩ | rfl
  · exact .inl rfl
  · exact .inl rfl
  · exact .inl rfl
  · exact .inr ⟨rfl, by simp [value]⟩

/-- Whatever equals a finite number is finite. -/
theorem same_finite {q : Rat}
    (h : x.same (.finite q) = true) : x.isFinite = true ∧ x.value = q := by
  cases x with
  | nan => contradiction
  | inf negative => cases negative <;> contradiction
  | finite r =>
      refine ⟨rfl, ?_⟩
      rcases lt_trichotomy r q with hlt | heq | hgt
      · simp [same, compare?, value, hlt] at h
      · exact heq
      · simp [same, compare?, value, hgt.not_gt, hgt.ne'] at h
  | negZero =>
      refine ⟨rfl, ?_⟩
      rcases lt_trichotomy 0 q with hlt | heq | hgt
      · simp [same, compare?, value, hlt] at h
      · exact heq
      · simp [same, compare?, value, hgt.not_gt, hgt.ne'] at h

end Scalar

/-- A count that is the same as a number above zero is above zero. -/
theorem Num.pos_of_same {n : Num} {k : Int} (hpos : n.le 0 = false)
    (hsame : n.same (.int k) = true) : 0 < k := by
  obtain ⟨hfin, hvalue⟩ := Scalar.same_finite hsame
  by_contra hle
  have hzero : n.exact.le (.finite (0 : Int)) = true := by
    refine (Scalar.le_iff hfin rfl).2 ?_
    rw [hvalue]
    show (k : Rat) ≤ ((0 : Int) : Rat)
    exact_mod_cast not_lt.1 hle
  exact absurd (hzero.symm.trans hpos) Bool.noConfusion

end BlockStage
