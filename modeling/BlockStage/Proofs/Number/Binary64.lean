import BlockStage.Proofs.Number.Order

/-! # Doubles — what rounding keeps

    Rounding to the nearest double keeps the sign of a ratio. -/

namespace BlockStage

namespace Binary64

/-- Rounding is never to no number. -/
theorem nearest_cases (q : Rat) :
    nearest q = .inf (q < 0)
      ∨ ∃ r, nearest q = .finite r ∧ (0 ≤ q → 0 ≤ r) ∧ (q ≤ 0 → r ≤ 0) := by
  unfold nearest
  split
  · exact .inr ⟨0, rfl, fun _ => le_rfl, fun _ => le_rfl⟩
  · rename_i hq
    simp only
    split
    · exact .inl rfl
    · refine .inr ⟨_, rfl, fun hpos => ?_, fun hneg => ?_⟩
      · rw [if_neg (not_lt.2 hpos)]
        split
        · exact Nat.cast_nonneg _
        · rw [Rat.mkRat_eq_div]
          positivity
      · rw [if_pos (lt_of_le_of_ne hneg hq)]
        split
        · exact neg_nonpos.2 (Nat.cast_nonneg _)
        · rw [Rat.mkRat_eq_div, neg_nonpos]
          positivity

/-- What is not below zero is rounded to something not below zero. -/
theorem zero_le_nearest {q : Rat} (h : 0 ≤ q) :
    (Scalar.finite 0).le (nearest q) = true := by
  rcases nearest_cases q with heq | ⟨r, heq, hpos, -⟩
  · rw [heq]
    simp [not_lt.2 h, Scalar.le, Scalar.compare?]
  · rw [heq, Scalar.le_iff rfl rfl]
    exact hpos h

end Binary64

end BlockStage
