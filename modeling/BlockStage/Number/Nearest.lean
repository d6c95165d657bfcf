/-! # Whole numbers nearest to a ratio — halves go to the even neighbour

    Every rounding of this library is one division followed by one choice:
    the quotient or its successor, whichever is nearer, and of two equally
    near the even one.  `nearestEven_le` and `le_nearestEven` bound the
    result within half a unit of the ratio. -/

namespace BlockStage

/-- The whole number nearest to `a / d`; a half goes to the even
    neighbour. -/
def nearestEven (a d : Nat) : Nat :=
  if 2 * (a % d) < d then a / d
  else if d < 2 * (a % d) then a / d + 1
  else if a / d % 2 = 0 then a / d
  else a / d + 1

/-- The rounded quotient is the quotient, or its successor when at least
    half a unit remains. -/
theorem nearestEven_cases (a d : Nat) :
    (nearestEven a d = a / d ∧ 2 * (a % d) ≤ d)
      ∨ (nearestEven a d = a / d + 1 ∧ d ≤ 2 * (a % d)) := by
  unfold nearestEven
  by_cases hlow : 2 * (a % d) < d
  · exact Or.inl ⟨if_pos hlow, by omega⟩
  · by_cases hhigh : d < 2 * (a % d)
    · exact Or.inr ⟨by rw [if_neg hlow, if_pos hhigh], by omega⟩
    · by_cases heven : a / d % 2 = 0
      · exact Or.inl ⟨by rw [if_neg hlow, if_neg hhigh, if_pos heven],
          by omega⟩
      · exact Or.inr ⟨by rw [if_neg hlow, if_neg hhigh, if_neg heven],
          by omega⟩

/-- Rounding goes up by at most half a unit. -/
theorem nearestEven_le (a d : Nat) :
    2 * (nearestEven a d * d) ≤ 2 * a + d := by
  have hdiv := Nat.div_add_mod a d
  rw [Nat.mul_comm] at hdiv
  rcases nearestEven_cases a d with ⟨h, hr⟩ | ⟨h, hr⟩
  · rw [h]
    omega
  · rw [h, Nat.add_mul, Nat.one_mul]
    omega

/-- Rounding goes down by at most half a unit. -/
theorem le_nearestEven (a d : Nat) (hd : 0 < d) :
    2 * a ≤ 2 * (nearestEven a d * d) + d := by
  have hdiv := Nat.div_add_mod a d
  have hmod := Nat.mod_lt a hd
  rw [Nat.mul_comm] at hdiv
  rcases nearestEven_cases a d with ⟨h, hr⟩ | ⟨h, hr⟩
  · rw [h]
    omega
  · rw [h, Nat.add_mul, Nat.one_mul]
    omega

/-- The whole number nearest to a rational; halves go to the even
    neighbour. -/
def roundEven (q : Rat) : Int :=
  if q.num < 0 then -(nearestEven q.num.natAbs q.den : Int)
  else nearestEven q.num.natAbs q.den

/-- The whole part of a rational: the fraction is dropped, towards zero. -/
def wholePart (q : Rat) : Int :=
  q.num.tdiv q.den

/-- Ten to a power of either sign. -/
def tenTo (e : Int) : Rat :=
  if 0 ≤ e then ((Nat.pow 10 e.toNat : Nat) : Rat)
  else mkRat 1 (Nat.pow 10 (-e).toNat)

end BlockStage
