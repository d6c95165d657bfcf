import BlockStage.Proofs.Number.Finite
import BlockStage.Proofs.Stage.Grid

/-! # Grid moves — every step and every quarter turn can be taken

    Any place of numbers can be brought onto a cell (`clampToGrid_ok`).
    From a cell, with a heading equal to one of the four, a step leads
    somewhere (`gridStep_ok`) and a turn by quarters ends at one of the four
    (`gridTurn_ok`), for doubles hold quarter turns exactly. -/

namespace BlockStage

/-! ## Cells -/

/-- The smaller of two counts. -/
theorem Num.min_int (m n : Int) :
    (Num.int m).min (.int n) = .int (Min.min m n) := by
  unfold Num.min
  by_cases h : n < m
  · rw [if_pos (by rw [Num.lt_int, decide_eq_true_eq]; exact h),
      Int.min_eq_right h.le]
  · rw [if_neg (by rw [Num.lt_int, decide_eq_true_eq]; exact h),
      Int.min_eq_left (not_lt.1 h)]

/-- The larger of two counts. -/
theorem Num.max_int (m n : Int) :
    (Num.int m).max (.int n) = .int (Max.max m n) := by
  unfold Num.max
  by_cases h : m < n
  · rw [if_pos (by rw [Num.lt_int, decide_eq_true_eq]; exact h),
      Int.max_eq_right h.le]
  · rw [if_neg (by rw [Num.lt_int, decide_eq_true_eq]; exact h),
      Int.max_eq_left (not_lt.1 h)]

/-- A count brought between zero and a last one. -/
theorem cellIndex_int (m last : Int) :
    cellIndex (.int m) (.int last) = .ok (max 0 (min last m)) := by
  have hclamp : (Num.int m).clamp (.int 0) (.int last)
      = .int (max 0 (min last m)) := by
    unfold Num.clamp
    rw [Num.min_int, Num.max_int]
  unfold cellIndex
  rw [show (Value.int m).clamp 0 (.int last)
      = .ok (.num ((Num.int m).clamp (.int 0) (.int last))) from
    Value.clamp_num (.int m) (.int 0) (.int last), hclamp]
  rfl

/-- A number brought between two counts has a whole part. -/
theorem Num.whole_clamp (n : Num) (low high : Int) :
    ∃ x, (n.clamp (.int low) (.int high)).whole = .ok x := by
  rcases n.clamp_cases (.int low) (.int high) with
    heq | ⟨heq, -⟩ | ⟨heq, hlow, hhigh⟩
  · rw [heq]
    exact ⟨low, rfl⟩
  · rw [heq]
    exact ⟨high, rfl⟩
  · rw [heq]
    cases n with
    | int i => exact ⟨i, rfl⟩
    | real y =>
        cases y with
        | finite q => exact ⟨_, rfl⟩
        | negZero => exact ⟨0, rfl⟩
        | inf negative => cases negative <;> contradiction
        | nan => contradiction

/-- Every number is brought to a cell index. -/
theorem cellIndex_ok (n : Num) (last : Int) :
    ∃ x, cellIndex (.num n) (.int last) = .ok x := by
  obtain ⟨x, hx⟩ := n.whole_clamp 0 last
  refine ⟨x, ?_⟩
  unfold cellIndex
  rw [show (Value.num n).clamp 0 (.int last)
      = .ok (.num (n.clamp (.int 0) (.int last))) from
    Value.clamp_num n (.int 0) (.int last)]
  show Value.calculate (n.clamp (.int 0) (.int last)).whole = _
  rw [hx]
  rfl

variable [Arithmetic] {c : Config} {columns rows : Int}

/-- Every place of numbers is brought onto the grid. -/
theorem clampToGrid_ok (hc : c.Counted columns rows) (u v : Num) :
    ∃ p, clampToGrid c [.num u, .num v] = .ok p := by
  obtain ⟨x, hx⟩ := cellIndex_ok u (columns - 1)
  obtain ⟨y, hy⟩ := cellIndex_ok v (rows - 1)
  refine ⟨(.int x, .int y), ?_⟩
  unfold clampToGrid
  rw [hc.columns, hc.rows]
  rw [show (Value.int columns).sub 1 = .ok (.int (columns - 1)) from rfl,
    show (Value.int rows).sub 1 = .ok (.int (rows - 1)) from rfl]
  simp only [Value.pairOf, bind, Except.bind, pure, Except.pure, hx, hy]

/-! ## Headings -/

omit [Arithmetic] in
/-- The whole part of a whole number is the number itself. -/
theorem wholePart_int (n : Int) : wholePart n = n := by
  rw [wholePart, Rat.num_intCast, Rat.den_intCast]
  exact Int.tdiv_one n

/-- A heading equal to one of the four. -/
def Value.IsCardinal (v : Value) : Prop :=
  ∃ n : Num, v = .num n ∧ (stepVector? n).isSome = true

omit [Arithmetic] in
/-- Which of the four a heading equals. -/
theorem isCardinal_cases {n : Num} (h : (stepVector? n).isSome = true) :
    ∃ k : Int, 0 ≤ k ∧ k ≤ 3 ∧ n.same (.int (90 * k)) = true := by
  unfold stepVector? at h
  split at h
  · exact ⟨0, by decide, by decide, ‹_›⟩
  · split at h
    · exact ⟨1, by decide, by decide, ‹_›⟩
    · split at h
      · exact ⟨2, by decide, by decide, ‹_›⟩
      · split at h
        · exact ⟨3, by decide, by decide, ‹_›⟩
        · cases h

omit [Arithmetic] in
/-- The four counts are headings. -/
theorem Value.isCardinal_int {h : Int} (hh : isCardinal h = true) :
    (Value.int h).IsCardinal := by
  refine ⟨.int h, rfl, ?_⟩
  unfold isCardinal at hh
  rw [decide_eq_true_eq] at hh
  rcases hh with rfl | rfl | rfl | rfl <;> decide +kernel

omit [Arithmetic] in
/-- A few quarter turns are doubles. -/
theorem nearest_quarters {k : Int} (hlow : -8 ≤ k) (hhigh : k ≤ 8) :
    Binary64.nearest ((90 * k : Int) : Rat) = .finite ((90 * k : Int) : Rat) := by
  have hall : ∀ i : Fin 17, Binary64.nearest ((90 * ((i : Int) - 8) : Int) : Rat)
      = .finite ((90 * ((i : Int) - 8) : Int) : Rat) := by
    decide +kernel
  have := hall ⟨(k + 8).toNat, by omega⟩
  rwa [show (((⟨(k + 8).toNat, by omega⟩ : Fin 17) : Nat) : Int) - 8 = k by
    simp only
    omega] at this

/-- The neighbour of a cell in any direction, stopped at the edge. -/
theorem neighbour_int (hc : c.Counted columns rows)
    (x y dCol dRow : Int) :
    neighbour c [.int x, .int y] dCol dRow
      = .ok (.int (max 0 (min (columns - 1) (x + dCol))),
        .int (max 0 (min (rows - 1) (y + dRow)))) := by
  unfold neighbour
  rw [hc.columns, hc.rows]
  rw [show (Value.int columns).sub 1 = .ok (.int (columns - 1)) from rfl,
    show (Value.int rows).sub 1 = .ok (.int (rows - 1)) from rfl]
  simp only [Value.pairOf, bind, Except.bind, pure, Except.pure]
  rw [show (Value.int x).add (.int dCol) = .ok (.int (x + dCol)) from rfl,
    show (Value.int y).add (.int dRow) = .ok (.int (y + dRow)) from rfl]
  dsimp only
  rw [cellIndex_int, cellIndex_int]

/-- A heading that can be looked up leads from a cell to somewhere. -/
theorem gridStep_along (hc : c.Counted columns rows) (x y : Int)
    {heading key : Value} (hkey : heading.key = .ok key)
    (hvector : (key.number?.bind stepVector?).isSome = true) :
    ∃ p, gridStep c [.int x, .int y] heading = .ok p := by
  obtain ⟨⟨dCol, dRow⟩, hvector⟩ := Option.isSome_iff_exists.1 hvector
  have hnext := neighbour_int hc x y dCol dRow
  unfold gridStep
  rw [hkey]
  simp only [operate, Except.mapError, bind, Except.bind, hvector, hnext]
  exact ⟨_, rfl⟩

/-- A step from a cell along one of the four headings leads somewhere. -/
theorem gridStep_ok (hc : c.Counted columns rows) (x y : Int) {heading : Value}
    (hh : heading.IsCardinal) :
    ∃ p, gridStep c [.int x, .int y] heading = .ok p := by
  obtain ⟨n, rfl, hn⟩ := hh
  exact @gridStep_along _ _ _ _ hc x y _ (.num n) rfl hn

/-- A heading that has led somewhere leads somewhere from every cell. -/
theorem gridStep_again (hc : c.Counted columns rows) {position : Position}
    {heading : Value} {q : Point} (h : gridStep c position heading = .ok q)
    (x y : Int) : ∃ p, gridStep c [.int x, .int y] heading = .ok p := by
  obtain ⟨key, hkey, h⟩ := bind_ok h
  have hkey : heading.key = .ok key := by
    cases hk : heading.key with
    | error f =>
        rw [hk] at hkey
        cases hkey
    | ok key' =>
        rw [hk] at hkey
        cases hkey
        rfl
  refine gridStep_along hc x y hkey ?_
  cases hvector : key.number?.bind stepVector? with
  | none =>
      rw [hvector] at h
      cases h
  | some vector => rfl

/-- A turn of a finite angle: refused unless it is quarter turns, and unless
    the whole part of the sum is one of the four headings. -/
theorem gridTurn_eq {heading degrees sum : Value} {turned : Int}
    (hfinite : degrees.isFinite = .ok true)
    (hsum : heading.add degrees = .ok sum)
    (hwhole : sum.whole = .ok turned) :
    gridTurn heading degrees
      = if isQuarterTurns degrees then
          if isCardinal (turned % 360) then .ok (turned % 360)
          else .error (.badHeading (.int (turned % 360)))
        else .error (.about .notQuarterTurns degrees) := by
  have hgoes : ∀ {α : Type} (x : α), operate (.ok x) = .ok x := fun _ => rfl
  unfold gridTurn
  rw [hfinite]
  by_cases hquarters : isQuarterTurns degrees = true
  · simp only [hgoes, bind, Except.bind, hquarters, hsum, hwhole,
      not_true_eq_false, or_self, if_false, if_true, pure, Except.pure]
    split <;> rfl
  · simp only [hgoes, bind, Except.bind, hquarters, not_true_eq_false,
      false_or]
    rfl

omit [Arithmetic] in
/-- Going round at 360 ends at one of the four headings exactly for whole
    quarter turns. -/
theorem isCardinal_round (n : Int) :
    isCardinal (n % 360) = true ↔ (90 : Int) ∣ n := by
  unfold isCardinal
  rw [decide_eq_true_eq]
  omega

section

variable [Arithmetic.Doubles]

/-- A few quarter turns are measured as what they are. -/
theorem Num.measure_quarters {k : Int} (hlow : -8 ≤ k) (hhigh : k ≤ 8) :
    (Num.int (90 * k)).measure = .ok (.finite ((90 * k : Int) : Rat)) := by
  have hround : Arithmetic.round ((90 * k : Int) : Rat)
      = .finite ((90 * k : Int) : Rat) :=
    (Arithmetic.Doubles.round_eq _).trans (nearest_quarters hlow hhigh)
  simp only [Num.measure, hround]

/-- One of the four headings can be measured. -/
theorem Value.IsCardinal.measurable {v : Value} (h : v.IsCardinal) :
    ∃ n : Num, v = .num n ∧ n.Measurable := by
  obtain ⟨n, rfl, hn⟩ := h
  refine ⟨n, rfl, ?_⟩
  cases n with
  | real x => exact Num.measurable_real
  | int i =>
      obtain ⟨k, hk, hk', hsame⟩ := isCardinal_cases hn
      have hi : (i : Rat) = ((90 * k : Int) : Rat) :=
        (Scalar.same_finite hsame).2
      obtain rfl : i = 90 * k := by exact_mod_cast hi
      exact ⟨_, Num.measure_quarters (by omega) (by omega)⟩

/-- A quarter turn or a few of them added to one of the four headings. -/
theorem add_quarters {v : Value} (h : v.IsCardinal) {k : Int}
    (hlow : -4 ≤ k) (hhigh : k ≤ 4) :
    ∃ (sum : Value) (j : Int), v.add (.int (90 * k)) = .ok sum
      ∧ sum.whole = .ok (90 * j) := by
  obtain ⟨n, rfl, hn⟩ := h
  obtain ⟨i, hi, hi', hsame⟩ := isCardinal_cases hn
  have hd := Num.measure_quarters (k := k) (by omega) (by omega)
  obtain ⟨hfin, hvalue⟩ := Scalar.same_finite hsame
  cases n with
  | int m =>
      have hm : (m : Rat) = ((90 * i : Int) : Rat) := hvalue
      obtain rfl : m = 90 * i := by exact_mod_cast hm
      refine ⟨.int (90 * i + 90 * k), i + k, rfl, ?_⟩
      rw [mul_add]
      rfl
  | real x =>
      have hvalue : x.value = ((90 * i : Int) : Rat) := hvalue
      refine ⟨_, i + k, show Value.calculate (((Num.real x).add
        (.int (90 * k))).map Value.num) = .ok (.num (.real (x.add (.finite
          ((90 * k : Int) : Rat))))) from by
        rw [Num.add_measured rfl hd (.inl ⟨x, rfl⟩)]
        rfl, ?_⟩
      have hsum : x.value + ((90 * k : Int) : Rat)
          = ((90 * (i + k) : Int) : Rat) := by
        rw [hvalue]
        push_cast
        ring
      rcases Scalar.add_finite (x := x)
          (y := .finite ((90 * k : Int) : Rat)) hfin rfl with
        heq | ⟨heq, hzero⟩
      · rw [heq, show (Scalar.finite ((90 * k : Int) : Rat)).value
            = ((90 * k : Int) : Rat) from rfl, hsum,
          Arithmetic.Doubles.round_eq,
          nearest_quarters (by omega) (by omega)]
        exact congrArg Except.ok (wholePart_int (90 * (i + k)))
      · rw [heq]
        have hzero : ((90 * (i + k) : Int) : Rat) = 0 := hsum ▸ hzero
        have hzero : 90 * (i + k) = 0 := by exact_mod_cast hzero
        rw [hzero]
        rfl

/-- A turn by quarters from one of the four headings can be taken. -/
theorem gridTurn_ok {heading : Value} (h : heading.IsCardinal) {k : Int}
    (hlow : -4 ≤ k) (hhigh : k ≤ 4) :
    ∃ x, gridTurn heading (.int (90 * k)) = .ok x := by
  obtain ⟨sum, j, hsum, hwhole⟩ := add_quarters h hlow hhigh
  have hfinite : (Value.int (90 * k)).isFinite = .ok true := by
    show Value.calculate ((Num.int (90 * k)).measure.map Scalar.isFinite) = _
    rw [Num.measure_quarters (by omega) (by omega)]
    rfl
  have hquarters : isQuarterTurns (.int (90 * k)) = true := by
    show decide (90 * k % ((90 : Nat) : Int) = 0) = true
    rw [decide_eq_true_eq]
    omega
  have hcardinal : isCardinal (90 * j % 360) = true :=
    (isCardinal_round _).2 (dvd_mul_right ..)
  refine ⟨90 * j % 360, ?_⟩
  rw [gridTurn_eq hfinite hsum hwhole, if_pos hquarters, if_pos hcardinal]

end

end BlockStage
