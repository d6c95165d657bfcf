import BlockStage.Proofs.Value.Number
import BlockStage.Stage.Canvas

/-! # Cells — where the grid brings positions to

    Whatever a position was, once it is brought onto the grid it is a pair
    of counts between zero and the last column and row, if the sizes of the
    grid are counts. -/

namespace BlockStage

/-- A cell index lies between zero and the last one. -/
theorem cellIndex_range {v : Value} {last x : Int}
    (h : cellIndex v (.int last) = .ok x) : 0 ≤ x ∧ x ≤ max 0 last := by
  unfold cellIndex at h
  cases hw : v.clamp 0 (.int last) with
  | error f => rw [hw] at h; cases h
  | ok w =>
      rw [hw] at h
      obtain ⟨n, -, hn⟩ : ∃ n, v.number? = some n
          ∧ w.number? = some (n.clamp (.int 0) (.int last)) :=
        Value.clamp_number hw
      have h : Value.whole w = .ok x := h
      unfold Value.whole at h
      rw [hn] at h
      have hx : (n.clamp (.int 0) (.int last)).whole = .ok x := by
        dsimp only at h
        cases hwhole : (n.clamp (.int 0) (.int last)).whole with
        | ok y =>
            rw [hwhole] at h
            cases h
            rfl
        | error f =>
            rw [hwhole] at h
            cases h
      rcases Num.clamp_cases n (.int 0) (.int last) with
        heq | ⟨heq, hlt⟩ | ⟨heq, hlow, hhigh⟩
      · rw [heq] at hx
        cases hx
        omega
      · rw [heq] at hx
        cases hx
        rw [Num.lt_int, decide_eq_true_eq] at hlt
        omega
      · rw [heq] at hx
        have := Num.whole_between hlow hhigh hx (Int.le_refl _)
        omega

/-- The sizes of the grid are counts. -/
structure Config.Counted (c : Config) (columns rows : Int) : Prop where
  columns : c.gridColumns = .int columns
  rows : c.gridRows = .int rows

/-- A cell of the grid. -/
def Point.IsCell (columns rows : Int) (p : Point) : Prop :=
  ∃ x y : Int, p = (.int x, .int y) ∧ 0 ≤ x ∧ x ≤ max 0 (columns - 1)
    ∧ 0 ≤ y ∧ y ≤ max 0 (rows - 1)

variable [Arithmetic] {c : Config} {p : Position} {q : Point}
  {columns rows : Int}

/-- Two cell indices make a cell. -/
theorem isCell_pair (hc : c.Counted columns rows) {u v last top : Value}
    {x y : Int} (hlast : c.gridColumns.sub 1 = .ok last)
    (hx : cellIndex u last = .ok x) (htop : c.gridRows.sub 1 = .ok top)
    (hy : cellIndex v top = .ok y) :
    Point.IsCell columns rows (.int x, .int y) := by
  rw [hc.columns] at hlast
  rw [hc.rows] at htop
  cases hlast
  cases htop
  obtain ⟨hx₀, hx₁⟩ : 0 ≤ x ∧ x ≤ max 0 (columns - 1) := cellIndex_range hx
  obtain ⟨hy₀, hy₁⟩ : 0 ≤ y ∧ y ≤ max 0 (rows - 1) := cellIndex_range hy
  exact ⟨x, y, rfl, hx₀, hx₁, hy₀, hy₁⟩

/-- A position is brought onto a cell. -/
theorem clampToGrid_isCell (hc : c.Counted columns rows)
    (h : clampToGrid c p = .ok q) : q.IsCell columns rows := by
  obtain ⟨⟨u, v⟩, -, h⟩ := bind_ok h
  obtain ⟨last, hlast, h⟩ := bind_ok h
  obtain ⟨x, hx, h⟩ := bind_ok h
  obtain ⟨top, htop, h⟩ := bind_ok h
  obtain ⟨y, hy, h⟩ := bind_ok h
  cases h
  exact isCell_pair hc hlast hx htop hy

/-- A step leads to a cell. -/
theorem gridStep_isCell {heading : Value} (hc : c.Counted columns rows)
    (h : gridStep c p heading = .ok q) : q.IsCell columns rows := by
  obtain ⟨key, -, h⟩ := bind_ok h
  split at h
  · cases h
  · rename_i dCol dRow _
    have h : neighbour c p dCol dRow = .ok q := by
      cases hq : neighbour c p dCol dRow with
      | ok r =>
          rw [hq] at h
          cases h
          rfl
      | error f =>
          rw [hq] at h
          cases h
    obtain ⟨⟨u, v⟩, -, h⟩ := bind_ok h
    obtain ⟨u', -, h⟩ := bind_ok h
    obtain ⟨last, hlast, h⟩ := bind_ok h
    obtain ⟨x, hx, h⟩ := bind_ok h
    obtain ⟨v', -, h⟩ := bind_ok h
    obtain ⟨top, htop, h⟩ := bind_ok h
    obtain ⟨y, hy, h⟩ := bind_ok h
    cases h
    exact isCell_pair hc hlast hx htop hy

end BlockStage
