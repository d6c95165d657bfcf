import BlockStage.Proofs.Run.Advance
import BlockStage.Proofs.Value.Number

/-! # Landing — where an agent stands once it was placed

    An agent may start anywhere, also where nothing can be measured.  Once
    it has been brought onto the playfield two numbers tell its place, and
    they always will: bounds are numbers or have no difference, steps lead
    to cells, and frames are measured.  Nothing is asked of the settings,
    for a calculation that does not work out leaves the agent where it
    is. -/

namespace BlockStage

/-- Two numbers tell a point. -/
def Point.IsNumeric (p : Point) : Prop :=
  p.1.number?.isSome = true ∧ p.2.number?.isSome = true

/-- Two numbers tell where an agent is. -/
def Agent.Located (a : Agent) : Prop :=
  ∃ u v, a.position = [u, v] ∧ u.number?.isSome = true
    ∧ v.number?.isSome = true

/-- An agent moved to a point of numbers is located. -/
theorem Agent.Located.moved {a : Agent} {p : Point} (h : p.IsNumeric) :
    Agent.Located { a with position := p.position } :=
  ⟨p.1, p.2, rfl, h⟩

/-- The goal flag does not move an agent. -/
theorem Agent.Located.latched {a b : Agent} {goal : Option GoalRegion}
    (ha : a.Located) (h : a.latchGoal goal = .ok b) : b.Located := by
  obtain ⟨g, rfl⟩ := Agent.latchGoal_ok h
  exact ha

/-! ## Calculations whose results are numbers -/

/-- What is brought between bounds that are numbers is a number. -/
theorem Value.clamp_isNumber {v low w : Value} {high : Num}
    (hlow : low.number?.isSome = true)
    (h : v.clamp low (.num high) = .ok w) : w.number?.isSome = true := by
  obtain ⟨u, hu, h⟩ := bind_ok h
  have hnumber : u.number?.isSome = true := by
    obtain ⟨b, hb, hu⟩ := bind_ok hu
    obtain ⟨m, hm, -⟩ := Value.relate_number hb
    cases b with
    | true =>
        cases hu
        rw [hm]
        rfl
    | false =>
        cases hu
        rfl
  obtain ⟨b, -, h⟩ := bind_ok h
  cases b with
  | true =>
      cases h
      exact hnumber
  | false =>
      cases h
      exact hlow

/-- A calculation whose results are measures. -/
theorem Value.calculate_real {x : Except NumberFault Num} {v : Value}
    (hx : ∀ n, x = .ok n → ∃ y, n = .real y)
    (h : Value.calculate (x.map Value.num) = .ok v) : ∃ y, v = .real y := by
  cases x with
  | error f => cases h
  | ok n =>
      obtain ⟨y, rfl⟩ := hx n rfl
      cases h
      exact ⟨y, rfl⟩

section

variable [Arithmetic] {s : Scene} {now : Time} {c : Config} {a b : Agent}
  {todo next : List Act} {signal : Signal}

/-- Whatever has a difference is a number. -/
theorem Value.sub_ok {u v w : Value} (h : u.sub v = .ok w) :
    (∃ m, u.number? = some m) ∧ (∃ n, v.number? = some n)
      ∧ ∃ k, w = .num k := by
  unfold Value.sub at h
  split at h
  · rename_i m n hu hv
    cases hk : m.sub n with
    | error f => rw [hk] at h; cases h
    | ok k =>
        rw [hk] at h
        cases h
        exact ⟨⟨m, hu⟩, ⟨n, hv⟩, k, rfl⟩
  · cases h

theorem Num.add_real {m n : Num} {y : Scalar} (h : m.add (.real y) = .ok n) :
    ∃ x, n = .real x := by
  cases m <;>
  · obtain ⟨x, -, h⟩ := bind_ok h
    cases h
    exact ⟨_, rfl⟩

theorem Num.mul_real {m n : Num} {y : Scalar} (h : m.mul (.real y) = .ok n) :
    ∃ x, n = .real x := by
  cases m <;>
  · obtain ⟨x, -, h⟩ := bind_ok h
    cases h
    exact ⟨_, rfl⟩

/-- What is reached on the way from one value to another is measured. -/
theorem interpolate_real {start finish t v : Value}
    (h : interpolate start finish t = .ok v) : ∃ x, v = .real x := by
  obtain ⟨way, hway, h⟩ := bind_ok h
  obtain ⟨share, -, h⟩ := bind_ok h
  obtain ⟨part, hpart, h⟩ := bind_ok h
  obtain ⟨-, ⟨m, hm⟩, k, rfl⟩ := Value.sub_ok hway
  obtain ⟨y, rfl⟩ : ∃ y, part = .real y :=
    Value.calculate_real (fun _ => Num.mul_real) hpart
  unfold Value.add at h
  rw [hm] at h
  exact Value.calculate_real (fun _ => Num.add_real) h

/-- A frame of a move is a measured point. -/
theorem Walker.between_real {start finish p : Point} {progress : Num}
    (h : Walker.between start finish progress = .ok p) :
    ∃ x y, p = (.real x, .real y) := by
  obtain ⟨u, hu, h⟩ := bind_ok h
  obtain ⟨v, hv, h⟩ := bind_ok h
  cases h
  obtain ⟨x, rfl⟩ := interpolate_real hu
  obtain ⟨y, rfl⟩ := interpolate_real hv
  exact ⟨x, y, rfl⟩

/-- The inset of a point is a point of numbers. -/
theorem insetPoint_isNumeric {q p : Point} (h : insetPoint c q = .ok p) :
    p.IsNumeric := by
  obtain ⟨right, hright, h⟩ := bind_ok h
  obtain ⟨x, hx, h⟩ := bind_ok h
  obtain ⟨top, htop, h⟩ := bind_ok h
  obtain ⟨y, hy, h⟩ := bind_ok h
  cases h
  obtain ⟨-, ⟨m, hm⟩, right, rfl⟩ := Value.sub_ok hright
  obtain ⟨-, -, top, rfl⟩ := Value.sub_ok htop
  -- the margin is a number, since something was taken away with it
  have hmargin : c.canvasMargin.number?.isSome = true := by
    rw [hm]
    rfl
  exact ⟨Value.clamp_isNumber hmargin hx, Value.clamp_isNumber hmargin hy⟩

/-- Whatever was brought onto the playfield is told by numbers. -/
theorem clampPosition_isNumeric {q : Position} {p : Point}
    (h : clampPosition c q = .ok p) : p.IsNumeric := by
  unfold clampPosition at h
  split at h
  · obtain ⟨q', -, h⟩ := bind_ok h
    exact insetPoint_isNumeric h
  · obtain ⟨q', -, h⟩ := bind_ok h
    obtain ⟨columns, -, h⟩ := bind_ok h
    obtain ⟨col, -, h⟩ := bind_ok h
    obtain ⟨rows, -, h⟩ := bind_ok h
    obtain ⟨row, -, h⟩ := bind_ok h
    cases h
    exact ⟨rfl, rfl⟩

/-- A step on the grid leads to a cell. -/
theorem gridStep_cell {q : Position} {heading : Value} {p : Point}
    (h : gridStep c q heading = .ok p) :
    ∃ col row : Int, p = (.int col, .int row) := by
  obtain ⟨key, -, h⟩ := bind_ok h
  split at h
  · cases h
  · have h := Walker.operate_ok h
    obtain ⟨q', -, h⟩ := bind_ok h
    obtain ⟨x, -, h⟩ := bind_ok h
    obtain ⟨columns, -, h⟩ := bind_ok h
    obtain ⟨col, -, h⟩ := bind_ok h
    obtain ⟨y, -, h⟩ := bind_ok h
    obtain ⟨rows, -, h⟩ := bind_ok h
    obtain ⟨row, -, h⟩ := bind_ok h
    cases h
    exact ⟨col, row, rfl⟩

/-- A step on the grid leads to a point of numbers. -/
theorem gridStep_isNumeric {q : Position} {heading : Value} {p : Point}
    (h : gridStep c q heading = .ok p) : p.IsNumeric := by
  obtain ⟨col, row, rfl⟩ := gridStep_cell h
  exact ⟨rfl, rfl⟩

/-- A frame of a move is a point of numbers. -/
theorem Walker.between_isNumeric {start finish p : Point} {progress : Num}
    (h : Walker.between start finish progress = .ok p) : p.IsNumeric := by
  obtain ⟨x, y, rfl⟩ := Walker.between_real h
  exact ⟨rfl, rfl⟩

/-! ## Steps -/

/-- An agent that is located, or is yet to be placed, is located after
    every advance. -/
theorem Advance.located (h : Advance s now a todo b next signal)
    (ha : a.Located ∨ ∃ rest, todo = .place :: rest) : b.Located := by
  cases h with
  | place hp => exact .moved (clampPosition_isNumeric hp)
  | nextStride hp hb =>
      exact (Agent.Located.moved (gridStep_isNumeric hp)).latched hb
  | glides _ hp hb =>
      exact (Agent.Located.moved (Walker.between_isNumeric hp)).latched hb
  | _ =>
      obtain ⟨u, v, hpos, hnumbers⟩ := ha.resolve_right nofun
      exact ⟨u, v, hpos, hnumbers⟩

/-- An agent that is located is located after a step that fails. -/
theorem Falters.located (h : Falters s now a todo b) (ha : a.Located) :
    b.Located := by
  cases h with
  | stays => exact ha
  | strides hp => exact .moved (gridStep_isNumeric hp)
  | glides _ hp => exact .moved (Walker.between_isNumeric hp)

end

end BlockStage
