import BlockStage.Proofs.Value.Number
import BlockStage.Stage.Agent

/-! # Goals — to stand in the goal and to know it

    Any place of numbers can be compared with a goal of numbers, and places
    of the same numbers, counted or measured, lie in the same goals.  An
    agent that looks for the goal changes nothing but its flag: it puts the
    flag up, or leaves it as it is, and afterwards an agent in the goal has
    its flag up (`Agent.latchGoal_up`). -/

namespace BlockStage

namespace GoalRegion

variable {g : GoalRegion} {u v : Value}

/-- A rectangle of numbers can be compared with any place of numbers. -/
theorem contains_numbers (hg : g.isNumeric = true)
    (hu : u.number?.isSome = true) (hv : v.number?.isSome = true) :
    ∃ b, g.contains [u, v] = .ok b := by
  simp only [isNumeric, Bool.and_eq_true] at hg
  obtain ⟨⟨⟨hx, hy⟩, hx'⟩, hy'⟩ := hg
  have hbetween : ∀ low w high : Value, low.number?.isSome = true →
      w.number?.isSome = true → high.number?.isSome = true →
      ∃ b, between low w high = .ok b := by
    intro low w high hlow hw hhigh
    obtain ⟨l, hl⟩ := Option.isSome_iff_exists.1 hlow
    obtain ⟨m, hm⟩ := Option.isSome_iff_exists.1 hw
    obtain ⟨h, hh⟩ := Option.isSome_iff_exists.1 hhigh
    unfold between Value.le
    rw [Value.relate_numbers hl hm, Value.relate_numbers hm hh]
    cases Comparison.atMost.numbers l m
    · exact ⟨_, rfl⟩
    · exact ⟨_, rfl⟩
  obtain ⟨b, hb⟩ := hbetween g.xMin u g.xMax hx hu hx'
  obtain ⟨b', hb'⟩ := hbetween g.yMin v g.yMax hy hv hy'
  unfold contains
  rw [show Value.pairOf [u, v] = .ok (u, v) from rfl]
  simp only [bind, Except.bind, hb, hb']
  cases b <;> exact ⟨_, rfl⟩

/-- A number lies between two others if a number does that is as large. -/
theorem between_exact {low high : Value} {m n : Num} {b : Bool}
    (hu : u.number? = some m) (hm : m.exact = n.exact)
    (h : between low (.num n) high = .ok b) : between low u high = .ok b := by
  obtain ⟨above, habove, h⟩ := bind_ok h
  obtain ⟨l, hl, rfl⟩ := Value.relate_number habove
  have hlow : low.le u = .ok (Comparison.atMost.numbers l n) := by
    rw [Value.le, Value.relate_numbers hl hu]
    show Except.ok (l.exact.le m.exact) = _
    rw [hm]
    rfl
  have hhigh : ∀ b, (Value.num n).le high = .ok b → u.le high = .ok b := by
    intro b hb
    obtain ⟨r, hr, rfl⟩ := Value.relate_number_left hb
    rw [Value.le, Value.relate_numbers hu hr]
    show Except.ok (m.exact.le r.exact) = _
    rw [hm]
    rfl
  show (low.le u >>= _) = _
  rw [hlow]
  cases hl : Comparison.atMost.numbers l n with
  | false =>
      rw [hl] at h
      exact h
  | true =>
      rw [hl] at h
      exact hhigh b h

/-- Two numbers lie in every goal in which two others do that are as
    large. -/
theorem contains_exact {m n k l : Num} {b : Bool}
    (hu : u.number? = some m) (hm : m.exact = k.exact)
    (hv : v.number? = some n) (hn : n.exact = l.exact)
    (h : g.contains [.num k, .num l] = .ok b) :
    g.contains [u, v] = .ok b := by
  have h : (between g.xMin (.num k) g.xMax >>= fun inside =>
      if inside then between g.yMin (.num l) g.yMax else pure false)
      = .ok b := h
  obtain ⟨inside, hinside, h⟩ := bind_ok h
  show (between g.xMin u g.xMax >>= _) = _
  rw [between_exact hu hm hinside]
  cases inside with
  | false => exact h
  | true => exact between_exact hv hn h

end GoalRegion

namespace Agent

variable {a b : Agent} {goal : Option GoalRegion}

/-- An agent stands in the goal. -/
def InGoal (goal : Option GoalRegion) (a : Agent) : Prop :=
  ∃ g, goal = some g ∧ g.contains a.position = .ok true

/-- The goal flag of an agent at a place of numbers can be set. -/
theorem latchGoal_numbers {u v : Value}
    (hg : ∀ g, goal = some g → g.isNumeric = true)
    (ha : a.position = [u, v]) (hu : u.number?.isSome = true)
    (hv : v.number?.isSome = true) : ∃ b, a.latchGoal goal = .ok b := by
  unfold latchGoal
  cases goal with
  | none => exact ⟨a, rfl⟩
  | some g =>
      dsimp only
      split
      · exact ⟨a, rfl⟩
      · obtain ⟨inside, hin⟩ := g.contains_numbers (hg g rfl) hu hv
        rw [ha, hin]
        cases inside
        · exact ⟨_, rfl⟩
        · exact ⟨_, rfl⟩

/-- Looking for the goal puts the flag up or leaves it, and an agent in the
    goal has its flag up then. -/
theorem latchGoal_up (h : a.latchGoal goal = .ok b) :
    (b = a ∨ b = { a with goalReached := .bool true })
      ∧ (b.InGoal goal → b.goalReached.holds = true) := by
  cases goal with
  | none =>
      cases h
      exact ⟨.inl rfl, nofun⟩
  | some g =>
      by_cases hup : a.goalReached.holds = true
      · rw [latchGoal, if_pos hup] at h
        cases h
        exact ⟨.inl rfl, fun _ => hup⟩
      · rw [latchGoal, if_neg hup] at h
        obtain ⟨inside, hinside, h⟩ := bind_ok h
        cases inside with
        | true =>
            cases h
            exact ⟨.inr rfl, fun _ => rfl⟩
        | false =>
            cases h
            refine ⟨.inl rfl, ?_⟩
            rintro ⟨_, ⟨⟩, hno⟩
            rw [hinside] at hno
            cases hno

/-- Looking for the goal leaves an agent as it is anywhere but in the
    goal. -/
theorem latchGoal_inside (h : a.latchGoal goal = .ok b) :
    b = a ∨ b.InGoal goal := by
  cases goal with
  | none =>
      cases h
      exact .inl rfl
  | some g =>
      by_cases hup : a.goalReached.holds = true
      · rw [latchGoal, if_pos hup] at h
        cases h
        exact .inl rfl
      · rw [latchGoal, if_neg hup] at h
        obtain ⟨inside, hinside, h⟩ := bind_ok h
        cases inside with
        | true =>
            cases h
            exact .inr ⟨g, rfl, hinside⟩
        | false =>
            cases h
            exact .inl rfl

/-- Looking for the goal changes the goal flag and nothing else. -/
theorem latchGoal_ok (h : a.latchGoal goal = .ok b) :
    ∃ g, b = { a with goalReached := g } := by
  rcases (latchGoal_up h).1 with rfl | rfl
  · exact ⟨_, rfl⟩
  · exact ⟨_, rfl⟩

/-- Where the goal cannot be looked for no agent stands in it. -/
theorem latchGoal_error {f : OperandFault} (h : a.latchGoal goal = .error f) :
    ¬ a.InGoal goal := by
  rintro ⟨g, rfl, hin⟩
  by_cases hup : a.goalReached.holds = true
  · rw [latchGoal, if_pos hup] at h
    cases h
  · rw [latchGoal, if_neg hup, hin] at h
    cases h

end Agent

end BlockStage
