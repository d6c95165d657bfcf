import BlockStage.Run.Log
import BlockStage.Value.Arithmetic

/-! # The loop guard — no loop runs more often than the ceiling

    The count of a loop must be a count and not negative.  Up to the
    ceiling it is granted; above, the ceiling itself is granted, the
    truncation is counted and a line reports it.  The ceiling may be any
    number, so what is granted is a value; `grant_atMost` says that it is
    never above the ceiling. -/

namespace BlockStage

/-- How often a loop may run. -/
structure Grant where
  /-- The number of passes. -/
  passes : Value
  /-- Whether more were asked for. -/
  truncated : Bool

/-- Ceilings below one guard nothing and are refused. -/
def checkCeiling (ceiling : Value) : Except RunFault Value := do
  if ← operate (ceiling.lt 1) then throw (.about .badCeiling ceiling)
  else return ceiling

/-- The passes granted to a loop. -/
def grant (ceiling requested : Value) : Except RunFault Grant :=
  match requested with
  | .num (.int n) =>
      if n < 0 then .error (.negativeCount n)
      else
        match requested.gt ceiling with
        | .ok true => .ok ⟨ceiling, true⟩
        | .ok false => .ok ⟨requested, false⟩
        | .error f => .error (.operand f)
  | v => .error (.about .countNotInteger v)

/-- The wording of a truncation, if the values in it can be written out.
    An agent without a name is shown as a question mark, the ceiling by its
    whole part. -/
def truncationText (ceiling : Value) (forever : Bool)
    (agentId requested : Value) : Except RunFault String := do
  let ceiling ← operate ceiling.whole
  if ¬ agentId.legible ∨ ¬ requested.legible then throw .illegible
  return (if forever then "forever" else "repeat") ++ " loop for agent "
    ++ (if agentId.holds then agentId.plain else "?")
    ++ " truncated from " ++ requested.text ++ " to " ++ toString ceiling
    ++ " iterations"

/-- The line that reports a truncation. -/
def truncationLine (ceiling : Value) (forever : Bool)
    (agentId requested : Value) : LogLine :=
  ⟨.info, .guard, truncationText ceiling forever agentId requested⟩

/-- A count under a ceiling that is a count: negative ones are refused,
    those above the ceiling cut down to it, the others granted. -/
theorem grant_int (ceiling n : Int) :
    grant (.int ceiling) (.int n)
      = if n < 0 then .error (.negativeCount n)
        else if ceiling < n then .ok ⟨.int ceiling, true⟩
        else .ok ⟨.int n, false⟩ := by
  have hgt : (Value.num (.int n)).gt (.num (.int ceiling))
      = .ok (decide (ceiling < n)) := by
    simp [Value.gt, Value.relate_num, Comparison.numbers, Num.lt_int]
  simp only [grant, Value.int, hgt]
  by_cases hc : ceiling < n <;> simp [hc]

/-- What is granted to a count under a ceiling that is a count is not above
    the ceiling. -/
theorem grant_atMost {ceiling n : Int} {g : Grant}
    (h : grant (.int ceiling) (.int n) = .ok g) :
    ∃ m : Int, g.passes = .int m ∧ m ≤ ceiling := by
  rw [grant_int] at h
  by_cases hn : n < 0
  · simp [hn] at h
  · by_cases hc : ceiling < n
    · simp [hn, hc] at h
      exact ⟨ceiling, by rw [← h], Int.le_refl _⟩
    · simp [hn, hc] at h
      exact ⟨n, by rw [← h], by omega⟩

end BlockStage
