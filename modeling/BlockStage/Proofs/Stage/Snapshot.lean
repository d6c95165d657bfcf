import BlockStage.Stage.Record

/-! # Snapshots of agents — when an agent can be shown

    A snapshot reads five parts of an agent and nothing else.  It can be
    made exactly if each of them can be read: a name that is a text, a
    place of two measures, a measured heading, a message that is a text or
    nothing, and a truth value. -/

namespace BlockStage

namespace Received

theorem settle_ok {α : Type} {amiss : List Misfit} {x : Received α} {y : α} :
    settle amiss x = .ok y ↔ amiss = [] ∧ x = .ok y := by
  cases amiss with
  | nil => simp [settle]
  | cons m ms => simp [settle]

theorem placed_ok {α : Type} {p : List String}
    {read : Value → Except Flaw α} {v : Value} {y : α} :
    placed p read v = .ok y ↔ read v = .ok y := by
  unfold placed
  cases read v with
  | error flaw =>
      constructor
      · intro h
        cases h
      · intro h
        cases h
  | ok x =>
      show Except.ok x = _ ↔ _
      rw [Except.ok.injEq, Except.ok.injEq]

/-- Two readings that both succeed have nothing amiss. -/
theorem settle_two {α β : Type} {x : Received α} {y : Received β}
    {p : α × β} :
    settle (x.misfits ++ y.misfits) (do return (← x, ← y)) = .ok p
      ↔ x = .ok p.1 ∧ y = .ok p.2 := by
  rw [settle_ok]
  rcases x with _ | x <;> rcases y with _ | y <;>
    simp [misfits, bind, Except.bind, pure, Except.pure, Prod.ext_iff]

variable [Arithmetic]

theorem coordinate_ok {name : String} {l : List Value} {index : Nat}
    {v : Value} {x : Scalar} (h : l[index]? = some v) :
    coordinate name l index = .ok x ↔ Lenient.measure v = .ok x := by
  unfold coordinate
  rw [h]
  exact placed_ok

/-- A pair is a list of two measures. -/
theorem pair_ok {m : Members} {n : String} {p : Position}
    {q : Scalar × Scalar} (h : Members.get? m n = some (.list p)) :
    pair m n = .ok q
      ↔ ∃ u v, p = [u, v] ∧ Lenient.measure u = .ok q.1
        ∧ Lenient.measure v = .ok q.2 := by
  unfold pair
  rw [h]
  dsimp only
  by_cases hlong : 2 < p.length
  · rw [if_pos hlong]
    constructor
    · intro hno
      cases hno
    · rintro ⟨u, v, rfl, -⟩
      simp at hlong
  · rw [if_neg hlong, settle_two]
    match p with
    | [] => simp [coordinate]
    | [u] => simp [coordinate]
    | [u, v] =>
        rw [coordinate_ok (l := [u, v]) (v := u) rfl,
          coordinate_ok (l := [u, v]) (v := v) rfl]
        constructor
        · exact fun ⟨hu, hv⟩ => ⟨u, v, rfl, hu, hv⟩
        · rintro ⟨_, _, h, hu, hv⟩
          cases h
          exact ⟨hu, hv⟩
    | u :: v :: z :: rest => simp at hlong

end Received

namespace Lenient

theorem text_ok {v : Value} {s : String} : text v = .ok s ↔ v = .str s := by
  cases v <;> simp [text]

end Lenient

namespace Snapshot

variable [Arithmetic] {a b : Agent} {s : Snapshot}

/-- An agent can be shown exactly if all its parts can be read. -/
theorem ofAgent_ok :
    ofAgent a = .ok s
      ↔ a.id = .str s.agentId
        ∧ (∃ u v, a.position = [u, v] ∧ Lenient.measure u = .ok s.position.1
          ∧ Lenient.measure v = .ok s.position.2)
        ∧ Lenient.measure a.heading = .ok s.heading
        ∧ Lenient.text? a.message = .ok s.message
        ∧ Lenient.truth a.goalReached = .ok s.goalReached := by
  rw [← Lenient.text_ok, ← Received.placed_ok (p := ["agent_id"]),
    ← Received.placed_ok (p := ["heading"]),
    ← Received.placed_ok (p := ["transient_message"]),
    ← Received.placed_ok (p := ["goal_reached"]),
    ← Received.pair_ok (m := [("agent_id", a.id),
      ("position", .list a.position), ("heading", a.heading),
      ("transient_message", a.message), ("goal_reached", a.goalReached)])
      (n := "position") rfl]
  unfold ofAgent Agent.toValue ofValue ofMembers
  rw [Received.settle_ok]
  rw [show Received.part Lenient.text _ "agent_id"
      = Received.placed ["agent_id"] Lenient.text a.id from rfl,
    show Received.part Lenient.measure _ "heading"
      = Received.placed ["heading"] Lenient.measure a.heading from rfl,
    show Received.partOr none Lenient.text? _ "transient_message"
      = Received.placed ["transient_message"] Lenient.text? a.message
      from rfl,
    show Received.partOr false Lenient.truth _ "goal_reached"
      = Received.placed ["goal_reached"] Lenient.truth a.goalReached
      from rfl,
    show Received.extras _ _ = [] from rfl]
  obtain ⟨agentId, position, heading, message, goalReached⟩ := s
  generalize Received.placed ["agent_id"] Lenient.text a.id = x
  generalize Received.pair _ "position" = y
  generalize Received.placed ["heading"] Lenient.measure a.heading = z
  generalize Received.placed ["transient_message"] Lenient.text?
    a.message = m
  generalize Received.placed ["goal_reached"] Lenient.truth
    a.goalReached = g
  rcases x with _ | x <;> rcases y with _ | y <;> rcases z with _ | z <;>
    rcases m with _ | m <;> rcases g with _ | g <;>
    simp [Received.misfits, bind, Except.bind, pure, Except.pure]

end Snapshot

end BlockStage
