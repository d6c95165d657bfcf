import BlockStage.Stage.Misfit
import BlockStage.Stage.Snapshot

/-! # Snapshots and completions, read from records

    A record has parts of fixed names and no others; a part with a default
    may be left out.  All that is amiss with a record is told at once, in
    the order in which the parts are looked at. -/

namespace BlockStage

/-- Something read from a record, or all that is amiss with it. -/
abbrev Received (α : Type) := Except (List Misfit) α

namespace Received

/-- What is amiss, if anything. -/
def misfits {α : Type} : Received α → List Misfit
  | .ok _ => []
  | .error ms => ms

/-- A value read at a place. -/
def placed {α : Type} (place : List String) (read : Value → Except Flaw α)
    (v : Value) : Received α :=
  (read v).mapError fun flaw => [⟨place, flaw, v⟩]

/-- What a record gives if nothing is amiss with it. -/
def settle {α : Type} (amiss : List Misfit) (x : Received α) : Received α :=
  match amiss with
  | [] => x
  | _ => .error amiss

/-- A part that must be there. -/
def part {α : Type} (read : Value → Except Flaw α) (ms : Members)
    (name : String) : Received α :=
  match ms.get? name with
  | some v => placed [name] read v
  | none => .error [⟨[name], .missing, .object ms⟩]

/-- A part that may be left out. -/
def partOr {α : Type} (default : α) (read : Value → Except Flaw α)
    (ms : Members) (name : String) : Received α :=
  match ms.get? name with
  | some v => placed [name] read v
  | none => .ok default

/-- The parts whose names are not expected. -/
def extras (names : List String) (ms : Members) : List Misfit :=
  (ms.filter fun m => !names.contains m.1).map fun m =>
    ⟨[m.1], .notExpected, m.2⟩

/-- One of the two measures of a pair. -/
def coordinate [Arithmetic] (name : String) (items : List Value)
    (index : Nat) : Received Scalar :=
  match items[index]? with
  | some v => placed [name, toString index] Lenient.measure v
  | none => .error [⟨[name, toString index], .missing, .list items⟩]

/-- A pair of measures that must be there. -/
def pair [Arithmetic] (ms : Members) (name : String) :
    Received (Scalar × Scalar) :=
  match ms.get? name with
  | none => .error [⟨[name], .missing, .object ms⟩]
  | some (.list items) =>
      if 2 < items.length then .error [⟨[name], .tooLong, .list items⟩]
      else
        let x := coordinate name items 0
        let y := coordinate name items 1
        settle (x.misfits ++ y.misfits) do return (← x, ← y)
  | some v => .error [⟨[name], .notAPair, v⟩]

end Received

namespace Snapshot

/-- A snapshot as an object. -/
def toValue (s : Snapshot) : Value :=
  .object [("agent_id", .str s.agentId),
    ("position", .list [.real s.position.1, .real s.position.2]),
    ("heading", .real s.heading),
    ("transient_message", .ofText? s.message),
    ("goal_reached", .bool s.goalReached)]

/-- A snapshot read from the parts of a record. -/
def ofMembers [Arithmetic] (ms : Members) : Received Snapshot :=
  let agentId := Received.part Lenient.text ms "agent_id"
  let position := Received.pair ms "position"
  let heading := Received.part Lenient.measure ms "heading"
  let message := Received.partOr none Lenient.text? ms "transient_message"
  let goalReached := Received.partOr false Lenient.truth ms "goal_reached"
  let extras :=
    Received.extras ["agent_id", "position", "heading",
      "transient_message", "goal_reached"] ms
  Received.settle
    (agentId.misfits ++ position.misfits ++ heading.misfits
      ++ message.misfits ++ goalReached.misfits ++ extras)
    do return ⟨← agentId, ← position, ← heading, ← message, ← goalReached⟩

/-- A snapshot read from a value. -/
def ofValue [Arithmetic] : Value → Received Snapshot
  | .object ms => ofMembers ms
  | v => .error [⟨[], .notARecord, v⟩]

/-- The snapshot of an agent, read as leniently as any other record. -/
def ofAgent [Arithmetic] (a : Agent) : Received Snapshot :=
  ofValue a.toValue

end Snapshot

namespace CompletionEvent

/-- A completion as an object. -/
def toValue (e : CompletionEvent) : Value :=
  .object [("reached_count", .int e.reachedCount),
    ("total_agents", .int e.totalAgents),
    ("elapsed_seconds", .real e.elapsedSeconds)]

/-- A count that is not below zero. -/
def count (v : Value) : Except Flaw Nat := do
  match ← Lenient.count v with
  | .ofNat n => return n
  | .negSucc _ => throw .belowZero

/-- A measure that is not below zero. -/
def duration [Arithmetic] (v : Value) : Except Flaw Scalar := do
  let x ← Lenient.measure v
  if (Scalar.finite 0).le x then return x else throw .belowZero

/-- A completion read from the parts of a record. -/
def ofMembers [Arithmetic] (ms : Members) : Received CompletionEvent :=
  let reached := Received.part count ms "reached_count"
  let total := Received.part count ms "total_agents"
  let elapsed := Received.part duration ms "elapsed_seconds"
  let extras :=
    Received.extras ["reached_count", "total_agents", "elapsed_seconds"] ms
  Received.settle
    (reached.misfits ++ total.misfits ++ elapsed.misfits ++ extras)
    do return ⟨← reached, ← total, ← elapsed⟩

/-- A completion read from a value. -/
def ofValue [Arithmetic] : Value → Received CompletionEvent
  | .object ms => ofMembers ms
  | v => .error [⟨[], .notARecord, v⟩]

end CompletionEvent

end BlockStage
