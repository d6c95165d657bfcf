import BlockStage.Session.Result
import BlockStage.Value.Pairs

/-! # Results read from records

    A host may write a result down itself and have it reported.  Its
    counts, flags and warnings are reported as they were written; those
    that reached the goal may be anything that has parts, those that
    failed an object or a list of pairs, and the time is rounded as in
    every other report. -/

namespace BlockStage

/-- Why a result cannot be read from a record or reported. -/
inductive ResultFault where
  /-- The record, or a warning in it, has not the members it should. -/
  | wrongMembers
  /-- The warnings are no object. -/
  | warningsNotAnObject
  /-- Those that reached the goal, or the warnings of an agent, are nothing
      that has parts. -/
  | noParts
  /-- Those that failed are no object. -/
  | failed (f : PairsFault)
  /-- The time is no number. -/
  | timeNotANumber
deriving DecidableEq

/-- A warning as a host wrote it down. -/
structure WarningRecord where
  /-- Its code. -/
  code : Value
  /-- Its wording. -/
  message : Value
  /-- The place it is about. -/
  path : Value

/-- A result as a host wrote it down. -/
structure ResultRecord where
  /-- How many agents reached the goal. -/
  reachedCount : Value
  /-- How many agents there are. -/
  totalAgents : Value
  /-- Whether all reached the goal. -/
  allReached : Value
  /-- The agents that reached the goal. -/
  reached : Value
  /-- The agents that failed. -/
  failed : Value
  /-- How long the session took. -/
  elapsedSeconds : Value
  /-- Whether the session was cancelled. -/
  cancelled : Value
  /-- The warnings of each agent. -/
  warnings : List (String × List WarningRecord)

/-- A member that must be there. -/
def requiredMember (ms : Members) (name : String) :
    Except ResultFault Value :=
  match ms.get? name with
  | some v => .ok v
  | none => .error .wrongMembers

/-- The members of an object of which no name is unknown. -/
def membersAmong (names : List String) : Value → Except ResultFault Members
  | .object ms =>
      if ms.all fun m => names.contains m.1 then .ok ms
      else .error .wrongMembers
  | _ => .error .wrongMembers

namespace WarningRecord

/-- A warning read from a value. -/
def ofValue (v : Value) : Except ResultFault WarningRecord := do
  let ms ← membersAmong ["code", "message", "path", "details"] v
  let code ← requiredMember ms "code"
  let message ← requiredMember ms "message"
  return ⟨code, message, (ms.get? "path").getD (.str "")⟩

/-- A warning as an object. -/
def toValue (w : WarningRecord) : Value :=
  .object [("code", w.code), ("message", w.message), ("path", w.path)]

end WarningRecord

namespace ResultRecord

/-- The warnings of each agent. -/
def readWarnings :
    Option Value → Except ResultFault (List (String × List WarningRecord))
  | none => .ok []
  | some (.object ms) =>
      ms.mapM fun m =>
        match m.2.parts? with
        | some ws => do return (m.1, ← ws.mapM WarningRecord.ofValue)
        | none => .error .noParts
  | some _ => .error .warningsNotAnObject

/-- A result read from a value. -/
def ofValue (v : Value) : Except ResultFault ResultRecord := do
  let warnings ← readWarnings (v.get? "warnings")
  let ms ← membersAmong ["reached_count", "total_agents", "all_reached",
    "reached", "failed", "elapsed_seconds", "cancelled", "warnings"] v
  let reachedCount ← requiredMember ms "reached_count"
  let totalAgents ← requiredMember ms "total_agents"
  let allReached ← requiredMember ms "all_reached"
  return ⟨reachedCount, totalAgents, allReached,
    (ms.get? "reached").getD (.list []), (ms.get? "failed").getD (.object []),
    (ms.get? "elapsed_seconds").getD (.real (.finite 0)),
    (ms.get? "cancelled").getD (.bool false), warnings⟩

/-- A result reported. -/
def toValue [Arithmetic] (r : ResultRecord) : Except ResultFault Value :=
  match r.reached.parts? with
  | none => .error .noParts
  | some reached => do
      let failed ← r.failed.members.mapError .failed
      match r.elapsedSeconds.number? with
      | none => throw .timeNotANumber
      | some elapsed =>
          return resultObject r.reachedCount r.totalAgents r.allReached
            reached failed (.num (elapsed.roundTo 3)) r.cancelled
            (r.warnings.map fun w =>
              (w.1, w.2.map WarningRecord.toValue))

end ResultRecord

end BlockStage
