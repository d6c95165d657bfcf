/-! # Kinds of blocks

    Nine kinds have a meaning of their own; five of them may hold a body.
    `Kind.ofName?_name` and `Kind.name_of_ofName?` make names and kinds
    one and the same. -/

namespace BlockStage

/-- What a block does. -/
inductive Kind where
  | move
  | turn
  | wait
  | say
  | repeatTimes
  | repeatForever
  | ifCondition
  | ifGoalReached
  | start
deriving DecidableEq

namespace Kind

/-- The written name of a kind. -/
def name : Kind → String
  | move => "move"
  | turn => "turn"
  | wait => "wait"
  | say => "say"
  | repeatTimes => "repeat-n"
  | repeatForever => "repeat-forever"
  | ifCondition => "if-condition"
  | ifGoalReached => "if-goal-reached"
  | start => "start-event"

/-- The kind of a name. -/
def ofName? : String → Option Kind
  | "move" => some move
  | "turn" => some turn
  | "wait" => some wait
  | "say" => some say
  | "repeat-n" => some repeatTimes
  | "repeat-forever" => some repeatForever
  | "if-condition" => some ifCondition
  | "if-goal-reached" => some ifGoalReached
  | "start-event" => some start
  | _ => none

/-- The kinds that may hold a body; a start block holds the sequence that
    follows it. -/
def isCompound : Kind → Bool
  | repeatTimes => true
  | repeatForever => true
  | ifCondition => true
  | ifGoalReached => true
  | start => true
  | _ => false

/-- Every name is read back. -/
theorem ofName?_name (k : Kind) : ofName? k.name = some k := by
  cases k <;> rfl

/-- Only its name is read as a kind. -/
theorem name_of_ofName? {s : String} {k : Kind} (h : ofName? s = some k) :
    k.name = s := by
  unfold ofName? at h
  split at h <;> cases h <;> rfl

end Kind

end BlockStage
