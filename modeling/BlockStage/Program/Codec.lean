import BlockStage.Program.Instruction

/-! # Programs as plain objects

    An instruction is an object that names its operation and its operands.
    Reading checks the operation and the presence of the operands, not
    their values; other members are ignored.  Bodies that are nested too
    deep are neither read nor written. -/

namespace BlockStage

/-- Why an object cannot be read as an instruction. -/
inductive ProgramFault where
  /-- An operand is missing. -/
  | missing (name : String)
  /-- The operation is unknown. -/
  | unknownOperation (op : Value)
  /-- The unknown operation is a count too long to be written out. -/
  | illegibleOperation
  /-- It is no object. -/
  | notAnObject
  /-- Its body is no list. -/
  | badBody
  /-- Bodies are nested too deep. -/
  | tooDeep

namespace Instruction

mutual

/-- An instruction as an object. -/
def toValue : Instruction → Value
  | move distance =>
      .object [("op", .str "move"), ("distance", distance)]
  | turnRight degrees =>
      .object [("op", .str "turn_right"), ("degrees", degrees)]
  | turnLeft degrees =>
      .object [("op", .str "turn_left"), ("degrees", degrees)]
  | wait seconds => .object [("op", .str "wait"), ("seconds", seconds)]
  | say text => .object [("op", .str "say"), ("text", text)]
  | repeatTimes count body =>
      .object [("op", .str "repeat"), ("count", count),
        ("body", .list (toValues body))]
  | repeatBounded limit body =>
      .object [("op", .str "repeat_bounded"), ("max_iterations", limit),
        ("body", .list (toValues body))]
  | ifGoalReached body =>
      .object [("op", .str "if_goal_reached"),
        ("body", .list (toValues body))]
  | foreign v => v

/-- A program as a list of objects. -/
def toValues : List Instruction → List Value
  | [] => []
  | i :: is => i.toValue :: toValues is

end

/-- The operand of an object under a name. -/
def operand (ms : Members) (name : String) : Except ProgramFault Value :=
  match ms.get? name with
  | some v => .ok v
  | none => .error (.missing name)

/-- The complaint about an operation that is none. -/
def unknown (op : Value) : ProgramFault :=
  if op.legible then .unknownOperation op else .illegibleOperation

mutual

/-- An instruction read from an object. -/
def ofValue : Value → Except ProgramFault Instruction
  | .object ms =>
      match (Members.get? ms "op").getD .null with
      | .str "move" => (operand ms "distance").map move
      | .str "turn_right" => (operand ms "degrees").map turnRight
      | .str "turn_left" => (operand ms "degrees").map turnLeft
      | .str "wait" => (operand ms "seconds").map wait
      | .str "say" => (operand ms "text").map say
      | .str "repeat" => do
          let count ← operand ms "count"
          let body ← bodyOf ms
          return repeatTimes count body
      | .str "repeat_bounded" => do
          let body ← bodyOf ms
          let limit ← operand ms "max_iterations"
          return repeatBounded limit body
      | .str "if_goal_reached" => (bodyOf ms).map ifGoalReached
      | op => .error (unknown op)
  | _ => .error .notAnObject

/-- The body among the members of an object. -/
def bodyOf : List (String × Value) → Except ProgramFault (List Instruction)
  | [] => .error (.missing "body")
  | (name, v) :: ms => if name = "body" then readBody v else bodyOf ms

/-- A body: a list of instructions. -/
def readBody : Value → Except ProgramFault (List Instruction)
  | .list items => ofValues items
  | .str s => if s = "" then .ok [] else .error .notAnObject
  | .object ms =>
      match ms with
      | [] => .ok []
      | _ => .error .notAnObject
  | _ => .error .badBody

/-- A program read from a list of objects: the first defect is
    reported. -/
def ofValues : List Value → Except ProgramFault (List Instruction)
  | [] => .ok []
  | v :: vs => do
      let i ← ofValue v
      let is ← ofValues vs
      return i :: is

end

/-- How deep bodies may be nested. -/
def depthLimit : Nat := 330

/-- A program, unless it is nested too deep. -/
def shallow (p : Program) : Except ProgramFault Program :=
  if depthLimit < greatestDepth p then .error .tooDeep else .ok p

/-- A whole program read from a value. -/
def readProgram (v : Value) : Except ProgramFault Program := do
  shallow (← readBody v)

end Instruction

end BlockStage
