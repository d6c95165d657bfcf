import BlockStage.Value

/-! # Instructions — what a program is made of

    Eight instructions, three of which hold a body.  Their operands are
    values as they were read: whether an operand makes sense is found out
    when the instruction runs.  `foreign` is a value that stands in a
    program without being an instruction; running it is an error. -/

namespace BlockStage

/-- One instruction of a program. -/
inductive Instruction where
  | move (distance : Value)
  | turnRight (degrees : Value)
  | turnLeft (degrees : Value)
  | wait (seconds : Value)
  | say (text : Value)
  | repeatTimes (count : Value) (body : List Instruction)
  | repeatBounded (limit : Value) (body : List Instruction)
  | ifGoalReached (body : List Instruction)
  | foreign (v : Value)
deriving Inhabited

/-- A program: instructions in the order in which they run. -/
abbrev Program := List Instruction

namespace Instruction

mutual

/-- Whether an instruction and all that it holds are instructions. -/
def isGenuine : Instruction → Bool
  | repeatTimes _ body => allGenuine body
  | repeatBounded _ body => allGenuine body
  | ifGoalReached body => allGenuine body
  | foreign _ => false
  | _ => true

/-- Whether a program holds nothing but instructions. -/
def allGenuine : List Instruction → Bool
  | [] => true
  | i :: is => i.isGenuine && allGenuine is

end

mutual

/-- The number of instructions, those in bodies included. -/
def size : Instruction → Nat
  | repeatTimes _ body => 1 + totalSize body
  | repeatBounded _ body => 1 + totalSize body
  | ifGoalReached body => 1 + totalSize body
  | _ => 1

/-- The number of instructions of a program, those in bodies included. -/
def totalSize : List Instruction → Nat
  | [] => 0
  | i :: is => i.size + totalSize is

end

mutual

/-- How deep bodies are nested, an instruction without one being at depth
    one. -/
def depth : Instruction → Nat
  | repeatTimes _ body => 1 + greatestDepth body
  | repeatBounded _ body => 1 + greatestDepth body
  | ifGoalReached body => 1 + greatestDepth body
  | _ => 1

/-- How deep the bodies of a program are nested. -/
def greatestDepth : List Instruction → Nat
  | [] => 0
  | i :: is => max i.depth (greatestDepth is)

end

end Instruction

end BlockStage
