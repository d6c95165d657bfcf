import BlockStage.CommandLine.Folder
import BlockStage.Json.Reader
import BlockStage.Stage.Agent

/-! # Program files

    A program file holds one forest for every agent, or a forest for each
    of some agents under `agents`; an agent that is not named has nothing
    to do.  Beside `agents` or `blocks` it may hold a goal of its own. -/

namespace BlockStage

/-- Why a program file cannot be used. -/
inductive ProgramFileFault where
  /-- It cannot be read. -/
  | unreadable (name : FileName) (f : FileFault)
  /-- It is no JSON text. -/
  | malformed (m : Json.Malformed) (text : String)
  /-- What stands under `agents` is no object. -/
  | agentsNotAnObject
  /-- Forests are given for agents that the layout does not have. -/
  | unknownAgents (unknown known : List String)
  /-- The goal is no object. -/
  | goalNotAnObject
  /-- The goal lacks a bound. -/
  | goalIncomplete (name : String)

namespace ProgramFileFault

/-- Names as a message lists them. -/
def listed (names : List String) : String :=
  (Value.list (names.map .str)).text

/-- The wording of a fault. -/
def message : ProgramFileFault → String
  | unreadable name f => f.message name
  | malformed m text => m.message text
  | agentsNotAnObject => "'agents' must map agent ids to block lists"
  | unknownAgents unknown known =>
      "Unknown agents " ++ listed unknown ++ "; this preset has "
        ++ listed known
  | goalNotAnObject => "'goal' must be an object"
  | goalIncomplete name => "'goal' is missing " ++ Text.quoted name

/-- Whether a file is nested too deep to be read at all. -/
def isTooDeep : ProgramFileFault → Bool
  | malformed m _ => m.problem = .tooDeep
  | _ => false

end ProgramFileFault

namespace ProgramFile

/-- Characters with every kind of line break as a line feed. -/
def unifyBreaks : List Char → List Char
  | [] => []
  | '\r' :: '\n' :: cs => '\n' :: unifyBreaks cs
  | '\r' :: cs => '\n' :: unifyBreaks cs
  | c :: cs => c :: unifyBreaks cs

/-- The value that a program file holds. -/
def read (folder : FileName → Except FileFault String) (name : FileName) :
    Except ProgramFileFault Value := do
  let raw ← (folder name).mapError (.unreadable name)
  let text := String.ofList (unifyBreaks raw.toList)
  (Json.read text).mapError (.malformed · text)

/-- Whether one name stands before another or is the same. -/
def nameLe (a b : String) : Bool :=
  ¬ b.toList.map Text.codePoint < a.toList.map Text.codePoint

/-- The forest of each agent of a layout. -/
def forests (data : Value) (known : List String) :
    Except ProgramFileFault Members :=
  match data.get? "agents" with
  | none => .ok (known.map fun id => (id, data))
  | some (.object ms) =>
      let unknown := (ms.map (·.1)).filter fun id => !known.contains id
      match unknown with
      | [] =>
          .ok (known.map fun id =>
            (id, (Members.get? ms id).getD (.list [])))
      | _ => .error (.unknownAgents (unknown.mergeSort nameLe) known)
  | some _ => .error .agentsNotAnObject

/-- The goal of a file, or the one of the layout. -/
def goal (data : Value) (default : Option GoalRegion) :
    Except ProgramFileFault (Option GoalRegion) :=
  match data.get? "goal" with
  | none => .ok default
  | some (.object ms) =>
      ((GoalRegion.ofMembers ms).map some).mapError .goalIncomplete
  | some _ => .error .goalNotAnObject

end ProgramFile

end BlockStage
