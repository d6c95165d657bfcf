import BlockStage.CommandLine.Arguments
import BlockStage.CommandLine.Environment
import BlockStage.CommandLine.Help
import BlockStage.CommandLine.ProgramFile
import BlockStage.Json.Writer
import BlockStage.Program.Codec
import BlockStage.Session.Host
import BlockStage.Stage.Preset

/-! # What the command line replies

    A command line, an environment and the files decide everything that is
    written and the exit code.  Faults that are about what was asked for
    end a command with a line about them and exit code 1; the others break
    it off after what was already written. -/

namespace BlockStage

/-- Why a command cannot be carried out. -/
inductive CommandFault where
  /-- No layout has the name. -/
  | unknownPreset (name : String)
  /-- The file cannot be used. -/
  | file (f : ProgramFileFault)
  /-- A forest cannot be compiled. -/
  | compiling (f : BlockFault)
  /-- A program is nested too deep to be written. -/
  | programTooDeep
  /-- What is to be written holds surrogates on their own. -/
  | unwritable (place : Text.Unwritable)
  /-- The agents cannot be placed. -/
  | placing (f : OperandFault)
  /-- The result cannot be made. -/
  | running (f : RunFault)

/-- The wording of a fault. -/
def BlockFault.message : BlockFault → String
  | .illegible => RunFault.illegible.message
  | .operand f => f.message

/-- Faults that are about what was asked for. -/
def BlockFault.isAnnounced : BlockFault → Bool
  | .illegible => true
  | .operand f => f.isAboutValues

/-- Faults that are about what was asked for. -/
def RunFault.isAnnounced : RunFault → Bool
  | .operand f => f.isAboutValues
  | .countNotInteger _ => false
  | .notAnInstruction _ => false
  | .observerFailed => false
  | _ => true

/-- What is said of a text that cannot be written out. -/
def Text.Unwritable.message (u : Text.Unwritable) : String :=
  let what :=
    match u.units with
    | [unit] =>
        "character '\\u" ++ .ofList (Text.hex 4 unit) ++ "' in position "
          ++ toString u.offset
    | units =>
        "characters in position " ++ toString u.offset ++ "-"
          ++ toString (u.offset + units.length - 1)
  "'utf-8' codec can't encode " ++ what ++ ": surrogates not allowed"

namespace CommandFault

/-- The wording of a fault. -/
def message : CommandFault → String
  | unknownPreset name => Preset.unknownMessage (.str name)
  | file f => f.message
  | compiling f => f.message
  | programTooDeep => "a program is nested too deep"
  | unwritable place => place.message
  | placing f => f.message
  | running f => f.message

/-- Faults that are about what was asked for. -/
def isAnnounced : CommandFault → Bool
  | unknownPreset _ => true
  | file f => !f.isTooDeep
  | compiling f => f.isAnnounced
  | programTooDeep => false
  | unwritable _ => true
  | placing f => f.isAboutValues
  | running f => f.isAnnounced

end CommandFault

/-- How the program ends. -/
inductive Ending where
  /-- With an exit code. -/
  | exit (code : Nat)
  /-- The settings cannot be used. -/
  | unsettled (f : SettingFault)
  /-- The level of the log is not known. -/
  | unknownLevel (name : String)
  /-- A command is broken off. -/
  | broken (f : CommandFault)

/-- What the program writes and how it ends. -/
structure Reply where
  /-- What it writes. -/
  output : String
  /-- The lines of its log. -/
  log : List LogLine
  /-- How it ends. -/
  ending : Ending

namespace Ending

/-- The exit code; a program that is broken off has code 1. -/
def code : Ending → Nat
  | exit code => code
  | _ => 1

/-- What is written about a program that is broken off. -/
def complaint? : Ending → Option String
  | exit _ => none
  | unsettled f => some f.message
  | unknownLevel name => some ("Unknown level: " ++ Text.quoted name)
  | broken f => some f.message

end Ending

namespace Reply

/-- A reply without a log. -/
def plain (output : String) (code : Nat) : Reply :=
  ⟨output, [], .exit code⟩

/-- The end of a command by a fault. -/
def fault (output : String) (log : List LogLine) (f : CommandFault) :
    Reply :=
  if f.isAnnounced then
    ⟨output ++ "Error: " ++ f.message ++ "\n", log, .exit 1⟩
  else ⟨output, log, .broken f⟩

/-- The levels a log may be limited to, and how much a line must matter. -/
def thresholds : List (String × Nat) :=
  [("CRITICAL", 50), ("FATAL", 50), ("ERROR", 40), ("WARNING", 30),
    ("WARN", 30), ("INFO", 20), ("DEBUG", 10), ("NOTSET", 0)]

/-! ## Commands -/

/-- The settings of a stage: without delays only the bounds, the step and
    the loop ceiling are taken over. -/
def stageConfig (settings : Config) (p : Preset) (instant : Bool) : Config :=
  p.config
    (if instant then
      { Config.instant with
        loopCeiling := settings.loopCeiling
        gridColumns := settings.gridColumns
        gridRows := settings.gridRows
        canvasWidth := settings.canvasWidth
        canvasHeight := settings.canvasHeight
        canvasMargin := settings.canvasMargin
        unitStepPixels := settings.unitStepPixels }
    else settings)

/-- The layout of a name. -/
def preset (name : String) : Except CommandFault Preset :=
  match Preset.named? name with
  | some p => .ok p
  | none => .error (.unknownPreset name)

/-- A value on lines of its own, if it can be written out. -/
def document (v : Value) : Except CommandFault String :=
  let text := Json.document v
  match Text.unwritable? text with
  | none => .ok (text ++ "\n")
  | some place => .error (.unwritable place)

/-- What the command to compile writes about one agent. -/
def compiledValue (c : Compiled) : Value :=
  .object [("program", .list (Instruction.toValues c.program)),
    ("warnings", .list (c.warnings.map Warning.summary))]

/-- A compiled forest whose program is not nested too deep to be
    written. -/
def writable (c : Compiled) : Except CommandFault Compiled := do
  let _ ← (Instruction.shallow c.program).mapError fun _ => .programTooDeep
  return c

/-- What the command to compile has to show of the agents. -/
def compileMembers (settings : Config) (a : Arguments)
    (folder : FileName → Except FileFault String) (name : FileName) :
    Except CommandFault Members := do
  let p ← preset a.preset
  let c := stageConfig settings p true
  let data ← (ProgramFile.read folder name).mapError .file
  let forests ←
    (ProgramFile.forests data (p.agents.map (·.agentId))).mapError .file
  forests.mapM fun f => do
    let own ← (compileSource c.target f.2).mapError .compiling
    return (f.1, compiledValue (← writable own))

/-- What the command to compile writes. -/
def compileOutput (settings : Config) (a : Arguments)
    (folder : FileName → Except FileFault String) (name : FileName) :
    Except CommandFault String := do
  document (.object (← compileMembers settings a folder name))

/-- A session that is about to start. -/
structure Performance where
  /-- Who runs it. -/
  coordinator : Coordinator
  /-- The agents, in their order and by name. -/
  agents : List (String × Agent)
  /-- The forest of each agent. -/
  forests : Members

variable [Arithmetic]

namespace Performance

/-- The session that a command line asks for. -/
def prepare (settings : Config) (a : Arguments)
    (folder : FileName → Except FileFault String) (name : FileName) :
    Except CommandFault Performance := do
  let p ← preset a.preset
  let c := stageConfig settings p a.instant
  let agents ← (p.initialAgents c).mapError .placing
  let data ← (ProgramFile.read folder name).mapError .file
  let forests ←
    (ProgramFile.forests data (agents.map (·.1))).mapError .file
  let goal ← (ProgramFile.goal data p.goal).mapError .file
  return ⟨⟨c, goal, ⟨.present, fun _ => ⟨⟨[], false⟩, false⟩⟩,
    .present ⟨[], false⟩⟩, agents, forests⟩

/-- The world when everything has happened, within a number of steps. -/
def play (p : Performance) (fuel : Nat) : World :=
  let script : Script :=
    .forests (p.forests.map fun f => (f.1, .source f.2))
  ((World.initial p.agents).call script (p.agents.map (·.1))).settle
    p.coordinator (.inf false) fuel

/-- The lines written while the session runs.  What a snapshot says is
    taken to be such that it can be written out. -/
def lines (trace : Bool) (w : World) : String :=
  let shown :=
    if trace then w.events.map fun e => e.snapshot.line ++ "\n" else []
  let completed := w.completions.map fun e =>
    "All " ++ toString e.event.totalAgents
      ++ " agents reached the finish in " ++ e.event.elapsedSeconds.fixed 1
      ++ "s\n"
  String.join (shown ++ completed)

/-- What is written about a result. -/
def resultValue (p : Performance) (w : World) (r : SessionResult) : Value :=
  let result :=
    match r.toValue with
    | .object ms => ms
    | _ => []
  .object (result
    ++ [("goal", (p.coordinator.goal.map GoalRegion.toValue).getD .null),
      ("agents", .object (w.agents.map fun a => (a.1, a.2.toValue)))])

/-- What the command to run replies. -/
def reply (p : Performance) (trace : Bool) (fuel : Nat) : Reply :=
  let w := p.play fuel
  let output := lines trace w
  match w.calls.head?.bind (·.ending) with
  | some (.returned r) =>
      match document (p.resultValue w r) with
      | .ok text =>
          ⟨output ++ text, w.log, .exit (if r.failed = [] then 0 else 1)⟩
      | .error f => fault output w.log f
  | some (.uncompiled f) => fault output w.log (.compiling f)
  | some (.failed f) => fault output w.log (.running f)
  | _ => ⟨output, w.log, .exit 1⟩

end Performance

/-- What a command replies. -/
def ofCommand (settings : Config) (a : Arguments)
    (folder : FileName → Except FileFault String) (fuel : Nat)
    (c : Command) (path : String) : Reply :=
  let name := FileName.ofText path
  match c with
  | .compile =>
      match compileOutput settings a folder name with
      | .ok output => plain output 0
      | .error f => fault "" [] f
  | .run =>
      match Performance.prepare settings a folder name with
      | .ok p => p.reply a.trace fuel
      | .error f => fault "" [] f

/-- What a command line that can be read is answered with. -/
def ofArguments (s : Settings) (a : Arguments)
    (folder : FileName → Except FileFault String) (fuel : Nat) : Reply :=
  if a.showHelp then plain Help.text 0
  else if a.showVersion then plain ("robolab " ++ Help.version ++ "\n") 0
  else
    match a.command, a.path with
    | some c, some path =>
        match a.verbose, thresholds.lookup s.logLevel with
        | false, none => ⟨"", [], .unknownLevel s.logLevel⟩
        | _, _ => ofCommand s.config a folder fuel c path
    | _, _ => plain Help.text 1

/-- What the program replies to a command line.  The settings come first,
    and a session is given up after `fuel` steps. -/
def ofWords (env : Environment) (words : List String)
    (folder : FileName → Except FileFault String) (fuel : Nat) : Reply :=
  match Settings.ofEnvironment env with
  | .error f => ⟨"", [], .unsettled f⟩
  | .ok s =>
      match Arguments.read words with
      | .error f => plain f.message 1
      | .ok a => ofArguments s a folder fuel

end Reply

end BlockStage
