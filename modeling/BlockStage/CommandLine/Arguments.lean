/-! # The words of a command line

    Options may stand anywhere.  The first word that names a command
    chooses it, the next other word is the file, and a further word is one
    too many.  The first word that does not fit ends the reading. -/

namespace BlockStage

/-- What can be done with a program file. -/
inductive Command where
  /-- Its programs are run. -/
  | run
  /-- Its programs are compiled and shown. -/
  | compile
deriving DecidableEq

namespace Command

/-- The word for a command. -/
def name : Command → String
  | run => "run"
  | compile => "compile"

/-- The command of a word. -/
def named? : String → Option Command
  | "run" => some run
  | "compile" => some compile
  | _ => none

end Command

/-- What a command line asks for. -/
structure Arguments where
  /-- The command. -/
  command : Option Command
  /-- The program file. -/
  path : Option String
  /-- The name of the layout. -/
  preset : String
  /-- Whether delays are left out. -/
  instant : Bool
  /-- Whether every snapshot is shown. -/
  trace : Bool
  /-- Whether the whole log is shown. -/
  verbose : Bool
  /-- Whether help is asked for. -/
  showHelp : Bool
  /-- Whether the version is asked for. -/
  showVersion : Bool
deriving DecidableEq

/-- Why a command line cannot be read. -/
inductive UsageFault where
  /-- Nothing follows the option for the layout. -/
  | presetNeedsName
  /-- An option is not known. -/
  | unknownOption (word : String)
  /-- A word is no command and stands where no file can. -/
  | unknownCommand (word : String)
deriving DecidableEq

namespace UsageFault

/-- The line that points to the help. -/
def hint : String := "Run 'robolab --help' for usage.\n"

/-- The wording of a fault. -/
def message : UsageFault → String
  | presetNeedsName => "Error: --preset requires a name\n"
  | unknownOption word => "Unknown option: " ++ word ++ "\n" ++ hint
  | unknownCommand word => "Unknown command: " ++ word ++ "\n" ++ hint

end UsageFault

namespace Arguments

/-- Nothing asked for. -/
def none : Arguments :=
  ⟨.none, .none, "robot-manual", false, false, false, false, false⟩

/-- A word other than the option for the layout. -/
def take (a : Arguments) (word : String) : Except UsageFault Arguments :=
  match Command.named? word, a.command with
  | some c, .none => .ok { a with command := some c }
  | _, _ =>
      match word with
      | "--instant" => .ok { a with instant := true }
      | "--trace" => .ok { a with trace := true }
      | "--verbose" => .ok { a with verbose := true }
      | "--help" => .ok { a with showHelp := true }
      | "-h" => .ok { a with showHelp := true }
      | "--version" => .ok { a with showVersion := true }
      | "-v" => .ok { a with showVersion := true }
      | _ =>
          if word.startsWith "-" then .error (.unknownOption word)
          else if a.command.isSome ∧ a.path.isNone then
            .ok { a with path := some word }
          else .error (.unknownCommand word)

/-- Further words. -/
def takeAll (a : Arguments) : List String → Except UsageFault Arguments
  | [] => .ok a
  | "--preset" :: name :: rest => takeAll { a with preset := name } rest
  | ["--preset"] => .error .presetNeedsName
  | word :: rest => do takeAll (← a.take word) rest

/-- All words of a command line. -/
def read (words : List String) : Except UsageFault Arguments :=
  none.takeAll words

end Arguments

end BlockStage
