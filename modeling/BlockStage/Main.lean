import BlockStage.CommandLine.Reply

/-! # The command line

    Collects the variables and the program file, lets the reply be worked
    out, and writes it.  The lines of the log go to the error output. -/

namespace BlockStage

namespace CommandLine

/-- The variables that are set. -/
def environment : IO Environment := do
  let found ← Settings.variableNames.mapM fun name =>
    return (← IO.getEnv name).map fun value => (name, value)
  return found.filterMap id

/-- The number of a reason; some reasons come with the opposite number. -/
def reasonNumber (code : UInt32) : Nat :=
  if code.toNat < Nat.pow 2 31 then code.toNat
  else Nat.pow 2 32 - code.toNat

/-- Why a file could not be read. -/
def faultOf : IO.Error → FileFault
  | .noFileOrDirectory _ _ _ => .notFound
  | .inappropriateType _ code _ =>
      if reasonNumber code = 20 then .notAFolder else .isAFolder
  | .invalidArgument _ code reason =>
      if reasonNumber code = 36 then .nameTooLong
      else .refused (reasonNumber code) reason
  | .permissionDenied _ code reason => .refused (reasonNumber code) reason
  | e => .refused 5 (toString e)

/-- The text of a file. -/
def load (name : FileName) : IO (Except FileFault String) := do
  match ← (IO.FS.readFile name.text).toBaseIO with
  | .ok text => return .ok text
  | .error e => return .error (faultOf e)

/-- The file that a command line names; nothing if it names none. -/
def named (words : List String) : IO (Except FileFault String) := do
  match Arguments.read words with
  | .ok a =>
      match a.path with
      | some path => load (.ofText path)
      | none => return .error .notFound
  | .error _ => return .error .notFound

/-- The number of steps after which a session is given up. -/
def patience : Nat := Nat.pow 2 60

/-- The lines of a log that matter enough. -/
def diagnostics (env : Environment) (words : List String)
    (log : List LogLine) : List String :=
  let least :=
    match Settings.ofEnvironment env, Arguments.read words with
    | .ok s, .ok a =>
        if a.verbose then 10
        else (Reply.thresholds.lookup s.logLevel).getD 30
    | _, _ => 30
  (log.filter fun l => least ≤ l.level.severity).filterMap (·.full?)

end CommandLine

end BlockStage

open BlockStage in
/-- The program. -/
def main (words : List String) : IO UInt32 := do
  let _ : Arithmetic := Arithmetic.binary64
  let env ← CommandLine.environment
  let content ← CommandLine.named words
  let reply := Reply.ofWords env words (fun _ => content) CommandLine.patience
  for line in CommandLine.diagnostics env words reply.log do
    IO.eprintln line
  IO.print reply.output
  if let some complaint := reply.ending.complaint? then
    IO.eprintln complaint
  return reply.ending.code.toUInt32
