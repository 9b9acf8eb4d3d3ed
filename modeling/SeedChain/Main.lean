import SeedChain.Command.Line
import SeedChain.Command.Listing
import SeedChain.Command.Manual
import SeedChain.Command.Process
import Std.Time.Zoned
/-!
# The program

Reads what a command needs, and prints what comes of it. A file is looked up when an evaluation first
asks for it; the evaluation then begins again, knowing one more file.
-/

namespace SeedChain.Program

/-- The bytes of a file, if there is one. -/
def lookUp (name : Text) : IO FileState := do
  try
    return .holds (← IO.FS.readBinFile name.str).toList
  catch _ => return .absent

/-- Answers a request, looking files up as the answer asks for them. -/
partial def answerWithFiles (request : Request) (known : Entries FileState) :
    IO (Except CommandError Reply) := do
  let file (name : Text) := (Entries.get? name known).getD .unseen
  let env := { request.env with content := contentOfFiles file }
  match { request with env }.answer with
  | .error (.evaluation error) =>
    match error.unseenFile? with
    | some name => answerWithFiles request (Entries.set name (← lookUp name) known)
    | none => return .error (.evaluation error)
  | reply => return reply

/-- The local time. -/
def now : IO (Option Calendar.Moment) := do
  let time ← Std.Time.PlainDateTime.now
  let date : Calendar.Date :=
    ⟨time.date.year, time.date.month.val.toNat, time.date.day.val.toNat⟩
  let minutes := 60 * time.time.hour.val.toNat + time.time.minute.val.toNat
  return Calendar.Moment.ofParts? date.toDay (60 * minutes + time.time.second.val.toNat)
    time.time.nanosecond.val.toNat

/-- Prints a text, or what went wrong. -/
def print : Except CommandError Text → IO UInt32
  | .ok t => do
    IO.print t.str
    return 0
  | .error error => do
    IO.eprintln error.message
    return 1

/-- The text to be resolved: the argument, or the standard input. -/
def input (options : ProcessOptions) : IO Text := do
  match options.text with
  | some t => return t
  | none => return (← (← IO.getStdin).readToEnd).toList

/-- Resolves a text. -/
def process (options : ProcessOptions) : IO UInt32 := do
  let text ← input options
  let document ← options.variablesFile.mapM fun file => IO.FS.readFile file
  let request : Request := {
    text := some text
    env := { Environment.plain options.delimiter with clock := ← now }
    limit := options.limit
    assignments := options.assignments
    document := document.map String.toList
    checkOnly := options.checkOnly }
  let reply ←
    if options.resolveFiles then answerWithFiles request [] else pure request.answer
  print <| reply.map fun
    | .valid canonical => "Syntax is valid: ".toList ++ canonical ++ ['\n']
    | .noExpression => "No expression found\n".toList
    | .output t => t

/-- Runs a command. -/
def run : CommandLine → IO UInt32
  | .process options => do
    try
      process options
    catch error =>
      IO.eprintln s!"IO error: {error}"
      return 1
  | .functions type => print (listOperations type)
  | .docs => print (.ok Manual.overview)
  | .doc category => print (Manual.read category)
  | .onboard => print (.ok Manual.tour)

end SeedChain.Program

/-- Runs the command that the arguments ask for. -/
def main (args : List String) : IO UInt32 :=
  match SeedChain.CommandLine.read? args with
  | some line => SeedChain.Program.run line
  | none => do
    IO.eprintln SeedChain.CommandLine.usage
    return 2
