import Firewall.CommandLine.Compiler
import Firewall.CommandLine.SetRate
import Firewall.Data.Json
import Std.Time.Format

/-!
The programs as they are started. The first word names the program, and the others are its own
command line. A configuration is JSON in a file of the working directory. Commands are not run
here: they stand on the standard output, one a line, for a shell to carry out, and each of them
counts as carried out. The listing of the pipes comes from the standard input.
-/

namespace Firewall.CommandLine

/-- Every command succeeds; the command that lists the pipes answers with `listing`. -/
def scripted (listing : String) : Runner Unit := fun command world =>
  (.ok { output := if command.drop 1 = ["pipe", "show"] then listing else "" }, world)

/-- The paths that a command line names: of a configuration to read and of a script to write. -/
def namedPaths (program : String) (words : List String) : String × String :=
  if program = SetRate.program then
    match SetRate.read words with
    | .request r => (r.config, "")
    | _ => ("", "")
  else
    match Compiler.read words with
    | .request r => (r.config, r.output)
    | _ => ("", "")

/-- The file that holds a configuration. A file that cannot be read is as good as none, a blank one
holds null, and any other without data is an error. -/
def loadDirectory (path : String) : IO (Except String (Directory Data)) := do
  if path.isEmpty then return .ok []
  try
    let written ← IO.FS.readFile path
    let data := if (Text.strip written).isEmpty then some .null else Data.Json.read? written
    match data with
    | some data => return .ok [(Path.normal path, data)]
    | none => return .error ("failed to load config from " ++ path ++ ": no data in it")
  catch _ => return .ok []

/-- The file that a script goes to, taken to be blank, if the directory that it lies in is there. -/
def outputPlace (path : String) : IO (Directory File) := do
  if path.isEmpty then return []
  try
    let _ ← IO.FS.realPath (Path.parent path)
    return [(Path.normal path, { text := "" })]
  catch _ => return []

def writeFile (name : String) (f : File) : IO Unit := do
  IO.FS.writeFile name f.text
  let common : IO.AccessRight := { read := true, execution := f.executable }
  IO.setAccessRights name { user := { common with write := true }, group := common, other := common }

def timeOfDay (t : Std.Time.PlainTime) : TimeOfDay := ⟨(t.toNanoseconds.val / 1000).toNat⟩

def start (program : String) (words : List String) : IO UInt32 := do
  let (config, output) := namedPaths program words
  match ← loadDirectory config with
  | .error message =>
    IO.eprintln ("Error: " ++ message)
    return 1
  | .ok configs =>
    let isSetRate := program = SetRate.program
    let listing ← if isSetRate then (← IO.getStdin).readToEnd else pure ""
    let now ← Std.Time.PlainDateTime.now
    let user := (← IO.getEnv "USER").getD "unknown"
    let files ← outputPlace output
    let call : Invocation Unit := {
      words, configs, files
      profile := ← IO.getEnv RateAdjuster.profileVariable
      now := timeOfDay now.time
      stamp := { time := toString now, user }
      runner := scripted listing
      world := () }
    let outcome := if isSetRate then SetRate.run call else Compiler.run call
    let terminal := outcome.bench.terminal
    (Notice.errorLines outcome.verbose terminal.notices).forM (fun line => IO.eprintln line)
    (Notice.printedLines terminal.notices).forM (fun line => IO.println line)
    (Script.joinAll terminal.commands).forM (fun line => IO.println line)
    try
      (outcome.bench.files.filter fun f => !files.contains f).forM fun (name, f) => writeFile name f
    catch e =>
      IO.eprintln ("Error: " ++ toString e)
      return 1
    match outcome.ending with
    | .exit status => return status.toUInt32
    | .escaped fault =>
      IO.eprintln ("Error: " ++ fault.message)
      return 1

end Firewall.CommandLine

def main : List String → IO UInt32
  | program :: words => Firewall.CommandLine.start program words
  | [] => do
    IO.eprintln "Error: name a program, tfw-ipfw or tfw-setrate"
    return 1
