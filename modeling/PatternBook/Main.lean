import PatternBook.CommandLine.Outcome

/-!
# The program

Looks up the files that the arguments name, and writes what the command line says.
-/

namespace PatternBook.Program

open CommandLine

def problemOf : IO.Error → FileProblem
  | .inappropriateType .. => .notDirectory
  | _ => .missing

/-- What stands at a path on the machine's disk. -/
def lookUp (p : Path) : IO (Except FileProblem Node) := do
  let place := (← IO.currentDir) / String.ofList p.toText
  if ← place.isDir then return .ok .directory
  try
    return .ok (.file (← IO.FS.readBinFile place).toList)
  catch e => return .error (problemOf e)

/-- The disk as far as a request needs it. -/
def diskFor (r : Request) : IO Disk := do
  let paths := (r.files ++ r.config.toList).map Path.ofText
  let found ← paths.mapM fun p => return (p, ← lookUp p)
  return ⟨fun p => (found.lookup p).getD (.error .missing)⟩

def environment : IO (Text → Option Text) := do
  let values ← Settings.environmentNames.mapM fun (_, name) =>
    return (name, (← IO.getEnv (String.ofList name)).map String.toList)
  return fun name => (values.lookup name).join

def finish (ending : Ending) : IO UInt32 := do
  match ending with
  | .saved path text =>
    IO.FS.writeFile ((← IO.currentDir) / String.ofList path.toText) (String.ofList text)
  | .crashed cause => IO.eprintln cause.message
  | _ => pure ()
  IO.print ending.standardOutput
  return ending.exitCode.toUInt32

def execute (args : List String) : IO UInt32 := do
  let args := args.map String.toList
  let disk ← match readCommand? false args with
    | some r => diskFor r
    | none => pure ⟨fun _ => .error .missing⟩
  let outcome := run .standard disk (← environment) args
  IO.eprint outcome.standardError
  finish outcome.ending

end PatternBook.Program

def main (args : List String) : IO UInt32 := PatternBook.Program.execute args
