import KnownAnswer.CommandLine.Run

/-!
# The command line

Reads the fixtures that the arguments name, runs the program on them, and prints what it leaves
behind.
-/

namespace KnownAnswer.CommandLine

/-- What the system says about a file that cannot be read. -/
def readFailure (error : IO.Error) : ReadFailure :=
  match error with
  | .noFileOrDirectory _ _ _ => .notFound
  | .inappropriateType _ 20 _ => .notDirectory
  | .inappropriateType _ _ _ => .isDirectory
  | error => .other (toString error)

/-- Reads a file as text. -/
def readText (path : String) : IO (Except ReadFailure String) := do
  try
    return decodeText (← IO.FS.readBinFile path)
  catch error =>
    return .error (readFailure error)

/-- Reads files before the run that looks them up. -/
def readAll (paths : List String) : IO FileReader := do
  let texts ← paths.mapM fun path => return (path, ← readText path)
  return fun path => (texts.lookup path).getD (.error .notFound)

/-- The files that arguments name. -/
def namedFiles (arguments : List String) : List String :=
  match Options.ofArguments arguments with
  | .ok options => options.paths
  | .error _ => []

end KnownAnswer.CommandLine

open KnownAnswer.CommandLine in
def main (arguments : List String) : IO UInt32 := do
  let read ← readAll (namedFiles arguments)
  let exit := program read arguments
  (← IO.getStdout).write ⟨exit.output.toArray⟩
  if let some complaint := exit.complaint then
    IO.eprintln ("conformance run aborted: " ++ complaint)
  return exit.code.toUInt32
