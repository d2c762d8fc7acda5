import StatementPress.CommandLine

/-!
# The program

Reads the files that the command names, and carries out what it says.
-/

namespace StatementPress.CommandLine

/-- The system's number for a name that is too long; some of its calls answer it negated. -/
def tooLongCode : UInt32 := 36

/-- Why the system refuses to open a file. -/
def faultOf : IO.Error → FileFault
  | .noFileOrDirectory _ _ _ => .missing
  | .inappropriateType _ 21 _ => .isDirectory
  | .inappropriateType _ _ _ => .notDirectory
  | .userError _ => .notText
  | e@(.invalidArgument _ code _) =>
    if code == tooLongCode || code == -tooLongCode then .nameTooLong else .other (toString e)
  | e => .other (toString e)

/-- The text of a file. -/
def readFile (path : String) : IO (Except FileFault String) := do
  try
    return .ok (← IO.FS.readFile path)
  catch e => return .error (faultOf e)

/-- The directory that a path lies in, empty if it names none. -/
def directoryOf (path : String) : String :=
  String.ofList ((path.toList.reverse.dropWhile (· ≠ '/')).drop 1).reverse

/-- Writes a file, with the directories it lies in. -/
def writeFile (path content : String) : IO Unit := do
  let directory := directoryOf path
  if !directory.isEmpty then IO.FS.createDirAll directory
  IO.FS.writeFile path content

/-- Prints what an outcome prints. -/
def report (o : Outcome) : IO UInt32 := do
  for line in o.stderr do
    IO.eprintln line
  IO.print o.stdout
  return o.exitCode.toUInt32

/-- Carries out an outcome. -/
def carryOut (o : Outcome) : IO UInt32 := do
  match o.output with
  | none => report o
  | some (path, content) =>
    try
      writeFile path content
      report o
    catch _ => report unwritable

end StatementPress.CommandLine

open StatementPress.CommandLine in
/-- Runs the command. -/
def main (args : List String) : IO UInt32 := do
  let files ← (args.take 2).mapM fun path => do
    return (path, ← readFile path)
  let read (path : String) : Except FileFault String :=
    (files.lookup path).getD (.error .missing)
  carryOut (run "compile_statement" args read)
