import StatementPress.Compile.Document

/-!
# The command line

The command takes the files of a template and of a payload, and prints the document or writes it to
a third file.  What it does is a function of its arguments and of the files it reads; running it
carries out the outcome.
-/

namespace StatementPress.CommandLine

/-- Why the system refuses to open a file. -/
inductive FileFault where
  | missing
  /-- A part of its path is a file. -/
  | notDirectory
  | isDirectory
  /-- Its path, or a name in it, is longer than the system takes. -/
  | nameTooLong
  | notText
  /-- Any other reason, in the system's words. -/
  | other (text : String)
  deriving DecidableEq

/-- The wording of a file fault. -/
def FileFault.message : FileFault → String
  | .missing => "No such file or directory (os error 2)"
  | .notDirectory => "Not a directory (os error 20)"
  | .isDirectory => "Is a directory (os error 21)"
  | .nameTooLong => "File name too long (os error 36)"
  | .notText => "stream did not contain valid UTF-8"
  | .other text => text

/-- What the command leaves behind. -/
structure Outcome where
  exitCode : Nat
  stdout : String := ""
  stderr : List String := []
  /-- The file to write before printing, with its content. -/
  output : Option (String × String) := none
  deriving DecidableEq

/-- How the command is used. -/
def usage (program : String) : List String :=
  ["Usage: " ++ program ++ " <template.json> <payload.xml> [output.fo]", "", "Example:",
    "  cargo run --example compile_statement -- demos/statement.json demos/statement.xml"]

/-- A failure, after lines that explain it. -/
def failure (explanation : List String) (error : String) : Outcome :=
  { exitCode := 1, stderr := explanation ++ ["Error: " ++ error] }

/-- The failure to read a file. -/
def unreadable (what path : String) (fault : FileFault) : Outcome :=
  failure [] (Text.quoted ("Failed to read " ++ what ++ " '" ++ path ++ "': " ++ fault.message))

/-- The failure to write the document.  Only the kind of the error is printed: its full form for
debugging, with the system's code and words, is left out. -/
def unwritable : Outcome := failure [] "Os"

/-- The name of a template error.  It stands for the full form of the error for debugging, which
would go on with the findings, the fault of the payload or the place in the text. -/
def errorName : TemplateError → String
  | .invalid _ => "Validation"
  | .payload _ => "Xml"
  | .json _ => "Json"

/-- Compiles the texts of a template and of a payload. -/
def compileTexts (templateText payloadText : String) (outputPath : Option String) : Outcome :=
  match (Template.ofText templateText).outcome with
  | .error e => failure (e.findings.map fun f => "  " ++ f.text) (errorName e)
  | .ok t =>
    match (({} : CompilerConfig).compile t payloadText).outcome with
    | .error e => failure [] (errorName e)
    | .ok document =>
      match outputPath with
      | none => { exitCode := 0, stdout := document }
      | some path =>
        { exitCode := 0, stdout := "Generated: " ++ path ++ "\n", output := some (path, document) }

/-- What the command does with its arguments.  `read` gives the text of a file. -/
def run (program : String) (args : List String) (read : String → Except FileFault String) :
    Outcome :=
  match args with
  | templatePath :: payloadPath :: others =>
    match read templatePath with
    | .error fault => unreadable "template" templatePath fault
    | .ok templateText =>
      match read payloadPath with
      | .error fault => unreadable "payload" payloadPath fault
      | .ok payloadText => compileTexts templateText payloadText others.head?
  | _ => { exitCode := 1, stderr := usage program }

end StatementPress.CommandLine
