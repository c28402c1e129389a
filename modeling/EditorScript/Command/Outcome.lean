import EditorScript.Command.Arguments
import EditorScript.Configured
import EditorScript.File.Failure
import EditorScript.Persistence.Reading
import EditorScript.Persistence.Writing

/-!
# What a command leaves behind

A command is run on the texts of its files and answers with a status, with notes
for the user, and with the text that it writes.  Reading and writing files is
left to the caller.
-/

namespace EditorScript

/-- A text and the file that it is written to, or the standard output. -/
structure Writing where
  content : Text
  path : Option Text
deriving DecidableEq, Repr

/-- What a command leaves behind. -/
structure Outcome where
  status : Nat := 0
  notes : List Text := []
  writing : Option Writing := none
deriving DecidableEq, Repr

/-- The status for a command line that stops before anything is done. -/
def Refusal.status : Refusal → Nat
  | .misuse => 2
  | .help => 0

/-- How the program is used. -/
def usage : Text :=
  Text.unlines
    ["usage: [--log-level \x7bDEBUG,INFO,WARNING,ERROR\x7d] COMMAND",
      "  generate PROJECT [-o OUTPUT] [--check]   write the source of a saved project",
      "  parse FILE... [-o OUTPUT]                recover a project from source files", []]

namespace Outcome

/-- What is left behind when there is nothing to work on. -/
def failed (message : Text) : Outcome :=
  { status := 1, notes := [("error: " : Text) ++ message] }

end Outcome

namespace Command

/-- The files that a command reads, in this order. -/
def inputs : Command → List Text
  | generate project _ => [normalPath project]
  | parse files _ => files.map normalPath

/-- The file or directory that a command is told to write. -/
def output? : Command → Option Text
  | generate _ output | parse _ output =>
    output.bind fun path => if path.isEmpty then none else some (normalPath path)

/-- Writes the source of a saved project.  With a directory as its output the
file is named after the class. -/
def runGenerate (config : Config) (stamp : Stamp) (isDirectory : Bool) (output : Option Text)
    (content : Text) : Except Problem Outcome :=
  match Project.load stamp.id content with
  | .error e => .ok (.failed e.message)
  | .ok project => do
    let code ← config.source project
    let path := output.map fun path =>
      if isDirectory then pathInside path project.fileName else path
    pure { writing := some ⟨code, path⟩ }

/-- Reads a project from source files.  Several files count as one script. -/
def runParse (config : Config) (stamp : Stamp) (output : Option Text) (files : List SourceFile) :
    Except Problem Outcome := do
  let imported ← match files with
    | [file] => config.importFile stamp none file
    | files => config.importFolder stamp none files
  pure
    { notes := imported.warnings.map fun (warning : Text) => "warning: " ++ warning
      writing := some ⟨imported.project.dump 2 ++ ['\n'], output⟩ }

/-- Runs a command on the texts of its files.  `isDirectory` tells whether its
output is an existing directory. -/
def run (command : Command) (config : Config) (stamp : Stamp) (isDirectory : Bool)
    (contents : Except ReadError (List Text)) : Except Problem Outcome :=
  match command, contents with
  | generate _ _, .ok contents =>
    runGenerate config stamp isDirectory command.output? (contents.headD [])
  | parse _ _, .ok contents =>
    runParse config stamp command.output?
      (List.zipWith SourceFile.mk (command.inputs.map fileName) contents)
  | generate _ _, .error (.encoding e) => .error (.encoding e)
  | _, .error e => .ok (.failed e.message)

end Command

end EditorScript
