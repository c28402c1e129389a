import EditorScript.Imported.File

/-!
# Scripts spread over several files

Of several files the one that looks most like a script of its own becomes the
project.  The others are carried along behind it as they are.
-/

namespace EditorScript

/-- Whether a file holds source code by its name, in any letter case. -/
def SourceFile.isSource (file : SourceFile) : Bool :=
  Text.endsWith (file.name.map Char.toLower) ".cs"

/-- The main one of some files, the first of those with the highest score, and
the other ones in their order. -/
def mainFile? (files : List SourceFile) : Option (SourceFile × List SourceFile) :=
  let scores := files.map fun file => score file.content
  let place := scores.findIdx (· == scores.max?.getD 0)
  files[place]?.map fun main => (main, files.eraseIdx place)

namespace Imported

/-- The project with another file carried along. -/
def addFile (imported : Imported) (file : SourceFile) : Imported :=
  let project := imported.project
  let new := (importsOf file.content).filter (!project.usings.contains ·)
  ⟨{ project with
    usings := project.usings ++ new
    outerCode := project.outerCode ++ ["// ===== " ++ file.name ++ " =====", file.content] },
    imported.warnings ++ [("Secondary file: " : Text) ++ file.name]⟩

/-- The project of the main file with the others carried along. -/
def addFiles (imported : Imported) (main : SourceFile) (others : List SourceFile) : Imported :=
  others.foldl addFile
    { imported with
      warnings := imported.warnings ++ [("Primary file: " : Text) ++ main.name] }

/-- What is read from no file at all. -/
def ofNothing (stamp : Stamp) : Imported :=
  ⟨Project.create stamp (some "Empty"), ["No C# files found"]⟩

end Imported

/-- The project in several files; files that are no source do not count. -/
def importFolder (stamp : Stamp) (gate : Gate) (files : List SourceFile) : Imported :=
  match mainFile? (files.filter (·.isSource)) with
  | some (main, others) => (importFile stamp gate main).addFiles main others
  | none => .ofNothing stamp

end EditorScript
