import EditorScript.Model.Project
import EditorScript.Text.Indentation
import EditorScript.Emission.Variable
import EditorScript.Source.Marker

/-!
# Preserved code

Fragments of source that a project carries along are written back around and
between what is made from the elements.
-/

namespace EditorScript

/-- The text with every occurrence of another one taken out, from left to right. -/
def Text.without (needle : Text) (text : Text) : Text :=
  match _ : Text.cutAt? needle text with
  | none => text
  | some (skipped, after) =>
    if after.length < text.length then skipped ++ without needle after else text
termination_by text.length

/-- The items without later repetitions. -/
def distinct (items : List Text) : List Text :=
  items.foldl (fun kept item => if kept.contains item then kept else kept ++ [item]) []

/-- The namespace of an import. -/
def importedName (statement : Text) : Text :=
  Text.without ";" (Text.without "using " statement)

/-- The imports of a project, then each usual one whose namespace none of those
before it mentions. -/
def mergeUsings (project : Project) (usual : List Text) : List Text :=
  usual.foldl (fun usings statement =>
    if usings.any fun earlier => Text.includes earlier (importedName statement) then usings
    else usings ++ [statement]) (distinct project.usings)

namespace Project

/-- Field declarations and inner types, each kind behind its marker. -/
def declarationSections (project : Project) (width level : Nat) : List Text :=
  let margin := indentation width level
  (if project.fieldDeclarations.isEmpty then []
    else [Text.unlines ((margin ++ declarationsMarker) ::
      project.fieldDeclarations.map (Text.reindent (width * level)))]) ++
  (if project.innerTypes.isEmpty then []
    else [margin ++ innerTypesMarker ++ "\n" ++
      Text.join "\n\n" (project.innerTypes.map (Text.reindent (width * level)))])

/-- The methods that the engine calls, then the others. -/
def methodSections (project : Project) (width level : Nat) : List Text :=
  (project.lifecycleMethods ++ project.customMethods).map (Text.reindent (width * level))

/-- The code around the class, behind its marker. -/
def outerText (project : Project) : Text :=
  if project.outerCode.isEmpty then []
  else Text.unlines (outerCodeMarker :: project.outerCode)

end Project

end EditorScript
