import EditorScript.Recovery.Statement

/-!
# Boilerplate

Statements that the class around the elements brings along: property updates,
calls of the base class, undo records and style variables.  They stand for no
element.
-/

namespace EditorScript

open Pattern

/-- The rest of a call with any arguments, up to its semicolon. -/
def anyArguments : Pattern :=
  blanks ++ "(" ++ many inLine ++ closing

/-- The shapes of boilerplate lines. -/
def boilerplateShapes : List Pattern :=
  [start ++ "serializedObject." ++
      either ("Update" ++ many (one isWord)) "ApplyModifiedProperties" ++
      blanks ++ "(" ++ closing,
    start ++ "EditorGUI." ++ either "BeginProperty" "EndProperty" ++ anyArguments,
    start ++ "base." ++ word ++ anyArguments,
    start ++ "Repaint" ++ blanks ++ "(" ++ closing,
    start ++ "Undo.RecordObject" ++ anyArguments,
    start ++ "EditorUtility.SetDirty" ++ anyArguments,
    start ++ "var" ++ blanks1 ++ word ++ "Style" ++ blanks ++ "=" ++ blanks ++ "new" ++ blanks1 ++
      "GUIStyle" ++ blanks ++ "(",
    start ++ word ++ "Style." ++ word ++ blanks ++ "=",
    start ++ "EditorGUI.indentLevel" ++ blanks ++
      firstOf ["++", "--", oneOf "+-" ++ "=" ++ blanks ++ digits] ++ blanks ++ ";" ++ finish,
    start ++ oneOf "\x7b\x7d" ++ finish]

/-- Whether a line is boilerplate. -/
def isBoilerplate (line : Text) : Bool :=
  boilerplateShapes.any (·.accepts line)

/-- Number of lines behind the first one that belong to its boilerplate: none
when the line is complete in itself. -/
def boilerplateExtent (lines : List Text) : Nat :=
  let code := codeOf (lines.headD [])
  if code.endsWith ";" || code == "\x7b".toList || code == "\x7d".toList then 0
  else extent lines

end EditorScript
