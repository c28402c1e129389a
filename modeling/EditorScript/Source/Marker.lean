import EditorScript.Text.Basic

/-!
# Markers

Lines of generated source that announce fragments carried along.  Readers pass
over them.
-/

namespace EditorScript

def declarationsMarker : Text := "// === Preserved field declarations ==="
def innerTypesMarker : Text := "// === Preserved inner types ==="
def outerCodeMarker : Text := "// === Preserved outer code ==="

/-- All markers. -/
def generatedMarkers : List Text :=
  [outerCodeMarker, declarationsMarker, innerTypesMarker]

end EditorScript
