import EditorScript.Extraction.Settings
import EditorScript.Source.Order
import EditorScript.Text.Indentation
import EditorScript.Source.Marker

/-!
# Members of a class

The lines between the braces of a class are cut into members.  Each member takes
along the attributes, comments and directives directly above it; what stands
above nothing stays with the member before it.  The method that draws the
elements and the members that are generated anew are not kept.
-/

namespace EditorScript

open Pattern

/-- What a kept member is. -/
inductive MemberRole where
  | field | innerType | lifecycle | custom
deriving DecidableEq, Repr

/-- A member that is kept, with its lines. -/
structure Member where
  role : MemberRole
  lines : List Text
deriving DecidableEq, Repr

/-- The text of a member. -/
def Member.text (member : Member) : Text :=
  Text.dedent (Text.unlines member.lines)

/-- The members of a class that are kept and, if there is one, the body of the
method that draws the elements. -/
structure ClassBody where
  members : List Member
  guiBody? : Option (List Text)
deriving DecidableEq, Repr

namespace ClassBody

/-- The texts of the members of a role. -/
def texts (body : ClassBody) (role : MemberRole) : List Text :=
  (body.members.filter (·.role = role)).map Member.text

end ClassBody

/-- The line on which a member ends, from its code characters: at a semicolon
outside braces, or at the brace that closes the outermost block unless `=` or `;`
follows.  `candidate` is the line of such a brace. -/
def memberStop? (depth : Int) (candidate : Option Nat) : List CodeChar → Option Nat
  | [] => candidate
  | c :: rest =>
    if isBlank c.char then memberStop? depth candidate rest
    else if candidate.isSome ∧ c.char ≠ '=' ∧ c.char ≠ ';' then candidate
    else if c.char = '{' then memberStop? (depth + 1) none rest
    else if c.char = '}' then
      memberStop? (depth - 1) (if depth - 1 = 0 then some c.line else none) rest
    else if c.char = ';' ∧ depth = 0 then some c.line
    else memberStop? depth none rest

/-- The last line of the member that starts on line `start`, the lines from `stop`
on being out of reach. -/
def memberEnd (lines : List Text) (start stop : Nat) : Nat :=
  (memberStop? 0 none (codeCharsFrom .code start (slice lines start stop))).getD
    (max start (stop - 1))

/-- Methods that the engine calls. -/
def lifecycleNames : List Text :=
  ["OnEnable", "OnDisable", "OnDestroy", "OnFocus", "OnLostFocus", "Awake", "Start", "Update",
    "LateUpdate", "FixedUpdate", "OnValidate", "Reset", "OnDrawGizmos", "OnDrawGizmosSelected",
    "OnSelectionChange", "OnHierarchyChange", "OnProjectChange", "OnInspectorUpdate",
    "OnSceneGUI"]

/-- The name of the method that draws the elements. -/
def ScriptKind.guiMethodName? : ScriptKind → Option Text
  | .editorWindow | .settingsProvider | .propertyDrawer => some "OnGUI"
  | .customEditor => some "OnInspectorGUI"
  | _ => none

/-- A body that only opens the window. -/
def opensWindow : Pattern :=
  start ++ opt ("var" ++ blanks1 ++ word ++ blanks ++ "=" ++ blanks) ++ "GetWindow" ++
    opt ("<" ++ dotted ++ ">") ++ blanks ++ "(" ++ many (noneOf ";") ++ closing

/-- A constructor that passes its arguments on. -/
def passesArguments : Pattern :=
  ":" ++ blanks ++ opening "base" ++ "path" ++ comma ++ "scope" ++ blanks ++ ")"

/-- A body that only makes the settings page of a class. -/
def makesPage (className : Text) : Pattern :=
  start ++ opening ("return" ++ blanks1 ++ "new" ++ blanks1 ++ text className) ++
    anyPlainString "path" ++ closing

/-- Whether a method is written anew each time the class is generated, given its
name, its text and its body. -/
def isGenerated (kind : ScriptKind) (className name text : Text) (body : List Text) : Bool :=
  let code := Text.trim (Text.join " " (body.map codeOf))
  match kind with
  | .editorWindow => name == "ShowWindow".toList && opensWindow.accepts code
  | .settingsProvider =>
    if name = className then code.isEmpty && passesArguments.occurs text
    else name == "Create" ++ className && settingsProviderAttribute.occurs text &&
      (makesPage className).accepts code
  | _ => false

/-- The members with further lines at the end of the last one, which stands in
front.  Without a member they become a declaration of their own. -/
def attachLines (extra : List Text) : List Member → List Member
  | members =>
    if extra.isEmpty then members
    else
      match members with
      | [] => [⟨.field, extra⟩]
      | last :: others => { last with lines := last.lines ++ extra } :: others

/-- The directives among some lines. -/
def directives (lines : List Text) : List Text :=
  lines.filter fun line => (codeOf line).startsWith "#"

/-- A comment block at the front of some lines: its lines, and those behind it. -/
def splitComment : List Text → List Text × List Text
  | [] => ([], [])
  | line :: rest =>
    if Text.includes line "*/" then ([line], rest)
    else
      let (comment, behind) := splitComment rest
      (line :: comment, behind)

/-- What a member is: kept in a role, or the method that draws the elements with
the lines of its body, or written anew each time. -/
inductive MemberKind where
  | kept (role : MemberRole)
  | gui (body : List Text)
  | generated
deriving DecidableEq, Repr

/-- What the member with the given lines is.  `pending` are the lines above it;
`drawn` tells whether the drawing method has been met. -/
def classify (kind : ScriptKind) (className : Text) (drawn : Bool) (pending lines : List Text) :
    MemberKind :=
  let code := codeOf (lines.headD [])
  if typeHeader.accepts code then .kept .innerType
  else
    match methodName? code with
    | none => .kept .field
    | some name =>
      let body? := (findBlock? lines 0).map fun block => block.bodyLines lines
      let text := Text.dedent (Text.unlines (pending ++ lines))
      let role := if lifecycleNames.contains name then .lifecycle else .custom
      match body? with
      | some body =>
        if kind.guiMethodName? = some name ∧ !drawn then .gui body
        else if isGenerated kind className name text body then .generated
        else .kept role
      | none => if isGenerated kind className name text [[]] then .generated else .kept role

theorem length_splitComment_lt (lines : List Text) (h : lines ≠ []) :
    (splitComment lines).2.length < lines.length := by
  induction lines with
  | nil => exact absurd rfl h
  | cons line rest ih =>
    rw [splitComment]
    split
    · simp
    · cases rest with
      | nil => simp [splitComment]
      | cons next others =>
        have := ih (by simp)
        simp only [List.length_cons] at *
        omega

/-- The members among the lines of a class, the latest one in front of the others.
`pending` are the lines read since the last member ended. -/
def membersOf (kind : ScriptKind) (className : Text) (pending : List Text)
    (members : List Member) (guiBody? : Option (List Text)) (lines : List Text) :
    List Member × Option (List Text) :=
  match lines with
  | [] => (attachLines pending members, guiBody?)
  | line :: rest =>
    let trimmed := Text.trim line
    let code := codeOf line
    if trimmed.isEmpty then
      membersOf kind className [] (attachLines pending members) guiBody? rest
    else if trimmed.startsWith "/*" then
      let split := splitComment (line :: rest)
      membersOf kind className (pending ++ split.1) members guiBody? split.2
    else if code.isEmpty || code.startsWith "#" || attributeLine.accepts code then
      membersOf kind className
        (if generatedMarkers.contains trimmed then pending else pending ++ [line])
        members guiBody? rest
    else
      let last := memberEnd (line :: rest) 0 (rest.length + 1)
      let own := (line :: rest).take (last + 1)
      let behind := rest.drop last
      match classify kind className guiBody?.isSome pending own with
      | .kept role =>
        membersOf kind className [] (⟨role, pending ++ own⟩ :: members) guiBody? behind
      | .gui body =>
        membersOf kind className [] (attachLines (directives pending) members) (some body) behind
      | .generated =>
        membersOf kind className [] (attachLines (directives pending) members) guiBody? behind
termination_by lines.length
decreasing_by
  · simp
  · exact length_splitComment_lt (line :: rest) (by simp)
  · simp
  · simp only [List.length_drop, List.length_cons]
    omega
  · simp only [List.length_drop, List.length_cons]
    omega
  · simp only [List.length_drop, List.length_cons]
    omega

/-- The members of a class, given the lines between its braces. -/
def ClassBody.ofLines (kind : ScriptKind) (className : Text) (lines : List Text) : ClassBody :=
  let (members, guiBody?) := membersOf kind className [] [] none lines
  ⟨members.reverse, guiBody?⟩

end EditorScript
