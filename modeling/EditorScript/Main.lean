import EditorScript.Command.Outcome
import EditorScript.Config.File
import Std.Time.Format

/-!
# The command line

Reads the files that a command asks for, runs it, and writes what it leaves
behind.
-/

open EditorScript

/-- What the system reports as a fault of a file; other faults are passed on. -/
def faultOf (error : IO.Error) : IO FileFault :=
  match error with
  | .noFileOrDirectory .. => pure .missing
  | .inappropriateType .. => pure .isADirectory
  | .noSuchThing .. => pure .missing
  | other => throw other

/-- The text of a file. -/
def readText (path : Text) : IO (Except ReadError Text) := do
  try
    let bytes ← IO.FS.readBinFile (String.ofList path)
    pure ((fileText bytes.toList).mapError .encoding)
  catch error => pure (.error (.file (← faultOf error) path))

/-- The texts of files, up to the first one that has none. -/
def readTexts : List Text → IO (Except ReadError (List Text))
  | [] => pure (.ok [])
  | path :: rest => do
    match ← readText path with
    | .error e => pure (.error e)
    | .ok text => pure ((← readTexts rest).map (text :: ·))

/-- Whether there is a directory under a path. -/
def isFolder (path : Text) : IO Bool := do
  match ← readText path with
  | .error (.file .isADirectory _) => pure true
  | _ => pure false

/-- Random hexadecimal digits. -/
def randomDigits (count : Nat) : IO Text :=
  (List.replicate count ()).mapM fun _ => do pure (Nat.digitChar (← IO.rand 0 15))

/-- A fresh random id. -/
def freshId : IO Text := do
  let variant := Nat.digitChar (← IO.rand 8 11)
  pure (Text.join ['-'] [← randomDigits 8, ← randomDigits 4, '4' :: (← randomDigits 3),
    variant :: (← randomDigits 3), ← randomDigits 12])

/-- The present time in universal time. -/
def presentTime : IO Text := do
  let now ← Std.Time.Timestamp.now
  let time := Std.Time.DateTime.ofTimestamp now .UTC
  pure (time.format "uuuu-MM-dd'T'HH:mm:ss.SSSSSSxxx").toList

/-- The configuration in the directory that the environment names, or the one
that the program brings along. -/
def presentConfig : IO Config := do
  match ← IO.getEnv "SCRIPTCRAFT_CONFIG_DIR" with
  | none => pure .shipped
  | some directory =>
    match ← readText (pathInside directory "scriptcraft.yaml") with
    | .ok text => pure (.ofText text)
    | .error _ => pure {}

/-- Runs a command. -/
def runCommand (command : Command) : IO UInt32 := do
  let output ← match command.output? with
    | some path => isFolder path
    | none => pure false
  let contents ← readTexts command.inputs
  match command.run (← presentConfig) ⟨← freshId, ← presentTime⟩ output contents with
  | .error _ =>
    IO.eprintln "error: the configuration or a number in the project cannot be used"
    pure 1
  | .ok outcome =>
    for note in outcome.notes do
      IO.eprintln (String.ofList note)
    match outcome.writing with
    | none => pure ()
    | some ⟨content, none⟩ => IO.print (String.ofList content)
    | some ⟨content, some path⟩ => IO.FS.writeFile (String.ofList path) (String.ofList content)
    pure (UInt32.ofNat outcome.status)

/-- The command line. -/
def main (arguments : List String) : IO UInt32 := do
  match Command.ofArguments (arguments.map String.toList) with
  | .ok command => runCommand command
  | .error refusal =>
    let text := String.ofList usage
    if refusal.status = 0 then IO.print text else IO.eprint text
    pure (UInt32.ofNat refusal.status)
