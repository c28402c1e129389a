import EditorScript.Pattern.Combinators

/-!
# Arguments of a command line

An argument is a word or an option.  Options may be shortened as long as only
one is meant, a value may stand in the same argument, and behind `--` everything
is a word.
-/

namespace EditorScript

/-- Why a command line stops before anything is done. -/
inductive Refusal where
  | misuse
  /-- Help was asked for. -/
  | help
deriving DecidableEq, Repr

/-- What an argument is. -/
inductive Argument where
  | word (text : Text)
  /-- A known option in its full spelling, perhaps with a value. -/
  | option (spelling : Text) (value : Option Text)
  | unknown
  /-- The sign that no options follow. -/
  | divider
deriving DecidableEq, Repr

/-- The text before the first `=` and what follows it. -/
def splitAtEquals (text : Text) : Text × Option Text :=
  match Text.cutAt? "=" text with
  | some (before, after) => (before, some after)
  | none => (text, none)

/-- The options that an argument which starts with a minus may mean: the ones
that a long name shortens, or the short one with a value right behind it. -/
def shortenedOptions (spellings : List Text) (argument : Text) : List (Text × Option Text) :=
  if argument.startsWith "--" then
    let (name, value) := splitAtEquals argument
    (spellings.filter fun (spelling : Text) => spelling.startsWith name).map fun spelling =>
      (spelling, value)
  else
    spellings.filterMap fun (spelling : Text) =>
      if spelling = argument.take 2 then some (spelling, some (argument.drop 2))
      else if spelling.startsWith argument then some (spelling, none)
      else none

/-- Whether an argument is a negative number. -/
def isNegativeNumber (argument : Text) : Bool :=
  let number := Pattern.either (.either Pattern.digits .empty ++ "." ++ Pattern.digits)
    Pattern.digits
  (Pattern.start ++ "-" ++ number ++ Pattern.finish).accepts argument

/-- What an argument is among options with the given spellings; nothing when it
may mean several of them. -/
def Argument.ofText? (spellings : List Text) (argument : Text) : Option Argument :=
  if !argument.startsWith "-" then some (.word argument)
  else if spellings.contains argument then some (.option argument none)
  else if argument = ['-'] then some (.word argument)
  else
    let (name, value) := splitAtEquals argument
    if value.isSome ∧ spellings.contains name then some (.option name value)
    else
      match shortenedOptions spellings argument with
      | [(spelling, value)] => some (.option spelling value)
      | _ :: _ :: _ => none
      | [] =>
        if isNegativeNumber argument || argument.contains ' ' then some (.word argument)
        else some .unknown

/-- What the arguments are, in their order. -/
def classifyArguments (spellings : List Text) : List Text → Except Refusal (List Argument)
  | [] => .ok []
  | argument :: rest =>
    if argument = "--".toList then .ok (.divider :: rest.map .word)
    else
      match Argument.ofText? spellings argument with
      | some first => (classifyArguments spellings rest).map (first :: ·)
      | none => .error .misuse

/-- A command line: what it does. -/
inductive Command where
  /-- Writes the source of a saved project. -/
  | generate (project : Text) (output : Option Text)
  /-- Reads a project from source files. -/
  | parse (files : List Text) (output : Option Text)
deriving DecidableEq, Repr

/-- Ask for help. -/
def helpSpellings : List Text := ["-h", "--help"]

/-- Name the file or the directory that is written. -/
def outputSpellings : List Text := ["-o", "--output"]

/-- Asks for remarks on the syntax. -/
def checkSpelling : Text := "--check"

/-- Tells how much is to be logged. -/
def logSpelling : Text := "--log-level"

/-- The words of a command in uninterrupted runs, and the output that is named
last. -/
structure Collected where
  runs : List (List Text) := []
  output : Option Text := none
  /-- Whether there are options that the command does not have. -/
  strange : Bool := false
deriving DecidableEq, Repr

/-- The collected arguments with one more word in front of the first run. -/
def Collected.addWord (word : Text) (behindWord : Bool) (collected : Collected) : Collected :=
  { collected with
    runs := match collected.runs, behindWord with
      | run :: others, true => (word :: run) :: others
      | runs, _ => [word] :: runs }

/-- The collected arguments with an output named in front of them. -/
def Collected.setOutput (output : Text) (collected : Collected) : Collected :=
  { collected with output := collected.output.or (some output) }

/-- Whether an argument belongs to a run of words. -/
def Argument.joinsRun : Argument → Bool
  | .word _ | .divider => true
  | _ => false

/-- Collects the arguments of a command.  A word is followed by its own run when
the next argument is a word or the divider. -/
def collect : List Argument → Except Refusal Collected
  | [] => .ok {}
  | .word text :: rest =>
    (collect rest).map (·.addWord text (rest.head?.any Argument.joinsRun))
  | .divider :: rest =>
    (collect rest).map fun collected =>
      if rest.isEmpty then { collected with runs := [] :: collected.runs } else collected
  | .unknown :: rest => (collect rest).map fun collected => { collected with strange := true }
  | .option spelling value :: rest =>
    if helpSpellings.contains spelling then .error (if value.isSome then .misuse else .help)
    else if spelling = checkSpelling then
      if value.isSome then .error .misuse else collect rest
    else
      match value with
      | some text => (collect rest).map (·.setOutput text)
      | none =>
        match rest with
        | .word text :: others => (collect others).map (·.setOutput text)
        | _ => .error .misuse

/-- The single run of words of a command and its output. -/
def commandWords (spellings arguments : List Text) :
    Except Refusal (List Text × Option Text) := do
  let collected ← collect (← classifyArguments spellings arguments)
  match collected.runs, collected.strange with
  | [run], false => .ok (run, collected.output)
  | _, _ => .error .misuse

/-- The command with the given name and arguments. -/
def Command.ofWords (name : Text) (arguments : List Text) : Except Refusal Command := do
  if name = "generate".toList then
    match ← commandWords (checkSpelling :: helpSpellings ++ outputSpellings) arguments with
    | ([project], output) => .ok (.generate project output)
    | _ => .error .misuse
  else if name = "parse".toList then
    match ← commandWords (helpSpellings ++ outputSpellings) arguments with
    | ([], _) => .error .misuse
    | (files, output) => .ok (.parse files output)
  else .error .misuse

/-- How much is to be logged. -/
def logLevels : List Text :=
  ["DEBUG", "INFO", "WARNING", "ERROR"]

/-- The command behind the options that stand in front of it. -/
def commandBehind : List (Argument × Text) → Except Refusal Command
  | [] | (.divider, _) :: _ => .error .misuse
  | (.word name, _) :: rest => Command.ofWords name (rest.map (·.2))
  | (.unknown, _) :: rest => do
    let _ ← commandBehind rest
    .error .misuse
  | (.option spelling value, _) :: rest =>
    if spelling = logSpelling then
      match value with
      | some level => if logLevels.contains level then commandBehind rest else .error .misuse
      | none =>
        match rest with
        | (.word level, _) :: others =>
          if logLevels.contains level then commandBehind others else .error .misuse
        | _ => .error .misuse
    else .error (if value.isSome then .misuse else .help)

/-- The command that a command line asks for. -/
def Command.ofArguments (arguments : List Text) : Except Refusal Command := do
  let kinds ← classifyArguments (logSpelling :: helpSpellings) arguments
  commandBehind (kinds.zip arguments)

end EditorScript
