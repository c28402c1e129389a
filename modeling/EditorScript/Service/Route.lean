import EditorScript.File.Path
import EditorScript.File.Utf8
import EditorScript.Number.Reading

/-!
# Routes

The service answers under a handful of paths.  A path may hold bytes written as
hexadecimal numbers behind `%`, single and double points among its parts are
followed, and slashes at its end do not matter.
-/

namespace EditorScript

/-- What is asked for. -/
inductive Route where
  | generate
  | parse
  | parseFolder
  /-- A fresh element of the named widget. -/
  | freshElement (widget : Text)
  | health
deriving DecidableEq, Repr

/-- The way in which a route is asked. -/
def Route.method : Route → Text
  | .generate | .parse | .parseFolder => "POST"
  | .freshElement _ | .health => "GET"

/-- The bytes of a text in UTF-8. -/
def utf8Bytes (text : Text) : List UInt8 :=
  (String.ofList text).toUTF8.toList

/-- The bytes of a text in which bytes may be written as numbers behind `%`. -/
def percentBytes : Text → List UInt8
  | [] => []
  | ['%'] => utf8Bytes ['%']
  | ['%', c] => utf8Bytes ['%', c]
  | c :: high :: low :: rest =>
    match if c = '%' then (hexValue? high, hexValue? low) else (none, none) with
    | (some high, some low) => UInt8.ofNat (16 * high + low) :: percentBytes rest
    | _ => utf8Bytes [c] ++ percentBytes (high :: low :: rest)
  | c :: rest => utf8Bytes [c] ++ percentBytes rest

/-- The path without what follows a question mark or a number sign, and without
the host that stands between two slashes in front and the next one.  It begins
with a single slash. -/
def localPath (path : Text) : Text :=
  let path := path.takeWhile fun c => c ≠ '?' ∧ c ≠ '#'
  let path := match path with
    | '/' :: '/' :: rest => rest.dropWhile (· ≠ '/')
    | path => path
  '/' :: path.dropWhile (· == '/')

/-- The parts of a path, the ones before it reversed, with single points left out
and a double point taking away the part before it, but never the first one. -/
def followPoints (before : List Text) : List Text → List Text
  | [] => before.reverse
  | ['.'] :: rest => followPoints before rest
  | ['.', '.'] :: rest =>
    followPoints (if before = [[]] then before else before.drop 1) rest
  | part :: rest => followPoints (part :: before) rest

/-- The path with its numbers behind `%` read as bytes; bytes that stand for no
character are replaced. -/
def unescapePath (path : Text) : Text :=
  repairUtf8 (percentBytes path)

/-- The text that a path stands for.  The sign `%` may itself be escaped, so escapes
are read twice. -/
def decodedPath (path : Text) : Text :=
  unescapePath (unescapePath
    (Text.join ['/'] (followPoints [] (Text.piecesAt '/' (localPath path)))))

/-- The route under a path. -/
def Route.ofPath? (path : Text) : Option Route :=
  let path := Text.dropRightWhile (· == '/') (decodedPath path)
  match (Text.piecesAt '/' path).map String.ofList with
  | ["", "api", "generate"] => some .generate
  | ["", "api", "parse"] => some .parse
  | ["", "api", "parse-folder"] => some .parseFolder
  | ["", "api", "health"] => some .health
  | ["", "api", "elements", widget, "default"] =>
    if widget.isEmpty then none else some (.freshElement widget)
  | _ => none

end EditorScript
