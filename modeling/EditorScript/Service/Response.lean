import EditorScript.Configured
import EditorScript.Model.Catalogue
import EditorScript.Persistence.Reading
import EditorScript.Persistence.Writing
import EditorScript.Service.Route

/-!
# Answers of the service

The service holds no state: a request carries all that is needed.  What it asks
for is decided by its path, then by its method, then by its body.
-/

namespace EditorScript

/-- A request; `body` is missing when nothing is sent along. -/
structure Request where
  method : Text
  path : Text
  body : Option Json

/-- An answer. -/
inductive Response where
  | done (body : Json)
  /-- The request makes sense, but not its project. -/
  | refused (detail : Text)
  | notFound (detail : Text)
  | wrongMethod
  /-- The body has another shape than the route asks for. -/
  | misshapen

/-- The status of an answer. -/
def Response.status : Response → Nat
  | .done _ => 200
  | .refused _ => 400
  | .notFound _ => 404
  | .wrongMethod => 405
  | .misshapen => 422

namespace Request

/-- A text in the body. -/
def text? (body : Json) (key : Text) : Option Text :=
  match body.get? key with
  | some (.string text) => some text
  | _ => none

/-- A file in the body, its name under the given key; the name is not empty. -/
def file? (nameKey : Text) (body : Json) : Option SourceFile := do
  let name ← text? body nameKey
  let content ← text? body "content"
  if name.isEmpty then none else some ⟨name, content⟩

/-- The files in the body; there may be none. -/
def files? (body : Json) : Option (List SourceFile) :=
  match body with
  | .object entries =>
    match entries.lookup "files".toList with
    | none => some []
    | some (.array items) => items.mapM (file? "name")
    | some _ => none
  | _ => none

/-- The project in the body. -/
def project? (body : Json) : Option Json :=
  match body.get? "project" with
  | some (.object entries) => some (.object entries)
  | _ => none

end Request

namespace Response

/-- The answer with its entries. -/
def success (entries : List (Text × Json)) : Response :=
  done (.object (("success", .bool true) :: entries))

/-- The answer with a project that was read from source. -/
def imported (imported : Imported) : Response :=
  success [("project", imported.project.toJson.withoutInfinities),
    ("warnings", .strings imported.warnings)]

/-- The answer with the source of a project. -/
def generated (config : Config) (stamp : Stamp) (value : Json) : Except Problem Response :=
  match Project.ofJson stamp.id value with
  | .error e => .ok (refused e.message)
  | .ok project => (config.source project).map fun code =>
    success [("file_name", .string project.fileName), ("code", .string code)]

/-- The answer with a fresh element. -/
def freshElement (stamp : Stamp) (name : Text) : Response :=
  match (Named.ofName? name : Option Widget) with
  | some widget => success [("element", (Element.create stamp widget).toJson)]
  | none => notFound ("Unknown element type: " ++ name)

/-- The answer to a request for a route. -/
def onRoute (config : Config) (stamp : Stamp) (body : Json) : Route → Except Problem Response
  | .health => .ok (done (.object [("status", .string "ok"), ("service", .string "scriptcraft")]))
  | .freshElement name => .ok (freshElement stamp name)
  | .generate =>
    match Request.project? body with
    | some value => generated config stamp value
    | none => .ok misshapen
  | .parse =>
    match Request.file? "file_name" body with
    | some file => (config.importFile stamp none file).map imported
    | none => .ok misshapen
  | .parseFolder =>
    match Request.files? body with
    | some files => (config.importFolder stamp none files).map imported
    | none => .ok misshapen

end Response

/-- The answer to a request. -/
def Request.answer (config : Config) (stamp : Stamp) (request : Request) :
    Except Problem Response :=
  match Route.ofPath? request.path with
  | none => .ok (.notFound "Not Found")
  | some route =>
    if request.method.map Char.toUpper = route.method then
      Response.onRoute config stamp (request.body.getD .null) route
    else .ok .wrongMethod

end EditorScript
