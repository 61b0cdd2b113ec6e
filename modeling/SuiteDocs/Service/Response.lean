import SuiteDocs.Service.Address
import SuiteDocs.Service.Request

/-!
The service: what it answers to requests.
-/

set_option autoImplicit false

namespace SuiteDocs.Service

def title : Text := "annodoc Service"

/-- Why a request has no answer. -/
inductive Error where
  | address (error : Address.Error)
  /-- What is sent along cannot be written. -/
  | content (error : Json.WriteError)
  /-- The address has a scheme that is not served. -/
  | scheme (name : Text)
  /-- The host of the address holds a colon, and no number follows it. -/
  | port (error : Whole.Error)
  | project (error : Project.Error)
  /-- The answer cannot be written. -/
  | answer (error : Json.WriteError)
  /-- The answer holds no value, as it turns out at a line, a column and a position. -/
  | noValue (line column position : Nat)

def Error.message : Error → Text
  | .address error => error.message
  | .content error => error.message
  | .scheme name => Text.quoted name
  | .port error => error.message
  | .project error => error.message
  | .answer error => error.message
  | .noValue line column position =>
    "Expecting value: line " ++ Text.ofNat line ++ " column " ++ Text.ofNat column ++ " (char " ++
      Text.ofNat position ++ ")"

inductive Response where
  | healthy
  | documented (summary : Summary)
  | invalid (violations : List Violation)
  /-- A refusal, with its status and its reason. -/
  | refused (status : Nat) (detail : Text)
  /-- A page about the service for people to read. -/
  | page

namespace Response

def status : Response → Nat
  | .healthy => 200
  | .documented _ => 200
  | .invalid _ => 422
  | .refused status _ => status
  | .page => 200

/-- The word for how a run went. -/
def verdict (summary : Summary) : Text :=
  if !summary.failed.isEmpty then "partial"
  else if summary.suites == 0 then "empty"
  else "ok"

def textArray (texts : List Text) : Json :=
  .array (texts.map .string)

/-- The body of an answer that sums up a run. Documents are in it after a dry run only. -/
def summaryBody (summary : Summary) : Json :=
  let documents := summary.documents.entries.map fun (path, text) => (path, Json.string text)
  .object
    [("status", .string (verdict summary)),
      ("output_dir", .string summary.outputDirectory.toText),
      ("suites", .int summary.suites),
      ("tests", .int summary.tests),
      ("written", textArray (summary.written.map (·.toText))),
      ("skipped", textArray summary.skipped),
      ("failed", textArray summary.failed),
      ("dry_run", .bool summary.dryRun),
      ("documents", if summary.dryRun then .object documents else .null)]

def stepBody : Step → Json
  | .named name => .string name
  | .numbered index => .int index

def violationBody (violation : Violation) : Json :=
  .object
    [("type", .string violation.complaint.name),
      ("loc", .array (violation.place.map stepBody)),
      ("msg", .string violation.complaint.message),
      ("input", violation.input)]

def body : Response → Json
  | .healthy => .object [("status", .string "ok")]
  | .documented summary => summaryBody summary
  | .invalid violations => .object [("detail", .array (violations.map violationBody))]
  | .refused _ detail => .object [("detail", .string detail)]
  | .page => .null

/-- The answer as a client reads it, if it can be written and holds a value. A page holds none
behind its indentation, and answers to the method `HEAD` are empty. -/
def delivered (response : Response) (method : Text) : Except Error Response :=
  match response.body.write with
  | .error error => .error (.answer error)
  | .ok _ =>
    if method == "HEAD" then .error (.noValue 1 1 0)
    else match response with
      | .page => .error (.noValue 2 5 5)
      | _ => .ok response

end Response

/-! ## Endpoints -/

/-- What the service offers. -/
inductive Endpoint where
  | health
  | generate
  | report
  | page
  deriving DecidableEq, Repr

/-- The endpoints by their paths. -/
def endpoints : List (Text × Endpoint) :=
  [("/openapi.json", .page), ("/docs", .page), ("/docs/oauth2-redirect", .page),
    ("/redoc", .page), ("/health", .health), ("/generate", .generate), ("/report", .report)]

/-- The endpoint at a path. One line feed at the end of the path is passed over. -/
def Endpoint.ofPath? (path : Text) : Option Endpoint :=
  let path := if path.getLast? == some '\n' then path.dropLast else path
  (endpoints.find? (·.1 == path)).map (·.2)

/-- The endpoint that a path leads to. Slashes at its end lead to the path without them. -/
def Endpoint.leadingTo? (path : Text) : Option Endpoint :=
  Endpoint.ofPath? path <|> Endpoint.ofPath? (Text.dropWhileEnd (· == .char '/') path)

def Endpoint.methods : Endpoint → List Text
  | .health => ["GET"]
  | .generate => ["POST"]
  | .report => ["POST"]
  | .page => ["GET", "HEAD"]

/-! ## Answers -/

/-- The answer to a failure of a run, if the failure is an expected one. -/
def failureResponse? (error : Project.Error) : Option Response :=
  match error.failure with
  | .notFound => some (.refused 404 error.message)
  | .notDirectory => some (.refused 400 error.message)
  | .refused => some (.refused 400 error.message)
  | .unexpected => none

/-- Answers with the summary of a run, or with its failure. -/
def answerRun (run : Run Project.Error Summary) : Run Project.Error Response :=
  tryCatch (do return .documented (← run)) fun error =>
    match failureResponse? error with
    | some response => return response
    | none => throw error

/-- Answers a request whose body has been checked. -/
def answerChecked {α : Type} (request : Checked α) (run : α → Run Project.Error Summary) :
    Run Project.Error Response :=
  match request with
  | .error violations => return .invalid violations
  | .ok request => answerRun (run request)

def answerBody {α : Type} (body : Body) (check : Json → Checked α)
    (run : α → Run Project.Error Summary) : Run Project.Error Response :=
  match body with
  | .absent => return .invalid [⟨bodyPlace, .missing, .null⟩]
  | .unreadable => return .refused 400 "There was an error parsing the body"
  | .malformed position =>
    return .invalid [⟨bodyPlace ++ [.numbered position], .notJson, .object []⟩]
  | .value value => answerChecked (check value) run

def Endpoint.answer (environment : Project.Environment) (body : Body) :
    Endpoint → Run Project.Error Response
  | .health => return .healthy
  | .generate => answerBody body generateRequest (Project.generate environment)
  | .report => answerBody body reportRequest (Project.report environment)
  | .page => return .page

def answerAt (environment : Project.Environment) (method : Text) (path : Text)
    (body : Body) : Run Project.Error Response :=
  match Endpoint.leadingTo? path with
  | none => return .refused 404 "Not Found"
  | some endpoint =>
    if endpoint.methods.contains method then endpoint.answer environment body
    else return .refused 405 "Method Not Allowed"

/-- Letters outside ASCII with capitals in it. -/
def foreignCapitals : List (Symbol × Text) :=
  [('ß', "SS"), ('ı', "I"), ('ſ', "S"), ('ﬀ', "FF"), ('ﬁ', "FI"), ('ﬂ', "FL"), ('ﬃ', "FFI"),
    ('ﬄ', "FFL"), ('ﬅ', "ST"), ('ﬆ', "ST")]

/-- A method in capitals, by which it is known. Capitals outside ASCII make no known method, so such
letters stay as they are. -/
def capitals (method : Text) : Text :=
  method.flatMap fun c => (foreignCapitals.lookup c).getD [c.toUpper]

/-- The schemes of addresses that are served. -/
def schemes : List Text := ["http", "ws", "https", "wss"]

def respond (environment : Project.Environment) (method address : Text) (content : Content) :
    Run Error Response := do
  let address ← Run.ofExcept .address (Address.ofText address)
  let bytes ← Run.ofExcept .content content.bytes
  if !schemes.contains address.scheme then throw (.scheme address.scheme)
  let _ ← Run.ofExcept .port address.port
  let method := capitals method
  let response ← Run.adapt .project
    (answerAt environment method address.path (.ofBytes bytes))
  Run.ofExcept id (response.delivered method)

end SuiteDocs.Service
