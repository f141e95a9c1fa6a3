import Lineup.Report.Json
import Lineup.Service.Body
import Lineup.Service.MediaType
/-!
# Service — selections over HTTP

Five paths are served: three for those who watch the service, and two that take a data set, for a selection and for the
catalog.  A path allows one method; what can be fetched can also be asked for without its body.  A body is looked at
only when its path, its method, its media type and its size are right, and an engine is asked only by a selection.
-/
namespace Lineup.Service

open Json (Value)

structure HttpRequest where
  method : String
  target : String
  contentType : Option String
  body : String
  deriving DecidableEq, Repr

inductive Content where
  | empty
  | json (value : Value)
  | notice (text : String)

structure Response where
  status : Nat
  content : Content

inductive Route where
  | health
  | readiness
  | measurements
  | selection
  | catalog
  deriving DecidableEq, Repr

/-- The path of a target: what stands before a query or a fragment. -/
def pathOf (target : String) : String := String.ofList (target.toList.takeWhile fun c => c ≠ '?' && c ≠ '#')

namespace Route

def ofPath? : String → Option Route
  | "/health" => some .health
  | "/ready" => some .readiness
  | "/metrics" => some .measurements
  | "/api/v1/selection" => some .selection
  | "/api/v1/selection/metrics" => some .catalog
  | _ => none

def method : Route → String
  | .health | .readiness | .measurements => "GET"
  | .selection | .catalog => "POST"

end Route

/-! ## Responses -/

def fine (value : Value) : Response := ⟨200, .json value⟩

def unknownPath : Response := ⟨404, .empty⟩

def wrongMethod : Response := ⟨405, .empty⟩

def tooLarge : Response := ⟨413, .notice "the body is too large"⟩

def wrongMediaType : Response := ⟨415, .notice "the body must be JSON"⟩

def rejected : Rejection → Response
  | .notJson => ⟨400, .notice "the body is not JSON"⟩
  | .wrongShape => ⟨422, .notice "the body lacks something or has something that does not fit"⟩

/-- The response to a selection that has no report: why, and for programs the words at fault or the engine's status. -/
def failure (e : SelectionError) : Response :=
  let error := ("error", Value.text e.message)
  match e with
  | .source _ => ⟨400, .json (.record [error])⟩
  | .expression fault =>
    ⟨422, .json (.record [error, ("token", .text fault.token), ("reason", .text fault.label)])⟩
  | .solve failure => ⟨422, .json (.record [error, ("solver_status", .text failure.status.label)])⟩
  | .schema _ | .program _ => ⟨422, .json (.record [error])⟩

def reportResponse : Except SelectionError Report → Response
  | .ok report => fine report.toJson
  | .error e => failure e

/-! ## Requests -/

def bodyLimit : Nat := 0x200000

def readBody {α : Type} (read : String → Except Rejection α) (r : HttpRequest) : Except Response α :=
  if !(r.contentType.any MediaType.isJson) then .error wrongMediaType
  else if bodyLimit < r.body.utf8ByteSize then .error tooLarge
  else (read r.body).mapError rejected

def select {σ : Type} (engine : StatefulEngine σ) (state : σ) (setup : Setup) (b : SelectionBody) :
    Except SelectionError Report × σ :=
  match Table.loadText b.csv with
  | .error e => (.error (.source (.malformed e)), state)
  | .ok table => selectFrom engine state setup table b.request

def catalog (csv : String) : Response :=
  match (Table.loadText csv).mapError (.source ∘ .malformed) >>= Table.catalog with
  | .ok catalog => fine (.record [("metrics", .list (catalog.metrics.map .text))])
  | .error e => failure e

def readiness (ready : Bool) : Response :=
  if ready then fine (.record [("status", .text "ready")])
  else ⟨503, .json (.record [("status", .text "initializing")])⟩

def serve {σ : Type} (engine : StatefulEngine σ) (setup : Setup) (ready : Bool) (state : σ) (r : HttpRequest) :
    Route → Response × σ
  | .health => (fine (.record [("status", .text "ok")]), state)
  | .readiness => (readiness ready, state)
  | .measurements => (⟨200, .empty⟩, state)
  | .selection =>
    match readBody SelectionBody.read r with
    | .error response => (response, state)
    | .ok body =>
      let (outcome, next) := select engine state setup body
      (reportResponse outcome, next)
  | .catalog =>
    match readBody readCatalogBody r with
    | .error response => (response, state)
    | .ok csv => (catalog csv, state)

def respond {σ : Type} (engine : StatefulEngine σ) (setup : Setup) (ready : Bool) (state : σ) (r : HttpRequest) :
    Response × σ :=
  match Route.ofPath? (pathOf r.target) with
  | none => (unknownPath, state)
  | some route =>
    if r.method = route.method then serve engine setup ready state r route
    else if r.method = "HEAD" ∧ route.method = "GET" then
      let (response, next) := serve engine setup ready state r route
      (⟨response.status, .empty⟩, next)
    else (wrongMethod, state)

end Lineup.Service
