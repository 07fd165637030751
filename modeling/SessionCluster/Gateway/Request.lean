/-
  Requests — which command a request of the gateway stands for.

  Paths are matched as they are written, before anything is decoded; a path with a blank end or a
  part too many is unknown.  A known path refuses methods it does not have, and names those it
  has; reading the head of a resource is reading it without its body.

  A request is refused for its path before its query, and for its query before its body.  A body
  must be declared as JSON, be no larger than two mebibytes, be a JSON text at its front, and have
  the shape that the command wants.  Only then is the session's key looked at.
-/
import SessionCluster.Gateway.MediaType
import SessionCluster.Gateway.Response
import SessionCluster.Text.Percent

namespace SessionCluster.Gateway

/-- A request; its path and query as they are written. -/
structure Request where
  method : String
  path : String
  query : Option String := none
  contentType : Option String := none
  body : String := ""

namespace Request

/-- The path and the query of a target, whose fragment does not count. -/
def target (uri : String) : String × Option String :=
  let cs := match Text.splitFirst? '#' uri.toList with
    | some (before, _) => before
    | none => uri.toList
  match Text.splitFirst? '?' cs with
  | some (path, query) => (String.ofList path, some (String.ofList query))
  | none => (String.ofList cs, none)

end Request

/-! ## Routes -/

/-- The resources of the gateway; sessions are named by a part of the path. -/
inductive Resource where
  | sessions
  | session (part : List Char)
  | touch (part : List Char)
  | health
  | ready

namespace Resource

/-- The resource that a path names. -/
def ofPath? (path : String) : Option Resource :=
  match Text.splitAll '/' path.toList with
  | [[], first] =>
    if first = "sessions".toList then some .sessions
    else if first = "health".toList then some .health
    else if first = "ready".toList then some .ready
    else none
  | [[], first, id] =>
    if first = "sessions".toList ∧ id ≠ [] then some (.session id) else none
  | [[], first, id, last] =>
    if first = "sessions".toList ∧ id ≠ [] ∧ last = "touch".toList then some (.touch id) else none
  | _ => none

/-- The methods of a resource. -/
def methods : Resource → List String
  | .sessions => ["POST"]
  | .session _ => ["GET", "HEAD", "PUT", "DELETE"]
  | .touch _ => ["POST"]
  | .health => ["GET", "HEAD"]
  | .ready => ["GET", "HEAD"]

end Resource

/-! ## Bodies and queries -/

/-- The largest body, in bytes. -/
def maxBodyBytes : Nat := 2097152

/-- The body of a request, read as JSON. -/
def Request.readBody {α : Type} (r : Request) (reader : Json.Reader α) : Except Response α :=
  if !(match r.contentType with | some t => MediaType.isJson t | none => false) then
    .error (.ofText 415 "The body must be declared as JSON")
  else if maxBodyBytes < r.body.utf8ByteSize then .error (.ofText 413 "The body is too large")
  else match Json.Reader.ofTextStart reader r.body with
    | .ok a => .ok a
    | .error .malformed => .error (.ofText 400 "The body is not JSON")
    | .error .mismatched => .error (.ofText 422 "The body has another shape")

/-- Reads a number of sixty-four bits. -/
def wordReader : Json.Reader Nat := .natural 18446744073709551616

/-- A body that is being read. -/
structure Draft where
  sessionId : Option String := none
  payload : Option Json := none
  number : Option Nat := none

open Json.Reader in
/-- Reads what a creation says: the key, the payload, which may be missing from an object, and the
milliseconds of the lifetime. -/
def creationReader : Json.Reader (String × Json × Nat) :=
  ofFields
    [field "session_id" Draft.sessionId (fun d x => { d with sessionId := x }) string,
     field "payload" Draft.payload (fun d x => { d with payload := x }) value,
     field "ttl_ms" Draft.number (fun d x => { d with number := x }) wordReader]
    {} (fun _ => false)
    (fun d => do return (← d.sessionId, d.payload.getD .null, ← d.number))

open Json.Reader in
/-- Reads what an update says: the expected version, and the payload, which may be missing. -/
def updateReader : Json.Reader (Version × Json) :=
  ofFields
    [field "expected_version" Draft.number (fun d x => { d with number := x }) wordReader,
     field "payload" Draft.payload (fun d x => { d with payload := x }) value]
    {} (fun d => d.number.isSome)
    (fun d => do return (← Version.ofNat? (← d.number), d.payload.getD .null))

open Json.Reader in
/-- Reads by how many milliseconds a touch extends. -/
def touchReader : Json.Reader Nat :=
  ofFields [field "extend_by_ms" Draft.number (fun d x => { d with number := x }) wordReader]
    {} (fun _ => false) Draft.number

/-- The expected version in a query: it must be there once. -/
def Request.expectedVersion (r : Request) : Except Response Version :=
  let named := (Text.formPairs (r.query.getD "")).filter fun p => p.1 == some "expected_version"
  match named with
  | [(_, some value)] =>
    match (Text.unsigned? 18446744073709551616 value).bind Version.ofNat? with
    | some v => .ok v
    | none => .error (.ofText 400 "The expected version is not a number")
  | [(_, none)] => .error (.ofText 400 "The expected version is not a number")
  | [] => .error (.ofText 400 "The expected version is missing")
  | _ :: _ :: _ => .error (.ofText 400 "The expected version is repeated")

/-! ## Commands -/

/-- What a request asks for. -/
inductive Command where
  | create (key : SessionKey) (payload : Json) (ttl : Span)
  | get (key : SessionKey)
  | update (key : SessionKey) (expected : Version) (payload : Json)
  | delete (key : SessionKey) (expected : Version)
  | touch (key : SessionKey) (extendBy : Span)
  | alive
  | ready

/-- The name of a session in a path. -/
def nameInPath (part : List Char) : Except Response String :=
  match Text.percentDecoded? part with
  | some s => .ok s
  | none => .error (.ofText 400 "The path is not a text")

/-- The key of a session that a request names. -/
def keyOf (name : String) : Except Response SessionKey :=
  match SessionKey.make name with
  | .ok key => .ok key
  | .error e => .error (.ofError (.ofField e))

/-- What a request asks of a resource whose methods include its own. -/
def Request.commandOn (r : Request) : Resource → Except Response Command
  | .sessions => do
    let (name, payload, ttl) ← r.readBody creationReader
    return .create (← keyOf name) payload (.ofMillis ttl)
  | .session part => do
    let name ← nameInPath part
    if r.method == "PUT" then
      let (expected, payload) ← r.readBody updateReader
      return .update (← keyOf name) expected payload
    else if r.method == "DELETE" then
      let expected ← r.expectedVersion
      return .delete (← keyOf name) expected
    else return .get (← keyOf name)
  | .touch part => do
    let name ← nameInPath part
    let millis ← r.readBody touchReader
    return .touch (← keyOf name) (.ofMillis millis)
  | .health => .ok .alive
  | .ready => .ok .ready

/-- What a request asks for, or how it is refused. -/
def Request.command (r : Request) : Except Response Command :=
  match Resource.ofPath? r.path with
  | none => .error { status := 404 }
  | some resource =>
    if resource.methods.contains r.method then r.commandOn resource
    else .error { status := 405, allow := some (",".intercalate resource.methods) }

/-- The response as the method wants it: a head has no body, but its headers. -/
def Request.wantsBody (r : Request) : Bool := r.method != "HEAD"

end SessionCluster.Gateway
