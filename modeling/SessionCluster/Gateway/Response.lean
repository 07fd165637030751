/-
  Responses — what the gateway answers, and how it shows sessions and failures.

  A session is shown with its instants in the form that names the offset.  A failure is shown by
  its code and a sentence; a conflict also shows the current session, and a refused field its
  name.  A command that succeeded lists what was not announced, and is silent when nothing was.
-/
import SessionCluster.Coordinator.Operations
import SessionCluster.Coordinator.Readiness

namespace SessionCluster.Gateway

/-- The body of a response. -/
inductive Body where
  | none
  | json (v : Json)
  | text (s : String)

/-- A response. -/
structure Response where
  status : Nat
  body : Body := .none
  /-- Seconds after which to try again. -/
  retryAfter : Option Nat := Option.none
  /-- The methods that a path has, when another was used. -/
  allow : Option String := Option.none

namespace Response

/-- A response with a JSON body. -/
def ofJson (status : Nat) (v : Json) : Response := { status, body := .json v }

/-- A response in words. -/
def ofText (status : Nat) (s : String) : Response := { status, body := .text s }

/-- The headers that describe a response. -/
def headers (r : Response) : List (String × String) :=
  (match r.body with
    | .none => []
    | .json _ => [("content-type", "application/json")]
    | .text _ => [("content-type", "text/plain; charset=utf-8")]) ++
  (match r.retryAfter with
    | some n => [("retry-after", Text.decimal n)]
    | Option.none => []) ++
  (match r.allow with
    | some methods => [("allow", methods)]
    | Option.none => [])

end Response

/-! ## Sessions -/

/-- A session as callers see it. -/
def sessionJson (r : Record) : Json :=
  .ofMembers
    [("session_id", .string r.key.text), ("payload", r.payload), ("version", r.version.toJson),
     ("owner_node", .string r.owner.text),
     ("created_at", .string (Rfc3339.offsetText r.createdAt)),
     ("updated_at", .string (Rfc3339.offsetText r.updatedAt)),
     ("expires_at", .string (Rfc3339.offsetText r.expiresAt))]

/-- A warning as callers see it. -/
def warningJson (w : Warning) : Json :=
  .ofMembers
    [("code", .string "EVENT_PUBLISH_DEGRADED"), ("event_id", .string w.event.id),
     ("version", w.event.version.toJson), ("kind", .string w.event.kind.text),
     ("reason", .string w.reason)]

/-- The warnings of a command, if there are any. -/
def warningMembers (ws : List Warning) : List (String × Json) :=
  if ws.isEmpty then [] else [("warnings", .array (ws.map warningJson))]

/-! ## Failures -/

/-- A failure as callers see it. -/
structure Problem where
  code : ErrorCode
  message : String
  details : Option Json := Option.none

namespace Problem

def toJson (p : Problem) : Json :=
  .ofMembers <|
    [("code", .string p.code.text), ("message", .string p.message)] ++
    (match p.details with
      | some d => [("details", d)]
      | Option.none => [])

/-- A request that breaks a rule. -/
def badRequest (message : String) : Problem := { code := .validationFailed, message }

/-- A failure on this side. -/
def onThisSide (message : String) : Problem := { code := .internalError, message }

end Problem

/-- The response to a session operation that did not succeed. -/
def Response.ofError (e : SessionError) : Response :=
  match e with
  | .notFound key => .ofJson 404 (Problem.toJson ⟨e.code, "Session not found: " ++ key.text, none⟩)
  | .alreadyExists key =>
    .ofJson 409 (Problem.toJson ⟨e.code, "Session already exists: " ++ key.text, none⟩)
  | .versionConflict expected current =>
    .ofJson 409 (Problem.toJson
      ⟨e.code,
       "Expected version " ++ expected.text ++ ", current version is " ++ current.version.text,
       some (.ofMembers
        [("expected_version", expected.toJson), ("current_version", current.version.toJson),
         ("current", sessionJson current)])⟩)
  | .invalid field message =>
    .ofJson 400 (Problem.toJson
      { Problem.badRequest ("Validation failed for " ++ field ++ ": " ++ message) with
        details := some (.ofMembers [("field", .string field)]) })
  | .backendUnavailable _ =>
    { Response.ofJson 503
        (Problem.toJson ⟨e.code, "State store unavailable, retry later", none⟩) with
      retryAfter := some 1 }
  | .internal _ => .ofJson 500 (Problem.onThisSide "Internal error").toJson

/-! ## Answers of operations -/

namespace Response

/-- The response to a command that leaves a session. -/
def ofCommand (status : Nat) : Outcome Record → Response
  | .ok c =>
    .ofJson status (.ofMembers (("session", sessionJson c.value) :: warningMembers c.warnings))
  | .error e => .ofError e

/-- The response to a deletion. -/
def ofDeletion (key : SessionKey) : Outcome Unit → Response
  | .ok c =>
    .ofJson 200 (.ofMembers
      ([("session_id", .string key.text), ("deleted_version", c.event.version.toJson)] ++
        warningMembers c.warnings))
  | .error e => .ofError e

/-- The response to a reading. -/
def ofReading : Except SessionError Record → Response
  | .ok r => .ofJson 200 (sessionJson r)
  | .error e => .ofError e

/-- The response to a readiness probe. -/
def ofReadiness (r : ReadinessReport) : Response := .ofJson (if r.ready then 200 else 503) r.toJson

/-- The response to a liveness probe. -/
def alive : Response := .ofJson 200 (.ofMembers [("status", .string "ok")])

/-- The response to a request that took too long. -/
def timedOut : Response := { status := 408 }

end Response

end SessionCluster.Gateway
