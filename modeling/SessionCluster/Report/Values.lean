/-
  Reports — values of this library as JSON, for tools that look at it from outside.

  A report of an outcome is an object with `ok` or with `error`; a failure's `error` is one word
  for its kind, and beside it stands what else is known about it.  Records, events, envelopes and
  warnings are reported in the form in which they travel.
-/
import SessionCluster.Delivery.Backoff
import SessionCluster.Session.Fault
import SessionCluster.Store.Slot

namespace SessionCluster.Report

/-- The report of a success. -/
def success (value : Json) : Json := .object [("ok", value)]

/-- The report of a failure. -/
def failure (kind : String) (more : List (String × Json)) : Json :=
  .object (("error", .string kind) :: more)

/-- The report of a success without a value. -/
def done : Json := success .null

/-! ## Times -/

def span (d : Span) : Json :=
  .ofMembers [("s", .natural d.seconds), ("ns", .natural d.subsecond), ("debug", .string d.text)]

def backoff (b : Backoff) : Json :=
  .ofMembers
    [("max_attempts", .natural b.maxAttempts), ("base_delay", span b.baseDelay),
     ("max_delay", span b.maxDelay), ("attempt_timeout", span b.attemptTimeout)]

/-! ## Failures -/

def fieldError (e : FieldError) : Json :=
  let kind := match e with
    | .empty _ => "EmptyField"
    | .outOfRange _ _ _ _ => "OutOfRange"
    | .badFormat _ _ => "InvalidFormat"
  failure kind [("field", .string e.field), ("message", .string e.message)]

def brokerError (e : BrokerError) : Json :=
  failure "DomainError"
    [("code", .string e.code.text), ("message", .string e.text), ("transient", .bool e.isTransient),
     ("details", .ofMembers (e.details.map fun (k, v) => (k, .string v)))]

/-- The word for a failure of the store. -/
def storeFaultKind : StoreFault → String
  | .unavailable _ => "Unavailable"
  | .timedOut _ => "Timeout"
  | .corrupt _ => "Corrupt"

def storeFault (f : StoreFault) : Json :=
  failure (storeFaultKind f) [("message", .string f.message)]

/-- The word for a failure of the cache. -/
def cacheFaultKind : CacheFault → String
  | .unavailable _ => "Unavailable"
  | .timedOut _ => "Timeout"
  | .undecodable _ => "Serialization"

def cacheFault (f : CacheFault) : Json :=
  failure (cacheFaultKind f) [("message", .string f.message)]

/-- The word for a failed session operation. -/
def sessionErrorKind : SessionError → String
  | .notFound _ => "NotFound"
  | .alreadyExists _ => "AlreadyExists"
  | .versionConflict _ _ => "VersionConflict"
  | .invalid _ _ => "Validation"
  | .backendUnavailable _ => "BackendUnavailable"
  | .internal _ => "Internal"

/-- The report of an error: its code and its message. -/
def sessionError (e : SessionError) : Json :=
  let more := match e with
    | .versionConflict expected current =>
      [("expected", expected.toJson), ("current", current.toJson)]
    | .invalid field _ => [("field", Json.string field)]
    | _ => []
  failure (sessionErrorKind e)
    ([("code", .string e.code.text), ("retryable", .bool e.isRetryable),
      ("message", .string e.message)] ++ more)

/-! ## Outcomes of the store -/

def record? (r : Option Record) : Json := Json.optional Record.toJson r

def inserted : InsertOutcome → Json
  | .inserted => success (.string "Inserted")
  | .occupied r => .object [("ok", .string "Occupied"), ("existing", r.toJson)]
  | .tombstoned v => .object [("ok", .string "Tombstoned"), ("version", v.toJson)]

def written : WriteOutcome → Json
  | .applied => success (.string "Applied")
  | .conflict r => .object [("ok", .string "Conflict"), ("current", r.toJson)]
  | .missing => success (.string "Missing")

/-- The outcome of a call on the store. -/
def storeOutcome : (c : StoreCall) → c.Outcome → Json
  | .get _, r => success (record? r)
  | .insert _, o => inserted o
  | .swap _ _ _, o => written o
  | .remove _ _, o => written o
  | .scan _ _, rs => success (.array (rs.map Record.toJson))
  | .ping, () => success (.bool true)

/-- What a call on the store is answered. -/
def storeAnswer (c : StoreCall) : Except StoreFault c.Outcome → Json
  | .ok o => storeOutcome c o
  | .error f => storeFault f

def notice (n : Notice) : Json :=
  .ofMembers
    [("key", .string n.key.text), ("version", Json.optional Version.toJson n.version),
     ("expires_at", Json.optional (fun t => Json.whole t.millis) n.expiresAt)]

end SessionCluster.Report
