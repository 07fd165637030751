/-
  Failures — what can go wrong below and inside a session operation.

  The store, the cache and the broker each fail in their own ways.  A session operation answers
  with a `SessionError`: the four ordinary refusals, and the two ways a store failure shows.
  Cache failures never reach a caller, and broker failures only as warnings.
-/
import SessionCluster.Session.Event

namespace SessionCluster

/-! ## Codes -/

/-- The public code of a failure. -/
inductive ErrorCode where
  | validationFailed
  | sessionNotFound
  | sessionAlreadyExists
  | versionConflict
  | backendUnavailable
  | cacheError
  | brokerUnavailable
  | serializationError
  | internalError
deriving DecidableEq

namespace ErrorCode

/-- The name of a code, as it is reported. -/
def text : ErrorCode → String
  | .validationFailed => "VALIDATION_FAILED"
  | .sessionNotFound => "SESSION_NOT_FOUND"
  | .sessionAlreadyExists => "SESSION_ALREADY_EXISTS"
  | .versionConflict => "VERSION_CONFLICT"
  | .backendUnavailable => "BACKEND_UNAVAILABLE"
  | .cacheError => "CACHE_ERROR"
  | .brokerUnavailable => "BROKER_UNAVAILABLE"
  | .serializationError => "SERIALIZATION_ERROR"
  | .internalError => "INTERNAL_ERROR"

/-- All codes. -/
def all : List ErrorCode :=
  [.validationFailed, .sessionNotFound, .sessionAlreadyExists, .versionConflict,
   .backendUnavailable, .cacheError, .brokerUnavailable, .serializationError, .internalError]

/-- The code with a text. -/
def ofText? (s : String) : Option ErrorCode := all.find? (·.text == s)

/-- Whether the same attempt may succeed later. -/
def isTransient : ErrorCode → Bool
  | .backendUnavailable | .cacheError | .brokerUnavailable => true
  | _ => false

end ErrorCode

/-- A failure of the broker, with details by name. -/
structure BrokerError where
  code : ErrorCode
  message : String
  details : List (String × String) := []
deriving DecidableEq

namespace BrokerError

/-- Sets a detail; a detail of the same name gives way. -/
def withDetail (e : BrokerError) (name value : String) : BrokerError :=
  { e with details := e.details.filter (·.1 != name) ++ [(name, value)] }

def isTransient (e : BrokerError) : Bool := e.code.isTransient

/-- The failure in words, its code in front. -/
def text (e : BrokerError) : String := "[" ++ e.code.text ++ "] " ++ e.message

end BrokerError

/-- A failure of the store. -/
inductive StoreFault where
  | unavailable (reason : String)
  | timedOut (after : Span)
  | corrupt (reason : String)
deriving DecidableEq

namespace StoreFault

def message : StoreFault → String
  | .unavailable reason => "State store unavailable: " ++ reason
  | .timedOut after => "State store operation timed out after " ++ after.text
  | .corrupt reason => "Stored record is corrupt: " ++ reason

end StoreFault

/-- A failure of the cache. -/
inductive CacheFault where
  | unavailable (reason : String)
  | timedOut (after : Span)
  | undecodable (reason : String)
deriving DecidableEq

namespace CacheFault

def message : CacheFault → String
  | .unavailable reason => "Cache unavailable: " ++ reason
  | .timedOut after => "Cache operation timed out after " ++ after.text
  | .undecodable reason => "Cached value could not be decoded: " ++ reason

end CacheFault

/-! ## What callers see -/

/-- Why a session operation did not succeed. -/
inductive SessionError where
  | notFound (key : SessionKey)
  | alreadyExists (key : SessionKey)
  | versionConflict (expected : Version) (current : Record)
  | invalid (field : String) (message : String)
  | backendUnavailable (message : String)
  | internal (message : String)
deriving DecidableEq

namespace SessionError

/-- What is said of an error. -/
def message : SessionError → String
  | .notFound key => "Session not found: " ++ key.text
  | .alreadyExists key => "Session already exists: " ++ key.text
  | .versionConflict expected current =>
    "Version conflict on " ++ current.key.text ++ ": expected " ++ expected.text ++ ", current " ++
      current.version.text
  | .invalid field message => "Field '" ++ field ++ "' is invalid: " ++ message
  | .backendUnavailable message => "State store unavailable: " ++ message
  | .internal message => "Internal error: " ++ message

def code : SessionError → ErrorCode
  | .notFound _ => .sessionNotFound
  | .alreadyExists _ => .sessionAlreadyExists
  | .versionConflict _ _ => .versionConflict
  | .invalid _ _ => .validationFailed
  | .backendUnavailable _ => .backendUnavailable
  | .internal _ => .internalError

/-- Whether the identical request may succeed later. -/
def isRetryable : SessionError → Bool
  | .backendUnavailable _ => true
  | _ => false

/-- A refused field as an answer. -/
def ofField (e : FieldError) : SessionError := .invalid e.field e.message

/-- A store failure as an answer: a corrupt record is this side's fault, all else is the
store's. -/
def ofStore (f : StoreFault) : SessionError :=
  match f with
  | .unavailable _ | .timedOut _ => .backendUnavailable f.message
  | .corrupt _ => .internal f.message

end SessionError

end SessionCluster
