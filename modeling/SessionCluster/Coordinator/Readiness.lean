/-
  Readiness — whether a node can serve, from a probe of its backends.

  Only the store decides: a node without its cache still reads correctly, and one without its
  broker still writes; both only degrade it.
-/
import SessionCluster.Session.Fault

namespace SessionCluster

/-- The state of a backend. -/
inductive BackendStatus where
  | up
  | down (reason : String)
deriving DecidableEq

namespace BackendStatus

def isUp : BackendStatus → Bool
  | .up => true
  | .down _ => false

/-- The state that a probe found; none is a probe without an answer in time. -/
def ofProbe {ε : Type} (message : ε → String) (limit : Span) : Option (Except ε Unit) → BackendStatus
  | some (.ok ()) => .up
  | some (.error e) => .down (message e)
  | none => .down ("no answer within " ++ limit.text)

def toJson : BackendStatus → Json
  | .up => .ofMembers [("status", .string "up")]
  | .down reason => .ofMembers [("status", .string "down"), ("reason", .string reason)]

end BackendStatus

/-- What a node says about itself. -/
structure ReadinessReport where
  node : String
  store : BackendStatus
  cache : BackendStatus
  events : BackendStatus

namespace ReadinessReport

/-- Whether the node can serve. -/
def ready (r : ReadinessReport) : Bool := r.store.isUp

/-- Whether it serves with something missing. -/
def degraded (r : ReadinessReport) : Bool := !r.cache.isUp || !r.events.isUp

def toJson (r : ReadinessReport) : Json :=
  .ofMembers
    [("node_id", .string r.node), ("ready", .bool r.ready), ("degraded", .bool r.degraded),
     ("store", r.store.toJson), ("cache", r.cache.toJson), ("events", r.events.toJson)]

end ReadinessReport

end SessionCluster
