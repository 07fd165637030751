/-
  The gateway of a node — requests answered by its operations, within a time limit.

  At the very moment the limit is reached the request is dropped, even if it could finish then;
  what it had started goes on without it.
-/
import SessionCluster.Gateway.Request
import SessionCluster.Node.Tasks

namespace SessionCluster.Node

open Activity Gateway

/-- Carries out a command. -/
def perform : Command → Act Response
  | .create key payload ttl => do
    return .ofCommand 201 (← operation fun s => Coordinator.create s key payload ttl)
  | .get key => do return .ofReading (← operation fun s => Coordinator.get s key)
  | .update key expected payload => do
    return .ofCommand 200 (← operation fun s => Coordinator.update s key expected payload)
  | .delete key expected => do
    return .ofDeletion key (← operation fun s => Coordinator.delete s key expected)
  | .touch key extendBy => do
    return .ofCommand 200 (← operation fun s => Coordinator.touch s key extendBy)
  | .alive => pure .alive
  | .ready => do return .ofReadiness (← readiness)

/-- Answers a request. -/
def respond (limit : Span) (r : Gateway.Request) : Act Response := do
  let work : Act Response := match r.command with
    | .ok c => perform c
    | .error refusal => pure refusal
  match ← before limit work with
  | some response => pure response
  | none => pure .timedOut

end SessionCluster.Node
