/-
  Rehearsals as JSON — how the behaviour of backends, and the settings of a rehearsed node, are
  written down.

  A span is a number of milliseconds, or an object with seconds and nanoseconds.  What is missing
  has its default.  A row of a table is an array; the columns, each a name and a kind, are given
  once for all rows.
-/
import SessionCluster.Coordinator.Operations
import SessionCluster.Coordinator.Sweeper
import SessionCluster.Json.Members
import SessionCluster.Rehearsal.Broker
import SessionCluster.Rehearsal.Servers
import SessionCluster.Rehearsal.Target
import SessionCluster.Text.Fields

namespace SessionCluster

/-! ## Spans and settings -/

namespace Json

/-- A member that is a span, or a default. -/
def spanOr (d : Span) (j : Json) (name : String) : Span :=
  match j.get name with
  | .number (.natural n) => .ofMillis n.toNat
  | .object ms => .ofNanos (natAt (.object ms) "s" * 1000000000 + natAt (.object ms) "ns")
  | _ => d

/-- A member that is a span, or none at all. -/
def spanAt (j : Json) (name : String) : Span := j.spanOr .zero name

end Json

/-- Reads how attempts are repeated. -/
def Backoff.ofJson (j : Json) : Backoff where
  maxAttempts := j.natOr standard.maxAttempts "max_attempts"
  baseDelay := j.spanOr standard.baseDelay "base_delay"
  maxDelay := j.spanOr standard.maxDelay "max_delay"
  attemptTimeout := j.spanOr standard.attemptTimeout "attempt_timeout"

/-- Reads how attempts are repeated, if they are. -/
def Backoff.ofJson? : Json → Option Backoff
  | .object ms => some (ofJson (.object ms))
  | _ => none

/-- Reads the settings of lanes. -/
def LaneSettings.ofJson (j : Json) : LaneSettings :=
  let d : LaneSettings := {}
  ⟨j.natOr d.partitions "partitions", j.spanOr d.ackTimeout "ack_timeout",
    j.natOr d.capacity "lane_capacity"⟩

/-- Reads the settings of a node's session operations. -/
def CoordinatorSettings.ofJson (node : NodeName) (j : Json) : CoordinatorSettings :=
  let d : CoordinatorSettings := { node }
  ⟨node, j.spanOr d.cacheTtl "cache_ttl", j.spanOr d.storeTimeout "store_timeout",
    j.spanOr d.cacheTimeout "cache_timeout", j.spanOr d.maxTtl "max_ttl",
    j.natOr d.maxPayloadBytes "max_payload_bytes"⟩

/-- Reads the settings of a sweeper. -/
def SweeperSettings.ofJson (j : Json) : SweeperSettings :=
  let d : SweeperSettings := {}
  ⟨j.spanOr d.interval "interval", j.natOr d.batchSize "batch_size",
    j.natOr d.maxBatches "max_batches", j.spanOr d.storeTimeout "store_timeout",
    j.spanOr d.cacheTimeout "cache_timeout"⟩

/-! ## Brokers and targets -/

/-- Reads how one publication goes. -/
def PublishStep.ofJson (j : Json) : PublishStep where
  delay := j.natAt "delay_ms"
  hangs := j.flagAt "hang"
  failure :=
    if j.has "err" then
      some ⟨(ErrorCode.ofText? (j.textAt "err")).getD .internalError, j.textAt "message",
        (j.get "details").asMembers.map fun (k, v) => (k, v.asText)⟩
    else none

/-- Reads how a broker behaves. -/
def RehearsedBus.ofJson (j : Json) : RehearsedBus where
  script := (j.itemsAt "script").map PublishStep.ofJson
  standing := .ofJson (j.get "default")
  pingHangs := (j.get "default").flagAt "ping_hang"

/-- Reads how one attempt goes; its value may be any. -/
def AttemptStep.ofJson (j : Json) : AttemptStep Json where
  delay := j.natAt "delay_ms"
  hangs := j.flagAt "hang"
  outcome := if j.has "err" then .error (j.textAt "err") else .ok (j.get "ok")

/-- Reads how a target behaves. -/
def RehearsedTarget.ofJson (j : Json) : RehearsedTarget Json where
  script := (j.itemsAt "script").map AttemptStep.ofJson
  standing := .ofJson (j.get "default")

/-! ## Servers -/

/-- Reads an answer of a key-value server; none ends the connection. -/
def KeyValue.Reply.ofJson (j : Json) : Option KeyValue.Reply :=
  if j.flagAt "close" then none
  else if j.has "bulk" then some (.text (j.textAt "bulk"))
  else if j.has "status" then some (.status (j.textAt "status"))
  else if j.has "error" then some (.error (j.textAt "error"))
  else match j.get "int" with
    | .number n => some (.number (n.toInt?.getD 0))
    | _ => some .nothing

/-- Reads the answers of a key-value server. -/
def RehearsedServer.ofJson (j : Json) : RehearsedServer where
  replies := (j.itemsAt "replies").map KeyValue.Reply.ofJson

namespace Table

/-- The columns of a table of sessions. -/
def columns : List String :=
  ["id:text", "payload:text", "version:int8", "owner_node:text", "created_at:timestamptz",
   "updated_at:timestamptz", "expires_at:timestamptz", "deleted:bool"]

/-- Reads a cell of a column of some kind. -/
def Cell.ofJson (kind : String) (j : Json) : Cell :=
  match kind, j with
  | _, .null => .null
  | "text", .string s => .text s
  | "int8", .number n => (n.toInt?.map Cell.number).getD .foreign
  | "timestamptz", .number n => ((n.toInt?.bind Instant.ofMillis?).map Cell.instant).getD .foreign
  | "bool", .bool b => .truth b
  | _, _ => .foreign

/-- Reads a row, given the columns. -/
def Row.ofJson (columns : List String) (j : Json) : Row :=
  (columns.zip j.asItems).map fun (column, cell) =>
    match Text.splitFirst? ':' column.toList with
    | some (name, kind) => (String.ofList name, .ofJson (String.ofList kind) cell)
    | none => (column, .foreign)

/-- Reads an answer of a database. -/
def Reply.ofJson (columns : List String) (j : Json) : Reply :=
  if j.flagAt "close" then .lost
  else if j.has "error" then .failed (j.textAt "error")
  else if j.has "rows" then .rows ((j.itemsAt "rows").map (Row.ofJson columns))
  else .affected (j.natAt "affected")

end Table

/-- Reads the answers of a database. -/
def RehearsedTable.ofJson (j : Json) : RehearsedTable :=
  let columns := if j.has "columns" then (j.itemsAt "columns").map Json.asText else Table.columns
  { replies := (j.itemsAt "replies").map (Table.Reply.ofJson columns) }

end SessionCluster
