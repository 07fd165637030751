/-
  The key-value server as a broker — one stream per partition, under `space:partition`.

  All events of a session are appended to one stream, in the order in which they are published.
  Streams are cut to about a greatest length.  An entry repeats what readers filter by, and
  carries the whole envelope as a text.
-/
import SessionCluster.KeyValue.Command

namespace SessionCluster.KeyValue

/-- Where events are appended. -/
structure StreamSettings where
  space : String
  partitions : Nat
  maxLength : Nat

namespace StreamSettings

/-- The stream of events about a session. -/
def streamFor (s : StreamSettings) (aggregateId : String) : String :=
  s.space ++ ":" ++ Text.decimal (partitionFor aggregateId (max 1 s.partitions))

end StreamSettings

/-- A failed command as a failure of the broker. -/
def brokerError (f : Failure) : BrokerError :=
  ⟨if f.isLasting then .internalError else .brokerUnavailable, "Redis XADD failed: " ++ f.message, []⟩

/-- The command that appends an envelope. -/
def appendCommand (s : StreamSettings) (e : Envelope) : Command :=
  ["XADD", s.streamFor e.aggregateId, "MAXLEN", "~", Text.decimal s.maxLength, "*",
   "event_id", e.eventId, "event_type", e.eventType, "aggregate_id", e.aggregateId,
   "occurred_at", Text.signedDecimal e.occurredAt.millis, "envelope", e.text]

/-- Publishes an envelope. -/
def publish (s : StreamSettings) (e : Envelope) : Exchange (Except BrokerError Unit) :=
  .ask (appendCommand s e) fun r => .done (((textOf r).map fun _ => ()).mapError brokerError)

/-- Asks whether the server answers. -/
def ping : Exchange (Except BrokerError Unit) :=
  .ask ["PING"] fun r => .done (((textOf r).map fun _ => ()).mapError brokerError)

end SessionCluster.KeyValue
