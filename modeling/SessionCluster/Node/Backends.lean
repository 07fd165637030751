/-
  Calls of a node on its backends, as activities.

  * A call on a store or a cache in memory first waits for as long as the backend is slow, and
    then takes effect at once.
  * A call on a remote backend is a program of statements or commands.
  * Publishing goes through the retries when the node has them; a probe of the broker is a single
    attempt, which may have a time limit of its own.
-/
import SessionCluster.Delivery.Publishing
import SessionCluster.Node.Basic
import SessionCluster.Run.Machine

namespace SessionCluster.Node

open Activity

/-- An activity of a node. -/
abbrev Act (α : Type) := Activity Node Work α

/-! ## Store -/

/-- Runs a computation on the table. -/
def query {α : Type} (q : Table.Query α) : Act α :=
  ofProgram (fun s => step fun (n : Node) =>
    match n.store with
    | .table t => ({ n with store := .table (t.answer s).1 }, (t.answer s).2)
    | .memory _ => (n, .lost)) q

/-- Waits for a number of milliseconds, if there are any. -/
def delay (millis : Nat) : Act Unit := if millis = 0 then .done () else sleepTicks millis

/-- A call on the store itself. -/
def callStore (c : StoreCall) : Act (Except StoreFault c.Outcome) := do
  match ← read (·.store) with
  | .table _ => query (Table.call c)
  | .memory m => do
    delay m.latency
    step (onMemoryStore fun m => m.call c)

/-- Replaces the record of a key again and again, with the payloads from `i` on; the answer is the
last version, or none where a replacement fails. -/
def churnFrom (key : SessionKey) : (left i : Nat) → Record → Act (Option Version)
  | 0, _, r => pure (some r.version)
  | left + 1, i, r => do
    let next := r.withPayload (.natural i) r.owner r.updatedAt
    match ← callStore (.swap key r.version next) with
    | .ok .applied => churnFrom key left (i + 1) next
    | _ => pure none

/-- Replaces the record of a key a number of times; none when there is no record. -/
def churn (key : SessionKey) (n : Nat) : Act (Option Version) := do
  match ← callStore (.get key) with
  | .ok (some r) => churnFrom key n 0 r
  | _ => pure none

/-- A step on the store in memory. -/
def storeStep : StoreStep → Act Unit
  | .call c => do discard (callStore c)
  | .setUnavailable b => step (onMemoryStore fun m => ({ m with unavailable := b }, ()))
  | .setLatency millis => step (onMemoryStore fun m => ({ m with latency := millis }, ()))
  | .churn key n => do discard (churn key n)

/-- Steps on the store in memory, in order. -/
def storeSteps : List StoreStep → Act Unit
  | [] => pure ()
  | s :: rest => do storeStep s; storeSteps rest

/-- A call on the store as the node makes it, with what is interposed. -/
def interposed (c : StoreCall) : Act (Except StoreFault c.Outcome) := do
  match ← step (takeInterposition c.kind) with
  | none => callStore c
  | some h => do
    storeSteps h.before
    delay h.delay
    match h.failure with
    | some f => pure (.error f)
    | none => callStore c

/-! ## Cache -/

/-- Runs a computation on the key-value server. -/
def exchange {α : Type} (e : KeyValue.Exchange α) : Act α :=
  ofProgram (fun c => step fun (n : Node) =>
    ({ n with server := (n.server.answer c).1 }, (n.server.answer c).2)) e

/-- What a node without a cache answers. -/
def withoutCache : (q : CacheCall) → Except CacheFault q.Outcome
  | .get _ => .ok none
  | .set _ _ => .ok ()
  | .remove _ => .ok ()
  | .ping => .ok ()

/-- A call on the cache. -/
def callCache (q : CacheCall) : Act (Except CacheFault q.Outcome) := do
  match ← read (·.cache) with
  | .absent => pure (withoutCache q)
  | .server space => exchange (KeyValue.cacheCall space q)
  | .memory c => do
    delay c.latency
    stepAt fun tick n => n.onMemoryCache fun c => c.call tick q

/-! ## Broker -/

/-- One publication. -/
def transmit (e : Envelope) : Act (Except BrokerError Unit) := do
  match ← read (·.transport) with
  | .streams s => exchange (KeyValue.publish s e)
  | .bus _ => do
    let how ← stepAt fun tick n => n.onBus fun b => b.begin e tick
    delay how.delay
    if how.hangs then .never
    match how.failure with
    | some err => pure (.error err)
    | none => step (onBus fun b => b.finish e)

/-- A publication with the node's retries. -/
def deliver (e : Envelope) : Act (Except BrokerError Unit) := do
  match ← read (·.backoff) with
  | none => transmit e
  | some b =>
    ofProgram (fun (q : Publishing.Request) => show Act (Publishing.Answer q) from
      match q with
      | .attempt => within b.attemptTimeout (transmit e)
      | .pause d => sleep d) (Publishing.publish b)

/-- A probe of the broker. -/
def pingTransport : Act (Except BrokerError Unit) := do
  match ← read (·.transport) with
  | .streams _ => exchange KeyValue.ping
  | .bus b => if b.pingHangs then .never else pure b.bus.ping

/-- A probe of the broker, within its own time limit if it has one. -/
def pingBroker : Act (Except BrokerError Unit) := do
  match ← read (·.brokerProbeLimit) with
  | none => pingTransport
  | some limit => do
    match ← within limit pingTransport with
    | some r => pure r
    | none => pure (.error (Publishing.pingTimedOut limit))

end SessionCluster.Node
