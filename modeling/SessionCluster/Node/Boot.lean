/-
  Starting a node — from settings to a node that serves.

  The name of the node comes first, then its store, the key-value server if anything uses it, and
  the broker.  Connecting is tried again and again for a while; everything else that fails ends
  the start at once.  Settings are taken as they are: whether they are sound is checked elsewhere.

  A start is a program, so what it asks of its surroundings, and in which order, does not depend
  on them.  `Surroundings` answer it by a list.
-/
import SessionCluster.Delivery.Connecting
import SessionCluster.KeyValue.Location
import SessionCluster.Node.Basic
import SessionCluster.Settings.Check

namespace SessionCluster.Boot

/-! ## Questions -/

/-- What a node connects to. -/
inductive Target where
  | database
  | server
  | broker
deriving DecidableEq

namespace Target

/-- What a target is called. -/
def text : Target → String
  | .database => "postgres"
  | .server => "redis"
  | .broker => "rabbitmq"

/-- What a connection gives.  There is no client for the message broker, so a connection to it is
never made. -/
def Connection : Target → Type
  | .database => Unit
  | .server => Unit
  | .broker => Empty

end Target

/-- What a start asks of its surroundings. -/
inductive Request where
  /-- A name that no other node has. -/
  | freshName
  /-- One attempt to connect, cut off after a limit. -/
  | connect (t : Target) (limit : Span)
  | pause (d : Span)
  | query (s : Table.Statement)
  /-- To hear of the table's changes. -/
  | listen

/-- What a start is answered. -/
def Answer : Request → Type
  | .freshName => NodeName
  | .connect t _ => Option (Except String t.Connection)
  | .pause _ => Unit
  | .query _ => Table.Reply
  | .listen => Unit

/-- Why a node did not start. -/
inductive Failure where
  | settings (c : Complaint)
  | connect (t : Target) (f : Connecting.Failure)
  | setUp (f : StoreFault)

/-- A part of a start, which may fail. -/
abbrev Step := ExceptT Failure (Program Answer)

/-! ## Steps -/

/-- Asks a question. -/
def ask (q : Request) : Step (Answer q) := .lift (.query q)

/-- Runs a program that may fail. -/
def orFail {α ε : Type} (failure : ε → Failure) (p : Program Answer (Except ε α)) : Step α :=
  .mk (p.bind fun r => .done (r.mapError failure))

/-- Connects, with retries. -/
def connect (t : Target) (b : Backoff) : Step t.Connection :=
  orFail (.connect t) <|
    Program.expand
      (fun (q : Connecting.Request) => show Program Answer (Connecting.Answer t.Connection q) from
        match q with
        | .attempt => .query (A := Answer) (Request.connect t b.attemptTimeout)
        | .pause d => .query (A := Answer) (Request.pause d))
      (Connecting.connect b)

/-- The name of the node. -/
def name (s : Settings) : Step NodeName :=
  match Settings.nodeName s.server with
  | .error c => throw (.settings c)
  | .ok (some n) => pure n
  | .ok none => ask .freshName

/-- Makes the store ready, if it is a database. -/
def openStore (s : Settings) : Step Unit := do
  if s.store.backend = .postgres then
    let () ← connect .database s.connectBackoff
    if s.database.ensureSchema then
      orFail .setUp (Program.expand (fun q => .query (.query q)) (Table.define Table.schema))
    ask .listen

/-- Connects to the key-value server, if anything uses it. -/
def openServer (s : Settings) : Step Unit := do
  if s.needsRedis then
    if KeyValue.isLocation s.redis.url then
      let limit := Span.ofSeconds s.redis.timeoutSecs.toNat
      connect .server { s.connectBackoff with attemptTimeout := limit }
    else throw (.connect .server ⟨0, "not a location"⟩)

/-- The broker. -/
def openBroker (s : Settings) : Step Transport :=
  match s.events.backend with
  | .memory => pure (.bus {})
  | .redis =>
    pure (.streams ⟨s.events.streamSpace, s.events.partitions.toNat, s.events.streamMaxLength.toNat⟩)
  | .rabbitMq => do
    let limit := Span.ofSeconds s.rabbitMq.timeoutSecs.toNat
    let connection ← connect .broker { s.connectBackoff with attemptTimeout := limit }
    nomatch connection

/-- The cache. -/
def cache (s : Settings) : CacheBackend :=
  match s.cache.backend with
  | .memory => .memory {}
  | .redis => .server s.cache.keySpace
  | .disabled => .absent

/-- What a start finds out: the node's name, and its broker. -/
structure Parts where
  name : NodeName
  transport : Transport

/-- Starts a node. -/
def start (s : Settings) : Step Parts := do
  let name ← name s
  openStore s
  openServer s
  return ⟨name, ← openBroker s⟩

/-- The node of some settings and parts; none when its callers would have to wait for longer than
any span, or its lanes cannot be made. -/
def assemble (s : Settings) (p : Parts) (clock : WallClock) (table : RehearsedTable)
    (server : RehearsedServer) : Option Node := do
  let lanes ← s.lanes?
  guard lanes.fit
  some {
    clock
    store := match s.store.backend with
      | .memory => .memory {}
      | .postgres => .table table
    cache := cache s
    transport := p.transport
    server
    backoff := some s.backoff
    lanes := .make lanes
    settings := s.coordinator p.name
    sweeping := s.sweeping
    feed := match s.store.backend with
      | .memory => .store
      | .postgres => .rehearsed []
    probeLimit := s.storeTimeout }

/-! ## Surroundings -/

/-- Surroundings that answer by a list.  `refusal` says why a target cannot be reached, if it
cannot. -/
structure Surroundings where
  freshName : NodeName
  refusal : Target → Option String
  table : RehearsedTable := {}
  server : RehearsedServer := {}

namespace Surroundings

/-- The outcome of an attempt to connect. -/
def reach (w : Surroundings) : (t : Target) → Except String t.Connection
  | .database => match w.refusal .database with
    | some reason => .error reason
    | none => .ok ()
  | .server => match w.refusal .server with
    | some reason => .error reason
    | none => .ok ()
  | .broker => .error ((w.refusal .broker).getD "no client")

/-- Answers a question; time does not matter here. -/
def answer (w : Surroundings) : (q : Request) → Surroundings × Answer q
  | .freshName => (w, w.freshName)
  | .connect t _ => (w, some (w.reach t))
  | .pause _ => (w, ())
  | .query s => ({ w with table := (w.table.answer s).1 }, (w.table.answer s).2)
  | .listen => ({ w with table := w.table.listen }, ())

/-- Answers a whole program. -/
def run {α : Type} (w : Surroundings) : Program Answer α → Surroundings × α
  | .done a => (w, a)
  | .ask q next => (w.answer q).1.run (next (w.answer q).2)

end Surroundings

/-- Starts a node in some surroundings. -/
def startIn (w : Surroundings) (clock : WallClock) (s : Settings) :
    Surroundings × Except Failure (Option Node) :=
  match w.run (start s).run with
  | (w, .error f) => (w, .error f)
  | (w, .ok p) => (w, .ok (assemble s p clock w.table w.server))

end SessionCluster.Boot
