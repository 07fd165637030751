/-
  Reports on settings — what an operator is shown before a node starts.

  A report holds the outcome of every check and all values except secrets and addresses of
  backends.  It has no value when a time that it should show is longer than any span.  With more
  than a thousand attempts the times that depend on them are left out; the rules allow twenty.
-/
import SessionCluster.Report.Values
import SessionCluster.Settings.Check

namespace SessionCluster

/-- The word for a complaint. -/
def Complaint.code : Complaint → String
  | .missing _ => "MissingRequired"
  | .badPort => "InvalidPort"
  | .badAddress _ => "InvalidAddress"
  | .badTimeout _ => "InvalidTimeout"
  | .badDatabaseUrl => "InvalidDatabaseUrl"
  | .badRedisUrl => "InvalidRedisUrl"
  | .poolBounds => "InvalidPoolSize"
  | .poolTooLarge => "PoolSizeTooLarge"
  | .badNodeId => "InvalidNodeId"
  | .badRetries _ => "InvalidRetryPolicy"
  | .badPartitions => "InvalidPartitions"
  | .badLimit _ => "InvalidLimit"
  | .badKeySpace _ => "InvalidPrefix"
  | .requestTimeoutTooShort _ _ => "RequestTimeoutTooShort"

namespace Report

def complaint (c : Complaint) : Json := failure c.code [("message", .string c.message)]

/-- The outcome of a check. -/
def checked : Checked → Json
  | .ok () => success .null
  | .error c => complaint c

/-- A text that may be a complaint instead. -/
def textOr (r : Except Complaint String) : Json :=
  match r with
  | .ok s => success (.string s)
  | .error c => complaint c

def word16 (n : UInt16) : Json := .natural n.toNat
def word32 (n : UInt32) : Json := .natural n.toNat
def word64 (n : UInt64) : Json := .natural n.toNat

def stage : Stage → String
  | .development => "Development"
  | .staging => "Staging"
  | .production => "Production"

def storeChoice : StoreChoice → String
  | .memory => "Memory"
  | .postgres => "Postgres"

def cacheChoice : CacheChoice → String
  | .memory => "Memory"
  | .redis => "Redis"
  | .disabled => "Disabled"

def brokerChoice : BrokerChoice → String
  | .memory => "Memory"
  | .redis => "Redis"
  | .rabbitMq => "RabbitMq"

/-- What stands for a name that is yet to be made up. -/
def generatedName : String := "<generated>"

/-- The name of the node. -/
def nodeName (s : ServerSection) : Except Complaint String :=
  (Settings.nodeName s).map fun n =>
    match n with
    | some name => name.text
    | none => generatedName

/-- The checks of all sections, chosen or not. -/
def sections (s : Settings) : Json :=
  .ofMembers
    [("server", checked (Settings.checkServer s.server)),
     ("store", checked (Settings.checkStore s.store)),
     ("database", checked (Settings.checkDatabase s.database)),
     ("cache", checked (Settings.checkCache s.cache)),
     ("redis", checked (Settings.checkRedis s.redis)),
     ("rabbitmq", checked (Settings.checkRabbitMq s.rabbitMq)),
     ("events", checked (Settings.checkEvents s.events)),
     ("sweeper", checked (Settings.checkSweeper s.sweeper)),
     ("limits", checked (Settings.checkLimits s.limits))]

/-- The values of all sections. -/
def values (s : Settings) : List (String × Json) :=
  [("server", .ofMembers
      [("addr", textOr ((Settings.address s.server).map Address.text)),
       ("node_id", textOr (nodeName s.server)), ("host", .string s.server.host),
       ("port", word16 s.server.port), ("log_level", .string s.server.logLevel),
       ("environment", .string (stage s.server.stage)),
       ("request_timeout", word64 s.server.requestTimeoutSecs),
       ("shutdown_grace", word64 s.server.shutdownGraceSecs)]),
   ("store", .ofMembers
      [("backend", .string (storeChoice s.store.backend)), ("timeout", span s.storeTimeout),
       ("connect_attempts", word32 s.store.connectAttempts)]),
   ("database", .ofMembers
      [("min", word32 s.database.minConnections), ("max", word32 s.database.maxConnections),
       ("acquire", word64 s.database.acquireTimeoutSecs),
       ("idle", word64 s.database.idleTimeoutSecs),
       ("lifetime", word64 s.database.maxLifetimeSecs),
       ("ensure_schema", .bool s.database.ensureSchema)]),
   ("cache", .ofMembers
      [("backend", .string (cacheChoice s.cache.backend)), ("ttl", span s.cacheTtl),
       ("timeout", span s.cacheTimeout), ("prefix", .string s.cache.keySpace)]),
   ("redis", .ofMembers [("timeout", word64 s.redis.timeoutSecs)]),
   ("rabbitmq", .ofMembers
      [("host", .string s.rabbitMq.host), ("port", word16 s.rabbitMq.port),
       ("username", .string s.rabbitMq.username),
       ("max_stream_bytes", word64 s.rabbitMq.maxStreamBytes),
       ("timeout", word64 s.rabbitMq.timeoutSecs)]),
   ("events", .ofMembers
      [("backend", .string (brokerChoice s.events.backend)),
       ("partitions", word32 s.events.partitions), ("prefix", .string s.events.streamSpace),
       ("max_len", word64 s.events.streamMaxLength),
       ("lane_capacity", word64 s.events.laneCapacity)]),
   ("sweeper", .ofMembers
      [("enabled", .bool s.sweeper.enabled), ("interval", span s.sweeping.interval),
       ("batch_size", word32 s.sweeper.batchSize)]),
   ("limits", .ofMembers
      [("max_ttl", word64 s.limits.maxTtlSecs),
       ("max_payload_bytes", word64 s.limits.maxPayloadBytes)])]

/-- How many attempts a report still works out. -/
def mostAttempts : Nat := 1000

/-- What depends on the times of all attempts, in this order: the outcome of the whole check, the
longest time of a change, and the longest wait for a delivery. -/
def times (s : Settings) : Option (Json × Json × Json) :=
  if mostAttempts < s.events.maxAttempts.toNat then
    match s.checkSections with
    | .ok () => some (.null, .null, .null)
    | .error c => some (complaint c, .null, .null)
  else do
    let outcome ← s.check?
    let budget ← s.mutationBudget?
    let lanes ← s.lanes?
    some (checked outcome, span budget, span lanes.ackTimeout)

/-- The report on some settings. -/
def settings (s : Settings) : Option Json := do
  let (outcome, budget, wait) ← times s
  some (.ofMembers (
    [("validate", outcome), ("sections", sections s), ("needs_redis", .bool s.needsRedis),
     ("production", .bool s.isProduction), ("mutation_budget", budget), ("ack_timeout", wait),
     ("retry_policy", backoff s.backoff)] ++ values s))

end Report

end SessionCluster
