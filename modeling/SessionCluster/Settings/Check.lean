/-
  Checked settings — which settings a node may start with.

  Each section has rules of its own, looked at in a fixed order; the first that is broken is the
  complaint.  Sections of backends are looked at only when the backend is chosen.  Last, a
  request must have more time than the longest change can take.

  Only a section that passes its rules keeps that longest time within what a span can hold, so it
  is worked out after them.
-/
import SessionCluster.Settings.Address
import SessionCluster.Settings.Basic

namespace SessionCluster

/-- What is wrong with some settings. -/
inductive Complaint where
  | missing (name : String)
  | badPort
  | badAddress (text : String)
  | badTimeout (setting : String)
  | badDatabaseUrl
  | badRedisUrl
  | poolBounds
  | poolTooLarge
  | badNodeId
  | badRetries (setting : String)
  | badPartitions
  | badLimit (setting : String)
  | badKeySpace (setting : String)
  | requestTimeoutTooShort (configuredMs requiredMs : Nat)
deriving DecidableEq

/-- The complaint in words. -/
def Complaint.message : Complaint → String
  | .missing name => "Required configuration missing: " ++ name
  | .badPort => "Invalid port number"
  | .badAddress text => "Invalid listen address: " ++ text
  | .badTimeout setting => "Invalid timeout for " ++ setting
  | .badDatabaseUrl => "Invalid database URL format"
  | .badRedisUrl => "Invalid Redis URL format"
  | .poolBounds => "Pool min_connections exceeds max_connections"
  | .poolTooLarge => "Pool size exceeds maximum allowed (100)"
  | .badNodeId => "Invalid node id"
  | .badRetries setting => "Retry policy is invalid: " ++ setting
  | .badPartitions => "Event partitions must be between 1 and 1024"
  | .badLimit setting => "Invalid limit: " ++ setting
  | .badKeySpace setting => "Invalid key prefix: " ++ setting
  | .requestTimeoutTooShort configured required =>
    "server.request_timeout_secs (" ++ Text.decimal configured ++
      "ms) must exceed the mutation budget (" ++ Text.decimal required ++ "ms)"

/-- The outcome of a check. -/
abbrev Checked := Except Complaint Unit

namespace Settings

/-- A rule: it must hold, or there is a complaint. -/
def require (holds : Bool) (c : Complaint) : Checked :=
  if holds then .ok () else .error c

/-! ## Sections -/

/-- The text of the address at which a node listens. -/
def addressText (s : ServerSection) : String := s.host ++ ":" ++ Text.decimal s.port.toNat

/-- The address at which a node listens. -/
def address (s : ServerSection) : Except Complaint Address :=
  match Address.read? (addressText s) with
  | some a => .ok a
  | none => .error (.badAddress (addressText s))

/-- The name that was chosen for a node, if one was. -/
def nodeName (s : ServerSection) : Except Complaint (Option NodeName) :=
  match s.nodeId with
  | none => .ok none
  | some id =>
    match NodeName.make id with
    | .ok name => .ok (some name)
    | .error _ => .error .badNodeId

def checkServer (s : ServerSection) : Checked := do
  require (s.port != 0) .badPort
  require (s.requestTimeoutSecs != 0 && s.requestTimeoutSecs ≤ 300)
    (.badTimeout "server.request_timeout_secs")
  discard (address s)
  discard (nodeName s)

def checkStore (s : StoreSection) : Checked := do
  require (s.timeoutMs != 0 && s.timeoutMs ≤ 60000) (.badTimeout "store.timeout_ms")
  require (s.connectAttempts != 0) (.badLimit "store.connect_attempts")

def checkDatabase (s : DatabaseSection) : Checked := do
  require (s.url != "") (.missing "SESSION_GRID__DATABASE__URL")
  require (s.url.startsWith "postgres://" || s.url.startsWith "postgresql://") .badDatabaseUrl
  require (s.minConnections ≤ s.maxConnections) .poolBounds
  require (s.maxConnections ≤ 100) .poolTooLarge

def checkCache (s : CacheSection) : Checked := do
  require (s.ttlMs != 0) (.badTimeout "cache.ttl_ms")
  require (s.timeoutMs != 0) (.badTimeout "cache.timeout_ms")
  require (s.keySpace != "" && !s.keySpace.toList.any Text.isBlank)
    (.badKeySpace "cache.key_prefix")

def checkRedis (s : RedisSection) : Checked := do
  require (s.url != "") (.missing "SESSION_GRID__REDIS__URL")
  require (s.url.startsWith "redis://" || s.url.startsWith "rediss://") .badRedisUrl
  require (s.timeoutSecs != 0) (.badTimeout "redis.timeout_secs")

def checkRabbitMq (s : RabbitMqSection) : Checked := do
  require (!Text.allBlank s.host) (.missing "SESSION_GRID__RABBITMQ__HOST")
  require (s.port != 0) .badPort
  require (s.username != "") (.missing "SESSION_GRID__RABBITMQ__USERNAME")
  require (s.maxStreamBytes != 0) (.badLimit "rabbitmq.max_stream_bytes")
  require (s.timeoutSecs != 0) (.badTimeout "rabbitmq.timeout_secs")

def checkEvents (s : EventsSection) : Checked := do
  require (s.maxAttempts != 0 && s.maxAttempts ≤ 20) (.badRetries "events.max_attempts")
  require (s.baseDelayMs != 0 && s.baseDelayMs ≤ s.maxDelayMs) (.badRetries "events.base_delay_ms")
  require (s.publishTimeoutMs != 0) (.badTimeout "events.publish_timeout_ms")
  require (s.partitions != 0 && s.partitions ≤ 1024) .badPartitions
  require (!Text.allBlank s.streamSpace) (.badKeySpace "events.stream_prefix")
  require (s.laneCapacity != 0) (.badLimit "events.lane_capacity")

def checkSweeper (s : SweeperSection) : Checked := do
  require (100 ≤ s.intervalMs) (.badTimeout "sweeper.interval_ms")
  require (s.batchSize != 0 && s.batchSize ≤ 10000) (.badLimit "sweeper.batch_size")

def checkLimits (s : LimitsSection) : Checked := do
  require (s.maxTtlSecs != 0) (.badLimit "limits.max_ttl_secs")
  require (s.maxPayloadBytes != 0) (.badLimit "limits.max_payload_bytes")

/-! ## All sections -/

/-- The sections in their order, then those of the chosen backends. -/
def checkSections (s : Settings) : Checked := do
  checkServer s.server
  checkStore s.store
  checkCache s.cache
  checkEvents s.events
  checkSweeper s.sweeper
  checkLimits s.limits
  if s.store.backend = .postgres then checkDatabase s.database
  if s.needsRedis then checkRedis s.redis
  if s.events.backend = .rabbitMq then checkRabbitMq s.rabbitMq

/-- Milliseconds as a word of sixty-four bits. -/
def wordMillis (d : Span) : Nat := d.millis % 18446744073709551616

/-- Whether a request has more time than a change can take. -/
def checkBudget (s : Settings) (budget : Span) : Checked :=
  require (budget < s.requestTimeout)
    (.requestTimeoutTooShort (wordMillis s.requestTimeout) (wordMillis budget))

/-- Checks settings; none when the longest time of a change is more than a span can hold. -/
def check? (s : Settings) : Option Checked :=
  match s.checkSections with
  | .error c => some (.error c)
  | .ok () => s.mutationBudget?.map s.checkBudget

end Settings

end SessionCluster
