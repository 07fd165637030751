/-
  Settings — what an operator can choose about a node.

  Every section has defaults, and all defaults together make a node that needs nothing but
  itself: store, cache and broker in memory.  Sections of backends that are not chosen have no
  effect.  Numbers are words of fixed width, so every span of time made from them exists.
-/
import SessionCluster.Coordinator.Operations
import SessionCluster.Coordinator.Sweeper
import SessionCluster.Delivery.Backoff
import SessionCluster.Delivery.Lanes

namespace SessionCluster

/-- What a node is used for. -/
inductive Stage where
  | development
  | staging
  | production
deriving DecidableEq

/-- Which store is authoritative. -/
inductive StoreChoice where
  | memory
  | postgres
deriving DecidableEq

/-- Which cache is asked before the store. -/
inductive CacheChoice where
  | memory
  | redis
  | disabled
deriving DecidableEq

/-- Where events go. -/
inductive BrokerChoice where
  | memory
  | redis
  | rabbitMq
deriving DecidableEq

/-! ## Sections -/

/-- How a node listens, and who it is; a node without a name makes one up. -/
structure ServerSection where
  host : String := "0.0.0.0"
  port : UInt16 := 8080
  stage : Stage := .development
  logLevel : String := "info,session_grid=debug,sqlx=warn"
  requestTimeoutSecs : UInt64 := 30
  nodeId : Option String := none
  shutdownGraceSecs : UInt64 := 10
deriving DecidableEq

/-- The store and the limit on calls to it. -/
structure StoreSection where
  backend : StoreChoice := .memory
  timeoutMs : UInt64 := 2000
  connectAttempts : UInt32 := 5
deriving DecidableEq

/-- The database, and the pool of connections to it. -/
structure DatabaseSection where
  url : String := ""
  minConnections : UInt32 := 2
  maxConnections : UInt32 := 20
  acquireTimeoutSecs : UInt64 := 5
  idleTimeoutSecs : UInt64 := 600
  maxLifetimeSecs : UInt64 := 1800
  /-- Whether a node sets up the table when it starts. -/
  ensureSchema : Bool := true
deriving DecidableEq

/-- The cache, how long its copies may be served, and the limit on calls to it. -/
structure CacheSection where
  backend : CacheChoice := .memory
  ttlMs : UInt64 := 5000
  timeoutMs : UInt64 := 200
  keySpace : String := "session-grid:session"
deriving DecidableEq

/-- The key-value server. -/
structure RedisSection where
  url : String := ""
  timeoutSecs : UInt64 := 5
deriving DecidableEq

/-- The message broker. -/
structure RabbitMqSection where
  host : String := ""
  port : UInt16 := 5552
  username : String := "guest"
  password : String := "guest"
  maxStreamBytes : UInt64 := 1073741824
  timeoutSecs : UInt64 := 5
deriving DecidableEq

/-- Where events go, how often their delivery is tried, and how many may wait. -/
structure EventsSection where
  backend : BrokerChoice := .memory
  maxAttempts : UInt32 := 5
  baseDelayMs : UInt64 := 50
  maxDelayMs : UInt64 := 2000
  publishTimeoutMs : UInt64 := 1000
  partitions : UInt32 := 16
  streamSpace : String := "session-grid:events"
  streamMaxLength : UInt64 := 100000
  laneCapacity : UInt64 := 4096
deriving DecidableEq

/-- Whether a node sweeps, how often, and how much at once. -/
structure SweeperSection where
  enabled : Bool := true
  intervalMs : UInt64 := 5000
  batchSize : UInt32 := 500
deriving DecidableEq

/-- What callers may ask for. -/
structure LimitsSection where
  maxTtlSecs : UInt64 := 604800
  maxPayloadBytes : UInt64 := 262144
deriving DecidableEq

/-- The settings of a node. -/
structure Settings where
  server : ServerSection := {}
  store : StoreSection := {}
  database : DatabaseSection := {}
  cache : CacheSection := {}
  redis : RedisSection := {}
  rabbitMq : RabbitMqSection := {}
  events : EventsSection := {}
  sweeper : SweeperSection := {}
  limits : LimitsSection := {}
deriving DecidableEq

namespace Settings

/-! ## What follows from the settings -/

def requestTimeout (s : Settings) : Span := .ofSeconds s.server.requestTimeoutSecs.toNat
def storeTimeout (s : Settings) : Span := .ofMillis s.store.timeoutMs.toNat
def cacheTimeout (s : Settings) : Span := .ofMillis s.cache.timeoutMs.toNat
def cacheTtl (s : Settings) : Span := .ofMillis s.cache.ttlMs.toNat
def maxTtl (s : Settings) : Span := .ofSeconds s.limits.maxTtlSecs.toNat

/-- How the delivery of an event is tried again. -/
def backoff (s : Settings) : Backoff where
  maxAttempts := s.events.maxAttempts.toNat
  baseDelay := .ofMillis s.events.baseDelayMs.toNat
  maxDelay := .ofMillis s.events.maxDelayMs.toNat
  attemptTimeout := .ofMillis s.events.publishTimeoutMs.toNat

/-- How connecting to a backend is tried again. -/
def connectBackoff (s : Settings) : Backoff where
  maxAttempts := max 1 s.store.connectAttempts.toNat
  baseDelay := .ofMillis 200
  maxDelay := .ofSeconds 5
  attemptTimeout := .ofSeconds 10

/-- Whether the key-value server is used, as a cache or as a broker. -/
def needsRedis (s : Settings) : Bool :=
  s.cache.backend == .redis || s.events.backend == .redis

def isProduction (s : Settings) : Bool := s.server.stage == .production

/-- The lanes, whose callers wait for as long as a delivery can take; none when no span is that
long. -/
def lanes? (s : Settings) : Option LaneSettings :=
  s.backoff.worstCase?.map fun d => ⟨s.events.partitions.toNat, d, s.events.laneCapacity.toNat⟩

/-- How a node of some name carries out session operations. -/
def coordinator (s : Settings) (name : NodeName) : CoordinatorSettings where
  node := name
  cacheTtl := s.cacheTtl
  storeTimeout := s.storeTimeout
  cacheTimeout := s.cacheTimeout
  maxTtl := s.maxTtl
  maxPayloadBytes := s.limits.maxPayloadBytes.toNat

/-- How a node sweeps. -/
def sweeping (s : Settings) : SweeperSettings where
  interval := .ofMillis s.sweeper.intervalMs.toNat
  batchSize := s.sweeper.batchSize.toNat
  storeTimeout := s.storeTimeout
  cacheTimeout := s.cacheTimeout

/-- The longest a change can take until it is answered: a read and a write of the store, a removal
from the cache, and the delivery of its events; none when no span is that long. -/
def mutationBudget? (s : Settings) : Option Span := do
  let store ← s.storeTimeout.times? 2
  let calls ← store.add? s.cacheTimeout
  calls.add? (← s.backoff.worstCase?)

end Settings

end SessionCluster
