/-
  A node — its clock, its backends, its lanes, and what its tasks share.

  The store is in memory or a table; the cache is in memory, absent, or a key-value server; the
  broker is a bus in memory or streams on that server.  Calls on the store can be interposed: the
  first interposition for a kind of call changes the store behind the node's back, then delays
  the call, and may make it fail.
-/
import SessionCluster.Coordinator.Operations
import SessionCluster.Coordinator.Sweeper
import SessionCluster.Delivery.Backoff
import SessionCluster.KeyValue.Records
import SessionCluster.KeyValue.Streams
import SessionCluster.Rehearsal.Broker
import SessionCluster.Rehearsal.Servers
import SessionCluster.Store.Memory

namespace SessionCluster

/-! ## Clock -/

/-- A wall clock: one that is moved by hand, or one that runs with the machine's ticks. -/
inductive WallClock where
  | manual (t : Instant)
  | running (start : Instant)

namespace WallClock

/-- What a clock shows at a tick. -/
def at_ (c : WallClock) (tick : Nat) : Instant :=
  match c with
  | .manual t => t
  | .running start => start.plusMillis tick

/-- Moves a clock forward by hand. -/
def advance (c : WallClock) (d : Span) : WallClock :=
  match c with
  | .manual t => .manual (t.plus d)
  | .running start => .running start

end WallClock

/-! ## Backends -/

/-- The authoritative store. -/
inductive StoreBackend where
  | memory (m : MemoryStore)
  | table (t : RehearsedTable)

/-- The cache. -/
inductive CacheBackend where
  | memory (c : MemoryCache)
  | absent
  /-- Copies on the node's key-value server. -/
  | server (space : String)

/-- The broker. -/
inductive Transport where
  | bus (b : RehearsedBus)
  /-- Streams on the node's key-value server. -/
  | streams (s : KeyValue.StreamSettings)

/-- The kinds of calls on a store. -/
inductive StoreCallKind where
  | get
  | insert
  | swap
  | remove
  | scan
  | ping
deriving DecidableEq

/-- The kind of a call. -/
def StoreCall.kind : StoreCall → StoreCallKind
  | .get _ => .get
  | .insert _ => .insert
  | .swap _ _ _ => .swap
  | .remove _ _ => .remove
  | .scan _ _ => .scan
  | .ping => .ping

/-- Something done to the store in memory, past the node. -/
inductive StoreStep where
  | call (c : StoreCall)
  | setUnavailable (b : Bool)
  | setLatency (millis : Nat)
  /-- Writes a stored record a number of times, with the payloads 0, 1, 2 … -/
  | churn (key : SessionKey) (n : Nat)

/-- What comes before a call on the store. -/
structure Interposition where
  on : StoreCallKind
  before : List StoreStep := []
  /-- Milliseconds of delay. -/
  delay : Nat := 0
  failure : Option StoreFault := none

/-! ## The sweeper's surroundings -/

/-- Where a sweeper hears of changes. -/
inductive FeedSource where
  | store
  | absent
  /-- These, and then nothing more. -/
  | rehearsed (events : List Sweeper.Wake)

/-- A sweeper's subscription: what is left of a rehearsal, or a position in the store's feed. -/
inductive Subscription where
  | absent
  | position (n : Nat)
  | rehearsed (events : List Sweeper.Wake)

/-- The stop order, and how often it was given or withdrawn. -/
structure Signal where
  count : Nat := 0
  stop : Bool := false

/-- A sweeper that runs: what it remembers between waits, when the interval is next over in
nanoseconds of the machine's time, which signal it has seen, and its subscription. -/
structure RunningSweeper where
  pending : Sweeper.Pending := {}
  due : Nat
  seen : Nat
  feed : Subscription

/-! ## The node -/

/-- The background tasks of a node. -/
inductive Work where
  /-- The worker of a lane. -/
  | lane (i : Nat)
  /-- Removes a key from the cache, and then marks the ticket. -/
  | forget (key : SessionKey) (ticket : Nat)
  /-- A sweeper that begins. -/
  | sweeperStart
  | sweeper (s : RunningSweeper)

/-- A node. -/
structure Node where
  clock : WallClock
  store : StoreBackend := .memory {}
  interpositions : List Interposition := []
  cache : CacheBackend := .memory {}
  transport : Transport := .bus {}
  server : RehearsedServer := {}
  /-- How the lanes retry, if they do. -/
  backoff : Option Backoff := none
  lanes : Lanes
  settings : CoordinatorSettings
  sweeping : SweeperSettings := {}
  feed : FeedSource := .store
  /-- The time limit of a readiness probe. -/
  probeLimit : Span := .ofMillis 500
  /-- A limit of its own for probes of the broker, if they have one. -/
  brokerProbeLimit : Option Span := none
  /-- How many event identities have been given out. -/
  eventCount : Nat := 0
  /-- How many removals from the cache have been started as tasks. -/
  forgetCount : Nat := 0
  /-- The removals that are over. -/
  forgotten : List Nat := []
  signal : Signal := {}
  /-- How many sweepers have been started, and how many have stopped. -/
  sweepersStarted : Nat := 0
  sweepersStopped : Nat := 0

namespace Node

/-- The name of a node. -/
def name (n : Node) : NodeName := n.settings.node

/-- The store in memory; nothing when the store is a table. -/
def memoryStore (n : Node) : MemoryStore :=
  match n.store with
  | .memory m => m
  | .table _ => {}

/-- Changes the store in memory. -/
def onMemoryStore {α : Type} (f : MemoryStore → MemoryStore × α) (n : Node) : Node × α :=
  match n.store with
  | .memory m => ({ n with store := .memory (f m).1 }, (f m).2)
  | .table _ => (n, (f {}).2)

/-- The cache in memory; an empty one when there is none. -/
def memoryCache (n : Node) : MemoryCache :=
  match n.cache with
  | .memory c => c
  | .absent | .server _ => {}

/-- Changes the cache in memory. -/
def onMemoryCache {α : Type} (f : MemoryCache → MemoryCache × α) (n : Node) : Node × α :=
  match n.cache with
  | .memory c => ({ n with cache := .memory (f c).1 }, (f c).2)
  | .absent | .server _ => (n, (f {}).2)

/-- The bus; an empty one when the broker is a server. -/
def bus (n : Node) : RehearsedBus :=
  match n.transport with
  | .bus b => b
  | .streams _ => {}

/-- Changes the bus. -/
def onBus {α : Type} (f : RehearsedBus → RehearsedBus × α) (n : Node) : Node × α :=
  match n.transport with
  | .bus b => ({ n with transport := .bus (f b).1 }, (f b).2)
  | .streams _ => (n, (f {}).2)

/-- Changes the lanes. -/
def onLanes {α : Type} (f : Lanes → Lanes × α) (n : Node) : Node × α :=
  ({ n with lanes := (f n.lanes).1 }, (f n.lanes).2)

/-- Removes the first interposition for a kind of call, if there is one. -/
def takeInterposition (kind : StoreCallKind) (n : Node) : Node × Option Interposition :=
  match n.interpositions.find? (·.on == kind) with
  | none => (n, none)
  | some h => ({ n with interpositions := n.interpositions.eraseP (·.on == kind) }, some h)

end Node

end SessionCluster
