/-
  The schema of settings — the names of sections and settings, and what each may hold.

  A setting is a text, a text that may be missing, a whole number of some width, a truth value or
  one of several names.  The schema is data, so settings can be read from more than one kind of
  source: here from JSON values, elsewhere from environment variables.  What a source does not
  mention keeps its default.
-/
import SessionCluster.Json.Reader
import SessionCluster.Settings.Basic

namespace SessionCluster.Settings

/-- What a setting of a section `σ` may hold, and how it is set. -/
inductive Kind (σ : Type) where
  | text (set : String → σ → σ)
  | optionalText (set : Option String → σ → σ)
  | number (bound : Nat) (set : Nat → σ → σ)
  | truth (set : Bool → σ → σ)
  | choice (named : List (String × (σ → σ)))

/-- A setting: its name and what it may hold. -/
structure Item (σ : Type) where
  name : String
  kind : Kind σ

variable {σ : Type}

/-- A number of sixteen bits. -/
def word16 (name : String) (set : UInt16 → σ → σ) : Item σ :=
  ⟨name, .number 65536 fun n => set (.ofNat n)⟩

/-- A number of thirty-two bits. -/
def word32 (name : String) (set : UInt32 → σ → σ) : Item σ :=
  ⟨name, .number 4294967296 fun n => set (.ofNat n)⟩

/-- A number of sixty-four bits. -/
def word64 (name : String) (set : UInt64 → σ → σ) : Item σ :=
  ⟨name, .number 18446744073709551616 fun n => set (.ofNat n)⟩

def textItem (name : String) (set : String → σ → σ) : Item σ := ⟨name, .text set⟩

def truthItem (name : String) (set : Bool → σ → σ) : Item σ := ⟨name, .truth set⟩

/-- One of several names. -/
def choiceItem {α : Type} (name : String) (names : List (String × α)) (set : α → σ → σ) : Item σ :=
  ⟨name, .choice (names.map fun (n, a) => (n, set a))⟩

/-! ## Names of choices -/

def stages : List (String × Stage) :=
  [("development", .development), ("staging", .staging), ("production", .production)]

def storeChoices : List (String × StoreChoice) := [("memory", .memory), ("postgres", .postgres)]

def cacheChoices : List (String × CacheChoice) :=
  [("memory", .memory), ("redis", .redis), ("disabled", .disabled)]

def brokerChoices : List (String × BrokerChoice) :=
  [("memory", .memory), ("redis", .redis), ("rabbitmq", .rabbitMq)]

/-! ## Sections -/

/-- The settings of the server. -/
def serverItems : List (Item ServerSection) :=
  [textItem "host" fun x s => { s with host := x },
   word16 "port" fun x s => { s with port := x },
   choiceItem "environment" stages fun x s => { s with stage := x },
   textItem "log_level" fun x s => { s with logLevel := x },
   word64 "request_timeout_secs" fun x s => { s with requestTimeoutSecs := x },
   ⟨"node_id", .optionalText fun x s => { s with nodeId := x }⟩,
   word64 "shutdown_grace_secs" fun x s => { s with shutdownGraceSecs := x }]

def storeItems : List (Item StoreSection) :=
  [choiceItem "backend" storeChoices fun x s => { s with backend := x },
   word64 "timeout_ms" fun x s => { s with timeoutMs := x },
   word32 "connect_attempts" fun x s => { s with connectAttempts := x }]

/-- The settings of the database. -/
def databaseItems : List (Item DatabaseSection) :=
  [textItem "url" fun x s => { s with url := x },
   word32 "min_connections" fun x s => { s with minConnections := x },
   word32 "max_connections" fun x s => { s with maxConnections := x },
   word64 "acquire_timeout_secs" fun x s => { s with acquireTimeoutSecs := x },
   word64 "idle_timeout_secs" fun x s => { s with idleTimeoutSecs := x },
   word64 "max_lifetime_secs" fun x s => { s with maxLifetimeSecs := x },
   truthItem "ensure_schema" fun x s => { s with ensureSchema := x }]

def cacheItems : List (Item CacheSection) :=
  [choiceItem "backend" cacheChoices fun x s => { s with backend := x },
   word64 "ttl_ms" fun x s => { s with ttlMs := x },
   word64 "timeout_ms" fun x s => { s with timeoutMs := x },
   textItem "key_prefix" fun x s => { s with keySpace := x }]

def redisItems : List (Item RedisSection) :=
  [textItem "url" fun x s => { s with url := x },
   word64 "timeout_secs" fun x s => { s with timeoutSecs := x }]

def rabbitMqItems : List (Item RabbitMqSection) :=
  [textItem "host" fun x s => { s with host := x },
   word16 "port" fun x s => { s with port := x },
   textItem "username" fun x s => { s with username := x },
   textItem "password" fun x s => { s with password := x },
   word64 "max_stream_bytes" fun x s => { s with maxStreamBytes := x },
   word64 "timeout_secs" fun x s => { s with timeoutSecs := x }]

/-- The settings of the events. -/
def eventsItems : List (Item EventsSection) :=
  [choiceItem "backend" brokerChoices fun x s => { s with backend := x },
   word32 "max_attempts" fun x s => { s with maxAttempts := x },
   word64 "base_delay_ms" fun x s => { s with baseDelayMs := x },
   word64 "max_delay_ms" fun x s => { s with maxDelayMs := x },
   word64 "publish_timeout_ms" fun x s => { s with publishTimeoutMs := x },
   word32 "partitions" fun x s => { s with partitions := x },
   textItem "stream_prefix" fun x s => { s with streamSpace := x },
   word64 "stream_max_len" fun x s => { s with streamMaxLength := x },
   word64 "lane_capacity" fun x s => { s with laneCapacity := x }]

def sweeperItems : List (Item SweeperSection) :=
  [truthItem "enabled" fun x s => { s with enabled := x },
   word64 "interval_ms" fun x s => { s with intervalMs := x },
   word32 "batch_size" fun x s => { s with batchSize := x }]

def limitsItems : List (Item LimitsSection) :=
  [word64 "max_ttl_secs" fun x s => { s with maxTtlSecs := x },
   word64 "max_payload_bytes" fun x s => { s with maxPayloadBytes := x }]

/-! ## The whole -/

/-- A setting of a section as one of the whole, given how to change the section. -/
def Kind.within {τ : Type} (on : (σ → σ) → τ → τ) : Kind σ → Kind τ
  | .text set => .text fun x => on (set x)
  | .optionalText set => .optionalText fun x => on (set x)
  | .number bound set => .number bound fun x => on (set x)
  | .truth set => .truth fun x => on (set x)
  | .choice named => .choice (named.map fun (n, f) => (n, on f))

/-- A section: its name, its settings, and how many of them an array must give at least. -/
structure Section where
  name : String
  items : List (Item Settings)
  least : Nat := 0

/-- A section, given how to change it. -/
def sectionOf (name : String) (on : (σ → σ) → Settings → Settings) (items : List (Item σ))
    (least : Nat) : Section :=
  ⟨name, items.map fun i => ⟨i.name, i.kind.within on⟩, least⟩

/-- All sections in order.  An array for the first one must reach the node's name, which has no
default of its own. -/
def schema : List Section :=
  [sectionOf "server" (fun f s => { s with server := f s.server }) serverItems 6,
   sectionOf "store" (fun f s => { s with store := f s.store }) storeItems 0,
   sectionOf "database" (fun f s => { s with database := f s.database }) databaseItems 0,
   sectionOf "cache" (fun f s => { s with cache := f s.cache }) cacheItems 0,
   sectionOf "redis" (fun f s => { s with redis := f s.redis }) redisItems 0,
   sectionOf "rabbitmq" (fun f s => { s with rabbitMq := f s.rabbitMq }) rabbitMqItems 0,
   sectionOf "events" (fun f s => { s with events := f s.events }) eventsItems 0,
   sectionOf "sweeper" (fun f s => { s with sweeper := f s.sweeper }) sweeperItems 0,
   sectionOf "limits" (fun f s => { s with limits := f s.limits }) limitsItems 0]

/-! ## From JSON -/

open Json.Reader

/-- Reads what a setting may hold, as a change of what holds it. -/
def Kind.reader : Kind σ → Json.Reader (σ → σ)
  | .text set => string.map set
  | .optionalText set => (optional string).map set
  | .number bound set => (natural bound).map set
  | .truth set => bool.map set
  | .choice named => oneOf fun name => named.lookup name

/-- A field that changes a value when it is read; the names of those read so far are kept
beside the value. -/
def fieldOf (name : String) (r : σ → Json.Reader σ) : Json.Reader.Field (σ × List String) where
  name := name
  filled s := s.2.contains name
  read s := (r s.1).map fun a => (a, name :: s.2)

/-- Reads fields into a value that has its defaults already. -/
def fieldsReader (fields : List (Json.Reader.Field (σ × List String))) (least : Nat) (start : σ) :
    Json.Reader σ :=
  ofFields fields (start, []) (fun s => least ≤ s.2.length) (fun s => some s.1)

/-- Reads a section into settings. -/
def Section.reader (c : Section) (s : Settings) : Json.Reader Settings :=
  fieldsReader (c.items.map fun i => fieldOf i.name fun s => i.kind.reader.map fun f => f s)
    c.least s

/-- Reads settings. -/
def reader : Json.Reader Settings :=
  fieldsReader (schema.map fun c => fieldOf c.name c.reader) 0 {}

end SessionCluster.Settings
