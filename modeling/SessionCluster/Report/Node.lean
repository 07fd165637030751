/-
  Reports on a node — what its operations answered, and what its backends hold.

  The members of these objects are in the order in which things happened: an operation's own
  event before its warnings, and the events about a session in the order of their acceptance.
-/
import SessionCluster.Gateway.Request
import SessionCluster.Node.Basic
import SessionCluster.Report.Values

namespace SessionCluster.Report

/-- The outcome of an operation that changes a session. -/
def committed {α : Type} (value : α → Json) : Outcome α → Json
  | .ok c =>
    .object
      [("ok", value c.value), ("event", c.event.toJson),
       ("warnings", .array (c.warnings.map Warning.toJson)), ("degraded", .bool c.isDegraded)]
  | .error e => sessionError e

/-- What a call on the cache is answered when it does not fail. -/
def cacheOutcome : (q : CacheCall) → q.Outcome → Json
  | .get _, r => success (record? r)
  | .set _ _, () => done
  | .remove _, () => done
  | .ping, () => done

/-- What the broker answers. -/
def broker : Except BrokerError Unit → Json
  | .ok () => done
  | .error e => brokerError e

/-- The answer to a request; of a text that is not JSON only that there is one. -/
def response (request : Gateway.Request) (r : Gateway.Response) : Json :=
  let body := match r.body with
    | .none => Json.null
    | .json v => v
    | .text _ => .string "<text>"
  .object
    [("status", .natural r.status), ("headers", .object (r.headers.map fun (k, v) => (k, .string v))),
     ("body", if request.wantsBody then body else .null)]

/-- The settings of a node. -/
def coordinator (n : Node) : List (String × Json) :=
  let s := n.settings
  [("cache_ttl", span s.cacheTtl), ("store_timeout", span s.storeTimeout),
   ("cache_timeout", span s.cacheTimeout), ("max_ttl", span s.maxTtl),
   ("max_payload_bytes", .natural s.maxPayloadBytes), ("partitions", .natural n.lanes.count)]

/-- The counters of a node's backends: live records; hits, misses and removals of the cache;
attempts and events of the bus. -/
def counters (n : Node) : Json :=
  let c := n.memoryCache
  let b := n.bus.bus
  .array
    ([n.memoryStore.slots.liveRecords.length, c.hits, c.misses, c.removals, b.attempts,
      b.accepted.length].map Json.natural)

/-- What is known about a key. -/
def key (n : Node) (tick : Nat) (k : SessionKey) : Json :=
  .object
    [("tombstone", Json.optional Version.toJson (n.memoryStore.slots.tombstone? k)),
     ("cached", .bool (n.memoryCache.fresh? tick k).isSome),
     ("events", .array ((n.bus.bus.about k.text).map Envelope.toJson))]

/-- The live records by key, and what is known about some keys. -/
def content (n : Node) (tick : Nat) (keys : List SessionKey) : Json :=
  let live := n.memoryStore.slots.liveRecords.mergeSort fun a b => !b.key.precedes a.key
  .object
    [("live", .array (live.map Record.toJson)),
     ("keys", .object (keys.map fun k => (k.text, key n tick k)))]

/-- Values grouped by a name, the names in order of appearance. -/
def grouped (pairs : List (String × Json)) : Json :=
  let names := (pairs.map (·.1)).foldl (fun ns n => if ns.contains n then ns else ns ++ [n]) []
  .object (names.map fun n => (n, .array ((pairs.filter (·.1 == n)).map (·.2))))

end SessionCluster.Report
