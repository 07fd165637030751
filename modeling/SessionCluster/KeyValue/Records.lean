/-
  The key-value server as a cache — copies of records as texts under `space:key`.

  The server itself drops a copy when its time is over.  A copy lasts at least a millisecond,
  since the server refuses a shorter time.
-/
import SessionCluster.Cache.Memory
import SessionCluster.KeyValue.Command

namespace SessionCluster.KeyValue

/-- The name under which a copy is kept. -/
def nameOf (space : String) (key : SessionKey) : String := space ++ ":" ++ key.text

/-- The milliseconds that a copy lasts. -/
def lastingMillis (d : Span) : Nat := max 1 (d.millis % 18446744073709551616)

/-- A failed command as a failure of the cache. -/
def cacheFault (f : Failure) : CacheFault := .unavailable f.message

/-- A call on the cache. -/
def cacheCall (space : String) : (q : CacheCall) → Exchange (Except CacheFault q.Outcome)
  | .get key =>
    .ask ["GET", nameOf space key] fun r =>
      match textOrNothing r with
      | .error f => .done (.error (cacheFault f))
      | .ok none => .done (.ok none)
      | .ok (some text) =>
        match Record.ofText text with
        | .ok record => .done (.ok (some record))
        | .error _ => .done (.error (.undecodable "not a record"))
  | .set record freshFor =>
    .ask ["SET", nameOf space record.key, record.text, "PX", Text.decimal (lastingMillis freshFor)]
      fun r => .done ((accepted r).mapError cacheFault)
  | .remove key => .ask ["DEL", nameOf space key] fun r => .done ((accepted r).mapError cacheFault)
  | .ping => .ask ["PING"] fun r => .done (((textOf r).map fun _ => ()).mapError cacheFault)

end SessionCluster.KeyValue
