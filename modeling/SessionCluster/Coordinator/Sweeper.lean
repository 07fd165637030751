/-
  The sweeper — removes what has expired, and announces it.

  Reading already treats expired records as absent; a sweep reclaims their place.  It scans a
  batch, removes each record at the version that it scanned, and goes on to another batch while
  batches come full and something was removed.  A record that changed in between is skipped.

  Between sweeps the sweeper waits for its interval, for the earliest announced expiry, for a
  change of the store, or for the order to stop.  `wakeUp` is what each of these does to the
  pending deadline, and whether a sweep follows.
-/
import SessionCluster.Coordinator.Request

namespace SessionCluster

/-- The settings of a sweeper. -/
structure SweeperSettings where
  interval : Span := .ofMillis 5000
  batchSize : Nat := 500
  maxBatches : Nat := 20
  storeTimeout : Span := .ofMillis 2000
  cacheTimeout : Span := .ofMillis 200

/-- The outcome of a sweep: records removed, records that were changed or removed by others, and
removals that were not announced. -/
structure SweepReport where
  evicted : Nat
  skipped : Nat
  degraded : Nat
deriving DecidableEq

namespace Sweeper

/-- What a sweep has done so far. -/
structure Progress where
  evicted : Nat := 0
  skipped : Nat := 0
  pending : PendingAcks := []

/-- A call on the store, and then what depends on its outcome; a failure ends the sweep. -/
def storeCall {α : Type} (s : SweeperSettings) (c : StoreCall)
    (next : c.Outcome → Operation (Except SessionError α)) : Operation (Except SessionError α) :=
  .ask (.store c) fun r =>
    match r with
    | some (.ok o) => next o
    | some (.error f) => .done (.error (.backendUnavailable f.message))
    | none =>
      .done (.error (.backendUnavailable ("State store timed out after " ++ s.storeTimeout.text)))

/-- Removes the records of a batch, counting those removed and those skipped, and then goes on
with the number removed. -/
def evict {α : Type} (s : SweeperSettings) (now : Instant)
    (next : Nat → Progress → Operation (Except SessionError α)) :
    List Record → Nat → Progress → Operation (Except SessionError α)
  | [], removed, p => next removed p
  | r :: rest, removed, p =>
    storeCall s (.remove r.key r.version) fun o =>
      match o with
      | .applied =>
        .ask (.announce [] ⟨r.key, r.tombstoneVersion, .expired, now⟩) fun (pending, _) =>
          .ask (.forget r.key) fun _ =>
            evict s now next rest (removed + 1) { p with pending := p.pending ++ pending }
      | .conflict _ => evict s now next rest removed { p with skipped := p.skipped + 1 }
      | .missing => evict s now next rest removed { p with skipped := p.skipped + 1 }

/-- The end of a sweep: waits for the outcomes of its events. -/
def report (p : Progress) : Operation (Except SessionError SweepReport) :=
  .ask (.warnings p.pending) fun ws => .done (.ok ⟨p.evicted, p.skipped, ws.length⟩)

/-- Batch after batch, at most so many. -/
def batches (s : SweeperSettings) (now : Instant) :
    Nat → Progress → Operation (Except SessionError SweepReport)
  | 0, p => report p
  | n + 1, p =>
    storeCall s (.scan now s.batchSize) fun batch =>
      evict s now
        (fun removed p =>
          let p := { p with evicted := p.evicted + removed }
          if batch.length < s.batchSize ∨ removed = 0 then report p else batches s now n p)
        batch 0 p

/-- Removes everything that has expired by now. -/
def sweep (s : SweeperSettings) : Operation (Except SessionError SweepReport) :=
  .ask .now fun now => batches s now (max 1 s.maxBatches) {}

/-! ## Between sweeps -/

/-- What ends a wait. -/
inductive Wake where
  /-- The interval is over. -/
  | interval
  /-- The earliest announced expiry has come. -/
  | deadline
  /-- The store announced a change. -/
  | change (n : Notice)
  /-- The feed lost notices. -/
  | lagged (missed : Nat)
  /-- The feed has ended. -/
  | closed
  /-- The stop order was given or withdrawn. -/
  | signal (stop : Bool)

/-- What to do after a wait. -/
inductive Next where
  | sweep
  | wait
  | stop
deriving DecidableEq

/-- What a sweeper remembers between waits. -/
structure Pending where
  /-- The earliest announced expiry since the last sweep. -/
  deadline : Option Instant := none
  /-- Whether it still listens to a feed. -/
  listening : Bool := true
deriving DecidableEq

/-- The earlier of a deadline and an expiry. -/
def lower (d : Option Instant) (t : Instant) : Instant :=
  match d with
  | some current => if t.before current then t else current
  | none => t

/-- What a wait that ends does to what the sweeper remembers, and what follows. -/
def wakeUp (p : Pending) : Wake → Pending × Next
  | .interval => ({ p with deadline := none }, .sweep)
  | .deadline => ({ p with deadline := none }, .sweep)
  | .change n =>
    match n.expiresAt with
    | some t => ({ p with deadline := some (lower p.deadline t) }, .wait)
    | none => (p, .wait)
  | .lagged _ => (p, .sweep)
  | .closed => ({ p with listening := false }, .wait)
  | .signal stop => (p, if stop then .stop else .wait)

end Sweeper

end SessionCluster
