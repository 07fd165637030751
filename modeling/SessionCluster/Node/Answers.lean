/-
  How a node answers what its operations ask.

  The clock, the announcement of events and the start of a removal take no time.  Calls on the
  store and the cache are cut off after the node's limits; the sweeper has limits of its own.
  Collecting warnings looks at the events in order, all under one deadline.
-/
import SessionCluster.Coordinator.Readiness
import SessionCluster.Node.Backends

namespace SessionCluster.Node

open Activity

/-! ## Events -/

/-- Gives a change an identity. -/
def identify (c : Change) (n : Node) : Node × Event :=
  ({ n with eventCount := n.eventCount + 1 }, ⟨eventIdOf (n.eventCount + 1), c⟩)

/-- Gives changes identities, in order. -/
def identifyAll : List Change → Act (List Event)
  | [] => pure []
  | c :: rest => do
    let e ← step (identify c)
    return e :: (← identifyAll rest)

/-- Hands events in, one after the other and without a wait between. -/
def enqueue : List Event → Act PendingAcks
  | [] => pure []
  | e :: rest => do
    let ack ← step (onLanes fun l => l.offer e)
    return (e, ack) :: (← enqueue rest)

/-- Waits for the outcomes of events, until a tick. -/
def warningsBy (deadline : Nat) : PendingAcks → Act (List Warning)
  | [] => pure []
  | (e, ack) :: rest =>
    .wait (fun n => n.lanes.isSettled ack) (some deadline) do
      let w ← read fun n => n.lanes.warning? e ack
      return w.toList ++ (← warningsBy deadline rest)

/-- Waits for the outcomes of events, as long as the lanes' limit allows. -/
def warnings (pending : PendingAcks) : Act (List Warning) := do
  let limit ← read (·.lanes.ackTimeout)
  warningsBy ((← tick) + limit.ticks) pending

/-! ## Removals from the cache -/

/-- Removes a key from the cache within a limit; a failure is the same as success. -/
def forgetWithin (limit : Span) (key : SessionKey) : Act Unit := do
  discard (within limit (callCache (.remove key)))

/-- The ticket of a removal that starts. -/
def forgetTicket (n : Node) : Node × Nat :=
  ({ n with forgetCount := n.forgetCount + 1 }, n.forgetCount)

/-- Marks a removal as over. -/
def markForgotten (ticket : Nat) (n : Node) : Node × Unit :=
  ({ n with forgotten := ticket :: n.forgotten }, ())

/-- Starts to remove a key from the cache as a task. -/
def startForget (key : SessionKey) : Act Nat := do
  let ticket ← step forgetTicket
  .spawn (.forget key ticket) (pure ticket)

/-! ## Answers -/

/-- The answer to a question, under limits for calls on the store and on the cache. -/
def answer (storeLimit cacheLimit : Span) : (r : Request) → Act r.Answer
  | .now => stepAt fun tick n => (n, n.clock.at_ tick)
  | .store c => within storeLimit (interposed c)
  | .cached key => do
    match ← within cacheLimit (callCache (.get key)) with
    | some (.ok found) => pure found
    | some (.error _) => pure none
    | none => pure none
  | .cache r freshFor => do discard (within cacheLimit (callCache (.set r freshFor)))
  | .announce earlier own => do
    let before ← identifyAll earlier
    let last ← step (identify own)
    let pending ← enqueue (before ++ [last])
    return (pending, last)
  | .beginForget key => startForget key
  | .forgotten ticket => until_ fun n => n.forgotten.contains ticket
  | .forget key => forgetWithin cacheLimit key
  | .warnings pending => warnings pending

/-- Runs a session operation. -/
def operation {α : Type} (p : CoordinatorSettings → Operation α) : Act α := do
  let s ← read (·.settings)
  ofProgram (answer s.storeTimeout s.cacheTimeout) (p s)

/-- Runs a sweep. -/
def sweep : Act (Except SessionError SweepReport) := do
  let s ← read (·.sweeping)
  ofProgram (answer s.storeTimeout s.cacheTimeout) (Sweeper.sweep s)

/-! ## Readiness -/

/-- Probes the backends side by side, each within the node's limit. -/
def readiness : Act ReadinessReport := do
  let limit ← read (·.probeLimit)
  let name ← read (·.name)
  let (store, cache, events) ←
    both (within limit (interposed .ping))
      (both (within limit (callCache .ping)) (within limit pingBroker))
  return ⟨name.text, .ofProbe StoreFault.message limit store,
    .ofProbe CacheFault.message limit cache, .ofProbe BrokerError.text limit events⟩

/-! ## Drain -/

/-- Puts a flush into every lane, waiting for room where there is none; the answer is the
tickets. -/
def flushLanes : List Nat → Act (List Nat)
  | [] => pure []
  | i :: rest =>
    .wait (fun n => n.lanes.hasRoom i) none do
      let ticket ← step (onLanes fun l => l.pushFlush i)
      return ticket :: (← flushLanes rest)

/-- The lanes with room, and those without. -/
def lanesByRoom (n : Node) : List Nat × List Nat :=
  (List.range n.lanes.count).partition n.lanes.hasRoom

/-- Puts a flush into every lane, first where there is room, and waits until all have come
through. -/
def flush : Act Unit := do
  let (open_, full) ← read lanesByRoom
  let first ← flushLanes open_
  let rest ← flushLanes full
  until_ fun n => (first ++ rest).all fun t => (n.lanes.result? t).isSome

/-- Lets no more events in, and waits until all that are queued have been tried. -/
def drain (deadline : Span) : Act (Except BrokerError Unit) := do
  step (onLanes fun l => (l.close, ()))
  match ← within deadline flush with
  | some () => pure (.ok ())
  | none => pure (.error (Lanes.notDrained deadline))

end SessionCluster.Node
