/-
  The background tasks of a node, and running it.

  * The worker of a lane takes one job at a time: it hands an event to a publisher and records the
    outcome, or records that a flush has come through.  The publisher of a node is `deliver`.
  * A removal from the cache is marked as over when it is done or given up.
  * The sweeper waits for the stop order, the end of its interval, the earliest announced expiry
    and the feed; where several have come, that order decides.  Its interval begins with a sweep
    at once; a sweep that begins over five milliseconds late moves the following ones.
-/
import SessionCluster.Node.Answers

namespace SessionCluster.Node

open Activity

/-! ## Lanes -/

/-- Somebody who tries to publish envelopes, and may start tasks of a kind meanwhile. -/
abbrev Publisher (τ : Type) := Envelope → Activity Node τ (Except BrokerError Unit)

section

variable {τ : Type} (publish : Publisher τ)

/-- Does a job of a lane. -/
def doJob : Job → Activity Node τ Unit
  | .publish e ticket => do
    let origin ← read (·.name)
    let r ← publish ((Envelope.ofEvent e).withOrigin origin.text)
    step (onLanes fun l => (l.settle ticket r, ()))
  | .flush ticket => step (onLanes fun l => (l.settle ticket (.ok ()), ()))

/-- Waits for a job of a lane and does it. -/
def laneTurn (i : Nat) : Activity Node τ (Option Work) :=
  .wait (fun n => !(n.lanes.queue i).isEmpty) none do
    match ← step (onLanes fun l => l.take i) with
    | some j => doJob publish j
    | none => pure ()
    return some (.lane i)

end

/-! ## Sweeper -/

/-- How late a sweep may begin without moving the following ones, in nanoseconds. -/
def lateness : Nat := 5000000

/-- When the interval is next over, if it was due at one moment and noticed at another. -/
def nextDue (due noticed : Nat) (interval : Span) : Nat :=
  if due + lateness < noticed then noticed + interval.nanos else due + interval.nanos

/-- Whether a subscription has something to tell. -/
def hasNews (n : Node) : Subscription → Bool
  | .absent => false
  | .position p => n.memoryStore.feed.hasMore p
  | .rehearsed events => !events.isEmpty

/-- The next event of a subscription, and what is left of it. -/
def nextNews (n : Node) : Subscription → Option Sweeper.Wake × Subscription
  | .absent => (none, .absent)
  | .position p =>
    match n.memoryStore.feed.receive p with
    | (.notice x, p) => (some (.change x), .position p)
    | (.lagged k, p) => (some (.lagged k), .position p)
    | (.nothing, p) => (none, .position p)
  | .rehearsed [] => (none, .rehearsed [])
  | .rehearsed (e :: rest) => (some e, .rehearsed rest)

/-- The tick at which a moment in nanoseconds is reached. -/
def tickOf (nanos : Nat) : Nat := (nanos + 999999) / 1000000

/-- The tick of the earliest announced expiry, by what the clock shows now. -/
def deadlineTick (n : Node) (tick : Nat) (p : Sweeper.Pending) : Option Nat :=
  p.deadline.map fun t => tick + (t.remaining (n.clock.at_ tick)).ticks

/-- What ends a wait at a tick, and the sweeper that has noticed it. -/
def wakeOf (n : Node) (tick : Nat) (deadline : Option Nat) (s : RunningSweeper) :
    Option Sweeper.Wake × RunningSweeper :=
  if n.signal.count ≠ s.seen then
    (some (.signal n.signal.stop), { s with seen := n.signal.count })
  else if s.due ≤ MemoryCache.nanosAt tick then
    (some .interval, { s with due := nextDue s.due (MemoryCache.nanosAt tick) n.sweeping.interval })
  else if Activity.reached deadline tick then (some .deadline, s)
  else ((nextNews n s.feed).1, { s with feed := (nextNews n s.feed).2 })

/-- The sweeper that listens only while it should. -/
def listeningAs (p : Sweeper.Pending) (s : RunningSweeper) : RunningSweeper :=
  { s with pending := p, feed := if p.listening then s.feed else .absent }

/-- A wait of the sweeper, and what follows it. -/
def sweeperTurn (s : RunningSweeper) : Act (Option Work) := do
  let deadline ← stepAt fun tick n => (n, deadlineTick n tick s.pending)
  .wait (fun n => n.signal.count ≠ s.seen || hasNews n s.feed)
      (some (match deadline with | some t => min t (tickOf s.due) | none => tickOf s.due)) do
    let (wake, s) ← stepAt fun tick n => (n, wakeOf n tick deadline s)
    match wake with
    | none => return some (.sweeper s)
    | some w =>
      let (pending, next) := Sweeper.wakeUp s.pending w
      match next with
      | .wait => return some (.sweeper (listeningAs pending s))
      | .sweep => do
        discard sweep
        return some (.sweeper (listeningAs pending s))
      | .stop => do
        step fun n => ({ n with sweepersStopped := n.sweepersStopped + 1 }, ())
        return none

/-- What a new sweeper subscribes to. -/
def subscription (n : Node) : Subscription :=
  match n.feed with
  | .store => .position n.memoryStore.feed.sent
  | .absent => .absent
  | .rehearsed events => .rehearsed events

/-- The beginning of a sweeper: it subscribes, and its interval is over at once.  Without an
interval there is no sweeper. -/
def sweeperBegin : Act (Option Work) :=
  stepAt fun tick n =>
    if n.sweeping.interval.isZero then ({ n with sweepersStopped := n.sweepersStopped + 1 }, none)
    else (n, some (.sweeper ⟨{}, MemoryCache.nanosAt tick, 0, subscription n⟩))

/-- Starts a sweeper. -/
def startSweeper : Act Unit := do
  step fun n => ({ n with sweepersStarted := n.sweepersStarted + 1, signal := {} }, ())
  .spawn .sweeperStart (pure ())

/-- Gives the stop order, or withdraws it. -/
def signalSweeper (stop : Bool) : Act Unit :=
  step fun n => ({ n with signal := ⟨n.signal.count + 1, stop⟩ }, ())

/-- Stops the sweeper and waits until it has stopped. -/
def stopSweeper : Act Unit := do
  signalSweeper true
  until_ fun n => n.sweepersStarted ≤ n.sweepersStopped

/-! ## Running -/

/-- Removes a key from the cache and marks the removal as over. -/
def forgetTurn (key : SessionKey) (ticket : Nat) : Act (Option Work) := do
  forgetWithin (← read (·.settings.cacheTimeout)) key
  step (markForgotten ticket)
  return none

/-- What a task does. -/
def body : Work → Task Node Work
  | .lane i => laneTurn deliver i
  | .forget key ticket => forgetTurn key ticket
  | .sweeperStart => sweeperBegin
  | .sweeper s => sweeperTurn s

/-- A node with its lanes' workers, before anything has happened. -/
def start (n : Node) : Machine Node Work where
  world := n
  ready := (List.range n.lanes.count).map fun i => laneTurn deliver i

/-- How many rounds a run may take. -/
def roundLimit : Nat := 1000000000

/-- Lets activities of callers run side by side until all have finished. -/
def runAll {α : Type} (acts : List (Act α)) (m : Machine Node Work) :
    Option (List α) × Machine Node Work :=
  m.runAll body roundLimit acts

/-- Lets an activity of a caller run until it has finished. -/
def run {α : Type} (act : Act α) (m : Machine Node Work) : Option α × Machine Node Work :=
  m.run body roundLimit act

end SessionCluster.Node
