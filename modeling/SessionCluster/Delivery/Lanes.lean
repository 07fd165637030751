/-
  Lanes — the queues through which events leave a node, in order.

  Every session has a lane, chosen by the partition of its key, and one worker per lane publishes
  what it holds, one job at a time.  Handing in events takes no time: each is either queued, with
  a ticket under which its outcome will be found, or rejected at once, because the lanes are
  closed or its lane is full.

  Closing is final.  A flush job at the end of a lane tells when everything before it has been
  tried.
-/
import SessionCluster.Session.Fault

namespace SessionCluster

/-- A job of a lane's worker. -/
inductive Job where
  | publish (event : Event) (ticket : Nat)
  | flush (ticket : Nat)
deriving DecidableEq

/-- Why an event was not queued. -/
inductive Rejection where
  | closed
  | full
  | stopped
deriving DecidableEq

def Rejection.reason : Rejection → String
  | .closed => "event dispatcher is closed"
  | .full => "dispatch lane is full"
  | .stopped => "dispatcher worker stopped"

/-- What becomes of an event that was handed in. -/
inductive Ack where
  | queued (ticket : Nat)
  | rejected (why : Rejection)
deriving DecidableEq

/-- Events that were handed in, with what becomes of each. -/
abbrev PendingAcks := List (Event × Ack)

/-- The parameters of a set of lanes. -/
structure LaneSettings where
  partitions : Nat := 16
  ackTimeout : Span := .ofMillis 10000
  capacity : Nat := 4096
deriving DecidableEq

/-- The most jobs for which a lane can be given room. -/
def greatestCapacity : Nat := 2305843009213693951

/-- Whether lanes with these parameters can be made. -/
def LaneSettings.fit (s : LaneSettings) : Bool := s.capacity ≤ greatestCapacity

/-- A set of lanes.  `results` holds the outcomes of finished tickets, a flush counting as a
success. -/
structure Lanes where
  queues : Array (List Job)
  capacity : Nat
  ackTimeout : Span
  closed : Bool := false
  nextTicket : Nat := 0
  results : List (Nat × Except BrokerError Unit) := []

namespace Lanes

/-- The lanes with given parameters: at least one, and room for at least one job in each. -/
def make (s : LaneSettings) : Lanes where
  queues := Array.replicate (max 1 s.partitions) []
  capacity := max 1 s.capacity
  ackTimeout := s.ackTimeout

/-- How many lanes there are. -/
def count (l : Lanes) : Nat := l.queues.size

/-- The jobs queued in a lane. -/
def queue (l : Lanes) (i : Nat) : List Job := l.queues.getD i []

/-- Whether a lane has room for another job. -/
def hasRoom (l : Lanes) (i : Nat) : Bool := (l.queue i).length < l.capacity

/-- Adds a job to a lane. -/
def push (l : Lanes) (i : Nat) (j : Job) : Lanes :=
  { l with queues := l.queues.modify i (· ++ [j]) }

/-- Hands in an event. -/
def offer (l : Lanes) (e : Event) : Lanes × Ack :=
  if l.closed then (l, .rejected .closed)
  else
    let i := e.partition l.count
    if l.hasRoom i then
      ({ l.push i (.publish e l.nextTicket) with nextTicket := l.nextTicket + 1 },
        .queued l.nextTicket)
    else (l, .rejected .full)

/-- Hands in events, in order. -/
def offerAll (l : Lanes) : List Event → Lanes × PendingAcks
  | [] => (l, [])
  | e :: es =>
    let (l, ack) := l.offer e
    let (l, rest) := l.offerAll es
    (l, (e, ack) :: rest)

/-- Takes the next job out of a lane. -/
def take (l : Lanes) (i : Nat) : Lanes × Option Job :=
  match l.queue i with
  | [] => (l, none)
  | j :: _ => ({ l with queues := l.queues.modify i List.tail }, some j)

/-- Records the outcome of a ticket. -/
def settle (l : Lanes) (ticket : Nat) (r : Except BrokerError Unit) : Lanes :=
  { l with results := (ticket, r) :: l.results }

/-- The outcome of a ticket, once there is one. -/
def result? (l : Lanes) (ticket : Nat) : Option (Except BrokerError Unit) := l.results.lookup ticket

/-- Lets no more events in. -/
def close (l : Lanes) : Lanes := { l with closed := true }

/-- Adds a flush to a lane. -/
def pushFlush (l : Lanes) (i : Nat) : Lanes × Nat :=
  ({ l.push i (.flush l.nextTicket) with nextTicket := l.nextTicket + 1 }, l.nextTicket)

/-- The warning about an event, from its outcome or the lack of one when the wait was over. -/
def warning? (l : Lanes) (e : Event) (ack : Ack) : Option Warning :=
  match ack with
  | .rejected why => some ⟨e, why.reason⟩
  | .queued ticket =>
    match l.result? ticket with
    | some (.ok ()) => none
    | some (.error err) => some ⟨e, err.text⟩
    | none => some ⟨e, "delivery still pending after " ++ l.ackTimeout.text⟩

/-- Whether nothing more is to be waited for about an event. -/
def isSettled (l : Lanes) : Ack → Bool
  | .rejected _ => true
  | .queued ticket => (l.result? ticket).isSome

/-- The failure of a drain that did not finish. -/
def notDrained (deadline : Span) : BrokerError :=
  ⟨.brokerUnavailable, "Event queues not drained within " ++ deadline.text, []⟩

end Lanes

end SessionCluster
