/-
  Warnings — what a caller is not told about was delivered.

  On a node, calls are made and dropped, events are dispatched, lanes are drained, workers work or
  stop, and the broker accepts, refuses, is slow or hangs, all in any order: a crowd that plays the
  parts of `Node.Part`.  Each event that was handed in has its own fate — rejected, refused, lost,
  published, or still to come — and others decide on it, while its caller waits.

  * `Node.ledger_rules` — the pact that keeps the ledger in order rules every such crowd;
  * `warnings_sound_and_complete` — **warnings name events of the call, each once and in order, and
    every event that they do not name was published before the call answered** (`Warned`); a sweep
    counts those that it was warned about; and collecting takes no longer than the lanes' limit,
    however many events there are.
-/
import SessionCluster.Proofs.Dealings
import SessionCluster.Proofs.Schedules

namespace SessionCluster

open Activity

/-! ## Parts -/

namespace Node

/-- What can be done on a node. -/
inductive Part where
  /-- A call, which keeps account of its events. -/
  | call (c : Call)
  /-- Events are handed in, and their outcomes are waited for. -/
  | dispatch (es : List Event)
  /-- The outcomes of events are waited for, whoever has handed them in. -/
  | collect (pending : PendingAcks)
  | drain (limit : Span)
  | task (w : Work)

namespace Part

def Answer : Part → Type
  | .call c => Dealings × c.Answer
  | .dispatch _ | .collect _ => List Warning
  | .drain _ => Except BrokerError Unit
  | .task _ => Option Work

def activity : (r : Part) → Activity Node Work r.Answer
  | .call c => ofProgram (answer c.storeLimit c.cacheLimit) (noting c.operation {})
  | .dispatch es => (enqueue es).bind warnings
  | .collect pending => warnings pending
  | .drain limit => Node.drain limit
  | .task w => body w

/-- The task that takes the place of one that has ended. -/
def next? : (r : Part) → r.Answer → Option Work
  | .task _, w => w
  | .call _, _ | .dispatch _, _ | .collect _, _ | .drain _, _ => none

/-- By when a part is to be over that waits for nothing but outcomes of events, if it began at a
    moment. -/
def due? : Part → Moment Node → Option Nat
  | .dispatch _, first | .collect _, first => some (first.tick + first.state.lanes.ackTimeout.ticks)
  | .call _, _ | .drain _, _ | .task _, _ => none

/-- What holds of an answer when it is given. -/
def post : (r : Part) → Moment Node → r.Answer → History Node → Prop
  | .call c, _, (d, a), h =>
    c.Tells d a ∧ ∀ ws, d.warnings = some ws → Reported h d.events ws
  | .dispatch es, _, ws, h => Reported h es ws
  | .collect pending, _, ws, _ => (ws.map Warning.event).Sublist (pending.map Prod.fst)
  | .drain _, _, _, _ | .task _, _, _, _ => True

end Part

/-- All that can be done on a node. -/
def cast : Cast Node Work where
  Part := Part
  Answer := Part.Answer
  activity := Part.activity
  task := .task
  next? := Part.next?

/-! ## The ledger -/

/-- Everybody keeps the ledger in order, and answers well. -/
theorem part_safe (r : Part) {h : History Node} (hh : Ledger h) :
    Safe ledgerPact () (fun _ => True) (ledgerPact.Ends () (r.post h.now)) r.activity
      (.fresh h) := by
  have hsofar : InOrderSoFar (.fresh h) := inOrder_fresh hh
  have hnothing : Handed [] (.fresh h) := handed_nil hsofar
  cases r with
  | call c =>
    -- a call hands in what it announces, and answers with the warnings about it
    have hnoted : Noted {} (.fresh h) := ⟨hnothing, nofun⟩
    refine .mono (fun _ h => h) ?_ _ (noting_safe c.storeLimit c.cacheLimit _ c.closes hnoted)
    rintro ⟨d, a⟩ g ⟨htells, hg⟩
    exact ⟨hg.handed.soFar.fairly, htells, hg.reported⟩
  | dispatch es =>
    -- events handed in by themselves, with a look at their acknowledgements afterwards
    refine Safe.bind (enqueue es) ?_
    refine .mono (fun _ h => h) ?_ _ (enqueue_handed es hnothing)
    rintro acks g ⟨hnames, hg⟩
    refine .mono (fun _ h => h) ?_ _ (warnings_safe (fun _ _ => trivial) hg acks)
    intro ws g' hc
    have hreported := hc.reported
    rw [List.nil_append, hnames] at hreported
    exact ⟨hc.handed.soFar.fairly, hreported⟩
  | collect pending =>
    -- acknowledgements that are waited for, with nothing handed in
    refine .mono (fun _ h => h) ?_ _ (warnings_safe (fun _ _ => trivial) hnothing pending)
    exact fun ws g hc => ⟨hc.handed.soFar.fairly, hc.named⟩
  | drain limit =>
    -- a drain takes nothing out of the ledger
    have hlasting := Safe.of_respects inOrder_lasting (D := fun _ => True) (fun _ _ => trivial) _
      (drain_respects limit) hsofar
    exact .mono (fun _ h => h) (fun _ g hg => ⟨hg.fairly, trivial⟩) _ hlasting
  | task w => exact .mono (fun _ h => h) (fun _ g hg => ⟨hg, trivial⟩) _ (task_safe w hh)

/-- **The pact that keeps the ledger in order rules**, whatever the node suffers. -/
theorem ledger_rules : ledgerPact.Rules (K := cast) Suffered Part.post where
  poll hh hg := hh.poll hg _
  seen hg := hg.upholds
  pass hh _ := hh.pass _
  passSeen _ := .refl _
  change hh hn := hh.suffered hn _
  changeSeen hn := hn.upholds
  safe := part_safe

/-! ## Deadlines -/

/-- What waits for nothing but outcomes waits no longer than the limit of the lanes. -/
theorem part_waits (r : Part) (h : History Node) (due : Nat) (hdue : r.due? h.now = some due) :
    h.now.tick ≤ due ∧ (r.activity.poll (Turn.fresh h).poll).2.atRest = true ∧
      (r.activity.poll (Turn.fresh h).poll).2.WaitsTill due := by
  cases r with
  | dispatch es =>
    obtain rfl := Option.some.inj hdue
    refine ⟨Nat.le_add_right _ _, ?_⟩
    have hpoll : ((enqueue es).bind warnings).poll (Turn.fresh h).poll = _ :=
      poll_bind (poll_enqueue es _)
    have hkept := (Lanes.Adds.offerAll es h.now.state.lanes).ackTimeout
    show (((enqueue es).bind warnings).poll _).2.atRest = true ∧
      (((enqueue es).bind warnings).poll _).2.WaitsTill _
    rw [hpoll, ← hkept]
    exact warnings_wait _ _
  | collect pending =>
    obtain rfl := Option.some.inj hdue
    exact ⟨Nat.le_add_right _ _, warnings_wait pending _⟩
  | call c => cases hdue
  | drain limit => cases hdue
  | task w => cases hdue

end Node

/-! ## The result -/

/-- What warnings about some events tell that were given at a moment: the events that they do not
    name had been published by then. -/
def Crowd.ReportedAt (p : Crowd Node.cast) (last : Moment Node) (es : List Event)
    (ws : List Warning) : Prop :=
  ∃ h : History Node, h.now = last ∧ h.moments <:+ p.history.moments ∧ Reported h es ws

/-- What warnings tell. -/
structure Warned (p : Crowd Node.cast) : Prop where
  /-- Its account aside, a call is the operation that the node answers. -/
  plain : ∀ c : Call, ((Node.Part.call c).activity.bind fun x => .done x.2) =
    ofProgram (Node.answer c.storeLimit c.cacheLimit) c.operation
  /-- The answer of a call tells of its account: the warnings are those about its events, and a
      sweep counts them.  They report on the events. -/
  calls : ∀ {c first last d a}, ⟨.call c, some (first, last), .done (d, a)⟩ ∈ p.players →
    c.Tells d a ∧ ∀ ws, d.warnings = some ws → p.ReportedAt last d.events ws
  dispatches : ∀ {es first last ws}, ⟨.dispatch es, some (first, last), .done ws⟩ ∈ p.players →
    p.ReportedAt last es ws
  collections : ∀ {pending first last ws},
    ⟨.collect pending, some (first, last), .done ws⟩ ∈ p.players →
      (ws.map Warning.event).Sublist (pending.map Prod.fst)
  /-- Whoever waits for nothing but outcomes has answered in time; or there is time left, and when
      it is over, nobody else is needed for an answer. -/
  inTime : ∀ q ∈ p.players, ∀ first last due, q.polls = some (first, last) →
    Node.Part.due? q.part first = some due →
      last.tick ≤ due ∧ (p.history.now.tick ≤ due ∨ ∃ a, q.rest = .done a) ∧
        ∀ m : Machine Node Work, due ≤ m.now → ∃ a, (m.advance Node.body q.rest).1 = .done a

/-- **Warnings are sound and complete.**  Whatever happens on a node whose lanes were just made,
    warnings name events of their call, each once and in the order in which they were handed in,
    and every event that they do not name had been published when the call answered; and it takes no
    longer than the limit of the lanes to collect them. -/
theorem warnings_sound_and_complete {n : Node} {c : LaneSettings} (hn : n.lanes = .make c)
    {p : Crowd Node.cast} (hr : Crowd.Runs Node.Suffered ⟨⟨⟨0, n⟩, []⟩, []⟩ p) : Warned p := by
  have hstart : Crowd.Kept (K := Node.cast) Node.ledgerPact Node.Part.post ⟨⟨⟨0, n⟩, []⟩, []⟩ :=
    ⟨Ledger.start hn, fun q hq => absurd hq List.not_mem_nil⟩
  have hkept := hstart.runs Node.ledger_rules hr
  have htime := Crowd.OnTime.runs Node.part_waits (fun q hq => absurd hq List.not_mem_nil) hr
  -- whoever has answered has answered well
  have hanswered : ∀ {r : Node.Part} {first last : Moment Node} {a : r.Answer},
      (⟨r, some (first, last), .done a⟩ : Player Node.cast) ∈ p.players →
        ∃ h : History Node, h.now = last ∧ h.moments <:+ p.history.moments ∧ r.post first a h := by
    intro r first last a hq
    obtain ⟨since, hcontinues, hlast, _, hpost⟩ := (hkept.players _ hq).begun first last rfl
    exact ⟨since, hlast, hcontinues.suffix, hpost⟩
  refine ⟨?plain, ?calls, ?dispatches, ?collections, ?inTime⟩
  case plain =>
    intro c
    refine (ofProgram_bind _ (noting c.operation {}) fun x => .done x.2).symm.trans ?_
    rw [noting_answer]
  case calls =>
    intro c first last d a hq
    obtain ⟨h, hlast, hsuffix, htells, hreported⟩ := hanswered hq
    exact ⟨htells, fun ws hws => ⟨h, hlast, hsuffix, hreported ws hws⟩⟩
  case dispatches =>
    intro es first last ws hq
    exact hanswered hq
  case collections =>
    intro pending first last ws hq
    obtain ⟨h, _, _, hnamed⟩ := hanswered hq
    exact hnamed
  case inTime =>
    intro q hq first last due hpolls hdue
    have hontime := (htime q hq).begun first last due hpolls hdue
    exact ⟨hontime.polled, hontime.unfinished, fun m hm => hontime.waits.finishes Node.body m hm⟩

/-! ## A run -/

/-- What a player has answered about events: these events, and the warnings. -/
def Player.warned? : Player Node.cast → Option (List Event × List Warning)
  | ⟨.call _, _, .done (d, _)⟩ => d.warnings.map fun ws => (d.events, ws)
  | ⟨.dispatch es, _, .done ws⟩ => some (es, ws)
  | _ => none

namespace Sample

/-- One lane, which has room for one event and lets callers wait for fifty milliseconds. -/
def hasty : LaneSettings := { partitions := 1, capacity := 1, ackTimeout := .ofMillis 50 }

def hastyNode : Node := { clock := .running .epoch, lanes := .make hasty, settings }

/-- A session is created for a second, and later again: its end and the new session are announced
    at once.  Then the worker stops, and another event is dispatched. -/
def lateEvents : List (Prompt Node.cast) :=
  let create : Prompt Node.cast := .join (.call (.create settings key .null (.ofMillis 1000)))
  [.join (.task (.lane 0)), .poll 0, create, .poll 1, .poll 2, .poll 1, .poll 0, .poll 1, .renew 0,
   .poll 0, .pass 1000, create, .poll 3, .poll 4, .poll 3, .poll 0, .poll 3, .poll 3, .leave 0,
   .join (.dispatch [⟨eventIdOf 9, ⟨key, version 4, .updated, second 1⟩⟩]), .poll 4, .pass 1050,
   .poll 4]

/-- The node, after all that. -/
def late : Crowd Node.cast := .follow ⟨⟨⟨0, hastyNode⟩, []⟩, []⟩ lateEvents

end Sample

/-- The first event is delivered; of the two that are announced at once, the second finds no room;
    and the last one is still pending when the caller has waited as long as it may. -/
theorem sample_warnings_sound_and_complete :
    Sample.hastyNode.lanes = .make Sample.hasty ∧
      Crowd.Runs Node.Suffered ⟨⟨⟨0, Sample.hastyNode⟩, []⟩, []⟩ Sample.late ∧
      ((Sample.late.players.filterMap Player.warned?).map fun x =>
        (x.1.map (·.change.kind), x.2.map (·.event.change.kind))) =
          [([.created], []), ([.expired, .created], [.created]), ([.updated], [.updated])] ∧
      Warned Sample.late := by
  have hr : Crowd.Runs Node.Suffered ⟨⟨⟨0, Sample.hastyNode⟩, []⟩, []⟩ Sample.late :=
    Crowd.runs_follow _ _
  exact ⟨rfl, hr, by decide +kernel, warnings_sound_and_complete rfl hr⟩

end SessionCluster
