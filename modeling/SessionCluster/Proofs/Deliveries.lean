/-
  Deliveries — the workers of the lanes keep the ledger in order.

  A worker takes a job out of its lane, so the job is in the ledger.  It publishes the event, through
  all retries and their limits, while others act; when the publication succeeds, the broker has
  taken the event's envelope in the same poll (`deliver_safe`), in which the worker also records the
  success (`laneTurn_safe`).  All other tasks, and drains, only add jobs (`task_safe`,
  `drain_respects`).
-/
import SessionCluster.Proofs.Ledgers

namespace SessionCluster

open Activity Node

/-! ## Publications -/

/-- The broker is as it was when the poll began. -/
structure Unpublished (g : Turn Node Work) : Prop where
  bus : g.state.bus.bus = g.history.now.state.bus.bus
  server : g.state.server = g.history.now.state.server

section

variable {A D : Turn Node Work → Prop} {env : Envelope} {g : Turn Node Work}

/-- What holds after a publication: if it was a success, the broker has taken the envelope in this
    poll. -/
def Published (A : Turn Node Work → Prop) (env : Envelope) (r : Except BrokerError Unit)
    (g : Turn Node Work) : Prop :=
  A g ∧ (r = .ok () → g.history.now.state.Takes g.state env)

/-- What is relied on while waiting, from one moment to a later one. -/
theorem upholds_of_continues {h h' : History Node}
    (hc : h.Continues (ledgerPact.meanwhile ()) h') : h.now.state.Upholds h'.now.state :=
  hc.relates (R := fun m m' : Moment Node => m.state.Upholds m'.state) (fun _ => .refl _)
    (fun _ _ _ => .trans) fun _ _ h => h

/-- A bus stays a bus, and a poll that begins has published nothing. -/
theorem waiting_lasting (hA : ledgerPact.Lasting () Adds A) :
    ledgerPact.Lasting () Eq fun g =>
      A g ∧ Unpublished g ∧ ∃ b, g.state.transport = .bus b where
  allowed hg := hA.allowed hg.1
  act := by
    rintro g n hg rfl
    exact hg
  launch := by
    rintro g x ⟨hg, hfresh, hbus⟩
    exact ⟨hA.launch hg, ⟨hfresh.bus, hfresh.server⟩, hbus⟩
  resume := by
    rintro g h d ⟨hg, _, b, hb⟩ hh
    exact ⟨hA.resume hg hh, ⟨rfl, rfl⟩, (upholds_of_continues hh.continues).broker b hb⟩

/-- A server that agrees to a command was sent it. -/
theorem sent_of_answer {s : RehearsedServer} {c : KeyValue.Command} {text : String}
    (h : KeyValue.textOf (s.answer c).2 = .ok text) : (s.answer c).1.sent = c :: s.sent := by
  unfold RehearsedServer.answer at h ⊢
  split
  · rename_i hlost
    rw [if_pos hlost] at h
    cases h
  · rfl

/-- A bus that ends a publication with success has accepted the envelope. -/
theorem accepted_of_finish {b : RehearsedBus} (h : (b.finish env).2 = .ok ()) :
    (b.finish env).1.bus.accepted = env :: b.bus.accepted := by
  have hpublish : (b.bus.publish env).2 = .ok () := h
  rcases b.bus.publish_cases env with ⟨_, haccepted⟩ | ⟨err, herror, _⟩
  · exact haccepted
  · rw [herror] at hpublish
    cases hpublish

theorem onBus_of_transport {α : Type} {n : Node} {b : RehearsedBus} (h : n.transport = .bus b)
    (f : RehearsedBus → RehearsedBus × α) :
    n.onBus f = ({ n with transport := .bus (f b).1 }, (f b).2) := by
  unfold onBus
  rw [h]

/-- One publication to a server. -/
theorem append_safe (hA : ledgerPact.Lasting () Adds A) (hg : A g) (hfresh : Unpublished g)
    {s : KeyValue.StreamSettings} (hs : g.state.transport = .streams s) :
    Safe ledgerPact () D (Published A env) (exchange (KeyValue.publish s env)) g := by
  refine ⟨hA.act hg (.of_retains (.of_same rfl rfl rfl rfl rfl)), fun hr => ?_⟩
  have htext : ∃ text, KeyValue.textOf
      (g.state.server.answer (KeyValue.appendCommand s env)).2 = .ok text := by
    cases hreply : KeyValue.textOf (g.state.server.answer (KeyValue.appendCommand s env)).2 with
    | ok text => exact ⟨text, rfl⟩
    | error f =>
      rw [hreply] at hr
      cases hr
  obtain ⟨text, htext⟩ := htext
  have hsent := sent_of_answer htext
  rw [hfresh.server] at htext hsent
  refine .streams (s := s) hs ?_ htext
  show (g.state.server.answer (KeyValue.appendCommand s env)).1.sent = _
  rw [hfresh.server]
  exact hsent

/-- One publication to a bus. -/
theorem offer_safe (hA : ledgerPact.Lasting () Adds A) (hD : ∀ g, A g → D g) (hg : A g)
    (hfresh : Unpublished g) {b : RehearsedBus} (hb : g.state.transport = .bus b) :
    Safe ledgerPact () D (Published A env)
      ((stepAt fun tick n => n.onBus fun b => b.begin env tick).bind fun how =>
        (delay how.delay).bind fun _ =>
          if how.hangs then .never
          else match how.failure with
            | some err => .done (.error err)
            | none => step (onBus fun b => b.finish env)) g := by
  have hwaiting : A (g.reach (g.state.onBus fun b => b.begin env g.tick).1) ∧
      Unpublished (g.reach (g.state.onBus fun b => b.begin env g.tick).1) ∧
        ∃ b', (g.state.onBus fun b => b.begin env g.tick).1.transport = .bus b' := by
    refine ⟨hA.act hg (.of_retains (.onBus _ _)), ?_⟩
    rw [onBus_of_transport hb]
    refine ⟨⟨?_, hfresh.server⟩, _, rfl⟩
    show (b.begin env g.tick).1.bus = g.history.now.state.bus.bus
    rw [(b.begin_records env g.tick).2, ← bus_of_transport hb]
    exact hfresh.bus
  refine Safe.bind (.stepAt _) (Safe.bind (delay _) ?_)
  refine .mono (fun _ h => h) ?_ _ (Safe.of_respects (waiting_lasting hA) (fun g hg => hD g hg.1) _
    (delay_respects (fun _ => rfl) _) hwaiting)
  rintro _ g' ⟨hg', hfresh', b', hb'⟩
  split
  · -- it never answers
    exact ⟨hA.allowed hg', fun h hh => hD _ (hA.resume hg' hh)⟩
  · split
    · exact ⟨hg', nofun⟩
    · refine ⟨hA.act hg' (.of_retains (.onBus _ g'.state)), fun hr => .bus ?_⟩
      have hbus : g'.history.now.state.bus.bus = b'.bus := by
        rw [← hfresh'.bus, bus_of_transport hb']
      rw [onBus_of_transport hb'] at hr
      show (g'.state.onBus fun b => b.finish env).1.bus.bus.accepted =
        env :: g'.history.now.state.bus.bus.accepted
      rw [onBus_of_transport hb', hbus]
      exact accepted_of_finish hr

/-- **One publication.** -/
theorem transmit_safe (hA : ledgerPact.Lasting () Adds A) (hD : ∀ g, A g → D g) (hg : A g)
    (hfresh : Unpublished g) :
    Safe ledgerPact () D (Published A env) (transmit env) g := by
  refine Safe.bind (.read _) (.read ?_)
  cases ht : g.state.transport with
  | streams s => exact append_safe hA hg hfresh ht
  | bus b => exact offer_safe hA hD hg hfresh ht

/-- What the retries of a publication ask for. -/
def attempts (b : Backoff) (env : Envelope) (q : Publishing.Request) : Act (Publishing.Answer q) :=
  match q with
  | .attempt => Activity.within b.attemptTimeout (transmit env)
  | .pause d => sleep d

/-- After a pause, nothing has been published in the poll that begins. -/
theorem sleep_safe (hA : ledgerPact.Lasting () Adds A) (hD : ∀ g, A g → D g) (d : Span)
    (hg : A g) : Safe ledgerPact () D (fun _ g => A g ∧ Unpublished g) (sleep d) g := by
  refine ⟨hA.allowed hg, fun h hh => ?_⟩
  have hfresh : A (.fresh h) := hA.resume hg hh
  exact ⟨hD _ hfresh, fun _ => ⟨hfresh, ⟨rfl, rfl⟩⟩⟩

/-- An attempt, and then what follows its failure. -/
theorem attempt_safe (hA : ledgerPact.Lasting () Adds A) (hD : ∀ g, A g → D g) {b : Backoff}
    {left number : Nat}
    (hfailed : ∀ e : BrokerError, ∀ g, A g → Safe ledgerPact () D (Published A env)
      (ofProgram (attempts b env)
        (if !e.isTransient then .done (.error e)
          else match left with
            | 0 => .done (.error (e.withDetail "attempts" (Text.decimal number)))
            | left + 1 => .ask (.pause (b.delayAfter number)) fun _ =>
              Publishing.tries b left (number + 1))) g) (hg : A g) (hfresh : Unpublished g) :
    Safe ledgerPact () D (Published A env)
      (ofProgram (attempts b env) (Publishing.tries b left number)) g := by
  unfold Publishing.tries
  refine Safe.ofProgram (.within ?_)
  refine .mono (fun _ h => h) ?_ _ (transmit_safe hA ?_ hg hfresh)
  · rintro r g' ⟨hg', hr⟩ _
    cases r with
    | ok u => exact ⟨hg', fun _ => hr rfl⟩
    | error e => exact hfailed e g' hg'
  · -- the attempt may also be cut off
    exact fun g' hg' _ => ⟨hfailed _ g' hg', hD g' hg'⟩

/-- Attempts are made until one succeeds, or none is left. -/
theorem tries_safe (hA : ledgerPact.Lasting () Adds A) (hD : ∀ g, A g → D g) (b : Backoff)
    (left : Nat) :
    ∀ (number : Nat) {g : Turn Node Work}, A g → Unpublished g →
      Safe ledgerPact () D (Published A env)
        (ofProgram (attempts b env) (Publishing.tries b left number)) g := by
  induction left with
  | zero =>
    intro number g hg hfresh
    refine attempt_safe hA hD (fun e g' hg' => ?_) hg hfresh
    split
    · exact ⟨hg', nofun⟩
    · exact ⟨hg', nofun⟩
  | succ left ih =>
    intro number g hg hfresh
    refine attempt_safe hA hD (fun e g' hg' => ?_) hg hfresh
    split
    · exact ⟨hg', nofun⟩
    · refine Safe.ofProgram (.mono (fun _ h => h) ?_ _ (sleep_safe hA hD _ hg'))
      exact fun _ g'' ⟨hg'', hfresh''⟩ => ih (number + 1) hg'' hfresh''

/-- **A publication, with the node's retries.** -/
theorem deliver_safe (hA : ledgerPact.Lasting () Adds A) (hD : ∀ g, A g → D g) (hg : A g)
    (hfresh : Unpublished g) :
    Safe ledgerPact () D (Published A env) (deliver env) g := by
  refine Safe.bind (.read _) (.read ?_)
  cases g.state.backoff with
  | none => exact transmit_safe hA hD hg hfresh
  | some b => exact tries_safe hA hD b _ _ hg hfresh

end

/-! ## Workers -/

/-- A worker has a job of the ledger in hand, on a node with a name. -/
structure Working (j : Job) (name : NodeName) (g : Turn Node Work) : Prop where
  soFar : InOrderSoFar g
  issued : Issued g.history j
  named : g.history.now.state.name = name

/-- The work on a job outlasts everything that only adds jobs. -/
theorem working_lasting (j : Job) (name : NodeName) :
    ledgerPact.Lasting () Adds (Working j name) where
  allowed hg := hg.soFar.fairly
  act hg hn := ⟨hg.soFar.adds hn, hg.issued, hg.named⟩
  launch hg := ⟨inOrder_lasting.launch hg.soFar, hg.issued, hg.named⟩
  resume := by
    intro g h d hg hh
    refine ⟨inOrder_fresh hh.inv, ?_, ?_⟩
    · have hended : Issued g.ended j := issued_push.mpr (.inl hg.issued)
      exact hended.continues hh.continues
    · have hkept := hg.soFar.fairly.upholds.trans (upholds_of_continues hh.continues)
      exact (congrArg CoordinatorSettings.node hkept.settings).trans hg.named

/-- **A job is done**, and a success is recorded only for what was published. -/
theorem doJob_safe {j : Job} {g : Turn Node Work} (hg : InOrderSoFar g)
    (hj : Issued g.history j) (hfresh : Unpublished g) :
    Safe ledgerPact () (fun _ => True) (fun _ => ledgerPact.allows ()) (doJob deliver j) g := by
  cases j with
  | publish e ticket =>
    refine Safe.bind (.read _) (Safe.bind (deliver _) ?_)
    have hname : g.history.now.state.name = g.state.name :=
      (congrArg CoordinatorSettings.node hg.fairly.upholds.settings).symm
    refine .mono (fun _ _ => trivial) ?_ _
      (deliver_safe (D := fun _ => True) (working_lasting (.publish e ticket) g.state.name)
        (fun _ _ => trivial) ⟨hg, hj, hname⟩ hfresh)
    rintro r g' ⟨hworking, hr⟩
    refine hworking.soFar.settle hworking.issued fun hok => ?_
    rintro e' ⟨⟩
    show g'.history.now.state.Takes g'.state _
    rw [hworking.named]
    exact hr hok
  | flush ticket =>
    refine hg.settle hj fun _ => ?_
    rintro e ⟨⟩

/-- **The worker of a lane keeps the ledger in order.** -/
theorem laneTurn_safe (i : Nat) {h : History Node} (hh : Ledger h) :
    Safe ledgerPact () (fun _ => True) (fun _ => ledgerPact.allows ()) (laneTurn deliver i)
      (.fresh h) := by
  refine .wait (.refl hh) fun h' hh' => ⟨trivial, fun _ => ?_⟩
  refine Safe.bind (.step _) (.step ?_)
  have hsofar : InOrderSoFar
      ((Turn.fresh h').reach (h'.now.state.onLanes fun l => l.take i).1) :=
    (inOrder_fresh hh'.inv).take i
  cases hq : h'.now.state.lanes.queue i with
  | nil =>
    have hnone : ((Turn.fresh h' : Turn Node Work).state.onLanes fun l => l.take i).2 = none := by
      show (h'.now.state.lanes.take i).2 = none
      unfold Lanes.take
      rw [hq]
    rw [hnone]
    exact hsofar.fairly
  | cons j rest =>
    have hsome : ((Turn.fresh h' : Turn Node Work).state.onLanes fun l => l.take i).2 = some j := by
      show (h'.now.state.lanes.take i).2 = some j
      rw [Lanes.take_cons hq]
    have hissued : Issued h' j := .now (i := i) (by rw [hq]; exact List.mem_cons_self ..)
    rw [hsome]
    exact Safe.bind (doJob deliver j) (doJob_safe hsofar hissued ⟨rfl, rfl⟩)

/-! ## Everybody else -/

/-- A drain adds flushes to the lanes, and takes nothing away. -/
theorem Node.drain_respects (d : Span) : (drain d).Respects Adds := by
  have hflushes : ∀ is, (flushLanes is).Respects Adds := by
    intro is
    induction is with
    | nil => exact .done _
    | cons i is ih =>
      exact .bind (.step (.onLanes fun l => .pushFlush l i)) fun _ => .bind ih fun _ => .done _
  have hflush : flush.Respects Adds :=
    .bind (.read .refl _) fun _ => .bind (hflushes _) fun _ => .bind (hflushes _) fun _ => trivial
  refine .bind (.step (.onLanes fun l => .close l)) fun _ => ?_
  refine .bind (.within .refl _ hflush) fun r => ?_
  cases r <;> exact .done _

/-- **Every task keeps the ledger in order.** -/
theorem task_safe (w : Work) {h : History Node} (hh : Ledger h) :
    Safe ledgerPact () (fun _ => True) (fun _ => ledgerPact.allows ()) (body w) (.fresh h) := by
  have hadds : ∀ {p : Task Node Work}, p.Respects Adds →
      Safe ledgerPact () (fun _ => True) (fun _ => ledgerPact.allows ()) p (.fresh h) := fun hp =>
    .mono (fun _ h => h) (fun _ g hg => inOrder_lasting.allowed hg) _
      (Safe.of_respects inOrder_lasting (fun _ _ => trivial) _ hp (inOrder_fresh hh))
  cases w with
  | lane i => exact laneTurn_safe i hh
  | forget key ticket => exact hadds (forgetTurn_respects key ticket)
  | sweeperStart => exact hadds sweeperBegin_respects
  | sweeper s => exact hadds (sweeperTurn_respects s)

end SessionCluster
