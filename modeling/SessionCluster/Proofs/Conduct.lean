/-
  Conduct — the pact of the members of a node.

  The store is in memory and nothing is interposed.  A poll may move the events of the node along
  their pipeline, from the writes that they announce to the broker, and it may put copies into the
  cache for which it can vouch.  What it is to vouch for a copy is up to the `Terms`: of the
  record and the moment until which it will be served, by what has been so far.

  * `Conduct` — what a poll may do to the node: moves of the pipeline, and copies that are vouched
    for;
  * `Terms.Inv` — what holds at every moment: every event is in line, every record and every copy
    is under its own key, every copy is vouched for, and slots have only risen;
  * `Terms.pact` — the pact: only the worker of a lane begins publications in it, and on this it
    may rely;
  * `Node.Suffers` — what may happen to a node from outside: backends become slow or fail, copies
    and events get lost, and the broker accepts what was begun although nobody hears of it.

  `Terms.Steady` are the assertions that waiting and quiet changes leave alone, and the rules for
  the calls of a node on its backends are stated for them.
-/
import SessionCluster.Proofs.AllOrNothing
import SessionCluster.Proofs.Pipelines
import SessionCluster.Proofs.Processes

namespace SessionCluster

/-! ## What a poll may do -/

/-- The kinds of caches. -/
inductive CacheKind where
  | memory
  | absent
  | server
deriving DecidableEq

namespace Node

def cacheKind (n : Node) : CacheKind :=
  match n.cache with
  | .memory _ => .memory
  | .absent => .absent
  | .server _ => .server

/-- Whether the broker is a bus in memory. -/
def hasBus (n : Node) : Bool :=
  match n.transport with
  | .bus _ => true
  | .streams _ => false

/-- The copies in the cache in memory. -/
def copies (n : Node) : List (SessionKey × CacheEntry) := n.memoryCache.entries

/-- A change of nothing that matters: no copy is new. -/
structure Quiet (n n' : Node) : Prop where
  plain : n.Plain → n'.Plain
  kind : n'.cacheKind = n.cacheKind
  broker : n'.hasBus = n.hasBus
  /-- Store, queues and the broker's book stay as they are. -/
  pipeline : n'.pipeline = n.pipeline
  copies : ∀ x ∈ n'.copies, x ∈ n.copies

end Node

/-- What a poll of a member may do to a node, if some copies are vouched for. -/
structure Conduct (vouched : Record → Nat → Prop) (seat : Option Nat) (n n' : Node) : Prop where
  plain : n.Plain → n'.Plain
  kind : n'.cacheKind = n.cacheKind
  broker : n'.hasBus = n.hasBus
  /-- Store, queues and the broker's book change as the holder of this seat may change them. -/
  moves : Pipeline.Moves seat n.pipeline n'.pipeline
  /-- A new copy is one that is vouched for. -/
  copies : ∀ x ∈ n'.copies,
    x ∈ n.copies ∨ x.2.record.key = x.1 ∧ vouched x.2.record x.2.freshUntil

namespace Conduct

variable {vouched : Record → Nat → Prop} {seat : Option Nat} {n n' n'' : Node}

theorem refl (n : Node) : Conduct vouched seat n n := ⟨id, rfl, rfl, .refl, fun _ h => .inl h⟩

/-- What is allowed twice in a row is allowed at once. -/
theorem trans (h : Conduct vouched seat n n') (h' : Conduct vouched seat n' n'') :
    Conduct vouched seat n n'' := by
  refine ⟨fun hn => h'.plain (h.plain hn), h'.kind.trans h.kind, h'.broker.trans h.broker,
    h.moves.trans h'.moves, ?_⟩
  intro x hx
  rcases h'.copies x hx with hx | hx
  · exact h.copies x hx
  · exact .inr hx

theorem ofQuiet (h : n.Quiet n') : Conduct vouched seat n n' := by
  refine ⟨h.plain, h.kind, h.broker, ?_, fun x hx => .inl (h.copies x hx)⟩
  rw [h.pipeline]

end Conduct

/-! ## Terms -/

/-- What it is to vouch for a copy, by what has been so far; and which kinds of cache and broker
    there are. -/
structure Terms where
  vouches : History Node → Record → Nat → Prop
  kind : CacheKind
  hasBus : Bool
  push : ∀ {h m r t}, vouches h r t → vouches (h.push m) r t

namespace Terms

variable (T : Terms)

/-- What holds at every moment. -/
structure Inv (h : History Node) : Prop where
  plain : h.now.state.Plain
  kind : h.now.state.cacheKind = T.kind
  broker : h.now.state.hasBus = T.hasBus
  /-- The events of each session are on their way in order. -/
  inLine : h.now.state.pipeline.InLine
  keyed : h.now.state.pipeline.slots.Keyed
  /-- Every copy is vouched for, for as long as it may be served. -/
  copies : ∀ x ∈ h.now.state.copies,
    x.2.record.key = x.1 ∧ T.vouches h x.2.record x.2.freshUntil
  /-- Later moments have later stores. -/
  growing : h.moments.Pairwise fun later earlier =>
    earlier.tick ≤ later.tick ∧ earlier.state.pipeline.slots.Climbs later.state.pipeline.slots

/-- The pact of the members of a node. -/
def pact : NodePact where
  inv := T.Inv
  allows seat g :=
    Conduct (T.vouches g.history) seat g.history.now.state g.state ∧
      ∀ w ∈ g.started, w.lane? = none
  meanwhile
    | none, _, _ => True
    | some i, m, m' =>
      m'.state.pipeline.lanes = m.state.pipeline.lanes ∧
        ∀ id, partitionFor id m.state.pipeline.lanes = i →
          m'.state.pipeline.latest? id = m.state.pipeline.latest? id

variable {T} {h : History Node} {seat : Option Nat}

/-- Conduct keeps what holds at every moment. -/
theorem Inv.push (hh : T.Inv h) {t : Nat} {n : Node} (ht : h.now.tick ≤ t)
    (hn : Conduct (T.vouches h) seat h.now.state n) : T.Inv (h.push ⟨t, n⟩) := by
  refine ⟨hn.plain hh.plain, hn.kind.trans hh.kind, hn.broker.trans hh.broker,
    hn.moves.inLine hh.inLine, hn.moves.keyed hh.keyed, ?_, ?_⟩
  · intro x hx
    rcases hn.copies x hx with hx | ⟨hkey, hv⟩
    · obtain ⟨hkey, hv⟩ := hh.copies x hx
      exact ⟨hkey, T.push hv⟩
    · exact ⟨hkey, T.push hv⟩
  · refine List.pairwise_cons.mpr ⟨?_, hh.growing⟩
    intro m hm
    have hnow : m.tick ≤ h.now.tick ∧
        m.state.pipeline.slots.Climbs h.now.state.pipeline.slots := by
      rcases List.mem_cons.mp hm with rfl | hm
      · exact ⟨Nat.le_refl _, .refl _⟩
      · exact (List.pairwise_cons.mp hh.growing).1 m hm
    exact ⟨Nat.le_trans hnow.1 ht, hnow.2.trans hn.moves.climbs⟩

/-- What the worker of a lane relies on, others keep. -/
theorem Inv.meanwhile (hh : T.Inv h) {t : Nat} {n : Node} {vouched : Record → Nat → Prop}
    (hn : Conduct vouched seat h.now.state n) {seat' : Option Nat}
    (hseat : seat = none ∨ seat ≠ seat') : T.pact.meanwhile seat' h.now ⟨t, n⟩ := by
  cases seat' with
  | none => trivial
  | some i =>
    refine ⟨hn.moves.lanes, ?_⟩
    intro id hid
    refine hn.moves.latest hh.inLine ?_
    rcases hseat with rfl | hne
    · exact nofun
    · rwa [hid]

end Terms

/-! ## What happens from outside -/

/-- What may happen to a node from outside.  Its settings, its clock, its switches and the script
    of its broker may change at will; the content of the store stays. -/
structure Node.Suffers (n n' : Node) : Prop where
  plain : n.Plain → n'.Plain
  kind : n'.cacheKind = n.cacheKind
  broker : n'.hasBus = n.hasBus
  /-- Nobody else writes to the store. -/
  slots : n'.pipeline.slots = n.pipeline.slots
  copies : ∀ x ∈ n'.copies, x ∈ n.copies
  lanes : n'.pipeline.lanes = n.pipeline.lanes
  /-- Events may get lost from their queues. -/
  queued : ∀ i, (n'.pipeline.queued i).Sublist (n.pipeline.queued i)
  begun : n'.pipeline.begun = n.pipeline.begun
  /-- An envelope that was sent last may arrive late. -/
  accepted : n'.pipeline.accepted = n.pipeline.accepted ∨
    ∃ env : Envelope, n.pipeline.latest? env.aggregateId = some env ∧
      n'.pipeline.accepted = env :: n.pipeline.accepted

/-- What happens from outside is good conduct. -/
theorem Node.Suffers.conduct {vouched : Record → Nat → Prop} {n n' : Node} (h : n.Suffers n') :
    Conduct vouched none n n' := by
  refine ⟨h.plain, h.kind, h.broker, ?_, fun x hx => .inl (h.copies x hx)⟩
  have hlose : Pipeline.Move none n.pipeline { n.pipeline with queued := n'.pipeline.queued } :=
    .lose h.queued
  rcases h.accepted with hsame | ⟨env, hlast, hmore⟩
  · have heq : n'.pipeline = { n.pipeline with queued := n'.pipeline.queued } :=
      Pipeline.ext h.slots h.lanes rfl h.begun hsame
    rw [heq]
    exact .single hlose
  · have heq : n'.pipeline =
        { n.pipeline with
          queued := n'.pipeline.queued
          accepted := env :: n.pipeline.accepted } :=
      Pipeline.ext h.slots h.lanes rfl h.begun hmore
    rw [heq]
    exact .tail (.single hlose) (.accept hlast)

/-! ## Steady assertions -/

namespace Terms

variable {T : Terms} {seat : Option Nat}

/-- A turn in which everything has been allowed so far. -/
def At (T : Terms) (seat : Option Nat) (g : Turn Node Work) : Prop :=
  T.Inv g.history ∧ T.pact.allows seat g

/-- An assertion about turns that waiting, quiet changes and the start of tasks without a seat
    leave alone. -/
structure Steady (T : Terms) (seat : Option Nat) (A : Turn Node Work → Prop) : Prop where
  at_ : ∀ {g}, A g → T.At seat g
  /-- Nothing is lost by a change of nothing that matters, -/
  quiet : ∀ {g n}, A g → g.state.Quiet n → A (g.reach n)
  /-- by a task that is started, -/
  spawn : ∀ {g w}, A g → w.lane? = none → A (g.launch w)
  /-- or by waiting. -/
  later : ∀ {g h d}, A g → T.pact.Resumes seat d g.ended h → A (.fresh h)

theorem At.fresh {h : History Node} (hh : T.Inv h) : T.At seat (.fresh h) := by
  refine ⟨hh, .refl _, ?_⟩
  intro w hw
  cases hw

theorem At.quiet {g : Turn Node Work} {n : Node} (hg : T.At seat g) (hn : g.state.Quiet n) :
    T.At seat (g.reach n) :=
  ⟨hg.1, hg.2.1.trans (.ofQuiet hn), hg.2.2⟩

theorem At.spawn {g : Turn Node Work} {w : Work} (hg : T.At seat g) (hw : w.lane? = none) :
    T.At seat (g.launch w) := by
  refine ⟨hg.1, hg.2.1, ?_⟩
  intro w' hw'
  rcases List.mem_append.mp hw' with hw' | hw'
  · exact hg.2.2 w' hw'
  · rwa [List.mem_singleton.mp hw']

/-- That a poll is allowed so far is steady. -/
theorem at_steady : T.Steady seat (T.At seat) where
  at_ h := h
  quiet := At.quiet
  spawn := At.spawn
  later _ hh := .fresh hh.inv

theorem At.plain {g : Turn Node Work} (hg : T.At seat g) : g.state.Plain :=
  hg.2.1.plain hg.1.plain

theorem At.kind {g : Turn Node Work} (hg : T.At seat g) : g.state.cacheKind = T.kind :=
  hg.2.1.kind.trans hg.1.kind

theorem At.broker {g : Turn Node Work} (hg : T.At seat g) : g.state.hasBus = T.hasBus :=
  hg.2.1.broker.trans hg.1.broker

theorem At.inLine {g : Turn Node Work} (hg : T.At seat g) : g.state.pipeline.InLine :=
  hg.2.1.moves.inLine hg.1.inLine

theorem At.keyed {g : Turn Node Work} (hg : T.At seat g) : g.state.pipeline.slots.Keyed :=
  hg.2.1.moves.keyed hg.1.keyed

/-- Every copy is under its own key, and vouched for. -/
theorem At.copies {g : Turn Node Work} (hg : T.At seat g) {x : SessionKey × CacheEntry}
    (hx : x ∈ g.state.copies) :
    x.2.record.key = x.1 ∧ T.vouches g.history x.2.record x.2.freshUntil := by
  rcases hg.2.1.copies x hx with hx | hx
  · exact hg.1.copies x hx
  · exact hx

/-- Further conduct is allowed. -/
theorem At.reach {g : Turn Node Work} {n : Node} (hg : T.At seat g)
    (hn : Conduct (T.vouches g.history) seat g.state n) : T.At seat (g.reach n) :=
  ⟨hg.1, hg.2.1.trans hn, hg.2.2⟩

end Terms

end SessionCluster
