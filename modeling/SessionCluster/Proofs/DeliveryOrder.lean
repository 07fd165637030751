/-
  The order of delivery — what the broker accepts about a session, it accepts in order.

  Writes queue their events in the poll in which they commit, so the events of a session wait in the
  order of its versions.  They all wait in one lane, and one worker takes them out, one at a time,
  and begins the next only when it is done with the one before.  Events that are shed or given up
  leave gaps; events that are tried again may be accepted again.  Neither changes the order.

  So of two different events that were accepted about a session, the later one has the higher
  version (`accepted_in_order`), whatever fails and whoever writes.  At the last version, which is
  its own successor, this is no longer strict (`last_version_repeats`).
-/
import SessionCluster.Proofs.Staleness

namespace SessionCluster

/-! ## Repeats -/

namespace Envelope

/-- The first envelope of every event. -/
def once : List Envelope → List Envelope
  | [] => []
  | e :: es => e :: (once es).filter (·.eventId ≠ e.eventId)

theorem once_sublist (es : List Envelope) : (once es).Sublist es := by
  induction es with
  | nil => exact .slnil
  | cons e es ih => exact (List.filter_sublist.trans ih).cons_cons e

/-- No event is left twice. -/
theorem once_distinct (es : List Envelope) :
    (once es).Pairwise fun a b => a.eventId ≠ b.eventId := by
  induction es with
  | nil => exact .nil
  | cons e es ih =>
    refine List.pairwise_cons.mpr ⟨?_, ih.filter _⟩
    intro e' he'
    have hne : e'.eventId ≠ e.eventId := by simpa using (List.mem_filter.mp he').2
    exact hne.symm

end Envelope

/-! ## What was accepted -/

/-- What the broker has accepted about a session, in order. -/
theorem acceptedAbout_eq (n : Node) (id : String) :
    n.pipeline.acceptedAbout id = (n.bus.bus.about id).map Envelope.stamp := by
  have hfilter : (fun e : Envelope => decide (e.aggregateId = id)) =
      fun e => e.aggregateId == id := by
    funext e
    rw [Bool.beq_eq_decide_eq]
  unfold Pipeline.acceptedAbout MemoryBus.about MemoryBus.events
  rw [← List.map_reverse, ← List.filter_reverse, hfilter]
  rfl

/-- In a list in which stamps are in order, versions rise once repeats are left out. -/
theorem once_rises {es : List Envelope} (h : (es.map Envelope.stamp).Pairwise InOrder) :
    ((Envelope.once es).map Envelope.version).Pairwise Rises := by
  have horder : (Envelope.once es).Pairwise fun a b => InOrder a.stamp b.stamp :=
    (List.pairwise_map.mp h).sublist (Envelope.once_sublist es)
  refine List.pairwise_map.mpr ((horder.and (Envelope.once_distinct es)).imp ?_)
  rintro a b ⟨hab, hne⟩
  rcases hab with hid | hrises
  · exact absurd hid hne
  · exact hrises

/-- The terms under which anything is vouched for. -/
def Terms.lax (n : Node) : Terms := ⟨fun _ _ _ => True, n.cacheKind, n.hasBus, id⟩

variable {n : Node} {calls : Call → Prop} {p : Process}

/-- Every run keeps to the terms. -/
theorem Node.Idle.kept (hn : n.Idle) (hp : Process.Runs (.rough calls) (.start n) p) :
    p.Kept (Terms.lax n).pact (.rough calls) (Terms.lax n).post := by
  have hgoverns := Terms.governs (T := .lax n) (C := .rough calls)
    (fun _ _ _ _ _ _ _ _ _ _ _ => trivial) fun _ _ hn => hn
  exact Process.Kept.runs hgoverns (.start (hn.inv rfl rfl fun _ _ => trivial)) hp

/-- What was accepted about a session does not go beyond its version in the store. -/
theorem Pipeline.InLine.accepted_le {q : Pipeline} (hq : q.InLine) {key : SessionKey} {s : Stamp}
    (hs : s ∈ q.acceptedAbout key.text) : s.version ≤ q.slots.versionOf key := by
  unfold acceptedAbout at hs
  obtain ⟨e, he, rfl⟩ := List.mem_map.mp (List.mem_reverse.mp hs)
  obtain ⟨hsent, hid⟩ := List.mem_filter.mp he
  refine hq.below key _ (List.mem_append_left _ ?_)
  unfold begunAbout
  exact List.mem_reverse.mpr (List.mem_map.mpr ⟨e, List.mem_filter.mpr ⟨hq.sent e hsent, hid⟩, rfl⟩)

/-- **What was accepted was accepted in order.**  In every run of a process, whatever calls are made,
    however many lanes there are and however few events they hold, and whatever becomes of the
    backends: of two different events that the broker has accepted about a session, the later one
    has the higher version, or the last version there is.  While the session is below the last
    version, it always has the higher one. -/
theorem accepted_in_order (hn : n.Idle) (hp : Process.Runs (.rough calls) (.start n) p)
    (key : SessionKey) :
    ((Envelope.once (p.history.now.state.bus.bus.about key.text)).map
      Envelope.version).Pairwise Rises ∧
    (p.history.now.state.memoryStore.slots.versionOf key < lastVersion →
      ((Envelope.once (p.history.now.state.bus.bus.about key.text)).map
        Envelope.version).Pairwise (· < ·)) := by
  have hline := (hn.kept hp).inv.inLine
  have hrises : ((Envelope.once (p.history.now.state.bus.bus.about key.text)).map
      Envelope.version).Pairwise Rises := by
    refine once_rises ?_
    rw [← acceptedAbout_eq]
    exact hline.arrived key.text
  refine ⟨hrises, fun hbelow => hrises.imp_of_mem ?_⟩
  intro a b _ hb hab
  -- the later one is not beyond the store, so it is below the last version
  obtain ⟨e, he, rfl⟩ := List.mem_map.mp hb
  have hmem : e.stamp ∈ p.history.now.state.pipeline.acceptedAbout key.text := by
    rw [acceptedAbout_eq]
    exact List.mem_map_of_mem ((Envelope.once_sublist _).subset he)
  have hle : e.version ≤ p.history.now.state.memoryStore.slots.versionOf key :=
    hline.accepted_le hmem
  exact hab.lt (by omega)

/-- Two writes were announced, and accepted in their order. -/
theorem sample_accepted_in_order :
    ((Envelope.once (Sample.stale.history.now.state.bus.bus.about "s")).map Envelope.version) =
      [1, 2] ∧ [1, 2].Pairwise (· < ·) := by
  have htwo : ((Envelope.once (Sample.stale.history.now.state.bus.bus.about "s")).map
      Envelope.version) = [1, 2] := by decide +kernel
  have hbelow : Sample.stale.history.now.state.memoryStore.slots.versionOf Sample.key <
      lastVersion := by decide +kernel
  have hrises :=
    (accepted_in_order Sample.vacantNode_vacant.toIdle Sample.runs_stale Sample.key).2 hbelow
  exact ⟨htwo, htwo ▸ hrises⟩

/-! ## The last version -/

namespace Sample

/-- A record at the version before the last. -/
def ancient : Record :=
  { Record.create key .null (.ofMillis 60000) settings.node .epoch with
    version := version 18446744073709551614 }

/-- A node that holds it. -/
def ancientNode : Node :=
  { vacantNode with store := .memory { slots := ⟨[(key, .live ancient)]⟩ } }

/-- Two updates, each of which is published. -/
def lastUpdates : List Cue :=
  [.poll 0, .call (.update settings key (version 18446744073709551614) (.bool false)), .poll 1,
   .poll 2, .poll 1, .poll 0, .poll 1, .renew 0, .poll 0,
   .call (.update settings key (version 18446744073709551615) (.bool true)), .poll 3, .poll 4,
   .poll 3, .poll 0, .poll 3]

/-- The process after both. -/
def atLast : Process := (Process.start ancientNode).follow lastUpdates

end Sample

/-- **At the last version the order is not strict**: an update of a session that stands at the last
    version is accepted by the store, and announced with the last version once more. -/
theorem last_version_repeats :
    Process.Runs (.rough fun _ => True) (.start Sample.ancientNode) Sample.atLast ∧
      ¬ ((Envelope.once (Sample.atLast.history.now.state.bus.bus.about Sample.key.text)).map
        Envelope.version).Pairwise (· < ·) := by
  constructor
  · refine Process.runs_follow Sample.lastUpdates ?_ _
    simp only [Sample.lastUpdates, List.forall_mem_cons]
    exact ⟨trivial, trivial, trivial, trivial, trivial, trivial, trivial, trivial, trivial, trivial,
      trivial, trivial, trivial, trivial, trivial, nofun⟩
  · have htwice : (Envelope.once
        (Sample.atLast.history.now.state.bus.bus.about Sample.key.text)).map Envelope.version =
        [18446744073709551615, 18446744073709551615] := by decide +kernel
    rw [htwice]
    decide

end SessionCluster
