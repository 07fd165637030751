/-
  Collecting — what the warnings about some events tell, and how long one waits for them.

  Events are handed in and get their jobs in the ledger (`enqueue_handed`).  Whoever waits for
  their outcomes looks at them one after the other, all under one deadline, and names an event
  unless the outcome of its ticket is a success by then.  In a ledger that is in order, an event
  that is not named was published (`published_of_silence`).

  * `warnings_safe` — what is named are some of the events, in order; and each of them that was
    handed in and is not named was published (`Collected`);
  * `warnings_wait` — however many events there are, all waits are over when the limit of the lanes
    is.
-/
import SessionCluster.Proofs.Crowds
import SessionCluster.Proofs.Deliveries

namespace SessionCluster

open Activity Node

/-- What warnings about some events tell at the end of a history: they name some of the events, each
    once and in order, and every event that they do not name was published. -/
structure Reported (h : History Node) (es : List Event) (ws : List Warning) : Prop where
  named : (ws.map Warning.event).Sublist es
  others : ∀ e ∈ es, e ∈ ws.map Warning.event ∨ h.HasPublished e

/-! ## One event -/

/-- A warning names its event. -/
theorem Lanes.event_of_warning {l : Lanes} {e : Event} {ack : Ack} {w : Warning}
    (hw : l.warning? e ack = some w) : w.event = e := by
  cases ack with
  | rejected why =>
    cases hw
    rfl
  | queued ticket =>
    unfold Lanes.warning? at hw
    simp only at hw
    split at hw
    · cases hw
    all_goals
      cases hw
      rfl

/-- **An event in an ordered ledger that is not warned about was published.** -/
theorem Ledger.published_of_silence {h : History Node} (hh : Ledger h) {e : Event} {ack : Ack}
    (hjob : ∀ ticket, ack = .queued ticket → Issued h (.publish e ticket))
    (hw : h.now.state.lanes.warning? e ack = none) : h.HasPublished e := by
  cases ack with
  | rejected why => cases hw
  | queued ticket =>
    have hresult : h.now.state.lanes.result? ticket = some (.ok ()) := by
      unfold Lanes.warning? at hw
      simp only at hw
      split at hw
      · assumption
      · cases hw
      · cases hw
    obtain ⟨j, hj, hticket, hcovers⟩ := hh.paid hresult
    have hsame : j = .publish e ticket := hh.single hj (hjob ticket rfl) hticket
    exact hcovers e (by rw [hsame]; rfl)

/-! ## Handing in -/

section

variable {D : Turn Node Work → Prop} {pending : PendingAcks} {g : Turn Node Work}

/-- An event that is handed in has its job in the ledger, unless it was rejected. -/
theorem Handed.offer (hg : Handed pending g) (e : Event) :
    Handed (pending ++ [(e, (g.state.lanes.offer e).2)])
      (g.reach (g.state.onLanes fun l => l.offer e).1) := by
  have hadds : g.state.Adds (g.state.onLanes fun l => l.offer e).1 := .offer e g.state
  have hbefore := (handed_lasting pending).act hg hadds
  have hcount : 0 < g.state.lanes.count := by
    rw [hg.soFar.fairly.count]
    exact hg.soFar.ledger.lanes
  refine ⟨hbefore.soFar, fun e' ticket hmem => ?_⟩
  rcases List.mem_append.mp hmem with hold | hnew
  · exact hbefore.jobs e' ticket hold
  · obtain ⟨rfl, hack⟩ := Prod.mk.inj (List.mem_singleton.mp hnew)
    exact .now (Lanes.offer_waits hcount hack.symm)

/-- **Events that are handed in** have their jobs in the ledger, unless they were rejected. -/
theorem enqueue_handed (es : List Event) :
    ∀ {pending : PendingAcks} {g : Turn Node Work}, Handed pending g →
      Safe ledgerPact () D (fun acks g' => acks.map Prod.fst = es ∧ Handed (pending ++ acks) g')
        (enqueue es) g := by
  induction es with
  | nil =>
    intro pending g hg
    refine ⟨rfl, ?_⟩
    rw [List.append_nil]
    exact hg
  | cons e es ih =>
    intro pending g hg
    refine Safe.bind (.step _) (Safe.bind (enqueue es) ?_)
    refine .mono (fun _ h => h) ?_ _ (ih (hg.offer e))
    rintro acks g' ⟨hnames, hhanded⟩
    rw [List.append_assoc] at hhanded
    exact ⟨congrArg (e :: ·) hnames, hhanded⟩

/-! ## Waiting -/

/-- What holds when one has waited, from a history on and until a tick, for the outcomes of some
    events, if `pending` were handed in before. -/
structure Collected (pending : PendingAcks) (since : History Node) (due : Nat) (rest : PendingAcks)
    (ws : List Warning) (g : Turn Node Work) : Prop where
  /-- The ledger is in order, and has the jobs of what was accepted. -/
  handed : Handed pending g
  later : since.moments <:+ g.history.moments
  inTime : g.tick ≤ due
  /-- Each of the events is named once at most, and in the order in which they were handed in. -/
  named : (ws.map Warning.event).Sublist (rest.map Prod.fst)
  /-- An event that is not named has been published. -/
  others : ∀ x ∈ rest, x ∈ pending → x.1 ∈ ws.map Warning.event ∨ g.ended.HasPublished x.1

/-- All events that were handed in have been reported on. -/
theorem Collected.reported {since : History Node} {due : Nat} {ws : List Warning}
    (h : Collected pending since due pending ws g) :
    Reported g.ended (pending.map Prod.fst) ws := by
  refine ⟨h.named, fun e he => ?_⟩
  obtain ⟨x, hx, rfl⟩ := List.mem_map.mp he
  exact h.others x hx hx

/-- Another event before the others. -/
theorem Collected.cons {since h : History Node} {due : Nat} {e : Event} {ack : Ack}
    {rest : PendingAcks} {ws : List Warning} (hs : since.moments <:+ h.moments)
    (hh : Handed pending (.fresh h)) (hc : Collected pending h due rest ws g) :
    Collected pending since due ((e, ack) :: rest)
      ((h.now.state.lanes.warning? e ack).toList ++ ws) g := by
  refine ⟨hc.handed, hs.trans hc.later, hc.inTime, ?named, ?others⟩
  case named =>
    rw [List.map_append]
    cases hw : h.now.state.lanes.warning? e ack with
    | none => exact hc.named.cons _
    | some w =>
      have hevent : w.event = e := Lanes.event_of_warning hw
      subst hevent
      exact hc.named.cons_cons _
  case others =>
    intro x hx hmem
    rw [List.map_append]
    rcases List.mem_cons.mp hx with rfl | hx
    · cases hw : h.now.state.lanes.warning? e ack with
      | none =>
        -- the event is in the ledger, and there is nothing to warn about
        have hjob : ∀ ticket, ack = .queued ticket → Issued h (.publish e ticket) := by
          rintro ticket rfl
          rcases issued_push.mp (hh.jobs e ticket hmem) with hold | ⟨i, hnow⟩
          · exact hold
          · exact .now hnow
        have hpublished : h.HasPublished e := hh.soFar.ledger.published_of_silence hjob hw
        exact .inr (hpublished.later (hc.later.trans (List.suffix_cons _ _)))
      | some w =>
        have hevent : w.event = e := Lanes.event_of_warning hw
        exact .inl (List.mem_append_left _ (List.mem_singleton.mpr hevent.symm))
    · rcases hc.others x hx hmem with hnamed | hpublished
      · exact .inl (List.mem_append_right _ hnamed)
      · exact .inr hpublished

/-- Waiting for one event after the other, until a tick. -/
theorem warningsBy_safe (hD : ∀ g, Handed pending g → D g) (due : Nat) (rest : PendingAcks) :
    ∀ {g : Turn Node Work}, Handed pending g → g.tick ≤ due →
      Safe ledgerPact () D (Collected pending g.history due rest) (warningsBy due rest) g := by
  induction rest with
  | nil =>
    intro g hg hdue
    exact ⟨hg, List.suffix_refl _, hdue, .refl _, fun _ hx => absurd hx List.not_mem_nil⟩
  | cons x rest ih =>
    obtain ⟨e, ack⟩ := x
    intro g hg hdue
    refine .wait hg.soFar.fairly fun h hh => ?_
    have hfresh : Handed pending (.fresh h) := (handed_lasting pending).resume hg hh
    have hlater : g.history.moments <:+ h.moments :=
      (List.suffix_cons _ _).trans hh.continues.suffix
    have hnow : h.now.tick ≤ due := by
      have hlimit : h.now.tick ≤ max due g.tick := hh.punctual due rfl
      omega
    refine ⟨hD _ hfresh, fun _ => Safe.bind (.read _) (Safe.bind (warningsBy due rest) ?_)⟩
    exact .mono (fun _ h => h) (fun ws g' hc => hc.cons hlater hfresh) _ (ih hfresh hnow)

/-- **Waiting for the outcomes of events**, as long as the limit of the lanes allows. -/
theorem warnings_safe (hD : ∀ g, Handed pending g → D g) (hg : Handed pending g)
    (rest : PendingAcks) :
    Safe ledgerPact () D
      (Collected pending g.history (g.tick + g.state.lanes.ackTimeout.ticks) rest)
      (Node.warnings rest) g :=
  Safe.bind (.read _) (warningsBy_safe hD _ rest hg (Nat.le_add_right _ _))

end

/-! ## How long it takes -/

theorem warningsBy_wait (due : Nat) (pending : PendingAcks) :
    (warningsBy due pending).WaitsTill due := by
  induction pending with
  | nil => trivial
  | cons x rest ih =>
    obtain ⟨e, ack⟩ := x
    exact ⟨⟨due, rfl, Nat.le_refl _⟩, fun _ _ => ih.bind fun _ => trivial⟩

/-- **However many events there are**, what is left after the first poll waits no longer than the
    limit of the lanes. -/
theorem warnings_wait (pending : PendingAcks) (e : Poll Node Work) :
    ((Node.warnings pending).poll e).2.atRest = true ∧
      ((Node.warnings pending).poll e).2.WaitsTill (e.tick + e.after.lanes.ackTimeout.ticks) :=
  (warningsBy_wait _ pending).poll e

end SessionCluster
