/-
  Dealings — what a call does about its events, and what its answer says of that.

  An operation can keep account of the events that it hands in, and of the warnings that it is
  given (`noting`); otherwise it does the same (`noting_answer`).  By its account,

  * it asks for warnings about all events that it has handed in, and then for nothing more
    (`Closes`, a walk through the operation);
  * a change that was made answers with these warnings, and with the last of the events; a mutation
    that fails has handed in nothing; and a sweep counts its events and its warnings, all about
    records that have expired (`Call.Tells`).

  Whatever the rest of the node does, the account is true to the ledger (`noting_safe`): the
  warnings report on the events.
-/
import SessionCluster.Proofs.Collecting

namespace SessionCluster

open Activity Node

/-! ## Keeping account -/

/-- What an operation has done about its events: those handed in, with what became of each, and the
    warnings, once it was given them. -/
structure Dealings where
  handed : PendingAcks := []
  warnings : Option (List Warning) := none

namespace Dealings

def events (d : Dealings) : List Event := d.handed.map Prod.fst

/-- The account after the answer to another question. -/
def after (d : Dealings) : (q : Request) → q.Answer → Dealings
  | .announce _ _, x => { d with handed := d.handed ++ x.1 }
  | .warnings _, ws => { d with warnings := some ws }
  | _, _ => d

/-- Whether a question may be asked: none after the warnings, and these about all events. -/
def Allows (d : Dealings) (q : Request) : Prop :=
  d.warnings = none ∧ ∀ pending, q = .warnings pending → pending = d.handed

end Dealings

/-- Whether an answer fits its question: events that were announced are about the changes, and the
    last of them is given back. -/
def Request.Fits : (q : Request) → q.Answer → Prop
  | .announce earlier own, x =>
    (x.1.map fun y => y.1.change) = earlier ++ [own] ∧ (x.1.map Prod.fst).getLast? = some x.2
  | _, _ => True

section

variable {α : Type}

/-- An operation that keeps account. -/
def noting : Operation α → Dealings → Operation (Dealings × α)
  | .done a, d => .done (d, a)
  | .ask q next, d => .ask q fun x => noting (next x) (d.after q x)

/-- **Otherwise it does the same.** -/
theorem noting_answer (p : Operation α) :
    ∀ d, ((noting p d).bind fun x => .done x.2) = p := by
  induction p with
  | done a => exact fun _ => rfl
  | ask q next ih =>
    intro d
    show Program.ask q _ = _
    congr 1
    funext x
    exact ih x _

/-- Whether an operation asks only what its account allows, and ends well by its account. -/
def Closes (post : Dealings → α → Prop) : Operation α → Dealings → Prop
  | .done a, d => post d a
  | .ask q next, d => d.Allows q ∧ ∀ x, q.Fits x → Closes post (next x) (d.after q x)

end

/-! ## Calls -/

section

variable {α : Type} {d : Dealings}

/-- What the answer of an operation that changes something tells. -/
def Outcome.Tells (d : Dealings) : Outcome α → Prop
  | .ok k => d.warnings = some k.warnings ∧ d.events.getLast? = some k.event
  | .error _ => d.handed = [] ∧ d.warnings = none

/-- What the report of a sweep tells: as many evictions as events, and as many degraded ones as
    warnings. -/
structure SweepReport.Tells (d : Dealings) (r : SweepReport) : Prop where
  warnings : ∃ ws, d.warnings = some ws ∧ r.degraded = ws.length
  evicted : r.evicted = d.events.length
  expired : ∀ e ∈ d.events, e.change.kind = .expired

/-- What the answer of a sweep tells, if there is a report. -/
def Sweeper.Tells (d : Dealings) : Except SessionError SweepReport → Prop
  | .ok r => r.Tells d
  | .error _ => d.warnings = none

/-- What the answer of a call tells about its events. -/
def Call.Tells (d : Dealings) : (c : Call) → c.Answer → Prop
  | .create .., a => Outcome.Tells d (a : Outcome Record)
  | .get .., _ => d.handed = [] ∧ d.warnings = none
  | .update .., a => Outcome.Tells d (a : Outcome Record)
  | .delete .., a => Outcome.Tells d (a : Outcome Unit)
  | .touch .., a => Outcome.Tells d (a : Outcome Record)
  | .sweep _, a => Sweeper.Tells d a

namespace Closes

variable {post : Dealings → α → Prop}

/-- A question about neither events nor warnings. -/
theorem ask {q : Request} {next : q.Answer → Operation α} (hd : d.warnings = none)
    (hq : ∀ pending, q ≠ .warnings pending) (hafter : ∀ x, d.after q x = d)
    (h : ∀ x, Closes post (next x) d) : Closes post (.ask q next) d := by
  refine ⟨⟨hd, fun pending heq => absurd heq (hq pending)⟩, fun x _ => ?_⟩
  rw [hafter]
  exact h x

/-- A call on the store whose failure ends the operation. -/
theorem storeCall {post : Dealings → Except SessionError α → Prop} {s : CoordinatorSettings}
    {c : StoreCall} {next : c.Outcome → Operation (Except SessionError α)}
    (hd : d.warnings = none) (hfail : ∀ e, post d (.error e))
    (h : ∀ o, Closes post (next o) d) : Closes post (Coordinator.storeCall s c next) d := by
  refine .ask hd nofun (fun _ => rfl) fun x => ?_
  match x with
  | some (.ok o) => exact h o
  | some (.error f) => exact hfail _
  | none => exact hfail _

end Closes

end

/-! ## Mutations -/

namespace Coordinator

/-- Whether an operation that changes something closes its account well. -/
abbrev ClosesOutcome {α : Type} (p : Operation (Outcome α)) : Prop := Closes Outcome.Tells p {}

section

variable {α : Type} {s : CoordinatorSettings} {key : SessionKey} {now : Instant}

theorem closes_error (e : SessionError) : ClosesOutcome (.done (.error e) : Operation (Outcome α)) :=
  ⟨rfl, rfl⟩

theorem closes_storeCall {c : StoreCall} {next : c.Outcome → Operation (Outcome α)}
    (h : ∀ o, ClosesOutcome (next o)) : ClosesOutcome (storeCall s c next) :=
  .storeCall rfl (fun _ => ⟨rfl, rfl⟩) h

/-- A look at the live record announces nothing, and a refusal closes the account. -/
theorem closes_loadLive {next : Record → Operation (Outcome α)}
    (h : ∀ r, ClosesOutcome (next r)) : ClosesOutcome (loadLive s key now next) := by
  refine closes_storeCall fun found => ?_
  cases found with
  | none => exact closes_error _
  | some r =>
    dsimp only
    split
    · exact closes_error _
    · exact h r

/-- A change that was made answers with the warnings about its events, and with the last of them. -/
theorem closes_commit {value : α} (earlier : List Change) (own : Change) :
    ClosesOutcome (commit key value earlier own) := by
  refine ⟨⟨rfl, nofun⟩, ?_⟩
  rintro ⟨pending, event⟩ ⟨_, hlast⟩
  refine .ask rfl nofun (fun _ => rfl) fun ticket => ?_
  refine .ask rfl nofun (fun _ => rfl) fun _ => ?_
  refine ⟨⟨rfl, ?_⟩, fun ws _ => ⟨rfl, hlast⟩⟩
  rintro _ ⟨⟩
  rfl

theorem closes_swap (expected : Version) (next : Record) :
    ClosesOutcome (swap s key expected next now) := by
  refine closes_storeCall fun o => ?_
  cases o with
  | applied => exact closes_commit _ _
  | conflict latest => exact closes_error _
  | missing => exact closes_error _

/-- All rounds of a creation close it: with its events, if there were any, or as it was opened. -/
theorem closes_createFrom (payload : Json) (ttl : Span) (rounds : Nat) :
    ∀ tombstone, ClosesOutcome (createFrom s key payload ttl now rounds tombstone) := by
  induction rounds with
  | zero => exact fun _ => closes_error _
  | succ rounds ih =>
    intro tombstone
    refine closes_storeCall fun o => ?_
    cases o with
    | inserted => exact closes_commit _ _
    | tombstoned v => exact ih _
    | occupied existing =>
      dsimp only
      split
      · exact closes_error _
      · refine closes_storeCall fun o => ?_
        cases o with
        | applied => exact closes_commit _ _
        | conflict latest => exact closes_error _
        | missing => exact ih _

theorem closes_now {next : Instant → Operation (Outcome α)} (h : ∀ t, ClosesOutcome (next t)) :
    ClosesOutcome (.ask .now next) :=
  .ask rfl nofun (fun _ => rfl) h

/-- A creation closes its account, refused or not. -/
theorem closes_create (payload : Json) (ttl : Span) :
    ClosesOutcome (create s key payload ttl) := by
  unfold create
  cases checkLifetime s "ttl_ms" ttl with
  | error e => exact closes_error e
  | ok u =>
    cases checkPayload s payload with
    | error e => exact closes_error e
    | ok u => exact closes_now fun now => closes_createFrom _ _ _ _

/-- So does an update. -/
theorem closes_update (expected : Version) (payload : Json) :
    ClosesOutcome (update s key expected payload) := by
  unfold update
  cases checkPayload s payload with
  | error e => exact closes_error e
  | ok u =>
    refine closes_now fun now => closes_loadLive fun current => ?_
    split
    · exact closes_error _
    · exact closes_swap _ _

/-- So does a deletion. -/
theorem closes_delete (expected : Version) : ClosesOutcome (delete s key expected) := by
  refine closes_now fun now => closes_loadLive fun current => ?_
  split
  · exact closes_error _
  · refine closes_storeCall fun o => ?_
    cases o with
    | applied => exact closes_commit _ _
    | conflict latest => exact closes_error _
    | missing => exact closes_error _

theorem closes_touch (extendBy : Span) : ClosesOutcome (touch s key extendBy) := by
  unfold touch
  cases checkLifetime s "extend_by_ms" extendBy with
  | error e => exact closes_error e
  | ok u => exact closes_now fun now => closes_loadLive fun current => closes_swap _ _

/-- Reading does nothing about events. -/
theorem closes_get : Closes (fun d _ => d.handed = [] ∧ d.warnings = none) (get s key) {} := by
  refine .ask rfl nofun (fun _ => rfl) fun now => .ask rfl nofun (fun _ => rfl) fun copy => ?_
  cases copy with
  | some r => exact ⟨rfl, rfl⟩
  | none =>
    refine .storeCall rfl (fun _ => ⟨rfl, rfl⟩) fun found => ?_
    cases found with
    | none => exact ⟨rfl, rfl⟩
    | some r =>
      dsimp only
      split
      · exact ⟨rfl, rfl⟩
      · split
        · exact ⟨rfl, rfl⟩
        · exact .ask rfl nofun (fun _ => rfl) fun _ => ⟨rfl, rfl⟩

end

end Coordinator

/-! ## Sweeps -/

namespace Sweeper

/-- The account of a sweep so far, which has removed some more records in this batch. -/
structure Counted (d : Dealings) (p : Progress) (removed : Nat) : Prop where
  unwarned : d.warnings = none
  /-- All that was handed in is waited for at the end. -/
  pending : p.pending = d.handed
  /-- Every record that was removed has one event. -/
  evicted : p.evicted + removed = d.events.length
  expired : ∀ e ∈ d.events, e.change.kind = .expired

section

variable {s : SweeperSettings} {now : Instant} {d : Dealings} {p : Progress} {removed : Nat}

/-- Another record was removed, and its end announced. -/
theorem Counted.announced (hd : Counted d p removed) {c : Change} (hc : c.kind = .expired)
    {x : PendingAcks × Event} (hx : (Request.announce [] c).Fits x) :
    Counted (d.after (.announce [] c) x) { p with pending := p.pending ++ x.1 } (removed + 1) := by
  have hone : (x.1.map fun y => y.1.change) = [c] := hx.1
  have hevents : (d.after (.announce [] c) x).events = d.events ++ x.1.map Prod.fst :=
    List.map_append
  have hlength : (x.1.map Prod.fst).length = 1 := by
    have hlen := congrArg List.length hone
    rw [List.length_map] at hlen ⊢
    exact hlen
  refine ⟨hd.unwarned, congrArg (· ++ x.1) hd.pending, ?_, ?_⟩
  · rw [hevents, List.length_append, hlength, ← hd.evicted]
    exact (Nat.add_assoc ..).symm
  · intro e he
    rw [hevents] at he
    rcases List.mem_append.mp he with hold | hnew
    · exact hd.expired e hold
    · obtain ⟨y, hy, rfl⟩ := List.mem_map.mp hnew
      have hchange : y.1.change ∈ x.1.map fun y => y.1.change := List.mem_map.mpr ⟨y, hy, rfl⟩
      rw [hone] at hchange
      rw [List.mem_singleton.mp hchange]
      exact hc

/-- The batch is over. -/
theorem Counted.add (hd : Counted d p removed) :
    Counted d { p with evicted := p.evicted + removed } 0 :=
  ⟨hd.unwarned, hd.pending, hd.evicted, hd.expired⟩

/-- A call on the store, in a sweep that goes on to the warnings at its end. -/
theorem closes_storeCall {c : StoreCall}
    {next : c.Outcome → Operation (Except SessionError SweepReport)} (hd : d.warnings = none)
    (h : ∀ o, Closes Tells (next o) d) : Closes Tells (storeCall s c next) d := by
  refine .ask hd nofun (fun _ => rfl) fun x => ?_
  match x with
  | some (.ok o) => exact h o
  | some (.error f) => exact hd
  | none => exact hd

theorem closes_report (hd : Counted d p 0) : Closes Tells (report p) d := by
  refine ⟨⟨hd.unwarned, ?_⟩, fun ws _ => ⟨⟨ws, rfl, rfl⟩, hd.evicted, hd.expired⟩⟩
  rintro pending ⟨⟩
  exact hd.pending

/-- The records of a batch, one after the other. -/
theorem closes_evict {next : Nat → Progress → Operation (Except SessionError SweepReport)}
    (hnext : ∀ {removed p d}, Counted d p removed → Closes Tells (next removed p) d)
    (batch : List Record) :
    ∀ {removed : Nat} {p : Progress} {d : Dealings}, Counted d p removed →
      Closes Tells (evict s now next batch removed p) d := by
  induction batch with
  | nil => exact fun hd => hnext hd
  | cons r batch ih =>
    intro removed p d hd
    refine closes_storeCall hd.unwarned fun o => ?_
    cases o with
    | applied =>
      refine ⟨⟨hd.unwarned, nofun⟩, fun x hx => ?_⟩
      exact .ask hd.unwarned nofun (fun _ => rfl) fun _ => ih (hd.announced rfl hx)
    | conflict latest => exact ih ⟨hd.unwarned, hd.pending, hd.evicted, hd.expired⟩
    | missing => exact ih ⟨hd.unwarned, hd.pending, hd.evicted, hd.expired⟩

/-- Batch after batch, what was counted is what the warnings tell of. -/
theorem closes_batches (left : Nat) :
    ∀ {p : Progress} {d : Dealings}, Counted d p 0 → Closes Tells (batches s now left p) d := by
  induction left with
  | zero => exact fun hd => closes_report hd
  | succ left ih =>
    intro p d hd
    refine closes_storeCall hd.unwarned fun batch => closes_evict (fun hd => ?_) batch hd
    dsimp only
    split
    · exact closes_report hd.add
    · exact ih hd.add

/-- **A sweep counts its events and its warnings.** -/
theorem closes_sweep : Closes Tells (sweep s) {} := by
  refine .ask rfl nofun (fun _ => rfl) fun now => closes_batches _ ?_
  exact ⟨rfl, rfl, rfl, fun _ he => absurd he List.not_mem_nil⟩

end

end Sweeper

/-- **Every call closes its account well.** -/
theorem Call.closes (c : Call) : Closes (fun d a => c.Tells d a) c.operation {} := by
  cases c with
  | create s key payload ttl => exact Coordinator.closes_create payload ttl
  | get s key => exact Coordinator.closes_get
  | update s key expected payload => exact Coordinator.closes_update expected payload
  | delete s key expected => exact Coordinator.closes_delete expected
  | touch s key extendBy => exact Coordinator.closes_touch extendBy
  | sweep s => exact Sweeper.closes_sweep

/-! ## The account and the ledger -/

/-- An account is true: the ledger has the jobs of what was handed in, and the warnings report on
    it. -/
structure Noted (d : Dealings) (g : Turn Node Work) : Prop where
  handed : Handed d.handed g
  reported : ∀ ws, d.warnings = some ws → Reported g.ended d.events ws

section

variable {d : Dealings} {g : Turn Node Work} {D : Turn Node Work → Prop}

/-- Changes get events, one each. -/
theorem identifyAll_handed (cs : List Change) :
    ∀ {pending : PendingAcks} {g : Turn Node Work}, Handed pending g →
      Safe ledgerPact () D (fun es g' => es.map Event.change = cs ∧ Handed pending g')
        (identifyAll cs) g := by
  induction cs with
  | nil => exact fun hg => ⟨rfl, hg⟩
  | cons c cs ih =>
    intro pending g hg
    have hnext := (handed_lasting pending).act hg (.identify c g.state)
    refine Safe.bind (.step _) (Safe.bind (identifyAll cs) ?_)
    exact .mono (fun _ h => h) (fun es g' h => ⟨congrArg (c :: ·) h.1, h.2⟩) _ (ih hnext)

/-- Events are announced. -/
theorem announce_noted (hd : d.warnings = none) (hg : Noted d g) (storeLimit cacheLimit : Span)
    (earlier : List Change) (own : Change) :
    Safe ledgerPact () D
      (fun x g' => (Request.announce earlier own).Fits x ∧
        Noted (d.after (.announce earlier own) x) g')
      (answer storeLimit cacheLimit (.announce earlier own)) g := by
  -- the changes made earlier are given their names first, then the call's own
  refine Safe.bind (identifyAll earlier) ?_
  refine .mono (fun _ h => h) ?_ _ (identifyAll_handed earlier hg.handed)
  rintro before g₁ ⟨hbefore, hg₁⟩
  have hlast := (handed_lasting d.handed).act hg₁ (.identify own g₁.state)
  refine Safe.bind (.step _) (Safe.bind (enqueue _) ?_)
  refine .mono (fun _ h => h) ?_ _ (enqueue_handed _ hlast)
  -- the lanes answer each of them, and the ledger has these answers
  rintro acks g₂ ⟨hnames, hhanded⟩
  refine ⟨⟨?changes, ?last⟩, hhanded, fun ws hws => ?none⟩
  case changes =>
    show (acks.map fun y => y.1.change) = earlier ++ [own]
    have hchanges := congrArg (List.map Event.change) hnames
    rw [List.map_map, List.map_append, hbefore] at hchanges
    exact hchanges
  -- the call's own event is the last that was handed in
  case last =>
    show (acks.map Prod.fst).getLast? = some _
    rw [hnames, List.getLast?_append]
    rfl
  -- nothing was said yet of the warnings
  case none =>
    have hnone : d.warnings = some ws := hws
    rw [hd] at hnone
    cases hnone

/-- Warnings are asked for, about all that was handed in. -/
theorem warnings_noted (hg : Noted d g) (storeLimit cacheLimit : Span) :
    Safe ledgerPact () (fun _ => True) (fun ws => Noted (d.after (.warnings d.handed) ws))
      (answer storeLimit cacheLimit (.warnings d.handed)) g := by
  refine .mono (fun _ _ => trivial) ?_ _
    (warnings_safe (D := fun _ => True) (fun _ _ => trivial) hg.handed d.handed)
  rintro ws g' hcollected
  refine ⟨hcollected.handed, ?_⟩
  rintro _ ⟨⟩
  exact hcollected.reported

/-- **The answer to a question that is allowed keeps the account true.** -/
theorem answer_noted (storeLimit cacheLimit : Span) {q : Request} (hq : d.Allows q)
    (hg : Noted d g) :
    Safe ledgerPact () (fun _ => True) (fun x g' => q.Fits x ∧ Noted (d.after q x) g')
      (answer storeLimit cacheLimit q) g := by
  have hlasting := Safe.of_respects (handed_lasting d.handed) (D := fun _ => True)
    (fun _ _ => trivial) _ (answer_respects storeLimit cacheLimit q) hg.handed
  have hplain : ∀ {g'}, Handed d.handed g' → Noted d g' := by
    refine fun hg' => ⟨hg', fun ws hws => ?_⟩
    rw [hq.1] at hws
    cases hws
  cases q with
  | announce earlier own => exact announce_noted hq.1 hg storeLimit cacheLimit earlier own
  | warnings pending =>
    obtain rfl := hq.2 pending rfl
    exact .mono (fun _ h => h) (fun _ _ h => ⟨trivial, h⟩) _ (warnings_noted hg _ _)
  | now | store c | cached key | cache r freshFor | beginForget key | forgotten ticket
  | forget key =>
    exact .mono (fun _ h => h) (fun _ _ h => ⟨trivial, hplain h⟩) _ hlasting

/-- **The account of an operation is true in the end**, whatever the rest of the node does. -/
theorem noting_safe {α : Type} {post : Dealings → α → Prop} (storeLimit cacheLimit : Span)
    (p : Operation α) :
    ∀ {d : Dealings} {g : Turn Node Work}, Closes post p d → Noted d g →
      Safe ledgerPact () (fun _ => True) (fun x g' => post x.1 x.2 ∧ Noted x.1 g')
        (ofProgram (answer storeLimit cacheLimit) (noting p d)) g := by
  induction p with
  | done a => exact fun hp hg => ⟨hp, hg⟩
  | ask q next ih =>
    rintro d g ⟨hq, hnext⟩ hg
    refine Safe.ofProgram (.mono (fun _ h => h) ?_ _ (answer_noted storeLimit cacheLimit hq hg))
    exact fun x g' ⟨hx, hg'⟩ => ih x (hnext x hx) hg'

end

end SessionCluster
