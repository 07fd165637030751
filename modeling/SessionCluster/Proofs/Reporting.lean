/-
  Reporting — how a publisher tells of its calls.

  A publisher REPORTS if it says, whenever it is called, for which envelope that is, and what the
  outcome was when it is done (`Node.reporting`).  A report is something that is started like a task
  and that nobody runs; so it changes nothing, and whoever calls the publisher, and knows nothing of
  the tasks that it starts, can neither make reports nor keep them back.  The worker of a lane is one
  of these: with the reports left out, it is the worker that it would be with a publisher that keeps
  silent (`Node.laneTurn_unreported`).

  * `Activity.Reports` — what holds of the reports of an activity, whenever it waits and in the end,
    with a rule for each way to build one;
  * `Activity.Reports.poll` — what a poll adds to them;
  * `Node.doJob_reports` — the worker of a lane calls its publisher once for an event, and records
    what it answers;
  * `Node.Employed.poll` — what a poll of a worker with a job in hand comes to.
-/
import SessionCluster.Proofs.Constancy
import SessionCluster.Proofs.Marks

namespace SessionCluster

/-! ## Reports of activities -/

namespace Activity

variable {σ τ τ' ρ α β : Type}

/-- The same activity, with other names for its tasks. -/
def mapTask (f : τ → τ') : Activity σ τ α → Activity σ τ' α
  | .done a => .done a
  | .act u k => .act u fun t s => mapTask f (k t s)
  | .wait r d k => .wait r d (mapTask f k)
  | .never => .never
  | .spawn x k => .spawn (f x) (mapTask f k)

/-- Makes a report. -/
def report (c : ρ) : Activity σ (τ ⊕ ρ) Unit := .spawn (.inr c) (.done ())

/-- An activity without its reports. -/
def unreported : Activity σ (τ ⊕ ρ) α → Activity σ τ α
  | .done a => .done a
  | .act u k => .act u fun t s => unreported (k t s)
  | .wait r d k => .wait r d (unreported k)
  | .never => .never
  | .spawn (.inl x) k => .spawn x (unreported k)
  | .spawn (.inr _) k => unreported k

/-- Nothing is reported by work that knows no reports. -/
theorem unreported_mapTask (p : Activity σ τ α) :
    (p.mapTask (Sum.inl : τ → τ ⊕ ρ)).unreported = p := by
  induction p with
  | done a => rfl
  | act u k ih => exact congrArg (Activity.act u) (funext fun t => funext fun s => ih t s)
  | wait r d k ih => exact congrArg (Activity.wait r d) ih
  | never => rfl
  | spawn x k ih => exact congrArg (Activity.spawn x) ih

/-- Erasing the reports of activities in a row erases those of each. -/
theorem unreported_bind (p : Activity σ (τ ⊕ ρ) α) (f : α → Activity σ (τ ⊕ ρ) β) :
    (p.bind f).unreported = p.unreported.bind fun a => (f a).unreported := by
  induction p with
  | done a => rfl
  | act u k ih => exact congrArg (Activity.act u) (funext fun t => funext fun s => ih t s)
  | wait r d k ih => exact congrArg (Activity.wait r d) ih
  | never => rfl
  | spawn x k ih =>
    cases x with
    | inl x => exact congrArg (Activity.spawn x) ih
    | inr c => exact ih

/-- Naming the started tasks anew changes nothing of what is done. -/
theorem Respects.mapTask {R : σ → σ → Prop} {p : Activity σ τ α} (hp : p.Respects R)
    (f : τ → τ') : (p.mapTask f).Respects R := by
  induction p with
  | done a => trivial
  | act u k ih => exact fun t s => ⟨(hp t s).1, ih t s (hp t s).2⟩
  | wait r d k ih => exact ih hp
  | never => trivial
  | spawn x k ih => exact ih hp

/-- After a poll, an activity is at rest. -/
theorem poll_atRest (p : Activity σ τ α) : ∀ e : Poll σ τ, (p.poll e).2.atRest = true := by
  induction p with
  | done a => exact fun e => rfl
  | act u k ih => exact fun e => ih _ _ _
  | wait r d k => exact fun _ => rfl
  | never => exact fun _ => rfl
  | spawn x k ih => exact fun e => ih _

/-- Whether an activity has finished. -/
def isDone : Activity σ τ α → Bool
  | .done _ => true
  | _ => false

/-- What holds of the reports of an activity that has made some already: `I` of all that were made
    whenever it waits, and `Q` in the end, with its answer and the state. -/
def Reports (I : List ρ → Prop) (Q : α → List ρ → σ → Prop) :
    Activity σ (τ ⊕ ρ) α → List ρ → σ → Prop
  | .done a, cs, s => Q a cs s
  | .act u k, cs, s => ∀ t, Reports I Q (k t s) cs (u t s)
  | .wait _ _ k, cs, _ => I cs ∧ ∀ s, Reports I Q k cs s
  | .never, cs, _ => I cs
  | .spawn (.inl _) k, cs, s => Reports I Q k cs s
  | .spawn (.inr c) k, cs, s => Reports I Q k (cs ++ [c]) s

/-- The reports among what was started. -/
def reportsIn (started : List (τ ⊕ ρ)) : List ρ := started.filterMap Sum.getRight?

namespace Reports

variable {I : List ρ → Prop}

/-- Activities in a row: what the first has reported, the second adds to. -/
theorem bind {Q : α → List ρ → σ → Prop} {Q' : β → List ρ → σ → Prop}
    {p : Activity σ (τ ⊕ ρ) α} {f : α → Activity σ (τ ⊕ ρ) β}
    (hf : ∀ a cs s, Q a cs s → (f a).Reports I Q' cs s) :
    ∀ {cs s}, p.Reports I Q cs s → (p.bind f).Reports I Q' cs s := by
  induction p with
  | done a => exact fun h => hf a _ _ h
  | act u k ih => exact fun h t => ih t _ (h t)
  | wait r d k ih => exact fun h => ⟨h.1, fun s => ih (h.2 s)⟩
  | never => exact fun h => h
  | spawn x k ih =>
    cases x with
    | inl x => exact fun h => ih h
    | inr c => exact fun h => ih h

/-- Whoever only starts tasks makes no reports. -/
theorem silent {cs : List ρ} (hI : I cs) (p : Activity σ τ α) :
    ∀ s, (p.mapTask Sum.inl).Reports I (fun _ cs' _ => cs' = cs) cs s := by
  induction p with
  | done a => exact fun _ => rfl
  | act u k ih => exact fun s t => ih t s _
  | wait r d k ih => exact fun _ => ⟨hI, ih⟩
  | never => exact fun _ => hI
  | spawn x k ih => exact ih

variable {Q : α → List ρ → σ → Prop}

/-- What is left after a poll goes on with the reports that were made in it. -/
theorem poll {p : Activity σ (τ ⊕ ρ) α} {cs : List ρ} :
    ∀ e : Poll σ (τ ⊕ ρ), p.Reports I Q (cs ++ reportsIn e.started) e.after →
      (p.poll e).2.Reports I Q (cs ++ reportsIn (p.poll e).1.started) (p.poll e).1.after := by
  induction p with
  | done a => exact fun _ h => h
  | act u k ih => exact fun e h => ih _ _ { e with after := u e.tick e.after } (h e.tick)
  | wait r d k => exact fun _ h => h
  | never => exact fun _ h => h
  | spawn x k ih =>
    intro e h
    refine ih { e with started := e.started ++ [x] } ?_
    show k.Reports I Q (cs ++ (e.started ++ [x]).filterMap Sum.getRight?) e.after
    rw [List.filterMap_append]
    cases x with
    | inl x =>
      rw [List.filterMap_cons_none rfl, List.filterMap_nil, List.append_nil]
      exact h
    | inr c =>
      show k.Reports I Q (cs ++ (reportsIn e.started ++ [c])) e.after
      rw [← List.append_assoc]
      exact h

/-- **After a poll, an activity has finished, or it waits**, and then it may go on in any state. -/
theorem poll_cases {p p' : Activity σ (τ ⊕ ρ) α} {cs : List ρ} {e e' : Poll σ (τ ⊕ ρ)}
    (h : p.Reports I Q cs e.after) (he : e.started = []) (hpoll : p.poll e = (e', p')) :
    (∃ a, p' = .done a ∧ Q a (cs ++ reportsIn e'.started) e'.after) ∨
      p'.isDone = false ∧ I (cs ++ reportsIn e'.started) ∧
        ∀ s, p'.Reports I Q (cs ++ reportsIn e'.started) s := by
  have hstart : p.Reports I Q (cs ++ reportsIn e.started) e.after := by
    rw [he]
    show p.Reports I Q (cs ++ []) e.after
    rw [List.append_nil]
    exact h
  have hleft := poll e hstart
  have hrest := poll_atRest p e
  rw [hpoll] at hleft hrest
  cases p' with
  | done a => exact .inl ⟨a, rfl, hleft⟩
  | wait r d k => exact .inr ⟨rfl, hleft.1, fun _ => hleft⟩
  | never => exact .inr ⟨rfl, hleft, fun _ => hleft⟩
  | act u k => cases hrest
  | spawn x k => cases hrest

end Reports

end Activity

/-! ## Publishers -/

/-- What a publisher reports: for which envelope it is called, and what has come of it. -/
inductive PublisherReport where
  | begins (e : Envelope)
  | ends (e : Envelope) (r : Except BrokerError Unit)

namespace PublisherReport

/-- The envelope of a call that begins. -/
def envelope? : PublisherReport → Option Envelope
  | .begins e => some e
  | .ends .. => none

/-- The outcome of a call that ends. -/
def outcome? : PublisherReport → Option (Except BrokerError Unit)
  | .begins _ => none
  | .ends _ r => some r

end PublisherReport

/-- The envelope in which a node publishes a parcel. -/
def Parcel.envelope (origin : NodeName) (p : Parcel) : Envelope :=
  (Envelope.ofEvent p.event).withOrigin origin.text

/-- The reports of a call for a parcel, from its beginning to its end. -/
def Parcel.call (origin : NodeName) (p : Parcel) (r : Except BrokerError Unit) :
    List PublisherReport :=
  [.begins (p.envelope origin), .ends (p.envelope origin) r]

/-- The reports while a job is at work: there is a parcel, and its call has begun. -/
def Job.AtWork (origin : NodeName) (j : Job) (cs : List PublisherReport) : Prop :=
  ∃ p, j.parcel? = some p ∧ cs = [.begins (p.envelope origin)]

/-- The reports when a job is finished: the call for its parcel, if it has one, has ended with the
    outcome that is recorded for the job. -/
def Job.Finished (origin : NodeName) (j : Job) (cs : List PublisherReport) (l : Lanes) : Prop :=
  ∃ r, l.result? j.ticket = some r ∧ cs = j.parcel?.toList.flatMap fun p => p.call origin r

namespace Node

open Activity

/-- A publisher has no hold of the lanes, and leaves the node its name. -/
def Publisher.Apart (publish : Publisher Work) : Prop :=
  ∀ e, (publish e).Respects fun n n' => n'.lanes = n.lanes ∧ n'.name = n.name

theorem deliver_apart : Publisher.Apart deliver :=
  fun e => (deliver_respects e).mono fun h => ⟨h.lanes, congrArg CoordinatorSettings.node h.settings⟩

section

variable {τ : Type} (publish : Publisher τ)

/-- A publisher that reports its calls. -/
def reporting : Publisher (τ ⊕ PublisherReport) := fun e => do
  report (.begins e)
  let r ← (publish e).mapTask .inl
  report (.ends e r)
  return r

theorem reporting_unreported (e : Envelope) : (reporting publish e).unreported = publish e := by
  show (((publish e).mapTask Sum.inl).bind fun r =>
    .spawn (.inr (PublisherReport.ends e r)) (.done r)).unreported = _
  rw [unreported_bind, unreported_mapTask]
  exact bind_done _

/-- **Reports aside, a worker is the same** whether its publisher reports or not. -/
theorem laneTurn_unreported (i : Nat) :
    (laneTurn (reporting publish) i).unreported = laneTurn publish i := by
  have hjob (j : Job) : (doJob (reporting publish) j).unreported = doJob publish j := by
    cases j with
    | publish e ticket =>
      refine congrArg (Activity.act _) (funext fun t => funext fun n => ?_)
      show ((reporting publish _).bind _).unreported = _
      rw [unreported_bind, reporting_unreported]
      rfl
    | flush ticket => rfl
  refine congrArg (Activity.wait _ _) (congrArg (Activity.act _) (funext fun t => funext fun n => ?_))
  show ((Activity.done (n.lanes.take i).2).bind _).unreported =
    (Activity.done (n.lanes.take i).2).bind _
  cases (n.lanes.take i).2 with
  | none => rfl
  | some j =>
    show ((doJob (reporting publish) j).bind _).unreported = (doJob publish j).bind _
    rw [unreported_bind, hjob]
    rfl

theorem reporting_respects {R : Node → Node → Prop} {e : Envelope} (h : (publish e).Respects R) :
    (reporting publish e).Respects R := by
  show (((publish e).mapTask Sum.inl).bind fun r =>
    .spawn (.inr (PublisherReport.ends e r)) (.done r)).Respects R
  exact .bind (h.mapTask _) fun _ => trivial

/-- The reports of a call. -/
theorem reporting_reports {I : List PublisherReport → Prop} {cs : List PublisherReport}
    {e : Envelope} (hI : I (cs ++ [.begins e])) (n : Node) :
    (reporting publish e).Reports I (fun r cs' _ => cs' = cs ++ [.begins e, .ends e r]) cs n := by
  refine Reports.bind (p := (publish e).mapTask .inl) ?_ (Reports.silent hI (publish e) n)
  rintro r _ n' rfl
  show (cs ++ [.begins e]) ++ [.ends e r] = _
  rw [List.append_assoc]
  rfl

/-- **The worker of a lane calls its publisher once for a parcel**, and records the outcome of the
    call. -/
theorem doJob_reports (j : Job) (n : Node) :
    (doJob (reporting publish) j).Reports (j.AtWork n.name)
      (fun _ cs n' => j.Finished n.name cs n'.lanes) [] n := by
  have hsettled (ticket : Nat) (r : Except BrokerError Unit) (n : Node) :
      (n.lanes.settle ticket r).result? ticket = some r := by
    rw [Lanes.result?_settle, if_pos rfl]
  cases j with
  | publish e ticket =>
    intro t
    -- from here on the name of the node is fixed
    have hcall : (Job.publish e ticket).AtWork n.name
        ([] ++ [.begins (Parcel.envelope n.name ⟨e, ticket⟩)]) := ⟨_, rfl, rfl⟩
    refine Reports.bind (p := reporting publish (Parcel.envelope n.name ⟨e, ticket⟩)) ?_
      (reporting_reports publish hcall n)
    rintro r _ n' rfl t'
    exact ⟨r, hsettled ticket r n', rfl⟩
  | flush ticket => exact fun t => ⟨.ok (), hsettled ticket _ n, rfl⟩

end

/-! ## Workers -/

/-- What a worker may change that has a job in hand: the outcome of this job. -/
def Settles (j : Job) (n n' : Node) : Prop :=
  n.lanes.Records j.ticket n'.lanes ∧ n'.name = n.name

theorem Settles.refl (j : Job) (n : Node) : n.Settles j n := ⟨.refl _ _, rfl⟩

theorem Settles.trans {j : Job} {n n' n'' : Node} (h : n.Settles j n') (h' : n'.Settles j n'') :
    n.Settles j n'' :=
  ⟨h.1.trans h'.1, h'.2.trans h.2⟩

/-- A worker that settles its job settles this one only. -/
theorem doJob_settles {publish : Publisher Work} (hp : publish.Apart) (j : Job) :
    (doJob (reporting publish) j).Respects (Settles j) := by
  cases j with
  | publish e ticket =>
    have hcall (e' : Envelope) : (publish e').Respects (Settles (.publish e ticket)) :=
      (hp e').mono fun h => ⟨.of_eq h.1, h.2⟩
    refine .bind (.read (Settles.refl _) _) fun origin => ?_
    refine .bind (reporting_respects publish (hcall _)) fun r => ?_
    exact .step fun n => ⟨.settle n.lanes ticket r, rfl⟩
  | flush ticket => exact .step fun n => ⟨.settle n.lanes ticket _, rfl⟩

/-- What a worker does that has a job in hand, and some reports of it already. -/
structure Employed (origin : NodeName) (j : Job) (cs : List PublisherReport)
    (p : Activity Node (Work ⊕ PublisherReport) (Option Work)) : Prop where
  settles : p.Respects (Settles j)
  reports : ∀ n, n.name = origin →
    p.Reports (j.AtWork origin) (fun _ cs' n' => j.Finished origin cs' n'.lanes) cs n

/-- What a poll of a worker comes to, by all reports of its job: it is done with the job, or the
    publisher is at work for it. -/
inductive Came (origin : NodeName) (j : Job) (cs : List PublisherReport) (l : Lanes)
    (p : Activity Node (Work ⊕ PublisherReport) (Option Work)) : Prop where
  | finished (hdone : p.isDone = true) (h : j.Finished origin cs l)
  | working (hdone : p.isDone = false) (h : j.AtWork origin cs) (hp : Employed origin j cs p)

variable {publish : Publisher Work} {i : Nat} {j : Job}

/-- A worker that takes a job goes on with it, in the same poll. -/
theorem poll_laneTurn {rest : List Job} {n : Node} (hq : n.lanes.queue i = j :: rest) {r d k}
    (hturn : laneTurn (reporting publish) i = .wait r d k) (t : Nat) :
    k.poll (.fresh t n) =
      ((doJob (reporting publish) j).bind fun _ => .done (some (.lane i))).poll
        { Poll.fresh t n with
          after := { n with lanes :=
            { n.lanes with queues := n.lanes.queues.modify i List.tail } } } := by
  obtain ⟨-, -, rfl⟩ := Activity.wait.inj hturn
  show ((Activity.done (n.lanes.take i).2).bind _).poll
    { Poll.fresh t n with after := { n with lanes := (n.lanes.take i).1 } } = _
  rw [Lanes.take_cons hq]
  rfl

theorem employed_doJob (hp : publish.Apart) (origin : NodeName) (j : Job) :
    Employed origin j [] ((doJob (reporting publish) j).bind fun _ => .done (some (.lane i))) where
  settles := .bind (doJob_settles hp j) fun _ => .done _
  reports := by
    rintro n rfl
    exact .bind (fun _ _ _ h => h) (doJob_reports publish j n)

/-- **A worker that has polled is done with its job, or the publisher is at work for it.** -/
theorem Employed.poll {origin : NodeName} {cs : List PublisherReport}
    {p q : Activity Node (Work ⊕ PublisherReport) (Option Work)}
    {e e' : Poll Node (Work ⊕ PublisherReport)} (h : Employed origin j cs p)
    (hname : e.after.name = origin) (he : e.started = []) (hpoll : p.poll e = (e', q)) :
    e.after.Settles j e'.after ∧
      Came origin j (cs ++ reportsIn e'.started) e'.after.lanes q := by
  have hsettles := Respects.poll (Settles.refl j) Settles.trans h.settles e
  rw [hpoll] at hsettles
  refine ⟨hsettles.1, ?_⟩
  rcases (h.reports e.after hname).poll_cases he hpoll with
    ⟨a, rfl, hfinished⟩ | ⟨hdone, hwork, hreports⟩
  · exact .finished rfl hfinished
  · exact .working hdone hwork ⟨hsettles.2, fun n _ => hreports n⟩

end Node

end SessionCluster
