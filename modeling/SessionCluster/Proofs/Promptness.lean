/-
  Promptness — runs in which time waits for everybody.

  In a run of a process, a member that could go on may be left where it is for as long as one
  likes, so nothing can be said about how long a call takes.  The machine is not like that: time
  passes only when all members have begun and none of them can go on (`Process.Prompt`).

  A member is ON TIME if, since its last poll, it has been standing where it will be over in time
  (`Stands`).  For a wait with a deadline this is its own affair.  A call that waits for a removal
  relies on the task that it has started: the task begins at the same tick, since time does not
  pass before, and it is over at its own limit; and then time does not pass before the call goes
  on (`Process.OnTime.pass`).

  `Process.spent_le` — so in every prompt run, whatever happens to the node, no call that changes a
  session spends more than its limit (`Role.limit?`): that of all the calls on the store that it
  may make, of a removal from the cache, and of the wait for the outcomes of its events.
-/
import SessionCluster.Proofs.Deadlines
import SessionCluster.Proofs.Scripts

namespace SessionCluster

open Activity

/-! ## Prompt runs -/

/-- Whether a member has begun and cannot go on. -/
def Member.idle (m : Member) (now : Moment Node) : Bool :=
  m.first.isSome && !Machine.canGoOn now.state now.tick m.rest

theorem Member.begun_of_idle {m : Member} {now : Moment Node} (h : m.idle now = true) :
    m.first ≠ none := by
  intro hnone
  rw [idle, hnone] at h
  cases h

theorem Member.waits_of_idle {m : Member} {now : Moment Node} (h : m.idle now = true) :
    Machine.canGoOn now.state now.tick m.rest = false := by
  have hboth := Bool.and_eq_true_iff.mp h
  exact Bool.not_eq_true' _ ▸ hboth.2

/-- Whether a member is a task that has ended and names another in its place. -/
def Member.givesWay : Member → Bool
  | ⟨.task _, _, _, .done (some _)⟩ => true
  | _ => false

/-- A step in which time passes only when all members are idle. -/
structure Process.Prompt (C : Circumstances) (p p' : Process) : Prop where
  step : Process.Step C p p'
  idle : p.history.now.tick < p'.history.now.tick → ∀ m ∈ p.members, m.idle p.history.now = true

/-- Any number of prompt steps. -/
abbrev Process.PromptRuns (C : Circumstances) : Process → Process → Prop :=
  Relation.ReflTransGen (Process.Prompt C)

/-- How many ticks a member has spent that began at a moment: until it finished, or until now. -/
def Member.spent (m : Member) (first : Moment Node) (now : Nat) : Nat :=
  (match m.rest with
    | .done _ => m.last
    | _ => now) - first.tick

/-! ## Limits -/

namespace Role

/-- The limit of a member on a node, in ticks, if it has one. -/
def limit? (n : Node) : Role → Option Nat
  | .call c => c.storeCalls?.map fun calls =>
    calls * c.storeLimit.ticks + n.settings.cacheTimeout.ticks + n.lanes.ackTimeout.ticks
  | .task (.forget _ _) => some n.settings.cacheTimeout.ticks
  | .task _ => none

/-- How long a member has to wait for removals that it starts, if it waits for any. -/
def removal? (n : Node) : Role → Option Nat
  | .call _ => some n.settings.cacheTimeout.ticks
  | .task _ => none

/-- What a member leaves behind: a removal leaves its mark. -/
def Leaves : Role → Node → Prop
  | .task (.forget _ ticket), n => ticket ∈ n.forgotten
  | .task _, _ => True
  | .call _, _ => True

/-- A poll with which a member may finish. -/
def Finish (r : Role) (due : Nat) (_ : r.Answer) (e : Poll Node Work) : Prop :=
  e.tick ≤ due ∧ r.Leaves e.after

/-- **A member that has a limit keeps it**, if it is let go on in time. -/
theorem inTime {r : Role} {n n' : Node} {limit : Nat} (hr : r.limit? n = some limit)
    (hn : n.Abides n') (t : Nat) :
    InTime (r.removal? n) (r.Finish (t + limit)) r.activity (.fresh t n') := by
  cases r with
  | call c =>
    obtain ⟨calls, hcalls, hlimit⟩ := Option.map_eq_some_iff.mp hr
    -- the limit of a call is reckoned from its store calls, the cache's limit and the bus's
    have htime : TimeFor (t + limit) c.storeLimit.ticks n.settings.cacheTimeout.ticks
        n.lanes.ackTimeout.ticks calls (.fresh t n') := by
      constructor
      · show t + calls * c.storeLimit.ticks + n.settings.cacheTimeout.ticks +
          n.lanes.ackTimeout.ticks ≤ t + limit
        omega
      · show n'.lanes.ackTimeout.ticks = n.lanes.ackTimeout.ticks
        rw [hn.ackTimeout]
    exact .mono (fun a e he => ⟨he, trivial⟩) _ (Call.inTime hcalls htime)
  | task w =>
    cases w with
    -- tasks of the node other than a removal have no limit
    | lane i => cases hr
    | sweeperStart => cases hr
    | sweeper s => cases hr
    | forget key ticket =>
      obtain rfl : n.settings.cacheTimeout.ticks = limit := Option.some.inj hr
      refine .mono ?_ _ (Node.forgetTurn_inTime key ticket (.fresh t n'))
      -- the settings of the node stay, so its removal keeps the limit it has on record
      rintro a e ⟨hlate, hmark⟩
      have hsame : n'.settings.cacheTimeout = n.settings.cacheTimeout := by rw [hn.settings]
      exact ⟨hsame ▸ hlate, hmark⟩

end Role

/-! ## Standing -/

/-- What is left of an activity since a poll, seen from a later tick: it finished in the poll, or
    waits for something that is not over yet and is in time whenever it goes on. -/
def Stands {α : Type} (removal : Option Nat) (Q : α → Poll Node Work → Prop)
    (e : Poll Node Work) (now : Nat) : Activity Node Work α → Prop
  | .done a => Q a e
  | .wait r d k =>
    ∃ b, OverBy removal e r d b ∧ now ≤ b ∧
      ∀ t n, e.tick ≤ t → t ≤ b → e.after.Abides n → InTime removal Q k (.fresh t n)
  | .act _ _ | .never | .spawn _ _ => False

/-- An activity at rest that is in time stands within its limit. -/
theorem InTime.stands {α : Type} {removal : Option Nat} {Q : α → Poll Node Work → Prop}
    {e : Poll Node Work} {p : Activity Node Work α} (h : InTime removal Q p e)
    (hp : p.atRest = true) : Stands removal Q e e.tick p := by
  cases p with
  | done a => exact h
  | act u k => cases hp
  | wait r d k =>
    obtain ⟨b, hb, hnext⟩ := h
    exact ⟨b, hb, hb.le, hnext⟩
  | never => exact h
  | spawn x k => cases hp

/-- A wait that stands is over when the activity is due, or before. -/
theorem Stands.le {α : Type} {removal : Option Nat} {Q : α → Poll Node Work → Prop} {due : Nat}
    (hQ : ∀ a e, Q a e → e.tick ≤ due) {e : Poll Node Work} {ready : Node → Bool}
    {d : Option Nat} {b : Nat} {k : Activity Node Work α} (hb : OverBy removal e ready d b)
    (hnext : ∀ t n, e.tick ≤ t → t ≤ b → e.after.Abides n → InTime removal Q k (.fresh t n)) :
    b ≤ due := by
  obtain ⟨a, e', hle, hend⟩ := InTime.ends _ _ (hnext b e.after hb.le (Nat.le_refl _) (.refl _))
  exact Nat.le_trans hle (hQ a e' hend)

/-- Whether a removal that was started at a tick is marked, or begins at that tick, or began at it. -/
def Process.Removing (p : Process) (tick ticket : Nat) : Prop :=
  ticket ∈ p.history.now.state.forgotten ∨
    ∃ m ∈ p.members, (∃ key, m.role = .task (.forget key ticket)) ∧
      ((m.first = none ∧ p.history.now.tick = tick) ∨ ∃ first, m.first = some first ∧
        first.tick = tick)

/-- A member that began at a moment, since the poll in which it was last. -/
structure Member.Standing (n : Node) (p : Process) (m : Member) (first : Moment Node)
    (limit : Nat) (e : Poll Node Work) : Prop where
  last : e.tick = m.last
  after : first.tick ≤ e.tick
  before : e.tick ≤ p.history.now.tick
  /-- What its limit was reckoned from has not changed since. -/
  abides : e.after.Abides p.history.now.state
  /-- A removal that it has started is under way, or done. -/
  removing : ∀ key ticket, .forget key ticket ∈ e.started → p.Removing e.tick ticket
  /-- It stands within what is left of its limit. -/
  stands : Stands (m.role.removal? n) (m.role.Finish (first.tick + limit)) e p.history.now.tick
    m.rest

/-- Whether a member of a process is on time, by the limits of a node. -/
structure Member.OnTime (n : Node) (p : Process) (m : Member) : Prop where
  respects : m.rest.Respects Node.Abides
  unbegun : m.first = none → m.rest = m.role.activity
  begun : ∀ first, m.first = some first → ∀ limit, m.role.limit? n = some limit →
    ∃ e, m.Standing n p first limit e

/-- Whether a process is on time, by the limits of a node: all its members are. -/
structure Process.OnTime (n : Node) (p : Process) : Prop where
  abides : n.Abides p.history.now.state
  members : ∀ m ∈ p.members, m.OnTime n p

namespace Member.OnTime

variable {n : Node} {p p' : Process} {m : Member}

theorem new (r : Role) : (Member.new r).OnTime n p := by
  refine ⟨r.respects, fun _ => rfl, ?_⟩
  rintro first ⟨⟩

/-- What others do without time passing leaves a member on time. -/
theorem later (h : m.OnTime n p) (ht : p'.history.now.tick = p.history.now.tick)
    (hab : p.history.now.state.Abides p'.history.now.state)
    (hrem : ∀ tick ticket, p.Removing tick ticket → p'.Removing tick ticket) :
    m.OnTime n p' := by
  refine ⟨h.respects, h.unbegun, ?_⟩
  intro first hfirst limit hlimit
  obtain ⟨e, he⟩ := h.begun first hfirst limit hlimit
  refine ⟨e, he.last, he.after, ht ▸ he.before, he.abides.trans hab, ?_, ht ▸ he.stands⟩
  exact fun key ticket hx => hrem _ _ (he.removing key ticket hx)

end Member.OnTime

/-! ## Steps -/

namespace Process

variable {n : Node} {C : Circumstances}

namespace Removing

variable {p p' : Process} {tick ticket : Nat}

/-- A removal goes on where its members stay and its marks are kept, without time passing. -/
theorem stay (hr : p.Removing tick ticket) (ht : p'.history.now.tick = p.history.now.tick)
    (hab : p.history.now.state.Abides p'.history.now.state) (hm : ∀ m ∈ p.members, m ∈ p'.members) :
    p'.Removing tick ticket := by
  rcases hr with hmark | ⟨m, hmem, hrole, hwhen⟩
  · exact .inl (hab.forgotten _ hmark)
  · exact .inr ⟨m, hm m hmem, hrole, ht.symm ▸ hwhen⟩

/-- A poll leaves a removal under way, also if it is the removal that is polled. -/
theorem polled {h : History Node} {xs ys : List Member} {r : Role} {old : Member}
    {first : Moment Node} {q : Activity Node Work r.Answer} (hrole : old.role = r)
    (hfirst : old.first = some first ∨ old.first = none ∧ first = h.now)
    (hab : h.now.state.Abides (Process.polled h xs r first q ys).history.now.state)
    (hr : Removing ⟨h, xs ++ old :: ys⟩ tick ticket) :
    (Process.polled h xs r first q ys).Removing tick ticket := by
  rcases hr with hmark | ⟨m, hm, hmrole, hwhen⟩
  · exact .inl (hab.forgotten _ hmark)
  · refine .inr ?_
    rcases List.mem_append.mp hm with hm | hm
    · exact ⟨m, List.mem_append_left _ (List.mem_append_left _ hm), hmrole, hwhen⟩
    · rcases List.mem_cons.mp hm with rfl | hm
      · refine ⟨_, List.mem_append_left _ (List.mem_append_right _ (List.mem_cons_self ..)),
          hrole ▸ hmrole, .inr ⟨first, rfl, ?_⟩⟩
        -- it began when it began, or begins now
        rcases hfirst with hbegan | ⟨hnone, rfl⟩
        · rcases hwhen with ⟨hnew, _⟩ | ⟨f, hf, htick⟩
          · rw [hbegan] at hnew
            cases hnew
          · rw [hbegan] at hf
            obtain rfl := Option.some.inj hf
            exact htick
        · rcases hwhen with ⟨_, htick⟩ | ⟨f, hf, _⟩
          · exact htick
          · rw [hnone] at hf
            cases hf
      · exact ⟨m, List.mem_append_left _ (List.mem_append_right _ (List.mem_cons_of_mem _ hm)),
          hmrole, hwhen⟩

/-- A removal goes on when another member goes away; or the one that does, but it has left its
    mark. -/
theorem without {h : History Node} {xs ys : List Member} {old : Member}
    (hold : ∀ key, old.role = .task (.forget key ticket) → ticket ∈ h.now.state.forgotten)
    {members : List Member} (hxs : ∀ m ∈ xs, m ∈ members) (hys : ∀ m ∈ ys, m ∈ members)
    (hr : Removing ⟨h, xs ++ old :: ys⟩ tick ticket) : Removing ⟨h, members⟩ tick ticket := by
  rcases hr with hmark | ⟨m, hm, ⟨key, hrole⟩, hwhen⟩
  · exact .inl hmark
  · rcases List.mem_append.mp hm with hm | hm
    · exact .inr ⟨m, hxs m hm, ⟨key, hrole⟩, hwhen⟩
    · rcases List.mem_cons.mp hm with rfl | hm
      · exact .inl (hold key hrole)
      · exact .inr ⟨m, hys m hm, ⟨key, hrole⟩, hwhen⟩

end Removing

namespace OnTime

/-- Another member joins. -/
theorem joined {p : Process} (hk : p.OnTime n) (r : Role) :
    OnTime n { p with members := p.members ++ [.new r] } := by
  refine ⟨hk.abides, ?_⟩
  intro m hm
  rcases List.mem_append.mp hm with hm | hm
  · refine (hk.members m hm).later rfl (.refl _) fun tick ticket hr => ?_
    exact hr.stay rfl (.refl _) fun m hm => List.mem_append_left _ hm
  · rw [List.mem_singleton.mp hm]
    exact .new r

/-- A member is polled that is in time: it stands, with whatever it has started. -/
theorem polled {h : History Node} {xs ys : List Member} {r : Role} {old : Member}
    {first : Moment Node} {q : Activity Node Work r.Answer}
    (hk : OnTime n ⟨h, xs ++ old :: ys⟩) (hrole : old.role = r)
    (hfirst : old.first = some first ∨ old.first = none ∧ first = h.now)
    (hq : q.Respects Node.Abides)
    (hin : ∀ limit, r.limit? n = some limit → first.tick ≤ h.now.tick ∧
      InTime (r.removal? n) (r.Finish (first.tick + limit)) q (.fresh h.now.tick h.now.state)) :
    OnTime n (Process.polled h xs r first q ys) := by
  obtain ⟨hab, hrest⟩ := hq.poll .refl .trans (.fresh h.now.tick h.now.state)
  refine ⟨hk.abides.trans hab, ?_⟩
  have hother : ∀ m ∈ xs ++ old :: ys, m.OnTime n (Process.polled h xs r first q ys) :=
    fun m hm => (hk.members m hm).later rfl hab fun _ _ hr => hr.polled hrole hfirst hab
  intro m hm
  rcases List.mem_append.mp hm with hm | hm
  · refine forall_mem_replaced hother ?_ m hm
    refine ⟨hrest, nofun, ?_⟩
    rintro _ ⟨⟩ limit hlimit
    obtain ⟨hle, htime⟩ := hin limit hlimit
    obtain ⟨hend, hatRest, htick⟩ := InTime.poll q _ htime
    have hnow : (q.poll (.fresh h.now.tick h.now.state)).1.tick = h.now.tick := htick
    refine ⟨(q.poll (.fresh h.now.tick h.now.state)).1, hnow, hnow.symm ▸ hle,
      Nat.le_of_eq hnow, .refl _, ?_, ?_⟩
    · -- the tasks that were started in the poll have joined
      intro key ticket hx
      refine .inr ⟨.new (.task (.forget key ticket)), ?_, ⟨key, rfl⟩, .inl ⟨rfl, hnow.symm⟩⟩
      exact List.mem_append_right _ (List.mem_map.mpr ⟨_, hx, rfl⟩)
    · have hstands := hend.stands hatRest
      rw [hnow] at hstands
      exact hstands
  · obtain ⟨w, _, rfl⟩ := List.mem_map.mp hm
    exact .new _

/-- A removal that has begun, and is not marked, holds back time at its limit. -/
theorem removal_le {p : Process} (hk : p.OnTime n) {t : Nat} {m : Member} (hm : m ∈ p.members)
    {key : SessionKey} {ticket : Nat} (hrole : m.role = .task (.forget key ticket))
    {first : Moment Node} (hfirst : m.first = some first)
    (hmark : ticket ∉ p.history.now.state.forgotten)
    (hp : Punctual (Machine.deadline? m.rest) p.history.now.tick t) :
    t ≤ first.tick + n.settings.cacheTimeout.ticks := by
  obtain ⟨role, first', last, rest⟩ := m
  obtain rfl : role = .task (.forget key ticket) := hrole
  obtain ⟨e, he⟩ := (hk.members _ hm).begun first hfirst _ rfl
  have hstands := he.stands
  cases rest with
  | act u k => exact hstands.elim
  | never => exact hstands.elim
  | spawn x k => exact hstands.elim
  -- a removal that had ended would have left its mark
  | done a => exact absurd (he.abides.forgotten _ hstands.2) hmark
  | wait r d k =>
    -- it waits, so time cannot go past the deadline of its wait, which the limit bounds
    obtain ⟨b, hb, hnow, hnext⟩ := hstands
    have hdue : b ≤ first.tick + n.settings.cacheTimeout.ticks :=
      Stands.le (fun _ _ hQ => hQ.1) hb hnext
    cases hb with
    | removed ht => cases ht
    | deadline d =>
      have hlate : t ≤ max d p.history.now.tick := hp d rfl
      have hbefore := he.before
      omega

/-- While all members are idle, time does not pass beyond the wait of a member that stands. -/
theorem wait_le {p : Process} (hk : p.OnTime n) {t : Nat}
    (hp : ∀ m ∈ p.members, Punctual (Machine.deadline? m.rest) p.history.now.tick t)
    (hidle : ∀ m ∈ p.members, m.idle p.history.now = true) {r : Role} {e : Poll Node Work}
    (hbefore : e.tick ≤ p.history.now.tick)
    (hremoving : ∀ key ticket, .forget key ticket ∈ e.started → p.Removing e.tick ticket)
    {ready : Node → Bool} {d : Option Nat} {b : Nat} (hb : OverBy (r.removal? n) e ready d b)
    (hnow : p.history.now.tick ≤ b) (hd : Punctual d p.history.now.tick t)
    (hready : ready p.history.now.state = false) : t ≤ b := by
  cases hb with
  | deadline d =>
    have hlate : t ≤ max d p.history.now.tick := hd d rfl
    omega
  | @removed d key ticket ticks hticks hx hr =>
    -- the removal is not marked, so its task holds back time
    have hmark : ticket ∉ p.history.now.state.forgotten := by
      intro hmark
      rw [hr _ hmark] at hready
      cases hready
    have hsame : ticks = n.settings.cacheTimeout.ticks := by
      cases r with
      | call c => exact (Option.some.inj hticks).symm
      | task w => cases hticks
    rcases hremoving key ticket hx with hdone | ⟨x, hxm, ⟨key', hrole⟩, hnew | ⟨f, hf, htick⟩⟩
    · exact absurd hdone hmark
    · exact absurd hnew.1 (Member.begun_of_idle (hidle x hxm))
    · have hlate := hk.removal_le hxm hrole hf hmark (hp x hxm)
      omega

/-- **Time passes only as far as everybody is on time.** -/
theorem pass {p : Process} {t : Nat} (hk : p.OnTime n) (ht : p.history.now.tick ≤ t)
    (hp : ∀ m ∈ p.members, Punctual (Machine.deadline? m.rest) p.history.now.tick t)
    (hidle : p.history.now.tick < t → ∀ m ∈ p.members, m.idle p.history.now = true) :
    OnTime n { p with history := p.history.push ⟨t, p.history.now.state⟩ } := by
  refine ⟨hk.abides, ?_⟩
  rcases Nat.eq_or_lt_of_le ht with heq | hlt
  · -- no time at all
    intro m hm
    refine (hk.members m hm).later heq.symm (.refl _) fun tick ticket hr => ?_
    exact hr.stay heq.symm (.refl _) fun m hm => hm
  · have hstill := hidle hlt
    have hremoving : ∀ tick ticket, p.Removing tick ticket →
        Removing { p with history := p.history.push ⟨t, p.history.now.state⟩ } tick ticket := by
      rintro tick ticket (hmark | ⟨m, hm, hrole, hnew | hfirst⟩)
      · exact .inl hmark
      · exact absurd hnew.1 (Member.begun_of_idle (hstill m hm))
      · exact .inr ⟨m, hm, hrole, .inr hfirst⟩
    intro m hm
    have hm' := hk.members m hm
    refine ⟨hm'.respects, hm'.unbegun, ?_⟩
    intro first hfirst limit hlimit
    obtain ⟨e, he⟩ := hm'.begun first hfirst limit hlimit
    refine ⟨e, he.last, he.after, Nat.le_trans he.before ht, he.abides,
      fun key ticket hx => hremoving _ _ (he.removing key ticket hx), ?_⟩
    have hstands := he.stands
    have hpunctual := hp m hm
    have hwaits := Member.waits_of_idle (hstill m hm)
    obtain ⟨role, first', last, rest⟩ := m
    cases rest with
    | act u k => exact hstands
    | never => exact hstands
    | spawn x k => exact hstands
    | done a => exact hstands
    | wait r d k =>
      obtain ⟨b, hb, hnow, hnext⟩ := hstands
      have hready : r p.history.now.state = false := (Bool.or_eq_false_iff.mp hwaits).1
      have hle := hk.wait_le hp hstill he.before he.removing hb hnow hpunctual hready
      exact ⟨b, hb, hle, hnext⟩

/-- A task that ends leaves what it was for, so another one may take its place. -/
theorem renewed {h : History Node} {xs ys : List Member} {w w' : Work} {first : Option (Moment Node)}
    {last : Nat} (hk : OnTime n ⟨h, xs ++ ⟨.task w, first, last, .done (some w')⟩ :: ys⟩) :
    OnTime n ⟨h, xs ++ .new (.task w') :: ys⟩ := by
  have hold := hk.members ⟨.task w, first, last, .done (some w')⟩ (by simp)
  -- a removal that has ended has left its mark
  have hmark : ∀ key ticket, Role.task w = .task (.forget key ticket) →
      ticket ∈ h.now.state.forgotten := by
    intro key ticket hrole
    obtain rfl : w = .forget key ticket := Role.task.inj hrole
    cases first with
    | none =>
      have hnew : (.done (some w') : Task Node Work) = Node.forgetTurn key ticket :=
        hold.unbegun rfl
      cases hnew
    | some first =>
      obtain ⟨e, he⟩ := hold.begun first rfl _ rfl
      exact he.abides.forgotten _ he.stands.2
  have hremoving : ∀ tick ticket,
      Removing ⟨h, xs ++ ⟨.task w, first, last, .done (some w')⟩ :: ys⟩ tick ticket →
        Removing ⟨h, xs ++ .new (.task w') :: ys⟩ tick ticket := by
    intro tick ticket hr
    refine hr.without (fun key hrole => hmark key ticket hrole) ?_ ?_
    · exact fun m hm => List.mem_append_left _ hm
    · exact fun m hm => List.mem_append_right _ (List.mem_cons_of_mem _ hm)
  refine ⟨hk.abides, ?_⟩
  have hother : ∀ m ∈ xs ++ ⟨.task w, first, last, .done (some w')⟩ :: ys,
      m.OnTime n ⟨h, xs ++ .new (.task w') :: ys⟩ :=
    fun m hm => (hk.members m hm).later rfl (.refl _) hremoving
  exact forall_mem_replaced hother (.new _)

/-- A call is dropped; the removal that it has started goes on. -/
theorem dropped {h : History Node} {xs ys : List Member} {c : Call} {first : Option (Moment Node)}
    {last : Nat} {q : Activity Node Work c.Answer}
    (hk : OnTime n ⟨h, xs ++ ⟨.call c, first, last, q⟩ :: ys⟩) : OnTime n ⟨h, xs ++ ys⟩ := by
  have hremoving : ∀ tick ticket,
      Removing ⟨h, xs ++ ⟨.call c, first, last, q⟩ :: ys⟩ tick ticket →
        Removing ⟨h, xs ++ ys⟩ tick ticket := by
    intro tick ticket hr
    refine hr.without (fun key hrole => by cases hrole) ?_ ?_
    · exact fun m hm => List.mem_append_left _ hm
    · exact fun m hm => List.mem_append_right _ hm
  exact ⟨hk.abides, fun m hm =>
    (forall_mem_without hk.members m hm).later rfl (.refl _) hremoving⟩

/-- **A prompt step keeps everybody on time.** -/
theorem step {p p' : Process} (hk : p.OnTime n) (hC : ∀ m m', C.changes m m' → m.Abides m')
    (hs : Prompt C p p') : p'.OnTime n := by
  obtain ⟨hstep, hidle⟩ := hs
  cases hstep with
  | call hc => exact hk.joined _
  -- who joins has not begun, so owes nothing yet
  | sweeper => exact hk.joined _
  | @begin h xs r last q ys =>
    -- a member's first poll: its limit runs from now
    have hm := hk.members ⟨r, none, last, q⟩ (by simp)
    obtain rfl : q = r.activity := hm.unbegun rfl
    refine hk.polled rfl (.inr ⟨rfl, rfl⟩) r.respects ?_
    intro limit hlimit
    exact ⟨Nat.le_refl _, r.inTime hlimit hk.abides _⟩
  | @resume h xs r first last ready d q ys hr =>
    -- a later poll: what it rested on still stands here, and gives the rest of its limit
    have hm := hk.members ⟨r, some first, last, .wait ready d q⟩ (by simp)
    refine hk.polled rfl (.inl rfl) hm.respects ?_
    intro limit hlimit
    obtain ⟨e, he⟩ := hm.begun first rfl limit hlimit
    obtain ⟨b, _, hnow, hnext⟩ := he.stands
    exact ⟨Nat.le_trans he.after he.before, hnext _ _ he.before hnow he.abides⟩
  | renew => exact hk.renewed
  | drop => exact hk.dropped
  | pass ht hp => exact hk.pass ht hp hidle
  -- a change from outside is one the members abide
  | @change p n' hn =>
    have hab := hC _ _ hn
    refine ⟨hk.abides.trans hab, fun m hm => (hk.members m hm).later rfl hab ?_⟩
    exact fun tick ticket hr => hr.stay rfl hab fun m hm => hm

/-- A process that begins is on time. -/
theorem start (n : Node) : (Process.start n).OnTime n := by
  refine ⟨.refl n, ?_⟩
  intro m hm
  obtain ⟨i, _, rfl⟩ := List.mem_map.mp hm
  exact .new _

/-- **Everybody is on time in every prompt run.** -/
theorem runs {p p' : Process} (hk : p.OnTime n) (hC : ∀ m m', C.changes m m' → m.Abides m')
    (hr : PromptRuns C p p') : p'.OnTime n := by
  induction hr with
  | refl => exact hk
  | tail _ hs ih => exact ih.step hC hs

end OnTime

/-- **No member spends more than its limit**, in any prompt run, whatever happens to the node that
    leaves its settings alone: neither one that has finished, nor one that has not. -/
theorem spent_le {p : Process} (hC : ∀ m m', C.changes m m' → m.Abides m')
    (hp : PromptRuns C (.start n) p) {m : Member} (hm : m ∈ p.members) {first : Moment Node}
    (hfirst : m.first = some first) {limit : Nat} (hlimit : m.role.limit? n = some limit) :
    m.spent first p.history.now.tick ≤ limit := by
  obtain ⟨e, he⟩ := (((OnTime.start n).runs hC hp).members m hm).begun first hfirst limit hlimit
  obtain ⟨role, first', last, rest⟩ := m
  have hstands := he.stands
  cases rest with
  | act u k => exact hstands.elim
  | never => exact hstands.elim
  | spawn x k => exact hstands.elim
  | done a =>
    have hlast : e.tick = last := he.last
    have hdue : e.tick ≤ first.tick + limit := hstands.1
    show last - first.tick ≤ limit
    omega
  | wait r d k =>
    obtain ⟨b, hb, hnow, hnext⟩ := hstands
    have hdue : b ≤ first.tick + limit := Stands.le (fun _ _ hQ => hQ.1) hb hnext
    show p.history.now.tick - first.tick ≤ limit
    omega

/-! ## Scripts -/

/-- Only where a script lets time pass, it passes. -/
theorem tick_heed {cue : Cue} (hcue : ∀ t, cue ≠ .pass t) (p : Process) :
    (p.heed cue).history.now.tick = p.history.now.tick := by
  cases cue with
  | call c => rfl
  | pass t => exact absurd rfl (hcue t)
  | change f => rfl
  | poll i =>
    show (p.poll i).history.now.tick = p.history.now.tick
    unfold poll
    split
    · rfl
    · split <;> rfl
    · rfl
  | renew i =>
    show (p.renew i).history.now.tick = p.history.now.tick
    unfold renew
    split <;> rfl

/-- A cue is a prompt step, or nothing at all, if all are idle when it lets time pass. -/
theorem prompt_heed {cue : Cue} (hc : C.Admits cue) (p : Process)
    (hidle : ∀ t, cue = .pass t → p.history.now.tick < t →
      ∀ m ∈ p.members, m.idle p.history.now = true) :
    p.heed cue = p ∨ Prompt C p (p.heed cue) := by
  rcases step_heed hc p with hnone | hstep
  · exact .inl hnone
  · refine .inr ⟨hstep, fun hlt => ?_⟩
    by_cases hcue : ∃ t, cue = .pass t
    · obtain ⟨t, rfl⟩ := hcue
      refine hidle t rfl ?_
      simp only [heed] at hlt
      split at hlt
      · exact hlt
      · exact absurd hlt (Nat.lt_irrefl _)
    · have hsame := tick_heed (fun t ht => hcue ⟨t, ht⟩) p
      omega

/-- A call can be made at any time. -/
theorem prompt_call {c : Call} (hc : C.calls c) (p : Process) : Prompt C p (p.heed (.call c)) :=
  ⟨.call hc, fun hlt => absurd hlt (Nat.lt_irrefl _)⟩

/-- The node can be changed at any time. -/
theorem prompt_change {f : Node → Node} (hf : ∀ n, C.changes n (f n)) (p : Process) :
    Prompt C p (p.heed (.change f)) :=
  ⟨.change (hf _), fun hlt => absurd hlt (Nat.lt_irrefl _)⟩

/-- What comes next if nothing happens from outside: a member that can go on does, or a task that
    has ended gives way; and if there is none, time passes up to the next deadline. -/
def nextCue? (p : Process) : Option Cue :=
  match p.members.findIdx? (fun m => !m.idle p.history.now) with
  | some i => some (.poll i)
  | none =>
    match p.members.findIdx? Member.givesWay with
    | some i => some (.renew i)
    | none => ((p.members.filterMap fun m => Machine.deadline? m.rest).min?).map .pass

/-- The process after a number of cues, each the next if nothing happens from outside. -/
def attend : Nat → Process → Process
  | 0, p => p
  | n + 1, p =>
    match p.nextCue? with
    | some cue => attend n (p.heed cue)
    | none => p

/-- The next cue lets time pass only when all members are idle. -/
theorem idle_of_nextCue? {p : Process} {t : Nat} (h : p.nextCue? = some (.pass t)) :
    ∀ m ∈ p.members, m.idle p.history.now = true := by
  unfold nextCue? at h
  split at h
  · cases h
  · rename_i hnone
    intro m hm
    have hm' := List.findIdx?_eq_none_iff.mp hnone m hm
    simpa using hm'

/-- **A process that is left to itself makes a prompt run.** -/
theorem promptRuns_attend (steps : Nat) : ∀ p : Process, PromptRuns C p (attend steps p) := by
  induction steps with
  | zero => exact fun p => .refl
  | succ steps ih =>
    intro p
    unfold attend
    split
    · rename_i cue hcue
      -- the cues of an idle process, a wake-up or the passing of time, are in everybody's power
      have hadmits : C.Admits cue := by
        unfold nextCue? at hcue
        split at hcue
        · obtain rfl := Option.some.inj hcue
          trivial
        · split at hcue
          · obtain rfl := Option.some.inj hcue
            trivial
          · obtain ⟨t, _, rfl⟩ := Option.map_eq_some_iff.mp hcue
            trivial
      have hrest := ih (p.heed cue)
      rcases prompt_heed hadmits p (fun t ht _ => idle_of_nextCue? (ht ▸ hcue)) with hnone | hstep
      · -- nobody heeds the cue: the process stays where it is
        rw [hnone] at hrest ⊢
        exact hrest
      · exact .head hstep hrest
    · exact .refl

end Process

end SessionCluster
