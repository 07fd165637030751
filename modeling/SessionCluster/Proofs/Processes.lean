/-
  Processes — a node with everything that runs on it.

  A process is one node and its members: calls, with settings of their own, and tasks — the
  workers of the lanes, removals from the cache, sweepers.  All share the node, so the calls of any
  number of coordinators meet in one store, one cache and one set of lanes.

  Members go on in polls, in any order.  A member begins once, later goes on when what it waits for
  has come, and may be dropped if it is a call; a task that ends may name another in its place.
  Between polls time passes, but never beyond the deadline of a member that waits; and the
  surroundings may change the node, as far as `Circumstances` let them.  The history of a process
  has a moment for each of these steps.

  Two results:

  * `Pact.Governs` — what it takes for a pact to govern processes: its parts fit together, and
    whoever joins is safe under it;
  * `Process.Kept.runs` — a pact that governs is kept in every run: its invariant holds at every
    moment, and every member that has finished has ended well.
-/
import SessionCluster.Node.Tasks
import SessionCluster.Proofs.Interleaving
import SessionCluster.Proofs.Pacts
import Mathlib.Data.List.Nodup

namespace SessionCluster

open Activity

/-! ## Roles -/

namespace Call

/-- How long a call waits for the store. -/
def storeLimit : Call → Span
  | .create s .. | .get s .. | .update s .. | .delete s .. | .touch s .. => s.storeTimeout
  | .sweep s => s.storeTimeout

/-- How long a call waits for the cache. -/
def cacheLimit : Call → Span
  | .create s .. | .get s .. | .update s .. | .delete s .. | .touch s .. => s.cacheTimeout
  | .sweep s => s.cacheTimeout

end Call

/-- The lane that a task is the worker of. -/
def Work.lane? : Work → Option Nat
  | .lane i => some i
  | .forget _ _ | .sweeperStart | .sweeper _ => none

/-- What a member of a process does. -/
inductive Role where
  | call (c : Call)
  | task (w : Work)

namespace Role

/-- What comes of it. -/
def Answer : Role → Type
  | .call c => c.Answer
  | .task _ => Option Work

/-- How it is done. -/
def activity : (r : Role) → Activity Node Work r.Answer
  | .call c => ofProgram (Node.answer c.storeLimit c.cacheLimit) c.operation
  | .task w => Node.body w

/-- The seat of a member: the lane that it alone works for, if there is one. -/
def seat : Role → Option Nat
  | .call _ => none
  | .task w => w.lane?

end Role

/-! ## Processes -/

/-- A member of a process: the moment of its first poll, the tick of its latest, and what is left
    of it. -/
structure Member where
  role : Role
  first : Option (Moment Node)
  last : Nat
  rest : Activity Node Work role.Answer

/-- A member that has not begun. -/
def Member.new (r : Role) : Member := ⟨r, none, 0, r.activity⟩

def Member.seat (m : Member) : Option Nat := m.role.seat

/-- A node with its members, and all its moments so far. -/
structure Process where
  history : History Node
  members : List Member

namespace Process

/-- A process that begins, with a worker for every lane. -/
def start (n : Node) : Process where
  history := ⟨⟨0, n⟩, []⟩
  members := (List.range n.lanes.count).map fun i => .new (.task (.lane i))

/-- What becomes of a process when a member goes on that began at a moment: it stays among the
    others, and the tasks that it has started join. -/
def polled (h : History Node) (xs : List Member) (r : Role) (first : Moment Node)
    (p : Activity Node Work r.Answer) (ys : List Member) : Process :=
  let polled := p.poll (Turn.fresh h).poll
  { history := h.push ⟨h.now.tick, polled.1.after⟩
    members := xs ++ ⟨r, some first, h.now.tick, polled.2⟩ :: ys ++
      polled.1.started.map fun w => .new (.task w) }

end Process

/-- Which calls may be made in a process, and what its surroundings may do to the node. -/
structure Circumstances where
  calls : Call → Prop
  changes : Node → Node → Prop

namespace Process

/-- A step of a process. -/
inductive Step (C : Circumstances) : Process → Process → Prop where
  /-- A call is made. -/
  | call {p : Process} {c : Call} (hc : C.calls c) :
      Step C p { p with members := p.members ++ [.new (.call c)] }
  /-- A sweeper is started. -/
  | sweeper {p : Process} :
      Step C p { p with members := p.members ++ [.new (.task .sweeperStart)] }
  /-- A member begins. -/
  | begin {h xs r last p ys} :
      Step C ⟨h, xs ++ ⟨r, none, last, p⟩ :: ys⟩ (polled h xs r h.now p ys)
  /-- A member goes on that has waited. -/
  | resume {h xs r first last ready d p ys}
      (hr : (ready h.now.state || reached d h.now.tick) = true) :
      Step C ⟨h, xs ++ ⟨r, some first, last, .wait ready d p⟩ :: ys⟩ (polled h xs r first p ys)
  /-- A task that has ended names another in its place. -/
  | renew {h xs w first last w' ys} :
      Step C ⟨h, xs ++ ⟨.task w, first, last, .done (some w')⟩ :: ys⟩
        ⟨h, xs ++ .new (.task w') :: ys⟩
  /-- A call is dropped. -/
  | drop {h xs c first last p ys} :
      Step C ⟨h, xs ++ ⟨.call c, first, last, p⟩ :: ys⟩ ⟨h, xs ++ ys⟩
  /-- Time passes, but for no member beyond its deadline. -/
  | pass {p : Process} {t : Nat} (ht : p.history.now.tick ≤ t)
      (hp : ∀ m ∈ p.members, Punctual (Machine.deadline? m.rest) p.history.now.tick t) :
      Step C p { p with history := p.history.push ⟨t, p.history.now.state⟩ }
  /-- The surroundings change the node. -/
  | change {p : Process} {n : Node} (hn : C.changes p.history.now.state n) :
      Step C p { p with history := p.history.push ⟨p.history.now.tick, n⟩ }

/-- Any number of steps. -/
abbrev Runs (C : Circumstances) : Process → Process → Prop := Relation.ReflTransGen (Step C)

end Process

/-! ## Pacts that govern -/

/-- What a pact is about: its invariant, what members may do and rely on, and in what each of them
    ends that began at a moment. -/
abbrev NodePact := Pact Node Work (Option Nat)

/-- In what members end, by their role and the moment at which they began. -/
abbrev Endings := (r : Role) → Moment Node → r.Answer → History Node → Prop

/-- A pact that fits processes under some circumstances: what is allowed, what time does and what
    the surroundings do keeps the invariant and is what others rely on, and everyone is safe. -/
structure Pact.Governs (P : NodePact) (C : Circumstances) (post : Endings) : Prop where
  /-- An allowed poll keeps the invariant, -/
  poll : ∀ {k g}, P.inv g.history → P.allows k g → P.inv g.ended
  /-- and is what the others that wait may see. -/
  seen : ∀ {k k' g}, P.inv g.history → P.allows k g → (k = none ∨ k ≠ k') →
    P.meanwhile k' g.history.now ⟨g.tick, g.state⟩
  /-- Tasks that are started have no seat, -/
  started : ∀ {k g}, P.allows k g → ∀ w ∈ g.started, w.lane? = none
  /-- and a task that goes on keeps its own or has none. -/
  renewed : ∀ {w m w' h}, post (.task w) m (some w') h → w'.lane? = none ∨ w'.lane? = w.lane?
  /-- The passing of time keeps the invariant, -/
  pass : ∀ {h t}, P.inv h → h.now.tick ≤ t → P.inv (h.push ⟨t, h.now.state⟩)
  passSeen : ∀ {k} {m : Moment Node} {t}, m.tick ≤ t → P.meanwhile k m ⟨t, m.state⟩
  /-- and so does a change from outside. -/
  change : ∀ {h n}, P.inv h → C.changes h.now.state n → P.inv (h.push ⟨h.now.tick, n⟩)
  changeSeen : ∀ {k h n}, P.inv h → C.changes h.now.state n →
    P.meanwhile k h.now ⟨h.now.tick, n⟩
  /-- Whoever joins while the invariant holds is safe. -/
  safe : ∀ {r : Role} {h : History Node}, (∀ c, r = .call c → C.calls c) → P.inv h →
    Safe P r.seat (fun _ => True) (P.Ends r.seat (post r h.now)) r.activity (.fresh h)

/-! ## Soundness -/

/-- A member that has kept a pact up to a history: it has not begun, or is at rest since its latest
    poll, and no deadline has been missed. -/
structure Member.Kept (P : NodePact) (C : Circumstances) (post : Endings) (h : History Node)
    (m : Member) : Prop where
  admitted : ∀ c, m.role = .call c → C.calls c
  unbegun : m.first = none → m.rest = m.role.activity
  begun : ∀ first, m.first = some first →
    ∃ since : History Node, since.Continues (P.meanwhile m.seat) h ∧
      since.now.tick = m.last ∧
      Punctual (Machine.deadline? m.rest) m.last h.now.tick ∧
      P.Rests m.seat (post m.role first) since m.rest

/-- A process that has kept a pact: its invariant holds, no two members have one seat, and every
    member has kept it. -/
structure Process.Kept (P : NodePact) (C : Circumstances) (post : Endings) (p : Process) :
    Prop where
  inv : P.inv p.history
  seats : (p.members.filterMap Member.seat).Nodup
  members : ∀ m ∈ p.members, m.Kept P C post p.history

variable {P : NodePact} {C : Circumstances} {post : Endings}

namespace Member.Kept

theorem new {r : Role} {h : History Node} (hr : ∀ c, r = .call c → C.calls c) :
    (Member.new r).Kept P C post h := by
  refine ⟨hr, fun _ => rfl, ?_⟩
  rintro first ⟨⟩

/-- Another moment that the member may rely on. -/
theorem push {m : Member} {h : History Node} {m' : Moment Node} (hm : m.Kept P C post h)
    (hseen : P.meanwhile m.seat h.now m') (ht : h.now.tick ≤ m'.tick)
    (hp : Punctual (Machine.deadline? m.rest) h.now.tick m'.tick) :
    m.Kept P C post (h.push m') := by
  refine ⟨hm.admitted, hm.unbegun, ?_⟩
  intro first hfirst
  obtain ⟨since, hcont, hlast, hpunct, hrest⟩ := hm.begun first hfirst
  refine ⟨since, hcont.push hseen ht, hlast, ?_, hrest⟩
  intro d hd
  have hbefore : h.now.tick ≤ max d m.last := hpunct d hd
  have hafter : m'.tick ≤ max d h.now.tick := hp d hd
  show m'.tick ≤ max d m.last
  omega

/-- A moment without any time passing. -/
theorem pushNow {m : Member} {h : History Node} {n : Node} (hm : m.Kept P C post h)
    (hseen : P.meanwhile m.seat h.now ⟨h.now.tick, n⟩) :
    m.Kept P C post (h.push ⟨h.now.tick, n⟩) :=
  hm.push hseen (Nat.le_refl _) fun _ _ => Nat.le_max_right ..

end Member.Kept

namespace Process

/-- Of members with different seats, no other has the seat of one. -/
theorem seat_ne {xs ys : List Member} {m z : Member}
    (h : ((xs ++ m :: ys).filterMap Member.seat).Nodup) (hz : z ∈ xs ++ ys) :
    m.seat = none ∨ m.seat ≠ z.seat := by
  cases hm : m.seat with
  | none => exact .inl rfl
  | some i =>
    refine .inr fun heq => ?_
    rw [List.filterMap_append, List.filterMap_cons_some hm] at h
    have hnot : i ∉ xs.filterMap Member.seat ++ ys.filterMap Member.seat :=
      (List.nodup_cons.mp (List.nodup_middle.mp h)).1
    rw [← List.filterMap_append] at hnot
    exact hnot (List.mem_filterMap.mpr ⟨z, hz, heq.symm⟩)

namespace Kept

/-- A poll of a member keeps a pact that governs. -/
theorem polled (hP : P.Governs C post) {h : History Node} {xs ys : List Member} {r : Role}
    {old : Member} {first : Moment Node} {p : Activity Node Work r.Answer}
    (hk : Kept P C post ⟨h, xs ++ old :: ys⟩) (hrole : old.role = r)
    (hsafe : Safe P r.seat (fun _ => True) (P.Ends r.seat (post r first)) p (.fresh h)) :
    Kept P C post (Process.polled h xs r first p ys) := by
  obtain ⟨g, hhist, hpoll, hallow, hrest⟩ := hsafe.rests
  have htick : g.tick = h.now.tick := by rw [Turn.tick, hhist]; rfl
  have hinv : P.inv g.history := by rw [hhist]; exact hk.inv
  have hended : g.ended = h.push ⟨h.now.tick, g.state⟩ := by rw [Turn.ended, hhist, htick]; rfl
  have hmembers : Process.polled h xs r first p ys =
      ⟨h.push ⟨h.now.tick, g.state⟩,
        xs ++ ⟨r, some first, h.now.tick, (p.poll (Turn.fresh h).poll).2⟩ :: ys ++
          g.started.map fun w => .new (.task w)⟩ := by
    simp only [Process.polled, hpoll]
    rfl
  have hothers : ∀ z ∈ xs ++ ys, z.Kept P C post (h.push ⟨h.now.tick, g.state⟩) := by
    intro z hz
    have hseat : r.seat = none ∨ r.seat ≠ z.seat := hrole ▸ seat_ne hk.seats hz
    have hseen := hP.seen hinv hallow hseat
    rw [htick, hhist] at hseen
    exact (forall_mem_without hk.members z hz).pushNow hseen
  have hseated : (g.started.map fun w => Member.new (.task w)).filterMap Member.seat = [] := by
    refine List.filterMap_eq_nil_iff.mpr ?_
    intro m hm
    obtain ⟨w, hw, rfl⟩ := List.mem_map.mp hm
    exact hP.started hallow w hw
  rw [hmembers]
  refine ⟨?_, ?_, ?_⟩
  · rw [← hended]
    exact hP.poll hinv hallow
  · -- the seats are those from before
    have hseats := hk.seats
    simp only [List.filterMap_append, List.filterMap_cons, Member.seat, hrole] at hseats
    simp only [List.filterMap_append, List.filterMap_cons, hseated, List.append_nil]
    exact hseats
  · intro m hm
    rcases List.mem_append.mp hm with hm | hm
    · rcases List.mem_append.mp hm with hm | hm
      · exact hothers m (List.mem_append_left _ hm)
      · rcases List.mem_cons.mp hm with rfl | hm
        · refine ⟨hrole ▸ (hk.members old (by simp)).admitted, nofun, ?_⟩
          rintro _ ⟨⟩
          exact ⟨g.ended, hended ▸ .refl, by rw [hended]; rfl,
            fun _ _ => Nat.le_max_right .., hrest⟩
        · exact hothers m (List.mem_append_right _ hm)
    · obtain ⟨w, _, rfl⟩ := List.mem_map.mp hm
      exact .new nofun

/-- A member that has no seat joins. -/
theorem joined {p : Process} {r : Role} (hk : p.Kept P C post) (hseat : r.seat = none)
    (hr : ∀ c, r = .call c → C.calls c) :
    Kept P C post { p with members := p.members ++ [.new r] } := by
  have hnone : [Member.new r].filterMap Member.seat = [] := List.filterMap_cons_none hseat
  refine ⟨hk.inv, ?_, ?_⟩
  · rw [List.filterMap_append, hnone, List.append_nil]
    exact hk.seats
  · intro m hm
    rcases List.mem_append.mp hm with hm | hm
    · exact hk.members m hm
    · rw [List.mem_singleton.mp hm]
      exact .new hr

/-- A task takes the place of another one, with its seat or none. -/
theorem renewed {h : History Node} {xs ys : List Member} {old : Member} {w : Work}
    (hk : Kept P C post ⟨h, xs ++ old :: ys⟩) (hseat : w.lane? = none ∨ w.lane? = old.seat) :
    Kept P C post ⟨h, xs ++ .new (.task w) :: ys⟩ := by
  have hseats := hk.seats
  rw [List.filterMap_append] at hseats
  refine ⟨hk.inv, ?_, ?_⟩
  · show ((xs ++ Member.new (.task w) :: ys).filterMap Member.seat).Nodup
    rw [List.filterMap_append]
    -- with no seat the seats are some of those before; with the old one's seat they are the same
    rcases hseat with hnone | hsame
    · have hnew : (Member.new (.task w)).seat = none := hnone
      rw [List.filterMap_cons_none hnew]
      exact hseats.sublist (.append_left ((List.sublist_cons_self old ys).filterMap _) _)
    · have hnew : (Member.new (.task w)).seat = old.seat := hsame
      have hcons : (Member.new (.task w) :: ys).filterMap Member.seat =
          (old :: ys).filterMap Member.seat := by
        rw [List.filterMap_cons, List.filterMap_cons, hnew]
      rw [hcons]
      exact hseats
  · -- the others stay, and the new task has not begun
    exact forall_mem_replaced hk.members (.new nofun)

/-- **One step keeps a pact that governs.** -/
theorem step (hP : P.Governs C post) {p p' : Process} (hk : p.Kept P C post)
    (hs : Step C p p') : p'.Kept P C post := by
  cases hs with
  | call hc =>
    refine hk.joined rfl ?_
    rintro _ ⟨⟩
    exact hc
  | sweeper => exact hk.joined rfl nofun
  | @begin h xs r last q ys =>
    have hm := hk.members ⟨r, none, last, q⟩ (by simp)
    have hq : q = r.activity := hm.unbegun rfl
    subst hq
    exact hk.polled hP rfl (hP.safe hm.admitted hk.inv)
  | @resume h xs r first last ready d q ys hr =>
    have hm := hk.members ⟨r, some first, last, .wait ready d q⟩ (by simp)
    obtain ⟨since, hcont, hlast, hpunct, hrest⟩ := hm.begun first rfl
    exact hk.polled hP rfl (hrest h ⟨hk.inv, hcont, hlast ▸ hpunct⟩ hr)
  | @renew h xs w first last w' ys =>
    have hm := hk.members ⟨.task w, first, last, .done (some w')⟩ (by simp)
    refine hk.renewed ?_
    cases first with
    | none =>
      -- no task has ended before it has begun
      have hq : (.done (some w') : Task Node Work) = Node.body w := hm.unbegun rfl
      cases w <;> cases hq
    | some first =>
      obtain ⟨since, _, _, _, hrest⟩ := hm.begun first rfl
      exact hP.renewed hrest
  | @drop h xs c first last q ys =>
    have hsub : (xs ++ ys).Sublist (xs ++ ⟨.call c, first, last, q⟩ :: ys) :=
      .append_left (List.sublist_cons_self _ _) _
    exact ⟨hk.inv, hk.seats.sublist (hsub.filterMap _), fun m hm => hk.members m (hsub.subset hm)⟩
  | pass ht hp =>
    exact ⟨hP.pass hk.inv ht, hk.seats, fun m hm =>
      (hk.members m hm).push (hP.passSeen ht) ht (hp m hm)⟩
  | change hn =>
    exact ⟨hP.change hk.inv hn, hk.seats, fun m hm =>
      (hk.members m hm).pushNow (hP.changeSeen hk.inv hn)⟩

/-- A process that begins has kept a pact whose invariant holds of its node. -/
theorem start {n : Node} (hn : P.inv ⟨⟨0, n⟩, []⟩) : (Process.start n).Kept P C post := by
  refine ⟨hn, ?_, ?_⟩
  · have hseats : ((Process.start n).members.filterMap Member.seat) =
        List.range n.lanes.count := by
      unfold Process.start
      rw [List.filterMap_map]
      exact List.filterMap_some
    rw [hseats]
    exact List.nodup_range
  · intro m hm
    obtain ⟨i, _, rfl⟩ := List.mem_map.mp hm
    exact .new nofun

/-- **A pact that governs is kept in every run.** -/
theorem runs (hP : P.Governs C post) {p p' : Process} (hk : p.Kept P C post)
    (hr : Runs C p p') : p'.Kept P C post := by
  induction hr with
  | refl => exact hk
  | tail _ hs ih => exact ih.step hP hs

end Kept

end Process

end SessionCluster
