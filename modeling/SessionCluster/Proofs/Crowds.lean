/-
  Crowds — any number of activities, of any kinds, on one state.

  A `Cast` says which parts there are and what each of them does.  A `Crowd` is a state with its
  players: everyone plays a part, and anyone may join, go on, or leave at any time; a player who
  leaves in the middle of his part is a caller that was dropped, or a worker that has stopped.
  Tasks that are started join, and a task that ends may name another in its place.  Between polls
  time passes, but never beyond the deadline of a player who waits, and the state may change from
  outside.

  No two players are told apart by what they may rely on, so a pact about crowds has no seats.

  * `Pact.Rules` — what it takes for a pact to rule a crowd;
  * `Crowd.Kept.runs` — a pact that rules is kept in every run: its invariant holds at every moment,
    and every player who has finished has ended well;
  * `Crowd.runs_follow` — runs can be computed from scripts.
-/
import SessionCluster.Proofs.Pacts
import SessionCluster.Run.Machine

namespace SessionCluster

open Activity

variable {σ τ : Type}

/-! ## Crowds -/

/-- The parts that can be played. -/
structure Cast (σ τ : Type) where
  Part : Type
  Answer : Part → Type
  activity : (r : Part) → Activity σ τ (Answer r)
  /-- The part of a task that was started. -/
  task : τ → Part
  /-- The task that takes the place of a player who has finished. -/
  next? : (r : Part) → Answer r → Option τ

variable {K : Cast σ τ}

/-- A player: the moments at which his first poll began and his latest ended, if he has begun, and
    what is left of his part. -/
structure Player (K : Cast σ τ) where
  part : K.Part
  polls : Option (Moment σ × Moment σ)
  rest : Activity σ τ (K.Answer part)

/-- A player who has not begun. -/
def Player.new (r : K.Part) : Player K := ⟨r, none, K.activity r⟩

/-- A state with its players, and all its moments so far. -/
structure Crowd (K : Cast σ τ) where
  history : History σ
  players : List (Player K)

namespace Crowd

/-- What becomes of a crowd when a player goes on who began at a moment: he stays among the others,
    and the tasks that he has started join. -/
def polled (h : History σ) (xs : List (Player K)) (r : K.Part) (first : Moment σ)
    (p : Activity σ τ (K.Answer r)) (ys : List (Player K)) : Crowd K :=
  let polled := p.poll (Turn.fresh h).poll
  let now : Moment σ := ⟨h.now.tick, polled.1.after⟩
  { history := h.push now
    players := xs ++ ⟨r, some (first, now), polled.2⟩ :: ys ++
      polled.1.started.map fun w => .new (K.task w) }

/-- A step of a crowd whose state may change from outside. -/
inductive Step (outside : σ → σ → Prop) : Crowd K → Crowd K → Prop where
  | join {p : Crowd K} (r : K.Part) : Step outside p { p with players := p.players ++ [.new r] }
  | begin {h xs r p ys} :
      Step outside ⟨h, xs ++ ⟨r, none, p⟩ :: ys⟩ (polled h xs r h.now p ys)
  /-- A player goes on who has waited. -/
  | resume {h xs r first last ready d p ys}
      (hr : (ready h.now.state || reached d h.now.tick) = true) :
      Step outside ⟨h, xs ++ ⟨r, some (first, last), .wait ready d p⟩ :: ys⟩
        (polled h xs r first p ys)
  /-- A task takes the place of a player who has named it. -/
  | renew {h xs r first last a w ys} (hw : K.next? r a = some w) :
      Step outside ⟨h, xs ++ ⟨r, some (first, last), .done a⟩ :: ys⟩
        ⟨h, xs ++ .new (K.task w) :: ys⟩
  | leave {h xs q ys} : Step outside ⟨h, xs ++ q :: ys⟩ ⟨h, xs ++ ys⟩
  /-- Time passes, but for no player beyond his deadline. -/
  | pass {p : Crowd K} {t : Nat} (ht : p.history.now.tick ≤ t)
      (hp : ∀ q ∈ p.players, Punctual (Machine.deadline? q.rest) p.history.now.tick t) :
      Step outside p { p with history := p.history.push ⟨t, p.history.now.state⟩ }
  /-- The state changes from outside. -/
  | change {p : Crowd K} {s : σ} (hs : outside p.history.now.state s) :
      Step outside p { p with history := p.history.push ⟨p.history.now.tick, s⟩ }

/-- Any number of steps. -/
abbrev Runs (outside : σ → σ → Prop) : Crowd K → Crowd K → Prop :=
  Relation.ReflTransGen (Step outside)

end Crowd

/-! ## Pacts that rule -/

/-- A pact that fits a crowd: what is allowed, what time does and what happens from outside keeps the
    invariant and is what others rely on, and every part is safe. -/
structure Pact.Rules (P : Pact σ τ Unit) (outside : σ → σ → Prop)
    (post : (r : K.Part) → Moment σ → K.Answer r → History σ → Prop) : Prop where
  /-- An allowed poll keeps the invariant, -/
  poll : ∀ {g}, P.inv g.history → P.allows () g → P.inv g.ended
  /-- and is what those that wait may see. -/
  seen : ∀ {g}, P.allows () g → P.meanwhile () g.history.now ⟨g.tick, g.state⟩
  /-- So does the passing of time, -/
  pass : ∀ {h t}, P.inv h → h.now.tick ≤ t → P.inv (h.push ⟨t, h.now.state⟩)
  passSeen : ∀ {m : Moment σ} {t}, m.tick ≤ t → P.meanwhile () m ⟨t, m.state⟩
  /-- and so does a change from outside. -/
  change : ∀ {h s}, P.inv h → outside h.now.state s → P.inv (h.push ⟨h.now.tick, s⟩)
  changeSeen : ∀ {m : Moment σ} {s}, outside m.state s → P.meanwhile () m ⟨m.tick, s⟩
  /-- Whoever joins while the invariant holds is safe. -/
  safe : ∀ (r : K.Part) {h : History σ}, P.inv h →
    Safe P () (fun _ => True) (P.Ends () (post r h.now)) (K.activity r) (.fresh h)

/-! ## Soundness -/

variable {P : Pact σ τ Unit} {outside : σ → σ → Prop}
  {post : (r : K.Part) → Moment σ → K.Answer r → History σ → Prop}

/-- A player who has kept a pact up to a history: he has not begun, or is at rest since his latest
    poll, and no deadline has been missed. -/
structure Player.Kept (P : Pact σ τ Unit)
    (post : (r : K.Part) → Moment σ → K.Answer r → History σ → Prop) (h : History σ)
    (q : Player K) : Prop where
  unbegun : q.polls = none → q.rest = K.activity q.part
  begun : ∀ first last, q.polls = some (first, last) →
    ∃ since : History σ, since.Continues (P.meanwhile ()) h ∧ since.now = last ∧
      Punctual (Machine.deadline? q.rest) last.tick h.now.tick ∧
      P.Rests () (post q.part first) since q.rest

/-- A crowd that has kept a pact. -/
structure Crowd.Kept (P : Pact σ τ Unit)
    (post : (r : K.Part) → Moment σ → K.Answer r → History σ → Prop) (p : Crowd K) : Prop where
  inv : P.inv p.history
  players : ∀ q ∈ p.players, q.Kept P post p.history

namespace Player.Kept

theorem new (r : K.Part) (h : History σ) : (Player.new r : Player K).Kept P post h := by
  refine ⟨fun _ => rfl, ?_⟩
  rintro first last ⟨⟩

/-- Another moment that the player may rely on. -/
theorem push {q : Player K} {h : History σ} {m : Moment σ} (hq : q.Kept P post h)
    (hseen : P.meanwhile () h.now m) (ht : h.now.tick ≤ m.tick)
    (hp : Punctual (Machine.deadline? q.rest) h.now.tick m.tick) : q.Kept P post (h.push m) := by
  refine ⟨hq.unbegun, ?_⟩
  intro first last hpolls
  obtain ⟨since, hcont, hlast, hpunct, hrest⟩ := hq.begun first last hpolls
  refine ⟨since, hcont.push hseen ht, hlast, ?_, hrest⟩
  intro d hd
  have hbefore : h.now.tick ≤ max d last.tick := hpunct d hd
  have hafter : m.tick ≤ max d h.now.tick := hp d hd
  show m.tick ≤ max d last.tick
  omega

end Player.Kept

namespace Crowd.Kept

/-- A poll of a player keeps a pact that rules. -/
theorem polled (hP : P.Rules outside post) {h : History σ} {xs ys : List (Player K)}
    {old : Player K} {r : K.Part} {first : Moment σ} {p : Activity σ τ (K.Answer r)}
    (hk : Kept P post ⟨h, xs ++ old :: ys⟩)
    (hsafe : Safe P () (fun _ => True) (P.Ends () (post r first)) p (.fresh h)) :
    Kept P post (Crowd.polled h xs r first p ys) := by
  -- what the poll does, told by the pact: it ends in a turn that the pact allows
  obtain ⟨g, hhist, hpoll, hallow, hrest⟩ := hsafe.rests
  have htick : g.tick = h.now.tick := by rw [Turn.tick, hhist]; rfl
  have hinv : P.inv g.history := by rw [hhist]; exact hk.inv
  have hended : g.ended = h.push ⟨h.now.tick, g.state⟩ := by rw [Turn.ended, hhist, htick]; rfl
  have hcrowd : Crowd.polled h xs r first p ys =
      ⟨h.push ⟨h.now.tick, g.state⟩,
        xs ++ ⟨r, some (first, ⟨h.now.tick, g.state⟩), (p.poll (Turn.fresh h).poll).2⟩ :: ys ++
          g.started.map fun w => .new (K.task w)⟩ := by
    simp only [Crowd.polled, hpoll]
    rfl
  -- the others see no more of it than they may see while they wait
  have hseen : P.meanwhile () h.now ⟨h.now.tick, g.state⟩ := by
    have hseen := hP.seen hallow
    rw [htick, hhist] at hseen
    exact hseen
  have hothers : ∀ z ∈ xs ++ old :: ys, z.Kept P post (h.push ⟨h.now.tick, g.state⟩) := fun z hz =>
    (hk.players z hz).push hseen (Nat.le_refl _) fun _ _ => Nat.le_max_right ..
  rw [hcrowd]
  refine ⟨?_, ?_⟩
  · rw [← hended]
    exact hP.poll hinv hallow
  · intro q hq
    rcases List.mem_append.mp hq with hq | hq
    · -- the others keep what they waited for, and the one that was polled rests where the pact
      -- lets it
      refine forall_mem_replaced hothers ?_ q hq
      refine ⟨nofun, ?_⟩
      rintro _ _ ⟨⟩
      exact ⟨g.ended, hended ▸ .refl, by rw [hended]; rfl, fun _ _ => Nat.le_max_right .., hrest⟩
    · -- what it started has not begun
      obtain ⟨w, _, rfl⟩ := List.mem_map.mp hq
      exact .new _ _

/-- **One step keeps a pact that rules.** -/
theorem step (hP : P.Rules outside post) {p p' : Crowd K} (hk : p.Kept P post)
    (hs : Step outside p p') : p'.Kept P post := by
  cases hs with
  | join r =>
    -- who joins has not begun, so has nothing to keep yet
    refine ⟨hk.inv, fun q hq => ?_⟩
    rcases List.mem_append.mp hq with hq | hq
    · exact hk.players q hq
    · rw [List.mem_singleton.mp hq]
      exact .new _ _
  | @begin h xs r q ys =>
    have hq : q = K.activity r := (hk.players ⟨r, none, q⟩ (by simp)).unbegun rfl
    subst hq
    exact hk.polled hP (hP.safe r hk.inv)
  -- what it rested on lets it go on at any moment that is reached from there
  | @resume h xs r first last ready d q ys hr =>
    obtain ⟨since, hcont, hlast, hpunct, hrest⟩ :=
      (hk.players ⟨r, some (first, last), .wait ready d q⟩ (by simp)).begun first last rfl
    exact hk.polled hP (hrest h ⟨hk.inv, hcont, hlast ▸ hpunct⟩ hr)
  | @renew h xs r first last a w ys hw =>
    -- the next piece of work of a task takes the place of the one that ended
    exact ⟨hk.inv, forall_mem_replaced hk.players (.new _ _)⟩
  | leave => exact ⟨hk.inv, forall_mem_without hk.players⟩
  | pass ht hp =>
    -- all who wait see the clock move, and a change from outside, as the pact lets them
    exact ⟨hP.pass hk.inv ht, fun q hq =>
      (hk.players q hq).push (hP.passSeen ht) ht (hp q hq)⟩
  | change hs =>
    exact ⟨hP.change hk.inv hs, fun q hq =>
      (hk.players q hq).push (hP.changeSeen hs) (Nat.le_refl _) fun _ _ => Nat.le_max_right ..⟩

/-- **A pact that rules is kept in every run.** -/
theorem runs (hP : P.Rules outside post) {p p' : Crowd K} (hk : p.Kept P post)
    (hr : Runs outside p p') : p'.Kept P post := by
  induction hr with
  | refl => exact hk
  | tail _ hs ih => exact ih.step hP hs

end Crowd.Kept

/-! ## Deadlines -/

namespace Activity

variable {α β : Type} {due : Nat}

/-- Every wait of an activity has a deadline, and none is later than a tick. -/
def WaitsTill (due : Nat) : Activity σ τ α → Prop
  | .done _ => True
  | .act _ k => ∀ t s, WaitsTill due (k t s)
  | .wait _ d k => (∃ t, d = some t ∧ t ≤ due) ∧ WaitsTill due k
  | .never => False
  | .spawn _ k => WaitsTill due k

namespace WaitsTill

/-- Activities in a row wait no longer than each of them. -/
theorem bind {p : Activity σ τ α} {f : α → Activity σ τ β} (hp : p.WaitsTill due)
    (hf : ∀ a, (f a).WaitsTill due) : (p.bind f).WaitsTill due := by
  induction p with
  | done a => exact hf a
  | act u k ih => exact fun t s => ih t s (hp t s)
  | wait r d k ih => exact ⟨hp.1, ih hp.2⟩
  | never => exact hp.elim
  | spawn x k ih => exact ih hp

/-- What is left after a poll. -/
theorem poll {p : Activity σ τ α} (hp : p.WaitsTill due) :
    ∀ e, (p.poll e).2.atRest = true ∧ (p.poll e).2.WaitsTill due := by
  induction p with
  | done a => exact fun e => ⟨rfl, hp⟩
  | act u k ih => exact fun e => ih _ _ (hp _ _) _
  | wait r d k => exact fun e => ⟨rfl, hp⟩
  | never => exact hp.elim
  | spawn x k ih => exact fun e => ih hp _

/-- **Once all deadlines are reached, an activity needs nobody to finish.** -/
theorem finishes (body : τ → Task σ τ) {p : Activity σ τ α} (hp : p.WaitsTill due) :
    ∀ m : Machine σ τ, due ≤ m.now → ∃ a, (m.advance body p).1 = .done a := by
  induction p with
  | done a => exact fun m _ => ⟨a, rfl⟩
  | act u k ih =>
    intro m hm
    refine ih _ _ (hp _ _) _ ?_
    rw [Machine.wake_now]
    exact hm
  | wait r d k ih =>
    intro m hm
    obtain ⟨⟨t, rfl, ht⟩, hk⟩ := hp
    have hreached : reached (some t) m.now = true := decide_eq_true (Nat.le_trans ht hm)
    unfold Machine.advance
    rw [hreached, Bool.or_true, if_pos rfl]
    exact ih hk m hm
  | never => exact hp.elim
  | spawn x k ih => exact fun m hm => ih hp _ hm

end WaitsTill

/-- What is left of an activity that is to finish by a tick, if its latest poll was at another: it
    has finished, or that tick has not passed, and it waits no longer than that. -/
structure OnTime (due last now : Nat) (p : Activity σ τ α) : Prop where
  /-- It waits, or is done. -/
  rests : p.atRest = true
  waits : p.WaitsTill due
  polled : last ≤ due
  /-- If the time is over, it is done. -/
  unfinished : now ≤ due ∨ ∃ a, p = .done a

/-- Time passes, but not beyond the deadline of an activity that waits. -/
theorem OnTime.pass {last now t : Nat} {p : Activity σ τ α} (hp : p.OnTime due last now)
    (ht : Punctual (Machine.deadline? p) now t) : p.OnTime due last t := by
  refine ⟨hp.rests, hp.waits, hp.polled, ?_⟩
  cases p with
  | done a => exact .inr ⟨a, rfl⟩
  | act u k => exact absurd hp.rests Bool.false_ne_true
  | wait r d k =>
    obtain ⟨e, rfl, he⟩ := hp.waits.1
    have hnow : now ≤ due := hp.unfinished.resolve_right nofun
    have hle : t ≤ max e now := ht e rfl
    exact .inl (by omega)
  | never => exact hp.waits.elim
  | spawn x k => exact absurd hp.rests Bool.false_ne_true

end Activity

/-- A player who is on time, given when players of each part are to finish if they are. -/
structure Player.OnTime (due? : K.Part → Moment σ → Option Nat) (now : Nat) (q : Player K) :
    Prop where
  unbegun : q.polls = none → q.rest = K.activity q.part
  begun : ∀ first last due, q.polls = some (first, last) → due? q.part first = some due →
    q.rest.OnTime due last.tick now

/-- All players are on time. -/
def Crowd.OnTime (due? : K.Part → Moment σ → Option Nat) (p : Crowd K) : Prop :=
  ∀ q ∈ p.players, q.OnTime due? p.history.now.tick

section

variable {due? : K.Part → Moment σ → Option Nat}

theorem Player.OnTime.new (r : K.Part) (now : Nat) :
    (Player.new r : Player K).OnTime due? now := by
  refine ⟨fun _ => rfl, ?_⟩
  rintro first last due ⟨⟩

/-- Time passes, but not beyond the deadline of a player who waits. -/
theorem Player.OnTime.pass {q : Player K} {now t : Nat} (hq : q.OnTime due? now)
    (ht : Punctual (Machine.deadline? q.rest) now t) : q.OnTime due? t :=
  ⟨hq.unbegun, fun first last due hpolls hdue => (hq.begun first last due hpolls hdue).pass ht⟩

namespace Crowd.OnTime

/-- A poll of a player who is to finish by a tick, if at all. -/
theorem polled {h : History σ} {xs ys : List (Player K)} {old : Player K} {r : K.Part}
    {first : Moment σ} {p : Activity σ τ (K.Answer r)} (ho : OnTime due? ⟨h, xs ++ old :: ys⟩)
    (hp : ∀ due, due? r first = some due →
      h.now.tick ≤ due ∧ (p.poll (Turn.fresh h).poll).2.atRest = true ∧
        (p.poll (Turn.fresh h).poll).2.WaitsTill due) :
    OnTime due? (Crowd.polled h xs r first p ys) := by
  intro q hq
  show q.OnTime due? h.now.tick
  rcases List.mem_append.mp hq with hq | hq
  · refine forall_mem_replaced ho ?_ q hq
    refine ⟨nofun, ?_⟩
    rintro _ _ due ⟨⟩ hdue
    obtain ⟨hnow, hrests, hwaits⟩ := hp due hdue
    exact ⟨hrests, hwaits, hnow, .inl hnow⟩
  · obtain ⟨w, _, rfl⟩ := List.mem_map.mp hq
    exact .new _ _

variable {outside : σ → σ → Prop}
  (hfirst : ∀ (r : K.Part) (h : History σ) (due : Nat), due? r h.now = some due →
    h.now.tick ≤ due ∧ ((K.activity r).poll (Turn.fresh h).poll).2.atRest = true ∧
      ((K.activity r).poll (Turn.fresh h).poll).2.WaitsTill due)

include hfirst

/-- **One step leaves all players on time.** -/
theorem step {p p' : Crowd K} (ho : p.OnTime due?) (hs : Step outside p p') :
    p'.OnTime due? := by
  cases hs with
  | join r =>
    -- who joins owes nothing before its first poll
    intro q hq
    rcases List.mem_append.mp hq with hq | hq
    · exact ho q hq
    · rw [List.mem_singleton.mp hq]
      exact .new _ _
  | @begin h xs r q ys =>
    have hq : q = K.activity r := (ho ⟨r, none, q⟩ (by simp)).unbegun rfl
    subst hq
    exact ho.polled (hfirst r h)
  | @resume h xs r first last ready d q ys hr =>
    -- it waits, so it has not finished, and its next wait ends no later than the last
    refine ho.polled fun due hdue => ?_
    have hwait := (ho ⟨r, some (first, last), .wait ready d q⟩ (by simp)).begun first last due rfl
      hdue
    exact ⟨hwait.unfinished.resolve_right nofun, Activity.WaitsTill.poll hwait.waits.2 _⟩
  | @renew h xs r first last a w ys hw =>
    -- the next piece of work of a task has not begun
    exact forall_mem_replaced ho (.new _ _)
  | leave => exact forall_mem_without ho
  -- time passes no further than the waits of the players let it
  | pass ht hp => exact fun q hq => (ho q hq).pass (hp q hq)
  | change hs => exact ho

/-- **All players stay on time in every run.** -/
theorem runs {p p' : Crowd K} (ho : p.OnTime due?) (hr : Runs outside p p') : p'.OnTime due? := by
  induction hr with
  | refl => exact ho
  | tail _ hs ih => exact ih.step hfirst hs

end Crowd.OnTime

end

/-! ## Scripts -/

/-- What a script has happen to a crowd. -/
inductive Prompt (K : Cast σ τ) where
  | join (r : K.Part)
  /-- The player at a place begins, or goes on. -/
  | poll (i : Nat)
  /-- The player at a place gives way to the task that he names. -/
  | renew (i : Nat)
  /-- The player at a place leaves. -/
  | leave (i : Nat)
  /-- Time passes, up to a tick. -/
  | pass (t : Nat)

namespace Crowd

/-- The crowd after the player at a place has begun or gone on. -/
def poll (p : Crowd K) (i : Nat) : Crowd K :=
  match p.players.drop i with
  | ⟨r, none, q⟩ :: ys => polled p.history (p.players.take i) r p.history.now q ys
  | ⟨r, some (first, _), .wait ready d q⟩ :: ys =>
    if ready p.history.now.state || Activity.reached d p.history.now.tick then
      polled p.history (p.players.take i) r first q ys
    else p
  | _ => p

/-- The crowd after the player at a place has given way. -/
def renew (p : Crowd K) (i : Nat) : Crowd K :=
  match p.players.drop i with
  | ⟨r, some _, .done a⟩ :: ys =>
    match K.next? r a with
    | some w => ⟨p.history, p.players.take i ++ .new (K.task w) :: ys⟩
    | none => p
  | _ => p

/-- The crowd after the player at a place has left. -/
def without (p : Crowd K) (i : Nat) : Crowd K :=
  match p.players.drop i with
  | _ :: ys => ⟨p.history, p.players.take i ++ ys⟩
  | [] => p

/-- Whether time may pass from one tick to another while a player waits. -/
def lets (now t : Nat) (q : Player K) : Bool :=
  match Machine.deadline? q.rest with
  | some d => t ≤ max d now
  | none => true

/-- The crowd after a prompt; one that cannot be followed is left out. -/
def heed (p : Crowd K) : Prompt K → Crowd K
  | .join r => { p with players := p.players ++ [.new r] }
  | .poll i => p.poll i
  | .renew i => p.renew i
  | .leave i => p.without i
  | .pass t =>
    if p.history.now.tick ≤ t ∧ p.players.all (lets p.history.now.tick t) then
      { p with history := p.history.push ⟨t, p.history.now.state⟩ }
    else p

/-- The crowd after a script. -/
def follow (p : Crowd K) (script : List (Prompt K)) : Crowd K := script.foldl heed p

/-- A crowd, with the player at a place among the others. -/
theorem eq_of_drop {p : Crowd K} {i : Nat} {q : Player K} {ys : List (Player K)}
    (h : p.players.drop i = q :: ys) : (⟨p.history, p.players.take i ++ q :: ys⟩ : Crowd K) = p := by
  rw [← h, List.take_append_drop]

/-- A prompt is a step, or nothing at all. -/
theorem step_heed (p : Crowd K) (cue : Prompt K) :
    p.heed cue = p ∨ Step outside p (p.heed cue) := by
  cases cue with
  | join r => exact .inr (.join r)
  | poll i =>
    -- only a player that has not begun, or whose wait is over, is polled
    show p.poll i = p ∨ Step outside p (p.poll i)
    unfold poll
    split
    · rename_i r q ys hq
      have hstep : Step outside ⟨p.history, p.players.take i ++ ⟨r, none, q⟩ :: ys⟩
          (polled p.history (p.players.take i) r p.history.now q ys) := .begin
      rw [eq_of_drop hq] at hstep
      exact .inr hstep
    · rename_i r first last ready d q ys hq
      split
      · rename_i hr
        have hstep : Step outside
            ⟨p.history, p.players.take i ++ ⟨r, some (first, last), .wait ready d q⟩ :: ys⟩
            (polled p.history (p.players.take i) r first q ys) := .resume hr
        rw [eq_of_drop hq] at hstep
        exact .inr hstep
      · exact .inl rfl
    · exact .inl rfl
  | renew i =>
    show p.renew i = p ∨ Step outside p (p.renew i)
    -- only a task that ended and goes on with more work is renewed
    unfold renew
    split
    · rename_i r polls a ys hq
      split
      · rename_i w hw
        have hstep : Step outside ⟨p.history, p.players.take i ++ ⟨r, some polls, .done a⟩ :: ys⟩
            ⟨p.history, p.players.take i ++ .new (K.task w) :: ys⟩ := .renew hw
        rw [eq_of_drop hq] at hstep
        exact .inr hstep
      · exact .inl rfl
    · exact .inl rfl
  | leave i =>
    show p.without i = p ∨ Step outside p (p.without i)
    unfold without
    split
    · rename_i q ys hq
      have hstep : Step outside ⟨p.history, p.players.take i ++ q :: ys⟩
          ⟨p.history, p.players.take i ++ ys⟩ := .leave
      rw [eq_of_drop hq] at hstep
      exact .inr hstep
    · exact .inl rfl
  | pass t =>
    simp only [heed]
    -- time passes only if every player lets it
    split
    · rename_i h
      obtain ⟨ht, hall⟩ := h
      refine .inr (.pass ht fun q hq d hd => ?_)
      have hlets := List.all_eq_true.mp hall q hq
      unfold lets at hlets
      rw [hd] at hlets
      exact of_decide_eq_true hlets
    · exact .inl rfl

/-- **Scripts are runs.** -/
theorem runs_follow (script : List (Prompt K)) :
    ∀ p : Crowd K, Runs outside p (p.follow script) := by
  induction script with
  | nil => exact fun p => .refl
  | cons cue rest ih =>
    intro p
    have hrest := ih (p.heed cue)
    have hcue : p.heed cue = p ∨ Step outside p (p.heed cue) := step_heed p cue
    rcases hcue with hnone | hstep
    · rw [hnone] at hrest
      show Runs outside p ((p.heed cue).follow rest)
      rw [hnone]
      exact hrest
    · exact .head hstep hrest

end Crowd

end SessionCluster
