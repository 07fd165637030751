/-
  Deadlines — by when activities finish.

  An activity that waits says until when: for a moment, or for a condition.  A deadline holds for
  everybody, since time does not pass beyond it (`Punctual`).  A condition comes about because
  somebody else does something, so it has to be known who does: here it is the removal of a copy
  from the cache, which the activity has started itself in the poll at whose end it waits for it.

  `InTime` is what has to hold in a poll for an activity to finish, and in what poll.  It is defined
  along the activity, like `Wp` and `Safe`, and has a rule for each way to build one:

  * `InTime.bind`, `InTime.ofProgram` — one thing after another;
  * `InTime.within` — a time limit: whatever happens under it, it is over in time;
  * `InTime.commit` — what follows a write;
  * `Call.inTime` — a call that changes a session has time if there is enough for all the calls on
    the store that it may make, for a removal, and for the outcomes of its events
    (`TimeFor`, `Call.storeCalls?`).
-/
import SessionCluster.Proofs.Constancy

namespace SessionCluster

open Activity

/-! ## Being in time -/

/-- By which tick a wait is over that begins in a poll: at its deadline; or, if removals from the
    cache take some ticks at most, when one is over that was started in the poll. -/
inductive OverBy (removal : Option Nat) (e : Poll Node Work) (ready : Node → Bool) :
    Option Nat → Nat → Prop where
  | deadline (t : Nat) : OverBy removal e ready (some t) (max t e.tick)
  | removed {d : Option Nat} {key : SessionKey} {ticket ticks : Nat} (ht : removal = some ticks)
      (hx : .forget key ticket ∈ e.started)
      (hr : ∀ n : Node, ticket ∈ n.forgotten → ready n = true) :
      OverBy removal e ready d (e.tick + ticks)

/-- What has to hold in a poll that has come as far as `e` for an activity to finish, in a poll for
    which `Q` holds; whatever others do while it waits, if they abide. -/
def InTime {α : Type} (removal : Option Nat) (Q : α → Poll Node Work → Prop) :
    Activity Node Work α → Poll Node Work → Prop
  | .done a, e => Q a e
  | .act u k, e => InTime removal Q (k e.tick e.after) { e with after := u e.tick e.after }
  | .wait r d k, e =>
    ∃ b, OverBy removal e r d b ∧
      ∀ t n, e.tick ≤ t → t ≤ b → e.after.Abides n → InTime removal Q k (.fresh t n)
  | .never, _ => False
  | .spawn x k, e => InTime removal Q k { e with started := e.started ++ [x] }

namespace OverBy

variable {removal : Option Nat} {e : Poll Node Work} {ready : Node → Bool} {d : Option Nat} {b : Nat}

/-- No wait is over before it begins. -/
theorem le (h : OverBy removal e ready d b) : e.tick ≤ b := by
  cases h with
  | deadline t => exact Nat.le_max_right ..
  | removed => exact Nat.le_add_right ..

end OverBy

namespace InTime

variable {removal : Option Nat} {α β : Type}

/-! ## Rules -/

/-- What holds at the end may be weakened. -/
theorem mono {Q Q' : α → Poll Node Work → Prop} (hQ : ∀ a e, Q a e → Q' a e)
    (p : Activity Node Work α) : ∀ {e}, InTime removal Q p e → InTime removal Q' p e := by
  induction p with
  | done a => exact fun h => hQ a _ h
  | act u k ih => exact fun h => ih _ _ h
  | wait r d k ih =>
    rintro e ⟨b, hb, hnext⟩
    exact ⟨b, hb, fun t n ht htb hn => ih (hnext t n ht htb hn)⟩
  | never => exact fun h => h
  | spawn x k ih => exact fun h => ih h

/-- One activity after another. -/
theorem bind {Q : β → Poll Node Work → Prop} (p : Activity Node Work α)
    {f : α → Activity Node Work β} :
    ∀ {e}, InTime removal (fun a => InTime removal Q (f a)) p e → InTime removal Q (p.bind f) e := by
  induction p with
  | done a => exact fun h => h
  | act u k ih => exact fun h => ih _ _ h
  | wait r d k ih =>
    rintro e ⟨b, hb, hnext⟩
    exact ⟨b, hb, fun t n ht htb hn => ih (hnext t n ht htb hn)⟩
  | never => exact fun h => h
  | spawn x k ih => exact fun h => ih h

/-- The first question of a program, and then the rest of it. -/
theorem ofProgram {R : Type} {A : R → Type} {answer : (q : R) → Activity Node Work (A q)} {q : R}
    {next : A q → Program A α} {Q : α → Poll Node Work → Prop} {e : Poll Node Work}
    (h : InTime removal (fun x => InTime removal Q (.ofProgram answer (next x))) (answer q) e) :
    InTime removal Q (.ofProgram answer (.ask q next)) e :=
  bind (answer q) h

/-- A time limit at a tick: an activity that abides finishes or is given up before it. -/
theorem withinTick {Q : Option α → Poll Node Work → Prop} {t latest : Nat} (ht : t ≤ latest)
    {p : Activity Node Work α} (hp : p.Respects Node.Abides) :
    ∀ {e}, e.tick ≤ latest →
      (∀ x e', e.tick ≤ e'.tick → e'.tick ≤ latest → e.after.Abides e'.after → Q x e') →
      InTime removal Q (p.withinTick t) e := by
  induction p with
  | done a => exact fun he h => h _ _ (Nat.le_refl _) he (.refl _)
  | act u k ih =>
    -- an act takes no time
    intro e he h
    obtain ⟨hu, hk⟩ := hp e.tick e.after
    exact ih _ _ hk he fun x e' hle hlate hab => h x e' hle hlate (hu.trans hab)
  | wait r d k ih =>
    intro e he h
    -- the wait ends at its own limit or at the tick, whichever comes first
    have hover : ∃ b, OverBy removal e r (earliest d t) b ∧ b ≤ latest := by
      cases d with
      | none => exact ⟨_, .deadline t, by omega⟩
      | some d => exact ⟨_, .deadline (min d t), by omega⟩
    obtain ⟨b, hb, hlate⟩ := hover
    refine ⟨b, hb, fun t' n hle htb hn => ?_⟩
    show InTime removal Q (if r n || reached d t' then _ else _) (.fresh t' n)
    have hnow : t' ≤ latest := Nat.le_trans htb hlate
    -- it goes on before the limit, or is given up at the limit
    split
    · refine ih hp hnow fun x e' hle' hlate' hab => ?_
      exact h x e' (Nat.le_trans hle hle') hlate' (hn.trans hab)
    · exact h none (.fresh t' n) hle hnow hn
  | never =>
    -- what never ends is given up at the tick
    intro e he h
    refine ⟨_, .deadline t, fun t' n hle htb hn => ?_⟩
    exact h none (.fresh t' n) hle (show t' ≤ latest by omega) hn
  | spawn x k ih => exact fun he h => ih hp he h

/-- **A time limit** from now. -/
theorem within {Q : Option α → Poll Node Work → Prop} {limit : Span} {p : Activity Node Work α}
    (hp : p.Respects Node.Abides) {e : Poll Node Work}
    (h : ∀ x e', e.tick ≤ e'.tick → e'.tick ≤ e.tick + limit.ticks → e.after.Abides e'.after →
      Q x e') :
    InTime removal Q (p.within limit) e := by
  have heq : p.within limit =
      .act (fun _ s => s) fun now _ => p.withinTick (now + limit.ticks) := rfl
  rw [heq, InTime]
  exact withinTick (Nat.le_refl _) hp (Nat.le_add_right ..) h

/-! ## Progress -/

/-- What is in time finishes, not before now. -/
theorem ends {Q : α → Poll Node Work → Prop} (p : Activity Node Work α) :
    ∀ e, InTime removal Q p e → ∃ a e', e.tick ≤ e'.tick ∧ Q a e' := by
  induction p with
  | done a => exact fun e h => ⟨a, e, Nat.le_refl _, h⟩
  | act u k ih => exact fun e h => ih _ _ { e with after := u e.tick e.after } h
  | wait r d k ih =>
    rintro e ⟨b, hb, hnext⟩
    obtain ⟨a, e', hle, hQ⟩ := ih _ (hnext b e.after hb.le (Nat.le_refl _) (.refl _))
    exact ⟨a, e', Nat.le_trans hb.le hle, hQ⟩
  | never => exact fun e h => h.elim
  | spawn x k ih => exact fun e h => ih { e with started := e.started ++ [x] } h

/-- At the end of a poll, what was in time is in time, and at rest. -/
theorem poll {Q : α → Poll Node Work → Prop} (p : Activity Node Work α) :
    ∀ e, InTime removal Q p e →
      InTime removal Q (p.poll e).2 (p.poll e).1 ∧ (p.poll e).2.atRest = true ∧
        (p.poll e).1.tick = e.tick := by
  induction p with
  | done a => exact fun e h => ⟨h, rfl, rfl⟩
  | act u k ih => exact fun e h => ih _ _ _ h
  | wait r d k => exact fun e h => ⟨h, rfl, rfl⟩
  | never => exact fun e h => h.elim
  | spawn x k ih => exact fun e h => ih _ h

/-! ## Answers -/

open Node

/-- Identities are given out at once. -/
theorem identifyAll (cs : List Change) :
    ∀ {Q : List Event → Poll Node Work → Prop} {e : Poll Node Work},
      (∀ x n, e.after.Abides n → Q x { e with after := n }) →
        InTime removal Q (Node.identifyAll cs) e := by
  induction cs with
  | nil => exact fun h => h [] _ (.refl _)
  | cons c cs ih =>
    intro Q e h
    refine bind (Activity.step (identify c)) ?_
    refine bind (Node.identifyAll cs) (ih fun x n hn => ?_)
    exact h _ n ((Abides.of_adds (.identify c e.after)).trans hn)

/-- Events get their places in the lanes at once, or are rejected. -/
theorem enqueue (es : List Event) :
    ∀ {Q : PendingAcks → Poll Node Work → Prop} {e : Poll Node Work},
      (∀ x n, e.after.Abides n → Q x { e with after := n }) →
        InTime removal Q (Node.enqueue es) e := by
  induction es with
  | nil => exact fun h => h [] _ (.refl _)
  | cons ev es ih =>
    intro Q e h
    refine bind (Activity.step _) ?_
    refine bind (Node.enqueue es) (ih fun x n hn => ?_)
    exact h _ n ((Abides.of_adds (.offer ev e.after)).trans hn)

/-- Handing in events takes no time. -/
theorem announce {storeLimit cacheLimit : Span} {earlier : List Change} {own : Change}
    {Q : PendingAcks × Event → Poll Node Work → Prop} {e : Poll Node Work}
    (h : ∀ x n, e.after.Abides n → Q x { e with after := n }) :
    InTime removal Q (answer storeLimit cacheLimit (.announce earlier own)) e := by
  refine bind (Node.identifyAll earlier) (identifyAll earlier fun before n hn => ?_)
  refine bind (Activity.step (identify own)) ?_
  refine bind (Node.enqueue _) (enqueue _ fun pending n' hn' => ?_)
  exact h _ n' (hn.trans ((Abides.of_adds (.identify own n)).trans hn'))

/-- Outcomes are waited for until a tick, however many there are. -/
theorem warningsBy {deadline latest : Nat} (hd : deadline ≤ latest) (pending : PendingAcks) :
    ∀ {Q : List Warning → Poll Node Work → Prop} {e : Poll Node Work}, e.tick ≤ latest →
      (∀ x e', e'.tick ≤ latest → Q x e') →
      InTime removal Q (Node.warningsBy deadline pending) e := by
  induction pending with
  | nil => exact fun he h => h [] _ he
  | cons x rest ih =>
    intro Q e he h
    refine ⟨_, .deadline deadline, fun t n hle htb hn => ?_⟩
    refine bind (Activity.read _) ?_
    refine bind (Node.warningsBy deadline rest) (ih (show t ≤ latest by omega) fun ws e' he' => ?_)
    exact h _ e' he'

/-- Outcomes are waited for as long as the lanes let callers wait. -/
theorem warnings {storeLimit cacheLimit : Span} {pending : PendingAcks}
    {Q : List Warning → Poll Node Work → Prop} {e : Poll Node Work}
    (h : ∀ x e', e'.tick ≤ e.tick + e.after.lanes.ackTimeout.ticks → Q x e') :
    InTime removal Q (answer storeLimit cacheLimit (.warnings pending)) e :=
  bind (Activity.read _) <| bind Activity.tick <|
    warningsBy (Nat.le_refl _) pending (Nat.le_add_right ..) h

end InTime

/-! ## Calls -/

/-- How many calls on the store a call makes at most that changes a session. -/
def Call.storeCalls? : Call → Option Nat
  | .create .. => some (2 * Coordinator.createRounds)
  | .update .. | .delete .. | .touch .. => some 2
  | .get .. | .sweep _ => none

/-- Whether there is time, in a poll, for a number of calls on the store, for a removal from the
    cache after them, and then for as long as the lanes let callers wait. -/
structure TimeFor (due store removal acks : Nat) (calls : Nat) (e : Poll Node Work) : Prop where
  time : e.tick + calls * store + removal + acks ≤ due
  acks : e.after.lanes.ackTimeout.ticks = acks

section

variable {due removal acks calls : Nat} {s : CoordinatorSettings} {e : Poll Node Work} {α : Type}

namespace TimeFor

/-- Where there is time for some calls, there is time for fewer. -/
theorem fewer {store fewer : Nat} (h : TimeFor due store removal acks calls e)
    (hle : fewer ≤ calls) : TimeFor due store removal acks fewer e := by
  have hmul : fewer * store ≤ calls * store := Nat.mul_le_mul_right _ hle
  exact ⟨by have := h.time; omega, h.acks⟩

theorem le {store : Nat} (h : TimeFor due store removal acks calls e) : e.tick ≤ due := by
  have := h.time
  omega

end TimeFor

namespace InTime

open Node Coordinator

/-- A call on the store is over at its limit; what depends on it has the rest of the time. -/
theorem storeCall {limit : Span} {c : StoreCall}
    {next : c.Outcome → Operation (Except SessionError α)}
    (h : TimeFor due s.storeTimeout.ticks removal acks (calls + 1) e)
    (hnext : ∀ o e', TimeFor due s.storeTimeout.ticks removal acks calls e' →
      InTime (some removal) (fun _ e => e.tick ≤ due)
        (.ofProgram (answer s.storeTimeout limit) (next o)) e') :
    InTime (some removal) (fun _ e => e.tick ≤ due)
      (.ofProgram (answer s.storeTimeout limit) (Coordinator.storeCall s c next)) e := by
  refine ofProgram (within ((interposed_respects c).mono .of_retains) fun x e' _ hlate hab => ?_)
  have htime : TimeFor due s.storeTimeout.ticks removal acks calls e' := by
    have hle := h.time
    rw [Nat.succ_mul] at hle
    exact ⟨by omega, by rw [hab.ackTimeout]; exact h.acks⟩
  cases x with
  | none => exact htime.le
  | some r =>
    cases r with
    | error f => exact htime.le
    | ok o => exact hnext o e' htime

/-- Reading the record takes one of the calls. -/
theorem loadLive {limit : Span} {key : SessionKey} {now : Instant}
    {next : Record → Operation (Except SessionError α)}
    (h : TimeFor due s.storeTimeout.ticks removal acks (calls + 1) e)
    (hnext : ∀ r e', TimeFor due s.storeTimeout.ticks removal acks calls e' →
      InTime (some removal) (fun _ e => e.tick ≤ due)
        (.ofProgram (answer s.storeTimeout limit) (next r)) e') :
    InTime (some removal) (fun _ e => e.tick ≤ due)
      (.ofProgram (answer s.storeTimeout limit) (Coordinator.loadLive s key now next)) e := by
  refine storeCall h fun o e' he' => ?_
  cases o with
  | none => exact he'.le
  | some r =>
    dsimp only
    split
    · exact he'.le
    · exact hnext r e' he'

/-- **What follows a write**: the removal was started in this poll, so it is over in time, and then
    the lanes say how long to wait. -/
theorem commit {limit : Span} {key : SessionKey} {value : α} {earlier : List Change} {own : Change}
    (h : TimeFor due s.storeTimeout.ticks removal acks calls e) :
    InTime (some removal) (fun _ e => e.tick ≤ due)
      (.ofProgram (answer s.storeTimeout limit) (Coordinator.commit key value earlier own)) e := by
  have htime := (h.fewer (Nat.zero_le _)).time
  rw [Nat.zero_mul, Nat.add_zero] at htime
  refine ofProgram (announce fun x n hn => ?_)
  refine ofProgram ?_
  -- the ticket, and the task that will mark it
  refine bind (Activity.step forgetTicket) ?_
  refine ofProgram ?_
  refine ⟨_, .removed rfl (List.mem_append_right _ (List.mem_singleton.mpr rfl)) fun n hn => ?_,
    fun t n' hle htb hn' => ?_⟩
  · exact List.contains_iff_mem.mpr hn
  · refine ofProgram (warnings fun ws e' he' => ?_)
    have hacks : n'.lanes.ackTimeout.ticks = acks := by
      rw [hn'.ackTimeout]
      show n.lanes.ackTimeout.ticks = acks
      rw [hn.ackTimeout]
      exact h.acks
    have hlate : e'.tick ≤ t + n'.lanes.ackTimeout.ticks := he'
    have hover : t ≤ e.tick + removal := htb
    show e'.tick ≤ due
    omega

/-- A swap takes another one, and the commit what the cache and the bus may take. -/
theorem swap {limit : Span} {key : SessionKey} {expected : Version} {next : Record} {now : Instant}
    (h : TimeFor due s.storeTimeout.ticks removal acks (calls + 1) e) :
    InTime (some removal) (fun _ e => e.tick ≤ due)
      (.ofProgram (answer s.storeTimeout limit) (Coordinator.swap s key expected next now)) e := by
  refine storeCall h fun o e' he' => ?_
  cases o with
  | applied => exact commit he'
  | conflict latest => exact he'.le
  | missing => exact he'.le

/-- A creation makes at most two calls in each round. -/
theorem createFrom {limit : Span} {key : SessionKey} {payload : Json} {ttl : Span} {now : Instant}
    (rounds : Nat) :
    ∀ {tombstone : Option Version} {e : Poll Node Work},
      TimeFor due s.storeTimeout.ticks removal acks (2 * rounds) e →
      InTime (some removal) (fun _ e => e.tick ≤ due)
        (.ofProgram (answer s.storeTimeout limit)
          (Coordinator.createFrom s key payload ttl now rounds tombstone)) e := by
  induction rounds with
  -- no round is left: the creation ends, and there is time for that
  | zero => exact fun h => h.le
  | succ rounds ih =>
    intro tombstone e h
    -- a round has time for its two calls, and for the rounds to come
    have hcalls : TimeFor due s.storeTimeout.ticks removal acks (2 * rounds + 1 + 1) e := h
    refine storeCall hcalls fun o e' he' => ?_
    cases o with
    | inserted => exact commit he'
    -- above the record there is a tombstone: one call of the round is left over
    | tombstoned v => exact ih (he'.fewer (Nat.le_succ _))
    | occupied existing =>
      dsimp only
      split
      · -- a record that lives is in the way; one that has expired is replaced by the second call
        exact he'.le
      · refine storeCall he' fun o e'' he'' => ?_
        cases o with
        | applied => exact commit he''
        | conflict latest => exact he''.le
        | missing => exact ih he''

end InTime

/-- **A call that changes a session is in time**, if there is time for all the calls on the store
    that it may make. -/
theorem Call.inTime {c : Call} (hc : c.storeCalls? = some calls)
    (h : TimeFor due c.storeLimit.ticks removal acks calls e) :
    InTime (some removal) (fun _ e => e.tick ≤ due) (Role.call c).activity e := by
  cases c with
  -- a read and a sweep change no session
  | get s key => cases hc
  | sweep s => cases hc
  | create s key payload ttl =>
    obtain rfl : 2 * Coordinator.createRounds = calls := Option.some.inj hc
    show InTime _ _ (.ofProgram _ (Coordinator.create s key payload ttl)) e
    unfold Coordinator.create
    -- refused arguments take no time at all
    split
    · exact h.le
    · split
      · exact h.le
      · exact .ofProgram (.createFrom _ h)
  | update s key expected payload =>
    obtain rfl : 2 = calls := Option.some.inj hc
    show InTime _ _ (.ofProgram _ (Coordinator.update s key expected payload)) e
    unfold Coordinator.update
    split
    · exact h.le
    · -- one call to read, and one for the swap
      refine .ofProgram (.loadLive h fun r e' he' => ?_)
      split
      · exact he'.le
      · exact .swap he'
  | delete s key expected =>
    obtain rfl : 2 = calls := Option.some.inj hc
    -- one call to read, and one for the removal
    refine .ofProgram (.loadLive h fun r e' he' => ?_)
    split
    · exact he'.le
    · refine .storeCall he' fun o e'' he'' => ?_
      cases o with
      | applied => exact .commit he''
      | conflict latest => exact he''.le
      | missing => exact he''.le
  | touch s key extendBy =>
    obtain rfl : 2 = calls := Option.some.inj hc
    show InTime _ _ (.ofProgram _ (Coordinator.touch s key extendBy)) e
    unfold Coordinator.touch
    split
    · exact h.le
    · exact .ofProgram (.loadLive h fun r e' he' => .swap he')

end

/-- A removal from the cache is over at its limit, and then it is marked. -/
theorem Node.forgetTurn_inTime (key : SessionKey) (ticket : Nat) (e : Poll Node Work) :
    InTime none (fun _ e' => e'.tick ≤ e.tick + e.after.settings.cacheTimeout.ticks ∧
      ticket ∈ e'.after.forgotten) (Node.forgetTurn key ticket) e := by
  refine .bind (Activity.read _) (.bind (Node.forgetWithin _ key) ?_)
  refine .bind _ (.within ((Node.callCache_respects _).mono .of_retains) fun x e' _ hlate hab => ?_)
  exact ⟨hlate, List.mem_cons_self ..⟩

end SessionCluster
