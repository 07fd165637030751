/-
  Runs over the table — coordinators and sweepers of many nodes, statement by statement.

  A client is a call of a coordinator or a sweeper.  It asks what it likes, and is answered anything;
  when it calls the store it sends statements, which the database executes one at a time, those of all
  clients in any order.  A client may stop waiting for a statement; then it goes on without an answer,
  or is dropped, and the statement stays adrift: it may still be executed at any later time.

  * `SharedTable.Step` — the steps of clients, and the execution of their statements;
  * `SharedTable.GoesWell` — the invariant: rows are kept, every client will pass in versions that fit,
    the call on the store that it is in will be atomic, and what is adrift is harmless;
  * `table_calls_atomic` — in every run over a table that was empty at first, each call that was
    answered was atomic, and every statement that is executed changes the content as its call does,
    or not at all.
-/
import SessionCluster.Proofs.Schedules
import SessionCluster.Proofs.TableClients

namespace SessionCluster

open Table

/-! ## Clients of the table -/

/-- Where a client of the table is: between calls on the store, or in one of them, of which it has
    executed some statements and has a rest to go. -/
inductive ClientStage (α : Type) where
  | asking (rest : Operation α)
  | calling (c : StoreCall) (next : Option (Except StoreFault c.Outcome) → Operation α)
      (made : List Execution) (rest : Query (Except StoreFault c.Outcome))

/-- A call of a coordinator or a sweeper that has begun. -/
structure Client where
  call : Call
  stage : ClientStage call.Answer

/-- The rows of the table, its clients by number, and the statements that nobody waits for. -/
structure SharedTable where
  rows : List Table.Entry := []
  clients : Nat → Option Client := fun _ => none
  adrift : List (StoreCall × Statement) := []

/-- The statement that a call on the store leaves behind when it is given up. -/
def leftOf {α : Type} (c : StoreCall) : Query α → List (StoreCall × Statement)
  | .done _ => []
  | .ask s _ => [(c, s)]

namespace SharedTable

variable (g : SharedTable)

/-- A client goes to another stage, or leaves. -/
def put (i : Nat) (client : Option Client) : SharedTable :=
  { g with clients := Function.update g.clients i client }

/-- **A step**, with the statement that is executed in it, if any, and the call that sent it. -/
inductive Step : Option (StoreCall × Execution) → SharedTable → Prop where
  /-- A call begins. -/
  | start (i : Nat) (call : Call) (hi : g.clients i = none) :
      Step none (g.put i (some ⟨call, .asking call.operation⟩))
  /-- A client is answered anything else than a call on the store. -/
  | answer (i : Nat) {call q next} (hi : g.clients i = some ⟨call, .asking (.ask q next)⟩)
      (hq : ∀ c, q ≠ .store c) (x : q.Answer) :
      Step none (g.put i (some ⟨call, .asking (next x)⟩))
  /-- A client calls the store, with what the table can take. -/
  | send (i : Nat) {call c next}
      (hi : g.clients i = some ⟨call, .asking (.ask (.store c) next)⟩) (hc : c.Storable) :
      Step none (g.put i (some ⟨call, .calling c next [] (Table.call c)⟩))
  /-- The statement of a client is executed, and its reply comes. -/
  | execute (i : Nat) {call c next made s k reply rows}
      (hi : g.clients i = some ⟨call, .calling c next made (.ask s k)⟩)
      (hx : Executes g.rows s reply rows) :
      Step (some (c, ⟨g.rows, s, reply, rows⟩))
        { g.put i (some ⟨call, .calling c next (made ++ [⟨g.rows, s, reply, rows⟩]) (k reply)⟩) with
          rows := rows }
  /-- The store has answered. -/
  | finish (i : Nat) {call c next made a}
      (hi : g.clients i = some ⟨call, .calling c next made (.done a)⟩) :
      Step none (g.put i (some ⟨call, .asking (next (some a))⟩))
  /-- A client gives a call on the store up, or learns of a failure. -/
  | giveUp (i : Nat) {call c next made rest}
      (hi : g.clients i = some ⟨call, .calling c next made rest⟩)
      (x : Option (Except StoreFault c.Outcome)) (hx : ∀ o, x ≠ some (.ok o)) :
      Step none { g.put i (some ⟨call, .asking (next x)⟩) with adrift := g.adrift ++ leftOf c rest }
  /-- A client is dropped between its calls on the store. -/
  | drop (i : Nat) {call rest} (hi : g.clients i = some ⟨call, .asking rest⟩) : Step none (g.put i none)
  /-- A client is dropped in a call on the store. -/
  | dropIn (i : Nat) {call c next made rest}
      (hi : g.clients i = some ⟨call, .calling c next made rest⟩) :
      Step none { g.put i none with adrift := g.adrift ++ leftOf c rest }
  /-- A statement that nobody waits for is executed. -/
  | late {before after c s reply rows} (ha : g.adrift = before ++ (c, s) :: after)
      (hx : Executes g.rows s reply rows) :
      Step (some (c, ⟨g.rows, s, reply, rows⟩)) { g with rows := rows, adrift := before ++ after }

/-- Any number of steps. -/
def Runs : SharedTable → SharedTable → Prop :=
  Relation.ReflTransGen fun g g' => ∃ executed, g.Step executed g'

end SharedTable

/-! ## The invariant -/

section

variable {α : Type} {c : StoreCall} {t t' : List Table.Entry}

/-- A statement that serves a call that fits lets the content grow. -/
theorem Table.Serves.grows (h : Serves c t t') (hc : c.Storable) (hfits : c.Fits (content t)) :
    (content t).Grows (content t') := by
  rcases h.slots_eq with hsame | hsame
  · rw [hsame]
    exact .refl _
  · rw [hsame]
    exact hfits.grows hc

theorem Table.Resolves.mono {post : List Execution → α → Prop} {p : Query α} {made : List Execution}
    (h : Resolves c post p made t) (hg : (content t).Grows (content t')) :
    Resolves c post p made t' := by
  cases p with
  | done a => exact h
  | ask s next => exact fun t₁ hg₁ => h t₁ (hg.trans hg₁)

/-- A call on the store that can be sent and fits, and goes on to fit as the content grows. -/
structure Sent (c : StoreCall) (t : List Table.Entry) : Prop where
  storable : c.Storable
  fits : c.Fits (content t)

theorem Sent.mono (h : Sent c t) (hg : (content t).Grows (content t')) : Sent c t' :=
  ⟨h.storable, h.fits.mono hg⟩

/-- A statement that serves its call whenever it is executed. -/
def Harmless (c : StoreCall) (s : Statement) (t : List Table.Entry) : Prop :=
  Sent c t ∧ ∀ t₁, (content t).Grows (content t₁) → Kept t₁ → ∀ reply t₂, Executes t₁ s reply t₂ →
    Serves c t₁ t₂

theorem Harmless.mono {s : Statement} (h : Harmless c s t) (hg : (content t).Grows (content t')) :
    Harmless c s t' :=
  ⟨h.1.mono hg, fun t₁ hg₁ => h.2 t₁ (hg.trans hg₁)⟩

/-- An execution that a client has seen since it called the store at a content. -/
structure Seen (s : Slots) (t : List Table.Entry) (e : Execution) : Prop where
  since : s.Grows (content e.before)
  sound : (content e.before).Sound
  until_now : (content e.after).Grows (content t)

/-- A stage of a client that goes well: it will pass in versions that fit, and the call on the store
    that it is in will be atomic. -/
def ClientStage.GoesWell (t : List Table.Entry) : ClientStage α → Prop
  | .asking rest => Seemly rest (content t)
  | .calling c next made rest =>
    Sent c t ∧ Resolves c (Atomic c) rest made t ∧
      ∃ s : Slots, Seemly (.ask (.store c) next) s ∧ s.Grows (content t) ∧ ∀ e ∈ made, Seen s t e

/-- What goes well now goes well later, as the content only grows. -/
theorem ClientStage.GoesWell.mono {stage : ClientStage α} (h : stage.GoesWell t)
    (hg : (content t).Grows (content t')) : stage.GoesWell t' := by
  cases stage with
  | asking rest => exact Seemly.mono h hg
  | calling c next made rest =>
    obtain ⟨hsent, hresolves, s, hseemly, hgrows, hseen⟩ := h
    refine ⟨hsent.mono hg, hresolves.mono hg, s, hseemly, hgrows.trans hg, fun e he => ?_⟩
    obtain ⟨hsince, hsound, huntil⟩ := hseen e he
    exact ⟨hsince, hsound, huntil.trans hg⟩

/-- What a client leaves behind is harmless. -/
theorem harmless_left {next : Option (Except StoreFault c.Outcome) → Operation α}
    {made : List Execution} {rest : Query (Except StoreFault c.Outcome)}
    (h : (ClientStage.calling c next made rest).GoesWell t) : ∀ p ∈ leftOf c rest, Harmless p.1 p.2 t := by
  obtain ⟨hsent, hresolves, _⟩ := h
  intro p hp
  cases rest with
  | done a => cases hp
  | ask s k =>
    rw [List.mem_singleton.mp hp]
    exact ⟨hsent, fun t₁ hg hk reply t₂ hx => (hresolves t₁ hg hk reply t₂ hx).1⟩

end

namespace SharedTable

/-- A table with its clients that goes well. -/
structure GoesWell (g : SharedTable) : Prop where
  kept : Kept g.rows
  clients : ∀ i client, g.clients i = some client → client.stage.GoesWell g.rows
  adrift : ∀ p ∈ g.adrift, Harmless p.1 p.2 g.rows

section

variable {g g' : SharedTable} {executed : Option (StoreCall × Execution)}

theorem goesWell_empty : GoesWell {} := by
  refine ⟨kept_nil, ?_, fun p hp => absurd hp List.not_mem_nil⟩
  rintro i client ⟨⟩

/-- The rows change, and one client goes to another stage. -/
theorem GoesWell.move {rows : List Table.Entry} {adrift : List (StoreCall × Statement)} (h : g.GoesWell)
    (i : Nat) (client : Option Client) (hkept : Kept rows)
    (hg : (content g.rows).Grows (content rows))
    (hclient : ∀ next, client = some next → next.stage.GoesWell rows)
    (hadrift : ∀ p ∈ adrift, Harmless p.1 p.2 rows) :
    GoesWell ⟨rows, Function.update g.clients i client, adrift⟩ := by
  refine ⟨hkept, fun j other hj => ?_, hadrift⟩
  rcases update_eq_some hj with ⟨_, hnew⟩ | hold
  · exact hclient other hnew
  · exact (h.clients j other hold).mono hg

/-- The rows stay, and one client goes to another stage. -/
theorem GoesWell.stay (h : g.GoesWell) (i : Nat) (client : Option Client)
    (hclient : ∀ next, client = some next → next.stage.GoesWell g.rows) : (g.put i client).GoesWell :=
  h.move i client h.kept (.refl _) hclient h.adrift

/-- The statement of a client is executed: all that is known of it goes on to hold, since the content
    only grows. -/
theorem GoesWell.execute (h : g.GoesWell) {i : Nat} {call : Call} {c : StoreCall}
    {next : Option (Except StoreFault c.Outcome) → Operation call.Answer} {made : List Execution}
    {s : Statement} {k : Reply → Query (Except StoreFault c.Outcome)} {reply : Reply}
    {rows : List Table.Entry}
    (hi : g.clients i = some ⟨call, .calling c next made (.ask s k)⟩)
    (hx : Executes g.rows s reply rows) :
    GoesWell { g.put i (some ⟨call, .calling c next (made ++ [⟨g.rows, s, reply, rows⟩]) (k reply)⟩) with
      rows := rows } ∧ Serves c g.rows rows := by
  obtain ⟨hsent, hresolves, s₀, hseemly, hgrows, hseen⟩ := h.clients i _ hi
  obtain ⟨hserves, hrest⟩ := hresolves g.rows (.refl _) h.kept reply rows hx
  have hup := hserves.grows hsent.storable hsent.fits
  refine ⟨h.move i _ hserves.kept hup ?_ fun p hp => (h.adrift p hp).mono hup, hserves⟩
  rintro _ ⟨⟩
  refine ⟨hsent.mono hup, hrest, s₀, hseemly, hgrows.trans hup, fun e he => ?_⟩
  rcases List.mem_append.mp he with he | he
  · obtain ⟨hsince, hsound, huntil⟩ := hseen e he
    exact ⟨hsince, hsound, huntil.trans hup⟩
  · -- what is executed now is seen from now on
    rw [List.mem_singleton.mp he]
    exact ⟨hgrows, h.kept.sound, .refl _⟩

/-- A call on the store that has answered was atomic, so its client goes on seemly: it has met the
    content of its last statement. -/
theorem GoesWell.finish (h : g.GoesWell) {i : Nat} {call : Call} {c : StoreCall}
    {next : Option (Except StoreFault c.Outcome) → Operation call.Answer} {made : List Execution}
    {a : Except StoreFault c.Outcome}
    (hi : g.clients i = some ⟨call, .calling c next made (.done a)⟩) :
    (g.put i (some ⟨call, .asking (next (some a))⟩)).GoesWell := by
  obtain ⟨hsent, hatomic, s₀, hseemly, _, hseen⟩ := h.clients i _ hi
  obtain ⟨earlier, last, o, rfl, rfl, ho, hafter, _⟩ := hatomic
  obtain ⟨hsince, hsound, huntil⟩ := hseen last (List.mem_append_right _ (List.mem_singleton_self _))
  refine h.stay i _ ?_
  rintro _ ⟨⟩
  rw [hafter] at huntil
  exact (hseemly.2.2 hsent.storable _ hsince hsound o ho).mono huntil

/-- A client leaves a call on the store, and its statement is adrift. -/
theorem GoesWell.left (h : g.GoesWell) {i : Nat} {call : Call} {c : StoreCall}
    {next : Option (Except StoreFault c.Outcome) → Operation call.Answer} {made : List Execution}
    {rest : Query (Except StoreFault c.Outcome)}
    (hi : g.clients i = some ⟨call, .calling c next made rest⟩) (client : Option Client)
    (hclient : ∀ next, client = some next → next.stage.GoesWell g.rows) :
    GoesWell { g.put i client with adrift := g.adrift ++ leftOf c rest } := by
  refine h.move i client h.kept (.refl _) hclient fun p hp => ?_
  rcases List.mem_append.mp hp with hp | hp
  · exact h.adrift p hp
  · exact harmless_left (h.clients i _ hi) p hp

/-- A statement that was adrift is executed after all. -/
theorem GoesWell.late (h : g.GoesWell) {before after : List (StoreCall × Statement)} {c : StoreCall}
    {s : Statement} {reply : Reply} {rows : List Table.Entry}
    (ha : g.adrift = before ++ (c, s) :: after) (hx : Executes g.rows s reply rows) :
    GoesWell { g with rows := rows, adrift := before ++ after } ∧ Serves c g.rows rows := by
  obtain ⟨hsent, hall⟩ := h.adrift (c, s) (by rw [ha]; simp)
  have hserves := hall g.rows (.refl _) h.kept reply rows hx
  have hup := hserves.grows hsent.storable hsent.fits
  refine ⟨⟨hserves.kept, fun i client hi => (h.clients i client hi).mono hup, fun p hp => ?_⟩,
    hserves⟩
  refine (h.adrift p ?_).mono hup
  rw [ha]
  rcases List.mem_append.mp hp with hp | hp
  · exact List.mem_append_left _ hp
  · exact List.mem_append_right _ (List.mem_cons_of_mem _ hp)

/-- **Every step goes well**, and what is executed serves its call. -/
theorem GoesWell.step (h : g.GoesWell) (hs : g.Step executed g') :
    g'.GoesWell ∧ match executed with
      | none => g'.rows = g.rows
      | some (c, e) => e.before = g.rows ∧ e.after = g'.rows ∧ Serves c g.rows g'.rows := by
  cases hs with
  | start i call hi =>
    -- a call that begins is seemly, whatever the table holds
    refine ⟨h.stay i _ ?_, rfl⟩
    rintro next ⟨⟩
    exact call.seemly h.kept.sound
  | answer i hi hq x =>
    -- an answer from elsewhere: the table stays
    refine ⟨h.stay i _ ?_, rfl⟩
    rintro next ⟨⟩
    exact Seemly.answer (h.clients i _ hi) hq x
  | @send i call c next hi hc =>
    -- the call is sent: what it asks of the table fits, so it resolves
    have hseemly : Seemly (.ask (.store c) next) (content g.rows) := h.clients i _ hi
    refine ⟨h.stay i _ ?_, rfl⟩
    rintro _ ⟨⟩
    exact ⟨⟨hc, hseemly.1⟩, call_resolves hc hseemly.1, _, hseemly, .refl _, nofun⟩
  | execute i hi hx =>
    -- a statement is executed, and serves the call that sent it
    obtain ⟨hwell, hserves⟩ := h.execute hi hx
    exact ⟨hwell, rfl, rfl, hserves⟩
  | finish i hi => exact ⟨h.finish hi, rfl⟩
  | giveUp i hi x hx =>
    -- the call is given up on its way, with an answer that is not the table's
    refine ⟨h.left hi _ ?_, rfl⟩
    rintro _ ⟨⟩
    obtain ⟨_, _, s₀, hseemly, hgrows, _⟩ := h.clients i _ hi
    exact (hseemly.2.1 x hx).mono hgrows
  | drop i hi =>
    -- who is dropped leaves nothing to be kept
    refine ⟨h.stay i none ?_, rfl⟩
    rintro _ ⟨⟩
  | dropIn i hi =>
    refine ⟨h.left hi none ?_, rfl⟩
    rintro _ ⟨⟩
  | late ha hx =>
    -- a statement of somebody who has left is executed late
    obtain ⟨hwell, hserves⟩ := h.late ha hx
    exact ⟨hwell, rfl, rfl, hserves⟩

/-- Every run over a table that was empty at first goes well. -/
theorem Runs.goesWell (h : Runs {} g) : g.GoesWell := by
  induction h with
  | refl => exact goesWell_empty
  | tail _ hstep ih =>
    obtain ⟨executed, hs⟩ := hstep
    exact (ih.step hs).1

/-- A statement of a call that was executed in the course of a run. -/
def Ran (g : SharedTable) (c : StoreCall) (e : Execution) : Prop :=
  ∃ g₁ g₂, Runs {} g₁ ∧ g₁.Step (some (c, e)) g₂ ∧ Runs g₂ g

/-- What a client has seen in a call on the store was executed in the step, or it had seen it. -/
theorem Step.seen_before (hs : g.Step executed g') {i : Nat} {call : Call} {c : StoreCall}
    {next : Option (Except StoreFault c.Outcome) → Operation call.Answer} {made : List Execution}
    {rest : Query (Except StoreFault c.Outcome)}
    (hi : g'.clients i = some ⟨call, .calling c next made rest⟩) {e : Execution} (he : e ∈ made) :
    executed = some (c, e) ∨ ∃ next made rest,
      g.clients i = some ⟨call, .calling c next made rest⟩ ∧ e ∈ made := by
  cases hs with
  | execute j hj hx =>
    -- the client's own statement is added to those it has seen
    rcases update_eq_some hi with ⟨rfl, hnew⟩ | hold
    · cases hnew
      rcases List.mem_append.mp he with he | he
      · exact .inr ⟨_, _, _, hj, he⟩
      · rw [List.mem_singleton.mp he]
        exact .inl rfl
    · exact .inr ⟨_, _, _, hold, he⟩
  | late => exact .inr ⟨_, _, _, hi, he⟩
  -- a call that is sent has seen nothing yet
  | send j =>
    rcases update_eq_some hi with ⟨_, hnew⟩ | hold
    · cases hnew
      cases he
    · exact .inr ⟨_, _, _, hold, he⟩
  -- all other steps leave those seen as they are
  | _ =>
    rcases update_eq_some hi with ⟨_, hnew⟩ | hold
    · cases hnew
    · exact .inr ⟨_, _, _, hold, he⟩

/-- What a client has seen in a call on the store was executed. -/
theorem Runs.ran (h : Runs {} g) {i : Nat} {call : Call} {c : StoreCall}
    {next : Option (Except StoreFault c.Outcome) → Operation call.Answer} {made : List Execution}
    {rest : Query (Except StoreFault c.Outcome)}
    (hi : g.clients i = some ⟨call, .calling c next made rest⟩) : ∀ e ∈ made, g.Ran c e := by
  induction h generalizing next made rest with
  | refl => cases hi
  | @tail g₀ g hruns hstep ih =>
    intro e he
    have hlast : Runs g₀ g := .single hstep
    obtain ⟨executed, hs⟩ := hstep
    rcases hs.seen_before hi he with rfl | ⟨next, made, rest, hold, he⟩
    · exact ⟨_, _, hruns, hs, .refl⟩
    · obtain ⟨g₁, g₂, hruns₁, hs₁, hruns₂⟩ := ih hold e he
      exact ⟨g₁, g₂, hruns₁, hs₁, hruns₂.trans hlast⟩

/-- **Calls over the table are atomic.**  In every run of coordinators and sweepers over a table that
    was empty at first, statement by statement, each call on the store that has been answered has
    answered what the call answers on the content at the moment of its last statement; this statement
    has changed the content as the call does, and its earlier ones have changed nothing; and all of
    them were executed in the run.  A step that executes a statement, also one that nobody waits for,
    changes the content as the call does that sent it, or not at all; every other step leaves the rows
    as they are. -/
theorem table_calls_atomic (h : Runs {} g) :
    (∀ i call c next made a,
      g.clients i = some ⟨call, .calling c next made (.done a)⟩ →
        Atomic c made a ∧ ∀ e ∈ made, g.Ran c e) ∧
    ∀ executed g', g.Step executed g' →
      match executed with
      | none => g'.rows = g.rows
      | some (c, _) => content g'.rows = content g.rows ∨
          content g'.rows = ((content g.rows).apply c).2.1 := by
  constructor
  · intro i call c next made a hi
    obtain ⟨_, hatomic, _⟩ := h.goesWell.clients i _ hi
    exact ⟨hatomic, h.ran hi⟩
  · intro executed g' hs
    have hwell := (h.goesWell.step hs).2
    cases executed with
    | none => exact hwell
    | some p => exact hwell.2.2.slots_eq

end

end SharedTable

namespace Sample

def soon : Record := .create key .null (.ofMillis 5000) settings.node (second 0)

/-- The sample's record may be stored. -/
theorem soon_storable : soon.Storable where
  payload := by
    show Json.Reader.ofText Json.Reader.value Json.null.text = .ok .null
    decide +kernel
  version := by decide
  owner := by decide +kernel
  createdAt := ⟨by decide +kernel, by decide +kernel⟩
  updatedAt := ⟨by decide +kernel, by decide +kernel⟩
  expiresAt := ⟨by decide +kernel, by decide +kernel⟩

/-- Two creations of one session are both sent before either is executed. -/
theorem race : ∃ g next made, SharedTable.Runs {} g ∧
    g.clients 1 = some ⟨.create settings key .null (.ofMillis 5000),
      .calling (.insert soon) next made (.done (.ok (.occupied soon)))⟩ ∧ made.length = 2 := by
  let call : Call := .create settings key .null (.ofMillis 5000)
  have hnow : ∀ c, Request.now ≠ .store c := by rintro c ⟨⟩
  have hnobody : ∀ e ∈ ([] : List Table.Entry), e.id ≠ soon.key.text :=
    fun e he => absurd he List.not_mem_nil
  have h₀ : SharedTable.Runs {} {} := .refl
  have h₁ := h₀.tail ⟨_, .start 0 call rfl⟩
  have h₂ := h₁.tail ⟨_, .start 1 call rfl⟩
  have h₃ := h₂.tail ⟨_, .answer 0 rfl hnow (second 0)⟩
  have h₄ := h₃.tail ⟨_, .answer 1 rfl hnow (second 0)⟩
  have h₅ := h₄.tail ⟨_, .send 0 rfl soon_storable⟩
  have h₆ := h₅.tail ⟨_, .send 1 rfl soon_storable⟩
  have h₇ := h₆.tail ⟨_, .execute 0 rfl (.insert hnobody)⟩
  have h₈ := h₇.tail ⟨_, .execute 1 rfl (.insertOver ⟨_, List.mem_singleton_self _, rfl⟩)⟩
  have h₉ := h₈.tail ⟨_, .execute 1 rfl .fetch⟩
  exact ⟨_, _, _, h₉, rfl, rfl⟩

end Sample

/-- The creation that came second has found the record of the first, by its second statement. -/
theorem sample_calls_atomic : ∃ g next made, SharedTable.Runs {} g ∧
    g.clients 1 = some ⟨.create Sample.settings Sample.key .null (.ofMillis 5000),
      .calling (.insert Sample.soon) next made (.done (.ok (.occupied Sample.soon)))⟩ ∧
    made.length = 2 ∧ Atomic (.insert Sample.soon) made (.ok (.occupied Sample.soon)) := by
  obtain ⟨g, next, made, hruns, hclient, hmade⟩ := Sample.race
  have hatomic := (SharedTable.table_calls_atomic hruns).1 1 _ _ _ _ _ hclient
  exact ⟨g, next, made, hruns, hclient, hmade, hatomic.1⟩

end SessionCluster
