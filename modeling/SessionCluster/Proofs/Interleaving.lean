/-
  Interleavings — the session calls of any number of nodes, running side by side.

  A call is an operation with its settings, so that every call may come from a node of its own.
  What its questions are answered is up to the surroundings: a relation between the state before a
  question, the question, its answer, and the state after it.

  A call runs in POLLS.  A poll begins where the call waits (or at its start), takes the answer it
  waited for, and goes on through all questions that take no time, up to the next wait or the end;
  nobody else acts in between (`Settles`).  A `Step` of the cluster is one poll of one call, the
  start of a call, or the end of a call that is dropped where it waits.  Every order of such steps
  is a run (`Leads`).  Whatever the step, any one call has begun in it, has gone on, or stands where
  it stood (`Step.progressed`): what holds of a call all along is shown by these three cases.

  Each call keeps what it has asked and been answered, with the states just before and just after
  (`Exchange`), so that statements about a call can speak of the moments at which it acted.
-/
import SessionCluster.Coordinator.Operations
import SessionCluster.Coordinator.Sweeper
import SessionCluster.Proofs.SlotOrder
import Mathlib.Logic.Function.Basic
import Mathlib.Logic.Relation

namespace SessionCluster

/-! ## Questions and answers -/

/-- What surroundings may do: the state before a question, the question, its answer, and the state
    after it. -/
abbrev Surroundings (σ : Type) := σ → (q : Request) → q.Answer → σ → Prop

/-- A question that was answered, between two states. -/
structure Exchange (σ : Type) where
  before : σ
  question : Request
  answer : question.Answer
  after : σ

namespace Exchange

variable {σ : Type}

/-- The key of the slot that was written, if the exchange is a write that was applied. -/
def written? : Exchange σ → Option SessionKey
  | ⟨_, .store c, some (.ok o), _⟩ => c.written? o
  | _ => none

/-- The reading of the clock, if the exchange is one. -/
def reading? : Exchange σ → Option Instant
  | ⟨_, .now, t, _⟩ => some t
  | _ => none

/-- Whether the exchange is a call on the store that took effect. -/
def isEffect : Exchange σ → Bool
  | ⟨_, .store _, some (.ok _), _⟩ => true
  | _ => false

end Exchange

/-- The keys written in the course of some exchanges. -/
def writes {σ : Type} (es : List (Exchange σ)) : List SessionKey := es.filterMap Exchange.written?

/-- The readings of the clock in the course of some exchanges. -/
def readings {σ : Type} (es : List (Exchange σ)) : List Instant := es.filterMap Exchange.reading?

theorem writes_of_none {σ : Type} {e : Exchange σ} (h : e.written? = none) : writes [e] = [] :=
  List.filterMap_cons_none h

theorem writes_of_some {σ : Type} {e : Exchange σ} {key : SessionKey}
    (h : e.written? = some key) : writes [e] = [key] :=
  List.filterMap_cons_some h

@[simp] theorem writes_append {σ : Type} (es fs : List (Exchange σ)) :
    writes (es ++ fs) = writes es ++ writes fs :=
  List.filterMap_append ..

@[simp] theorem readings_append {σ : Type} (es fs : List (Exchange σ)) :
    readings (es ++ fs) = readings es ++ readings fs :=
  List.filterMap_append ..

/-! ## Calls -/

/-- A session call or a sweep, with the settings of its node. -/
inductive Call where
  | create (s : CoordinatorSettings) (key : SessionKey) (payload : Json) (ttl : Span)
  | get (s : CoordinatorSettings) (key : SessionKey)
  | update (s : CoordinatorSettings) (key : SessionKey) (expected : Version) (payload : Json)
  | delete (s : CoordinatorSettings) (key : SessionKey) (expected : Version)
  | touch (s : CoordinatorSettings) (key : SessionKey) (extendBy : Span)
  | sweep (s : SweeperSettings)

namespace Call

/-- What a call answers. -/
def Answer : Call → Type
  | .create .. => Outcome Record
  | .get .. => Except SessionError Record
  | .update .. => Outcome Record
  | .delete .. => Outcome Unit
  | .touch .. => Outcome Record
  | .sweep _ => Except SessionError SweepReport

/-- What a call does. -/
def operation : (c : Call) → Operation c.Answer
  | .create s key payload ttl => Coordinator.create s key payload ttl
  | .get s key => Coordinator.get s key
  | .update s key expected payload => Coordinator.update s key expected payload
  | .delete s key expected => Coordinator.delete s key expected
  | .touch s key extendBy => Coordinator.touch s key extendBy
  | .sweep s => Sweeper.sweep s

/-- Which kind of change of which key a call may make. -/
def Makes : Call → SessionKey → ChangeKind → Prop
  | .create _ own _ _, key, kind => own = key ∧ kind = .created
  | .get .., _, _ => False
  | .update _ own _ _, key, kind => own = key ∧ kind = .updated
  | .delete _ own _, key, kind => own = key ∧ kind = .deleted
  | .touch _ own _, key, kind => own = key ∧ kind = .updated
  | .sweep _, _, kind => kind = .expired

end Call

/-- A call that has begun: what it has asked so far, and what is left of it. -/
structure Progress (σ : Type) where
  call : Call
  made : List (Exchange σ)
  rest : Operation call.Answer

/-! ## Polls and steps -/

/-- Whether an operation has finished, or is at a question before which others may run. -/
def Program.atRest {α : Type} : Operation α → Bool
  | .done _ => true
  | .ask q _ => q.isAwait

/-- Lets an operation go on, through the questions that take no time, until it is at rest. -/
inductive Settles {σ α : Type} (S : Surroundings σ) :
    σ → Operation α → List (Exchange σ) → σ → Operation α → Prop where
  | rest {w p} (hp : p.atRest = true) : Settles S w p [] w p
  | ask {w q next x w₁ es w₂ p} (hq : q.isAwait = false) (ha : S w q x w₁)
      (hs : Settles S w₁ (next x) es w₂ p) :
      Settles S w (.ask q next) (⟨w, q, x, w₁⟩ :: es) w₂ p

/-- Calls by number, and the state they share. -/
structure Cluster (σ : Type) where
  world : σ
  calls : Nat → Option (Progress σ)

/-- A cluster in which no call has begun. -/
def Cluster.idle {σ : Type} (w : σ) : Cluster σ := ⟨w, fun _ => none⟩

/-- A step of a cluster, with the call that makes it and what is asked in it. -/
inductive Step {σ : Type} (S : Surroundings σ) :
    Cluster σ → Call → List (Exchange σ) → Cluster σ → Prop where
  /-- A call begins, and runs up to its first wait. -/
  | start (i : Nat) {c call es w p} (hi : c.calls i = none)
      (hs : Settles S c.world call.operation es w p) :
      Step S c call es ⟨w, Function.update c.calls i (some ⟨call, es, p⟩)⟩
  /-- A call gets the answer that it waits for, and runs up to its next wait. -/
  | resume (i : Nat) {c call made q next x w₁ es w₂ p}
      (hi : c.calls i = some ⟨call, made, .ask q next⟩) (ha : S c.world q x w₁)
      (hs : Settles S w₁ (next x) es w₂ p) :
      Step S c call (⟨c.world, q, x, w₁⟩ :: es)
        ⟨w₂, Function.update c.calls i
          (some ⟨call, made ++ ⟨c.world, q, x, w₁⟩ :: es, p⟩)⟩
  /-- A call is dropped where it waits. -/
  | drop (i : Nat) {c call made p} (hi : c.calls i = some ⟨call, made, p⟩) :
      Step S c call [] ⟨c.world, Function.update c.calls i none⟩

/-- Any number of steps, each from a state that is `within` what is considered. -/
def Leads {σ : Type} (S : Surroundings σ) (within : σ → Prop) : Cluster σ → Cluster σ → Prop :=
  Relation.ReflTransGen fun c c' => within c.world ∧ ∃ call es, Step S c call es c'

/-! ## Where a question is answered -/

section

variable {σ α : Type} {S : Surroundings σ}

/-- After its start, a poll asks only what takes no time. -/
theorem Settles.not_await {w w' : σ} {p p' : Operation α} {es : List (Exchange σ)}
    (h : Settles S w p es w' p') : ∀ e ∈ es, e.question.isAwait ≠ true := by
  induction h with
  | rest => simp
  | ask hq _ _ ih =>
    intro e he
    rcases List.mem_cons.mp he with rfl | he
    · exact Bool.eq_false_iff.mp hq
    · exact ih e he

/-- Where an operation is at rest, a poll does not go on. -/
theorem Settles.of_rest {w w' : σ} {es : List (Exchange σ)} {p p' : Operation α}
    (h : Settles S w p es w' p') (hp : p.atRest = true) : w' = w ∧ p' = p := by
  cases h with
  | rest => exact ⟨rfl, rfl⟩
  | ask hq =>
    rw [Program.atRest, hq] at hp
    cases hp

/-- What a call waited for is answered in the state that the step begins with. -/
theorem Step.await_first {c c' : Cluster σ} {call : Call} {es : List (Exchange σ)}
    (h : Step S c call es c') {e : Exchange σ} (he : e ∈ es)
    (hq : e.question.isAwait = true) :
    e.before = c.world ∧ S c.world e.question e.answer e.after := by
  cases h with
  | start i hi hs => exact absurd hq (hs.not_await e he)
  | resume i hi ha hs =>
    rcases List.mem_cons.mp he with rfl | he
    · exact ⟨rfl, ha⟩
    · exact absurd hq (hs.not_await e he)
  | drop i => cases he

/-- In a run that leads to `c`, the call of a number waited for a question, and got its answer in
    the state that the step began with. -/
def AnsweredIn (S : Surroundings σ) (within : σ → Prop) (w : σ) (c : Cluster σ) (i : Nat)
    (call : Call) (e : Exchange σ) : Prop :=
  ∃ c₁ made next c₂ es, Leads S within (.idle w) c₁ ∧ within c₁.world ∧
    c₁.calls i = some ⟨call, made, .ask e.question next⟩ ∧ e.before = c₁.world ∧
    Step S c₁ call (e :: es) c₂ ∧ Leads S within c₂ c

variable {within : σ → Prop} {w : σ} {c c' : Cluster σ}

theorem AnsweredIn.tail {i : Nat} {call : Call} {e : Exchange σ}
    (h : AnsweredIn S within w c i call e) (h' : Leads S within c c') :
    AnsweredIn S within w c' i call e := by
  obtain ⟨c₁, made, next, c₂, es, h₁, hw, hi, hb, hs, h₂⟩ := h
  exact ⟨c₁, made, next, c₂, es, h₁, hw, hi, hb, hs, h₂.trans h'⟩

/-- A call of a cluster in which one call was replaced is the new one, or one of the others. -/
theorem update_eq_some {β : Type} {f : Nat → Option β} {i j : Nat} {r : Option β} {p : β}
    (h : Function.update f j r i = some p) : i = j ∧ r = some p ∨ f i = some p := by
  by_cases hij : i = j
  · subst hij
    rw [Function.update_self] at h
    exact .inl ⟨rfl, h⟩
  · rw [Function.update_of_ne hij] at h
    exact .inr h

/-- Where one of the calls stands after a step of this call that has led to this world, by where it
    stood before. -/
inductive Progressed (S : Surroundings σ) (c : Cluster σ) (call : Call) (w : σ) (i : Nat) :
    List (Exchange σ) → Progress σ → Prop
  /-- It has begun in the step. -/
  | begun {es p} (hset : Settles S c.world call.operation es w p) :
      Progressed S c call w i es ⟨call, es, p⟩
  /-- It has got the answer that it waited for, and has gone on. -/
  | resumed {made q next x w₁ es p} (hi : c.calls i = some ⟨call, made, .ask q next⟩)
      (ha : S c.world q x w₁) (hset : Settles S w₁ (next x) es w p) :
      Progressed S c call w i (⟨c.world, q, x, w₁⟩ :: es)
        ⟨call, made ++ ⟨c.world, q, x, w₁⟩ :: es, p⟩
  /-- The step was another one's. -/
  | stayed {es p} (hi : c.calls i = some p) : Progressed S c call w i es p

/-- **A step lets one call begin, go on or leave**, and the others stay where they are. -/
theorem Step.progressed {c' : Cluster σ} {call : Call} {es : List (Exchange σ)}
    (hs : Step S c call es c') {i : Nat} {p : Progress σ} (hp : c'.calls i = some p) :
    Progressed S c call c'.world i es p := by
  cases hs with
  | start j hj hset =>
    rcases update_eq_some hp with ⟨rfl, hnew⟩ | hold
    · cases hnew
      exact .begun hset
    · exact .stayed hold
  | resume j hj ha hset =>
    rcases update_eq_some hp with ⟨rfl, hnew⟩ | hold
    · cases hnew
      exact .resumed hj ha hset
    · exact .stayed hold
  | drop j hj =>
    rcases update_eq_some hp with ⟨rfl, hnew⟩ | hold
    · cases hnew
    · exact .stayed hold

/-- Every question that a call has waited for was answered in a step of the run. -/
theorem Leads.answered (h : Leads S within (.idle w) c) {i : Nat} {p : Progress σ}
    (hp : c.calls i = some p) {e : Exchange σ} (he : e ∈ p.made)
    (hq : e.question.isAwait = true) : AnsweredIn S within w c i p.call e := by
  induction h generalizing p with
  | refl => cases hp
  | @tail c c' hc hst ih =>
    have hlast : Leads S within c c' := .single hst
    obtain ⟨hin, call, es, hs⟩ := hst
    cases hs.progressed hp with
    -- the call has only begun, and has not waited yet
    | begun hset => exact absurd hq (hset.not_await e he)
    | @resumed made q next x w₁ es rest hi ha hset =>
      rcases List.mem_append.mp he with he | he
      · exact (ih hi he).tail hlast
      · rcases List.mem_cons.mp he with rfl | he
        · exact ⟨c, made, next, _, es, hc, hin, hi, rfl, hs, .refl⟩
        · exact absurd hq (hset.not_await e he)
    | stayed hi => exact (ih hi he).tail hlast

end

end SessionCluster
