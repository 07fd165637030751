/-
  One-step specifications — what a session call would be if nobody else acted.

  Each specification is a function of the content of the store and the clock: it judges the content
  once, and gives the answer and the content after it.  A record counts only while it has not
  expired.

  A call that runs among others is `Explained` when one of its own calls on the store took effect
  at a moment at which the specification, judging the content at that moment by the clock that the
  call had read, gives exactly the answer of the call and exactly the change that it made.
  Refused arguments and failures of the store are not judgements and need no explanation.
-/
import SessionCluster.Proofs.SharedStore

namespace SessionCluster

/-- The announcement of the end of a record that has expired. -/
def Record.expiry (r : Record) (now : Instant) : Change := ⟨r.key, r.tombstoneVersion, .expired, now⟩

namespace OneStep

variable {α : Type}

/-- The record of a key, if it is live and has not expired. -/
def present (s : Slots) (key : SessionKey) (now : Instant) : Option Record :=
  (s.live? key).filter fun r => !r.isExpiredAt now

/-- Reading. -/
def get (key : SessionKey) (now : Instant) (s : Slots) : Except SessionError Record × Slots :=
  match present s key now with
  | some r => (.ok r, s)
  | none => (.error (.notFound key), s)

/-- A change of the record at an expected version, into a slot of the next version. -/
def atVersion (key : SessionKey) (expected : Version) (kind : ChangeKind)
    (f : Record → α × Slot) (now : Instant) (s : Slots) :
    Except SessionError (α × Change) × Slots :=
  match present s key now with
  | some r =>
    if r.version = expected then
      (.ok ((f r).1, ⟨key, expected.next, kind, now⟩), s.put key (f r).2)
    else (.error (.versionConflict expected r), s)
  | none => (.error (.notFound key), s)

/-- Replacing the payload: key, creation and expiry stay. -/
def update (node : NodeName) (key : SessionKey) (expected : Version) (payload : Json)
    (now : Instant) : Slots → Except SessionError (Record × Change) × Slots :=
  atVersion key expected .updated
    (fun r =>
      let r' : Record := ⟨r.key, payload, expected.next, node, r.createdAt, now, r.expiresAt⟩
      (r', .live r')) now

/-- Removing: a tombstone stays. -/
def delete (key : SessionKey) (expected : Version) (now : Instant) :
    Slots → Except SessionError (Unit × Change) × Slots :=
  atVersion key expected .deleted (fun _ => ((), .tombstone expected.next)) now

/-- Moving the expiry, by a span but not beyond the longest lifetime from now: key, payload and
    creation stay. -/
def touch (s : CoordinatorSettings) (key : SessionKey) (expected : Version) (extendBy : Span)
    (now : Instant) : Slots → Except SessionError (Record × Change) × Slots :=
  atVersion key expected .updated
    (fun r =>
      let r' : Record :=
        ⟨r.key, r.payload, expected.next, s.node, r.createdAt, now,
          (r.expiresAt.plus extendBy).earlier (now.plus s.maxTtl)⟩
      (r', .live r')) now

/-- The version of a record that is created over what a key holds: the first one, one above a
    tombstone, or two above a record. -/
def versionOver : Option Slot → Version
  | none => .initial
  | some (.tombstone v) => v.next
  | some (.live r) => r.version.next.next

/-- Creating, where nothing is present. -/
def create (node : NodeName) (key : SessionKey) (payload : Json) (ttl : Span) (now : Instant)
    (s : Slots) : Except SessionError (Record × Change) × Slots :=
  match present s key now with
  | some _ => (.error (.alreadyExists key), s)
  | none =>
    let r : Record :=
      ⟨key, payload, versionOver (s.get? key), node, now, now, now.plus ttl⟩
    (.ok (r, ⟨key, r.version, .created, now⟩), s.put key (.live r))

/-! ## What is present -/

section

variable {s : Slots} {key : SessionKey} {now : Instant} {r : Record}

theorem present_of_live (hl : s.live? key = some r) (he : r.isExpiredAt now = false) :
    present s key now = some r := by
  simp [present, hl, he, Option.filter]

theorem present_of_expired (hl : s.live? key = some r) (he : r.isExpiredAt now = true) :
    present s key now = none := by
  simp [present, hl, he, Option.filter]

theorem present_of_none (hl : s.live? key = none) : present s key now = none := by
  simp [present, hl]

variable {expected : Version} {kind : ChangeKind} {f : Record → α × Slot}

theorem atVersion_same (h : present s key now = some r) (hv : r.version = expected) :
    atVersion key expected kind f now s =
      (.ok ((f r).1, ⟨key, expected.next, kind, now⟩), s.put key (f r).2) := by
  simp only [atVersion, h, if_pos hv]

/-- Every change at an expected version is refused for this reason, and changes nothing. -/
def Refuses (key : SessionKey) (expected : Version) (now : Instant) (s : Slots)
    (e : SessionError) : Prop :=
  ∀ (β : Type) (kind : ChangeKind) (f : Record → β × Slot),
    atVersion key expected kind f now s = (.error e, s)

theorem refuses_absent (h : present s key now = none) :
    Refuses key expected now s (.notFound key) := by
  intro β kind f
  simp only [atVersion, h]

theorem refuses_other (h : present s key now = some r) (hv : r.version ≠ expected) :
    Refuses key expected now s (.versionConflict expected r) := by
  intro β kind f
  simp only [atVersion, h, if_neg hv]

/-- The answer to a write that lost against a record is the reason for which it is refused. -/
theorem refuses_reject (hl : s.live? key = some r) (hv : r.version ≠ expected) :
    Refuses key expected now s (Coordinator.reject key expected r now) := by
  unfold Coordinator.reject
  by_cases he : r.isExpiredAt now = true
  · rw [if_pos he]
    exact refuses_absent (present_of_expired hl he)
  · rw [if_neg he]
    exact refuses_other (present_of_live hl (Bool.eq_false_iff.mpr he)) hv

end

end OneStep

/-! ## Explanations -/

/-- Whether an error judges the content of the store, rather than the arguments or the store. -/
def SessionError.judges : SessionError → Bool
  | .notFound _ | .alreadyExists _ | .versionConflict _ _ => true
  | .invalid _ _ | .backendUnavailable _ | .internal _ => false

/-- An answer that is a success or a judgement. -/
def Judged {α : Type} (a : Except SessionError α) : Prop :=
  ∀ e, a = .error e → e.judges = true

/-- What an outcome says: the value and the change, but not how the change was delivered. -/
def said {α : Type} (o : Outcome α) : Except SessionError (α × Change) :=
  o.map fun c => (c.value, c.event.change)

/-- Among the exchanges of a call, which has read the clock once, is a call on the store that took
    effect, and at which the specification gives the answer and the content after it.  The call has
    written nothing else. -/
def AtOneEffect {β : Type} (spec : Instant → Slots → Except SessionError β × Slots)
    (es : List (Exchange World)) (a : Except SessionError β) : Prop :=
  ∃ now, readings es = [now] ∧
    ∃ e ∈ es, e.isEffect = true ∧ writes es = writes [e] ∧
      spec now e.before.slots = (a, e.after.slots)

/-- Among the exchanges of a call is a reading of a key that found a record of a version. -/
def HasRead (key : SessionKey) (v : Version) (es : List (Exchange World)) : Prop :=
  ∃ (w : World) (r : Record),
    w.slots.live? key = some r ∧ r.version = v ∧ w.effect (.get key) ∈ es

/-- The answer of a call, after what it has asked, is explained by one step.  The version that a
    touch expects is the one that it has read itself. -/
def Explained : (call : Call) → List (Exchange World) → call.Answer → Prop
  | .create s key payload ttl, es, a =>
    (∃ c, a = .ok c) → AtOneEffect (OneStep.create s.node key payload ttl) es (said a)
  | .get _ key, es, a => Judged a → AtOneEffect (OneStep.get key) es a
  | .update s key expected payload, es, a =>
    Judged a → AtOneEffect (OneStep.update s.node key expected payload) es (said a)
  | .delete _ key expected, es, a =>
    Judged a → AtOneEffect (OneStep.delete key expected) es (said a)
  | .touch s key extendBy, es, a =>
    Judged a → ∃ expected, (HasRead key expected es ∨ a = .error (.notFound key)) ∧
      AtOneEffect (OneStep.touch s key expected extendBy) es (said a)
  | .sweep _, _, _ => True

/-- Exchanges that neither read the clock nor write. -/
def Silent (es : List (Exchange World)) : Prop := readings es = [] ∧ writes es = []

/-- Exchanges in which the clock was read once, and nothing was written. -/
def Poised (now : Instant) (es : List (Exchange World)) : Prop :=
  readings es = [now] ∧ writes es = []

theorem Poised.append {now : Instant} {es fs : List (Exchange World)} (h : Poised now es)
    (h' : Silent fs) : Poised now (es ++ fs) := by
  constructor
  · rw [readings_append, h.1, h'.1, List.append_nil]
  · rw [writes_append, h.2, h'.2, List.append_nil]

/-- A call on the store that takes effect after the clock was read, and before any write. -/
theorem AtOneEffect.ofEffect {β : Type}
    {spec : Instant → Slots → Except SessionError β × Slots} {es : List (Exchange World)}
    {now : Instant} {w : World} {c : StoreCall} {a : Except SessionError β}
    (hp : Poised now es) (h : spec now w.slots = (a, (w.after c).slots)) :
    AtOneEffect spec (es ++ [w.effect c]) a := by
  refine ⟨now, ?_, w.effect c, ?_, rfl, ?_, h⟩
  · rw [readings_append, hp.1]
    rfl
  · exact List.mem_append_right _ (List.mem_singleton.mpr rfl)
  · rw [writes_append, hp.2, List.nil_append]

theorem AtOneEffect.append {β : Type} {spec : Instant → Slots → Except SessionError β × Slots}
    {es fs : List (Exchange World)} {a : Except SessionError β} (h : AtOneEffect spec es a)
    (hf : Silent fs) : AtOneEffect spec (es ++ fs) a := by
  obtain ⟨now, hnow, e, he, hk, hone, hs⟩ := h
  refine ⟨now, ?_, e, List.mem_append_left _ he, hk, ?_, hs⟩
  · rw [readings_append, hnow, hf.1, List.append_nil]
  · rw [writes_append, hone, hf.2, List.append_nil]

end SessionCluster
