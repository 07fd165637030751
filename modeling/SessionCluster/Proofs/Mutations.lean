/-
  Mutations — the calls that change a session, and how often they write.

  Two things are read off their operations, for every way of answering what they ask:

  * `Mutation.commitsOnce` — a mutation fails only before it has written; after a write that was
    applied comes `Coordinator.commit`, with what that write is announced as;
  * `Mutation.writesAtMost` — it asks for few writes: one, or two in each round of a creation.
-/
import SessionCluster.Gateway.Request
import SessionCluster.Proofs.Interleaving

namespace SessionCluster

/-! ## Mutations -/

/-- A call that changes a session. -/
inductive Mutation where
  | create (key : SessionKey) (payload : Json) (ttl : Span)
  | update (key : SessionKey) (expected : Version) (payload : Json)
  | delete (key : SessionKey) (expected : Version)
  | touch (key : SessionKey) (extendBy : Span)

namespace Mutation

/-- What a mutation gives when it succeeds. -/
def Value : Mutation → Type
  | .create .. | .update .. | .touch .. => Record
  | .delete .. => Unit

/-- The operation of a mutation. -/
def operation : (m : Mutation) → CoordinatorSettings → Operation (Outcome m.Value)
  | .create key payload ttl, s => Coordinator.create s key payload ttl
  | .update key expected payload, s => Coordinator.update s key expected payload
  | .delete key expected, s => Coordinator.delete s key expected
  | .touch key extendBy, s => Coordinator.touch s key extendBy

/-- The command of the gateway for a mutation. -/
def command : Mutation → Gateway.Command
  | .create key payload ttl => .create key payload ttl
  | .update key expected payload => .update key expected payload
  | .delete key expected => .delete key expected
  | .touch key extendBy => .touch key extendBy

/-- The response of the gateway to a mutation. -/
def response : (m : Mutation) → Outcome m.Value → Gateway.Response
  | .create .., a => .ofCommand 201 a
  | .update .., a => .ofCommand 200 a
  | .delete key _, a => .ofDeletion key a
  | .touch .., a => .ofCommand 200 a

/-- By which write a mutation takes effect, what it announces, and which key it has forgotten by
    the cache: a new record has its own key. -/
inductive WrittenAs : Mutation → StoreCall → List Change → SessionKey → Prop where
  | created {key payload ttl r t} (hk : r.key = key) :
      WrittenAs (.create key payload ttl) (.insert r) [⟨r.key, r.version, .created, t⟩] key
  | replaced {key payload ttl expected r v t} :
      WrittenAs (.create key payload ttl) (.swap key expected r)
        [⟨key, v, .expired, t⟩, ⟨r.key, r.version, .created, t⟩] r.key
  | updated {key expected payload r t} :
      WrittenAs (.update key expected payload) (.swap key expected r)
        [⟨r.key, r.version, .updated, t⟩] r.key
  | touched {key extendBy expected r t} :
      WrittenAs (.touch key extendBy) (.swap key expected r) [⟨r.key, r.version, .updated, t⟩]
        r.key
  | deleted {key expected v t} :
      WrittenAs (.delete key expected) (.remove key expected) [⟨key, v, .deleted, t⟩] key

end Mutation

/-! ## Operations fail before they write -/

section

variable {α : Type}

/-- What is left of an operation fails, or writes once and then commits.  `W` says by which write,
    what is announced, and which key is forgotten. -/
inductive CommitsOnce (W : StoreCall → List Change → SessionKey → Prop) :
    Operation (Outcome α) → Prop where
  | fail (e) : CommitsOnce W (.done (.error e))
  | now {next} (h : ∀ t, CommitsOnce W (next t)) : CommitsOnce W (.ask .now next)
  | store {c next}
      (hnone : ∀ x, (∀ o, x = some (.ok o) → c.written? o = none) → CommitsOnce W (next x))
      (hsome : ∀ o k, c.written? o = some k → ∃ key value earlier own,
        W c (earlier ++ [own]) key ∧
          next (some (.ok o)) = Coordinator.commit key value earlier own) :
      CommitsOnce W (.ask (.store c) next)

variable {W : StoreCall → List Change → SessionKey → Prop}

/-- A call on the store whose failures end the operation. -/
theorem CommitsOnce.storeCall {s : CoordinatorSettings} {c : StoreCall}
    {next : c.Outcome → Operation (Outcome α)}
    (hnone : ∀ o, c.written? o = none → CommitsOnce W (next o))
    (hsome : ∀ o k, c.written? o = some k → ∃ key value earlier own,
      W c (earlier ++ [own]) key ∧ next o = Coordinator.commit key value earlier own) :
    CommitsOnce W (Coordinator.storeCall s c next) := by
  refine .store ?_ hsome
  intro x hx
  cases x with
  | none => exact .fail _
  | some r =>
    cases r with
    | error f => exact .fail _
    | ok o => exact hnone o (hx o rfl)

/-- Reading the record comes before any write. -/
theorem CommitsOnce.loadLive {s : CoordinatorSettings} {key : SessionKey} {now : Instant}
    {next : Record → Operation (Outcome α)} (h : ∀ r, CommitsOnce W (next r)) :
    CommitsOnce W (Coordinator.loadLive s key now next) := by
  refine .storeCall ?_ ?_
  · intro o _
    cases o with
    | none => exact .fail _
    | some r =>
      simp only
      split
      · exact .fail _
      · exact h r
  · intro o k ho
    cases ho

/-- A swap is the only write, and its commit follows. -/
theorem CommitsOnce.swap {s : CoordinatorSettings} {key : SessionKey} {expected : Version}
    {next : Record} {now : Instant}
    (h : W (.swap key expected next) [⟨next.key, next.version, .updated, now⟩] next.key) :
    CommitsOnce W (Coordinator.swap s key expected next now) := by
  refine .storeCall ?_ ?_
  · intro o ho
    cases o with
    | applied => cases ho
    | conflict latest => exact .fail _
    | missing => exact .fail _
  · intro o k ho
    cases o with
    | applied => exact ⟨next.key, next, [], _, h, rfl⟩
    | conflict latest => cases ho
    | missing => cases ho

end

/-- The rounds of a creation. -/
theorem createFrom_commitsOnce (s : CoordinatorSettings) (key : SessionKey) (payload : Json)
    (ttl : Span) (now : Instant) (rounds : Nat) :
    ∀ t : Option Version, CommitsOnce (Mutation.create key payload ttl).WrittenAs
      (Coordinator.createFrom s key payload ttl now rounds t) := by
  induction rounds with
  | zero => exact fun t => .fail _
  | succ rounds ih =>
    intro t
    have hkey : (Coordinator.fresh s key payload ttl now t).key = key := by cases t <;> rfl
    refine .storeCall ?_ ?_
    · intro o ho
      cases o with
      | inserted => cases ho
      | tombstoned v => exact ih _
      | occupied existing =>
        simp only
        split
        · exact .fail _
        · -- the record in the way has expired, and is replaced
          refine .storeCall ?_ ?_
          · intro o ho
            cases o with
            | applied => cases ho
            | conflict latest => exact .fail _
            | missing => exact ih _
          · intro o k ho
            cases o with
            | applied => exact ⟨_, _, _, _, .replaced, rfl⟩
            | conflict latest => cases ho
            | missing => cases ho
    · intro o k ho
      cases o with
      | inserted =>
        exact ⟨key, _, [], _, .created hkey, rfl⟩
      | tombstoned v => cases ho
      | occupied existing => cases ho

/-- **Every mutation fails before it writes**, and commits right after it. -/
theorem Mutation.commitsOnce (m : Mutation) (s : CoordinatorSettings) :
    CommitsOnce m.WrittenAs (m.operation s) := by
  cases m with
  | create key payload ttl =>
    simp only [operation, Coordinator.create]
    -- refused before it asks for anything
    split
    · exact .fail _
    · split
      · exact .fail _
      · exact .now fun now => createFrom_commitsOnce s key payload ttl now _ none
  | update key expected payload =>
    simp only [operation, Coordinator.update]
    split
    · exact .fail _
    · refine .now fun now => .loadLive fun r => ?_
      -- the version read is another, and nothing is written; or it is the one the swap names
      split
      · exact .fail _
      · exact .swap .updated
  | delete key expected =>
    refine .now fun now => .loadLive fun r => ?_
    split
    · exact .fail _
    · refine .storeCall ?_ ?_
      · -- an answer that writes nothing is a failure
        intro o ho
        cases o with
        | applied => cases ho
        | conflict latest => exact .fail _
        | missing => exact .fail _
      · -- and the one that writes is committed
        intro o k ho
        cases o with
        | applied => exact ⟨key, (), [], _, .deleted, rfl⟩
        | conflict latest => cases ho
        | missing => cases ho
  | touch key extendBy =>
    simp only [operation, Coordinator.touch]
    split
    · exact .fail _
    · exact .now fun now => .loadLive fun r => .swap .touched

/-! ## How often operations write -/

/-- Whether a question is for a write: an insertion, a replacement or a removal. -/
def Request.isWrite : Request → Bool
  | .store (.insert _) | .store (.swap _ _ _) | .store (.remove _ _) => true
  | _ => false

section

variable {α : Type}

/-- The questions that an operation asks up to some moment, answered in some way. -/
inductive Program.Asks : Operation α → List Request → Prop where
  | stop {p} : Asks p []
  | ask {q next qs} (x) (h : Asks (next x) qs) : Asks (.ask q next) (q :: qs)

/-- An operation that asks for at most so many writes, however it is answered. -/
inductive WritesAtMost : Nat → Operation α → Prop where
  | done {n a} : WritesAtMost n (.done a)
  | ask {n q next} (hq : q.isWrite = false) (h : ∀ x, WritesAtMost n (next x)) :
      WritesAtMost n (.ask q next)
  | write {n q next} (h : ∀ x, WritesAtMost n (next x)) : WritesAtMost (n + 1) (.ask q next)

namespace WritesAtMost

/-- The requests of a run hold no more writes than the program may ask for. -/
theorem countP_le {p : Operation α} {qs : List Request} (hp : p.Asks qs) :
    ∀ {n : Nat}, WritesAtMost n p → qs.countP Request.isWrite ≤ n := by
  induction hp with
  | stop => exact fun _ => Nat.zero_le _
  | @ask q next qs x _ ih =>
    intro n h
    rw [List.countP_cons]
    cases h with
    | ask hq h =>
      have hle := ih (h x)
      rw [if_neg (by simp [hq])]
      exact hle
    | @write n _ _ h =>
      have hle := ih (h x)
      split
      · exact Nat.succ_le_succ hle
      · exact Nat.le_succ_of_le hle

theorem succ {n : Nat} {p : Operation α} (h : WritesAtMost n p) : WritesAtMost (n + 1) p := by
  induction h with
  | done => exact .done
  | ask hq _ ih => exact .ask hq ih
  | write _ ih => exact .write ih

/-- A call on the store that is no write. -/
theorem storeRead {n : Nat} {s : CoordinatorSettings} {c : StoreCall}
    {next : c.Outcome → Operation (Except SessionError α)}
    (hc : (Request.store c).isWrite = false) (h : ∀ o, WritesAtMost n (next o)) :
    WritesAtMost n (Coordinator.storeCall s c next) := by
  refine .ask hc ?_
  intro x
  split
  · exact h _
  · exact .done
  · exact .done

/-- A call on the store that may be a write. -/
theorem storeWrite {n : Nat} {s : CoordinatorSettings} {c : StoreCall}
    {next : c.Outcome → Operation (Except SessionError α)}
    (h : ∀ o, WritesAtMost n (next o)) :
    WritesAtMost (n + 1) (Coordinator.storeCall s c next) := by
  refine .write ?_
  intro x
  split
  · exact h _
  · exact .done
  · exact .done

/-- Reading the record is no write. -/
theorem loadLive {n : Nat} {s : CoordinatorSettings} {key : SessionKey} {now : Instant}
    {next : Record → Operation (Except SessionError α)} (h : ∀ r, WritesAtMost n (next r)) :
    WritesAtMost n (Coordinator.loadLive s key now next) := by
  refine storeRead rfl ?_
  intro o
  split
  · split
    · exact .done
    · exact h _
  · exact .done

theorem commit {n : Nat} {key : SessionKey} {value : α} {earlier : List Change} {own : Change} :
    WritesAtMost n (Coordinator.commit key value earlier own) :=
  .ask rfl fun _ => .ask rfl fun _ => .ask rfl fun _ => .ask rfl fun _ => .done

/-- A swap is one. -/
theorem swap {s : CoordinatorSettings} {key : SessionKey} {expected : Version} {next : Record}
    {now : Instant} : WritesAtMost 1 (Coordinator.swap s key expected next now) := by
  refine storeWrite ?_
  intro o
  split
  · exact commit
  · exact .done
  · exact .done

end WritesAtMost

end

/-- A round of a creation inserts and replaces at most once each. -/
theorem createFrom_writesAtMost (s : CoordinatorSettings) (key : SessionKey) (payload : Json)
    (ttl : Span) (now : Instant) (rounds : Nat) :
    ∀ t : Option Version, WritesAtMost (2 * rounds)
      (Coordinator.createFrom s key payload ttl now rounds t) := by
  induction rounds with
  | zero => exact fun t => .done
  | succ rounds ih =>
    intro t
    refine .storeWrite ?_
    intro o
    split
    · exact .commit
    · -- after a tombstone, the second write of the round is saved
      exact (ih _).succ
    · split
      · exact .done
      · refine .storeWrite ?_
        intro o
        split
        · exact .commit
        · exact .done
        · exact ih _

namespace Mutation

/-- How many writes a mutation may ask for. -/
def writeLimit : Mutation → Nat
  | .create .. => 2 * Coordinator.createRounds
  | .update .. | .delete .. | .touch .. => 1

/-- Every mutation asks for few writes. -/
theorem writesAtMost (m : Mutation) (s : CoordinatorSettings) :
    WritesAtMost m.writeLimit (m.operation s) := by
  cases m with
  | create key payload ttl =>
    simp only [operation, Coordinator.create]
    split
    · -- refused before any write
      exact .done
    · split
      · exact .done
      · exact .ask rfl fun now => createFrom_writesAtMost s key payload ttl now _ none
  | update key expected payload =>
    simp only [operation, Coordinator.update]
    split
    · exact .done
    · refine .ask rfl fun now => .loadLive fun r => ?_
      split
      · exact .done
      · exact .swap
  | delete key expected =>
    -- a removal is one write, and its commit none
    refine .ask rfl fun now => .loadLive fun r => ?_
    split
    · exact .done
    · refine .storeWrite ?_
      intro o
      split
      · exact .commit
      · exact .done
      · exact .done
  | touch key extendBy =>
    simp only [operation, Coordinator.touch]
    split
    · exact .done
    · exact .ask rfl fun now => .loadLive fun r => .swap

end Mutation

end SessionCluster
