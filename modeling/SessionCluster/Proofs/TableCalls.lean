/-
  Calls on the table — each is atomic, although it may take two statements.

  A guarded statement that writes nothing is followed by a selection, which tells why.  In between,
  the row may be changed, become a tombstone, or a record again.  What the selection finds is what
  the call would have found at that moment, for one reason: the versions that are passed in.  A
  version is expected only after it was read, and a record is inserted only one above what was
  read; versions go up, so what was refused once is refused for ever.

  * `StoreCall.Fits` — the calls whose versions stand so to a content; they go on to fit as it grows;
  * `Atomic` — a call has answered what the call answers at the moment of its last statement, which
    changed the content as the call does, and its other statements changed nothing;
  * `call_resolves` — every call that fits is atomic, whatever others do between its statements, and
    each of its statements changes the content as the call does, or not at all.
-/
import SessionCluster.Proofs.TableStatements

namespace SessionCluster

/-! ## Calls that fit -/

/-- A version that a key has reached: it has gone above it, or has a record of it. -/
def Slots.Met (s : Slots) (key : SessionKey) (v : Version) : Prop :=
  v.number < s.versionOf key ∨ ∃ r, s.live? key = some r ∧ r.version = v

namespace StoreCall

/-- The versions that a call passes in: it expects one that was reached, and writes one above it; it
    inserts a record at most one above the key, and not above a record that is there. -/
def Fits (s : Slots) : StoreCall → Prop
  | .insert r => 0 < r.version.number ∧ r.version.number ≤ s.versionOf r.key + 1 ∧
      ∀ cur, s.live? r.key = some cur → r.version.number ≤ cur.version.number
  | .swap key expected r => r.key = key ∧ expected.number < r.version.number ∧ s.Met key expected
  | .remove key expected => s.Met key expected
  | .get _ | .scan _ _ | .ping => True

/-- The calls that the table can take: their records are held without loss, and the versions that
    they expect are below the last signed word. -/
def Storable : StoreCall → Prop
  | .insert r => r.Storable
  | .swap _ expected r => expected.number < 9223372036854775807 ∧ r.Storable
  | .remove _ expected => expected.number < 9223372036854775807
  | .get _ | .scan _ _ | .ping => True

end StoreCall

section

variable {s s' : Slots} {key : SessionKey} {v expected : Version} {r : Record} {c : StoreCall}

theorem Slots.Met.mono (h : s.Met key v) (hg : s.Grows s') : s'.Met key v := by
  rcases h with hlt | ⟨r, hl, rfl⟩
  · exact .inl (Nat.lt_of_lt_of_le hlt (hg.versionOf_le key))
  · rcases hg key with hsame | hup
    · exact .inr ⟨r, by rw [Slots.live?_congr hsame, hl], rfl⟩
    · rw [Slots.versionOf_of_live hl] at hup
      exact .inl hup

/-- What fits now fits later, as the content only grows. -/
theorem StoreCall.Fits.mono (h : c.Fits s) (hg : s.Grows s') : c.Fits s' := by
  cases c with
  | insert r =>
    obtain ⟨hpos, hle, hlive⟩ := h
    have hup := hg.versionOf_le r.key
    refine ⟨hpos, by omega, fun cur hl => ?_⟩
    rcases hg r.key with hsame | hlt
    · exact hlive cur (by rwa [← Slots.live?_congr hsame])
    · rw [Slots.versionOf_of_live hl] at hlt
      omega
  | swap key expected r => exact ⟨h.1, h.2.1, h.2.2.mono hg⟩
  | remove key expected => exact Slots.Met.mono h hg
  | get key => trivial
  | scan now limit => trivial
  | ping => trivial

/-- A version that was met and is not there any more has been passed. -/
theorem Slots.Met.passed (h : s.Met key v) (hgone : s.writeOutcome key v ≠ .applied) :
    v.number < s.versionOf key := by
  rcases h with hlt | ⟨r, hl, hv⟩
  · exact hlt
  · exact absurd (Slots.writeOutcome_eq_applied.mpr ⟨r, hl, hv⟩) hgone

/-- A version that has been passed is not there. -/
theorem Slots.not_applied_of_passed (h : v.number < s.versionOf key) :
    s.writeOutcome key v ≠ .applied := by
  intro happlied
  obtain ⟨r, hl, rfl⟩ := Slots.writeOutcome_eq_applied.mp happlied
  rw [Slots.versionOf_of_live hl] at h
  omega

/-- An insertion that fits and was refused has been passed, too. -/
theorem StoreCall.Fits.passed (h : (StoreCall.insert r).Fits s)
    (hrefused : (StoreCall.insert r).written? (s.apply (.insert r)).1 = none) :
    r.version.number ≤ s.versionOf r.key := by
  cases hget : s.get? r.key with
  | none =>
    rw [Slots.apply_insert_unused hget] at hrefused
    cases hrefused
  | some slot =>
    rw [Slots.versionOf_of_get hget]
    cases slot with
    | live cur => exact h.2.2 cur (Slots.live?_eq_some.mpr hget)
    | tombstone v =>
      by_cases hbelow : r.version ≤ v
      · exact hbelow
      · rw [Slots.apply_insert_above hget hbelow] at hrefused
        cases hrefused

/-- **A call that fits lets the content grow.** -/
theorem StoreCall.Fits.grows (h : c.Fits s) (hc : c.Storable) : s.Grows (s.apply c).2.1 := by
  cases c with
  | get key => exact .refl _
  | scan now limit => exact .refl _
  | ping => exact .refl _
  | insert r =>
    -- an insertion is written over nothing or over a tombstone below it
    cases hget : s.get? r.key with
    | none =>
      rw [Slots.apply_insert_unused hget]
      refine .put ?_
      unfold Slots.versionOf
      rw [hget]
      exact h.1
    | some slot =>
      cases slot with
      | live cur =>
        rw [Slots.apply_insert_live (Slots.live?_eq_some.mpr hget)]
        exact .refl _
      | tombstone v =>
        by_cases hbelow : r.version ≤ v
        · rw [Slots.apply_insert_below hget hbelow]
          exact .refl _
        · rw [Slots.apply_insert_above hget hbelow]
          refine .put ?_
          rw [Slots.versionOf_of_get hget]
          exact Nat.lt_of_not_le hbelow
  | swap key expected r =>
    cases hl : s.live? key with
    | none =>
      rw [Slots.apply_swap_missing hl]
      exact .refl _
    | some cur =>
      -- only a swap that meets its version is written, and it fits above that
      by_cases hv : cur.version = expected
      · rw [Slots.apply_swap_applied hl hv]
        refine .put ?_
        rw [Slots.versionOf_of_live hl, hv]
        exact h.2.1
      · rw [Slots.apply_swap_conflict hl hv]
        exact .refl _
  | remove key expected =>
    cases hl : s.live? key with
    | none =>
      rw [Slots.apply_remove_missing hl]
      exact .refl _
    | some cur =>
      -- likewise a removal, whose tombstone is the next version, as it is below the last
      by_cases hv : cur.version = expected
      · have hlow : expected.number < 9223372036854775807 := hc
        have hnext : cur.tombstoneVersion.number = cur.version.number + 1 :=
          Version.next_number (by rw [hv]; omega)
        rw [Slots.apply_remove_applied hl hv]
        refine .put ?_
        rw [Slots.versionOf_of_live hl]
        show cur.version.number < cur.tombstoneVersion.number
        omega
      · rw [Slots.apply_remove_conflict hl hv]
        exact .refl _

end

namespace Table

/-! ## Executions -/

/-- A statement that was executed: the rows before it, its reply, and the rows after it. -/
structure Execution where
  before : List Entry
  statement : Statement
  reply : Reply
  after : List Entry

/-- What a call may answer at a content.  A scan answers some of the records, which ones is left
    open; all others answer what the store in memory answers. -/
def Answers (s : Slots) : (c : StoreCall) → c.Outcome → Prop
  | .scan _ _, (batch : List Record) => ∀ r ∈ batch, s.live? r.key = some r
  | c, o => o = (s.apply c).1

/-- **A call that was atomic**: it answers what the call answers at the moment of its last statement,
    which changed the content as the call does; its earlier statements changed nothing. -/
def Atomic (c : StoreCall) (made : List Execution) (a : Except StoreFault c.Outcome) : Prop :=
  ∃ earlier last o, made = earlier ++ [last] ∧ a = .ok o ∧ Answers (content last.before) c o ∧
    content last.after = ((content last.before).apply c).2.1 ∧
    ∀ e ∈ earlier, content e.after = content e.before

/-- What a statement of a call does to the rows: nothing that matters, or what the call does. -/
structure Serves (c : StoreCall) (t t' : List Entry) : Prop where
  kept : Kept t'
  slots_eq : content t' = content t ∨ content t' = ((content t).apply c).2.1

/-- What is left of a call that has executed `made`: whatever others do before its next statement, it
    serves the call, and in the end `post` holds. -/
def Resolves {α : Type} (c : StoreCall) (post : List Execution → α → Prop) :
    Query α → List Execution → List Entry → Prop
  | .done a, made, _ => post made a
  | .ask s next, made, t =>
    ∀ t₁, (content t).Grows (content t₁) → Kept t₁ → ∀ reply t₂, Executes t₁ s reply t₂ →
      Serves c t₁ t₂ ∧ Resolves c post (next reply) (made ++ [⟨t₁, s, reply, t₂⟩]) t₂

/-! ## The walk through a call -/

section

variable {α : Type} {c : StoreCall} {t t₁ t₂ : List Entry} {made : List Execution} {reply : Reply}

theorem Atomic.of_last {e : Execution} {o : c.Outcome}
    (hearlier : ∀ e ∈ made, content e.after = content e.before)
    (ho : Answers (content e.before) c o)
    (hafter : content e.after = ((content e.before).apply c).2.1) : Atomic c (made ++ [e]) (.ok o) :=
  ⟨made, e, o, rfl, rfl, ho, hafter, hearlier⟩

theorem Atomic.of_only {e : Execution} {o : c.Outcome} (ho : Answers (content e.before) c o)
    (hafter : content e.after = ((content e.before).apply c).2.1) : Atomic c [e] (.ok o) :=
  .of_last (fun _ he => absurd he List.not_mem_nil) ho hafter

/-- A statement for which the call did nothing has left the content as it was. -/
theorem Effects.unwritten (h : Effects t₁ c reply t₂)
    (hunwritten : c.written? ((content t₁).apply c).1 = none) :
    content t₂ = content t₁ ∧ reply = .affected 0 := by
  have hsame := Slots.apply_of_unwritten hunwritten
  constructor
  · rw [h.slots_eq, hsame]
  · rw [h.reply_eq, hunwritten]
    rfl

/-- Sending a statement that does what the call does. -/
theorem Resolves.send {post : List Execution → Except StoreFault α → Prop} {s : Statement}
    {next : Reply → Query (Except StoreFault α)}
    (heffects : ∀ t₁ reply t₂, Kept t₁ → Executes t₁ s reply t₂ → Effects t₁ c reply t₂)
    (hnext : ∀ t₁ reply t₂, (content t).Grows (content t₁) → Effects t₁ c reply t₂ →
      Resolves c post (next reply) (made ++ [⟨t₁, s, reply, t₂⟩]) t₂) :
    Resolves c post (send s next) made t := by
  intro t₁ hg hk reply t₂ hx
  have heff := heffects t₁ reply t₂ hk hx
  refine ⟨⟨heff.kept, .inr heff.slots_eq⟩, ?_⟩
  have hrest := hnext t₁ reply t₂ hg heff
  obtain rfl := heff.reply_eq
  exact hrest

/-- Reading what is stored under a key. -/
theorem Resolves.fetch {post : List Execution → Except StoreFault α → Prop} {key : SessionKey}
    {next : Except StoreFault (Option Stored) → Query (Except StoreFault α)}
    (hnext : ∀ t₁ reply, (content t).Grows (content t₁) → Kept t₁ →
      Resolves c post (next (.ok (((content t₁).get? key).map Stored.ofSlot)))
        (made ++ [⟨t₁, .fetch key.text, reply, t₁⟩]) t₁) :
    Resolves c post ((fetch key).bind next) made t := by
  intro t₁ hg hk reply t₂ hx
  obtain ⟨rfl, hreply⟩ := executes_fetch hk hx
  refine ⟨⟨hk, .inl rfl⟩, ?_⟩
  have hrest := hnext t₂ reply hg hk
  rcases hreply with ⟨hget, rfl⟩ | ⟨e, slot, hget, rfl, hholds⟩
  · rw [hget] at hrest
    exact hrest
  · obtain ⟨values, hread, hstored⟩ := hholds.read_eq
    rw [hget] at hrest
    show Resolves c post (Program.bind (proceed e.row.read _) next) _ _
    rw [hread]
    show Resolves c post (Program.bind (proceed values.stored _) next) _ _
    rw [hstored]
    exact hrest

/-- Reading. -/
theorem get_resolves (key : SessionKey) :
    Resolves (.get key) (Atomic (.get key)) (call (.get key)) [] t := by
  refine .fetch fun t₁ reply _ _ => ?_
  have hatomic {o : Option Record} (ho : o = (content t₁).live? key) :
      Atomic (.get key) ([] ++ [⟨t₁, .fetch key.text, reply, t₁⟩]) (.ok o) :=
    .of_only ho rfl
  unfold Slots.live? at hatomic
  cases hget : (content t₁).get? key with
  | none => exact hatomic (by rw [hget]; rfl)
  | some slot =>
    cases slot with
    | live r => exact hatomic (by rw [hget]; rfl)
    | tombstone v => exact hatomic (by rw [hget]; rfl)

/-- **Inserting.**  What was refused is refused for ever, so the record or the tombstone that is
    found then is in the way. -/
theorem insert_resolves {r : Record} (hr : r.Storable) (hfits : (StoreCall.insert r).Fits (content t))
    (tries : Nat) :
    Resolves (.insert r) (Atomic (.insert r)) (insertFrom r r.version.number (tries + 1)) [] t := by
  refine .send (fun t₁ reply t₂ hk hx => executes_insert hk hr hfits.1 hx)
    fun t₁ reply t₂ hg heff => ?_
  cases hwritten : (StoreCall.insert r).written? ((content t₁).apply (.insert r)).1 with
  | some key =>
    -- it was inserted
    have hinserted : ((content t₁).apply (.insert r)).1 = .inserted := by
      revert hwritten
      generalize ((content t₁).apply (.insert r)).1 = o
      intro hwritten
      cases o with
      | inserted => rfl
      | occupied existing => cases hwritten
      | tombstoned v => cases hwritten
    have hreply : reply = .affected 1 := by
      rw [heff.reply_eq, hwritten]
      rfl
    subst hreply
    exact .of_only hinserted.symm heff.slots_eq
  | none =>
    obtain ⟨hsame, rfl⟩ := heff.unwritten hwritten
    refine .fetch fun t₃ reply hg₃ hk₃ => ?_
    have hpassed : r.version.number ≤ (content t₃).versionOf r.key := by
      have hbefore := (hfits.mono hg).passed hwritten
      rw [← hsame] at hbefore
      exact Nat.le_trans hbefore (hg₃.versionOf_le r.key)
    have hearlier {s : Statement} : ∀ e ∈ [] ++ [(⟨t₁, s, .affected 0, t₂⟩ : Execution)],
        content e.after = content e.before := by
      intro e he
      rw [List.mem_singleton.mp he]
      exact hsame
    cases hget : (content t₃).get? r.key with
    | none =>
      unfold Slots.versionOf at hpassed
      rw [hget] at hpassed
      exact absurd hfits.1 (Nat.not_lt.mpr hpassed)
    | some slot =>
      cases slot with
      | live cur =>
        have happ := Slots.apply_insert_live (r := r) (Slots.live?_eq_some.mpr hget)
        exact .of_last hearlier (congrArg Prod.fst happ).symm (by rw [happ])
      | tombstone v =>
        have hbelow : r.version ≤ v := by
          rw [Slots.versionOf_of_get hget] at hpassed
          exact hpassed
        have happ := Slots.apply_insert_below hget hbelow
        exact .of_last hearlier (congrArg Prod.fst happ).symm (by rw [happ])

/-- **A conditional write.**  The version that was not there has been passed, so what is found then is
    not of that version. -/
theorem guarded_resolves {post : List Execution → Except StoreFault WriteOutcome → Prop}
    {key : SessionKey} {expected : Version} {s : Statement}
    (hmet : (content t).Met key expected)
    (heffects : ∀ t₁ reply t₂, Kept t₁ → Executes t₁ s reply t₂ → Effects t₁ c reply t₂)
    (hwrites : ∀ slots : Slots, (c.written? (slots.apply c).1).isSome = true ↔
      slots.writeOutcome key expected = .applied)
    (hpost : ∀ made e, (∀ e ∈ made, content e.after = content e.before) →
      content e.after = ((content e.before).apply c).2.1 →
      post (made ++ [e]) (.ok ((content e.before).writeOutcome key expected))) :
    Resolves c post (guarded key s) [] t := by
  -- what does not meet its version writes nothing
  have hrefused {slots : Slots} (h : slots.writeOutcome key expected ≠ .applied) :
      c.written? (slots.apply c).1 = none :=
    Option.not_isSome_iff_eq_none.mp fun hsome => h ((hwrites slots).mp hsome)
  refine .send heffects fun t₁ reply t₂ hg heff => ?_
  -- the guarded statement changed its row: then it was the write
  by_cases happlied : (content t₁).writeOutcome key expected = .applied
  · have hreply : reply = .affected 1 := by
      rw [heff.reply_eq, if_pos ((hwrites _).mpr happlied)]
    subst hreply
    have hdone := hpost [] ⟨t₁, s, .affected 1, t₂⟩
      (fun e he => absurd he List.not_mem_nil) heff.slots_eq
    rw [happlied] at hdone
    exact hdone
  · -- it changed none, and the row is looked at again, to say why
    obtain ⟨hsame, rfl⟩ := heff.unwritten (hrefused happlied)
    refine .fetch fun t₃ reply hg₃ hk₃ => ?_
    -- the version has been passed by now, so it cannot be found again in the meantime
    have hpassed : expected.number < (content t₃).versionOf key := by
      have hbefore := (hmet.mono hg).passed happlied
      rw [← hsame] at hbefore
      exact Nat.lt_of_lt_of_le hbefore (hg₃.versionOf_le key)
    have hlost := Slots.not_applied_of_passed hpassed
    have hdone := hpost ([] ++ [⟨t₁, s, .affected 0, t₂⟩]) ⟨t₃, .fetch key.text, reply, t₃⟩
      (fun e he => by rw [List.mem_singleton.mp he]; exact hsame)
      (by rw [Slots.apply_of_unwritten (hrefused hlost)])
    -- no row or a tombstone: missing; a record: of another version, so a conflict
    cases hget : (content t₃).get? key with
    | none =>
      have hl : (content t₃).live? key = none := Slots.live?_eq_none.mpr (.inl hget)
      rw [Slots.writeOutcome_of_none hl] at hdone
      exact hdone
    | some slot =>
      cases slot with
      | tombstone v =>
        have hl : (content t₃).live? key = none := Slots.live?_eq_none.mpr (.inr ⟨v, hget⟩)
        rw [Slots.writeOutcome_of_none hl] at hdone
        exact hdone
      | live cur =>
        have hl : (content t₃).live? key = some cur := Slots.live?_eq_some.mpr hget
        rw [Slots.writeOutcome_of_live hl] at hdone hlost
        rw [if_neg fun hv => hlost (if_pos hv)] at hdone
        exact hdone

/-- A version that the table can hold is sent as it is. -/
theorem Resolves.proceed {post : List Execution → Except StoreFault α → Prop} {v : Version}
    {next : Int → Query (Except StoreFault α)} (h : v.number < 9223372036854775807)
    (hnext : Resolves c post (next v.number) made t) :
    Resolves c post (proceed (versionArgument v) next) made t := by
  have hsent : versionArgument v = .ok v.number := if_pos (by omega)
  rw [hsent]
  exact hnext

/-- Replacing the record of an expected version. -/
theorem swap_resolves {key : SessionKey} {expected : Version} {r : Record}
    (hc : (StoreCall.swap key expected r).Storable)
    (hfits : (StoreCall.swap key expected r).Fits (content t)) :
    Resolves (.swap key expected r) (Atomic (.swap key expected r)) (call (.swap key expected r)) [] t := by
  obtain ⟨hkey, hup, hmet⟩ := hfits
  have hpos : 0 < r.version.number := by omega
  refine .proceed hc.1 (.proceed hc.2.version ?_)
  refine guarded_resolves hmet
    (fun t₁ reply t₂ hk hx => executes_swap hk hc.2 hpos hkey hx) (fun slots => ?_)
    fun made e hearlier hafter => .of_last hearlier (Slots.apply_swap_outcome _ _ _ _).symm hafter
  rw [Slots.apply_swap_outcome]
  cases slots.writeOutcome key expected with
  | applied => exact ⟨fun _ => rfl, fun _ => rfl⟩
  | conflict cur => exact ⟨nofun, nofun⟩
  | missing => exact ⟨nofun, nofun⟩

/-- Removing the record of an expected version. -/
theorem remove_resolves {key : SessionKey} {expected : Version}
    (hc : (StoreCall.remove key expected).Storable)
    (hfits : (StoreCall.remove key expected).Fits (content t)) :
    Resolves (.remove key expected) (Atomic (.remove key expected)) (call (.remove key expected)) []
      t := by
  refine .proceed hc ?_
  refine guarded_resolves hfits (fun t₁ reply t₂ hk hx => executes_remove hk hx) (fun slots => ?_)
    fun made e hearlier hafter => .of_last hearlier (Slots.apply_remove_outcome _ _ _).symm hafter
  rw [Slots.apply_remove_outcome]
  cases slots.writeOutcome key expected with
  | applied => exact ⟨fun _ => rfl, fun _ => rfl⟩
  | conflict cur => exact ⟨nofun, nofun⟩
  | missing => exact ⟨nofun, nofun⟩

/-- Scanning, and doing nothing. -/
theorem scan_resolves (now : Instant) (limit : Nat) :
    Resolves (.scan now limit) (Atomic (.scan now limit)) (call (.scan now limit)) [] t := by
  intro t₁ _ hk reply t₂ hx
  obtain ⟨rfl, rows, batch, rfl, hbatch, hlive⟩ := executes_scan hk hx
  refine ⟨⟨hk, .inl rfl⟩, ?_⟩
  show Atomic (.scan now limit) _ (scanned rows)
  rw [hbatch]
  exact .of_only hlive rfl

theorem ping_resolves : Resolves .ping (Atomic .ping) (call .ping) [] t := by
  intro t₁ _ hk reply t₂ hx
  cases hx with
  | ping => exact ⟨⟨hk, .inl rfl⟩, .of_only rfl rfl⟩

/-- **Every call that fits is atomic**, whatever others do between its statements. -/
theorem call_resolves (hc : c.Storable) (hfits : c.Fits (content t)) :
    Resolves c (Atomic c) (call c) [] t := by
  cases c with
  | get key => exact get_resolves key
  | insert r => exact .proceed hc.version (insert_resolves hc hfits 2)
  | swap key expected r => exact swap_resolves hc hfits
  | remove key expected => exact remove_resolves hc hfits
  | scan now limit => exact scan_resolves now limit
  | ping => exact ping_resolves

end

end Table

end SessionCluster
