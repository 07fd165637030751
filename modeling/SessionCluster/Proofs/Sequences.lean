/-
  Sequences — calls that are made one after the other, each after the one before it has answered.

  A session call has to do with its key only, and lets its version rise by two at most
  (`Call.verdict_on`), so versions stay in range for a long time (`StaysInRange.of_length`).

  Every sequence of calls comes to an end.  As long as versions stay in range, what it leaves in the
  store is known in advance: it is what the verdicts leave, one after the other
  (`Solo.Plays.content_eq`).
-/
import SessionCluster.Proofs.Sweeps

namespace SessionCluster

namespace Call

/-- Whether a call is a sweep, which no caller has made. -/
def isSweep : Call → Bool
  | .sweep _ => true
  | _ => false

/-- The key that a call is for; a sweep is for whatever has expired. -/
def key? : Call → Option SessionKey
  | .create _ key _ _ | .get _ key | .update _ key _ _ | .delete _ key _ | .touch _ key _ => some key
  | .sweep _ => none

/-- A call, and what it has said to its caller. -/
abbrev Heard := (c : Call) × c.Said

/-- What callers hear of a call: of a sweep, nothing. -/
def hears (c : Call) (a : c.Answer) : List Heard := if c.isSweep then [] else [⟨c, c.heard a⟩]

theorem hears_of_key {c : Call} {key : SessionKey} (h : c.key? = some key) (a : c.Answer) :
    c.hears a = [⟨c, c.heard a⟩] := by
  cases c with
  | sweep s => cases h
  | _ => rfl

end Call

/-! ## What a session call does -/

/-- A version rises by one at most. -/
theorem Version.next_number_le (v : Version) : v.next.number ≤ v.number + 1 := by
  unfold next
  simp only
  omega

/-- A verdict on one key: nothing changes, or a slot of the key is put whose version is above what the key
    had by two at most, and nothing is told of other keys. -/
inductive Verdict.On {β : Type} (key : SessionKey) (s : Slots) : Verdict β → Prop where
  | unchanged (said : β) : On key s ⟨said, s, []⟩
  | changed (said : β) {slot : Slot} {told : List Change} (hkey : ∀ c ∈ told, c.key = key)
      (hrise : slot.version.number ≤ s.versionOf key + 2) : On key s ⟨said, s.put key slot, told⟩

namespace Verdict.On

variable {α β : Type} {key k : SessionKey} {s : Slots} {now : Instant} {x : Verdict β}

/-- Nothing becomes of other keys. -/
theorem get?_other (h : x.On key s) (hk : k ≠ key) : x.slots.get? k = s.get? k := by
  cases h with
  | unchanged said => rfl
  | changed said hkey hrise => rw [Slots.get?_put, if_neg hk]

/-- Nothing is told of other keys. -/
theorem told_key (h : x.On key s) : ∀ c ∈ x.told, c.key = key := by
  cases h with
  | unchanged said => exact fun _ hc => absurd hc List.not_mem_nil
  | changed said hkey hrise => exact hkey

/-- No version rises by more than two. -/
theorem versionOf_le (h : x.On key s) (k : SessionKey) :
    x.slots.versionOf k ≤ s.versionOf k + 2 := by
  by_cases hk : k = key
  · subst hk
    cases h with
    | unchanged said => exact Nat.le_add_right _ _
    | changed said hkey hrise =>
      rw [Slots.versionOf_put]
      exact hrise
  · rw [Slots.versionOf_congr (h.get?_other hk)]
    exact Nat.le_add_right _ _

theorem checked {x : Verdict (Except SessionError β)} (h : x.On key s)
    (check : Except SessionError Unit) : (Verdict.checked check s x).On key s := by
  cases check with
  | ok u => exact h
  | error e => exact .unchanged _

/-- A change at an expected version puts the next version. -/
theorem atVersion {expected : Version} (kind : ChangeKind) {f : Record → α × Slot}
    (hf : ∀ r, (f r).2.version = expected.next) :
    (Verdict.ofStep (OneStep.atVersion key expected kind f now s)).On key s := by
  unfold OneStep.atVersion
  cases hp : OneStep.present s key now with
  | none => exact .unchanged _
  | some r =>
    simp only
    by_cases hv : r.version = expected
    · rw [if_pos hv]
      refine .changed _ (fun c hc => by rw [List.mem_singleton.mp hc]) ?_
      have hl : s.live? key = some r := (Option.filter_eq_some_iff.mp hp).1
      rw [hf r, ← hv, Slots.versionOf_of_live hl]
      exact Nat.le_succ_of_le r.version.next_number_le
    · rw [if_neg hv]
      exact .unchanged _

/-- The version of what is created is above a tombstone by one, and above a record by two. -/
theorem versionOver_le (s : Slots) (key : SessionKey) :
    (OneStep.versionOver (s.get? key)).number ≤ s.versionOf key + 2 := by
  cases hs : s.get? key with
  | none => exact Nat.le_add_left 1 _
  | some slot =>
    rw [Slots.versionOf_of_get hs]
    cases slot with
    | tombstone v => exact Nat.le_succ_of_le v.next_number_le
    | live r =>
      exact Nat.le_trans r.version.next.next_number_le (Nat.succ_le_succ r.version.next_number_le)

/-- A creation is about its key, and raises it by two at most. -/
theorem create (hs : s.Keyed) (node : NodeName) (payload : Json) (ttl : Span) :
    (Verdict.created s key now (OneStep.create node key payload ttl now s)).On key s := by
  unfold OneStep.create
  cases OneStep.present s key now with
  | some r => exact .unchanged _
  | none =>
    unfold Verdict.created
    cases hl : s.live? key with
    | none => exact .changed _ (fun c hc => by rw [List.mem_singleton.mp hc]) (versionOver_le s key)
    | some r =>
      -- the end of the record that is in the way is told as well
      refine .changed _ (fun c hc => ?_) (versionOver_le s key)
      rcases List.mem_cons.mp hc with rfl | hc
      · exact hs key r hl
      · rw [List.mem_singleton.mp hc]

end Verdict.On

/-- **A session call has to do with its key only**, and lets its version rise by two at most. -/
theorem Call.verdict_on {c : Call} {key : SessionKey} (hc : c.key? = some key) {s : Slots}
    (hs : s.Keyed) (now : Instant) : (c.verdict now s).On key s := by
  cases c with
  | create settings own payload ttl =>
    cases hc
    exact ((Verdict.On.create hs _ payload ttl).checked _).checked _
  | get settings own => exact .unchanged _
  | update settings own expected payload =>
    cases hc
    exact (Verdict.On.atVersion .updated fun _ => rfl).checked _
  | delete settings own expected =>
    cases hc
    exact .atVersion .deleted fun _ => rfl
  | touch settings own extendBy =>
    cases hc
    refine Verdict.On.checked ?_ _
    cases OneStep.present s key now with
    | none => exact .unchanged _
    | some r => exact .atVersion .updated fun _ => rfl
  | sweep settings => cases hc

/-- A sweep lets versions rise by one at most. -/
theorem Slots.versionOf_swept_le {s : Slots} (hk : s.Keyed) (hd : (s.entries.map Prod.fst).Nodup)
    (now : Instant) (limit : Nat) (key : SessionKey) :
    (s.swept now limit).versionOf key ≤ s.versionOf key + 1 := by
  -- the ends are of records that are live before the sweep
  have hends (rs : List Record) (hrs : ∀ r ∈ rs, s.live? r.key = some r) (t : Slots)
      (ht : t.versionOf key ≤ s.versionOf key + 1) :
      (rs.foldl end_ t).versionOf key ≤ s.versionOf key + 1 := by
    induction rs generalizing t with
    | nil => exact ht
    | cons r rs ih =>
      refine ih (fun r' hr' => hrs r' (List.mem_cons_of_mem _ hr')) _ ?_
      by_cases hkey : key = r.key
      · rw [end_, hkey, versionOf_put, versionOf_of_live (hrs r (List.mem_cons_self ..))]
        exact r.version.next_number_le
      · have hget : (t.end_ r).get? key = t.get? key := by rw [end_, get?_put, if_neg hkey]
        rw [versionOf_congr hget]
        exact ht
  refine hends _ (fun r hr => ?_) s (Nat.le_succ _)
  exact ((mem_allExpired hk hd).mp (List.mem_of_mem_take hr)).1

/-- **No call raises a version by more than two.** -/
theorem Call.versionOf_verdict_le (c : Call) {s : Slots} (hk : s.Keyed)
    (hd : (s.entries.map Prod.fst).Nodup) (now : Instant) (key : SessionKey) :
    (c.verdict now s).slots.versionOf key ≤ s.versionOf key + 2 := by
  cases hc : c.key? with
  | some own => exact (c.verdict_on hc hk now).versionOf_le key
  | none =>
    cases c with
    | sweep settings => exact Nat.le_succ_of_le (Slots.versionOf_swept_le hk hd now _ key)
    | _ => cases hc

namespace Solo

/-! ## One call -/

/-- **A call alone comes to its verdict.** -/
theorem comes_verdict {w : Solo} (hw : w.Sound) (hrange : w.InRange) (now : Instant) (c : Call) :
    Comes (Answers now) (fun a w' => w.Settled (c.verdict now w.slots) (c.heard a) w')
      c.operation w := by
  cases c with
  | create s key payload ttl => exact comes_create hw hrange
  | get s key => exact comes_get hw
  | update s key expected payload => exact comes_update hw expected payload
  | delete s key expected => exact comes_delete hw expected
  | touch s key extendBy => exact comes_touch hw extendBy
  | sweep s => exact (comes_sweep hw).imp fun _ _ h => h.1

/-! ## One call after the other -/

/-- Calls are made one after the other, each at a reading of the clock, and callers hear what they
    say. -/
inductive Plays : Solo → List (Instant × Call) → List Call.Heard → Solo → Prop where
  | done {w : Solo} : Plays w [] [] w
  | call {w w₁ w₂ : Solo} {now : Instant} {c : Call} {a : c.Answer} {rest : List (Instant × Call)}
      {heard : List Call.Heard} (h : Finishes (Answers now) w c.operation a w₁)
      (hrest : Plays w₁ rest heard w₂) : Plays w ((now, c) :: rest) (c.hears a ++ heard) w₂

/-- **Every sequence of calls comes to an end.** -/
theorem exists_plays (steps : List (Instant × Call)) :
    ∀ w : Solo, ∃ heard w', w.Plays steps heard w' := by
  induction steps with
  | nil => exact fun w => ⟨[], w, .done⟩
  | cons x rest ih =>
    intro w
    obtain ⟨a, w₁, h⟩ := exists_finishes (exists_answer x.1) x.2.operation w
    obtain ⟨heard, w₂, hrest⟩ := ih w₁
    exact ⟨_, w₂, .call h hrest⟩

/-- Versions stay in range all along, however the calls are played. -/
def StaysInRange (w : Solo) (steps : List (Instant × Call)) : Prop :=
  ∀ past heard w', past <+: steps → w.Plays past heard w' → w'.InRange

variable {w w' : Solo} {now : Instant} {c : Call} {steps rest : List (Instant × Call)}
  {heard : List Call.Heard}

theorem StaysInRange.here (h : w.StaysInRange steps) : w.InRange :=
  h [] [] w List.nil_prefix .done

theorem StaysInRange.after (h : w.StaysInRange ((now, c) :: rest)) {a : c.Answer}
    (hfirst : Finishes (Answers now) w c.operation a w') : w'.StaysInRange rest := by
  intro past heard w₂ hpast hplays
  exact h _ _ w₂ (List.cons_prefix_cons.mpr ⟨rfl, hpast⟩) (.call hfirst hplays)

/-- **Versions stay in range for a long time**: no call lets one rise by more than two. -/
theorem StaysInRange.of_length (hw : w.Sound) {bound : Nat}
    (hbound : ∀ key, w.slots.versionOf key ≤ bound)
    (hlow : bound + 2 * steps.length < 18446744073709551614) : w.StaysInRange steps := by
  intro past heard w' hpast hplays
  have hlength := hpast.length_le
  have hbelow : bound + 2 * past.length < 18446744073709551614 := by omega
  clear hpast hlength hlow
  induction hplays generalizing bound with
  | done => exact fun key => Nat.lt_of_le_of_lt (hbound key) hbelow
  | @call w w₁ w₂ now c a rest heard hfirst _ ih =>
    rw [List.length_cons] at hbelow
    have hrange : w.InRange := fun key => by
      have := hbound key
      omega
    have hsettled := hfirst.comes (comes_verdict hw hrange now c)
    have hthen (key : SessionKey) : w₁.slots.versionOf key ≤ bound + 2 := by
      rw [hsettled.slots]
      exact Nat.le_trans (c.versionOf_verdict_le hw.keyed hw.distinct now key)
        (Nat.add_le_add_right (hbound key) 2)
    exact ih hsettled.sound hthen (by omega)

/-! ## The content that is left -/

/-- What verdicts leave, one after the other. -/
def content (s : Slots) (steps : List (Instant × Call)) : Slots :=
  steps.foldl (fun s x => (x.2.verdict x.1 s).slots) s

/-- Whether the versions in a content are low enough that two more can follow. -/
def inRange (s : Slots) : Bool := s.entries.all fun e => e.2.version.number < 18446744073709551614

/-- What is found to be in range is in range. -/
theorem InRange.of_inRange (h : inRange w.slots = true) : w.InRange := by
  intro key
  cases hs : w.slots.get? key with
  | none =>
    rw [Slots.versionOf, hs]
    decide
  | some slot =>
    have hlow := of_decide_eq_true (List.all_eq_true.mp h _ (Slots.mem_of_get? hs))
    rw [Slots.versionOf, hs]
    cases slot with
    | live r => exact hlow
    | tombstone v => exact hlow

/-- **What a sequence of calls leaves** in the store, while versions stay in range. -/
theorem Plays.content_eq (h : w.Plays steps heard w') : w.Sound →
    (∀ past, past <+: steps → inRange (content w.slots past) = true) →
    w'.slots = content w.slots steps := by
  induction h with
  | done => exact fun _ _ => rfl
  | @call w w₁ w₂ now c a rest heard hfirst _ ih =>
    intro hw hlow
    have hrange : w.InRange := .of_inRange (hlow [] List.nil_prefix)
    have hsettled := hfirst.comes (comes_verdict hw hrange now c)
    have hrest := ih hsettled.sound
    rw [hsettled.slots] at hrest
    exact hrest fun past hpast => hlow _ (List.cons_prefix_cons.mpr ⟨rfl, hpast⟩)

/-- Versions stay in range if they do so in what the verdicts leave. -/
theorem StaysInRange.of_content (hw : w.Sound)
    (h : ∀ past, past <+: steps → inRange (content w.slots past) = true) :
    w.StaysInRange steps := by
  intro past heard w' hpast hplays
  have hslots := hplays.content_eq hw fun p hp => h p (hp.trans hpast)
  refine .of_inRange ?_
  rw [hslots]
  exact h past hpast

end Solo

end SessionCluster
