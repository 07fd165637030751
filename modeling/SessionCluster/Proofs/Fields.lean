/-
  Fields — structures that are read from their members.

  A reader READS a value as something (`Reads`) if it takes the tokens of the value, and no others, and
  answers so.  A structure is written as an object with its fields as members, and read back field by
  field (`Fills`), whatever the order of the members is.  Conversely, what the readers of the fields keep
  of a draft is kept when a structure is read, from an object or an array, with whatever else is in the
  text (`ofFields_keeps`).

  * `reads_object` — a structure is read back from an object, by induction on its members;
  * `ofText_text`, `ofValue_of_reads` — so it is from a text, and from a value at hand.
-/
import SessionCluster.Proofs.Values

namespace SessionCluster.Json.Reader

variable {α β : Type}

/-! ## Single values -/

/-- A reader takes the tokens of a value and answers with what it reads them as. -/
def Reads (r : Reader α) (room : Nat) (v : Json) (a : α) : Prop :=
  ∀ k, r room (v.tokensThen k) = .ok (a, k)

section

variable {r : Reader α} {room : Nat} {v : Json} {a : α}

theorem Reads.map (h : Reads r room v a) (f : α → β) : Reads (r.map f) room v (f a) := by
  intro k
  unfold Reader.map
  rw [h k]

theorem Reads.check (h : Reads r room v a) {f : α → Option β} {b : β} (hf : f a = some b) :
    Reads (r.check f) room v b := by
  intro k
  unfold Reader.check
  simp only [h k, hf]

theorem reads_string (room : Nat) (s : String) : Reads string room (.string s) s := fun _ => rfl

theorem reads_natural {n bound : Nat} (h : n < bound) (hn : n < 18446744073709551616) (room : Nat) :
    Reads (natural bound) room (.natural n) n := by
  intro k
  have hnat : (UInt64.ofNat n).toNat = n := UInt64.toNat_ofNat_of_lt' hn
  show (if (UInt64.ofNat n).toNat < bound then _ else _) = _
  rw [hnat, if_pos h]

theorem reads_oneOf {choose : String → Option α} {s : String} (h : choose s = some a) (room : Nat) :
    Reads (oneOf choose) room (.string s) a := by
  intro k
  show oneOf choose room (.string (some s) :: k) = _
  simp only [oneOf, h]

theorem reads_optional (room : Nat) (s : String) :
    Reads (optional string) room (.string s) (some s) := fun _ => rfl

/-- Any value that fits is read as itself. -/
theorem reads_value (h : Json.Fits room v) : Reads value room v v :=
  fun k => value_tokensThen v room [] k h

end

/-! ## Structures -/

section

variable {σ : Type} {fields : List (Field σ)} {room : Nat}

/-- The members of an object fill a draft, one after the other, each its own field. -/
inductive Fills (fields : List (Field σ)) (room : Nat) : σ → List (String × Json) → σ → Prop where
  | nil {s} : Fills fields room s [] s
  | cons {s s₁ s' n v ms f} (hfind : fields.find? (·.name == n) = some f) (hnew : f.filled s = false)
      (hread : Reads (f.read s) room v s₁) (h : Fills fields room s₁ ms s') :
      Fills fields room s ((n, v) :: ms) s'

/-- Where a named member stands that is a field, the field is read. -/
theorem membersWith_named {s s₁ : σ} {n : String} {v : Json} {f : Field σ}
    (hfind : fields.find? (·.name == n) = some f) (hnew : f.filled s = false)
    (hread : Reads (f.read s) room v s₁) (fuel : Nat) (k : List Token) :
    membersWith fields (fuel + 1) true s room (.string (some n) :: .colon :: v.tokensThen k) =
        membersWith fields fuel false s₁ room k ∧
      membersWith fields (fuel + 1) false s room
          (.comma :: .string (some n) :: .colon :: v.tokensThen k) =
        membersWith fields fuel false s₁ room k := by
  constructor <;> simp only [membersWith, hfind, hnew, hread k] <;> rfl

/-- Members that follow others fill the draft. -/
theorem Fills.more {s s' : σ} {ms : List (String × Json)} (h : Fills fields room s ms s') :
    ∀ (fuel : Nat) (k : List Token), ms.length < fuel →
      membersWith fields fuel false s room (moreMembersThen ms (.endObject :: k)) = .ok (s', k) := by
  induction h with
  | nil =>
    intro fuel k hfuel
    obtain ⟨fuel, rfl⟩ := Nat.exists_eq_succ_of_ne_zero (Nat.ne_of_gt hfuel)
    rfl
  | cons hfind hnew hread _ ih =>
    intro fuel k hfuel
    rw [List.length_cons] at hfuel
    obtain ⟨fuel, rfl⟩ := Nat.exists_eq_succ_of_ne_zero (show fuel ≠ 0 by omega)
    exact ((membersWith_named hfind hnew hread fuel _).2).trans (ih fuel k (by omega))

/-- The members of an object fill the draft. -/
theorem Fills.all {s s' : σ} {ms : List (String × Json)} (h : Fills fields room s ms s')
    {fuel : Nat} (hfuel : ms.length < fuel) (k : List Token) :
    membersWith fields fuel true s room (membersThen ms (.endObject :: k)) = .ok (s', k) := by
  obtain ⟨fuel, rfl⟩ := Nat.exists_eq_succ_of_ne_zero (Nat.ne_of_gt (Nat.zero_lt_of_lt hfuel))
  cases h with
  | nil => rfl
  | cons hfind hnew hread h =>
    rw [List.length_cons] at hfuel
    exact ((membersWith_named hfind hnew hread fuel _).1).trans (h.more fuel k (by omega))

/-- There are at least as many tokens as members. -/
theorem length_le_membersThen (ms : List (String × Json)) (k : List Token) :
    ms.length ≤ (membersThen ms k).length := by
  have hmore : ∀ ms : List (String × Json), ms.length ≤ (moreMembersThen ms k).length := by
    intro ms
    induction ms with
    | nil => exact Nat.zero_le _
    | cons m ms ih =>
      show ms.length + 1 ≤ (_ :: _ :: _ :: m.2.tokensThen (moreMembersThen ms k)).length
      rw [tokensThen_eq]
      simp only [List.length_cons, List.length_append]
      omega
  cases ms with
  | nil => exact Nat.zero_le _
  | cons m ms =>
    have := hmore ms
    show ms.length + 1 ≤ (_ :: _ :: m.2.tokensThen (moreMembersThen ms k)).length
    rw [tokensThen_eq]
    simp only [List.length_cons, List.length_append]
    omega

variable {start : σ} {short : σ → Bool} {build : σ → Option α}

/-- **A structure is read back from an object** whose members fill it. -/
theorem reads_object {ms : List (String × Json)} {s : σ} {a : α}
    (h : Fills fields room start ms s) (hbuild : build s = some a) :
    Reads (ofFields fields start short build) (room + 1) (.object ms) a := by
  intro k
  have hfuel : ms.length < (membersThen ms (.endObject :: k)).length + 1 :=
    Nat.lt_succ_of_le (length_le_membersThen ms _)
  have hbody := h.all hfuel k
  show ofFields fields start short build (room + 1)
    (.beginObject :: membersThen ms (.endObject :: k)) = _
  simp [ofFields, hbody, hbuild]

/-- A field keeps what is said of a draft, whatever it reads. -/
def Field.Keeps (P : σ → Prop) (room : Nat) (f : Field σ) : Prop :=
  ∀ s ts s' rest, P s → f.read s room ts = .ok (s', rest) → P s'

section

variable {P : σ → Prop} (hkeeps : ∀ f ∈ fields, f.Keeps P room)

include hkeeps

/-- The members of an object keep what every field keeps. -/
theorem membersWith_keeps (fuel : Nat) :
    ∀ (first : Bool) (s : σ) (ts : List Token) (s' : σ) (rest : List Token), P s →
      membersWith fields fuel first s room ts = .ok (s', rest) → P s' := by
  induction fuel with
  | zero =>
    intro first s ts s' rest _ h
    cases h
  | succ fuel ih =>
    intro first s ts s' rest hs h
    unfold membersWith at h
    dsimp only at h
    split at h
    case h_1 =>
      cases h
      exact hs
    case h_2 | h_3 =>
      split at h
      · cases h
      · split at h
        · -- a name that is no field's
          split at h
          · split at h
            · exact ih _ _ _ _ _ hs h
            · cases h
          · cases h
        · rename_i f hfind
          split at h
          · cases h
          · split at h
            · split at h
              · rename_i hread
                have hf := hkeeps f (List.mem_of_find?_eq_some hfind)
                exact ih _ _ _ _ _ (hf _ _ _ _ hs hread) h
              · cases h
            · cases h
    case h_4 => cases h

end

/-- So do the items of an array that stands for an object. -/
theorem itemsWith_keeps {P : σ → Prop} (fs : List (Field σ)) :
    ∀ (first : Bool) (s : σ) (ts : List Token) (s' : σ) (rest : List Token),
      (∀ f ∈ fs, f.Keeps P room) → P s →
        itemsWith short fs first s room ts = .ok (s', rest) → P s' := by
  induction fs with
  | nil =>
    intro first s ts s' rest _ hs h
    unfold itemsWith at h
    split at h
    · cases h
      exact hs
    · cases h
  | cons f fs ih =>
    intro first s ts s' rest hkeeps hs h
    obtain ⟨hf, hfs⟩ := List.forall_mem_cons.mp hkeeps
    unfold itemsWith at h
    split at h
    case h_1 =>
      -- the array ends early
      split at h
      · cases h
        exact hs
      · cases h
    case h_2 => cases h
    case h_3 | h_4 =>
      split at h
      · rename_i hread
        exact ih _ _ _ _ _ hfs (hf _ _ _ _ hs hread) h
      · cases h
    case h_5 => cases h

/-- **What the fields keep is kept** when a structure is read. -/
theorem ofFields_keeps {P : σ → Prop} {ts rest : List Token} {a : α} (hstart : P start)
    (hkeeps : ∀ f ∈ fields, f.Keeps P (room - 1))
    (h : ofFields fields start short build room ts = .ok (a, rest)) :
    ∃ s, P s ∧ build s = some a := by
  unfold ofFields at h
  dsimp only at h
  split at h
  · cases h
  · rename_i s rest' hbody
    have hs : P s := by
      split at hbody
      · split at hbody
        · cases hbody
        · exact membersWith_keeps hkeeps _ _ _ _ _ _ hstart hbody
      · split at hbody
        · cases hbody
        · exact itemsWith_keeps fields _ _ _ _ _ hkeeps hstart hbody
      · cases hbody
    split at h
    · rename_i hbuild
      cases h
      exact ⟨s, hs, hbuild⟩
    · cases h

/-- A field keeps what its reader and its place in the value keep. -/
theorem Field.Keeps.of_set {P : σ → Prop} {Q : α → Prop} {name : String} {get : σ → Option α}
    {set : σ → α → σ} {r : Reader α} (hr : ∀ ts a rest, r room ts = .ok (a, rest) → Q a)
    (hset : ∀ s a, P s → Q a → P (set s a)) : (field name get set r).Keeps P room := by
  intro s ts s' rest hs h
  have hmap : (r.map (set s)) room ts = .ok (s', rest) := h
  unfold Reader.map at hmap
  split at hmap
  · rename_i a rest' hread
    cases hmap
    exact hset s a hs (hr ts a _ hread)
  · cases hmap

theorem Field.Keeps.of_apart {P : σ → Prop} {name : String} {get : σ → Option α} {set : σ → α → σ}
    {r : Reader α} (hset : ∀ s a, P s → P (set s a)) : (field name get set r).Keeps P room :=
  of_set (Q := fun _ => True) (fun _ _ _ _ => trivial) fun s a hs _ => hset s a hs

end

/-! ## Texts and values -/

section

variable {r : Reader α} {v : Json} {a : α}

/-- **What is read from the tokens of a value is read from its text**, if it has no doubles. -/
theorem ofText_text (h : Reads r textRoom v a) (hv : v.WithoutDoubles) :
    ofText r v.text = .ok a := by
  unfold ofText
  rw [tokens_text hv]
  unfold toTokens
  rw [h []]

theorem ofTextStart_text (h : Reads r textRoom v a) (hv : v.WithoutDoubles) :
    ofTextStart r v.text = .ok a := by
  unfold ofTextStart
  rw [tokens_text hv]
  unfold toTokens
  rw [h []]

/-- What is read from a text is read from all of its tokens. -/
theorem tokens_of_ofText {s : String} (h : ofText r s = .ok a) :
    r textRoom (tokens s) = .ok (a, []) := by
  unfold ofText at h
  split at h
  · rename_i hread
    cases h
    exact hread
  · cases h
  · cases h

/-- What is read from the tokens of a value is read from the value. -/
theorem ofValue_of_reads (h : Reads r v.toTokens.length v a) : ofValue r v = .ok a := by
  have htokens : r v.toTokens.length v.toTokens = .ok (a, []) := h []
  unfold ofValue
  simp only [htokens]

end

end SessionCluster.Json.Reader
