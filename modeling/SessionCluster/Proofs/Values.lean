/-
  Values — what is written of a value is read as that value, and what is read can be written.

  The names of an object's members come in order, each once, and a text nests only so deep: such
  values FIT (`Json.Fits`).  They are just the values that a reader of values comes up with.

  * `value_tokensThen` — a value that fits is read back from its tokens, whatever follows them;
  * `fits_of_value` — a value that was read fits, by an invariant of the containers that are open;
  * `legible_tokensThen` — the text of a value without doubles is legible.
-/
import SessionCluster.Json.Reader
import SessionCluster.Proofs.Lexing

namespace SessionCluster.Json

/-! ## Values that fit -/

/-- Members in the order of their names, each name once. -/
def Ordered (members : List (String × Json)) : Prop := members.Pairwise fun a b => a.1 < b.1

theorem Ordered.of_names {ms : List (String × Json)} (h : (ms.map Prod.fst).Pairwise (· < ·)) :
    Ordered ms :=
  List.pairwise_map.mp h

/-- A value as texts give it, which nests at most so deep: members are in order. -/
inductive Fits : Nat → Json → Prop where
  | null {room} : Fits room .null
  | bool {room b} : Fits room (.bool b)
  | number {room n} : Fits room (.number n)
  | string {room s} : Fits room (.string s)
  | array {room items} (h : ∀ x ∈ items, Fits room x) : Fits (room + 1) (.array items)
  | object {room members} (hordered : Ordered members) (h : ∀ m ∈ members, Fits room m.2) :
      Fits (room + 1) (.object members)

/-- A value whose numbers are all whole. -/
inductive WithoutDoubles : Json → Prop where
  | null : WithoutDoubles .null
  | bool {b} : WithoutDoubles (.bool b)
  | number {n} (h : n.IsWhole) : WithoutDoubles (.number n)
  | string {s} : WithoutDoubles (.string s)
  | array {items} (h : ∀ x ∈ items, WithoutDoubles x) : WithoutDoubles (.array items)
  | object {members} (h : ∀ m ∈ members, WithoutDoubles m.2) : WithoutDoubles (.object members)

namespace WithoutDoubles

theorem noMembers : WithoutDoubles (.object []) := .object nofun

/-- An object gets one more member. -/
theorem member {name : String} {v : Json} {ms : List (String × Json)} (hv : v.WithoutDoubles)
    (hms : WithoutDoubles (.object ms)) : WithoutDoubles (.object ((name, v) :: ms)) := by
  cases hms with
  | object hms => exact .object (List.forall_mem_cons.mpr ⟨hv, hms⟩)

end WithoutDoubles

/-! ## Members in order -/

/-- A member whose name comes after all others is put at the end. -/
theorem insertMember_last {name : String} {v : Json} (ms : List (String × Json))
    (h : ∀ m ∈ ms, m.1 < name) : insertMember name v ms = ms ++ [(name, v)] := by
  induction ms with
  | nil => rfl
  | cons m ms ih =>
    obtain ⟨k, w⟩ := m
    have hk : k < name := h (k, w) (List.mem_cons_self ..)
    show (if name < k then _ else if name = k then _ else _) = _
    rw [if_neg (String.lt_asymm hk), if_neg (String.ne_of_lt hk).symm,
      ih fun m hm => h m (List.mem_cons_of_mem _ hm)]
    rfl

/-- What is in a list of members after one was put in. -/
theorem mem_insertMember {name : String} {v : Json} {m : String × Json} (ms : List (String × Json))
    (h : m ∈ insertMember name v ms) : m = (name, v) ∨ m ∈ ms := by
  induction ms with
  | nil => exact .inl (List.mem_singleton.mp h)
  | cons n ms ih =>
    obtain ⟨k, w⟩ := n
    unfold insertMember at h
    split at h
    · exact List.mem_cons.mp h
    · split at h
      · exact (List.mem_cons.mp h).imp_right (List.mem_cons_of_mem _)
      · rcases List.mem_cons.mp h with rfl | hrest
        · exact .inr (List.mem_cons_self ..)
        · exact (ih hrest).imp_right (List.mem_cons_of_mem _)

/-- Members stay in order. -/
theorem Ordered.insertMember {ms : List (String × Json)} (h : Ordered ms) (name : String)
    (v : Json) : Ordered (insertMember name v ms) := by
  induction ms with
  | nil => exact List.pairwise_singleton ..
  | cons n ms ih =>
    obtain ⟨k, w⟩ := n
    obtain ⟨hfirst, hrest⟩ := List.pairwise_cons.mp h
    unfold Json.insertMember
    split
    · rename_i hlt
      refine List.pairwise_cons.mpr ⟨fun m hm => ?_, h⟩
      rcases List.mem_cons.mp hm with rfl | hm
      · exact hlt
      · exact String.lt_trans hlt (hfirst m hm)
    · split
      · rename_i heq
        subst heq
        exact List.pairwise_cons.mpr ⟨hfirst, hrest⟩
      · rename_i hnot hne
        refine List.pairwise_cons.mpr ⟨fun m hm => ?_, ih hrest⟩
        rcases mem_insertMember ms hm with rfl | hm
        · exact String.not_le.mp fun hle => hne (String.le_antisymm hle (String.not_lt.mp hnot))
        · exact hfirst m hm

/-- Members that are in order make up their object as they are. -/
theorem ofMembers_ordered {ms : List (String × Json)} (h : Ordered ms) :
    ofMembers ms = .object ms := by
  have hfold : ∀ (rest done : List (String × Json)), Ordered (done ++ rest) →
      rest.foldl (fun ms m => insertMember m.1 m.2 ms) done = done ++ rest := by
    intro rest
    induction rest with
    | nil => exact fun done _ => (List.append_nil _).symm
    | cons m rest ih =>
      intro done hordered
      obtain ⟨k, v⟩ := m
      have hlast : ∀ n ∈ done, n.1 < k := fun n hn =>
        (List.pairwise_append.mp hordered).2.2 n hn (k, v) (List.mem_cons_self ..)
      show rest.foldl _ (insertMember k v done) = _
      rw [insertMember_last done hlast, ih _ (by simpa using hordered), List.append_assoc]
      rfl
  exact congrArg Json.object (hfold ms [] h)

/-- An object is made up of its members in order, each of which was given. -/
theorem ofMembers_spec (ms : List (String × Json)) :
    ∃ members, ofMembers ms = .object members ∧ Ordered members ∧ ∀ m ∈ members, m ∈ ms := by
  have hfold : ∀ (rest done : List (String × Json)), Ordered done →
      Ordered (rest.foldl (fun ms m => insertMember m.1 m.2 ms) done) ∧
        ∀ m ∈ rest.foldl (fun ms m => insertMember m.1 m.2 ms) done, m ∈ done ∨ m ∈ rest := by
    intro rest
    induction rest with
    | nil => exact fun done hdone => ⟨hdone, fun m hm => .inl hm⟩
    | cons n rest ih =>
      intro done hdone
      obtain ⟨hordered, hmem⟩ := ih _ (hdone.insertMember n.1 n.2)
      refine ⟨hordered, fun m hm => ?_⟩
      rcases hmem m hm with hm | hm
      · rcases mem_insertMember done hm with rfl | hm
        · exact .inr (List.mem_cons_self ..)
        · exact .inl hm
      · exact .inr (List.mem_cons_of_mem _ hm)
  obtain ⟨hordered, hmem⟩ := hfold ms [] .nil
  exact ⟨_, rfl, hordered, fun m hm => (hmem m hm).resolve_left List.not_mem_nil⟩

/-! ## The tokens of a value -/

mutual

/-- What follows a value follows its tokens. -/
theorem tokensThen_append : ∀ (v : Json) (k l : List Token),
    v.tokensThen (k ++ l) = v.tokensThen k ++ l
  | .null, _, _ => rfl
  | .bool _, _, _ => rfl
  | .number _, _, _ => rfl
  | .string _, _, _ => rfl
  | .array [], _, _ => rfl
  | .array (x :: xs), k, l => by
    show .beginArray :: x.tokensThen (moreItemsThen xs (.endArray :: (k ++ l))) = _
    rw [← List.cons_append, moreItemsThen_append, tokensThen_append]
    rfl
  | .object [], _, _ => rfl
  | .object ((n, x) :: ms), k, l => by
    show .beginObject :: .string (some n) :: .colon ::
      x.tokensThen (moreMembersThen ms (.endObject :: (k ++ l))) = _
    rw [← List.cons_append, moreMembersThen_append, tokensThen_append]
    rfl

theorem moreItemsThen_append : ∀ (xs : List Json) (k l : List Token),
    moreItemsThen xs (k ++ l) = moreItemsThen xs k ++ l
  | [], _, _ => rfl
  | x :: xs, k, l => by
    show .comma :: x.tokensThen (moreItemsThen xs (k ++ l)) = _
    rw [moreItemsThen_append, tokensThen_append]
    rfl

theorem moreMembersThen_append : ∀ (ms : List (String × Json)) (k l : List Token),
    moreMembersThen ms (k ++ l) = moreMembersThen ms k ++ l
  | [], _, _ => rfl
  | (n, x) :: ms, k, l => by
    show .comma :: .string (some n) :: .colon :: x.tokensThen (moreMembersThen ms (k ++ l)) = _
    rw [moreMembersThen_append, tokensThen_append]
    rfl

end

theorem tokensThen_eq (v : Json) (k : List Token) : v.tokensThen k = v.toTokens ++ k :=
  tokensThen_append v [] k

/-- An object that is written member by member is written as a value is. -/
theorem objectTokens_eq (ms : List (String × Json)) :
    objectTokens (ms.map fun m => (m.1, m.2.toTokens)) = (object ms).toTokens := by
  have hmore : ∀ (ms : List (String × Json)) (n : String) (v : Json) (k : List Token),
      [Token.comma].intercalate ((((n, v) :: ms).map fun m => (m.1, m.2.toTokens)).map
        fun m => .string (some m.1) :: .colon :: m.2) ++ k =
          .string (some n) :: .colon :: v.tokensThen (moreMembersThen ms k) := by
    intro ms
    induction ms with
    | nil =>
      intro n v k
      rw [tokensThen_eq]
      simp [List.intercalate, moreMembersThen]
    | cons m ms ih =>
      obtain ⟨n', v'⟩ := m
      intro n v k
      rw [tokensThen_eq]
      show _ = .string (some n) :: .colon :: (v.toTokens ++ .comma :: _)
      rw [← ih n' v' k]
      simp [List.intercalate]
  cases ms with
  | nil => rfl
  | cons m ms => exact congrArg (Token.beginObject :: ·) (hmore ms m.1 m.2 [.endObject])

/-- Tokens that may follow a value in a legible text. -/
structure Ends (k : List Token) : Prop where
  legible : Legible k
  apart : ∀ u ∈ k.head?, ¬u.IsNumber

/-- A token that is no number ends what comes before it. -/
theorem Ends.cons {t : Token} {k : List Token} (ht : t.Written) (hn : ¬t.IsNumber)
    (hk : Legible k) : Ends (t :: k) where
  legible := ⟨ht, fun h => absurd h hn, hk⟩
  apart := by
    rintro u ⟨⟩
    exact hn

mutual

/-- **The text of a value without doubles is legible.** -/
theorem legible_tokensThen : ∀ (v : Json) (k : List Token), v.WithoutDoubles → Ends k →
    Legible (v.tokensThen k)
  | .null, k, _, hk => ⟨trivial, fun h => h.elim, hk.legible⟩
  | .bool _, k, _, hk => ⟨trivial, fun h => h.elim, hk.legible⟩
  -- a double would be read back as another number, so a number without one is asked for
  | .number n, k, h, hk => by
    cases h with
    | number h => exact ⟨h, fun _ => hk.apart, hk.legible⟩
  | .string _, k, _, hk => ⟨trivial, fun h => h.elim, hk.legible⟩
  | .array [], k, _, hk =>
    ⟨trivial, fun h => h.elim, trivial, fun h => h.elim, hk.legible⟩
  | .array (x :: xs), k, h, hk => by
    cases h with
    | array h =>
      -- the first item, and then the others behind their commas
      refine ⟨trivial, fun h => h.elim, legible_tokensThen x _ (h x (List.mem_cons_self ..)) ?_⟩
      exact ends_moreItems xs _ (fun y hy => h y (List.mem_cons_of_mem _ hy))
        (.cons trivial id hk.legible)
  | .object [], k, _, hk =>
    ⟨trivial, fun h => h.elim, trivial, fun h => h.elim, hk.legible⟩
  | .object ((n, x) :: ms), k, h, hk => by
    cases h with
    | object h =>
      -- a name, its colon and its value, and then the other members
      refine ⟨trivial, fun h => h.elim, trivial, fun h => h.elim, trivial, fun h => h.elim,
        legible_tokensThen x _ (h (n, x) (List.mem_cons_self ..)) ?_⟩
      exact ends_moreMembers ms _ (fun m hm => h m (List.mem_cons_of_mem _ hm))
        (.cons trivial id hk.legible)

theorem ends_moreItems : ∀ (xs : List Json) (k : List Token), (∀ x ∈ xs, x.WithoutDoubles) →
    Ends k → Ends (moreItemsThen xs k)
  | [], k, _, hk => hk
  | x :: xs, k, h, hk => by
    refine .cons trivial id (legible_tokensThen x _ (h x (List.mem_cons_self ..)) ?_)
    exact ends_moreItems xs k (fun y hy => h y (List.mem_cons_of_mem _ hy)) hk

theorem ends_moreMembers : ∀ (ms : List (String × Json)) (k : List Token),
    (∀ m ∈ ms, m.2.WithoutDoubles) → Ends k → Ends (moreMembersThen ms k)
  | [], k, _, hk => hk
  | (n, x) :: ms, k, h, hk => by
    refine .cons trivial id ⟨trivial, fun h => h.elim, trivial, fun h => h.elim,
      legible_tokensThen x _ (h (n, x) (List.mem_cons_self ..)) ?_⟩
    exact ends_moreMembers ms k (fun m hm => h m (List.mem_cons_of_mem _ hm)) hk

end

/-- The tokens of a value without doubles are those of its text. -/
theorem tokens_text {v : Json} (h : v.WithoutDoubles) : tokens v.text = v.toTokens :=
  tokens_render (legible_tokensThen v [] h ⟨trivial, nofun⟩)

/-! ## Reading what was written -/

namespace Reader

/-- What becomes of a value that has been read, where containers are open. -/
def proceed (v : Json) (stack : List Frame) : Reader Json := fun room ts =>
  match stack with
  | [] => .ok (v, ts)
  | f :: fs => valueWith .more (f.add v :: fs) room ts

theorem value_end_array (done : List Json) (stack : List Frame) (room : Nat) (k : List Token) :
    valueWith .more (.items done :: stack) room (.endArray :: k) =
      proceed (.array done.reverse) stack (room + 1) k := by
  cases stack <;> rfl

theorem value_end_object (done : List (String × Json)) (name : String) (stack : List Frame)
    (room : Nat) (k : List Token) :
    valueWith .more (.members done name :: stack) room (.endObject :: k) =
      proceed (.ofMembers done.reverse) stack (room + 1) k := by
  cases stack <;> rfl

/-- Where an array may end, a value may come. -/
theorem value_itemOrEnd (v : Json) (stack : List Frame) (room : Nat) (k : List Token) :
    valueWith .itemOrEnd stack room (v.tokensThen k) =
      valueWith .value stack room (v.tokensThen k) := by
  cases v <;> rfl

mutual

/-- **A value that fits is read back**, whatever containers are open and whatever follows. -/
theorem value_tokensThen : ∀ (v : Json) (room : Nat) (stack : List Frame) (k : List Token),
    Fits room v → valueWith .value stack room (v.tokensThen k) = proceed v stack room k
  | .null, room, stack, k, _ => by cases stack <;> rfl
  | .bool _, room, stack, k, _ => by cases stack <;> rfl
  | .number _, room, stack, k, _ => by cases stack <;> rfl
  | .string _, room, stack, k, _ => by cases stack <;> rfl
  | .array [], room, stack, k, h => by
    cases h
    -- no items: the bracket that opens is closed at once
    cases stack <;> rfl
  | .array (x :: xs), room, stack, k, h => by
    cases h with
    | @array room _ h =>
      show valueWith .itemOrEnd (.items [] :: stack) room
        (x.tokensThen (moreItemsThen xs (.endArray :: k))) = _
      -- the first item is read into a list of one, and the others behind it
      rw [value_itemOrEnd, value_tokensThen x room _ _ (h x (List.mem_cons_self ..))]
      exact value_moreItems xs room [x] stack k fun y hy => h y (List.mem_cons_of_mem _ hy)
  | .object [], room, stack, k, h => by
    cases h
    cases stack <;> rfl
  | .object ((n, x) :: ms), room, stack, k, h => by
    cases h with
    | @object room _ hordered h =>
      show valueWith .value (.members [] n :: stack) room
        (x.tokensThen (moreMembersThen ms (.endObject :: k))) = _
      -- likewise the first member, under its name
      rw [value_tokensThen x room _ _ (h (n, x) (List.mem_cons_self ..))]
      show valueWith .more (.members [(n, x)] n :: stack) room _ = _
      rw [value_moreMembers ms room [(n, x)] n stack k fun m hm => h m (List.mem_cons_of_mem _ hm)]
      -- the names were in order already, so that putting them in order changes nothing
      exact congrArg (proceed · stack (room + 1) k) (ofMembers_ordered hordered)

/-- The items that are left are read behind those that were. -/
theorem value_moreItems : ∀ (xs : List Json) (room : Nat) (done : List Json) (stack : List Frame)
    (k : List Token), (∀ x ∈ xs, Fits room x) →
      valueWith .more (.items done :: stack) room (moreItemsThen xs (.endArray :: k)) =
        proceed (.array (done.reverse ++ xs)) stack (room + 1) k
  | [], room, done, stack, k, _ => by
    rw [List.append_nil]
    exact value_end_array done stack room k
  | x :: xs, room, done, stack, k, h => by
    show valueWith .value (.items done :: stack) room
      (x.tokensThen (moreItemsThen xs (.endArray :: k))) = _
    rw [value_tokensThen x room _ _ (h x (List.mem_cons_self ..))]
    show valueWith .more (.items (x :: done) :: stack) room _ = _
    rw [value_moreItems xs room (x :: done) stack k fun y hy => h y (List.mem_cons_of_mem _ hy),
      List.reverse_cons, List.append_assoc]
    rfl

/-- The members that are left are read behind those that were. -/
theorem value_moreMembers : ∀ (ms : List (String × Json)) (room : Nat)
    (done : List (String × Json)) (name : String) (stack : List Frame) (k : List Token),
    (∀ m ∈ ms, Fits room m.2) →
      valueWith .more (.members done name :: stack) room (moreMembersThen ms (.endObject :: k)) =
        proceed (.ofMembers (done.reverse ++ ms)) stack (room + 1) k
  | [], room, done, name, stack, k, _ => by
    rw [List.append_nil]
    exact value_end_object done name stack room k
  | (n, x) :: ms, room, done, name, stack, k, h => by
    show valueWith .value (.members done n :: stack) room
      (x.tokensThen (moreMembersThen ms (.endObject :: k))) = _
    rw [value_tokensThen x room _ _ (h (n, x) (List.mem_cons_self ..))]
    show valueWith .more (.members ((n, x) :: done) n :: stack) room _ = _
    rw [value_moreMembers ms room ((n, x) :: done) n stack k
        fun m hm => h m (List.mem_cons_of_mem _ hm),
      List.reverse_cons, List.append_assoc]
    rfl

end

/-! ## What is read can be written -/

/-- What is in a container that is open fits into it. -/
def Frame.Fits (room : Nat) : Frame → Prop
  | .items done => ∀ x ∈ done, Json.Fits room x
  | .members done _ => ∀ m ∈ done, Json.Fits room m.2

/-- What is in the containers that are open fits, when there is so much room in the innermost. -/
def StackFits : Nat → List Frame → Prop
  | _, [] => True
  | room, f :: fs => f.Fits room ∧ StackFits (room + 1) fs

theorem Frame.fits_items (room : Nat) : (Frame.items []).Fits room := List.forall_mem_nil _

theorem Frame.fits_members (room : Nat) : (Frame.members [] "").Fits room := List.forall_mem_nil _

theorem Frame.Fits.add {room : Nat} {f : Frame} (h : f.Fits room) {v : Json}
    (hv : Json.Fits room v) : (f.add v).Fits room := by
  cases f with
  | items done => exact List.forall_mem_cons.mpr ⟨hv, h⟩
  | members done name => exact List.forall_mem_cons.mpr ⟨hv, h⟩

/-- A container that fits is closed to a value that fits. -/
theorem Frame.Fits.close {room : Nat} {f : Frame} (h : f.Fits room) :
    Json.Fits (room + 1) f.close := by
  cases f with
  | items done => exact .array fun x hx => h x (List.mem_reverse.mp hx)
  | members done name =>
    obtain ⟨members, heq, hordered, hmem⟩ := ofMembers_spec done.reverse
    show Json.Fits (room + 1) (ofMembers done.reverse)
    rw [heq]
    exact .object hordered fun m hm => h m (List.mem_reverse.mp (hmem m hm))

/-- What is read from these tokens fits, if what is already in the open containers does. -/
def FitsAfter (ts : List Token) : Prop :=
  ∀ (x : Expect) (stack : List Frame) (room : Nat) (v : Json) (rest : List Token),
    valueWith x stack room ts = .ok (v, rest) → StackFits room stack →
      Json.Fits (room + stack.length) v

section

variable {ts rest : List Token} {stack : List Frame} {room : Nat} {v : Json}

/-- What goes on from a value that fits ends in one that fits. -/
theorem FitsAfter.proceed (ih : FitsAfter ts) {w : Json} (hw : Json.Fits room w)
    (hstack : StackFits room stack) (h : proceed w stack room ts = .ok (v, rest)) :
    Json.Fits (room + stack.length) v := by
  cases stack with
  | nil =>
    cases h
    exact hw
  | cons f fs => exact ih .more (f.add w :: fs) room v rest h ⟨hstack.1.add hw, hstack.2⟩

/-- The innermost container ends. -/
theorem FitsAfter.ending (ih : FitsAfter ts) {f : Frame} (hstack : StackFits room (f :: stack))
    (h : Reader.proceed f.close stack (room + 1) ts = .ok (v, rest)) :
    Json.Fits (room + (f :: stack).length) v := by
  have hfits := ih.proceed hstack.1.close hstack.2 h
  rwa [Nat.add_assoc, Nat.add_comm 1] at hfits

/-- Another container begins. -/
theorem FitsAfter.opening (ih : FitsAfter ts) {x : Expect} {f : Frame} (hf : ∀ room, f.Fits room)
    (hstack : StackFits room stack)
    (h : (if room = 0 then .error .malformed else valueWith x (f :: stack) (room - 1) ts) =
      .ok (v, rest)) : Json.Fits (room + stack.length) v := by
  split at h
  · cases h
  · rename_i hroom
    obtain ⟨room, rfl⟩ := Nat.exists_eq_succ_of_ne_zero hroom
    have hfits := ih x (f :: stack) room v rest h ⟨hf room, hstack⟩
    rwa [List.length_cons, ← Nat.add_assoc, Nat.add_right_comm] at hfits

end

/-- **What is read fits.** -/
theorem fits_of_valueWith (ts : List Token) : FitsAfter ts := by
  induction ts with
  | nil =>
    intro x stack room v rest h
    cases h
  | cons t ts ih =>
    intro x stack room v rest h hstack
    have hnamed : ∀ {done fs name name'}, StackFits room (.members done name :: fs) →
        valueWith .colon (.members done name' :: fs) room ts = .ok (v, rest) →
        Json.Fits (room + (Frame.members done name :: fs).length) v := by
      intro done fs name name' hstack h
      exact ih .colon (.members done name' :: fs) room v rest h hstack
    unfold valueWith at h
    dsimp only at h
    split at h
    -- the end of a container
    case h_1 | h_2 =>
      cases stack with
      | nil => cases h
      | cons f fs => cases fs <;> exact ih.ending hstack h
    case h_3 done fs => cases fs <;> exact ih.ending hstack h
    case h_4 done name fs => cases fs <;> exact ih.ending hstack h
    -- a comma, a name, a colon
    · exact ih _ _ _ _ _ h hstack
    · exact ih _ _ _ _ _ h hstack
    · exact hnamed hstack h
    · exact hnamed hstack h
    · exact ih _ _ _ _ _ h hstack
    -- the beginning of a container
    · exact ih.opening Frame.fits_items hstack h
    · exact ih.opening Frame.fits_items hstack h
    · exact ih.opening Frame.fits_members hstack h
    · exact ih.opening Frame.fits_members hstack h
    -- a value without parts
    · exact ih.proceed .null hstack h
    · exact ih.proceed .null hstack h
    · exact ih.proceed .bool hstack h
    · exact ih.proceed .bool hstack h
    · exact ih.proceed .number hstack h
    · exact ih.proceed .number hstack h
    · exact ih.proceed .string hstack h
    · exact ih.proceed .string hstack h
    · cases h

/-- What a reader of values comes up with fits into the room that it had. -/
theorem fits_of_value {room : Nat} {ts rest : List Token} {v : Json}
    (h : value room ts = .ok (v, rest)) : Json.Fits room v :=
  fits_of_valueWith ts .value [] room v rest h trivial

end Reader

end SessionCluster.Json
