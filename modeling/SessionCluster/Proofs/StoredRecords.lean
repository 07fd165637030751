/-
  Stored records — the text of a record is read as the record.

  A record is written as an object of seven fields, of which each is read back by its own reader: keys
  are checked again, node names are trusted, and instants are read from their written form.  A payload
  can keep a record from being read back: it may nest too deep for a text, or hold doubles.  And so can
  an instant, if it lies in a leap second for which its text has no room.

  * `Record.ofText_text` — a record is read back, field by field;
  * `Record.legible_of_ofText` — whatever text a record was read from, it has none of these faults;
  * `stored_records_return` — so the cache gives back what it was given, and a record that was read
    from any text is settled;
  * `leap_second_strays` — a leap second in the middle of a minute comes back as the second after it.
-/
import SessionCluster.KeyValue.Records
import SessionCluster.Proofs.Fields
import SessionCluster.Proofs.Schedules
import SessionCluster.Proofs.WrittenInstants

namespace SessionCluster

open Json.Reader

/-! ## The fields -/

theorem SessionKey.reads (k : SessionKey) (room : Nat) : Reads reader room (.string k.text) k := by
  refine (reads_string room k.text).check ?_
  rw [make_eq_ok.mpr rfl]
  rfl

theorem NodeName.reads (n : NodeName) (room : Nat) : Reads reader room (.string n.text) n :=
  (reads_string room n.text).map NodeName.mk

theorem Version.reads (v : Version) (room : Nat) : Reads reader room v.toJson v :=
  (reads_natural v.number_lt v.number_lt room).check (dif_pos v.number_lt)

theorem Instant.reads {t : Instant} (h : t.Writable) (room : Nat) : Reads reader room t.toJson t :=
  (reads_string room (Rfc3339.text t)).check (Rfc3339.read_text h)

/-- Whatever the reader of instants reads is writable. -/
theorem Instant.writable_of_reader {room : Nat} {ts rest : List Json.Token} {t : Instant}
    (h : reader room ts = .ok (t, rest)) : t.Writable := by
  unfold reader check at h
  split at h
  · split at h
    · rename_i hread
      cases h
      exact Rfc3339.writable_of_read hread
    · cases h
  · cases h

namespace Record

/-! ## Records -/

/-- The members of the stored form. -/
def members (r : Record) : List (String × Json) :=
  [("key", .string r.key.text), ("payload", r.payload), ("version", r.version.toJson),
   ("owner_node", .string r.owner.text), ("created_at", r.createdAt.toJson),
   ("updated_at", r.updatedAt.toJson), ("expires_at", r.expiresAt.toJson)]

theorem text_eq (r : Record) : r.text = (Json.object r.members).text :=
  congrArg Json.render (Json.objectTokens_eq r.members)

theorem withoutDoubles_members {r : Record} (h : r.payload.WithoutDoubles) :
    (Json.object r.members).WithoutDoubles :=
  .member .string (.member h (.member (.number trivial) (.member .string
    (.member .string (.member .string (.member .string .noMembers))))))

/-- The payload of a record nests no deeper than there is room for, and its instants are writable. -/
structure Legible (room : Nat) (r : Record) : Prop where
  payload : r.payload.Fits room
  createdAt : r.createdAt.Writable
  updatedAt : r.updatedAt.Writable
  expiresAt : r.expiresAt.Writable

/-- A record is read back from its members. -/
theorem reads_members {r : Record} {room : Nat} (h : r.Legible room) :
    Reads reader (room + 1) (.object r.members) r := by
  refine reads_object (s := ⟨some r.key, some r.payload, some r.version, some r.owner,
    some r.createdAt, some r.updatedAt, some r.expiresAt⟩) ?_ rfl
  refine .cons rfl rfl ((SessionKey.reads r.key room).map _) ?_
  refine .cons rfl rfl ((reads_value h.payload).map _) ?_
  refine .cons rfl rfl ((Version.reads r.version room).map _) ?_
  refine .cons rfl rfl ((NodeName.reads r.owner room).map _) ?_
  refine .cons rfl rfl ((Instant.reads h.createdAt room).map _) ?_
  refine .cons rfl rfl ((Instant.reads h.updatedAt room).map _) ?_
  exact .cons rfl rfl ((Instant.reads h.expiresAt room).map _) .nil

/-- How deep a payload may nest inside of the text of a record. -/
def payloadRoom : Nat := Json.textRoom - 1

/-- **The text of a record is read as the record**, if it is legible and its payload has no doubles. -/
theorem ofText_text {r : Record} (h : r.Legible payloadRoom)
    (hwhole : r.payload.WithoutDoubles) : ofText r.text = .ok r := by
  rw [text_eq]
  exact Json.Reader.ofText_text (reads_members h) (withoutDoubles_members hwhole)

/-- What has been read of a record is legible. -/
structure Draft.Legible (room : Nat) (d : Draft) : Prop where
  payload : ∀ v ∈ d.payload, v.Fits room
  createdAt : ∀ t ∈ d.createdAt, t.Writable
  updatedAt : ∀ t ∈ d.updatedAt, t.Writable
  expiresAt : ∀ t ∈ d.expiresAt, t.Writable

theorem Draft.Legible.empty (room : Nat) : ({} : Draft).Legible room :=
  ⟨fun v hv => absurd hv (Option.not_mem_none v), fun t ht => absurd ht (Option.not_mem_none t),
    fun t ht => absurd ht (Option.not_mem_none t), fun t ht => absurd ht (Option.not_mem_none t)⟩

/-- A record is legible if its draft was. -/
theorem Draft.Legible.build {room : Nat} {d : Draft} {r : Record} (h : d.Legible room)
    (hbuild : d.build = some r) : r.Legible room := by
  simp only [Draft.build, Option.bind_eq_bind, Option.bind_eq_some_iff, Option.some.injEq] at hbuild
  obtain ⟨_, _, payload, hpayload, _, _, _, _, created, hcreated, updated, hupdated, expires,
    hexpires, rfl⟩ := hbuild
  exact ⟨h.payload _ hpayload, h.createdAt _ hcreated, h.updatedAt _ hupdated,
    h.expiresAt _ hexpires⟩

/-- **A record that was read is legible**, whatever the text was. -/
theorem legible_of_ofText {s : String} {r : Record} (h : ofText s = .ok r) :
    r.Legible payloadRoom := by
  have hread : reader Json.textRoom (Json.tokens s) = .ok (r, []) := tokens_of_ofText h
  -- four fields have something to say of a draft; each of them leaves what the others say alone
  have hdraft : ∃ d : Draft, d.Legible payloadRoom ∧ d.build = some r := by
    have hvalue : ∀ ts v rest, value payloadRoom ts = .ok (v, rest) → v.Fits payloadRoom :=
      fun _ _ _ => fits_of_value
    have hinstant : ∀ ts t rest, Instant.reader payloadRoom ts = .ok (t, rest) → t.Writable :=
      fun _ _ _ => Instant.writable_of_reader
    refine ofFields_keeps (P := Draft.Legible payloadRoom) (.empty _) ?_ hread
    simp only [List.forall_mem_cons, List.not_mem_nil, false_implies, implies_true, and_true]
    refine ⟨.of_apart fun _ _ hd => { hd with }, .of_set hvalue fun d v hd hv => ?payload,
      .of_apart fun _ _ hd => { hd with }, .of_apart fun _ _ hd => { hd with },
      .of_set hinstant fun d t hd ht => ?created, .of_set hinstant fun d t hd ht => ?updated,
      .of_set hinstant fun d t hd ht => ?expires⟩
    case payload => exact { hd with payload := fun w hw => Option.some.inj hw ▸ hv }
    case created => exact { hd with createdAt := fun w hw => Option.some.inj hw ▸ ht }
    case updated => exact { hd with updatedAt := fun w hw => Option.some.inj hw ▸ ht }
    case expires => exact { hd with expiresAt := fun w hw => Option.some.inj hw ▸ ht }
  obtain ⟨d, hlegible, hbuild⟩ := hdraft
  exact hlegible.build hbuild

/-- A record without doubles is read back exactly if it is legible. -/
theorem ofText_text_iff {r : Record} (h : r.payload.WithoutDoubles) :
    ofText r.text = .ok r ↔ r.Legible payloadRoom :=
  ⟨legible_of_ofText, fun hlegible => ofText_text hlegible h⟩

end Record

namespace KeyValue

/-- What the cache makes of a text that is a record. -/
theorem cacheCall_found (space : String) (key : SessionKey) {s : String} {r : Record}
    (h : Record.ofText s = .ok r) :
    ∃ found, cacheCall space (.get key) = .ask ["GET", nameOf space key] found ∧
      found (some (.text s)) = .done (.ok (some r)) := by
  refine ⟨_, rfl, ?_⟩
  simp only [textOrNothing, textOf, Except.map, h]

end KeyValue

open KeyValue in
/-- **Stored records return.**  The cache writes a record, whose payload fits into a text and has no
    doubles, and whose instants lie in no leap second but the last of a minute, as a text that is read as
    the record, and answers with the record when it finds that text under the name of the key again.
    Conversely, any text that is read as a record whose payload has no doubles gives a key that passes as
    a key, and the record's own text is read as the same record. -/
theorem stored_records_return :
    (∀ r : Record, r.Legible Record.payloadRoom → r.payload.WithoutDoubles →
      ∀ (space : String) (freshFor : Span), ∃ s lasting written found,
        cacheCall space (.set r freshFor) =
            .ask ["SET", nameOf space r.key, s, "PX", lasting] written ∧
          Record.ofText s = .ok r ∧
          cacheCall space (.get r.key) = .ask ["GET", nameOf space r.key] found ∧
          found (some (.text s)) = .done (.ok (some r))) ∧
    ∀ (s : String) (r : Record), Record.ofText s = .ok r → r.payload.WithoutDoubles →
      SessionKey.make r.key.text = .ok r.key ∧ Record.ofText r.text = .ok r := by
  constructor
  · intro r hlegible hwhole space freshFor
    have hread := Record.ofText_text hlegible hwhole
    obtain ⟨found, hget, hfound⟩ := cacheCall_found space r.key hread
    exact ⟨r.text, _, _, found, rfl, hread, hget, hfound⟩
  · intro s r hread hwhole
    exact ⟨SessionKey.make_eq_ok.mpr rfl, Record.ofText_text (Record.legible_of_ofText hread) hwhole⟩

namespace Sample

/-- A record with a nested payload, a leap second and the last instant there is. -/
def farthest : Record where
  key := key
  payload := .object [("a", .string "é\n"), ("b", .array [.number (.negative 0), .object []])]
  version := version 18446744073709551615
  owner := ⟨""⟩
  createdAt := .epoch
  updatedAt := (Instant.ofParts? 1483228799 1500000000).getD .epoch
  expiresAt := .last

/-- A text of the record that no cache writes: an array, its payload in another order and escaped, and
    its times in other forms. -/
def farthestText : String :=
  "[\"s\", \x7b\"b\": [-1, \x7b\x7d], \"a\": \"\\u00e9\\n\"\x7d, 18446744073709551615, \"\", " ++
  "\"1970-1-1 01:00:00+01:00\", \"2016-12-31t23:59:60.5z\", \"+262142-12-31T23:59:59.999999999Z\"]"

/-- The sample's payload fits, as it nests nothing. -/
theorem farthest_fits : farthest.payload.Fits Record.payloadRoom := by
  refine .object (.cons (by decide) (.cons (by decide) .nil)) fun m hm => ?_
  rcases List.mem_cons.mp hm with rfl | hm
  · exact .string
  rcases List.mem_cons.mp hm with rfl | hm
  · refine .array fun x hx => ?_
    rcases List.mem_cons.mp hx with rfl | hx
    · exact .number
    · obtain rfl := List.mem_singleton.mp hx
      exact .object .nil nofun
  · cases hm

theorem farthest_legible : farthest.Legible Record.payloadRoom :=
  ⟨farthest_fits, fun h => absurd h (by decide), fun _ => by decide, fun h => absurd h (by decide)⟩

theorem farthest_withoutDoubles : farthest.payload.WithoutDoubles := by
  refine .member .string (.member (.array fun x hx => ?_) .noMembers)
  rcases List.mem_cons.mp hx with rfl | hx
  · exact .number trivial
  · obtain rfl := List.mem_singleton.mp hx
    exact .noMembers

end Sample

open KeyValue in
/-- A record goes through the cache, and so does one that was read from a text of another form. -/
theorem sample_stored_records_return :
    (∃ s lasting written found,
      cacheCall "c" (.set Sample.farthest (.ofMillis 5000)) =
          .ask ["SET", nameOf "c" Sample.farthest.key, s, "PX", lasting] written ∧
        Record.ofText s = .ok Sample.farthest ∧
        cacheCall "c" (.get Sample.farthest.key) =
          .ask ["GET", nameOf "c" Sample.farthest.key] found ∧
        found (some (.text s)) = .done (.ok (some Sample.farthest))) ∧
    Record.ofText Sample.farthestText = .ok Sample.farthest ∧
    SessionKey.make Sample.farthest.key.text = .ok Sample.farthest.key ∧
    Record.ofText Sample.farthest.text = .ok Sample.farthest := by
  have hread : Record.ofText Sample.farthestText = .ok Sample.farthest := by
    -- compared as options, whose equality is decided
    have hoption : (Record.ofText Sample.farthestText).toOption = some Sample.farthest := by
      decide +kernel
    cases hresult : Record.ofText Sample.farthestText with
    | error _ =>
      rw [hresult] at hoption
      cases hoption
    | ok r =>
      rw [hresult] at hoption
      exact congrArg Except.ok (Option.some.inj hoption)
  exact ⟨stored_records_return.1 Sample.farthest Sample.farthest_legible Sample.farthest_withoutDoubles
      "c" (.ofMillis 5000),
    hread, stored_records_return.2 Sample.farthestText Sample.farthest hread
      Sample.farthest_withoutDoubles⟩

namespace Sample

/-- A record that lasts until a third of a second into a leap second, in the middle of a minute. -/
def stray : Record :=
  ⟨key, .null, version 1, settings.node, second 0, second 0,
    (Instant.ofParts? 4 1333333333).getD .epoch⟩

/-- What its text says: it lasts until a third of a second into the second after that. -/
def strayRead : Record :=
  { stray with expiresAt := (Instant.ofParts? 5 333333333).getD .epoch }

end Sample

open KeyValue in
/-- **A leap second in the middle of a minute strays.**  Its text is that of the following ordinary
    second, so what comes back is another record, which lasts longer. -/
theorem leap_second_strays :
    Sample.stray.payload.Fits Record.payloadRoom ∧ Sample.stray.payload.WithoutDoubles ∧
      (∃ lasting written, cacheCall "c" (.set Sample.stray (.ofMillis 5000)) =
        .ask ["SET", nameOf "c" Sample.stray.key, Sample.stray.text, "PX", lasting] written) ∧
      Record.ofText Sample.stray.text ≠ .ok Sample.stray ∧
      Record.ofText Sample.stray.text = .ok Sample.strayRead ∧
      Sample.stray.isExpiredAt (Sample.second 5) = true ∧
      Sample.strayRead.isExpiredAt (Sample.second 5) = false := by
  have hwhole : Sample.stray.payload.WithoutDoubles := .null
  have hlegible : Sample.strayRead.Legible Record.payloadRoom :=
    ⟨.null, fun h => absurd h (by decide), fun h => absurd h (by decide),
      fun h => absurd h (by decide)⟩
  -- the two records have one text
  have htext : Sample.stray.text = Sample.strayRead.text := by decide +kernel
  refine ⟨.null, hwhole, ⟨_, _, rfl⟩, fun hread => ?_, ?_, by decide, by decide⟩
  · have hleap := ((Record.ofText_text_iff hwhole).mp hread).expiresAt (by decide)
    exact absurd hleap (by decide)
  · rw [htext]
    exact Record.ofText_text hlegible hwhole

end SessionCluster
