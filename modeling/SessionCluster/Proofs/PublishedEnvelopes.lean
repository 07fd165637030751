/-
  Published envelopes — an envelope, as it is sent, determines its event.

  An event is written twice: as the payload of its envelope, a value with its members in order, and in
  the fields that the envelope is routed by.  Both say the same (`Envelope.Carries`), and the text of
  the envelope is read as the envelope (`Envelope.ofText_text`), with or without the node it comes from.
  Only a leap second in the middle of a minute is lost on the way (`leap_second_renamed`).

  The version of the form stands in the type behind the last `.v`, where `schemaVersionOf_suffix` finds
  it.
-/
import SessionCluster.Proofs.StoredRecords
import SessionCluster.Session.Event

namespace SessionCluster

open Json.Reader

/-! ## Types of events -/

/-- What comes before a suffix does not matter. -/
theorem versionSuffix_append (front : List Char) {cs rest : List Char}
    (h : versionSuffix? cs = some rest) : versionSuffix? (front ++ cs) = some rest := by
  induction front with
  | nil => exact h
  | cons c front ih =>
    simp only [List.cons_append, versionSuffix?, ih]

/-- Digits have no suffix. -/
theorem versionSuffix_digits {cs : List Char} (h : ∀ c ∈ cs, Text.isDigit c = true) :
    versionSuffix? cs = none := by
  induction cs with
  | nil => rfl
  | cons c cs ih =>
    obtain ⟨hc, hcs⟩ := List.forall_mem_cons.mp h
    unfold versionSuffix?
    rw [ih hcs]
    simp only
    split
    · cases hc
    · rfl

/-- Behind a mark with no other after it, the suffix is all that follows. -/
theorem versionSuffix_mark {cs : List Char} (h : versionSuffix? cs = none) :
    versionSuffix? ('.' :: 'v' :: cs) = some cs := by
  have hmark : versionSuffix? ('v' :: cs) = none := by
    unfold versionSuffix?
    rw [h]
    rfl
  unfold versionSuffix?
  rw [hmark]
  rfl

/-- **The version of a type is the number in its suffix.** -/
theorem schemaVersionOf_suffix (name : String) {n : Nat} (h : n < 4294967296) :
    schemaVersionOf (name ++ ".v" ++ Text.decimal n) = n := by
  have hnone : versionSuffix? (Text.digits n) = none :=
    versionSuffix_digits fun _ => Text.isDigit_of_mem_digits
  have hsuffix : versionSuffix? (name ++ ".v" ++ Text.decimal n).toList = some (Text.digits n) := by
    rw [String.toList_append, String.toList_append, Text.toList_decimal, List.append_assoc]
    exact versionSuffix_append name.toList (versionSuffix_mark hnone)
  unfold schemaVersionOf
  rw [hsuffix]
  show (Text.unsigned? 4294967296 (Text.decimal n)).getD 1 = n
  rw [Text.unsigned_decimal h]
  rfl

namespace ChangeKind

/-- The type of an event is made up of its kind and the version of its form. -/
theorem eventType_eq (k : ChangeKind) : k.eventType = "session." ++ k.text ++ ".v" ++ Text.decimal 1 := by
  cases k <;> rfl

theorem ofText_text (k : ChangeKind) : ofText? k.text = some k := by
  cases k <;> rfl

end ChangeKind

/-! ## Events as values -/

namespace Event

/-- The members of an event, in order. -/
def members (e : Event) : List (String × Json) :=
  [("event_id", .string e.id), ("kind", .string e.kind.text), ("session_id", .string e.key.text),
   ("timestamp", e.timestamp.toJson), ("version", e.version.toJson)]

theorem toJson_eq (e : Event) : e.toJson = .object e.members := rfl

/-- The value of an event nests one object deep. -/
theorem fits (e : Event) (room : Nat) : e.toJson.Fits (room + 1) := by
  rw [toJson_eq]
  refine .object (.of_names (show List.Pairwise (· < ·)
    ["event_id", "kind", "session_id", "timestamp", "version"] by decide)) fun m hm => ?_
  simp only [members, List.mem_cons, List.not_mem_nil, or_false] at hm
  rcases hm with rfl | rfl | rfl | rfl | rfl
  · exact .string
  · exact .string
  · exact .string
  · exact .string
  · exact .number

theorem withoutDoubles (e : Event) : e.toJson.WithoutDoubles := by
  rw [toJson_eq]
  exact .member .string (.member .string (.member .string (.member .string
    (.member (.number trivial) .noMembers))))

/-- An event is read back from its value, if its instant is writable. -/
theorem reads {e : Event} (h : e.timestamp.Writable) (room : Nat) :
    Reads reader (room + 1) e.toJson e := by
  rw [toJson_eq]
  refine reads_object (s := ⟨some e.id, some e.key, some e.version, some e.kind,
    some e.timestamp⟩) ?_ rfl
  refine .cons rfl rfl ((reads_string room e.id).map _) ?_
  refine .cons rfl rfl ((reads_oneOf e.kind.ofText_text room).map _) ?_
  refine .cons rfl rfl ((e.key.reads room).map _) ?_
  refine .cons rfl rfl ((Instant.reads h room).map _) ?_
  exact .cons rfl rfl ((e.version.reads room).map _) .nil

theorem ofValue_toJson {e : Event} (h : e.timestamp.Writable) :
    ofValue reader e.toJson = .ok e :=
  ofValue_of_reads (reads h _)

end Event

/-! ## Envelopes as texts -/

namespace Envelope

/-- The members of an envelope. -/
def members (e : Envelope) : List (String × Json) :=
  [("event_id", .string e.eventId), ("event_type", .string e.eventType),
   ("schema_version", .natural e.schemaVersion), ("aggregate_id", .string e.aggregateId),
   ("aggregate_type", .string e.aggregateType), ("occurred_at", e.occurredAt.toJson),
   ("payload", e.payload), ("metadata", .object e.metadata)]

theorem text_eq (e : Envelope) : e.text = (Json.object e.members).text := by
  unfold text toTokens Json.text
  rw [Json.objectTokens_eq e.metadata]
  exact congrArg Json.render (Json.objectTokens_eq e.members)

theorem withoutDoubles_metadata (e : Envelope) : (Json.object e.metadata).WithoutDoubles := by
  unfold metadata
  split
  · exact .member .string .noMembers
  · exact .noMembers

theorem withoutDoubles_members {e : Envelope} (h : e.payload.WithoutDoubles) :
    (Json.object e.members).WithoutDoubles :=
  .member .string (.member .string (.member (.number trivial) (.member .string (.member .string
    (.member .string (.member h (.member e.withoutDoubles_metadata .noMembers)))))))

/-- The metadata is read back, whether it names a node or not. -/
theorem reads_metadata (e : Envelope) (room : Nat) :
    Reads metadataReader (room + 1) (.object e.metadata) e.originNode := by
  unfold metadata
  cases hnode : e.originNode with
  | none => exact reads_object .nil rfl
  | some node =>
    exact reads_object (.cons rfl rfl ((reads_optional room node).map _) .nil) rfl

/-- An envelope is read back from its members. -/
theorem reads_members {e : Envelope} {room : Nat} (hversion : e.schemaVersion < 4294967296)
    (htime : e.occurredAt.Writable) (h : e.payload.Fits (room + 1)) : Reads reader (room + 2) (.object e.members) e := by
  refine reads_object (s := ⟨some e.eventId, some e.eventType, some e.schemaVersion,
    some e.aggregateId, some e.aggregateType, some e.occurredAt, some e.payload,
    some e.originNode⟩) ?_ rfl
  refine .cons rfl rfl ((reads_string _ e.eventId).map _) ?_
  refine .cons rfl rfl ((reads_string _ e.eventType).map _) ?_
  refine .cons rfl rfl ((reads_natural hversion (by omega) _).map _) ?_
  refine .cons rfl rfl ((reads_string _ e.aggregateId).map _) ?_
  refine .cons rfl rfl ((reads_string _ e.aggregateType).map _) ?_
  refine .cons rfl rfl ((Instant.reads htime _).map _) ?_
  refine .cons rfl rfl ((reads_value h).map _) ?_
  exact .cons rfl rfl ((e.reads_metadata room).map _) .nil

/-- **The text of an envelope is read as the envelope**, if its instant is writable, and its payload
    fits and has no doubles. -/
theorem ofText_text {e : Envelope} (hversion : e.schemaVersion < 4294967296)
    (htime : e.occurredAt.Writable) (h : e.payload.Fits (Json.textRoom - 1)) (hwhole : e.payload.WithoutDoubles) :
    ofText reader e.text = .ok e := by
  rw [text_eq]
  exact Json.Reader.ofText_text (reads_members hversion htime h) (withoutDoubles_members hwhole)

/-- What an envelope says of an event: its payload is read as the event, and the fields that it is
    routed by repeat what the event says. -/
structure Carries (env : Envelope) (e : Event) : Prop where
  /-- The payload alone determines the event. -/
  payload : ofValue Event.reader env.payload = .ok e
  eventId : env.eventId = e.id
  aggregateId : env.aggregateId = e.key.text
  aggregateType : env.aggregateType = "Session"
  eventType : env.eventType = e.kind.eventType
  /-- The version of the form is the number in the type's suffix. -/
  schemaVersion : env.eventType = "session." ++ e.kind.text ++ ".v" ++ Text.decimal env.schemaVersion
  occurredAt : env.occurredAt = e.timestamp

theorem schemaVersion_ofEvent (e : Event) : (ofEvent e).schemaVersion = 1 := by
  show schemaVersionOf e.kind.eventType = 1
  rw [e.kind.eventType_eq]
  exact schemaVersionOf_suffix _ (by decide)

/-- An envelope made from an event with a writable time carries it. -/
theorem carries_ofEvent {e : Event} (h : e.timestamp.Writable) : (ofEvent e).Carries e where
  payload := Event.ofValue_toJson h
  eventId := rfl
  aggregateId := rfl
  aggregateType := rfl
  eventType := rfl
  schemaVersion := by
    rw [schemaVersion_ofEvent]
    exact e.kind.eventType_eq
  occurredAt := rfl

end Envelope

/-- **A published envelope determines its event.**  Every event whose instant lies in no leap second but
    the last of a minute has an envelope; its payload is read as the event, and what it is routed by
    agrees with the event.  The text of the envelope is read as the envelope, whether it is sent without
    the node that it comes from or with any. -/
theorem published_envelope_determines_event (e : Event) (h : e.timestamp.Writable) :
    (Envelope.ofEvent e).Carries e ∧
      ofText Envelope.reader (Envelope.ofEvent e).text = .ok (Envelope.ofEvent e) ∧
      ∀ node : String,
        ((Envelope.ofEvent e).withOrigin node).Carries e ∧
        ofText Envelope.reader ((Envelope.ofEvent e).withOrigin node).text =
          .ok ((Envelope.ofEvent e).withOrigin node) := by
  have hversion : (Envelope.ofEvent e).schemaVersion < 4294967296 := by
    rw [Envelope.schemaVersion_ofEvent]
    decide
  have hcarries := Envelope.carries_ofEvent h
  refine ⟨hcarries, Envelope.ofText_text hversion h (e.fits _) e.withoutDoubles, fun node => ⟨?_, ?_⟩⟩
  · exact ⟨hcarries.payload, hcarries.eventId, hcarries.aggregateId, hcarries.aggregateType,
      hcarries.eventType, hcarries.schemaVersion, hcarries.occurredAt⟩
  · exact Envelope.ofText_text (e := (Envelope.ofEvent e).withOrigin node) hversion h (e.fits _)
      e.withoutDoubles

namespace Sample

/-- An event of an instant. -/
def eventAt (t : Instant) : Event := ⟨"e", key, version 7, .updated, t⟩

/-- An event in a leap second that ends a year. -/
def yearEnd : Event := eventAt farthest.updatedAt

end Sample

open Sample in
/-- An event of the last second of a minute, a leap second, from a node with an odd name. -/
theorem sample_published_envelope :
    yearEnd.timestamp.Writable ∧ (Envelope.ofEvent yearEnd).Carries yearEnd ∧
      ofText Envelope.reader ((Envelope.ofEvent yearEnd).withOrigin "\"").text =
        .ok ((Envelope.ofEvent yearEnd).withOrigin "\"") := by
  have htime : yearEnd.timestamp.Writable := fun _ => by decide
  obtain ⟨hcarries, -, hsent⟩ := published_envelope_determines_event yearEnd htime
  exact ⟨htime, hcarries, (hsent "\"").2⟩

open Sample in
/-- **A leap second in the middle of a minute is renamed.**  The payload of its event is read as an event
    of the following ordinary second, and between the two lies the beginning of that second. -/
theorem leap_second_renamed :
    ofValue Event.reader (Envelope.ofEvent (eventAt stray.expiresAt)).payload =
        .ok (eventAt strayRead.expiresAt) ∧
      ¬ (Envelope.ofEvent (eventAt stray.expiresAt)).Carries
        (eventAt stray.expiresAt) ∧
      stray.expiresAt < second 5 ∧ second 5 < strayRead.expiresAt := by
  have htime : strayRead.expiresAt.Writable := fun h => absurd h (by decide)
  -- the two events have one value
  have hvalue : (eventAt stray.expiresAt).toJson =
      (eventAt strayRead.expiresAt).toJson := by decide +kernel
  have hread : ofValue Event.reader (Envelope.ofEvent (eventAt stray.expiresAt)).payload =
      .ok (eventAt strayRead.expiresAt) :=
    (congrArg (ofValue Event.reader) hvalue).trans (Event.ofValue_toJson htime)
  refine ⟨hread, fun hcarries => ?_, by decide, by decide⟩
  have hsame := Except.ok.inj (hread.symm.trans hcarries.payload)
  exact absurd hsame (by decide)

end SessionCluster
