/-
  Refusals for size — which creations and updates are refused because they are too large.

  Two limits apply to them, at different places and in different units.  A body has at most two
  mebibytes, as it was sent; this limit is fixed, and is looked at before the body is read.  A payload has
  at most as many bytes as the settings of the node say, as it would be stored; this limit is looked at
  before anything is asked of the store.

  * `Gateway.Request.Carries` — a request that is in order in every respect but its size;
  * `payload_limit_honoured_iff` — **the limit of the node decides exactly for bodies of two mebibytes at
    most**, and a request that is over a limit is refused in its first poll;
  * `payload_limit_preempted` — a payload of two mebibytes is refused by a node that was started with a
    limit of four, and by one with the usual limit; and neither says that it is the payload.
-/
import SessionCluster.Proofs.AllOrNothing
import SessionCluster.Proofs.ChangeBudget
import SessionCluster.Proofs.Fields
import SessionCluster.Proofs.Lifetimes

namespace SessionCluster

/-! ## Activities that answer in their first poll -/

namespace Activity

variable {σ τ α : Type} {others : σ → σ → Prop} {e e' : Poll σ τ} {a : α}

/-- An activity that finishes when it is polled leaves nothing open for others to change. -/
theorem Course.of_poll {p p' : Activity σ τ α} {es : List (Poll σ τ)} (hc : Course others p e es p') :
    p.poll e = (e', .done a) → es = [e'] ∧ p' = .done a := by
  induction hc with
  | @rest p e hp =>
    intro h
    cases p with
    | done b =>
      cases h
      exact ⟨rfl, rfl⟩
    | wait r d k => cases h
    | never => cases h
    | act u k => cases hp
    | spawn x k => cases hp
  | act _ ih => exact ih
  | spawn _ ih => exact ih
  | resume _ _ _ _ =>
    -- the poll would have ended at the wait, and not with an answer
    intro h
    cases h

/-- What ends within a poll ends before any limit. -/
theorem poll_beforeTick {p : Activity σ τ α} (t : Nat) :
    ∀ {e : Poll σ τ}, p.poll e = (e', .done a) → (p.beforeTick t).poll e = (e', .done (some a)) := by
  induction p with
  | done b =>
    rintro e ⟨⟩
    rfl
  | act u k ih => exact fun h => ih _ _ h
  | wait r d k =>
    intro e h
    cases h
  | never =>
    intro e h
    cases h
  | spawn x k ih => exact fun h => ih h

/-- A strict time limit does not come between, if it leaves any time at all. -/
theorem poll_before {p : Activity σ τ α} {d : Span} (hd : 0 < d.ticks)
    (h : p.poll e = (e', .done a)) : (p.before d).poll e = (e', .done (some a)) := by
  have heq : p.before d = .act (fun _ s => s) fun now _ =>
      if d.ticks = 0 then .done none else p.beforeTick (now + d.ticks) := rfl
  rw [heq, poll, if_neg (Nat.ne_of_gt hd)]
  exact poll_beforeTick _ h

end Activity

namespace Node

open Activity

variable {t : Nat} {n : Node} {limit : Span} {r : Gateway.Request}

/-- An operation that is over under the settings of the node asks nothing of it. -/
theorem poll_operation {α : Type} {f : CoordinatorSettings → Operation α} {a : α}
    (h : f n.settings = .done a) : (operation f).poll (.fresh t n) = (.fresh t n, .done a) := by
  have hread : (operation f).poll (.fresh t n) =
      Activity.poll (ofProgram (answer n.settings.storeTimeout n.settings.cacheTimeout)
        (f n.settings)) (.fresh t n) := rfl
  rw [hread, h]
  rfl

theorem poll_perform {m : Mutation} {a : Outcome m.Value} (h : m.operation n.settings = .done a) :
    (perform m.command).poll (.fresh t n) = (.fresh t n, .done (m.response a)) := by
  rw [m.perform_eq, poll_bind (poll_operation h)]
  rfl

/-- The response to a command is the answer, if it comes in the first poll. -/
theorem poll_respond {c : Gateway.Command} {a : Gateway.Response} (hlimit : 0 < limit.ticks)
    (hr : r.command = .ok c) (h : (perform c).poll (.fresh t n) = (.fresh t n, .done a)) :
    (respond limit r).poll (.fresh t n) = (.fresh t n, .done a) := by
  unfold respond
  simp only [hr]
  exact poll_bind (poll_before hlimit h)

theorem poll_respond_refused {refusal : Gateway.Response} (hlimit : 0 < limit.ticks)
    (hr : r.command = .error refusal) :
    (respond limit r).poll (.fresh t n) = (.fresh t n, .done refusal) := by
  unfold respond
  simp only [hr]
  exact poll_bind (poll_before (p := .done refusal) hlimit rfl)

end Node

/-! ## Answers, whatever happens meanwhile -/

/-- The protocol that allows every poll. -/
def Protocol.any {σ τ : Type} (others : σ → σ → Prop) : Protocol σ τ Unit := ⟨others, fun _ _ _ => True⟩

theorem Protocol.ends_any {σ τ α : Type} {others : σ → σ → Prop} {post : α → Prop} {a : α} (h : post a)
    (ph : Unit) (e : Poll σ τ) : (Protocol.any others).Ends (fun a _ => post a) a ph e :=
  ⟨ph, trivial, h⟩

namespace Wp

variable {σ τ α : Type} {others : σ → σ → Prop} {D : Unit → Poll σ τ → Prop} {ph : Unit} {e : Poll σ τ}

/-- Any activity will do, where every answer does. -/
theorem any {Q : α → Unit → Poll σ τ → Prop} (hD : ∀ ph e, D ph e) (hQ : ∀ a ph e, Q a ph e)
    (p : Activity σ τ α) : ∀ {ph e}, Wp (.any others) D Q p ph e := by
  induction p with
  | done a => exact hQ a _ _
  | act u k ih => exact ih _ _
  | wait r d k ih => exact ⟨(), trivial, fun t s _ => ⟨hD _ _, ih⟩⟩
  | never => exact ⟨(), trivial, fun t s _ => hD _ _⟩
  | spawn x k ih => exact ih

/-- An operation that approves of a field does not answer that it is invalid, whatever it is answered
    itself. -/
theorem approved {field : String} {answer : (q : Request) → Activity σ τ q.Answer}
    {Q : Except SessionError α → Unit → Poll σ τ → Prop} (hD : ∀ ph e, D ph e)
    (hQ : ∀ a ph e, (∀ message, a ≠ .error (.invalid field message)) → Q a ph e)
    {p : Operation (Except SessionError α)} (hp : Approves field p) :
    ∀ {ph e}, Wp (.any others) D Q (.ofProgram answer p) ph e := by
  induction p with
  | done a => exact hQ a _ _ hp
  | ask q next ih => exact ofProgram (any hD (fun x _ _ => ih x (hp x)) _)

end Wp

/-! ## Refusals for size -/

namespace Gateway

namespace Response

/-- A response says that the request breaks a rule, and names the field that does. -/
def Names (field : String) (a : Response) : Prop :=
  a.status = 400 ∧ ∃ v, a.body = .json v ∧
    v.member? "code" = some (.string "VALIDATION_FAILED") ∧
    (v.member? "details").bind (Json.member? "field") = some (.string field)

/-- A response refuses a request for its size: the body is too large, or the payload is. -/
def RefusesSize (a : Response) : Prop := a.status = 413 ∨ a.Names "payload"

/-- The response to a body that is too large. -/
def bodyTooLarge : Response := .ofText 413 "The body is too large"

/-- The response to a payload that is too large for the settings of a node. -/
def payloadTooLarge (s : CoordinatorSettings) (payload : Json) : Response :=
  .ofError (.ofField (.outOfRange "payload" 0 s.maxPayloadBytes (Coordinator.payloadBytes payload)))

theorem names_ofInvalid (field message : String) : (ofError (.invalid field message)).Names field :=
  ⟨rfl, _, rfl, rfl, rfl⟩

/-- Only failures of a field name one, and they name theirs. -/
theorem names_ofError {field : String} {e : SessionError} (h : (ofError e).Names field) :
    ∃ message, e = .invalid field message := by
  obtain ⟨hstatus, v, hbody, _, hfield⟩ := h
  cases e with
  | invalid f message =>
    cases hbody
    have hsame : some (Json.string f) = some (Json.string field) := hfield
    cases hsame
    exact ⟨message, rfl⟩
  | notFound key => cases hstatus
  | alreadyExists key => cases hstatus
  | versionConflict expected current => cases hstatus
  | backendUnavailable message => cases hstatus
  | internal message => cases hstatus

theorem ofError_refusesSize {e : SessionError} (h : (ofError e).RefusesSize) :
    ∃ message, e = .invalid "payload" message := by
  rcases h with hstatus | hnames
  · cases e <;> cases hstatus
  · exact names_ofError hnames

theorem refusesSize_bodyTooLarge : bodyTooLarge.RefusesSize := .inl rfl

theorem not_names_bodyTooLarge (field : String) : ¬ bodyTooLarge.Names field := by
  rintro ⟨hstatus, _⟩
  cases hstatus

theorem names_payloadTooLarge (s : CoordinatorSettings) (payload : Json) :
    (payloadTooLarge s payload).Names "payload" :=
  names_ofInvalid _ _

theorem not_refusesSize_timedOut : ¬ timedOut.RefusesSize := by
  rintro (hstatus | ⟨hstatus, _⟩) <;> cases hstatus

end Response

end Gateway

theorem Mutation.response_error_eq (m : Mutation) (e : SessionError) :
    m.response (.error e) = .ofError e := by
  cases m <;> rfl

/-- The response to a mutation refuses its size only where the mutation has failed for its payload. -/
theorem Mutation.response_refusesSize {m : Mutation} {a : Outcome m.Value}
    (h : (m.response a).RefusesSize) : ∃ message, a = .error (.invalid "payload" message) := by
  cases a with
  | ok c => cases m <;> rcases h with hstatus | ⟨hstatus, _⟩ <;> cases hstatus
  | error e =>
    rw [m.response_error_eq] at h
    obtain ⟨message, rfl⟩ := Gateway.Response.ofError_refusesSize h
    exact ⟨message, rfl⟩

/-! ## The check of payloads -/

section

variable {s : CoordinatorSettings} {payload : Json} {key : SessionKey} {ttl : Span} {expected : Version}
  {field : String}

namespace Coordinator

theorem checkPayload_over (h : s.maxPayloadBytes < payloadBytes payload) :
    checkPayload s payload =
      .error (.ofField (.outOfRange "payload" 0 s.maxPayloadBytes (payloadBytes payload))) :=
  if_pos h

theorem checkPayload_within (h : payloadBytes payload ≤ s.maxPayloadBytes) :
    checkPayload s payload = .ok () :=
  if_neg (Nat.not_lt.mpr h)

theorem create_refused {e : SessionError} (hlifetime : checkLifetime s "ttl_ms" ttl = .ok ())
    (hcheck : checkPayload s payload = .error e) : create s key payload ttl = .done (.error e) := by
  unfold create
  simp only [hlifetime, hcheck]

theorem update_refused {e : SessionError} (hcheck : checkPayload s payload = .error e) :
    update s key expected payload = .done (.error e) := by
  unfold update
  simp only [hcheck]

end Coordinator

/-- A creation that passes both checks has nothing against any field. -/
theorem Approves.createPassed (hlifetime : Coordinator.checkLifetime s "ttl_ms" ttl = .ok ())
    (hcheck : Coordinator.checkPayload s payload = .ok ()) :
    Approves field (Coordinator.create s key payload ttl) := by
  unfold Coordinator.create
  simp only [hlifetime, hcheck]
  exact fun now => .createFrom s key payload ttl now _ none

/-- Nor has an update that passes its only check. -/
theorem Approves.updatePassed (hcheck : Coordinator.checkPayload s payload = .ok ()) :
    Approves field (Coordinator.update s key expected payload) := by
  unfold Coordinator.update
  simp only [hcheck]
  refine fun now => .loadLive fun current => ?_
  split
  · exact fun _ => nofun
  · exact .swap s _ _ _ now

end

/-! ## Requests that carry a payload -/

namespace Gateway.Request

/-- The body of a request is declared as JSON, and a reader reads it. -/
structure Holds {α : Type} (r : Request) (reader : Json.Reader α) (a : α) : Prop where
  declared : ∃ type, r.contentType = some type ∧ MediaType.isJson type = true
  reads : Json.Reader.ofTextStart reader r.body = .ok a

/-- A request asks for a mutation that stores a payload, and is in order but perhaps for its size: its
    body can be read, its key is valid, and so is the lifetime under the settings of the node. -/
inductive Carries (s : CoordinatorSettings) (r : Request) (payload : Json) : Mutation → Prop where
  | creation {name key millis} (hpath : Resource.ofPath? r.path = some .sessions)
      (hmethod : r.method = "POST") (hbody : r.Holds creationReader (name, payload, millis))
      (hkey : SessionKey.make name = .ok key)
      (hlifetime : Coordinator.checkLifetime s "ttl_ms" (.ofMillis millis) = .ok ()) :
      Carries s r payload (.create key payload (.ofMillis millis))
  | update {part name key expected} (hpath : Resource.ofPath? r.path = some (.session part))
      (hmethod : r.method = "PUT") (hname : nameInPath part = .ok name)
      (hbody : r.Holds updateReader (expected, payload)) (hkey : SessionKey.make name = .ok key) :
      Carries s r payload (.update key expected payload)

variable {r : Request} {s : CoordinatorSettings} {payload : Json} {m : Mutation}

theorem Holds.readBody {α : Type} {reader : Json.Reader α} {a : α} (h : r.Holds reader a) :
    r.readBody reader =
      if maxBodyBytes < r.body.utf8ByteSize then .error .bodyTooLarge else .ok a := by
  obtain ⟨type, htype, hjson⟩ := h.declared
  unfold Request.readBody
  simp only [htype, hjson, h.reads]
  rfl

theorem keyOf_of_make {name : String} {key : SessionKey} (h : SessionKey.make name = .ok key) :
    keyOf name = .ok key := by
  unfold keyOf
  rw [h]

theorem command_eq_commandOn {resource : Resource} (hpath : Resource.ofPath? r.path = some resource)
    (hmethod : resource.methods.contains r.method = true) : r.command = r.commandOn resource := by
  unfold Request.command
  simp only [hpath, hmethod, if_true]

/-- What a request with a payload asks for, by the size of its body alone. -/
theorem Carries.command (h : r.Carries s payload m) :
    r.command = if maxBodyBytes < r.body.utf8ByteSize then .error .bodyTooLarge else .ok m.command := by
  cases h with
  | creation hpath hmethod hbody hkey hlifetime =>
    rw [command_eq_commandOn hpath (by rw [hmethod]; rfl), commandOn, hbody.readBody]
    split
    · rfl
    · simp only [bind, Except.bind, keyOf_of_make hkey]
      rfl
  | update hpath hmethod hname hbody hkey =>
    rw [command_eq_commandOn hpath (by rw [hmethod]; rfl), commandOn, hname, hmethod, hbody.readBody]
    -- the name in the path is decoded first, so the branch on the size is not at the front
    by_cases hlarge : maxBodyBytes < r.body.utf8ByteSize
    · simp only [if_pos hlarge]
      rfl
    · simp only [if_neg hlarge, bind, Except.bind, keyOf_of_make hkey]
      rfl

theorem Carries.command_of_small (h : r.Carries s payload m)
    (hsmall : r.body.utf8ByteSize ≤ maxBodyBytes) : r.command = .ok m.command :=
  h.command.trans (if_neg (Nat.not_lt.mpr hsmall))

/-- A payload over the limit ends the mutation before it asks anything. -/
theorem Carries.over (h : r.Carries s payload m)
    (hsize : s.maxPayloadBytes < Coordinator.payloadBytes payload) :
    m.operation s = .done (.error (.ofField
      (.outOfRange "payload" 0 s.maxPayloadBytes (Coordinator.payloadBytes payload)))) := by
  have hcheck := Coordinator.checkPayload_over hsize
  cases h with
  | creation hpath hmethod hbody hkey hlifetime => exact Coordinator.create_refused hlifetime hcheck
  | update hpath hmethod hname hbody hkey => exact Coordinator.update_refused hcheck

/-- A mutation has nothing against a payload within the limit. -/
theorem Carries.within (h : r.Carries s payload m)
    (hsize : Coordinator.payloadBytes payload ≤ s.maxPayloadBytes) :
    Approves "payload" (m.operation s) := by
  have hcheck := Coordinator.checkPayload_within hsize
  cases h with
  | creation hpath hmethod hbody hkey hlifetime => exact .createPassed hlifetime hcheck
  | update hpath hmethod hname hbody hkey => exact .updatePassed hcheck

end Gateway.Request

/-! ## The two limits -/

open Gateway

section

variable {n : Node} {limit : Span} {r : Gateway.Request} {payload : Json} {m : Mutation}
  {others : Node → Node → Prop} {t : Nat} {es : List (Poll Node Work)} {a : Response}

/-- A mutation that approves of its payload is not answered with a refusal for size. -/
theorem Mutation.not_refusesSize (hr : r.command = .ok m.command)
    (hm : Approves "payload" (m.operation n.settings))
    (hc : Activity.Course others (Node.respond limit r) (.fresh t n) es (.done a)) : ¬ a.RefusesSize := by
  have hwp : Wp (.any others) (fun _ _ => True)
      ((Protocol.any others).Ends fun (a : Response) _ => ¬ a.RefusesSize) (Node.respond limit r) ()
      (.fresh t n) := by
    -- time may run out at any wait; that answer has nothing to do with the size
    have hlate (ph : Unit) (e : Poll Node Work) :
        (Protocol.any others).Ends (fun (a : Response) _ => ¬ a.RefusesSize) .timedOut ph e :=
      Protocol.ends_any Response.not_refusesSize_timedOut ph e
    unfold Node.respond
    simp only [hr, m.perform_eq]
    refine Wp.bind _ (Wp.before (hlate _ _) (Wp.bind _ ?_))
    unfold Node.operation
    refine Wp.bind (Activity.read _) (Wp.read ?_)
    refine Wp.approved (fun ph e => ⟨hlate ph e, trivial⟩) (fun x ph e hx => ?_) hm
    refine Protocol.ends_any (fun hrefuses => ?_) ph e
    obtain ⟨message, hinvalid⟩ := Mutation.response_refusesSize hrefuses
    exact hx message hinvalid
  obtain ⟨_, _, hpost⟩ := Activity.Course.kept (P := .any others) hc hwp
  exact hpost a rfl

/-- The gateway honours the node's limit of payloads on a request: whatever others do meanwhile, the
    request is refused for its size exactly if its payload is over the limit, and by a response that
    names the payload. -/
def Node.HonoursLimit (n : Node) (limit : Span) (r : Gateway.Request) (payload : Json) : Prop :=
  ∀ others t es a, Activity.Course others (Node.respond limit r) (.fresh t n) es (.done a) →
    (a.RefusesSize ↔ n.settings.maxPayloadBytes < Coordinator.payloadBytes payload) ∧
      (a.RefusesSize → a.Names "payload")

section

variable (hlimit : 0 < limit.ticks) (hr : r.Carries n.settings payload m)

include hlimit hr

/-- A larger body is refused in the first poll, whatever the payload. -/
theorem poll_bodyTooLarge (hlarge : maxBodyBytes < r.body.utf8ByteSize) (t : Nat) :
    (Node.respond limit r).poll (.fresh t n) = (.fresh t n, .done .bodyTooLarge) :=
  Node.poll_respond_refused hlimit (hr.command.trans (if_pos hlarge))

/-- A body that is not larger, with a payload over the limit, is refused in the first poll. -/
theorem poll_payloadTooLarge (hsmall : r.body.utf8ByteSize ≤ maxBodyBytes)
    (hover : n.settings.maxPayloadBytes < Coordinator.payloadBytes payload) (t : Nat) :
    (Node.respond limit r).poll (.fresh t n) =
      (.fresh t n, .done (.payloadTooLarge n.settings payload)) := by
  have hpoll := Node.poll_respond (t := t) hlimit (hr.command_of_small hsmall)
    (Node.poll_perform (hr.over hover))
  rwa [m.response_error_eq] at hpoll

/-- The refusal of a larger body names no field, so the limit of the node is not honoured. -/
theorem not_honoursLimit (hlarge : maxBodyBytes < r.body.utf8ByteSize) :
    ¬ n.HonoursLimit limit r payload := by
  intro hhonours
  have hc := Activity.course_poll (fun _ _ => True) (Node.respond limit r) (.fresh 0 n)
  rw [poll_bodyTooLarge hlimit hr hlarge] at hc
  obtain ⟨_, hnames⟩ := hhonours _ _ _ _ hc
  exact Response.not_names_bodyTooLarge _ (hnames Response.refusesSize_bodyTooLarge)

/-- A body that is small enough is judged by its payload. -/
theorem honoursLimit (hsmall : r.body.utf8ByteSize ≤ maxBodyBytes) :
    n.HonoursLimit limit r payload := by
  intro others t es a hc
  by_cases hover : n.settings.maxPayloadBytes < Coordinator.payloadBytes payload
  · obtain ⟨_, hdone⟩ := hc.of_poll (poll_payloadTooLarge hlimit hr hsmall hover t)
    cases hdone
    have hnames := Response.names_payloadTooLarge n.settings payload
    constructor
    · exact ⟨fun _ => hover, fun _ => .inr hnames⟩
    · exact fun _ => hnames
  · have hnot := Mutation.not_refusesSize (hr.command_of_small hsmall)
      (hr.within (Nat.not_lt.mp hover)) hc
    constructor
    · exact ⟨fun hrefuses => absurd hrefuses hnot, fun h => absurd h hover⟩
    · exact fun hrefuses => absurd hrefuses hnot

end

/-- **The limit of the node decides exactly for bodies of two mebibytes at most**, for every limit, every
    node and every creation or update that is in order but for its size, and has any time at all.  What is
    over a limit is refused in the first poll, and leaves the node as it was: a larger body with a response that names no field,
    whatever the payload; and a body that is not larger, with the response that names the payload. -/
theorem payload_limit_honoured_iff (hlimit : 0 < limit.ticks) (hr : r.Carries n.settings payload m) :
    (n.HonoursLimit limit r payload ↔ r.body.utf8ByteSize ≤ maxBodyBytes) ∧
    ∀ t, (maxBodyBytes < r.body.utf8ByteSize →
        (Node.respond limit r).poll (.fresh t n) = (.fresh t n, .done .bodyTooLarge)) ∧
      (r.body.utf8ByteSize ≤ maxBodyBytes →
        n.settings.maxPayloadBytes < Coordinator.payloadBytes payload →
        (Node.respond limit r).poll (.fresh t n) =
          (.fresh t n, .done (.payloadTooLarge n.settings payload))) := by
  constructor
  · constructor
    · intro hhonours
      by_contra hlarge
      exact not_honoursLimit hlimit hr (Nat.not_le.mp hlarge) hhonours
    · exact honoursLimit hlimit hr
  · intro t
    constructor
    · exact fun hlarge => poll_bodyTooLarge hlimit hr hlarge t
    · exact fun hsmall hover => poll_payloadTooLarge hlimit hr hsmall hover t

end

namespace Sample

/-! ### A creation of any size -/

/-- A text of so many letters. -/
def letters (count : Nat) : String := String.ofList (List.replicate count 'a')

/-- A creation of a session whose payload is a text of so many letters, for a minute. -/
def upload (count : Nat) : Gateway.Request where
  method := "POST"
  path := "/sessions"
  contentType := some "application/json"
  body := Json.text (.object
    [("payload", .string (letters count)), ("session_id", .string "s"), ("ttl_ms", .natural 60000)])

/-- A text of characters of one byte each has as many bytes as characters. -/
theorem bytes_of_narrow {cs : List Char} (h : cs.all (fun c => c.utf8Size == 1) = true) :
    (String.ofList cs).utf8ByteSize = cs.length := by
  induction cs with
  | nil => rfl
  | cons c cs ih =>
    rw [List.all_cons, Bool.and_eq_true] at h
    obtain ⟨hc, hcs⟩ := h
    rw [String.ofList_cons, String.utf8ByteSize_append, String.utf8ByteSize_singleton,
      eq_of_beq hc, ih hcs, List.length_cons, Nat.add_comm]

/-- A string of plain letters stands in its quotes as it is. -/
theorem quoted_letters (count : Nat) :
    Json.quoted (letters count) = '"' :: (List.replicate count 'a' ++ ['"']) := by
  have hsame : (List.replicate count 'a').flatMap Json.escaped = List.replicate count 'a' := by
    induction count with
    | zero => rfl
    | succ count ih =>
      rw [List.replicate_succ, List.flatMap_cons, ih]
      rfl
  rw [Json.quoted, letters, String.toList_ofList, hsame]

/-- The text of the payload has the letters and two quotes. -/
theorem payloadBytes_letters (count : Nat) :
    Coordinator.payloadBytes (.string (letters count)) = count + 2 := by
  have htext : Json.text (.string (letters count)) = String.ofList (Json.quoted (letters count)) := by
    simp [Json.text, Json.toTokens, Json.tokensThen, Json.render, Json.Token.chars]
  unfold Coordinator.payloadBytes
  rw [htext, quoted_letters, bytes_of_narrow]
  · simp
  · rw [List.all_cons, List.all_append, List.all_replicate]
    split <;> rfl

/-- The body has the text of the payload, and 44 bytes around it. -/
theorem upload_bytes (count : Nat) : (upload count).body.utf8ByteSize = count + 46 := by
  have hbefore : (Json.render [.beginObject, .string (some "payload"), .colon]).utf8ByteSize = 11 :=
    bytes_of_narrow (by decide +kernel)
  have hafter : (Json.render [.comma, .string (some "session_id"), .colon, .string (some "s"), .comma,
      .string (some "ttl_ms"), .colon, .number (some (.natural 60000)), .endObject]).utf8ByteSize =
      33 :=
    bytes_of_narrow (by decide +kernel)
  have hbody : (upload count).body.utf8ByteSize =
      11 + Coordinator.payloadBytes (.string (letters count)) + 33 := by
    rw [← hbefore, ← hafter, Coordinator.payloadBytes, ← String.utf8ByteSize_append,
      ← String.utf8ByteSize_append, Json.text, ← Json.render_append, ← Json.render_append]
    rfl
  rw [hbody, payloadBytes_letters]
  omega

/-- The creation is in order but perhaps for its size, wherever sessions may last for a minute. -/
theorem upload_carries {s : CoordinatorSettings}
    (hlifetime : Coordinator.checkLifetime s "ttl_ms" (.ofMillis 60000) = .ok ()) (count : Nat) :
    (upload count).Carries s (.string (letters count))
      (.create key (.string (letters count)) (.ofMillis 60000)) := by
  have hreads : Json.Reader.Reads creationReader Json.textRoom
      (.object [("payload", .string (letters count)), ("session_id", .string "s"),
        ("ttl_ms", .natural 60000)]) ("s", .string (letters count), 60000) := by
    refine Json.Reader.reads_object
      (s := ⟨some "s", some (.string (letters count)), some 60000⟩) ?_ rfl
    refine .cons rfl rfl ((Json.Reader.reads_value .string).map _) ?_
    refine .cons rfl rfl ((Json.Reader.reads_string _ _).map _) ?_
    exact .cons rfl rfl ((Json.Reader.reads_natural (by decide) (by decide) _).map _) .nil
  have hwhole : Json.WithoutDoubles (.object [("payload", .string (letters count)),
      ("session_id", .string "s"), ("ttl_ms", .natural 60000)]) :=
    .member .string (.member .string (.member (.number trivial) .noMembers))
  have hpath : Resource.ofPath? "/sessions" = some .sessions := by with_unfolding_all rfl
  refine .creation hpath rfl ⟨⟨_, rfl, by decide +kernel⟩, ?_⟩ (SessionKey.make_eq_ok.mpr rfl) hlifetime
  exact Json.Reader.ofTextStart_text hreads hwhole

/-- Settings with a limit of four mebibytes. -/
def roomySettings : Settings := { limits := { maxPayloadBytes := 4194304 } }

/-- A node that is made from them. -/
def roomyNode : Node :=
  (Boot.assemble roomySettings ⟨settings.node, .bus {}⟩ (.running .epoch) {} {}).get
    (by decide +kernel)

theorem roomySettings_accepted : roomySettings.check? = some (.ok ()) := by decide +kernel

theorem roomyNode_assembled :
    Boot.assemble roomySettings ⟨settings.node, .bus {}⟩ (.running .epoch) {} {} = some roomyNode :=
  (Option.some_get _).symm

end Sample

open Sample in
/-- Three letters are within the limit of a node, and 300000 are not: either way its limit decides. -/
theorem sample_payload_limit_honoured :
    (upload 3).Carries node.settings (.string (letters 3))
      (.create key (.string (letters 3)) (.ofMillis 60000)) ∧
    node.HonoursLimit (.ofSeconds 30) (upload 3) (.string (letters 3)) ∧
    (Node.respond (.ofSeconds 30) (upload 300000)).poll (.fresh 0 node) =
      (.fresh 0 node, .done (.payloadTooLarge node.settings (.string (letters 300000)))) := by
  have hlimit : 0 < (Span.ofSeconds 30).ticks := by decide
  have hcarries := upload_carries (s := node.settings) (by decide +kernel)
  refine ⟨hcarries 3, (payload_limit_honoured_iff hlimit (hcarries 3)).1.mpr ?_, ?_⟩
  · rw [upload_bytes]
    decide
  · refine ((payload_limit_honoured_iff hlimit (hcarries 300000)).2 0).2 ?_ ?_
    · rw [upload_bytes]
      decide
    · rw [payloadBytes_letters]
      decide

open Sample in
/-- **A limit may be preempted.**  A payload of two mebibytes is within the limit of a node that was
    started with four mebibytes, under settings that are accepted; and it is over the limit of a node with
    the usual settings.  Both refuse it for its size, and neither says that it is the payload. -/
theorem payload_limit_preempted :
    roomySettings.check? = some (.ok ()) ∧
    Boot.assemble roomySettings ⟨settings.node, .bus {}⟩ (.running .epoch) {} {} = some roomyNode ∧
    Coordinator.payloadBytes (.string (letters 2097152)) ≤ roomyNode.settings.maxPayloadBytes ∧
    node.settings.maxPayloadBytes < Coordinator.payloadBytes (.string (letters 2097152)) ∧
    ∀ n ∈ [roomyNode, node],
      (upload 2097152).Carries n.settings (.string (letters 2097152))
        (.create key (.string (letters 2097152)) (.ofMillis 60000)) ∧
      (Node.respond (.ofSeconds 30) (upload 2097152)).poll (.fresh 0 n) =
        (.fresh 0 n, .done .bodyTooLarge) ∧
      ¬ n.HonoursLimit (.ofSeconds 30) (upload 2097152) (.string (letters 2097152)) := by
  have hlimit : 0 < (Span.ofSeconds 30).ticks := by decide
  have hlarge : maxBodyBytes < (upload 2097152).body.utf8ByteSize := by
    rw [upload_bytes]
    decide
  refine ⟨roomySettings_accepted, roomyNode_assembled, ?_, ?_, ?_⟩
  · -- within the limit of the roomy node, and over the usual one
    rw [payloadBytes_letters, (Settings.of_assemble roomyNode_assembled).1]
    decide
  · rw [payloadBytes_letters]
    decide
  · intro n hn
    -- neither node has anything against the lifetime
    have hlifetime : Coordinator.checkLifetime n.settings "ttl_ms" (.ofMillis 60000) = .ok () := by
      rcases List.mem_cons.mp hn with rfl | hn
      · decide +kernel
      · obtain rfl := List.mem_singleton.mp hn
        decide +kernel
    have hcarries := upload_carries hlifetime 2097152
    -- so it is the size of the body that both refuse
    refine ⟨hcarries, ?_, ?_⟩
    · exact poll_bodyTooLarge hlimit hcarries hlarge 0
    · exact not_honoursLimit hlimit hcarries hlarge

end SessionCluster
