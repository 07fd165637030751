/-
  Announced changes — the notifications of the table's trigger.

  A notification is a JSON object with the key, and for a record that was written also its version
  and its expiry in milliseconds.  What is not of this form is dropped; a version or an expiry
  that is out of range counts as missing.
-/
import SessionCluster.Store.Slot

namespace SessionCluster.Table

/-- A notification that is being read. -/
structure Notification where
  key : Option String := none
  version : Option (Option Int) := none
  expiresAtMillis : Option (Option Int) := none

/-- Reads a whole number in the range of a signed word of sixty-four bits. -/
def signedReader : Json.Reader Int := fun _ ts =>
  match ts with
  | .number (some n) :: rest =>
    match n.toInt? with
    | some i =>
      if -9223372036854775808 ≤ i ∧ i < 9223372036854775808 then .ok (i, rest)
      else .error .mismatched
    | none => .error .mismatched
  | _ => .error (Json.Reader.refuse ts)

open Json.Reader in
/-- Reads a notification; missing numbers are none. -/
def notificationReader : Json.Reader (String × Option Int × Option Int) :=
  ofFields
    [field "key" Notification.key (fun d x => { d with key := x }) string,
     field "version" Notification.version (fun d x => { d with version := x })
      (optional signedReader),
     field "expires_at_ms" Notification.expiresAtMillis
      (fun d x => { d with expiresAtMillis := x }) (optional signedReader)]
    ({} : Notification) (fun _ => false)
    (fun d => d.key.map fun k => (k, d.version.getD none, d.expiresAtMillis.getD none))

/-- A version from a number that may be out of range. -/
def versionOf? : Int → Option Version
  | .ofNat n => Version.ofNat? n
  | .negSucc _ => none

/-- The change that a notification announces. -/
def noticeOf? (text : String) : Option Notice :=
  match Json.Reader.ofText notificationReader text with
  | .error _ => none
  | .ok (key, version, expires) =>
    match SessionKey.make key with
    | .error _ => none
    | .ok key => some ⟨key, version.bind versionOf?, expires.bind Instant.ofMillis?⟩

end SessionCluster.Table
