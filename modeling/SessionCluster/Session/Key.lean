/-
  Session keys and node names.

  A session key is any text of 1 to 256 bytes without blanks and control characters.  A node
  name is any text with something besides blanks; it is trusted where it comes from storage, so
  only `NodeName.make` checks it.
-/
import SessionCluster.Json.Reader
import SessionCluster.Text.Blank
import SessionCluster.Validation

namespace SessionCluster

/-- The longest session key, in bytes. -/
def maxKeyBytes : Nat := 256

/-- What a session key must be. -/
def isSessionKey (s : String) : Bool :=
  s != "" && s.utf8ByteSize ≤ maxKeyBytes && !s.toList.any fun c => Text.isBlank c || Text.isControl c

/-- The name of a session, chosen by its caller. -/
structure SessionKey where
  text : String
  valid : isSessionKey text = true
deriving DecidableEq

namespace SessionKey

/-- A key from a text, or the first rule that the text breaks. -/
def make (s : String) : Except FieldError SessionKey :=
  if h : isSessionKey s = true then .ok ⟨s, h⟩
  else if s = "" then .error (.empty "session_id")
  else if maxKeyBytes < s.utf8ByteSize then
    .error (.badFormat "session_id" ("must be at most " ++ Text.decimal maxKeyBytes ++ " bytes"))
  else .error (.badFormat "session_id" "must not contain whitespace or control characters")

/-- Reads a key. -/
def reader : Json.Reader SessionKey :=
  Json.Reader.check (fun s => (make s).toOption) .string

/-- Keys in the order of their texts. -/
def precedes (a b : SessionKey) : Bool := a.text < b.text

/-- Any text is a key, and its own text. -/
theorem make_eq_ok {s : String} {k : SessionKey} : make s = .ok k ↔ k.text = s := by
  unfold make
  constructor
  · intro h
    split at h
    · injection h with h
      rw [← h]
    · split at h
      · cases h
      · split at h <;> cases h
  · intro h
    subst h
    rw [dif_pos k.valid]

end SessionKey

/-- The name of a node of the cluster. -/
structure NodeName where
  text : String
deriving DecidableEq

namespace NodeName

/-- A node name from a text that holds more than blanks. -/
def make (s : String) : Except FieldError NodeName :=
  if Text.allBlank s then .error (.empty "node_id") else .ok ⟨s⟩

/-- Reads a node name, trusting it. -/
def reader : Json.Reader NodeName := Json.Reader.map NodeName.mk .string

end NodeName

end SessionCluster
