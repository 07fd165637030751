/-
  Commands — what a node sends to a shared key-value server, and what it makes of the replies.

  A command is a list of texts.  Its reply is nothing, a text, a number, a status, or an error; or
  the connection is lost, and then there is no reply.  Each command accepts only some kinds of
  replies, and the rest is a failure too.

  A failure that the server states as a plain error, or a reply of a kind the command does not
  accept, will come again on another attempt; every other failure may pass.
-/
import SessionCluster.Program
import SessionCluster.Session.Fault

namespace SessionCluster.KeyValue

/-- A command: its name and its arguments. -/
abbrev Command := List String

/-- A reply of the server. -/
inductive Reply where
  | nothing
  | text (s : String)
  | number (i : Int)
  | status (s : String)
  | error (s : String)
deriving DecidableEq

/-- A computation that sends commands; a command on a lost connection has no reply. -/
abbrev Exchange (α : Type) := Program (fun _ : Command => Option Reply) α

/-- Why a command failed. -/
inductive Failure where
  | disconnected
  | refused (message : String)
  | unexpected
deriving DecidableEq

namespace Failure

def message : Failure → String
  | .disconnected => "connection lost"
  | .refused message => message
  | .unexpected => "unexpected kind of reply"

/-- The first word of a server's error, which tells its kind. -/
def kind (message : String) : String := String.ofList (message.toList.takeWhile (· ≠ ' '))

/-- Whether the same failure will come again. -/
def isLasting : Failure → Bool
  | .disconnected => false
  | .refused message => kind message == "ERR"
  | .unexpected => true

end Failure

/-- A text or a status. -/
def textOf : Option Reply → Except Failure String
  | some (.text s) | some (.status s) => .ok s
  | some (.error e) => .error (.refused e)
  | some .nothing | some (.number _) => .error .unexpected
  | none => .error .disconnected

/-- A text, a status or nothing. -/
def textOrNothing : Option Reply → Except Failure (Option String)
  | some .nothing => .ok none
  | r => (textOf r).map some

/-- Any reply that is not an error. -/
def accepted : Option Reply → Except Failure Unit
  | some (.error e) => .error (.refused e)
  | some _ => .ok ()
  | none => .error .disconnected

end SessionCluster.KeyValue
