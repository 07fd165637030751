/-
  Rehearsed servers — a database and a key-value server that answer from a list.

  Each takes the next answer of its list for whatever it is asked, and remembers what it was
  asked.  When the list is used up the database has no rows and changes none, and the key-value
  server agrees to everything.  A database connection that is lost is made anew; that of the
  key-value server stays lost, and nothing is sent on it any more.
-/
import SessionCluster.KeyValue.Command
import SessionCluster.Table.Calls

namespace SessionCluster

/-- What a database was sent: a statement on sessions, or the order to listen. -/
inductive TableMessage where
  | statement (s : Table.Statement)
  | listen
deriving DecidableEq

/-- A database that answers from a list; `sent` holds what it was sent, latest first. -/
structure RehearsedTable where
  replies : List Table.Reply := []
  sent : List TableMessage := []
  /-- Whether changes are listened to. -/
  listening : Bool := false

namespace RehearsedTable

/-- Answers a statement. -/
def answer (t : RehearsedTable) (s : Table.Statement) : RehearsedTable × Table.Reply :=
  ({ t with replies := t.replies.tail, sent := .statement s :: t.sent },
    t.replies.headD (.affected 0))

/-- Begins to listen; that takes no answer from the list. -/
def listen (t : RehearsedTable) : RehearsedTable :=
  { t with sent := .listen :: t.sent, listening := true }

/-- The store on this table, in words for those who debug it. -/
def description (t : RehearsedTable) : String :=
  "PostgresStateStore \x7b change_feed: " ++ (if t.listening then "true" else "false") ++ ", .. \x7d"

/-- Runs a computation that sends statements. -/
def run {α : Type} (t : RehearsedTable) : Table.Query α → RehearsedTable × α
  | .done a => (t, a)
  | .ask s next => (t.answer s).1.run (next (t.answer s).2)

end RehearsedTable

/-- A key-value server that answers from a list; an answer of none ends the connection. -/
structure RehearsedServer where
  replies : List (Option KeyValue.Reply) := []
  sent : List KeyValue.Command := []
  connected : Bool := true

namespace RehearsedServer

/-- Answers a command. -/
def answer (s : RehearsedServer) (c : KeyValue.Command) :
    RehearsedServer × Option KeyValue.Reply :=
  if !s.connected then (s, none)
  else
    let r := s.replies.headD (some (.status "OK"))
    (⟨s.replies.tail, c :: s.sent, r.isSome⟩, r)

/-- Runs a computation that sends commands. -/
def run {α : Type} (s : RehearsedServer) : KeyValue.Exchange α → RehearsedServer × α
  | .done a => (s, a)
  | .ask c next => (s.answer c).1.run (next (s.answer c).2)

end RehearsedServer

end SessionCluster
