/-
  Statements — what a node sends to a shared table of sessions.

  The table has one row per key: the record, or a tombstone, told apart by a mark.  Every change
  is one statement guarded by the version it expects, so that the database decides between
  several writers.  A statement is known by its text; what varies is bound as arguments, in
  order.  Instants are bound as microseconds and versions as signed words of sixty-four bits.

  A trigger on the table announces every change on a channel to which nodes listen.
-/
import SessionCluster.Session.Record

namespace SessionCluster.Table

/-- A value bound to a statement. -/
inductive Argument where
  | text (s : String)
  | number (i : Int)
deriving DecidableEq

/-- A statement that works on sessions. -/
inductive Statement where
  /-- Inserts a record, unless the key has a record or a tombstone that is not lower. -/
  | insert (key payload : String) (version : Int) (owner : String) (created updated expires : Int)
  /-- Replaces the record at an expected version. -/
  | swap (key : String) (expected : Int) (payload : String) (version : Int) (owner : String)
      (created updated expires : Int)
  /-- Makes the record at an expected version a tombstone, one version up. -/
  | delete (key : String) (expected : Int)
  /-- Reads the row of a key. -/
  | fetch (key : String)
  /-- Reads expired records, earliest expiry first. -/
  | scan (now : Int) (limit : Nat)
  /-- Does nothing. -/
  | ping
  /-- Sets up the table; the text is one of `schema`. -/
  | define (text : String)
deriving DecidableEq

/-- The channel on which changes are announced. -/
def channel : String := "grid_session_changes"

/-- What listens to the channel. -/
def listenText : String := "LISTEN \"" ++ channel ++ "\""

/-- The statements that make the table, its index and its trigger where they are missing. -/
def schema : List String :=
  ["CREATE TABLE IF NOT EXISTS grid_sessions (
        id          TEXT PRIMARY KEY,
        payload     TEXT NOT NULL,
        version     BIGINT NOT NULL,
        owner_node  TEXT NOT NULL,
        created_at  TIMESTAMPTZ NOT NULL,
        updated_at  TIMESTAMPTZ NOT NULL,
        expires_at  TIMESTAMPTZ NOT NULL
    )",
   "ALTER TABLE grid_sessions ADD COLUMN IF NOT EXISTS deleted BOOLEAN NOT NULL DEFAULT FALSE",
   "DROP INDEX IF EXISTS grid_sessions_expires_at_idx",
   "CREATE INDEX IF NOT EXISTS grid_sessions_live_expiry_idx
        ON grid_sessions (expires_at) WHERE NOT deleted",
   "CREATE OR REPLACE FUNCTION grid_sessions_notify() RETURNS trigger AS $$
    BEGIN
        IF TG_OP = 'DELETE' THEN
            PERFORM pg_notify('grid_session_changes', json_build_object('key', OLD.id)::text);
            RETURN OLD;
        END IF;
        IF NEW.deleted THEN
            PERFORM pg_notify('grid_session_changes', json_build_object('key', NEW.id)::text);
            RETURN NEW;
        END IF;
        PERFORM pg_notify(
            'grid_session_changes',
            json_build_object(
                'key', NEW.id,
                'version', NEW.version,
                'expires_at_ms', (EXTRACT(EPOCH FROM NEW.expires_at) * 1000)::BIGINT
            )::text
        );
        RETURN NEW;
    END;
    $$ LANGUAGE plpgsql",
   "DROP TRIGGER IF EXISTS grid_sessions_notify_trigger ON grid_sessions",
   "CREATE TRIGGER grid_sessions_notify_trigger
        AFTER INSERT OR UPDATE OR DELETE ON grid_sessions
        FOR EACH ROW EXECUTE FUNCTION grid_sessions_notify()"]

namespace Statement

/-- The text of a statement. -/
def text : Statement → String
  | .insert .. =>
    "INSERT INTO grid_sessions
        (id, payload, version, owner_node, created_at, updated_at, expires_at, deleted)
    VALUES ($1, $2, $3, $4, $5, $6, $7, FALSE)
    ON CONFLICT (id) DO UPDATE SET
        payload = EXCLUDED.payload,
        version = EXCLUDED.version,
        owner_node = EXCLUDED.owner_node,
        created_at = EXCLUDED.created_at,
        updated_at = EXCLUDED.updated_at,
        expires_at = EXCLUDED.expires_at,
        deleted = FALSE
    WHERE grid_sessions.deleted AND grid_sessions.version < EXCLUDED.version"
  | .swap .. =>
    "UPDATE grid_sessions SET
        payload = $3,
        version = $4,
        owner_node = $5,
        created_at = $6,
        updated_at = $7,
        expires_at = $8
    WHERE id = $1 AND version = $2 AND NOT deleted"
  | .delete .. =>
    "UPDATE grid_sessions SET
        deleted = TRUE,
        version = version + 1,
        payload = 'null',
        updated_at = NOW()
    WHERE id = $1 AND version = $2 AND NOT deleted"
  | .fetch .. =>
    "SELECT id, payload, version, owner_node, created_at, updated_at, expires_at, deleted
    FROM grid_sessions
    WHERE id = $1"
  | .scan .. =>
    "SELECT id, payload, version, owner_node, created_at, updated_at, expires_at, deleted
    FROM grid_sessions
    WHERE expires_at <= $1 AND NOT deleted
    ORDER BY expires_at
    LIMIT $2"
  | .ping => "SELECT 1"
  | .define text => text

/-- The arguments of a statement. -/
def arguments : Statement → List Argument
  | .insert key payload version owner created updated expires =>
    [.text key, .text payload, .number version, .text owner, .number created, .number updated,
     .number expires]
  | .swap key expected payload version owner created updated expires =>
    [.text key, .number expected, .text payload, .number version, .text owner, .number created,
     .number updated, .number expires]
  | .delete key expected => [.text key, .number expected]
  | .fetch key => [.text key]
  | .scan now limit => [.number now, .number limit]
  | .ping => []
  | .define _ => []

end Statement

/-- The second from which the database counts: the beginning of the year 2000. -/
def epochSecond : Int := 946684800

/-- An instant as the database takes it, in microseconds: what is left over is dropped on the side
away from the database's epoch. -/
def micros (t : Instant) : Int :=
  epochSecond * 1000000 + ((t.second - epochSecond) * 1000000000 + t.nano).tdiv 1000

end SessionCluster.Table
