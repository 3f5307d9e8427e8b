import OtpVoice.Coroutine.Basic
import OtpVoice.Library.SqlStatements
import OtpVoice.Service.Effects

/-!
# Opening the database

`init_db` of `src/storage/db.py`: it connects, creates the tables that are missing, adds the columns
that an older install lacks, and creates the indexes. The functions are coroutines over the commands
of the database library (`DbCmd`); a connection runs them on a `Database` of tables and rows, and
any of them may raise.
-/

set_option autoImplicit false

namespace OtpVoice

open Coroutine

/-! ## The schema -/

/-- The columns of `otp_calls`. -/
def callColumns : List Sql.Column :=
  [{ name := "request_id" },
    { name := "mobile", notNull := true },
    { name := "code", notNull := true, dflt := .text "" },
    { name := "code_masked", notNull := true },
    { name := "status", notNull := true, dflt := .text "queued" },
    { name := "channel" },
    { name := "hangup_cause" },
    { name := "asterisk_reason" },
    { name := "duration" },
    { name := "retry_count", notNull := true, dflt := .integer 0 },
    { name := "parent_request_id" },
    { name := "created_at", notNull := true },
    { name := "updated_at", notNull := true },
    { name := "expires_at", notNull := true }]

/-- The columns of `otp_events`. -/
def eventColumns : List Sql.Column :=
  [{ name := "id" },
    { name := "request_id", notNull := true },
    { name := "event", notNull := true },
    { name := "detail" },
    { name := "at", notNull := true }]

/-- `otp_calls` without rows. -/
def newCalls : Sql.Relation := .new callColumns "request_id" none (by decide)

/-- `otp_events` without rows; its ids count from 1. -/
def newEvents : Sql.Relation := .new eventColumns "id" (some 0) (by decide)

/-- The columns that `_migrate_schema` adds, with the texts of their statements. -/
def newerColumns : List (Sql.Column × String) :=
  [({ name := "code", notNull := true, dflt := .text "" },
      "ALTER TABLE otp_calls ADD COLUMN code TEXT NOT NULL DEFAULT ''"),
    ({ name := "channel" }, "ALTER TABLE otp_calls ADD COLUMN channel TEXT"),
    ({ name := "asterisk_reason" }, "ALTER TABLE otp_calls ADD COLUMN asterisk_reason TEXT"),
    ({ name := "retry_count", notNull := true, dflt := .integer 0 },
      "ALTER TABLE otp_calls ADD COLUMN retry_count INTEGER NOT NULL DEFAULT 0"),
    ({ name := "parent_request_id" }, "ALTER TABLE otp_calls ADD COLUMN parent_request_id TEXT")]

/-- The indexes of `_create_indexes`. -/
def serviceIndexes : List Sql.Index :=
  [⟨"idx_otp_calls_mobile", "otp_calls", ["mobile", "created_at"]⟩,
    ⟨"idx_otp_calls_expires", "otp_calls", ["expires_at"]⟩,
    ⟨"idx_otp_calls_channel", "otp_calls", ["channel"]⟩,
    ⟨"idx_otp_events_request", "otp_events", ["request_id", "at"]⟩]

/-! ## Commands -/

/-- What `init_db` does besides computing. -/
inductive DbCmd where
  | makedirs (path : String)
  | connect (path : String)
  | pragma (line : String)
  | getConn
  | execute (s : Sql.Statement)
  | commit
  | log (level : Level) (line : String)

/-- What a command returns. -/
def DbCmd.Resp : DbCmd → Type
  | .execute _ => Sql.Result
  | _ => Unit

/-- The coroutines that open the database. -/
abbrev DbProg (α : Type) : Type := Coro DbCmd DbCmd.Resp Exc α

/-- The database file, the global `_db_conn`, and the log. -/
structure DbWorld where
  db : Sql.Database
  connected : Bool := false
  logged : List (Level × String) := []

/-- The answer of a command that meets no exception of its own. -/
def DbWorld.answer (w : DbWorld) : (c : DbCmd) → Except Exc c.Resp × DbWorld
  | .makedirs _ => (.ok (), w)
  | .connect _ => (.ok (), { w with connected := true })
  | .pragma _ => (.ok (), w)
  | .getConn =>
    if w.connected then (.ok (), w)
    else (.error (.other "Database not initialized. Call init_db() first."), w)
  | .execute s =>
    match s.exec w.db with
    | .ok (r, db) => (.ok r, { w with db := db })
    | .error text => (.error (.other text), w)
  | .commit => (.ok (), w)
  | .log level line => (.ok (), { w with logged := w.logged ++ [(level, line)] })

/-- The commands that ask the operating system or the database. -/
def DbCmd.mayRaise : DbCmd → Bool
  | .getConn | .log _ _ => false
  | _ => true

/-- The answer to the `n`-th command, which may raise an exception of the given text. -/
def DbWorld.respond (fault : ℕ → Option String) (n : ℕ) (w : DbWorld) (c : DbCmd) :
    Except Exc c.Resp × DbWorld :=
  match fault n with
  | some text => if c.mayRaise then (.error (.other text), w) else w.answer c
  | none => w.answer c

/-! ## The functions -/

namespace Opening

/-- Issue a command of the database library. -/
def issue (c : DbCmd) : DbProg c.Resp := Coro.perform c

/-- `await conn.execute(...)`. -/
def execute (s : Sql.Statement) : DbProg Sql.Result := issue (.execute s)

/-- `conn.executescript(...)`: the statements in order, up to the first that fails. -/
def executescript : List Sql.Statement → DbProg Unit
  | [] => pure ()
  | s :: rest => do
    let _ ← execute s
    executescript rest

/-- `_create_tables`. -/
def createTables : DbProg Unit := do
  issue .getConn
  executescript [.createTable "otp_calls" newCalls, .createTable "otp_events" newEvents]
  issue .commit

/-- `_create_indexes`. -/
def createIndexes : DbProg Unit := do
  issue .getConn
  executescript (serviceIndexes.map .createIndex)
  issue .commit

/-- The names of the columns in the rows of `PRAGMA table_info`: `row[1]`. -/
def infoNames (rows : List Sql.Row) : List Sql.Value :=
  rows.filterMap fun row => row[1]?.map Prod.snd

/-- One `ALTER TABLE`; a failure is logged and the next one is tried. -/
def alter (x : Sql.Column × String) : DbProg Unit :=
  tryCatch (do
      let _ ← execute (.addColumn "otp_calls" x.1)
      pure ())
    fun e => issue (.log .warning ("Migration failed: " ++ x.2 ++ " -- " ++ e.text))

/-- The loop over `add`. -/
def alterAll : List (Sql.Column × String) → DbProg Unit
  | [] => pure ()
  | x :: rest => do
    alter x
    alterAll rest

/-- `_migrate_schema`. -/
def migrateSchema : DbProg Unit := do
  issue .getConn
  let info ← execute (.tableInfo "otp_calls")
  let cols := infoNames info.rows
  let add := newerColumns.filter fun x => .text x.1.name ∉ cols
  alterAll add
  if add.isEmpty then pure () else issue .commit

/-- `init_db`. -/
def initDb (path : String) : DbProg Unit := do
  issue (.makedirs path)
  issue (.connect path)
  issue (.pragma "journal_mode=WAL")
  issue (.pragma "synchronous=NORMAL")
  createTables
  migrateSchema
  createIndexes
  issue (.log .info ("Database initialized at " ++ path))

end Opening

end OtpVoice
