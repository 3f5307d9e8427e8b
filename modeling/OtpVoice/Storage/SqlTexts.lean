import OtpVoice.Storage.Opening

/-!
# The statements of `src/storage/db.py` as SQL

`Stmt.sql` is the SQL statement that a function of `db.py` sends for a `Stmt`, with its columns, its
conditions and its bound values; `Stmt.read` makes the result of its cursor a value of the model, by
the names of the columns. `Stmt.run` executes a `Stmt` on the tables of a database.
-/

set_option autoImplicit false

namespace OtpVoice

/-- The texts of the column `event`. -/
def EventName.text : EventName → String
  | .queued => "queued"
  | .originating => "originating"
  | .originateResponse => "originate_response"
  | .ringing => "ringing"
  | .answered => "answered"
  | .dialplanStart => "dialplan_start"
  | .playing => "playing"
  | .playbackComplete => "playback_complete"
  | .hangup => "hangup"
  | .failed => "failed"

/-! ## Bound values -/

/-- A text or NULL. -/
def optionalText (s : Option String) : Sql.Value := (s.map Sql.Value.text).getD .null

/-- An integer or NULL. -/
def optionalInteger (n : Option ℤ) : Sql.Value := (n.map Sql.Value.integer).getD .null

/-- The name of a column in the text of an `UPDATE`. -/
def Column.name : Column → String
  | .status => "status"
  | .updatedAt => "updated_at"
  | .hangupCause => "hangup_cause"
  | .asteriskReason => "asterisk_reason"
  | .duration => "duration"
  | .channel => "channel"

/-- The value that is bound for a parameter of an `UPDATE`. -/
def SqlValue.bound : SqlValue → Sql.Value
  | .status s => .text s.text
  | .text s => .text s
  | .integer n => .integer n
  | .real t => .real t

/-- The cells of a record, in the order of its columns. -/
def CallRecord.cells (r : CallRecord) : Sql.Row :=
  [("request_id", .text r.requestId), ("mobile", .text r.mobile), ("code", .text r.code),
    ("code_masked", .text r.codeMasked), ("status", .text r.status.text),
    ("channel", optionalText r.channel), ("hangup_cause", optionalText r.hangupCause),
    ("asterisk_reason", optionalText r.asteriskReason), ("duration", optionalInteger r.duration),
    ("retry_count", .integer r.retryCount),
    ("parent_request_id", optionalText r.parentRequestId), ("created_at", .real r.createdAt),
    ("updated_at", .real r.updatedAt), ("expires_at", .real r.expiresAt)]

/-- The cells of a line of a timeline without its id. -/
def EventRow.cells (ev : EventRow) : Sql.Row :=
  [("request_id", .text ev.requestId), ("event", .text ev.event.text),
    ("detail", optionalText ev.detail), ("at", .real ev.atTime)]

/-! ## Statements -/

/-- The SQL of a statement, with its bound values. -/
def Stmt.sql : Stmt → Sql.Statement
  | .insertCall row => .insert "otp_calls"
      [("request_id", .text row.requestId), ("mobile", .text row.mobile), ("code", .text row.code),
        ("code_masked", .text row.codeMasked), ("status", .text "queued"),
        ("parent_request_id", optionalText row.parentRequestId),
        ("created_at", .real row.createdAt), ("updated_at", .real row.updatedAt),
        ("expires_at", .real row.expiresAt)]
  | .updateCall fields values requestId => .update "otp_calls"
      ((fields.zip values).map fun x => (x.1.name, .value x.2.bound))
      (.equal "request_id" (.text requestId))
  | .incrementRetry now requestId => .update "otp_calls"
      [("retry_count", .plus "retry_count" 1), ("updated_at", .value (.real now))]
      (.equal "request_id" (.text requestId))
  | .selectCall requestId =>
    .select "otp_calls" none (.equal "request_id" (.text requestId)) none none
  | .selectByChannel channel =>
    .select "otp_calls" none (.equal "channel" (.text channel)) (some ("created_at", true)) (some 1)
  | .insertEvent row => .insert "otp_events" row.cells
  | .selectEvents requestId => .select "otp_events" (some ["event", "detail", "at"])
      (.equal "request_id" (.text requestId)) (some ("at", false)) none
  | .deleteExpired now => .delete "otp_calls" (.below "expires_at" (.real now))
  | .deleteOrphanEvents => .delete "otp_events" (.notIn "request_id" "otp_calls" "request_id")

/-! ## Reading rows -/

/-- Every status. -/
def statuses : List Status :=
  [.queued, .originating, .ringing, .answered, .playing, .completed, .noAnswer, .busy, .congestion,
    .failed, .unreachable, .rejected, .cancelled]

/-- Every event of a timeline. -/
def eventNames : List EventName :=
  [.queued, .originating, .originateResponse, .ringing, .answered, .dialplanStart, .playing,
    .playbackComplete, .hangup, .failed]

/-- The status with a given text. -/
def Status.ofText (s : String) : Option Status := statuses.find? fun x => x.text = s

/-- The event with a given text. -/
def EventName.ofText (s : String) : Option EventName := eventNames.find? fun x => x.text = s

theorem Status.ofText_text (s : Status) : Status.ofText s.text = some s := by
  cases s <;> rfl

theorem EventName.ofText_text (e : EventName) : EventName.ofText e.text = some e := by
  cases e <;> rfl

/-- A cell of a `TEXT NOT NULL` column. -/
def asText : Sql.Value → Option String
  | .text s => some s
  | _ => none

/-- A cell of a `TEXT` column, which may be NULL. -/
def asOptionalText : Sql.Value → Option (Option String)
  | .text s => some (some s)
  | .null => some none
  | _ => none

/-- A cell of an `INTEGER` column, which may be NULL. -/
def asOptionalInteger : Sql.Value → Option (Option ℤ)
  | .integer n => some (some n)
  | .null => some none
  | _ => none

/-- A cell of the column `retry_count`. -/
def asCount : Sql.Value → Option ℕ
  | .integer n => some n.toNat
  | _ => none

/-- A cell of a `REAL NOT NULL` column. -/
def asReal : Sql.Value → Option Time
  | .real x => some x
  | _ => none

@[simp] theorem asOptionalText_optionalText (s : Option String) :
    asOptionalText (optionalText s) = some s := by
  cases s <;> rfl

@[simp] theorem asOptionalInteger_optionalInteger (n : Option ℤ) :
    asOptionalInteger (optionalInteger n) = some n := by
  cases n <;> rfl

/-- The record of a row of `otp_calls`, by the names of the columns. -/
def readRecord (row : Sql.Row) : Option CallRecord := do
  let requestId ← asText (row.get "request_id")
  let mobile ← asText (row.get "mobile")
  let code ← asText (row.get "code")
  let codeMasked ← asText (row.get "code_masked")
  let status ← (asText (row.get "status")).bind Status.ofText
  let channel ← asOptionalText (row.get "channel")
  let hangupCause ← asOptionalText (row.get "hangup_cause")
  let asteriskReason ← asOptionalText (row.get "asterisk_reason")
  let duration ← asOptionalInteger (row.get "duration")
  let retryCount ← asCount (row.get "retry_count")
  let parentRequestId ← asOptionalText (row.get "parent_request_id")
  let createdAt ← asReal (row.get "created_at")
  let updatedAt ← asReal (row.get "updated_at")
  let expiresAt ← asReal (row.get "expires_at")
  return { requestId, mobile, code, codeMasked, status, channel, hangupCause, asteriskReason,
           duration, retryCount, parentRequestId, createdAt, updatedAt, expiresAt }

/-- The line of a selected row of `otp_events`; the request id is the one that was asked for. -/
def readEvent (requestId : String) (row : Sql.Row) : Option EventRow := do
  let event ← (asText (row.get "event")).bind EventName.ofText
  let detail ← asOptionalText (row.get "detail")
  let atTime ← asReal (row.get "at")
  return ⟨requestId, event, detail, atTime⟩

/-- `fetchone()` of a statement that selects records. -/
def readOne (r : Sql.Result) : Except String (Option CallRecord) :=
  match r.rows with
  | [] => .ok none
  | row :: _ =>
    match readRecord row with
    | some record => .ok (some record)
    | none => .error "malformed row"

/-- What `db.py` makes of the cursor of a statement: its rows or its row count. -/
def Stmt.read : (s : Stmt) → Sql.Result → Except String s.Result
  | .selectCall _, r => readOne r
  | .selectByChannel _, r => readOne r
  | .selectEvents requestId, r =>
    match r.rows.mapM (readEvent requestId) with
    | some events => .ok (events : List EventRow)
    | none => .error "malformed row"
  | .insertCall _, r => .ok (r.rowcount : ℕ)
  | .updateCall _ _ _, r => .ok (r.rowcount : ℕ)
  | .incrementRetry _ _, r => .ok (r.rowcount : ℕ)
  | .insertEvent _, r => .ok (r.rowcount : ℕ)
  | .deleteExpired _, r => .ok (r.rowcount : ℕ)
  | .deleteOrphanEvents, r => .ok (r.rowcount : ℕ)

/-- A statement of the model on the tables of a database. -/
def Stmt.run (db : Sql.Database) (s : Stmt) : Except String s.Result × Sql.Database :=
  match s.sql.exec db with
  | .ok (r, db') => (s.read r, db')
  | .error text => (.error text, db)

/-! ## Round trips -/

/-- A row with the cells of a record is read as this record. -/
theorem readRecord_of_cells {row : Sql.Row} {r : CallRecord}
    (h : ∀ x ∈ r.cells, row.lookup x.1 = some x.2) : readRecord row = some r := by
  have hget : ∀ x ∈ r.cells, row.get x.1 = x.2 := by
    intro x hx
    rw [Sql.Row.get, h x hx]
    rfl
  simp only [CallRecord.cells, List.forall_mem_cons] at hget
  obtain ⟨h₁, h₂, h₃, h₄, h₅, h₆, h₇, h₈, h₉, h₁₀, h₁₁, h₁₂, h₁₃, h₁₄, -⟩ := hget
  simp only [readRecord, h₁, h₂, h₃, h₄, h₅, h₆, h₇, h₈, h₉, h₁₀, h₁₁, h₁₂, h₁₃, h₁₄, asText,
    asReal, asCount, asOptionalText_optionalText, asOptionalInteger_optionalInteger,
    Option.bind_some, Status.ofText_text, Int.toNat_natCast, Option.bind_eq_bind]
  rfl

theorem readEvent_of_cells {row : Sql.Row} {ev : EventRow}
    (hevent : row.get "event" = .text ev.event.text)
    (hdetail : row.get "detail" = optionalText ev.detail)
    (hat : row.get "at" = .real ev.atTime) : readEvent ev.requestId row = some ev := by
  simp only [readEvent, hevent, hdetail, hat, asText, asReal, asOptionalText_optionalText,
    Option.bind_some, EventName.ofText_text, Option.bind_eq_bind]
  rfl

end OtpVoice
