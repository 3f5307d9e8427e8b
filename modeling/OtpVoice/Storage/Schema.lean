import OtpVoice.Core.RateLimiter
import OtpVoice.Library.KeyedTable
import Mathlib.Data.List.MinMax
import Mathlib.Data.List.Sort

/-!
# The tables of `src/storage/db.py` and their statements

`Store` holds the tables `otp_calls` and `otp_events`; the primary key of `otp_calls` is the
invariant of its `Table`. A `Stmt` is one SQL statement with its bound values, and `Stmt.exec` is
its effect and its result. `updateCallStatus` of `OtpVoice.Storage.Db` builds its column list and
its value list separately, as the source does; `updateRow` applies such a pair of lists.
-/

set_option autoImplicit false

namespace OtpVoice

/-! ## Status values -/

/-- The values of the column `status`. -/
inductive Status where
  | queued | originating | ringing | answered | playing | completed | noAnswer | busy | congestion
  | failed | unreachable | rejected | cancelled
  deriving DecidableEq, Repr

/-- The text of a status in the column `status`. -/
def Status.text : Status → String
  | .queued => "queued"
  | .originating => "originating"
  | .ringing => "ringing"
  | .answered => "answered"
  | .playing => "playing"
  | .completed => "completed"
  | .noAnswer => "no_answer"
  | .busy => "busy"
  | .congestion => "congestion"
  | .failed => "failed"
  | .unreachable => "unreachable"
  | .rejected => "rejected"
  | .cancelled => "cancelled"

/-- `RETRYABLE_STATUSES`, in the order of `sorted`. -/
def retryableStatuses : List Status :=
  [.busy, .congestion, .failed, .noAnswer, .rejected, .unreachable]

/-- `TERMINAL_STATUSES`. -/
def terminalStatuses : List Status :=
  [.completed, .noAnswer, .busy, .congestion, .failed, .unreachable, .rejected, .cancelled]

/-- The status is one of `RETRYABLE_STATUSES`. -/
def Status.retryable (s : Status) : Bool := s ∈ retryableStatuses

/-- The status is one of `TERMINAL_STATUSES`. -/
def Status.terminal (s : Status) : Bool := s ∈ terminalStatuses

theorem Status.terminal_of_retryable {s : Status} (h : s.retryable = true) : s.terminal = true := by
  cases s <;> first | rfl | cases h

/-! ## Rows -/

/-- A row of `otp_calls`. -/
structure CallRecord where
  requestId : String
  mobile : String
  code : String
  codeMasked : String
  status : Status := .queued
  channel : Option String := none
  hangupCause : Option String := none
  asteriskReason : Option String := none
  duration : Option ℤ := none
  retryCount : ℕ := 0
  parentRequestId : Option String
  createdAt : Time
  updatedAt : Time
  expiresAt : Time
  deriving DecidableEq

/-- The values of the column `event`. -/
inductive EventName where
  | queued | originating | originateResponse | ringing | answered | dialplanStart | playing
  | playbackComplete | hangup | failed
  deriving DecidableEq, Repr

/-- A row of `otp_events`; rows are kept in the order of their ids. -/
structure EventRow where
  requestId : String
  event : EventName
  detail : Option String
  atTime : Time
  deriving DecidableEq

/-- The columns that `update_call_status` may set. -/
inductive Column where
  | status | updatedAt | hangupCause | asteriskReason | duration | channel
  deriving DecidableEq

/-- A bound value. -/
inductive SqlValue where
  | status (s : Status)
  | text (s : String)
  | integer (n : ℤ)
  | real (t : Time)

/-- `column=?` with its value; `update_call_status` binds no value of another kind. -/
def CallRecord.assign (row : CallRecord) : Column × SqlValue → CallRecord
  | (.status, .status s) => { row with status := s }
  | (.updatedAt, .real t) => { row with updatedAt := t }
  | (.hangupCause, .text s) => { row with hangupCause := some s }
  | (.asteriskReason, .text s) => { row with asteriskReason := some s }
  | (.duration, .integer n) => { row with duration := some n }
  | (.channel, .text s) => { row with channel := some s }
  | _ => row

theorem CallRecord.assign_requestId (row : CallRecord) (x : Column × SqlValue) :
    (row.assign x).requestId = row.requestId := by
  unfold CallRecord.assign
  split <;> rfl

/-- `SET field=?, ...` with the fields and the values in the same order. -/
def updateRow (fields : List Column) (values : List SqlValue) (row : CallRecord) : CallRecord :=
  (fields.zip values).foldl CallRecord.assign row

theorem updateRow_requestId (fields : List Column) (values : List SqlValue) (row : CallRecord) :
    (updateRow fields values row).requestId = row.requestId := by
  unfold updateRow
  induction fields.zip values generalizing row with
  | nil => rfl
  | cons x xs ih => rw [List.foldl_cons, ih, CallRecord.assign_requestId]

/-- One more attempt on a record. -/
def CallRecord.retried (now : Time) (row : CallRecord) : CallRecord :=
  { row with retryCount := row.retryCount + 1, updatedAt := now }

/-! ## Statements -/

/-- The table `otp_calls`, keyed by `request_id`. -/
abbrev CallTable : Type := Table String CallRecord CallRecord.requestId

/-- The two tables of the database. -/
structure Store where
  calls : CallTable
  events : List EventRow

/-- The tables of a new database. -/
def Store.empty : Store := ⟨Table.empty, []⟩

/-- The statements of `src/storage/db.py`, with their parameters. -/
inductive Stmt where
  | insertCall (row : CallRecord)
  | updateCall (fields : List Column) (values : List SqlValue) (requestId : String)
  | incrementRetry (now : Time) (requestId : String)
  | selectCall (requestId : String)
  | selectByChannel (channel : String)
  | insertEvent (row : EventRow)
  | selectEvents (requestId : String)
  | deleteExpired (now : Time)
  | deleteOrphanEvents

/-- A statement that changes the tables. -/
def Stmt.writes : Stmt → Bool
  | .selectCall _ | .selectByChannel _ | .selectEvents _ => false
  | _ => true

/-- What the cursor of a statement gives: rows, or the number of changed rows. -/
def Stmt.Result : Stmt → Type
  | .selectCall _ => Option CallRecord
  | .selectByChannel _ => Option CallRecord
  | .selectEvents _ => List EventRow
  | _ => ℕ

/-- `ORDER BY created_at DESC LIMIT 1` among the rows of a channel; the row inserted first wins a
tie. -/
def newestOfChannel (calls : CallTable) (channel : String) : Option CallRecord :=
  (calls.rows.filter fun row => row.channel = some channel).argmax CallRecord.createdAt

/-- The number of rows with a key: 0 or 1. -/
def matched (calls : CallTable) (requestId : String) : ℕ :=
  if (calls.find requestId).isSome then 1 else 0

/-- The rows of `otp_calls` that expired before `now`. -/
def expired (now : Time) (row : CallRecord) : Bool := row.expiresAt < now

/-- The effect of one statement. An error is a violated primary key. -/
def Stmt.exec (st : Store) : (s : Stmt) → Except String s.Result × Store
  | .insertCall row =>
    match st.calls.insert row with
    | some calls => (.ok (1 : ℕ), { st with calls := calls })
    | none => (.error "UNIQUE constraint failed: otp_calls.request_id", st)
  | .updateCall fields values requestId =>
    let calls := st.calls.modify requestId (updateRow fields values)
      (updateRow_requestId fields values)
    (.ok (matched st.calls requestId : ℕ), { st with calls := calls })
  | .incrementRetry now requestId =>
    (.ok (matched st.calls requestId : ℕ),
      { st with calls := st.calls.modify requestId (CallRecord.retried now) fun _ => rfl })
  | .selectCall requestId => (.ok (st.calls.find requestId : Option CallRecord), st)
  | .selectByChannel channel => (.ok (newestOfChannel st.calls channel : Option CallRecord), st)
  | .insertEvent row => (.ok (1 : ℕ), { st with events := st.events ++ [row] })
  | .selectEvents requestId =>
    (.ok (((st.events.filter fun ev => ev.requestId = requestId).insertionSort
      fun a b => a.atTime ≤ b.atTime) : List EventRow), st)
  | .deleteExpired now =>
    (.ok ((st.calls.rows.filter (expired now)).length : ℕ),
      { st with calls := st.calls.delete (expired now) })
  | .deleteOrphanEvents =>
    (.ok ((st.events.filter fun ev => (st.calls.find ev.requestId).isNone).length : ℕ),
      { st with events := st.events.filter fun ev => (st.calls.find ev.requestId).isSome })

end OtpVoice
