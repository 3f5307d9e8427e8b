import OtpVoice.Service.Effects

/-!
# The functions of `src/storage/db.py`

Each coroutine issues the statements and commits of its source function in their order. Opening and
migrating the database are left out; `_get_conn` never raises after startup.
-/

set_option autoImplicit false

namespace OtpVoice

open Coroutine

/-- `add_event`: one line of a timeline, with its own commit. -/
def addEvent (requestId : String) (event : EventName) (detail : Option String) : Prog Unit := do
  let now ← time
  let _ ← execute (.insertEvent ⟨requestId, event, detail, now⟩)
  commit

/-- `get_events`: the timeline of a request. -/
def getEvents (requestId : String) : Prog (List EventRow) :=
  execute (.selectEvents requestId)

/-- `get_call_record`: the record of a request. -/
def getCallRecord (requestId : String) : Prog (Option CallRecord) :=
  execute (.selectCall requestId)

/-- `get_call_by_channel`: the newest record that is bound to a channel. -/
def getCallByChannel (channel : String) : Prog (Option CallRecord) :=
  execute (.selectByChannel channel)

/-- The default of `ttl_seconds`, which every caller uses. -/
def ttlSeconds : Time := 300

/-- `create_call_record`: a queued record under a fresh id, and its line `queued`. -/
def createCallRecord (mobile code codeMasked : String) (parentRequestId : Option String) :
    Prog String := do
  let requestId ← uuid4
  let now ← time
  let _ ← execute (.insertCall
    { requestId := requestId.text, mobile, code, codeMasked, parentRequestId, createdAt := now,
      updatedAt := now, expiresAt := now + ttlSeconds })
  commit
  -- the record is committed before its first line
  addEvent requestId.text .queued none
  return requestId.text

/-- The optional arguments of `update_call_status`. -/
structure StatusFields where
  hangupCause : Option String := none
  asteriskReason : Option String := none
  duration : Option ℤ := none
  channel : Option String := none

/-- The list `fields` of `update_call_status`. -/
def updateFields (u : StatusFields) : List Column :=
  [.status, .updatedAt] ++
    (if u.hangupCause.isSome then [.hangupCause] else []) ++
    (if u.asteriskReason.isSome then [.asteriskReason] else []) ++
    (if u.duration.isSome then [.duration] else []) ++
    (if u.channel.isSome then [.channel] else [])

/-- The list `values` of `update_call_status`, without the request id that ends it. -/
def updateValues (status : Status) (now : Time) (u : StatusFields) : List SqlValue :=
  [.status status, .real now] ++ u.hangupCause.toList.map .text ++
    u.asteriskReason.toList.map .text ++ u.duration.toList.map .integer ++
    u.channel.toList.map .text

/-- The guard of `update_call_status` refuses to go back from a terminal status. -/
def Status.goesBack (old new : Status) : Bool := old.terminal && !new.terminal

/-- `update_call_status`: a SELECT, the guard on the status it has read, and the UPDATE. -/
def updateCallStatus (requestId : String) (status : Status) (u : StatusFields) : Prog Bool := do
  match ← getCallRecord requestId with
  | none => return false
  | some record =>
    if record.status.goesBack status then
      return false
    else
      let now ← time
      let _ ← execute (.updateCall (updateFields u) (updateValues status now u) requestId)
      commit
      return true

/-- `increment_retry`: counts a retry of the record and returns the new count. -/
def incrementRetry (requestId : String) : Prog ℕ := do
  let now ← time
  let _ ← execute (.incrementRetry now requestId)
  commit
  -- read back after the commit, so another retry may be counted in
  match ← getCallRecord requestId with
  | some record => return record.retryCount
  | none => return 0

/-- `cleanup_expired`: deletes the expired records, then the lines without a record. -/
def cleanupExpired : Prog ℕ := do
  let now ← time
  let cursor ← execute (.deleteExpired now)
  -- a second statement, with an await between the two
  let _ ← execute .deleteOrphanEvents
  commit
  let count : ℕ := cursor
  if 0 < count then do
    log .debug ("Cleaned up " ++ toString count ++ " expired call records")
    return count
  else
    return count

/-- A read that raises nothing, before the rest. -/
theorem complete_getCallRecord_bind {β : Type} {e : Env} {n : ℕ} (he : e.fault n = none)
    (requestId : String) (f : Option CallRecord → Prog β) (w : World) :
    (getCallRecord requestId >>= f).complete (World.respond e) n w =
      (f (w.store.calls.find requestId)).complete (World.respond e) (n + 1) w := by
  refine (complete_issue_bind e (.execute (.selectCall requestId)) f n w).trans ?_
  rw [World.respond_execute he]
  rfl

/-! ## What an update writes -/

theorem channel_not_mem_updateFields {u : StatusFields} (hu : u.channel = none) :
    Column.channel ∉ updateFields u := by
  simp only [updateFields, hu, Option.isSome_none, Bool.false_eq_true, if_false, List.append_nil]
  split <;> split <;> split <;> decide

/-- The row after `update_call_status` with the given status, clock reading and fields. -/
def CallRecord.updated (row : CallRecord) (status : Status) (now : Time) (u : StatusFields) :
    CallRecord :=
  { row with
    status := status
    updatedAt := now
    hangupCause := u.hangupCause <|> row.hangupCause
    asteriskReason := u.asteriskReason <|> row.asteriskReason
    duration := u.duration <|> row.duration
    channel := u.channel <|> row.channel }

/-- The column list and the value list of `update_call_status` stay aligned: each field that is
given is written to its column, and no other column changes. -/
theorem updateRow_eq_updated (status : Status) (now : Time) (u : StatusFields) (row : CallRecord) :
    updateRow (updateFields u) (updateValues status now u) row = row.updated status now u := by
  obtain ⟨hangupCause, asteriskReason, duration, channel⟩ := u
  cases hangupCause <;> cases asteriskReason <;> cases duration <;> cases channel <;> rfl

end OtpVoice
