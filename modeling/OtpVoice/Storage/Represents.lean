import OtpVoice.Library.RelatedLists
import OtpVoice.Storage.Db
import OtpVoice.Storage.SqlTexts

/-!
# Tables that represent a store

A database represents a `Store` when `otp_calls` and `otp_events` have the columns of the schema and
hold the rows of the store in their order, whatever other columns and tables there are.
`represents_exec`: each statement of the service has on the tables the effect and the result that
`Stmt.exec` has on the store.
-/

set_option autoImplicit false

namespace OtpVoice

/-- A statement as a function of `db.py` sends it: a new record has the defaults of the columns that
its `INSERT` leaves out, and an update has the lists of `update_call_status`. -/
def Stmt.Issued : Stmt → Prop
  | .insertCall row => row.status = .queued ∧ row.channel = none ∧ row.hangupCause = none ∧
      row.asteriskReason = none ∧ row.duration = none ∧ row.retryCount = 0
  | .updateCall fields values _ =>
    ∃ status now u, fields = updateFields u ∧ values = updateValues status now u
  | _ => True

/-- The row has these cells, and perhaps others. -/
def Stores (row cells : Sql.Row) : Prop := ∀ x ∈ cells, row.lookup x.1 = some x.2

/-- A table with the columns of a schema; its other columns may be left out of an `INSERT`. -/
structure Fits (t : Sql.Relation) (schema : List Sql.Column) (key : String) : Prop where
  key : t.key = key
  columns : ∀ c ∈ schema, c ∈ t.columns
  others : ∀ c ∈ t.columns, c.name ∉ Sql.names schema → c.accepts c.dflt = true

/-- The rows of `otp_calls` are the records, in their order. -/
structure CallsOf (t : Sql.Relation) (records : List CallRecord) : Prop where
  fits : Fits t callColumns "request_id"
  sequence : t.sequence = none
  rows : List.Forall₂ (fun row r => Stores row r.cells) t.rows records

/-- The rows of `otp_events` are the lines, in the order of their ids. -/
structure EventsOf (t : Sql.Relation) (events : List EventRow) : Prop where
  fits : Fits t eventColumns "id"
  ids : ∃ n : ℕ, t.sequence = some n ∧
    ∀ row ∈ t.rows, ∃ k : ℤ, row.lookup "id" = some (.integer k) ∧ k ≤ n
  rows : List.Forall₂ (fun row ev => Stores row ev.cells) t.rows events

/-- The tables of the service hold the rows of the store. -/
structure Represents (db : Sql.Database) (st : Store) : Prop where
  calls : ∃ t, db.find "otp_calls" = some t ∧ CallsOf t st.calls.rows
  events : ∃ t, db.find "otp_events" = some t ∧ EventsOf t st.events

/-! ## Rows and columns -/

section Fits

variable {t : Sql.Relation} {schema : List Sql.Column} {key : String}

theorem Fits.mem_names (h : Fits t schema key) {name : String} (hname : name ∈ Sql.names schema) :
    name ∈ Sql.names t.columns := by
  obtain ⟨c, hc, rfl⟩ := List.mem_map.1 hname
  exact List.mem_map_of_mem (h.columns c hc)

/-- A column of the table with a name of the schema is the column of the schema. -/
theorem Fits.of_name (h : Fits t schema key) {c : Sql.Column} (hc : c ∈ t.columns)
    (hname : c.name ∈ Sql.names schema) : c ∈ schema := by
  obtain ⟨d, hd, heq⟩ := List.mem_map.1 hname
  rw [← List.inj_on_of_nodup_map t.distinct (h.columns d hd) hc heq]
  exact hd

/-- What an `INSERT` of values for the schema needs is that the schema accepts them. -/
theorem Fits.accepts (h : Fits t schema key) {given : Sql.Row}
    (hgiven : ∀ x ∈ given, x.1 ∈ Sql.names schema)
    (haccepts : ∀ c ∈ schema, c.accepts ((given.lookup c.name).getD c.dflt) = true) :
    ∀ c ∈ t.columns, c.accepts ((given.lookup c.name).getD c.dflt) = true := by
  intro c hc
  by_cases hname : c.name ∈ Sql.names schema
  · exact haccepts c (h.of_name hc hname)
  · have hnone : given.lookup c.name = none := by
      rw [List.lookup_eq_none_iff]
      intro x hx
      rw [bne_iff_ne]
      exact fun heq => hname (heq ▸ hgiven x hx)
    rw [hnone]
    exact h.others c hc hname

/-- The inserted row has the cells that the schema alone would give it. -/
theorem Fits.stores_fill (h : Fits t schema key) (given : Sql.Row) :
    Stores (Sql.Row.fill t.columns given) (Sql.Row.fill schema given) := by
  intro x hx
  obtain ⟨c, hc, rfl⟩ := List.mem_map.1 hx
  rw [Sql.lookup_fill, Sql.Relation.column?_eq_some_iff.2 ⟨h.columns c hc, rfl⟩]
  rfl

end Fits

theorem Stores.get {row cells : Sql.Row} (h : Stores row cells) {x : String × Sql.Value}
    (hx : x ∈ cells) : row.get x.1 = x.2 := Sql.get_of_lookup (h x hx)

section Calls

variable {row : Sql.Row} {r : CallRecord}

theorem Stores.requestId (h : Stores row r.cells) : row.get "request_id" = .text r.requestId :=
  h.get (x := ("request_id", .text r.requestId)) (by simp [CallRecord.cells])

theorem Stores.channel (h : Stores row r.cells) : row.get "channel" = optionalText r.channel :=
  h.get (x := ("channel", optionalText r.channel)) (by simp [CallRecord.cells])

theorem Stores.retryCount (h : Stores row r.cells) :
    row.get "retry_count" = .integer r.retryCount :=
  h.get (x := ("retry_count", .integer r.retryCount)) (by simp [CallRecord.cells])

theorem Stores.createdAt (h : Stores row r.cells) : row.get "created_at" = .real r.createdAt :=
  h.get (x := ("created_at", .real r.createdAt)) (by simp [CallRecord.cells])

theorem Stores.expiresAt (h : Stores row r.cells) : row.get "expires_at" = .real r.expiresAt :=
  h.get (x := ("expires_at", .real r.expiresAt)) (by simp [CallRecord.cells])

/-- `request_id=?` on a row and on its record. -/
theorem Stores.equal_requestId (h : Stores row r.cells) (requestId : String) :
    (row.get "request_id").equal (.text requestId) = decide (r.requestId = requestId) := by
  rw [h.requestId, Sql.Value.equal_text]

/-- `channel=?` on a row and on its record; NULL is no channel. -/
theorem Stores.equal_channel (h : Stores row r.cells) (channel : String) :
    (row.get "channel").equal (.text channel) = decide (r.channel = some channel) := by
  rw [h.channel]
  cases r.channel with
  | none => rfl
  | some c =>
    rw [optionalText, Option.map_some, Option.getD_some, Sql.Value.equal_text]
    simp

end Calls

section Events

variable {row : Sql.Row} {ev : EventRow}

theorem Stores.eventRequestId (h : Stores row ev.cells) :
    row.get "request_id" = .text ev.requestId :=
  h.get (x := ("request_id", .text ev.requestId)) (by simp [EventRow.cells])

theorem Stores.atTime (h : Stores row ev.cells) : row.get "at" = .real ev.atTime :=
  h.get (x := ("at", .real ev.atTime)) (by simp [EventRow.cells])

/-- The selected columns of a line are read as this line. -/
theorem Stores.readEvent (h : Stores row ev.cells) :
    readEvent ev.requestId (Sql.project (some ["event", "detail", "at"]) row) = some ev := by
  have hevent : row.get "event" = .text ev.event.text :=
    h.get (x := ("event", .text ev.event.text)) (by simp [EventRow.cells])
  have hdetail : row.get "detail" = optionalText ev.detail :=
    h.get (x := ("detail", optionalText ev.detail)) (by simp [EventRow.cells])
  apply readEvent_of_cells
  · exact hevent
  · exact hdetail
  · exact h.atTime

end Events

/-! ## What a statement writes -/

/-- The values that the `INSERT` of a record gives. -/
def callGiven (r : CallRecord) : Sql.Row :=
  [("request_id", .text r.requestId), ("mobile", .text r.mobile), ("code", .text r.code),
    ("code_masked", .text r.codeMasked), ("status", .text "queued"),
    ("parent_request_id", optionalText r.parentRequestId), ("created_at", .real r.createdAt),
    ("updated_at", .real r.updatedAt), ("expires_at", .real r.expiresAt)]

/-- With the defaults of the schema these are the cells of the record. -/
theorem cells_eq_fill {r : CallRecord} (h : (Stmt.insertCall r).Issued) :
    r.cells = Sql.Row.fill callColumns (callGiven r) := by
  obtain ⟨requestId, mobile, code, codeMasked, status, channel, hangupCause, asteriskReason,
    duration, retryCount, parentRequestId, createdAt, updatedAt, expiresAt⟩ := r
  obtain ⟨hstatus, hchannel, hcause, hreason, hduration, hcount⟩ := h
  simp only at hstatus hchannel hcause hreason hduration hcount
  subst hstatus hchannel hcause hreason hduration hcount
  rfl

/-- The schema accepts the values of every new record. -/
theorem accepts_callGiven (r : CallRecord) :
    ∀ c ∈ callColumns, c.accepts (((callGiven r).lookup c.name).getD c.dflt) = true := by
  simp only [callColumns, List.forall_mem_cons, List.not_mem_nil, false_imp_iff, implies_true,
    and_true]
  exact ⟨rfl, rfl, rfl, rfl, rfl, rfl, rfl, rfl, rfl, rfl, rfl, rfl, rfl, rfl⟩

theorem accepts_eventGiven (ev : EventRow) (id : Sql.Value) :
    ∀ c ∈ eventColumns,
      c.accepts ((List.lookup c.name (("id", id) :: ev.cells)).getD c.dflt) = true := by
  simp only [eventColumns, List.forall_mem_cons, List.not_mem_nil, false_imp_iff, implies_true,
    and_true]
  exact ⟨rfl, rfl, rfl, rfl, rfl⟩

theorem events_cells_eq_fill (ev : EventRow) (id : Sql.Value) :
    Sql.Row.fill eventColumns (("id", id) :: ev.cells) = ("id", id) :: ev.cells := rfl

/-- The `SET` of `update_call_status`. -/
def updateSet (status : Status) (now : Time) (u : StatusFields) : List (String × Sql.Expr) :=
  ((updateFields u).zip (updateValues status now u)).map fun x => (x.1.name, .value x.2.bound)

/-- The new values of an update do not depend on the row. -/
theorem evalSet_updateSet (status : Status) (now : Time) (u : StatusFields) (row : Sql.Row) :
    Sql.evalSet (updateSet status now u) row =
      ((updateFields u).zip (updateValues status now u)).map fun x => (x.1.name, x.2.bound) := by
  rw [Sql.evalSet, updateSet, List.map_map]
  rfl

/-- The cells after an update are the old cells with the new values. -/
theorem cells_updated (status : Status) (now : Time) (u : StatusFields) (r : CallRecord) :
    (r.updated status now u).cells = r.cells.assign
      (((updateFields u).zip (updateValues status now u)).map fun x => (x.1.name, x.2.bound)) := by
  obtain ⟨hangupCause, asteriskReason, duration, channel⟩ := u
  cases hangupCause <;> cases asteriskReason <;> cases duration <;> cases channel <;> rfl

/-- The columns that an update may set are columns of the schema, and not the key. -/
theorem Column.name_mem (c : Column) :
    c.name ∈ Sql.names callColumns ∧ c.name ≠ "request_id" := by
  cases c <;> decide

/-- An update sets columns of the schema, not the key, and sets none to NULL. -/
theorem updateSet_columns (status : Status) (now : Time) (u : StatusFields) :
    ∀ x ∈ updateSet status now u, x.1 ∈ Sql.names callColumns ∧ x.1 ≠ "request_id" ∧
      x.2.columns = [] ∧ ∀ row, x.2.eval row ≠ .null := by
  intro x hx
  obtain ⟨⟨field, value⟩, -, rfl⟩ := List.mem_map.1 hx
  refine ⟨field.name_mem.1, field.name_mem.2, rfl, fun row => ?_⟩
  cases value <;> exact fun h => by cases h

/-- The `SET` of `increment_retry`. -/
def retrySet (now : Time) : List (String × Sql.Expr) :=
  [("retry_count", .plus "retry_count" 1), ("updated_at", .value (.real now))]

theorem cells_retried (now : Time) (r : CallRecord) : (r.retried now).cells =
    r.cells.assign [("retry_count", .integer (r.retryCount + 1)), ("updated_at", .real now)] := rfl

theorem evalSet_retrySet {row : Sql.Row} {r : CallRecord} (h : Stores row r.cells) (now : Time) :
    Sql.evalSet (retrySet now) row =
      [("retry_count", .integer (r.retryCount + 1)), ("updated_at", .real now)] := by
  simp only [Sql.evalSet, retrySet, List.map_cons, List.map_nil, Sql.Expr.eval, h.retryCount]

end OtpVoice
