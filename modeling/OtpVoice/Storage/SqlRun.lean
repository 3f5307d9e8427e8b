import OtpVoice.Storage.Represents

/-!
# Statements on represented stores

One lemma for each statement of the service: on tables that represent a store it gives the result of
`Stmt.exec` and leaves tables that represent the store after it.
-/

set_option autoImplicit false

namespace OtpVoice

variable {db : Sql.Database} {st : Store}

/-- A statement that succeeds is read. -/
theorem run_of_exec {s : Stmt} {r : Sql.Result} {db' : Sql.Database}
    (h : s.sql.exec db = .ok (r, db')) : s.run db = (s.read r, db') := by
  simp only [Stmt.run, h]

theorem requestId_mem : "request_id" ∈ Sql.names callColumns := by decide

theorem eventRequestId_mem : "request_id" ∈ Sql.names eventColumns := by decide

/-! ## Tables put back -/

theorem CallsOf.of_rows {t t' : Sql.Relation} {l l' : List CallRecord} (h : CallsOf t l)
    (hcolumns : t'.columns = t.columns) (hkey : t'.key = t.key)
    (hsequence : t'.sequence = t.sequence)
    (hrows : List.Forall₂ (fun row r => Stores row r.cells) t'.rows l') : CallsOf t' l' where
  fits := ⟨hkey.trans h.fits.key, hcolumns ▸ h.fits.columns, hcolumns ▸ h.fits.others⟩
  sequence := hsequence.trans h.sequence
  rows := hrows

theorem Represents.put_calls (h : Represents db st) {t' : Sql.Relation} {calls : CallTable}
    (ht' : CallsOf t' calls.rows) :
    Represents (db.put "otp_calls" t') { st with calls := calls } where
  calls := ⟨t', db.find_put_self _ _, ht'⟩
  events := by
    obtain ⟨t, ht, hevents⟩ := h.events
    exact ⟨t, (db.find_put_ne (by decide) _).trans ht, hevents⟩

theorem Represents.put_events (h : Represents db st) {t' : Sql.Relation} {events : List EventRow}
    (ht' : EventsOf t' events) :
    Represents (db.put "otp_events" t') { st with events := events } where
  calls := by
    obtain ⟨t, ht, hcalls⟩ := h.calls
    exact ⟨t, (db.find_put_ne (by decide) _).trans ht, hcalls⟩
  events := ⟨t', db.find_put_self _ _, ht'⟩

/-! ## Writing records -/

/-- The number of rows with a key. -/
theorem countP_key (calls : CallTable) (requestId : String) :
    calls.rows.countP (fun r => decide (r.requestId = requestId)) = matched calls requestId := by
  have hcount : calls.rows.countP (fun r => decide (r.requestId = requestId)) =
      (calls.rows.map CallRecord.requestId).count requestId := by
    rw [List.count, List.countP_map]
    rfl
  rw [hcount, calls.nodup.count, matched]
  by_cases hmem : requestId ∈ calls.rows.map CallRecord.requestId
  · obtain ⟨r, hr, rfl⟩ := List.mem_map.1 hmem
    rw [if_pos hmem, Table.find_mem hr]
    rfl
  · have hnone : calls.find requestId = none := by
      rw [Table.find_eq_none_iff]
      intro r hr heq
      exact hmem (heq ▸ List.mem_map_of_mem hr)
    rw [if_neg hmem, hnone]
    rfl

theorem run_insertCall (h : Represents db st) {r : CallRecord} (hr : (Stmt.insertCall r).Issued) :
    ((Stmt.insertCall r).run db).1 = ((Stmt.insertCall r).exec st).1 ∧
      Represents ((Stmt.insertCall r).run db).2 ((Stmt.insertCall r).exec st).2 := by
  obtain ⟨t, ht, hcalls⟩ := h.calls
  have hsql : (Stmt.insertCall r).sql = .insert "otp_calls" (callGiven r) := rfl
  have hnumber := t.number_of_none hcalls.sequence (callGiven r)
  have hstores : Stores (Sql.Row.fill t.columns (callGiven r)) r.cells := by
    rw [cells_eq_fill hr]
    exact hcalls.fits.stores_fill _
  have hgiven : ∀ x ∈ callGiven r, x.1 ∈ Sql.names callColumns := by
    simp only [callGiven, List.forall_mem_cons, List.not_mem_nil, false_imp_iff, implies_true,
      and_true]
    decide
  have hinsert := Sql.Relation.insert_eq (t := t) "otp_calls" (callGiven r)
    (fun x hx => hcalls.fits.mem_names (hgiven x hx)) (by
      rw [hnumber]
      exact hcalls.fits.accepts hgiven (accepts_callGiven r))
  -- the key of the new row is the key of the new record
  have hany : (t.rows.any fun old => (old.get t.key).equal
      ((Sql.Row.fill t.columns (t.number (callGiven r)).1).get t.key)) =
      st.calls.rows.any fun old => decide (old.requestId = r.requestId) := by
    rw [hnumber, hcalls.fits.key, hstores.requestId]
    exact RelatedLists.any (fun row old hold => hold.equal_requestId _) hcalls.rows
  rw [hany, hnumber, hcalls.fits.key] at hinsert
  simp only [Stmt.run, hsql, Sql.exec_insert ht, hinsert, Stmt.exec, Table.insert]
  by_cases hmem : r.requestId ∈ st.calls.rows.map CallRecord.requestId
  · have hfound : (st.calls.rows.any fun old => decide (old.requestId = r.requestId)) = true := by
      obtain ⟨old, hold, heq⟩ := List.mem_map.1 hmem
      exact List.any_eq_true.2 ⟨old, hold, decide_eq_true heq⟩
    simp only [hfound, if_true, hmem, dif_pos]
    exact ⟨rfl, h⟩
  · have hfree : (st.calls.rows.any fun old => decide (old.requestId = r.requestId)) = false := by
      rw [List.any_eq_false]
      intro old hold heq
      exact hmem (of_decide_eq_true heq ▸ List.mem_map_of_mem hold)
    simp only [hfree, Bool.false_eq_true, if_false, hmem, dif_neg, not_false_eq_true]
    refine ⟨rfl, h.put_calls (hcalls.of_rows rfl rfl hcalls.sequence.symm ?_)⟩
    exact List.rel_append hcalls.rows (.cons hstores .nil)

/-- An `UPDATE` of the row of a request id, for a change of its record that is the `SET`. -/
theorem exec_update_record (h : Represents db st) (set : List (String × Sql.Expr))
    (hset : ∀ x ∈ set, x.1 ∈ Sql.names callColumns ∧ x.1 ≠ "request_id" ∧
      ∀ c ∈ x.2.columns, c ∈ Sql.names callColumns) {f : CallRecord → CallRecord}
    (hf : ∀ r, (f r).requestId = r.requestId)
    (hcells : ∀ row (r : CallRecord), Stores row r.cells →
      (f r).cells = r.cells.assign (Sql.evalSet set row) ∧ ∀ x ∈ set, x.2.eval row ≠ .null)
    (requestId : String) :
    ∃ db', (Sql.Statement.update "otp_calls" set (.equal "request_id" (.text requestId))).exec db =
        .ok ({ rowcount := matched st.calls requestId }, db') ∧
      Represents db' { st with calls := st.calls.modify requestId f hf } := by
  obtain ⟨t, ht, hcalls⟩ := h.calls
  have hexec := Sql.exec_update ht
    (Sql.test_equal (hcalls.fits.mem_names requestId_mem) (.text requestId))
    (fun x hx => ⟨hcalls.fits.mem_names (hset x hx).1,
      fun c hc => hcalls.fits.mem_names ((hset x hx).2.2 c hc)⟩)
    (by
      rw [hcalls.fits.key]
      intro hmem
      obtain ⟨x, hx, heq⟩ := List.mem_map.1 hmem
      exact (hset x hx).2.1 heq)
    (by
      intro row hrow _
      obtain ⟨r, -, hr⟩ := RelatedLists.exists_right hcalls.rows row hrow
      exact (hcells row r hr).2)
  have hcount : (t.rows.countP fun row => (row.get "request_id").equal (.text requestId)) =
      matched st.calls requestId := by
    rw [← countP_key]
    exact RelatedLists.countP (fun row r hr => hr.equal_requestId _) hcalls.rows
  rw [hcount] at hexec
  refine ⟨_, hexec, h.put_calls (hcalls.of_rows rfl rfl rfl ?_)⟩
  refine List.rel_map (R := fun row (r : CallRecord) => Stores row r.cells) ?_ hcalls.rows
  intro row r hr
  show Stores (if (row.get "request_id").equal (.text requestId) = true then
      row.assign (Sql.evalSet set row) else row)
    (CallRecord.cells (if r.requestId = requestId then f r else r))
  rw [hr.equal_requestId]
  by_cases heq : r.requestId = requestId
  · rw [if_pos (decide_eq_true heq), if_pos heq, (hcells row r hr).1]
    exact Sql.assign_agrees hr _
  · rw [if_neg (by simpa using heq), if_neg heq]
    exact hr

theorem run_updateCall (h : Represents db st) (status : Status) (now : Time) (u : StatusFields)
    (requestId : String) :
    let s : Stmt := .updateCall (updateFields u) (updateValues status now u) requestId
    (s.run db).1 = (s.exec st).1 ∧ Represents (s.run db).2 (s.exec st).2 := by
  have hupdated : ∀ r, updateRow (updateFields u) (updateValues status now u) r =
      r.updated status now u := updateRow_eq_updated status now u
  obtain ⟨db', hexec, hrep⟩ := exec_update_record h (updateSet status now u)
    (fun x hx => by
      obtain ⟨hname, hkey, hcolumns, -⟩ := updateSet_columns status now u x hx
      exact ⟨hname, hkey, by simp [hcolumns]⟩)
    (updateRow_requestId (updateFields u) (updateValues status now u))
    (fun row r _ => by
      refine ⟨?_, fun x hx => (updateSet_columns status now u x hx).2.2.2 row⟩
      rw [hupdated, evalSet_updateSet]
      exact cells_updated status now u r)
    requestId
  intro s
  rw [run_of_exec (s := s) hexec]
  exact ⟨rfl, hrep⟩

theorem run_incrementRetry (h : Represents db st) (now : Time) (requestId : String) :
    ((Stmt.incrementRetry now requestId).run db).1 =
        ((Stmt.incrementRetry now requestId).exec st).1 ∧
      Represents ((Stmt.incrementRetry now requestId).run db).2
        ((Stmt.incrementRetry now requestId).exec st).2 := by
  obtain ⟨db', hexec, hrep⟩ := exec_update_record h (retrySet now)
    (by
      simp only [retrySet, List.forall_mem_cons, List.not_mem_nil, false_imp_iff, implies_true,
        and_true, Sql.Expr.columns]
      decide)
    (f := CallRecord.retried now) (fun _ => rfl)
    (fun row r hr => by
      refine ⟨by rw [evalSet_retrySet hr, cells_retried], ?_⟩
      simp [retrySet, Sql.Expr.eval, hr.retryCount])
    requestId
  rw [run_of_exec (s := .incrementRetry now requestId) hexec]
  exact ⟨rfl, hrep⟩

theorem run_deleteExpired (h : Represents db st) (now : Time) :
    ((Stmt.deleteExpired now).run db).1 = ((Stmt.deleteExpired now).exec st).1 ∧
      Represents ((Stmt.deleteExpired now).run db).2 ((Stmt.deleteExpired now).exec st).2 := by
  obtain ⟨t, ht, hcalls⟩ := h.calls
  have hbelow : ∀ row (r : CallRecord), Stores row r.cells →
      (row.get "expires_at").below (.real now) = expired now r := by
    intro row r hr
    rw [hr.expiresAt, Sql.Value.below_real]
    rfl
  have hexec := Sql.exec_delete ht (Sql.test_below
    (hcalls.fits.mem_names (show "expires_at" ∈ _ by decide)) (.real now))
  have hcount := RelatedLists.countP hbelow hcalls.rows
  rw [run_of_exec (s := .deleteExpired now) hexec]
  refine ⟨?_, h.put_calls (hcalls.of_rows rfl rfl rfl ?_)⟩
  · simp only [Stmt.read, Stmt.exec, hcount, List.countP_eq_length_filter]
  · exact RelatedLists.filter (fun row r hr => congrArg not (hbelow row r hr)) hcalls.rows

/-! ## Reading records -/

/-- Rows that start with the row of a record, or with none. -/
theorem readOne_of_rel {rows : List Sql.Row} {o : Option CallRecord}
    (h : Option.Rel (fun row (r : CallRecord) => Stores row r.cells) rows.head? o) :
    readOne { rows := rows } = .ok o := by
  cases rows with
  | nil =>
    cases h
    rfl
  | cons row rest =>
    cases h with
    | some hr => simp only [readOne, readRecord_of_cells hr]

theorem run_selectCall (h : Represents db st) (requestId : String) :
    (Stmt.selectCall requestId).run db = (.ok (st.calls.find requestId), db) := by
  obtain ⟨t, ht, hcalls⟩ := h.calls
  have hexec := Sql.exec_select ht none none none
    (Sql.test_equal (hcalls.fits.mem_names requestId_mem) (.text requestId))
    (fun c hc => absurd hc List.not_mem_nil)
  have hrows := RelatedLists.head? (RelatedLists.filter
    (fun row r hr => hr.equal_requestId requestId) hcalls.rows)
  rw [List.head?_filter (l := st.calls.rows)] at hrows
  simp only [Sql.orderRows, Option.getD_none, List.take_length, Sql.map_project_none] at hexec
  rw [run_of_exec (s := .selectCall requestId) hexec]
  exact congrArg (·, db) (readOne_of_rel hrows)

theorem run_selectByChannel (h : Represents db st) (channel : String) :
    (Stmt.selectByChannel channel).run db = (.ok (newestOfChannel st.calls channel), db) := by
  obtain ⟨t, ht, hcalls⟩ := h.calls
  have hexec := Sql.exec_select ht none (some ("created_at", true)) (some 1)
    (Sql.test_equal (hcalls.fits.mem_names (show "channel" ∈ _ by decide)) (.text channel))
    (fun c hc => by
      rw [List.mem_singleton.1 hc]
      exact hcalls.fits.mem_names (by decide))
  have hfiltered := RelatedLists.filter (fun row r hr => hr.equal_channel channel) hcalls.rows
  -- newest first, on the rows and on the records
  have hsorted := RelatedLists.insertionSort
    (fun a b => (Sql.Row.get b "created_at").le (a.get "created_at") = true)
    (fun r r' : CallRecord => r'.createdAt ≤ r.createdAt)
    (fun a a' r r' hr hr' => by
      rw [hr.createdAt, hr'.createdAt, Sql.Value.le_real, decide_eq_true_iff])
    hfiltered
  have hrows := RelatedLists.head? hsorted
  rw [RelatedLists.head?_insertionSort_eq_argmax] at hrows
  simp only [Sql.orderRows, Option.getD_some, Sql.map_project_none, if_true] at hexec
  rw [run_of_exec (s := .selectByChannel channel) hexec]
  refine congrArg (·, db) (readOne_of_rel ?_)
  rw [List.head?_take]
  exact hrows

/-! ## Timelines -/

theorem run_insertEvent (h : Represents db st) (ev : EventRow) :
    ((Stmt.insertEvent ev).run db).1 = ((Stmt.insertEvent ev).exec st).1 ∧
      Represents ((Stmt.insertEvent ev).run db).2 ((Stmt.insertEvent ev).exec st).2 := by
  obtain ⟨t, ht, hevents⟩ := h.events
  obtain ⟨n, hn, hids⟩ := hevents.ids
  have hnumber := Sql.Relation.number_of_some hn ev.cells (by
    rw [hevents.fits.key]
    rfl)
  rw [hevents.fits.key] at hnumber
  have hgiven : ∀ x ∈ (("id", Sql.Value.integer (n + 1)) :: ev.cells : Sql.Row),
      x.1 ∈ Sql.names eventColumns := by
    simp only [EventRow.cells, List.forall_mem_cons, List.not_mem_nil, false_imp_iff, implies_true,
      and_true]
    decide
  have hstores := hevents.fits.stores_fill (("id", .integer (n + 1)) :: ev.cells)
  rw [events_cells_eq_fill] at hstores
  have hid := hstores _ List.mem_cons_self
  have hinsert := Sql.Relation.insert_eq (t := t) "otp_events" ev.cells
    (fun x hx => hevents.fits.mem_names (hgiven x (List.mem_cons_of_mem _ hx))) (by
      rw [hnumber]
      exact hevents.fits.accepts hgiven (accepts_eventGiven ev _))
  -- the new id is larger than all that there are
  have hfree : (t.rows.any fun old => (old.get t.key).equal
      ((Sql.Row.fill t.columns (t.number ev.cells).1).get t.key)) = false := by
    rw [List.any_eq_false]
    intro old hold
    obtain ⟨k, hk, hle⟩ := hids old hold
    rw [hnumber, hevents.fits.key, Sql.get_of_lookup hk, Sql.get_of_lookup hid]
    have hne : (k : ℚ) ≠ ((n + 1 : ℤ) : ℚ) := by
      intro heq
      have hk : k = (n : ℤ) + 1 := by exact_mod_cast heq
      omega
    simpa [Sql.Value.equal, Sql.Value.number] using hne
  rw [hfree, if_neg Bool.false_ne_true, hnumber] at hinsert
  simp only [Stmt.run, Stmt.sql, Sql.exec_insert ht, hinsert, Stmt.exec]
  have hfits : Fits (t.append (("id", .integer (n + 1)) :: ev.cells) (some (n + 1))) eventColumns
      "id" := ⟨hevents.fits.key, hevents.fits.columns, hevents.fits.others⟩
  refine ⟨rfl, h.put_events ⟨hfits, ⟨n + 1, rfl, ?_⟩, ?_⟩⟩
  · intro row hrow
    rcases List.mem_append.1 hrow with hold | hnew
    · obtain ⟨k, hk, hle⟩ := hids row hold
      exact ⟨k, hk, hle.trans (by simp)⟩
    · rw [List.mem_singleton.1 hnew]
      exact ⟨_, hid, by simp⟩
  · refine List.rel_append hevents.rows (.cons ?_ .nil)
    intro x hx
    exact hstores x (List.mem_cons_of_mem _ hx)

theorem run_selectEvents (h : Represents db st) (requestId : String) :
    (Stmt.selectEvents requestId).run db =
      (((Stmt.selectEvents requestId).exec st).1, db) := by
  obtain ⟨t, ht, hevents⟩ := h.events
  have hexec := Sql.exec_select ht (some ["event", "detail", "at"])
    (some ("at", false)) none
    (Sql.test_equal (hevents.fits.mem_names eventRequestId_mem) (.text requestId))
    (fun c hc => hevents.fits.mem_names (by
      revert hc
      revert c
      decide))
  have hnames : ∀ row (ev : EventRow), Stores row ev.cells →
      (row.get "request_id").equal (.text requestId) = decide (ev.requestId = requestId) := by
    intro row ev hr
    rw [hr.eventRequestId, Sql.Value.equal_text]
  have hfiltered := RelatedLists.filter hnames hevents.rows
  have hsorted := RelatedLists.insertionSort
    (fun a b => (Sql.Row.get a "at").le (b.get "at") = true)
    (fun a b : EventRow => a.atTime ≤ b.atTime)
    (fun a a' r r' hr hr' => by
      rw [hr.atTime, hr'.atTime, Sql.Value.le_real, decide_eq_true_iff])
    hfiltered
  have hnamed : ∀ ev ∈ (st.events.filter fun ev => decide (ev.requestId = requestId)).insertionSort
      (fun a b => a.atTime ≤ b.atTime), ev.requestId = requestId := by
    intro ev hev
    rw [List.mem_insertionSort, List.mem_filter] at hev
    exact of_decide_eq_true hev.2
  have hread : ∀ (row : Sql.Row) (ev : EventRow), Stores row ev.cells ∧ ev.requestId = requestId →
      readEvent requestId (Sql.project (some ["event", "detail", "at"]) row) = some ev := by
    rintro row ev ⟨hstores, rfl⟩
    exact hstores.readEvent
  have hrows := RelatedLists.mapM_eq_some (f := readEvent requestId) (fun _ _ hr => hr)
    (List.forall₂_map_left_iff.2 ((RelatedLists.and_right hsorted hnamed).imp hread))
  simp only [Sql.orderRows, Option.getD_none, List.take_length, Bool.false_eq_true,
    if_false] at hexec
  rw [run_of_exec (s := .selectEvents requestId) hexec]
  simp only [Stmt.read, hrows]
  rfl

/-- `NOT IN` a list of texts. -/
theorem notIn_text (s : String) (texts : List String) :
    Sql.Value.notIn (.text s) (texts.map .text) = !decide (s ∈ texts) := by
  rw [Sql.Value.notIn]
  have hany : (texts.map Sql.Value.text).any (Sql.Value.equal (.text s)) = decide (s ∈ texts) := by
    rw [List.any_map, Bool.eq_iff_iff, List.any_eq_true, decide_eq_true_iff]
    simp
  rw [hany]
  cases texts with
  | nil => rfl
  | cons a rest => simp

theorem run_deleteOrphanEvents (h : Represents db st) :
    (Stmt.deleteOrphanEvents.run db).1 = (Stmt.deleteOrphanEvents.exec st).1 ∧
      Represents (Stmt.deleteOrphanEvents.run db).2 (Stmt.deleteOrphanEvents.exec st).2 := by
  obtain ⟨c, hc, hcalls⟩ := h.calls
  obtain ⟨t, ht, hevents⟩ := h.events
  have hexec := Sql.exec_delete ht (Sql.test_notIn
    (hevents.fits.mem_names eventRequestId_mem) hc (hcalls.fits.mem_names requestId_mem))
  -- the ids of the rows are those of the records
  have hids : (c.rows.map fun row => Sql.Row.get row "request_id") =
      (st.calls.rows.map CallRecord.requestId).map Sql.Value.text := by
    rw [List.map_map, ← List.forall₂_eq_eq_eq]
    exact List.rel_map (R := fun row (r : CallRecord) => Stores row r.cells)
      (fun row r hr => hr.requestId) hcalls.rows
  have horphan : ∀ row (ev : EventRow), Stores row ev.cells →
      (row.get "request_id").notIn (c.rows.map fun row => Sql.Row.get row "request_id") =
        (st.calls.find ev.requestId).isNone := by
    intro row ev hr
    rw [hr.eventRequestId, hids, notIn_text]
    by_cases hmem : ev.requestId ∈ st.calls.rows.map CallRecord.requestId
    · obtain ⟨r, hr, heq⟩ := List.mem_map.1 hmem
      have hfind : st.calls.find ev.requestId = some r := Table.find_eq_some_iff.2 ⟨hr, heq⟩
      simp [hmem, hfind]
    · have hfind : st.calls.find ev.requestId = none := by
        rw [Table.find_eq_none_iff]
        exact fun r hr heq => hmem (heq ▸ List.mem_map_of_mem hr)
      simp [hmem, hfind]
  rw [run_of_exec (s := .deleteOrphanEvents) hexec]
  have hcount := RelatedLists.countP horphan hevents.rows
  have hrows := RelatedLists.filter (fun row ev hr => congrArg not (horphan row ev hr)) hevents.rows
  have hkept : (st.events.filter fun ev => !(st.calls.find ev.requestId).isNone) =
      st.events.filter fun ev => (st.calls.find ev.requestId).isSome :=
    List.filter_congr fun ev _ => by rw [Option.not_isNone]
  rw [hkept] at hrows
  obtain ⟨n, hn, hold⟩ := hevents.ids
  have hfits : Fits (t.delete fun row => (row.get "request_id").notIn
      (c.rows.map fun row => Sql.Row.get row "request_id")) eventColumns "id" :=
    ⟨hevents.fits.key, hevents.fits.columns, hevents.fits.others⟩
  refine ⟨?_, h.put_events ⟨hfits, ⟨n, hn, ?_⟩, hrows⟩⟩
  · simp only [Stmt.read, Stmt.exec, hcount, List.countP_eq_length_filter]
  · exact fun row hrow => hold row (List.mem_filter.1 hrow).1

/-- Each statement of the service does on the tables what it does on the store that they
represent. -/
theorem represents_exec {s : Stmt} (hs : s.Issued) (h : Represents db st) :
    (s.run db).1 = (s.exec st).1 ∧ Represents (s.run db).2 (s.exec st).2 := by
  cases s with
  | insertCall r => exact run_insertCall h hs
  | updateCall fields values requestId =>
    obtain ⟨status, now, u, rfl, rfl⟩ := hs
    exact run_updateCall h status now u requestId
  | incrementRetry now requestId => exact run_incrementRetry h now requestId
  | selectCall requestId =>
    rw [run_selectCall h]
    exact ⟨rfl, h⟩
  | selectByChannel channel =>
    rw [run_selectByChannel h]
    exact ⟨rfl, h⟩
  | insertEvent ev => exact run_insertEvent h ev
  | selectEvents requestId =>
    rw [run_selectEvents h]
    exact ⟨rfl, h⟩
  | deleteExpired now => exact run_deleteExpired h now
  | deleteOrphanEvents => exact run_deleteOrphanEvents h

end OtpVoice
