import OtpVoice.Storage.Db

/-!
# The life of a record

What one statement does to the row of a request id: it keeps the row, counts a retry, updates the
row or drops it (`find_exec`), and only an `INSERT` brings a row up (`find_exec_new`). The timeline
of a record that stays keeps its events (`events_exec`).
-/

set_option autoImplicit false

namespace OtpVoice

variable {st : Store} {s : Stmt} {requestId : String} {row row' : CallRecord}

theorem find_exec (hbefore : st.calls.find requestId = some row)
    (hafter : (s.exec st).2.calls.find requestId = some row') :
    row' = row ∨ (∃ now, s = .incrementRetry now requestId ∧ row' = row.retried now) ∨
      ∃ fields values, s = .updateCall fields values requestId ∧
        row' = updateRow fields values row := by
  cases s with
  | insertCall new =>
    -- a new row has a key that was free, so an old row is found as before
    simp only [Stmt.exec] at hafter
    split at hafter
    · rename_i calls hinsert
      rcases Table.find_of_insert hinsert hafter with h | ⟨-, h⟩
      · exact .inl (Option.some.inj (h.symm.trans hbefore))
      · cases h.symm.trans hbefore
    · exact .inl (Option.some.inj (hafter.symm.trans hbefore))
  | updateCall fields values key =>
    simp only [Stmt.exec, Table.find_modify, hbefore, Option.map_some] at hafter
    split at hafter
    · rename_i hkey
      subst hkey
      exact .inr (.inr ⟨fields, values, rfl, (Option.some.inj hafter).symm⟩)
    · exact .inl (Option.some.inj hafter).symm
  | incrementRetry now key =>
    replace hafter := (st.calls.find_modify key (CallRecord.retried now) (fun _ => rfl)
      requestId).symm.trans hafter
    rw [hbefore, Option.map_some] at hafter
    split at hafter
    · rename_i hkey
      subst hkey
      exact .inr (.inl ⟨now, rfl, (Option.some.inj hafter).symm⟩)
    · exact .inl (Option.some.inj hafter).symm
  | deleteExpired now =>
    -- a row that is still found has not expired
    simp only [Stmt.exec, Table.find_delete, hbefore] at hafter
    exact .inl (Option.some.inj (Option.mem_filter_iff.1 hafter).1).symm
  | _ => exact .inl (Option.some.inj (hafter.symm.trans hbefore))

theorem find_exec_new (hbefore : st.calls.find requestId = none)
    (hafter : (s.exec st).2.calls.find requestId = some row') : s = .insertCall row' := by
  cases s with
  | insertCall new =>
    simp only [Stmt.exec] at hafter
    split at hafter
    · rename_i calls hinsert
      rcases Table.find_of_insert hinsert hafter with h | ⟨rfl, -⟩
      · cases h.symm.trans hbefore
      · rfl
    · cases hafter.symm.trans hbefore
  | updateCall fields values key =>
    simp [Stmt.exec, Table.find_modify, hbefore] at hafter
  | incrementRetry now key =>
    replace hafter := (st.calls.find_modify key (CallRecord.retried now) (fun _ => rfl)
      requestId).symm.trans hafter
    simp [hbefore] at hafter
  | deleteExpired now =>
    simp [Stmt.exec, Table.find_delete, hbefore] at hafter
  | _ => cases hafter.symm.trans hbefore

/-- Only the cleanup drops a record, once it has expired. -/
theorem find_exec_gone (hbefore : st.calls.find requestId = some row)
    (hafter : (s.exec st).2.calls.find requestId = none) :
    ∃ now, s = .deleteExpired now ∧ row.expiresAt < now := by
  cases s with
  | insertCall new =>
    simp only [Stmt.exec] at hafter
    split at hafter
    · rename_i calls hinsert
      obtain ⟨-, hrows⟩ := Table.insert_eq_some_iff.1 hinsert
      obtain ⟨hmem, hkey⟩ := Table.find_eq_some_iff.1 hbefore
      exact absurd hkey (Table.find_eq_none_iff.1 hafter row (by rw [hrows]; simp [hmem]))
    · cases hafter.symm.trans hbefore
  | updateCall fields values key =>
    simp only [Stmt.exec, Table.find_modify, hbefore] at hafter
    split at hafter <;> cases hafter
  | incrementRetry now key =>
    replace hafter := (st.calls.find_modify key (CallRecord.retried now) (fun _ => rfl)
      requestId).symm.trans hafter
    rw [hbefore] at hafter
    split at hafter <;> cases hafter
  | deleteExpired now =>
    simp only [Stmt.exec, Table.find_delete, hbefore, Option.filter_some] at hafter
    split at hafter
    · cases hafter
    · rename_i hexpired
      exact ⟨now, rfl, by simpa [expired] using hexpired⟩
  | _ => cases hafter.symm.trans hbefore

/-- A cleanup drops every record that has expired. -/
theorem find_deleteExpired {now : Time} (hbefore : st.calls.find requestId = some row)
    (hexpired : row.expiresAt < now) :
    ((Stmt.deleteExpired now).exec st).2.calls.find requestId = none := by
  simp [Stmt.exec, Table.find_delete, hbefore, expired, hexpired]

/-- A column that `update_call_status` never sets keeps its value. -/
theorem updateRow_kept {β : Type} {g : CallRecord → β} (hg : ∀ row x, g (row.assign x) = g row)
    (fields : List Column) (values : List SqlValue) (row : CallRecord) :
    g (updateRow fields values row) = g row := by
  unfold updateRow
  induction fields.zip values generalizing row with
  | nil => rfl
  | cons x xs ih => rw [List.foldl_cons, ih, hg]

theorem CallRecord.assign_code (row : CallRecord) (x : Column × SqlValue) :
    (row.assign x).code = row.code := by
  unfold CallRecord.assign
  split <;> rfl

theorem CallRecord.assign_expiresAt (row : CallRecord) (x : Column × SqlValue) :
    (row.assign x).expiresAt = row.expiresAt := by
  unfold CallRecord.assign
  split <;> rfl

theorem CallRecord.assign_parentRequestId (row : CallRecord) (x : Column × SqlValue) :
    (row.assign x).parentRequestId = row.parentRequestId := by
  unfold CallRecord.assign
  split <;> rfl

theorem CallRecord.assign_retryCount (row : CallRecord) (x : Column × SqlValue) :
    (row.assign x).retryCount = row.retryCount := by
  unfold CallRecord.assign
  split <;> rfl

/-- What neither `update_call_status` nor `increment_retry` changes stays as it is as long as the
record exists. -/
theorem find_exec_kept {β : Type} {g : CallRecord → β} (hassign : ∀ row x, g (row.assign x) = g row)
    (hretried : ∀ row now, g (CallRecord.retried now row) = g row)
    (hbefore : st.calls.find requestId = some row)
    (hafter : (s.exec st).2.calls.find requestId = some row') : g row' = g row := by
  rcases find_exec hbefore hafter with rfl | ⟨now, -, rfl⟩ | ⟨fields, values, -, rfl⟩
  · rfl
  · exact hretried row now
  · exact updateRow_kept hassign _ _ _

/-- A record keeps its code and its expiry as long as it exists. -/
theorem code_expiry_exec (hbefore : st.calls.find requestId = some row)
    (hafter : (s.exec st).2.calls.find requestId = some row') :
    row'.code = row.code ∧ row'.expiresAt = row.expiresAt := by
  constructor
  · exact find_exec_kept CallRecord.assign_code (fun _ _ => rfl) hbefore hafter
  · exact find_exec_kept CallRecord.assign_expiresAt (fun _ _ => rfl) hbefore hafter

/-- Events are deleted only together with their record. -/
theorem events_exec {ev : EventRow} (hev : ev ∈ st.events)
    (hstays : ((s.exec st).2.calls.find ev.requestId).isSome) : ev ∈ (s.exec st).2.events := by
  cases s with
  | insertCall new =>
    simp only [Stmt.exec]
    split <;> exact hev
  | insertEvent new => exact List.mem_append_left _ hev
  | deleteOrphanEvents => exact List.mem_filter.2 ⟨hev, hstays⟩
  | _ => exact hev

/-- Only an `INSERT` brings a line into a timeline. -/
theorem mem_events_exec {ev : EventRow} (hev : ev ∈ (s.exec st).2.events) :
    ev ∈ st.events ∨ s = .insertEvent ev := by
  cases s with
  | insertCall new =>
    simp only [Stmt.exec] at hev
    split at hev
    · exact .inl hev
    · exact .inl hev
  | insertEvent new =>
    rcases List.mem_append.1 hev with hev | hev
    · exact .inl hev
    · exact .inr (by rw [List.mem_singleton.1 hev])
  | deleteOrphanEvents => exact .inl (List.mem_filter.1 hev).1
  | _ => exact .inl hev

/-- The record that is found for a channel is a record of the table with this channel. -/
theorem mem_of_newestOfChannel {calls : CallTable} {channel : String} {row : CallRecord}
    (h : newestOfChannel calls channel = some row) :
    calls.find row.requestId = some row ∧ row.channel = some channel := by
  have hmem := List.argmax_mem (Option.mem_def.2 h)
  rw [List.mem_filter, decide_eq_true_eq] at hmem
  exact ⟨Table.find_mem hmem.1, hmem.2⟩

/-- Where only the record of one request has the channel, the lookup reads this record. -/
theorem newestOfChannel_of_owned {calls : CallTable} {requestId channel : String}
    (h : ∀ row, calls.find row.requestId = some row → row.channel = some channel →
      row.requestId = requestId) : newestOfChannel calls channel =
      (calls.find requestId).filter fun row => row.channel = some channel := by
  cases hnewest : newestOfChannel calls channel with
  | some row =>
    obtain ⟨hfind, hrow⟩ := mem_of_newestOfChannel hnewest
    rw [← h row hfind hrow, hfind, Option.filter_some, if_pos (decide_eq_true hrow)]
  | none =>
    rw [newestOfChannel, List.argmax_eq_none] at hnewest
    cases hfind : calls.find requestId with
    | none => rfl
    | some row =>
      by_cases hrow : row.channel = some channel
      · -- the record would have been found
        have hmem : row ∈ calls.rows.filter fun row => row.channel = some channel :=
          List.mem_filter.2 ⟨(Table.find_eq_some_iff.1 hfind).1, decide_eq_true hrow⟩
        rw [hnewest] at hmem
        cases hmem
      · rw [Option.filter_some, if_neg]
        simpa using hrow

/-- The first maxima of two lists whose elements have the same values, one after the other. -/
theorem argmax_rel {α β : Type} [LinearOrder β] {f : α → β} {P : α → α → Prop}
    (hf : ∀ a a', P a a' → f a = f a') {l l' : List α} (h : List.Forall₂ P l l') :
    Option.Rel P (l.argmax f) (l'.argmax f) := by
  refine List.rel_foldl (P := Option.Rel P) (R := P) ?_ .none h
  rintro _ _ (hc | _) a a' ha
  · simp only [List.argAux, ← hf _ _ hc, ← hf a a' ha]
    split
    · exact .some ha
    · exact .some hc
  · exact .some ha

/-- The rows that are found for a channel in two tables whose rows have the same channels and
creation times. -/
theorem newestOfChannel_rel {calls calls' : CallTable} {P : CallRecord → CallRecord → Prop}
    (hchannel : ∀ row row', P row row' → row.channel = row'.channel)
    (hcreated : ∀ row row', P row row' → row.createdAt = row'.createdAt)
    (h : calls.RowWise P calls') (channel : String) :
    Option.Rel P (newestOfChannel calls channel) (newestOfChannel calls' channel) := by
  refine argmax_rel hcreated (List.rel_filter (R := P) (fun row row' hrow => ?_) h)
  simp only [hchannel row row' hrow]

/-- A change of rows that keeps channels and creation times does not change which row is found for
a channel. -/
theorem newestOfChannel_map {calls calls' : CallTable} {g : CallRecord → CallRecord}
    (hrows : calls'.rows = calls.rows.map g) (hchannel : ∀ row, (g row).channel = row.channel)
    (hcreated : ∀ row, (g row).createdAt = row.createdAt) (channel : String) :
    newestOfChannel calls' channel = (newestOfChannel calls channel).map g := by
  have hrel : calls.RowWise (fun row row' => row' = g row) calls' := by
    rw [Table.RowWise, hrows]
    exact List.forall₂_map_right_iff.2 (List.forall₂_same.2 fun _ _ => rfl)
  have h := newestOfChannel_rel (fun row _ h => (h ▸ hchannel row).symm)
    (fun row _ h => (h ▸ hcreated row).symm) hrel channel
  generalize newestOfChannel calls channel = x, newestOfChannel calls' channel = x' at h
  cases h with
  | none => rfl
  | some h => rw [h, Option.map_some]

end OtpVoice
