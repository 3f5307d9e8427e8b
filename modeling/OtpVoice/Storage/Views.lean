import OtpVoice.Storage.Rows

/-!
# What one request sees of the tables

The view of a request is its record and its timeline. A lookup by channel reads the records of all
requests; it is a function of the view as well, as long as the channels of the request are
`Separate` from those of the others.

- `Separate.exec`: a statement that binds channels accordingly keeps them separate.
- `view_exec_spares`: a statement about other requests keeps the view.
- `exec_about`: a statement about the request gives the same result and the same view on two stores
  that agree on the request.
-/

set_option autoImplicit false

namespace OtpVoice

/-- The record of a request and its timeline. -/
def Store.view (st : Store) (requestId : String) : Option CallRecord × List EventRow :=
  (st.calls.find requestId, st.events.filter fun ev => ev.requestId = requestId)

/-- The channels in `C` are channels of the request, and other channels are not. -/
def Separate (requestId : String) (C : String → Prop) (st : Store) : Prop :=
  ∀ key row, st.calls.find key = some row → ∀ channel, row.channel = some channel →
    (C channel ↔ key = requestId)

/-- The statement binds channels in `C` to the request, and other channels to other requests. -/
def Stmt.Separates (requestId : String) (C : String → Prop) : Stmt → Prop
  | .insertCall row => row.channel = none
  | .updateCall fields values key => ∀ channel,
    (Column.channel, SqlValue.text channel) ∈ fields.zip values → (C channel ↔ key = requestId)
  | _ => True

/-- A statement about other requests. -/
def Stmt.Spares (requestId : String) : Stmt → Prop
  | .insertCall row => row.requestId ≠ requestId
  | .updateCall _ _ key => key ≠ requestId
  | .incrementRetry _ key => key ≠ requestId
  | .insertEvent row => row.requestId ≠ requestId
  | .deleteExpired _ => False
  | .deleteOrphanEvents => False
  | _ => True

/-- A statement about the request, or a lookup of a channel in `C`. -/
def Stmt.About (requestId : String) (C : String → Prop) : Stmt → Prop
  | .insertCall row => row.requestId = requestId
  | .updateCall _ _ key => key = requestId
  | .incrementRetry _ key => key = requestId
  | .selectCall key => key = requestId
  | .selectByChannel channel => C channel
  | .insertEvent row => row.requestId = requestId
  | .selectEvents key => key = requestId
  | .deleteExpired _ => False
  | .deleteOrphanEvents => False

variable {st st' : Store} {s : Stmt} {requestId : String} {C : String → Prop}

/-! ## Separate channels -/

/-- The channel of an updated row is the old one or one of the bound values. -/
theorem updateRow_channel_cases {fields : List Column} {values : List SqlValue} {row : CallRecord}
    {channel : String} (h : (updateRow fields values row).channel = some channel) :
    row.channel = some channel ∨ (Column.channel, SqlValue.text channel) ∈ fields.zip values := by
  unfold updateRow at h
  generalize fields.zip values = l at h
  induction l generalizing row with
  | nil => exact .inl h
  | cons x xs ih =>
    rcases ih h with hrow | hmem
    · -- the first assignment leaves the channel as it is, or sets it
      obtain ⟨column, value⟩ := x
      unfold CallRecord.assign at hrow
      split at hrow
      case h_6 text heq =>
        cases heq
        obtain rfl := Option.some.inj hrow
        exact .inr List.mem_cons_self
      all_goals exact .inl hrow
    · exact .inr (List.mem_cons_of_mem _ hmem)

theorem Separate.exec (h : Separate requestId C st) (hs : s.Separates requestId C) :
    Separate requestId C (s.exec st).2 := by
  intro key row' hafter channel hchannel
  cases hbefore : st.calls.find key with
  | none =>
    -- a new record has no channel
    obtain rfl := find_exec_new hbefore hafter
    cases (show row'.channel = none from hs).symm.trans hchannel
  | some row =>
    rcases find_exec hbefore hafter with rfl | ⟨now, -, rfl⟩ | ⟨fields, values, rfl, rfl⟩
    · exact h key _ hbefore channel hchannel
    · exact h key row hbefore channel hchannel
    · rcases updateRow_channel_cases hchannel with hold | hnew
      · exact h key row hbefore channel hold
      · exact hs channel hnew

/-- The lookup of a separate channel reads the record of its request. -/
theorem newestOfChannel_separate (h : Separate requestId C st) {channel : String}
    (hchannel : C channel) : newestOfChannel st.calls channel =
      (st.calls.find requestId).filter fun row => row.channel = some channel := by
  apply newestOfChannel_of_owned
  intro row hfind hrow
  exact (h _ row hfind channel hrow).1 hchannel

/-! ## Statements about one request -/

theorem view_eq_iff : st'.view requestId = st.view requestId ↔
    st'.calls.find requestId = st.calls.find requestId ∧
      (st'.events.filter fun ev => ev.requestId = requestId) =
        st.events.filter fun ev => ev.requestId = requestId :=
  Prod.mk_inj

/-- A statement about other requests keeps the view. -/
theorem view_exec_spares (hs : s.Spares requestId) :
    (s.exec st).2.view requestId = st.view requestId := by
  rw [view_eq_iff]
  cases s with
  | insertCall row =>
    simp only [Stmt.exec]
    split
    · rename_i calls hinsert
      constructor
      · exact (Table.find_insert hinsert requestId).trans (if_neg hs)
      · rfl
    · exact ⟨rfl, rfl⟩
  | updateCall fields values key =>
    constructor
    · exact (st.calls.find_modify key (updateRow fields values) (updateRow_requestId fields values)
        requestId).trans (if_neg (Ne.symm hs))
    · rfl
  | incrementRetry now key =>
    constructor
    · exact (st.calls.find_modify key (CallRecord.retried now) (fun _ => rfl) requestId).trans
        (if_neg (Ne.symm hs))
    · rfl
  | insertEvent row =>
    constructor
    · rfl
    · have hother : ¬ row.requestId = requestId := hs
      simp [Stmt.exec, hother]
  | deleteExpired now => cases hs
  | deleteOrphanEvents => cases hs
  | _ => exact ⟨rfl, rfl⟩

/-- A statement about the request does the same on two stores that agree on it. -/
theorem exec_about (hs : s.About requestId C) (h : Separate requestId C st)
    (h' : Separate requestId C st') (hview : st'.view requestId = st.view requestId) :
    (s.exec st').1 = (s.exec st).1 ∧
      (s.exec st').2.view requestId = (s.exec st).2.view requestId := by
  obtain ⟨hfind, hevents⟩ := view_eq_iff.1 hview
  rw [view_eq_iff]
  cases s with
  | insertCall row =>
    obtain rfl : row.requestId = requestId := hs
    simp only [Stmt.exec]
    cases hinsert : st.calls.insert row with
    | some calls =>
      -- the key is free in both tables
      have hnew := (Table.insert_eq_some_iff.1 hinsert).1
      cases hinsert' : st'.calls.insert row with
      | some calls' =>
        refine ⟨rfl, ?_, hevents⟩
        rw [Table.find_insert hinsert, Table.find_insert hinsert', if_pos rfl, if_pos rfl]
      | none =>
        have hold := Table.find_isSome_of_insert_eq_none hinsert'
        rw [hfind, hnew] at hold
        cases hold
    | none =>
      have hold := Table.find_isSome_of_insert_eq_none hinsert
      cases hinsert' : st'.calls.insert row with
      | some calls' =>
        have hnew := (Table.insert_eq_some_iff.1 hinsert').1
        rw [← hfind, hnew] at hold
        cases hold
      | none => exact ⟨rfl, hfind, hevents⟩
  | updateCall fields values key =>
    obtain rfl : key = requestId := hs
    simp only [Stmt.exec, matched, Table.find_modify, hfind]
    exact ⟨trivial, trivial, hevents⟩
  | incrementRetry now key =>
    obtain rfl : key = requestId := hs
    refine ⟨?_, ?_, hevents⟩
    · simp only [Stmt.exec, matched, hfind]
    · have hretried : ∀ calls : CallTable, (calls.modify key (CallRecord.retried now)
          fun _ => rfl).find key = (calls.find key).map (CallRecord.retried now) := fun calls =>
        (calls.find_modify key (CallRecord.retried now) (fun _ => rfl) key).trans (if_pos rfl)
      exact (hretried st'.calls).trans ((congrArg _ hfind).trans (hretried st.calls).symm)
  | selectCall key =>
    obtain rfl : key = requestId := hs
    exact ⟨congrArg Except.ok hfind, hfind, hevents⟩
  | selectByChannel channel =>
    refine ⟨congrArg Except.ok ?_, hfind, hevents⟩
    show newestOfChannel st'.calls channel = newestOfChannel st.calls channel
    rw [newestOfChannel_separate h hs, newestOfChannel_separate h' hs, hfind]
  | insertEvent row =>
    refine ⟨rfl, hfind, ?_⟩
    simp only [Stmt.exec, List.filter_append, hevents]
  | selectEvents key =>
    obtain rfl : key = requestId := hs
    refine ⟨?_, hfind, hevents⟩
    simp only [Stmt.exec, hevents]
  | deleteExpired now => cases hs
  | deleteOrphanEvents => cases hs

/-! ## Deletions -/

/-- The deletion of expired records does the same to the views of two stores that agree on the
request. -/
theorem view_deleteExpired (now : Time) (hview : st'.view requestId = st.view requestId) :
    ((Stmt.deleteExpired now).exec st').2.view requestId =
      ((Stmt.deleteExpired now).exec st).2.view requestId := by
  obtain ⟨hfind, hevents⟩ := view_eq_iff.1 hview
  rw [view_eq_iff]
  constructor
  · simp only [Stmt.exec, Table.find_delete, hfind]
  · exact hevents

/-- The lines of a request stay if and only if its record is there. -/
theorem filter_orphans (st : Store) (requestId : String) :
    ((Stmt.deleteOrphanEvents).exec st).2.events.filter (fun ev => ev.requestId = requestId) =
      (st.events.filter fun ev => ev.requestId = requestId).filter
        fun _ => (st.calls.find requestId).isSome := by
  simp only [Stmt.exec, List.filter_filter]
  apply List.filter_congr
  intro ev _
  by_cases hid : ev.requestId = requestId
  · simp [hid]
  · simp [hid]

theorem view_deleteOrphanEvents (hview : st'.view requestId = st.view requestId) :
    ((Stmt.deleteOrphanEvents).exec st').2.view requestId =
      ((Stmt.deleteOrphanEvents).exec st).2.view requestId := by
  obtain ⟨hfind, hevents⟩ := view_eq_iff.1 hview
  rw [view_eq_iff]
  constructor
  · exact hfind
  · rw [filter_orphans, filter_orphans, hfind, hevents]

/-- Two stores that agree on a request, with its channels separate in both. -/
structure Agree (requestId : String) (C : String → Prop) (st st' : Store) : Prop where
  view : st'.view requestId = st.view requestId
  separate : Separate requestId C st
  separate' : Separate requestId C st'

end OtpVoice
