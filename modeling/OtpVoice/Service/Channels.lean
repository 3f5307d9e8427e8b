import OtpVoice.Ami.Handling
import OtpVoice.Service.Scope
import OtpVoice.Service.Turns

/-!
# Channels

The channel of a record is learnt from one message, its `OTPCallStart`; the handlers of `Newstate`
and `Hangup` find a record by its channel and drop every message on a channel that they do not know.

- `channel_step`: only a handled `OTPCallStart` changes the channel of a record.
- `channel_event_recorded_iff`: a `Newstate` or `Hangup` on the channel of a call is recorded if and
  only if an `OTPCallStart` has bound the channel to its record before.
- `unanswered_call_stays_originating`: a call that rings and is rejected is never recorded as such.
-/

set_option autoImplicit false

namespace OtpVoice

open Coroutine

/-! ## Statements that bind no channel -/

/-- A statement that binds no channel and puts only the given events into a timeline. -/
def Stmt.Plain (events : List EventName) : Stmt → Prop
  | .insertCall row => row.channel = none
  | .updateCall fields _ _ => .channel ∉ fields
  | .insertEvent row => row.event ∈ events
  | _ => True

/-- A command whose statement, if it has one, is plain. -/
def Cmd.Plain (events : List EventName) : Cmd → Prop
  | .execute s => s.Plain events
  | _ => True

/-- The events of a call that nobody has answered. -/
def quietEvents : List EventName :=
  [.queued, .originating, .originateResponse, .ringing, .hangup, .failed]

/-- The scope of the plain statements. -/
def Scope.plain (events : List EventName) : Scope where
  stmt := Stmt.Plain events
  drawn _ := True
  found _ := True
  reply _ := True

section Plain

variable {events : List EventName} {b : Bool}

theorem plain_covers (requestId : String) : (Scope.plain events).Covers requestId events where
  read := trivial
  update _ _ _ hu := channel_not_mem_updateFields hu
  event _ hevent _ _ := hevent

/-- A part that writes no record and no timeline. -/
theorem stays_plain {α : Type} {ks : List Kind} {p : Prog α} (hp : Touches ks p)
    (hks : ks.all (fun k => k ∉ [Kind.insertCall, .updateCall, .insertEvent, .reply]) = true) :
    Stays (Scope.plain events) (fun _ => True) p b := by
  refine Coro.Sat.of_uses (I := fun _ => True) ?_ hp trivial
  intro b' c r b'' hc _ _
  have hkind := of_decide_eq_true (List.all_eq_true.1 hks _ hc)
  refine ⟨?_, trivial⟩
  cases c with
  | execute s =>
    cases s <;> first
      | exact True.intro
      | exact absurd (by simp [Cmd.kind, Stmt.kind]) hkind
  | awaitReply => exact absurd (by decide) hkind
  | _ => trivial

/-- The scope allows every answer. -/
theorem plain_answers (b : Bool) (c : Cmd) (r : Except Exc c.Resp) :
    (Scope.plain events).Answers b c r (b || c.waitsForAsterisk) := by
  refine ⟨rfl, ?_⟩
  split
  · exact True.intro
  · exact fun _ _ _ => True.intro
  · exact True.intro
  · trivial

/-- The request id and the channel that an operation binds to each other. -/
def Op.binds : Op → Option (String × String)
  | .input (.amiEvent .userEvent message) => callStartOf message
  | _ => none

/-- Every operation other than an `OTPCallStart` keeps the channels of the records. An event that
shows an answer comes from a `Newstate` or a `UserEvent`. -/
theorem uses_plain (o : CallOriginator) {op : Op} (hop : op.binds = none)
    (hquiet : quietEvents ⊆ events)
    (hnewstate : ∀ message, op = .input (.amiEvent .newstate message) → .answered ∈ events)
    (huser : ∀ message, op = .input (.amiEvent .userEvent message) →
      ∀ d : DialplanEvent, d.line ∈ events) :
    Coro.Uses (Cmd.Plain events) (op.body o) := by
  suffices h : Stays (Scope.plain events) (fun _ => True) (op.body o) false by
    refine Coro.Sat.uses (P := Cmd.Plain events) .timeoutError ?_ ?_ h
    · intro b' c r
      exact ⟨_, plain_answers b' c r⟩
    · intro b' c r b'' hc
      cases c <;> first
        | exact hc
        | trivial
  have hmem : ∀ event ∈ quietEvents, event ∈ events := fun event h => hquiet h
  have hlog : ∀ level line (answer : Answer) b', Stays (Scope.plain events) (fun _ => True)
      (log level line >>= fun _ => pure answer) b' := fun level line answer b' =>
    (stays_plain (touches_log _ _) (by decide)).then fun _ _ => stays_pure _
  have hcreate : ∀ mobile code codeMasked parent b', Stays (Scope.plain events) (fun _ => True)
      (createCallRecord mobile code codeMasked parent) b' := fun mobile code codeMasked parent b' =>
    stays_createCallRecord (hmem .queued (by decide)) (fun row _ hrow => hrow)
      fun requestId _ => plain_covers requestId
  cases op with
  | execute task =>
    exact (stays_executeCall (fun event h => hquiet (by revert h; revert event; decide))
      (plain_covers _) fun _ _ requestId _ => plain_covers requestId).then fun _ _ => stays_pure _
  | input x =>
    cases x with
    | otpCall request =>
      exact (stays_plain (touches_checkLimits _) (by decide)).then fun _ _ =>
        (hcreate _ _ _ _ _).then fun _ _ => hlog _ _ _ _
    | retry requestId body =>
      apply (stays_plain (touches_getCallRecord _) (by decide)).then
      intro record _
      cases record with
      | none => trivial
      | some record =>
        apply (stays_plain (touches_nothing_raiseUnless _ _) (by decide)).then
        intro _ _
        apply (stays_plain (touches_nothing_raiseUnless _ _) (by decide)).then
        intro _ _
        exact (stays_plain (touches_checkLimits _) (by decide)).then fun _ _ =>
          (hcreate _ _ _ _ _).then fun _ _ =>
            (stays_plain (touches_incrementRetry _) (by decide)).then fun _ _ => hlog _ _ _ _
    | status requestId => exact stays_plain (touches_getCallStatus _) (by decide)
    | health => exact stays_plain touches_healthCheck (by decide)
    | cleanup =>
      exact (stays_plain touches_periodicCleanup (by decide)).then fun _ _ => stays_pure _
    | amiEvent kind message =>
      refine Stays.then ?_ fun _ _ => stays_pure _
      cases kind with
      | originateResponse =>
        exact stays_onOriginateResponse (hmem .originateResponse (by decide))
          fun requestId _ => plain_covers requestId
      | newchannel => exact stays_pure _
      | newstate =>
        exact stays_onNewState (hmem .ringing (by decide)) (hnewstate message rfl)
          (fun _ _ => trivial) fun row _ => plain_covers _
      | hangup =>
        exact stays_onHangup (hmem .hangup (by decide)) (fun _ _ => trivial)
          fun row _ => plain_covers _
      | userEvent =>
        apply stays_onUserEvent (huser message rfl) (fun requestId _ => plain_covers requestId)
        intro requestId channel hid hstart hchannel
        simp [Op.binds, callStartOf, hid, hstart, hchannel] at hop

end Plain

/-! ## Bindings -/

theorem updateRow_channel {fields : List Column} (h : .channel ∉ fields) (values : List SqlValue)
    (row : CallRecord) : (updateRow fields values row).channel = row.channel := by
  have hzip : ∀ x ∈ fields.zip values, x.1 ≠ Column.channel := by
    rintro ⟨column, value⟩ hx rfl
    exact h (List.of_mem_zip hx).1
  unfold updateRow
  generalize fields.zip values = l at hzip
  induction l generalizing row with
  | nil => rfl
  | cons x xs ih =>
    rw [List.foldl_cons, ih _ fun y hy => hzip y (List.mem_cons_of_mem _ hy)]
    have hx := hzip x List.mem_cons_self
    unfold CallRecord.assign
    split <;> first
      | rfl
      | exact absurd rfl hx

/-- A plain statement keeps the channel of a record, and creates records without one. -/
theorem channel_exec {st : Store} {s : Stmt} {events : List EventName} (hs : s.Plain events)
    {requestId : String} {row' : CallRecord}
    (hafter : (s.exec st).2.calls.find requestId = some row') :
    row'.channel = (st.calls.find requestId).bind CallRecord.channel := by
  cases hbefore : st.calls.find requestId with
  | none =>
    obtain rfl := find_exec_new hbefore hafter
    exact hs
  | some row =>
    rcases find_exec hbefore hafter with rfl | ⟨now, -, rfl⟩ | ⟨fields, values, rfl, rfl⟩
    · rfl
    · rfl
    · exact updateRow_channel hs values row

section Runs

variable {o : CallOriginator} {w₀ : World} {acts : List Turn} {k : ℕ}

variable (o w₀ acts) in
/-- The `k`-th decision of a run handles an `OTPCallStart` that binds a request id and a channel
to each other; the record is there and in progress, and neither its `SELECT` nor its `UPDATE`
raises. -/
def Binds (k : ℕ) (requestId channel : String) : Prop :=
  ∃ message e, Handles o w₀ acts k (.amiEvent .userEvent message) e ∧
    callStartOf message = some (requestId, channel) ∧ e.fault 0 = none ∧ e.fault 2 = none ∧
    ∃ row, rowAt o w₀ acts k requestId = some row ∧ row.status.terminal = false

theorem goesBack_answered (status : Status) : status.goesBack .answered = status.terminal := by
  cases status <;> rfl

/-- An `OTPCallStart` writes the status and the channel of its record, unless the record is missing
or has ended, or its statements raise. -/
theorem rowAt_callStart (hkeeps : NoRollbacks acts) {message : Message} {e : Env}
    {requestId channel : String}
    (h : Handles o w₀ acts k (.amiEvent .userEvent message) e)
    (hstart : callStartOf message = some (requestId, channel)) (key : String) :
    rowAt o w₀ acts (k + 1) key =
      if e.fault 0 = none ∧ e.fault 2 = none ∧ key = requestId then
        (rowAt o w₀ acts k key).map
          (CallRecord.guarded .answered (e.now 1) { channel := some channel })
      else rowAt o w₀ acts k key := by
  obtain ⟨hd, hid, hchannel⟩ := callStartOf_eq_some_iff.1 hstart
  obtain ⟨r, m, st, cm, hrun, hcalls, -⟩ := complete_onUserEvent e
    ((sequential o).confAt w₀ acts k).world hid hd
  rw [rowAt, storeAt, h.dispatch hrun]
  show st.calls.find key = _
  rw [hcalls channel rfl hchannel (h.noRollback hkeeps)]
  by_cases hfault : e.fault 0 = none ∧ e.fault 2 = none
  · rw [if_pos hfault, Store.find_updateStatus]
    simp only [hfault, true_and]
    rfl
  · rw [if_neg hfault, if_neg fun h => hfault ⟨h.1, h.2.1⟩]
    rfl

/-- A turn of an operation that binds no channel keeps the channels, command by command. -/
theorem channel_turn (hkeeps : NoRollbacks acts) {requestId : String} {row' : CallRecord}
    {i : ℕ} {e : Env} {op : Op} (hact : acts[k]? = some (.turn i e))
    (hop : turnOp o w₀ acts k = some op) (hbinds : op.binds = none)
    (hafter : rowAt o w₀ acts (k + 1) requestId = some row') :
    row'.channel = (rowAt o w₀ acts k requestId).bind CallRecord.channel := by
  have hend := turn_rule hkeeps (n := ((sequential o).confAt w₀ acts (k + 1)).trace.length)
    (P := Cmd.Plain (quietEvents ++ answeredEvents))
    (I := fun n => ∀ row, (storeAfter o w₀ acts (k + 1) n).calls.find requestId = some row →
      row.channel = (rowAt o w₀ acts k requestId).bind CallRecord.channel) hact ?_ ?_ ?_ ?_
    (within_end hact)
  · rw [storeAfter_end] at hend
    exact hend row' hafter
  · intro op' hop'
    cases hop.symm.trans hop'
    exact uses_plain o hbinds (List.subset_append_left _ _) (fun _ _ => by decide)
      fun _ _ d => by cases d <;> decide
  · intro row hrow
    rw [storeAfter_start hact] at hrow
    rw [rowAt, hrow]
    rfl
  · intro n hstore ih row hrow
    rw [hstore] at hrow
    exact ih row hrow
  · intro n s hn _ hs hstore ih row hrow
    rw [hstore] at hrow
    rw [channel_exec hs hrow]
    cases hfind : (storeAfter o w₀ acts (k + 1) n).calls.find requestId with
    | some row₁ => exact ih row₁ hfind
    | none =>
      -- the record is new in this turn
      cases hbefore : rowAt o w₀ acts k requestId with
      | none => rfl
      | some row₀ =>
        have hexists := exists_in_turn hkeeps hact (by rw [hbefore]; rfl) (by rw [hafter]; rfl) hn
        rw [hfind] at hexists
        cases hexists

/-- Only a binding changes the channel of a record, and a new record has none. -/
theorem channel_step (hkeeps : NoRollbacks acts) {requestId : String} {row' : CallRecord}
    (hafter : rowAt o w₀ acts (k + 1) requestId = some row') :
    row'.channel = (rowAt o w₀ acts k requestId).bind CallRecord.channel ∨
      ∃ channel, Binds o w₀ acts k requestId channel ∧ row'.channel = some channel := by
  rcases turn_cases o w₀ acts k with hkeep | ⟨x, e, hx⟩ | ⟨i, e, task, hact, hop⟩
  · left
    rw [rowAt, hkeep] at hafter
    rw [rowAt, hafter]
    rfl
  · obtain ⟨i, hact, -⟩ := id hx
    cases hbinds : (Op.input x).binds with
    | none => exact .inl (channel_turn hkeeps hact hx.turnOp hbinds hafter)
    | some y =>
      -- an `OTPCallStart`: the record is its own and gets the channel, or nothing happens
      cases x with
      | amiEvent kind message =>
        cases kind with
        | userEvent =>
          obtain ⟨requestId', channel⟩ := y
          have hstart : callStartOf message = some (requestId', channel) := hbinds
          rw [rowAt_callStart hkeeps hx hstart] at hafter
          split at hafter
          · rename_i hfault
            obtain ⟨row, hrow, rfl⟩ := Option.map_eq_some_iff.1 hafter
            rw [hrow]
            unfold CallRecord.guarded
            rw [goesBack_answered]
            cases hstatus : row.status.terminal with
            | true =>
              -- `update_call_status` refuses to revive a record that has ended
              exact .inl rfl
            | false =>
              refine .inr ⟨channel,
                ⟨message, e, hx, ?_, hfault.1, hfault.2.1, row, hrow, hstatus⟩, rfl⟩
              rw [hstart, hfault.2.2]
          · rw [hafter]
            exact .inl rfl
        | _ => cases hbinds
      | _ => cases hbinds
  · exact .inl (channel_turn hkeeps hact hop rfl hafter)

variable (o w₀ acts) in
/-- An `OTPCallStart` before the `k`-th decision has bound the request id and the channel, and the
record has been there since. -/
def Bound (k : ℕ) (requestId channel : String) : Prop :=
  ∃ j < k, Binds o w₀ acts j requestId channel ∧
    ∀ l, j < l → l ≤ k → (rowAt o w₀ acts l requestId).isSome = true

variable (o w₀ acts) in
/-- In this run Asterisk uses the channel for the request, and no other channel. -/
def UsesChannel (requestId channel : String) : Prop :=
  ∀ k message e, Handles o w₀ acts k (.amiEvent .userEvent message) e →
    ∀ x, callStartOf message = some x → (x.1 = requestId ↔ x.2 = channel)

theorem Bound.succ {requestId channel : String} (h : Bound o w₀ acts k requestId channel)
    (hafter : (rowAt o w₀ acts (k + 1) requestId).isSome = true) :
    Bound o w₀ acts (k + 1) requestId channel := by
  obtain ⟨j, hj, hbinds, hexists⟩ := h
  refine ⟨j, Nat.lt_succ_of_lt hj, hbinds, ?_⟩
  intro l hjl hl
  rcases Nat.le_succ_iff.1 hl with hl | rfl
  · exact hexists l hjl hl
  · exact hafter

theorem Binds.bound {requestId channel : String} (h : Binds o w₀ acts k requestId channel)
    (hafter : (rowAt o w₀ acts (k + 1) requestId).isSome = true) :
    Bound o w₀ acts (k + 1) requestId channel := by
  refine ⟨k, Nat.lt_succ_self k, h, ?_⟩
  intro l hkl hl
  rw [Nat.le_antisymm hl hkl]
  exact hafter

/-- A record has a channel only if an `OTPCallStart` has bound it. -/
theorem bound_of_channel (hkeeps : NoRollbacks acts)
    (hw₀ : ∀ row ∈ w₀.store.calls.rows, row.channel = none) {requestId channel : String}
    {row : CallRecord} (hrow : rowAt o w₀ acts k requestId = some row)
    (hchannel : row.channel = some channel) : Bound o w₀ acts k requestId channel := by
  induction k generalizing row with
  | zero =>
    have hnone := hw₀ row (Table.find_eq_some_iff.1 hrow).1
    cases hnone.symm.trans hchannel
  | succ k ih =>
    have hafter : (rowAt o w₀ acts (k + 1) requestId).isSome = true := by
      rw [hrow]
      rfl
    rcases channel_step hkeeps hrow with hkept | ⟨channel', hbinds, hnew⟩
    · cases hbefore : rowAt o w₀ acts k requestId with
      | none =>
        rw [hbefore] at hkept
        cases hkept.symm.trans hchannel
      | some row₀ =>
        rw [hbefore] at hkept
        exact (ih hbefore (hkept.symm.trans hchannel)).succ hafter
    · cases hnew.symm.trans hchannel
      exact hbinds.bound hafter

/-- A record that has been bound to the only channel of its call has this channel. -/
theorem channel_of_bound (hkeeps : NoRollbacks acts) {requestId channel : String}
    (huses : UsesChannel o w₀ acts requestId channel)
    (hbound : Bound o w₀ acts k requestId channel) {row : CallRecord}
    (hrow : rowAt o w₀ acts k requestId = some row) : row.channel = some channel := by
  obtain ⟨j, hj, ⟨message, e, hx, hstart, hselect, hupdate, row₀, hrow₀, hstatus⟩, hexists⟩ :=
    hbound
  apply Table.row_induction (t := fun l => (storeAt o w₀ acts l).calls) hj hexists _ _ hrow
  · intro r hr
    have hbound := rowAt_callStart hkeeps hx hstart requestId
    rw [if_pos ⟨hselect, hupdate, rfl⟩, hrow₀] at hbound
    obtain rfl := Option.some.inj (hr.symm.trans hbound)
    unfold CallRecord.guarded
    rw [goesBack_answered, hstatus]
    rfl
  · intro l r r' _ _ hr hr' hchannel
    rcases channel_step hkeeps hr' with hkept | ⟨channel', ⟨message', e', hx', hstart', -⟩, hnew⟩
    · rw [hkept, rowAt, hr]
      exact hchannel
    · -- a later `OTPCallStart` of the request carries the same channel
      exact hnew.trans (congrArg some ((huses l message' e' hx' _ hstart').1 rfl))

/-- The lookup by channel finds the record of the only request that uses the channel. -/
theorem newestOfChannel_of_bound (hkeeps : NoRollbacks acts)
    (hw₀ : ∀ row ∈ w₀.store.calls.rows, row.channel = none) {requestId channel : String}
    (huses : UsesChannel o w₀ acts requestId channel)
    (hbound : Bound o w₀ acts k requestId channel) {row : CallRecord}
    (hrow : rowAt o w₀ acts k requestId = some row) :
    newestOfChannel (storeAt o w₀ acts k).calls channel = some row := by
  have hchannel := channel_of_bound hkeeps huses hbound hrow
  have howned : ∀ row', (storeAt o w₀ acts k).calls.find row'.requestId = some row' →
      row'.channel = some channel → row'.requestId = requestId := by
    intro row' hfind hchannel'
    obtain ⟨j, -, ⟨message, e, hx, hstart, -⟩, -⟩ := bound_of_channel hkeeps hw₀ hfind hchannel'
    exact (huses j message e hx _ hstart).2 rfl
  rw [newestOfChannel_of_owned howned, show (storeAt o w₀ acts k).calls.find requestId = some row
    from hrow, Option.filter_some, if_pos (decide_eq_true hchannel)]

/-! ## Recorded messages -/

/-- What a `Newstate` or a `Hangup` is to leave on the record of its channel: a line in its
timeline, and its status. -/
def channelReport : EventKind → Message → Option (EventName × (Status → Status))
  | .newstate, message => (stateStatus message).map fun x =>
    (x.2, fun status => if status.goesBack x.1 then status else x.1)
  | .hangup, message => some (.hangup, fun status =>
    if status.terminal then status else hangupStatus (causeInt message) status)
  | _, _ => none

variable (o w₀ acts) in
/-- The `k`-th decision of a run puts the event into the timeline of the record, and gives it the
status that the message asks for. -/
def Records (k : ℕ) (requestId : String) (report : EventName × (Status → Status)) : Prop :=
  (∃ detail now, (storeAt o w₀ acts (k + 1)).events =
    (storeAt o w₀ acts k).events ++ [⟨requestId, report.1, detail, now⟩]) ∧
  (rowAt o w₀ acts (k + 1) requestId).map CallRecord.status =
    (rowAt o w₀ acts k requestId).map fun row => report.2 row.status

theorem records_of_store {requestId : String} {report : EventName × (Status → Status)}
    {detail : Option String} {now : Time} {st : Store}
    (hafter : storeAt o w₀ acts (k + 1) = st.withEvent ⟨requestId, report.1, detail, now⟩)
    (hevents : st.events = (storeAt o w₀ acts k).events)
    (hstatus : (st.calls.find requestId).map CallRecord.status =
      (rowAt o w₀ acts k requestId).map fun row => report.2 row.status) :
    Records o w₀ acts k requestId report := by
  constructor
  · exact ⟨detail, now, by rw [hafter, Store.withEvent, hevents]⟩
  · rw [rowAt, hafter]
    exact hstatus

theorem CallRecord.guarded_status (status : Status) (now : Time) (u : StatusFields)
    (row : CallRecord) : (row.guarded status now u).status =
      if row.status.goesBack status then row.status else status := by
  unfold CallRecord.guarded
  split <;> rfl

theorem Status.goesBack_of_not_terminal {old : Status} (h : old.terminal = false) (new : Status) :
    old.goesBack new = false := by
  simp only [Status.goesBack, h, Bool.false_and]

/-- What the handler of a `Newstate` or a `Hangup` leaves on the record that it finds. -/
theorem records_of_found (hkeeps : NoRollbacks acts) {kind : EventKind} {message : Message}
    {e : Env} {channel : String} (h : Handles o w₀ acts k (.amiEvent kind message) e)
    (he : ∀ n, e.fault n = none) (hchannel : orText (message.get .channel) none = some channel)
    {report : EventName × (Status → Status)} (hreport : channelReport kind message = some report)
    {row : CallRecord} (hrow : newestOfChannel (storeAt o w₀ acts k).calls channel = some row) :
    Records o w₀ acts k row.requestId report := by
  have hfind : rowAt o w₀ acts k row.requestId = some row := (mem_of_newestOfChannel hrow).1
  cases kind with
  | newstate =>
    obtain ⟨⟨status, event⟩, hstate, rfl⟩ := Option.map_eq_some_iff.1 hreport
    obtain ⟨r, m, st, cm, hrun, hok, hcalm⟩ := complete_onNewState e hchannel hrow hstate
    -- nothing raises, so both the status and the line are written
    obtain ⟨t, now, rfl⟩ := hok (hcalm ⟨he, (h.noRollback hkeeps).commit⟩)
    refine records_of_store (congrArg World.store (h.dispatch hrun))
      (Store.events_updateStatus ..) ?_
    rw [Store.find_updateStatus, if_pos rfl]
    show ((rowAt o w₀ acts k row.requestId).map _).map _ = _
    simp only [hfind, Option.map_some, CallRecord.guarded_status]
  | hangup =>
    cases hreport
    obtain ⟨m, detail, now, t, cm, hrun⟩ :=
      complete_onHangup e ⟨he, (h.noRollback hkeeps).commit⟩ hchannel hrow
    have hafter := congrArg World.store (h.dispatch hrun)
    cases hterminal : row.status.terminal with
    | true =>
      -- the handler writes its line and leaves the status
      simp only [hterminal, if_true] at hafter
      refine records_of_store hafter rfl ?_
      show (rowAt o w₀ acts k row.requestId).map _ = _
      simp only [hfind, Option.map_some, hterminal, if_true]
    | false =>
      simp only [hterminal, Bool.false_eq_true, if_false, Store.withEvent_updateStatus] at hafter
      refine records_of_store hafter (Store.events_updateStatus ..) ?_
      rw [Store.find_updateStatus, if_pos rfl]
      show ((rowAt o w₀ acts k row.requestId).map _).map _ = _
      simp only [hfind, Option.map_some, CallRecord.guarded_status, hterminal, Bool.false_eq_true,
        if_false, Status.goesBack_of_not_terminal hterminal]
  | originateResponse => cases hreport
  | newchannel => cases hreport
  | userEvent => cases hreport

/-- A message on a channel that no record has leaves the tables as they are. -/
theorem storeAt_of_not_found {kind : EventKind} {message : Message} {e : Env} {channel : String}
    (h : Handles o w₀ acts k (.amiEvent kind message) e) (he : ∀ n, e.fault n = none)
    (hchannel : orText (message.get .channel) none = some channel)
    {report : EventName × (Status → Status)} (hreport : channelReport kind message = some report)
    (hrow : newestOfChannel (storeAt o w₀ acts k).calls channel = none) :
    storeAt o w₀ acts (k + 1) = storeAt o w₀ acts k := by
  have hrun : (dispatch kind message).complete (World.respond e) 0
      ((sequential o).confAt w₀ acts k).world =
        (.ok (), 1, ((sequential o).confAt w₀ acts k).world) := by
    cases kind with
    | newstate =>
      simp only [dispatch, onNewState, hchannel, complete_getCallByChannel_bind, he]
      rw [show newestOfChannel ((sequential o).confAt w₀ acts k).world.store.calls channel = none
        from hrow]
      rfl
    | hangup =>
      simp only [dispatch, onHangup, hchannel, complete_getCallByChannel_bind, he]
      rw [show newestOfChannel ((sequential o).confAt w₀ acts k).world.store.calls channel = none
        from hrow]
      rfl
    | originateResponse => cases hreport
    | newchannel => cases hreport
    | userEvent => cases hreport
  exact congrArg World.store (h.dispatch hrun)

/-- In every run in which nothing rolls back, a `Newstate` or a `Hangup` on the only channel of a
call, handled without a database exception, is recorded if and only if an `OTPCallStart` has bound
the channel to the record of the call before. -/
theorem channel_event_recorded_iff (o : CallOriginator) (w₀ : World) (acts : List Turn)
    (hkeeps : NoRollbacks acts)
    (hw₀ : ∀ row ∈ w₀.store.calls.rows, row.channel = none) {requestId channel : String}
    (huses : UsesChannel o w₀ acts requestId channel) {k : ℕ} {kind : EventKind} {message : Message}
    {e : Env} (h : Handles o w₀ acts k (.amiEvent kind message) e) (he : ∀ n, e.fault n = none)
    (hchannel : orText (message.get .channel) none = some channel)
    {report : EventName × (Status → Status)} (hreport : channelReport kind message = some report)
    (hexists : (rowAt o w₀ acts k requestId).isSome = true) :
    Records o w₀ acts k requestId report ↔ Bound o w₀ acts k requestId channel := by
  obtain ⟨row, hrow⟩ := Option.isSome_iff_exists.1 hexists
  constructor
  · intro hrecords
    cases hnewest : newestOfChannel (storeAt o w₀ acts k).calls channel with
    | none =>
      obtain ⟨⟨detail, now, hline⟩, -⟩ := hrecords
      rw [storeAt_of_not_found h he hchannel hreport hnewest] at hline
      -- no record is found, so no line is added
      have hlength := congrArg List.length hline
      simp at hlength
    | some row' =>
      -- the line is in the timeline of the record that the handler finds
      obtain ⟨⟨detail, now, hline⟩, -⟩ := hrecords
      obtain ⟨⟨detail', now', hline'⟩, -⟩ :=
        records_of_found hkeeps h he hchannel hreport hnewest
      have hlast := List.append_cancel_left (hline.symm.trans hline')
      obtain rfl : requestId = row'.requestId :=
        congrArg EventRow.requestId (List.singleton_inj.1 hlast)
      obtain ⟨hfind, hchannel'⟩ := mem_of_newestOfChannel hnewest
      exact bound_of_channel hkeeps hw₀ hfind hchannel'
  · intro hbound
    obtain rfl : row.requestId = requestId := (Table.find_eq_some_iff.1 hrow).2
    exact records_of_found hkeeps h he hchannel hreport
      (newestOfChannel_of_bound hkeeps hw₀ huses hbound hrow)

end Runs

/-- The channel of a call is bound when it is hung up. -/
def boundRun : List Turn :=
  startedRun ++ [.arrive (.amiEvent .hangup (hangup sampleChannel "16")),
    .turn 3 (.calm 3 firstId [])]

theorem usesChannel_of_arrivals {o : CallOriginator} {w₀ : World} {acts : List Turn}
    {requestId channel : String}
    (h : ∀ message, Act.arrive (.amiEvent .userEvent message) ∈ acts →
      ∀ x, callStartOf message = some x → (x.1 = requestId ↔ x.2 = channel)) :
    UsesChannel o w₀ acts requestId channel :=
  fun _ message _ hx => h message hx.arrived

theorem channel_event_recorded_iff_bound :
    let report := (EventName.hangup, fun status : Status =>
      if status.terminal then status
      else hangupStatus (causeInt (hangup sampleChannel "16")) status)
    Records sampleOriginator sampleWorld boundRun 6 firstId.text report ↔
      Bound sampleOriginator sampleWorld boundRun 6 firstId.text sampleChannel := by
  intro report
  have huses : UsesChannel sampleOriginator sampleWorld boundRun firstId.text sampleChannel := by
    apply usesChannel_of_arrivals
    intro message hmem x hx
    simp only [boundRun, startedRun, waitingRun, List.cons_append, List.nil_append, List.mem_cons,
      List.not_mem_nil, or_false, reduceCtorEq, false_or, Act.arrive.injEq, Input.amiEvent.injEq,
      true_and, false_and] at hmem
    subst hmem
    cases hx
    exact ⟨fun _ => rfl, fun _ => rfl⟩
  have hhandles : Handles sampleOriginator sampleWorld boundRun 6
      (.amiEvent .hangup (hangup sampleChannel "16")) (.calm 3 firstId []) := ⟨3, rfl, rfl⟩
  refine channel_event_recorded_iff sampleOriginator sampleWorld boundRun
    (by simp [boundRun, startedRun, waitingRun]) ?_ huses hhandles (fun _ => rfl) ?_ ?_ ?_
  · decide
  · decide
  · rfl
  · decide +kernel

/-- A call whose action is accepted, which rings, and whose channel is hung up before the dialplan
starts. -/
def unansweredRun (cause : String) : List Turn :=
  waitingRun ++ [.turn 1 (.calm 2 firstId [success]),
    .arrive (.amiEvent .newstate (ringing sampleChannel)), .turn 2 (.calm 3 firstId []),
    .arrive (.amiEvent .hangup (hangup sampleChannel cause)), .turn 3 (.calm 4 firstId [])]

/-- The action of the call is accepted, its two messages are handled, and neither leaves a trace. -/
def NeverRecorded (cause : String) : Prop :=
  let acts := unansweredRun cause
  let st := storeAt sampleOriginator sampleWorld acts acts.length
  ((sequential sampleOriginator).run (Config.initial sampleWorld) acts).outcome 1 =
      some (.execute ⟨firstId.text, "09120000000", "1234", 2⟩, .ok .finished) ∧
    Handles sampleOriginator sampleWorld acts 5 (.amiEvent .newstate (ringing sampleChannel))
      (.calm 3 firstId []) ∧
    Handles sampleOriginator sampleWorld acts 7 (.amiEvent .hangup (hangup sampleChannel cause))
      (.calm 4 firstId []) ∧
    st.events.map EventRow.event = [.queued, .originating] ∧
    (st.calls.find firstId.text).map CallRecord.status = some .originating

/-- A call that rings and is rejected, or whose destination is out of order, never leaves the status
`originating`, and its timeline shows neither. -/
theorem unanswered_call_stays_originating : NeverRecorded "21" ∧ NeverRecorded "27" := by
  constructor
  · exact ⟨by decide +kernel, ⟨2, rfl, rfl⟩, ⟨3, rfl, rfl⟩, by decide +kernel, by decide +kernel⟩
  · exact ⟨by decide +kernel, ⟨2, rfl, rfl⟩, ⟨3, rfl, rfl⟩, by decide +kernel, by decide +kernel⟩

end OtpVoice
