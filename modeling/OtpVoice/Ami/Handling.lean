import OtpVoice.Ami.EventHandler
import OtpVoice.Storage.Rows

/-!
# Event handlers run alone

What the functions of the database and the event handlers do to the tables when nothing runs between
their commands.

- `Store.updateStatus` is the guarded update of `update_call_status`, and
  `complete_updateCallStatus` says when it takes place.
- `complete_onNewState`, `complete_onHangup` and `complete_onUserEvent` are the handlers of a
  message about a record.
- `onNewState_returns` and `onUserEvent_returns` say what a handler that returns has done.
-/

set_option autoImplicit false

namespace OtpVoice

open Coroutine

/-- The row that `update_call_status` leaves behind. -/
def CallRecord.guarded (status : Status) (now : Time) (u : StatusFields) (row : CallRecord) :
    CallRecord :=
  if row.status.goesBack status then row else row.updated status now u

/-- The tables after `update_call_status`. -/
def Store.updateStatus (st : Store) (requestId : String) (status : Status) (now : Time)
    (u : StatusFields) : Store :=
  match st.calls.find requestId with
  | none => st
  | some row =>
    if row.status.goesBack status then st
    else (Stmt.exec st (.updateCall (updateFields u) (updateValues status now u) requestId)).2

theorem Store.events_updateStatus (st : Store) (requestId : String) (status : Status) (now : Time)
    (u : StatusFields) : (st.updateStatus requestId status now u).events = st.events := by
  unfold Store.updateStatus
  split
  · rfl
  · split <;> rfl

/-- The rows after `update_call_status`: the guarded update of the rows of one key. -/
theorem Store.rows_updateStatus (st : Store) (requestId : String) (status : Status) (now : Time)
    (u : StatusFields) :
    (st.updateStatus requestId status now u).calls.rows =
      st.calls.rows.map fun r =>
        if r.requestId = requestId then r.guarded status now u else r := by
  unfold Store.updateStatus
  cases hrow : st.calls.find requestId with
  | none =>
    -- no row has the key
    have hsame : ∀ r ∈ st.calls.rows,
        (if r.requestId = requestId then r.guarded status now u else r) = r := by
      intro r hr
      rw [if_neg (Table.find_eq_none_iff.1 hrow r hr)]
    exact ((List.map_congr_left hsame).trans (List.map_id _)).symm
  | some row =>
    rw [Table.map_at_key hrow]
    simp only [CallRecord.guarded]
    split
    · exact (Table.map_at_key_self hrow).symm
    · rw [← updateRow_eq_updated status now u row]
      exact Table.map_at_key hrow (updateRow (updateFields u) (updateValues status now u))

theorem Store.find_updateStatus (st : Store) (requestId : String) (status : Status) (now : Time)
    (u : StatusFields) (key : String) :
    (st.updateStatus requestId status now u).calls.find key =
      if key = requestId then (st.calls.find key).map (CallRecord.guarded status now u)
      else st.calls.find key := by
  have hupdate : updateRow (updateFields u) (updateValues status now u) =
      fun row => row.updated status now u := funext (updateRow_eq_updated status now u)
  by_cases hkey : key = requestId
  · subst hkey
    rw [if_pos rfl]
    unfold Store.updateStatus
    cases hrow : st.calls.find key with
    | none => simpa using hrow
    | some row =>
      simp only [Option.map_some, CallRecord.guarded]
      split
      · exact hrow
      · simp only [Stmt.exec, Table.find_modify, if_true, hrow, Option.map_some, hupdate]
  · rw [if_neg hkey]
    unfold Store.updateStatus
    split
    · rfl
    · split
      · rfl
      · simp only [Stmt.exec, Table.find_modify, if_neg hkey]

section Alone

variable {α β : Type} {e : Env} {n : ℕ} {w : World}

/-- A statement before the rest. -/
theorem complete_execute_bind {s : Stmt} {r : s.Result} {st : Store}
    (hexec : s.exec w.store = (.ok r, st)) (f : s.Result → Prog β) :
    (execute s >>= f).complete (World.respond e) n w =
      match e.fault n with
      | some text => (.error (.other text), n + 1, w.undo e n s)
      | none => (f r).complete (World.respond e) (n + 1) { w with store := st } := by
  refine (complete_issue_bind e (.execute s) f n w).trans ?_
  cases hfault : e.fault n with
  | some text => rw [World.respond_fault hfault]
  | none =>
    rw [World.respond_execute hfault]
    simp only [World.answer, hexec]

theorem complete_time_bind (f : Time → Prog β) :
    (time >>= f).complete (World.respond e) n w =
      (f (e.now n)).complete (World.respond e) (n + 1) w := by
  refine (complete_issue_bind e .time f n w).trans ?_
  rw [World.respond_of_not_mayRaise rfl]
  rfl

/-- A commit before the rest: an exception takes the tables back to those of the last commit. -/
theorem complete_commit_bind (f : Unit → Prog β) :
    (commit >>= f).complete (World.respond e) n w =
      match e.commitFault n with
      | some text => (.error (.other text), n + 1, w.rollback)
      | none => (f ()).complete (World.respond e) (n + 1) { w with committed := w.store } := by
  refine (complete_issue_bind e .commit f n w).trans ?_
  cases hfault : e.commitFault n with
  | some text => rw [World.respond_commitFault hfault]
  | none => rw [World.respond_commit hfault]

theorem complete_commit (e : Env) (n : ℕ) (w : World) :
    commit.complete (World.respond e) n w =
      match e.commitFault n with
      | some text => (.error (.other text), n + 1, w.rollback)
      | none => (.ok (), n + 1, { w with committed := w.store }) := by
  show ((World.respond e n w .commit).1, n + 1, (World.respond e n w .commit).2) = _
  cases hfault : e.commitFault n with
  | some text =>
    rw [World.respond_commitFault hfault]
    rfl
  | none =>
    rw [World.respond_commit hfault]
    rfl

/-! ## The functions of the database -/

/-- The tables with one more line in a timeline. -/
def Store.withEvent (st : Store) (row : EventRow) : Store :=
  { st with events := st.events ++ [row] }

theorem Store.withEvent_updateStatus (st : Store) (row : EventRow) (requestId : String)
    (status : Status) (now : Time) (u : StatusFields) :
    (st.withEvent row).updateStatus requestId status now u =
      (st.updateStatus requestId status now u).withEvent row := by
  simp only [Store.updateStatus, Store.withEvent]
  cases st.calls.find requestId with
  | none => rfl
  | some old =>
    dsimp only
    split <;> rfl

/-- `add_event` keeps the records if nothing rolls back. When it returns, its line is in the
timeline; without exceptions it returns. -/
theorem complete_addEvent (e : Env) (requestId : String) (event : EventName)
    (detail : Option String) (n : ℕ) (w : World) :
    ∃ r m st cm, (addEvent requestId event detail).complete (World.respond e) n w =
        (r, m, { w with store := st, committed := cm }) ∧
      (e.NoRollback → st.calls = w.store.calls) ∧
      (r = .ok () → st = w.store.withEvent ⟨requestId, event, detail, e.now n⟩) ∧
      (e.Calm → r = .ok ()) := by
  have hinsert : (addEvent requestId event detail).complete (World.respond e) n w = _ :=
    (complete_time_bind _).trans (complete_execute_bind rfl _)
  rw [hinsert]
  cases hfault : e.fault (n + 1) with
  | some text =>
    refine ⟨_, _, _, w.committed, rfl, ?_, ?_, ?_⟩
    · intro h
      exact congrArg (fun w => w.store.calls) (h.undo hfault w _)
    · intro h
      cases h
    · intro h
      cases (h.1 (n + 1)).symm.trans hfault
  | none =>
    simp only [complete_commit]
    cases hcommit : e.commitFault (n + 1 + 1) with
    | some text =>
      refine ⟨_, _, _, _, rfl, ?_, ?_, ?_⟩
      · intro h
        cases (h.commit (n + 1 + 1)).symm.trans hcommit
      · intro h
        cases h
      · intro h
        cases (h.2 (n + 1 + 1)).symm.trans hcommit
    | none => exact ⟨_, _, _, _, rfl, fun _ => rfl, fun _ => rfl, fun _ => rfl⟩

/-- The update of `update_call_status` takes place unless its `SELECT` or its `UPDATE` raises, if
nothing rolls back; the timelines stay as they are. -/
theorem complete_updateCallStatus (e : Env) (requestId : String) (status : Status)
    (u : StatusFields) (n : ℕ) (w : World) :
    ∃ r m st cm, (updateCallStatus requestId status u).complete (World.respond e) n w =
        (r, m, { w with store := st, committed := cm }) ∧
      (e.NoRollback → st = (if e.fault n = none ∧ e.fault (n + 2) = none then
        w.store.updateStatus requestId status (e.now (n + 1)) u else w.store)) ∧
      (∀ b, r = .ok b → st = w.store.updateStatus requestId status (e.now (n + 1)) u) ∧
      (e.Calm → ∃ b, r = .ok b) := by
  have hselect : (updateCallStatus requestId status u).complete (World.respond e) n w = _ :=
    complete_execute_bind (s := .selectCall requestId) rfl _
  rw [hselect]
  cases hfault : e.fault n with
  | some text =>
    rw [World.undo_read e n rfl]
    refine ⟨_, _, w.store, w.committed, rfl, by simp, ?_, ?_⟩
    · intro b h
      cases h
    · intro h
      cases (h.1 n).symm.trans hfault
  | none =>
    cases hrow : w.store.calls.find requestId with
    | none =>
      have hst : w.store.updateStatus requestId status (e.now (n + 1)) u = w.store := by
        simp only [Store.updateStatus, hrow]
      exact ⟨.ok false, _, w.store, w.committed, rfl, by simp [hst], fun _ _ => hst.symm,
        fun _ => ⟨_, rfl⟩⟩
    | some row =>
      by_cases hguard : row.status.goesBack status = true
      · have hst : w.store.updateStatus requestId status (e.now (n + 1)) u = w.store := by
          simp only [Store.updateStatus, hrow, if_pos hguard]
        simp only [if_pos hguard]
        exact ⟨.ok false, _, w.store, w.committed, rfl, by simp [hst], fun _ _ => hst.symm,
          fun _ => ⟨_, rfl⟩⟩
      · have hst : (Stmt.exec w.store (.updateCall (updateFields u)
            (updateValues status (e.now (n + 1)) u) requestId)).2 =
              w.store.updateStatus requestId status (e.now (n + 1)) u := by
          simp only [Store.updateStatus, hrow, if_neg hguard]
        simp only [if_neg hguard, complete_time_bind]
        rw [complete_execute_bind rfl]
        cases hwrite : e.fault (n + 1 + 1) with
        | some text =>
          refine ⟨_, _, _, w.committed, rfl, ?_, ?_, ?_⟩
          · intro h
            refine (congrArg World.store (h.undo hwrite w _)).trans (if_neg ?_).symm
            simp
          · intro b h
            cases h
          · intro h
            cases (h.1 (n + 1 + 1)).symm.trans hwrite
        | none =>
          rw [complete_commit_bind, ← hst]
          cases hcommit : e.commitFault (n + 1 + 1 + 1) with
          | some text =>
            refine ⟨.error (.other text), _, _, _, rfl, ?_, ?_, ?_⟩
            · intro h
              cases (h.commit (n + 1 + 1 + 1)).symm.trans hcommit
            · intro b h
              cases h
            · intro h
              cases (h.2 (n + 1 + 1 + 1)).symm.trans hcommit
          | none =>
            exact ⟨.ok true, _, _, _, rfl, fun _ => (if_pos ⟨trivial, rfl⟩).symm, fun _ _ => rfl,
              fun _ => ⟨_, rfl⟩⟩

/-! ## The handlers -/

/-- What a handler does after its `SELECT`: the guarded update of a record, and a line in its
timeline. -/
theorem complete_update_addEvent (e : Env) (requestId : String) (status : Status) (u : StatusFields)
    (event : EventName) (detail : Option String) (n : ℕ) (w : World) :
    ∃ r m st cm, (updateCallStatus requestId status u >>= fun _ =>
        addEvent requestId event detail).complete (World.respond e) n w =
          (r, m, { w with store := st, committed := cm }) ∧
      (e.NoRollback → st.calls = (if e.fault n = none ∧ e.fault (n + 2) = none then
        w.store.updateStatus requestId status (e.now (n + 1)) u else w.store).calls) ∧
      (r = .ok () → ∃ k, st =
        (w.store.updateStatus requestId status (e.now (n + 1)) u).withEvent
          ⟨requestId, event, detail, e.now k⟩) ∧
      (e.Calm → r = .ok ()) := by
  obtain ⟨r, m, st, cm, hupdate, hst, hok, hcalm⟩ :=
    complete_updateCallStatus e requestId status u n w
  rw [Coro.complete_bind, hupdate]
  cases r with
  | error x =>
    refine ⟨.error x, m, st, cm, rfl, fun h => by rw [hst h], ?_, ?_⟩
    · intro h
      cases h
    · intro h
      obtain ⟨b, hb⟩ := hcalm h
      cases hb
  | ok b =>
    obtain ⟨r', m', st', cm', hadd, hcalls, hline, hcalm'⟩ :=
      complete_addEvent e requestId event detail m { w with store := st, committed := cm }
    refine ⟨r', m', st', cm', hadd, fun h => by rw [hcalls h, hst h], ?_, hcalm'⟩
    intro h
    exact ⟨m, by rw [hline h, hok b rfl]⟩

/-- The other order: a line in the timeline of a record first, and then a guarded update or none. -/
theorem complete_addEvent_update (e : Env) (requestId : String) (event : EventName)
    (detail : Option String) (update : Option (Status × StatusFields)) (n : ℕ) (w : World)
    {p : Prog Unit} (hp : p = match update with
      | some (status, u) => updateCallStatus requestId status u >>= fun _ => pure ()
      | none => pure ()) :
    ∃ r m st cm, (addEvent requestId event detail >>= fun _ => p).complete (World.respond e) n w =
        (r, m, { w with store := st, committed := cm }) ∧
      (r = .ok () → ∃ t, st = match update with
        | some (status, u) => (w.store.withEvent ⟨requestId, event, detail, e.now n⟩).updateStatus
            requestId status t u
        | none => w.store.withEvent ⟨requestId, event, detail, e.now n⟩) ∧
      (e.Calm → r = .ok ()) := by
  subst hp
  obtain ⟨r, m, st, cm, hadd, -, hline, hcalm⟩ := complete_addEvent e requestId event detail n w
  rw [Coro.complete_bind, hadd]
  cases r with
  | error x =>
    refine ⟨.error x, m, st, cm, rfl, ?_, hcalm⟩
    intro h
    cases h
  | ok _ =>
    obtain rfl := hline rfl
    cases update with
    | none => exact ⟨.ok (), m, _, _, rfl, fun _ => ⟨0, rfl⟩, fun _ => rfl⟩
    | some x =>
      obtain ⟨status, u⟩ := x
      obtain ⟨r', m', st', cm', hupdate, -, hok, hcalm'⟩ := complete_updateCallStatus e requestId
        status u m
        { w with store := w.store.withEvent ⟨requestId, event, detail, e.now n⟩, committed := cm }
      dsimp only
      rw [Coro.complete_bind, hupdate]
      cases r' with
      | error x =>
        refine ⟨.error x, m', st', cm', rfl, ?_, ?_⟩
        · intro h
          cases h
        · intro h
          obtain ⟨b, hb⟩ := hcalm' h
          cases hb
      | ok b =>
        exact ⟨.ok (), m', st', cm', rfl, fun _ => ⟨_, hok b rfl⟩, fun _ => rfl⟩

/-- A handler whose `SELECT` finds a row goes on with it. -/
theorem complete_getCallByChannel_bind (e : Env) (channel : String) (f : Option CallRecord → Prog β)
    (n : ℕ) (w : World) :
    (getCallByChannel channel >>= f).complete (World.respond e) n w =
      match e.fault n with
      | some text => (.error (.other text), n + 1, w)
      | none =>
        (f (newestOfChannel w.store.calls channel)).complete (World.respond e) (n + 1) w := by
  rw [← World.undo_read e n (s := .selectByChannel channel) rfl w]
  exact complete_execute_bind (s := .selectByChannel channel) rfl f

variable {message : Message} {channel : String} {row : CallRecord}

/-- A `Newstate` on the channel of a record. -/
theorem complete_onNewState (e : Env) {w : World} {status : Status} {event : EventName}
    (hchannel : orText (message.get .channel) none = some channel)
    (hrow : newestOfChannel w.store.calls channel = some row)
    (hstate : stateStatus message = some (status, event)) :
    ∃ r m st cm, (onNewState message).complete (World.respond e) 0 w =
        (r, m, { w with store := st, committed := cm }) ∧
      (r = .ok () → ∃ t now, st = (w.store.updateStatus row.requestId status t {}).withEvent
        ⟨row.requestId, event, some ("channel=" ++ channel), now⟩) ∧
      (e.Calm → r = .ok ()) := by
  simp only [onNewState, hchannel, complete_getCallByChannel_bind, hrow, hstate]
  cases hfault : e.fault 0 with
  | some text =>
    refine ⟨_, _, w.store, w.committed, rfl, ?_, ?_⟩
    · intro h
      cases h
    · intro h
      cases (h.1 0).symm.trans hfault
  | none =>
    obtain ⟨r, m, st, cm, hrun, -, hok, hcalm⟩ := complete_update_addEvent e row.requestId status
      {} event (some ("channel=" ++ channel)) 1 w
    refine ⟨r, m, st, cm, hrun, ?_, hcalm⟩
    intro h
    obtain ⟨k, hst⟩ := hok h
    exact ⟨_, e.now k, hst⟩

/-- An `OriginateResponse` about a record: its line, and the guarded update if it reports a
failure. -/
theorem complete_onOriginateResponse (e : Env) (w : World) (n : ℕ) (he : e.Calm)
    {requestId : String} (hid : extractRequestId (message.get .actionID) = some requestId) :
    ∃ m detail now t cm,
      let st := w.store.withEvent ⟨requestId, .originateResponse, detail, now⟩
      let u : StatusFields := { asteriskReason := some ((message.get .reason).getD "") }
      (onOriginateResponse message).complete (World.respond e) n w = (.ok (), m,
        { w with
          store := match originateFailure message with
            | some status => st.updateStatus requestId status t u
            | none => st
          committed := cm }) := by
  simp only [onOriginateResponse, hid]
  obtain ⟨r, m, st, cm, hrun, hok, hcalm⟩ := complete_addEvent_update e requestId .originateResponse
    (some ("response=" ++ (message.get .response).getD "" ++ " reason=" ++
      (message.get .reason).getD "" ++ " channel=" ++ showText (message.get .channel)))
    ((originateFailure message).map fun status =>
      (status, { asteriskReason := some ((message.get .reason).getD "") })) n w rfl
  obtain rfl := hcalm he
  obtain ⟨t, rfl⟩ := hok rfl
  cases hfailure : originateFailure message with
  | none =>
    rw [hfailure] at hrun
    exact ⟨m, _, _, t, cm, hrun⟩
  | some status =>
    rw [hfailure] at hrun
    exact ⟨m, _, _, t, cm, hrun⟩

/-- The text that `_on_hangup` stores as the cause. -/
def hangupText (message : Message) : String :=
  strip (toString (causeInt message) ++ " " ++ causeTxt message)

/-- A `Hangup` on the channel of a record. -/
theorem complete_onHangup (e : Env) {w : World} (he : e.Calm)
    (hchannel : orText (message.get .channel) none = some channel)
    (hrow : newestOfChannel w.store.calls channel = some row) :
    ∃ m detail now t cm,
      let st := w.store.withEvent ⟨row.requestId, .hangup, detail, now⟩
      let u : StatusFields := { hangupCause := some (hangupText message) }
      (onHangup message).complete (World.respond e) 0 w = (.ok (), m,
        { w with
          store :=
            if row.status.terminal then st
            else
              st.updateStatus row.requestId (hangupStatus (causeInt message) row.status) t u
          committed := cm }) := by
  simp only [onHangup, hchannel, complete_getCallByChannel_bind, hrow, he.1]
  have hwrites := fun update {p} hp => complete_addEvent_update e row.requestId .hangup
    (some ("cause=" ++ toString (causeInt message) ++ " (" ++ causeTxt message ++ ") channel=" ++
      channel)) update 1 w (p := p) hp
  cases hterminal : row.status.terminal with
  | true =>
    obtain ⟨r, m, st, cm, hrun, hok, hcalm⟩ := hwrites none rfl
    obtain rfl := hcalm he
    obtain ⟨t, rfl⟩ := hok rfl
    exact ⟨m, _, _, t, cm, hrun⟩
  | false =>
    obtain ⟨r, m, st, cm, hrun, hok, hcalm⟩ := hwrites (some (hangupStatus (causeInt message)
      row.status, { hangupCause := some (hangupText message) })) rfl
    obtain rfl := hcalm he
    obtain ⟨t, rfl⟩ := hok rfl
    exact ⟨m, _, _, t, cm, hrun⟩

/-- A `UserEvent` of the dialplan about a record: when its handler returns, its line is in the
timeline. -/
theorem complete_onUserEvent (e : Env) (w : World) {requestId : String} {d : DialplanEvent}
    (hid : userEventRequestId message = some requestId) (hd : dialplanEvent message = some d) :
    ∃ r m st cm, (onUserEvent message).complete (World.respond e) 0 w =
        (r, m, { w with store := st, committed := cm }) ∧
      (∀ channel, d = .callStart → orText (message.get .channel) none = some channel →
        e.NoRollback → st.calls = (if e.fault 0 = none ∧ e.fault 2 = none then
          w.store.updateStatus requestId .answered (e.now 1) { channel := some channel }
          else w.store).calls) ∧
      (r = .ok () → ∃ st' detail k, st = st'.withEvent ⟨requestId, d.line, detail, e.now k⟩ ∧
        (d = .callStart ∧ st' = w.store ∨
          ∃ t u, st' = w.store.updateStatus requestId d.status t u)) := by
  -- the three events do the same but for the status, the line and the channel
  have hupdate : ∀ u detail, ∃ r m st cm, (updateCallStatus requestId d.status u >>= fun _ =>
      addEvent requestId d.line detail).complete (World.respond e) 0 w =
        (r, m, { w with store := st, committed := cm }) ∧
      (e.NoRollback → st.calls = (if e.fault 0 = none ∧ e.fault 2 = none then
        w.store.updateStatus requestId d.status (e.now 1) u else w.store).calls) ∧
      (r = .ok () → ∃ st' detail k, st = st'.withEvent ⟨requestId, d.line, detail, e.now k⟩ ∧
        (d = .callStart ∧ st' = w.store ∨
          ∃ t u, st' = w.store.updateStatus requestId d.status t u)) := by
    intro u detail
    obtain ⟨r, m, st, cm, hrun, hcalls, hok, -⟩ :=
      complete_update_addEvent e requestId d.status u d.line detail 0 w
    refine ⟨r, m, st, cm, hrun, hcalls, ?_⟩
    intro h
    obtain ⟨k, hst⟩ := hok h
    exact ⟨_, _, k, hst, .inr ⟨_, _, rfl⟩⟩
  simp only [onUserEvent, hid, hd]
  cases d with
  | callStart =>
    cases hchannel : orText (message.get .channel) none with
    | some channel =>
      obtain ⟨r, m, st, cm, hrun, hcalls, hok⟩ := hupdate { channel := some channel }
        (some ("channel=" ++ channel))
      refine ⟨r, m, st, cm, hrun, ?_, hok⟩
      rintro _ - ⟨⟩
      exact hcalls
    -- an `OTPCallStart` without a channel leaves the record alone
    | none =>
      obtain ⟨r, m, st, cm, hrun, -, hok, -⟩ := complete_addEvent e requestId .dialplanStart
        (some ("channel=" ++ showText (message.get .channel))) 0 w
      refine ⟨r, m, st, cm, hrun, ?_, ?_⟩
      · rintro _ - ⟨⟩
      · intro h
        exact ⟨_, _, 0, hok h, .inl ⟨rfl, rfl⟩⟩
  | playbackStart =>
    obtain ⟨r, m, st, cm, hrun, -, hok⟩ := hupdate {} none
    exact ⟨r, m, st, cm, hrun, (by rintro _ ⟨⟩), hok⟩
  | playbackComplete =>
    obtain ⟨r, m, st, cm, hrun, -, hok⟩ := hupdate {} none
    exact ⟨r, m, st, cm, hrun, (by rintro _ ⟨⟩), hok⟩

/-! ## Handlers that return -/

/-- A `Newstate` whose handler returns has found a record and written about it, or has changed
nothing. -/
theorem onNewState_returns {e : Env} {w w' : World} {m : ℕ}
    (hrun : (onNewState message).complete (World.respond e) 0 w = (.ok (), m, w')) :
    w'.store = w.store ∨ ∃ row x t now detail,
      (orText (message.get .channel) none).bind (newestOfChannel w.store.calls) = some row ∧
      stateStatus message = some x ∧
      w'.store = (w.store.updateStatus row.requestId x.1 t {}).withEvent
        ⟨row.requestId, x.2, detail, now⟩ := by
  cases hchannel : orText (message.get .channel) none with
  | none =>
    simp only [onNewState, hchannel] at hrun
    cases hrun
    exact .inl rfl
  | some channel =>
    cases hrow : newestOfChannel w.store.calls channel with
    | none =>
      simp only [onNewState, hchannel, complete_getCallByChannel_bind, hrow] at hrun
      cases hfault : e.fault 0 with
      | some text =>
        rw [hfault] at hrun
        cases hrun
      | none =>
        rw [hfault] at hrun
        cases hrun
        exact .inl rfl
    | some row =>
      cases hstate : stateStatus message with
      | none =>
        simp only [onNewState, hchannel, complete_getCallByChannel_bind, hrow, hstate] at hrun
        cases hfault : e.fault 0 with
        | some text =>
          rw [hfault] at hrun
          cases hrun
        | none =>
          rw [hfault] at hrun
          cases hrun
          exact .inl rfl
      | some x =>
        obtain ⟨r, m', st, cm, hrun', hok, -⟩ := complete_onNewState e hchannel hrow hstate
        -- one run, so the two descriptions of it agree
        cases hrun'.symm.trans hrun
        obtain ⟨t, now, rfl⟩ := hok rfl
        exact .inr ⟨row, x, t, now, _, hrow, rfl, rfl⟩

/-- A `UserEvent` whose handler returns has written about its record, or has changed nothing. -/
theorem onUserEvent_returns {e : Env} {w w' : World} {m : ℕ}
    (hrun : (onUserEvent message).complete (World.respond e) 0 w = (.ok (), m, w')) :
    w'.store = w.store ∨ ∃ requestId d st detail k,
      userEventRequestId message = some requestId ∧ dialplanEvent message = some d ∧
      w'.store = st.withEvent ⟨requestId, d.line, detail, e.now k⟩ ∧
        (d = .callStart ∧ st = w.store ∨
          ∃ t u, st = w.store.updateStatus requestId d.status t u) := by
  cases hid : userEventRequestId message with
  | none =>
    simp only [onUserEvent, hid] at hrun
    cases hrun
    exact .inl rfl
  | some requestId =>
    cases hd : dialplanEvent message with
    | none =>
      simp only [onUserEvent, hid, hd] at hrun
      cases hrun
      exact .inl rfl
    | some d =>
      obtain ⟨r, m', st, cm, hrun', -, hok⟩ := complete_onUserEvent e w hid hd
      cases hrun'.symm.trans hrun
      obtain ⟨st', detail, k, hst, hst'⟩ := hok rfl
      exact .inr ⟨requestId, d, st', detail, k, rfl, rfl, hst, hst'⟩

end Alone

end OtpVoice
