import OtpVoice.Service.Channels
import OtpVoice.Service.LiveCall

/-!
# Answered calls

`_build_status_response` computes `is_answered` from the current status of a record or from its
timeline. The status can be overwritten; the timeline keeps its lines as long as the record exists.

- `Store.ReportsAnswered` is the flag that the status endpoint reports (`getCallStatus_returns`).
- `Quiet` is the joint invariant of status, channel and timeline of a record that nobody has
  answered.
- `quiet_turn`: every operation other than an answer witness keeps it.
- `is_answered_iff_witnessed`: in every run in which Asterisk reports no failure with the reason of
  an answered call, the flag is set if and only if an answer witness has been handled since the
  record was created, and it stays set.
-/

set_option autoImplicit false

namespace OtpVoice

open Coroutine

/-! ## What the status endpoint reports -/

/-- The flag `is_answered` is set in what the status endpoint reports about a record. -/
def Store.ReportsAnswered (st : Store) (requestId : String) : Prop :=
  ∃ response, st.statusResponse requestId = some response ∧ response.isAnswered = true

instance (st : Store) (requestId : String) : Decidable (st.ReportsAnswered requestId) :=
  decidable_of_iff (((st.statusResponse requestId).map CallStatusResponse.isAnswered) = some true)
    Option.map_eq_some_iff

theorem reportsAnswered_iff {st : Store} {requestId : String} :
    st.ReportsAnswered requestId ↔ ∃ row, st.calls.find requestId = some row ∧
      (row.status ∈ answeredOrLater ∨
        ∃ ev ∈ st.events, ev.requestId = requestId ∧ ev.event ∈ answeredEvents) := by
  have hflag : ∀ row, (buildStatusResponse row (st.timeline requestId)).isAnswered = true ↔
      row.status ∈ answeredOrLater ∨
        ∃ ev ∈ st.events, ev.requestId = requestId ∧ ev.event ∈ answeredEvents := by
    intro row
    simp only [buildStatusResponse, Store.timeline, Bool.or_eq_true, decide_eq_true_eq,
      List.any_eq_true, List.mem_insertionSort, List.mem_filter, and_assoc]
  constructor
  · rintro ⟨response, h, hanswered⟩
    obtain ⟨row, hrow, rfl⟩ := Option.map_eq_some_iff.1 h
    exact ⟨row, hrow, (hflag row).1 hanswered⟩
  · rintro ⟨row, hrow, h⟩
    exact ⟨_, by rw [Store.statusResponse, hrow]; rfl, (hflag row).2 h⟩

/-! ## Records that nobody has answered -/

/-- The record, if there is one, shows no answer, has no channel, and its timeline shows no
answer. -/
structure Quiet (st : Store) (requestId : String) : Prop where
  row : ∀ row, st.calls.find requestId = some row →
    row.status ∉ answeredOrLater ∧ row.channel = none
  events : ∀ ev ∈ st.events, ev.requestId = requestId → ev.event ∉ answeredEvents

theorem Quiet.not_reportsAnswered {st : Store} {requestId : String} (h : Quiet st requestId) :
    ¬ st.ReportsAnswered requestId := by
  intro hreports
  obtain ⟨row, hrow, hstatus | ⟨ev, hev, hid, hevent⟩⟩ := reportsAnswered_iff.1 hreports
  · exact (h.row row hrow).1 hstatus
  · exact h.events ev hev hid hevent

theorem quietEvents_answered {event : EventName} (h : event ∈ quietEvents) :
    event ∉ answeredEvents := by
  revert h
  cases event <;> decide

theorem line_answered (d : DialplanEvent) : d.line ∈ answeredEvents := by
  cases d <;> decide

/-- A line in the timeline of another record keeps a record quiet. -/
theorem Quiet.event_other {st : Store} {requestId key : String} (h : Quiet st requestId)
    (hkey : key ≠ requestId) (event : EventName) (detail : Option String) (now : Time) :
    Quiet (st.withEvent ⟨key, event, detail, now⟩) requestId := by
  constructor
  · exact h.row
  · intro ev hev hid
    rcases List.mem_append.1 hev with hev | hev
    · exact h.events ev hev hid
    · rw [List.mem_singleton.1 hev] at hid
      exact absurd hid hkey

/-- The guarded update of another record keeps a record quiet. -/
theorem Quiet.update_other {st : Store} {requestId key : String} (h : Quiet st requestId)
    (hkey : key ≠ requestId) (status : Status) (t : Time) (u : StatusFields) :
    Quiet (st.updateStatus key status t u) requestId := by
  constructor
  · intro row hrow
    rw [Store.find_updateStatus, if_neg (Ne.symm hkey)] at hrow
    exact h.row row hrow
  · rw [Store.events_updateStatus]
    exact h.events

/-- The report that the channel of a quiet record rings keeps it quiet. -/
theorem Quiet.ringing {st : Store} {requestId : String} (h : Quiet st requestId) (t : Time)
    (detail : Option String) (now : Time) :
    Quiet ((st.updateStatus requestId .ringing t {}).withEvent ⟨requestId, .ringing, detail, now⟩)
      requestId := by
  constructor
  · intro row hrow
    have hfind : (st.updateStatus requestId .ringing t {}).calls.find requestId = some row := hrow
    rw [Store.find_updateStatus, if_pos rfl] at hfind
    obtain ⟨old, hold, rfl⟩ := Option.map_eq_some_iff.1 hfind
    -- the update writes `ringing`, or is refused
    obtain ⟨hstatus, hchannel⟩ := h.row old hold
    unfold CallRecord.guarded
    split
    · exact ⟨hstatus, hchannel⟩
    · exact ⟨by show Status.ringing ∉ answeredOrLater; decide, hchannel⟩
  · intro ev hev hid
    rcases List.mem_append.1 hev with hev | hev
    · rw [Store.events_updateStatus] at hev
      exact h.events ev hev hid
    · rw [List.mem_singleton.1 hev]
      show EventName.ringing ∉ answeredEvents
      decide

/-! ## Answer witnesses -/

/-- The message of a failure with the reason of an answered call. -/
def Message.misreports (message : Message) : Prop :=
  message.get .response = some "Failure" ∧ message.get .reason = some "4"

/-- No `OriginateResponse` of the run, in a message or in a reply, reports a failure with the reason
of an answered call. -/
structure NoMisreport (acts : List Turn) : Prop where
  message : ∀ message, Act.arrive (.amiEvent .originateResponse message) ∈ acts →
    ¬ message.misreports
  reply : ∀ i e reply message, Act.turn i e ∈ acts → e.reply = .ok reply →
    some message ∈ reply.messages → message.get .event = some "OriginateResponse" →
      ¬ message.misreports

/-- An input shows that the call of a record has been answered. -/
def AnswerWitness (st : Store) (requestId : String) : Input → Prop
  | .amiEvent .newstate message =>
    stateStatus message = some (.answered, .answered) ∧
      ((orText (message.get .channel) none).bind (newestOfChannel st.calls)).map
        CallRecord.requestId = some requestId
  | .amiEvent .userEvent message =>
    userEventRequestId message = some requestId ∧ (dialplanEvent message).isSome = true
  | _ => False

theorem reasonToStatus_answered {reason : String} (h : reason ≠ "4") :
    (reasonToStatus.lookup reason).getD .failed ∉ answeredOrLater := by
  cases hlookup : reasonToStatus.lookup reason with
  | none => decide
  | some status =>
    have hmem := mem_of_lookup hlookup
    revert hmem
    simp only [reasonToStatus, List.mem_cons, List.not_mem_nil, or_false, Prod.mk.injEq,
      Option.getD_some]
    rintro (⟨-, rfl⟩ | ⟨-, rfl⟩ | ⟨-, rfl⟩ | ⟨-, rfl⟩ | ⟨rfl, -⟩ | ⟨-, rfl⟩ | ⟨-, rfl⟩)
    case inr.inr.inr.inr.inl => exact absurd rfl h
    all_goals decide

/-- A failure without the reason of an answered call gives no status of an answered call. -/
theorem failures_answered {message : Message} (h : ¬ message.misreports) {x : String × Status}
    (hx : x ∈ message.failures) : x.2 ∉ answeredOrLater := by
  unfold Message.failures at hx
  split at hx
  · rename_i requestId status _ hfailure
    obtain rfl := List.mem_singleton.1 hx
    simp only [originateFailure, Bool.or_eq_true, decide_eq_true_eq] at hfailure
    split at hfailure
    · rename_i hreports
      obtain rfl := Option.some.inj hfailure
      apply reasonToStatus_answered
      intro hreason
      rcases hreports with hresponse | hmem
      · apply h
        constructor
        · cases hget : message.get .response with
          | none => rw [hget] at hresponse; exact absurd hresponse (by decide)
          | some text => rw [hget] at hresponse; exact congrArg some hresponse
        · cases hget : message.get .reason with
          | none => rw [hget] at hreason; exact absurd hreason (by decide)
          | some text => rw [hget] at hreason; exact congrArg some hreason
      · -- the reasons of a failure are not the reason of an answered call
        rw [hreason] at hmem
        exact absurd hmem (by decide)
    · cases hfailure
  · cases hx

/-- What a background task meets when its Originate action is accepted: a connected client until it
has submitted the action, and then a reply that begins with `Success`. -/
def Env.Accepts (submitted : Bool) (e : Env) : Prop :=
  if submitted then
    ∃ reply ack later, e.reply = .ok reply ∧ reply.messages = ack :: later ∧
      msgGet ack .response = some "Success"
  else e.client = none ∧ e.connected = true

/-- The failures of a background task: its own, unless its action is accepted, and those of the
messages that it forwards. -/
theorem failures_execute_cases {task : CallTask} {m : Bool} {e : Env} {x : String × Status}
    (hx : x ∈ (Op.execute task).failures m e) :
    (x = (task.requestId, .failed) ∧ ¬ e.Accepts m) ∨ ∃ reply message, e.reply = .ok reply ∧
      some message ∈ reply.messages ∧ message.get .event = some "OriginateResponse" ∧
        x ∈ message.failures := by
  cases m with
  | false =>
    -- the first part of the task fails only before it has sent the action
    left
    simp only [Op.failures, Bool.false_eq_true, if_false] at hx
    split at hx
    · rename_i hdown
      refine ⟨List.mem_singleton.1 hx, ?_⟩
      rintro ⟨hclient, hconnected⟩
      rw [hclient, hconnected] at hdown
      cases hdown
    · cases hx
  | true =>
    -- the task goes on with the reply of Asterisk
    simp only [Op.failures, if_true] at hx
    cases hreply : e.reply with
    | error y =>
      left
      rw [hreply] at hx
      refine ⟨List.mem_singleton.1 hx, ?_⟩
      rintro ⟨reply, ack, later, hok, -, -⟩
      cases hreply.symm.trans hok
    | ok reply =>
      rw [hreply] at hx
      simp only [replyFailures] at hx
      split at hx
      · rename_i hnil
        refine .inl ⟨List.mem_singleton.1 hx, ?_⟩
        rintro ⟨reply', ack, later, hok, hcons, -⟩
        cases hreply.symm.trans hok
        cases hnil.symm.trans hcons
      · rename_i ack later hmessages
        split at hx
        · right
          split at hx
          · -- a message of the reply, forwarded
            obtain ⟨message, hmem, hx⟩ := List.mem_flatMap.1 hx
            cases message with
            | none => cases hx
            | some message =>
              simp only [forwardedFailures] at hx
              split at hx
              · rename_i hevent
                refine ⟨reply, message, rfl, ?_, hevent, hx⟩
                rw [hmessages]
                exact List.mem_cons_of_mem _ hmem
              · cases hx
          · cases hx
        · rename_i hrejected
          refine .inl ⟨List.mem_singleton.1 hx, ?_⟩
          rintro ⟨reply', ack', later', hok, hcons, hsuccess⟩
          cases hreply.symm.trans hok
          cases hmessages.symm.trans hcons
          exact hrejected hsuccess

/-- The failures of a background task give no status of an answered call. -/
theorem failures_execute {task : CallTask} {m : Bool} {e : Env}
    (h : ∀ reply message, e.reply = .ok reply → some message ∈ reply.messages →
      message.get .event = some "OriginateResponse" → ¬ message.misreports)
    {x : String × Status} (hx : x ∈ (Op.execute task).failures m e) : x.2 ∉ answeredOrLater := by
  rcases failures_execute_cases hx with ⟨rfl, -⟩ | ⟨reply, message, hreply, hmem, hevent, hx⟩
  · show Status.failed ∉ answeredOrLater
    decide
  · exact failures_answered (h reply message hreply hmem hevent) hx

/-- An operation that is no answer witness gives a record without a channel no status of an answered
call. -/
theorem Reason.not_answered {op : Op} {v : Sight} {row : CallRecord} {status : Status}
    (h : Reason op v row status)
    (hnewstate : ∀ message, op ≠ .input (.amiEvent .newstate message))
    (huser : ∀ message, op ≠ .input (.amiEvent .userEvent message)) (hchannel : row.channel = none)
    (hfailures : ∀ x ∈ op.failures v.memory v.env, x.2 ∉ answeredOrLater) :
    status ∉ answeredOrLater := by
  cases h with
  | progress hmem =>
    -- only the background task reports progress here
    unfold Op.progress at hmem
    split at hmem
    · exact absurd rfl (hnewstate _)
    · exact absurd rfl (huser _)
    · split at hmem
      · cases hmem
      · obtain ⟨-, rfl⟩ := Prod.mk.inj (List.mem_singleton.1 hmem)
        decide
    · cases hmem
  | failure hmem => exact hfailures _ hmem
  | played hplayed =>
    unfold Op.completes at hplayed
    split at hplayed
    · exact absurd rfl (huser _)
    · cases hplayed
  | hangup message hhangup hhangs =>
    -- no hangup is about a record without a channel
    subst hhangup
    simp only [Op.hangsUp, hchannel] at hhangs
    split at hhangs
    · cases of_decide_eq_true hhangs
    · cases hhangs

section Runs

variable (o : CallOriginator) (w₀ : World) (acts : List Turn)

/-- Every handler of a `Newstate` or a `UserEvent` that has ended in the run has returned. -/
def HandlersReturn : Prop :=
  ∀ i kind message r, kind = .newstate ∨ kind = .userEvent →
    ((sequential o).run (Config.initial w₀) acts).outcome i =
      some (.input (.amiEvent kind message), r) → ∃ answer, r = .ok answer

/-- `uuid4` draws ids about which no timeline has a line. -/
def FreshIds : Prop :=
  ∀ k requestId, rowAt o w₀ acts k requestId = none →
    (rowAt o w₀ acts (k + 1) requestId).isSome = true →
      ∀ ev ∈ (storeAt o w₀ acts k).events, ev.requestId ≠ requestId

/-- An answer witness for the record has been handled before the `k`-th decision of a run, and the
record has been there since. -/
def Witnessed (k : ℕ) (requestId : String) : Prop :=
  ∃ j < k, (∃ x e, Handles o w₀ acts j x e ∧ AnswerWitness (storeAt o w₀ acts j) requestId x) ∧
    ∀ l, j ≤ l → l ≤ k → (rowAt o w₀ acts l requestId).isSome = true

variable {o w₀ acts} {k : ℕ} {requestId : String}

/-- A handled `Newstate` or `UserEvent` has been handled to its end. -/
theorem dispatch_returns (h : HandlersReturn o w₀ acts) {kind : EventKind} {message : Message}
    {e : Env} (hkind : kind = .newstate ∨ kind = .userEvent)
    (hx : Handles o w₀ acts k (.amiEvent kind message) e) :
    ∃ m, (dispatch kind message).complete (World.respond e) 0
      ((sequential o).confAt w₀ acts k).world =
        (.ok (), m, ((sequential o).confAt w₀ acts (k + 1)).world) := by
  -- the outcome of the input is the outcome of a thread at the end of the run
  obtain ⟨i, houtcome⟩ := hx.outcome
  obtain ⟨answer, hanswer⟩ := h i kind message _ hkind houtcome
  rw [Input.body, Coro.complete_bind] at hanswer
  obtain ⟨r, m, w', hrun⟩ : ∃ r m w', (dispatch kind message).complete (World.respond e) 0
      ((sequential o).confAt w₀ acts k).world = (r, m, w') := ⟨_, _, _, rfl⟩
  rw [hrun] at hanswer
  cases r with
  | error y => cases hanswer
  | ok u => exact ⟨m, by rw [hrun, hx.dispatch hrun]⟩

/-- A turn of an operation that is no answer witness keeps a record quiet. The induction is on the
commands of the turn. -/
theorem quiet_turn (hkeeps : NoRollbacks acts) {i : ℕ} {e : Env} {op : Op}
    (hact : acts[k]? = some (.turn i e)) (hop : turnOp o w₀ acts k = some op)
    (hnewstate : ∀ message, op ≠ .input (.amiEvent .newstate message))
    (huser : ∀ message, op ≠ .input (.amiEvent .userEvent message))
    (hfailures : ∀ m e', Act.turn i e' ∈ acts → ∀ x ∈ op.failures m e', x.2 ∉ answeredOrLater)
    (h : Quiet (storeAt o w₀ acts k) requestId) : Quiet (storeAt o w₀ acts (k + 1)) requestId := by
  have hbinds : op.binds = none := by
    unfold Op.binds
    split
    · exact absurd rfl (huser _)
    · rfl
  have hprefix : NoRollbacks (acts.take (k + 1)) := hkeeps.mono (List.take_subset _ _)
  rw [← storeAfter_end]
  refine turn_rule hkeeps (P := Cmd.Plain quietEvents)
    (I := fun n => Quiet (storeAfter o w₀ acts (k + 1) n) requestId) hact ?_ ?_ ?_ ?_
    (within_end hact)
  · intro op' hop'
    cases hop.symm.trans hop'
    exact uses_plain o hbinds (List.Subset.refl _) (fun message h => absurd h (hnewstate message))
      fun message h => absurd h (huser message)
  · rw [storeAfter_start hact]
    exact h
  · intro n hstore ih
    rw [hstore]
    exact ih
  · intro n s hn hn' hs hstore ih
    constructor
    · intro row' hafter
      have hx := List.getElem?_eq_getElem (Nat.lt_of_succ_le hn'.2)
      obtain ⟨ev, hev⟩ := (sequential o).turn_owner hact hn.1 hx
      rw [hev] at hx
      cases hbefore : (storeAfter o w₀ acts (k + 1) n).calls.find requestId with
      | none =>
        -- a new record
        have hstatus := row_step_new hprefix hx hbefore hafter
        rw [hstore] at hafter
        obtain rfl := find_exec_new hbefore hafter
        exact ⟨by rw [hstatus]; decide, hs⟩
      | some row =>
        obtain ⟨hold, hchannel⟩ := ih.row row hbefore
        have hchannel' : row'.channel = none := by
          rw [hstore] at hafter
          rw [channel_exec hs hafter, hbefore]
          exact hchannel
        refine ⟨?_, hchannel'⟩
        rcases row_step hprefix hx hbefore hafter
          with hkeep | ⟨op', status, now, u, hop', -, rfl, -, hreason⟩
        · rw [hkeep.1]
          exact hold
        · obtain rfl : op' = op := Option.some.inj (hop'.symm.trans ((opOf_succ hact).trans hop))
          have henv := (sequential o).run_env w₀ _ _ (List.mem_of_getElem? hx)
          exact hreason.not_answered hnewstate huser hchannel
            (hfailures _ _ (List.mem_of_mem_take henv))
    · intro ev hev hid
      rw [hstore] at hev
      rcases mem_events_exec hev with hev | rfl
      · exact ih.events ev hev hid
      · exact quietEvents_answered hs

/-- A decision that is no answer witness for the record keeps it quiet. -/
theorem quiet_step (hkeeps : NoRollbacks acts) (hreport : NoMisreport acts)
    (hreturns : HandlersReturn o w₀ acts)
    (hno : ∀ x e, Handles o w₀ acts k x e → ¬ AnswerWitness (storeAt o w₀ acts k) requestId x)
    (h : Quiet (storeAt o w₀ acts k) requestId) : Quiet (storeAt o w₀ acts (k + 1)) requestId := by
  rcases turn_cases o w₀ acts k with hkeep | ⟨x, e, hx⟩ | ⟨i, e, task, hact, hop⟩
  · rw [hkeep]
    exact h
  · -- a handler that has returned has written its status and its line, or nothing
    by_cases hnewstate : ∃ message, x = .amiEvent .newstate message
    · obtain ⟨message, rfl⟩ := hnewstate
      obtain ⟨m, hrun⟩ := dispatch_returns hreturns (.inl rfl) hx
      rcases onNewState_returns hrun with hkeep | ⟨row, y, t, now, detail, hrow, hstate, hafter⟩
      · rw [show storeAt o w₀ acts (k + 1) = storeAt o w₀ acts k from hkeep]
        exact h
      · rw [show storeAt o w₀ acts (k + 1) = _ from hafter]
        by_cases hid : row.requestId = requestId
        · -- the record rings, since it is not answered
          subst hid
          rcases stateStatus_cases hstate with rfl | rfl
          · exact h.ringing t detail now
          · refine absurd ⟨hstate, ?_⟩ (hno _ e hx)
            rw [show (orText (message.get .channel) none).bind
              (newestOfChannel (storeAt o w₀ acts k).calls) = some row from hrow]
            rfl
        · exact (h.update_other hid _ _ _).event_other hid _ _ _
    · by_cases huser : ∃ message, x = .amiEvent .userEvent message
      · obtain ⟨message, rfl⟩ := huser
        obtain ⟨m, hrun⟩ := dispatch_returns hreturns (.inr rfl) hx
        rcases onUserEvent_returns hrun with
          hkeep | ⟨requestId', d, st, detail, j, hid, hd, hafter, hst⟩
        · rw [show storeAt o w₀ acts (k + 1) = storeAt o w₀ acts k from hkeep]
          exact h
        · have hother : requestId' ≠ requestId := by
            rintro rfl
            exact hno _ e hx ⟨hid, by rw [hd]; rfl⟩
          rw [show storeAt o w₀ acts (k + 1) = _ from hafter]
          rcases hst with ⟨-, rfl⟩ | ⟨t, u, rfl⟩
          · exact h.event_other hother _ _ _
          · exact (h.update_other hother _ _ _).event_other hother _ _ _
      · -- every other input keeps the record quiet, whether it raises or not
        obtain ⟨i, hact, -⟩ := id hx
        refine quiet_turn hkeeps hact hx.turnOp ?_ ?_ ?_ h
        · rintro message heq
          exact hnewstate ⟨message, Op.input.inj heq⟩
        · rintro message heq
          exact huser ⟨message, Op.input.inj heq⟩
        · intro m e' _ y hy
          cases x with
          | amiEvent kind message =>
            cases kind with
            | originateResponse => exact failures_answered (hreport.message message hx.arrived) hy
            | _ => cases hy
          | _ => cases hy
  · -- a background task goes on
    refine quiet_turn hkeeps hact hop ?_ ?_ ?_ h
    · rintro message ⟨⟩
    · rintro message ⟨⟩
    · intro m e' he' y hy
      refine failures_execute ?_ hy
      intro reply message hreply hmem hevent
      exact hreport.reply i e' reply message he' hreply hmem hevent

/-- A line in the timeline of a record that stays is kept. -/
theorem event_kept (hkeeps : NoRollbacks acts) {ev : EventRow}
    (hev : ev ∈ (storeAt o w₀ acts k).events)
    (hbefore : (rowAt o w₀ acts k ev.requestId).isSome = true)
    (hafter : (rowAt o w₀ acts (k + 1) ev.requestId).isSome = true) :
    ev ∈ (storeAt o w₀ acts (k + 1)).events := by
  cases hact : acts[k]? with
  | none => rwa [storeAt_of_none hact]
  | some a =>
    cases a with
    | arrive y => rwa [storeAt_of_arrive hact]
    | turn i e =>
      rw [← storeAfter_end]
      refine turn_rule hkeeps (P := fun _ => True)
        (I := fun n => ev ∈ (storeAfter o w₀ acts (k + 1) n).events) hact ?_ ?_ ?_ ?_
        (within_end hact)
      · intro op _
        exact Coro.uses_true _
      · rw [storeAfter_start hact]
        exact hev
      · intro n hstore ih
        rw [hstore]
        exact ih
      · intro n s _ hn' _ hstore ih
        have hstays := exists_in_turn hkeeps hact hbefore hafter hn'
        rw [hstore] at hstays ⊢
        exact events_exec ih hstays

/-- An answer witness whose handler returns leaves a line that shows an answer. -/
theorem witness_line (hreturns : HandlersReturn o w₀ acts) {x : Input} {e : Env}
    (hx : Handles o w₀ acts k x e) (hwitness : AnswerWitness (storeAt o w₀ acts k) requestId x) :
    ∃ ev ∈ (storeAt o w₀ acts (k + 1)).events,
      ev.requestId = requestId ∧ ev.event ∈ answeredEvents := by
  cases x with
  | amiEvent kind message =>
    cases kind with
    | newstate =>
      obtain ⟨hstate, hfound⟩ := hwitness
      obtain ⟨row, hrow, rfl⟩ := Option.map_eq_some_iff.1 hfound
      obtain ⟨channel, hchannel, hnewest⟩ := Option.bind_eq_some_iff.1 hrow
      obtain ⟨m, hrun⟩ := dispatch_returns hreturns (.inl rfl) hx
      obtain ⟨r, m', st, cm, hrun', hok, -⟩ := complete_onNewState e hchannel hnewest hstate
      obtain ⟨hr, -, hworld⟩ := Prod.mk.inj (hrun'.symm.trans hrun) |>.imp_right Prod.mk.inj
      obtain ⟨t, now, rfl⟩ := hok hr
      have hanswered : EventName.answered ∈ answeredEvents := by decide
      rw [storeAt, ← hworld]
      exact ⟨_, List.mem_append_right _ (List.mem_singleton_self _), rfl, hanswered⟩
    | userEvent =>
      obtain ⟨hid, hd⟩ := hwitness
      obtain ⟨d, hd⟩ := Option.isSome_iff_exists.1 hd
      obtain ⟨m, hrun⟩ := dispatch_returns hreturns (.inr rfl) hx
      obtain ⟨r, m', st, cm, hrun', -, hok⟩ := complete_onUserEvent e _ hid hd
      obtain ⟨hr, -, hworld⟩ := Prod.mk.inj (hrun'.symm.trans hrun) |>.imp_right Prod.mk.inj
      obtain ⟨st', detail, j, rfl, -⟩ := hok hr
      rw [storeAt, ← hworld]
      exact ⟨_, List.mem_append_right _ (List.mem_singleton_self _), rfl, line_answered d⟩
    | _ => cases hwitness
  | _ => cases hwitness

/-- The handling of an answer witness creates no record. -/
theorem not_created_of_witness (hreturns : HandlersReturn o w₀ acts) {x : Input} {e : Env}
    (hx : Handles o w₀ acts k x e) (hwitness : AnswerWitness (storeAt o w₀ acts k) requestId x)
    (hbefore : rowAt o w₀ acts k requestId = none) : rowAt o w₀ acts (k + 1) requestId = none := by
  cases x with
  | amiEvent kind message =>
    cases kind with
    | newstate =>
      -- the record that is found exists
      obtain ⟨row, hrow, rfl⟩ := Option.map_eq_some_iff.1 hwitness.2
      obtain ⟨channel, -, hnewest⟩ := Option.bind_eq_some_iff.1 hrow
      cases hbefore.symm.trans (mem_of_newestOfChannel hnewest).1
    | userEvent =>
      obtain ⟨m, hrun⟩ := dispatch_returns hreturns (.inr rfl) hx
      rcases onUserEvent_returns hrun
        with hkeep | ⟨requestId', d, st, detail, j, -, -, hafter, hst⟩
      · rw [rowAt, show storeAt o w₀ acts (k + 1) = storeAt o w₀ acts k from hkeep]
        exact hbefore
      · rw [rowAt, show storeAt o w₀ acts (k + 1) = _ from hafter]
        show st.calls.find requestId = none
        rcases hst with ⟨-, rfl⟩ | ⟨t, u, rfl⟩
        · exact hbefore
        · rw [Store.find_updateStatus]
          rw [show ((sequential o).confAt w₀ acts k).world.store.calls.find requestId = none
            from hbefore]
          split <;> rfl
    | _ => cases hwitness
  | _ => cases hwitness

/-- Before an answer witness is handled, a record is quiet. The induction is on the decisions of the
run. -/
theorem quiet_of_not_witnessed (hkeeps : NoRollbacks acts) (hempty : w₀.store = Store.empty)
    (hreport : NoMisreport acts) (hreturns : HandlersReturn o w₀ acts) (hfresh : FreshIds o w₀ acts)
    (hexists : (rowAt o w₀ acts k requestId).isSome = true)
    (hno : ¬ Witnessed o w₀ acts k requestId) : Quiet (storeAt o w₀ acts k) requestId := by
  induction k with
  | zero =>
    have hstore : storeAt o w₀ acts 0 = Store.empty := hempty
    rw [rowAt, hstore] at hexists
    cases hexists
  | succ k ih =>
    cases hbefore : rowAt o w₀ acts k requestId with
    | some row =>
      have hbefore' : (rowAt o w₀ acts k requestId).isSome = true := by
        rw [hbefore]
        rfl
      apply quiet_step hkeeps hreport hreturns
      · -- a witness now would be the witness of the record
        intro x e hx hwitness
        apply hno
        refine ⟨k, Nat.lt_succ_self k, ⟨x, e, hx, hwitness⟩, ?_⟩
        intro l hkl hl
        rcases Nat.le_succ_iff.1 hl with hl | rfl
        · rwa [Nat.le_antisymm hl hkl]
        · exact hexists
      · apply ih hbefore'
        rintro ⟨j, hj, hwitness, hsince⟩
        apply hno
        refine ⟨j, Nat.lt_succ_of_lt hj, hwitness, ?_⟩
        intro l hjl hl
        rcases Nat.le_succ_iff.1 hl with hl | rfl
        · exact hsince l hjl hl
        · exact hexists
    | none =>
      -- the record is created by this decision, with an id about which there is no line
      have hquiet : Quiet (storeAt o w₀ acts k) requestId := by
        constructor
        · intro row hrow
          cases hrow.symm.trans hbefore
        · intro ev hev hid
          exact absurd hid (hfresh k requestId hbefore hexists ev hev)
      apply quiet_step hkeeps hreport hreturns _ hquiet
      intro x e hx hwitness
      have hmissing := not_created_of_witness hreturns hx hwitness hbefore
      rw [hmissing] at hexists
      cases hexists

/-- After an answer witness the timeline of the record shows an answer. -/
theorem line_of_witnessed (hkeeps : NoRollbacks acts) (hreturns : HandlersReturn o w₀ acts)
    (h : Witnessed o w₀ acts k requestId) :
    ∃ ev ∈ (storeAt o w₀ acts k).events, ev.requestId = requestId ∧ ev.event ∈ answeredEvents := by
  obtain ⟨j, hj, ⟨x, e, hx, hwitness⟩, hsince⟩ := h
  obtain ⟨ev, hev, rfl, hevent⟩ := witness_line hreturns hx hwitness
  refine ⟨ev, ?_, rfl, hevent⟩
  -- the line stays, since the record does
  induction k, hj using Nat.le_induction with
  | base => exact hev
  | succ k hjk ih =>
    apply event_kept hkeeps
    · apply ih
      intro l hjl hl
      exact hsince l hjl (hl.trans (Nat.le_succ k))
    · exact hsince k (Nat.le_of_succ_le hjk) (Nat.le_succ k)
    · exact hsince (k + 1) (Nat.le_succ_of_le (Nat.le_of_succ_le hjk)) le_rfl

theorem Witnessed.later {l : ℕ} (h : Witnessed o w₀ acts k requestId) (hkl : k ≤ l)
    (hexists : ∀ m, k ≤ m → m ≤ l → (rowAt o w₀ acts m requestId).isSome = true) :
    Witnessed o w₀ acts l requestId := by
  obtain ⟨j, hj, hwitness, hsince⟩ := h
  refine ⟨j, hj.trans_le hkl, hwitness, ?_⟩
  intro m hjm hml
  rcases Nat.le_total m k with hmk | hkm
  · exact hsince m hjm hmk
  · exact hexists m hkm hml

/-- In every run from empty tables in which nothing rolls back and no `OriginateResponse` reports a
failure with the reason of an answered call, the flag `is_answered` of an existing record is set if
and only if an answer witness has been handled since the record was created; it stays set as long as
the record exists. -/
theorem is_answered_iff_witnessed (o : CallOriginator) (w₀ : World) (acts : List Turn)
    (hkeeps : NoRollbacks acts) (hempty : w₀.store = Store.empty) (hreport : NoMisreport acts)
    (hreturns : HandlersReturn o w₀ acts) (hfresh : FreshIds o w₀ acts) {k : ℕ} {requestId : String}
    (hexists : (rowAt o w₀ acts k requestId).isSome = true) :
    ((storeAt o w₀ acts k).ReportsAnswered requestId ↔ Witnessed o w₀ acts k requestId) ∧
    ∀ l, k ≤ l → (∀ m, k ≤ m → m ≤ l → (rowAt o w₀ acts m requestId).isSome = true) →
      (storeAt o w₀ acts k).ReportsAnswered requestId →
        (storeAt o w₀ acts l).ReportsAnswered requestId := by
  have hiff : ∀ l, (rowAt o w₀ acts l requestId).isSome = true →
      ((storeAt o w₀ acts l).ReportsAnswered requestId ↔ Witnessed o w₀ acts l requestId) := by
    intro l hexists
    constructor
    · intro hreports
      by_contra hno
      have hquiet := quiet_of_not_witnessed hkeeps hempty hreport hreturns hfresh hexists hno
      exact hquiet.not_reportsAnswered hreports
    · intro hwitnessed
      obtain ⟨row, hrow⟩ := Option.isSome_iff_exists.1 hexists
      exact reportsAnswered_iff.2 ⟨row, hrow, .inr (line_of_witnessed hkeeps hreturns hwitnessed)⟩
  constructor
  · exact hiff k hexists
  · intro l hkl hsince hreports
    apply (hiff l (hsince l hkl le_rfl)).2
    exact ((hiff k hexists).1 hreports).later hkl hsince

end Runs

/-- An answered call whose hangup reports a busy line. -/
def busyRun : List Turn :=
  startedRun ++ [.arrive (.amiEvent .hangup (hangup sampleChannel "17")),
    .turn 3 (.calm 3 firstId [])]

/-- The status is overwritten, and the call is still reported as answered. -/
theorem is_answered_iff_witnessed_busy :
    (rowAt sampleOriginator sampleWorld busyRun 7 firstId.text).map CallRecord.status =
        some .busy ∧
      ((storeAt sampleOriginator sampleWorld busyRun 7).ReportsAnswered firstId.text ↔
        Witnessed sampleOriginator sampleWorld busyRun 7 firstId.text) := by
  have hreport : NoMisreport busyRun := by
    constructor
    · intro message hmem
      simp [busyRun, startedRun, waitingRun] at hmem
    · intro i e reply message hmem hreply hmessage
      have hcalm : ∃ now, e = .calm now firstId [] := by
        simp only [busyRun, startedRun, waitingRun, List.cons_append, List.nil_append,
          List.mem_cons, List.not_mem_nil, or_false, reduceCtorEq, false_or, Act.turn.injEq] at hmem
        rcases hmem with ⟨-, rfl⟩ | ⟨-, rfl⟩ | ⟨-, rfl⟩ | ⟨-, rfl⟩ <;> exact ⟨_, rfl⟩
      obtain ⟨now, rfl⟩ := hcalm
      cases hreply
      cases hmessage
  have hreturns : HandlersReturn sampleOriginator sampleWorld busyRun := by
    have hok : ∀ i < 4, ∀ x ∈
        ((sequential sampleOriginator).run (Config.initial sampleWorld) busyRun).outcome i,
          x.2.isOk = true := by decide +kernel
    intro i kind message r _ houtcome
    have hlt : i < 4 := (List.getElem?_eq_some_iff.1 (Config.outcome_eq_some_iff.1 houtcome)).1
    have hr := hok i hlt _ houtcome
    cases r with
    | ok answer => exact ⟨answer, rfl⟩
    | error x => cases hr
  have hfresh : FreshIds sampleOriginator sampleWorld busyRun := by
    have hrows : ∀ k < 7, (storeAt sampleOriginator sampleWorld busyRun k).events = [] ∨
        ∀ row ∈ (storeAt sampleOriginator sampleWorld busyRun (k + 1)).calls.rows,
          (rowAt sampleOriginator sampleWorld busyRun k row.requestId).isSome = true := by
      decide +kernel
    intro k requestId hbefore hafter ev hev
    by_cases hk : k < 7
    · rcases hrows k hk with hnil | hold
      · rw [hnil] at hev
        cases hev
      · obtain ⟨row, hrow⟩ := Option.isSome_iff_exists.1 hafter
        obtain ⟨hmem, rfl⟩ := Table.find_eq_some_iff.1 hrow
        have hexists := hold row hmem
        rw [hbefore] at hexists
        cases hexists
    · have hact : busyRun[k]? = none := List.getElem?_eq_none (Nat.not_lt.1 hk)
      rw [rowAt, storeAt_of_none hact, ← rowAt, hbefore] at hafter
      cases hafter
  constructor
  · decide +kernel
  · exact (is_answered_iff_witnessed sampleOriginator sampleWorld busyRun
      (by simp [busyRun, startedRun, waitingRun]) rfl hreport hreturns hfresh
      (by decide +kernel)).1

end OtpVoice
