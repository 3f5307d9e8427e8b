import OtpVoice.Ami.Outcome
import OtpVoice.Service.Answered
import OtpVoice.Service.Ids

/-!
# Failed Originate actions

A failed `OriginateResponse` reaches `_on_originate_response` as an event, or is forwarded by
`originate` from the replies to its action. `failed_originate_retryable_iff`: on either way, a
record that is not terminal is left in a retryable status if and only if the message does not report
a failure with the reason of an answered call.
-/

set_option autoImplicit false

namespace OtpVoice

open Coroutine

/-- The message reports that the Originate action has failed. -/
def Message.reportsFailure (message : Message) : Prop :=
  message.get .response = some "Failure" ∨
    ∃ reason ∈ ["0", "1", "5", "8"], message.get .reason = some reason

/-- The record is in one of the `RETRYABLE_STATUSES`. -/
def Store.Retryable (st : Store) (requestId : String) : Prop :=
  ∃ row, st.calls.find requestId = some row ∧ row.status.retryable = true

instance (st : Store) (requestId : String) : Decidable (st.Retryable requestId) :=
  decidable_of_iff (((st.calls.find requestId).map fun row => row.status.retryable) = some true)
    Option.map_eq_some_iff

/-! ## The status of a failure -/

/-- Every reason but that of an answered call gives a retryable status. -/
theorem reasonToStatus_retryable (reason : String) :
    ((reasonToStatus.lookup reason).getD .failed).retryable = true ↔ reason ≠ "4" := by
  cases hlookup : reasonToStatus.lookup reason with
  | none =>
    have hne : reason ≠ "4" := by
      rintro rfl
      cases hlookup
    exact iff_of_true rfl hne
  | some status =>
    have hmem := mem_of_lookup hlookup
    simp only [reasonToStatus, List.mem_cons, List.not_mem_nil, or_false, Prod.mk.injEq] at hmem
    rcases hmem with h | h | h | h | h | h | h
    all_goals
      obtain ⟨rfl, rfl⟩ := h
      decide

/-- A reported failure asks for a status, which is retryable unless the message misreports. -/
theorem originateFailure_of_reportsFailure {message : Message} (h : message.reportsFailure) :
    ∃ status, originateFailure message = some status ∧
      (status.retryable = true ↔ ¬ message.misreports) := by
  have hfails : (message.get .response).getD "" = "Failure" ∨
      (message.get .reason).getD "" ∈ ["0", "1", "5", "8"] := by
    rcases h with hresponse | ⟨reason, hmem, hreason⟩
    · exact .inl (by rw [hresponse]; rfl)
    · exact .inr (by rw [hreason]; exact hmem)
  refine ⟨_, if_pos (by simpa using hfails), ?_⟩
  rw [reasonToStatus_retryable]
  have hreason : (message.get .reason).getD "" = "4" ↔ message.get .reason = some "4" := by
    cases message.get .reason with
    | none => exact iff_of_false (by decide) (by simp)
    | some reason => simp
  constructor
  · rintro hne ⟨-, hfour⟩
    exact hne (hreason.2 hfour)
  · intro hhonest hfour
    -- the reason of an answered call comes with `Failure` only
    rcases h with hresponse | ⟨reason, hmem, hget⟩
    · exact hhonest ⟨hresponse, hreason.1 hfour⟩
    · rw [hreason.1 hfour] at hget
      obtain rfl := Option.some.inj hget
      exact absurd hmem (by decide)

/-! ## The handler -/

section Handler

variable {e : Env} {w : World} {message : Message} {requestId : String} {row : CallRecord}

/-- The action id of a request names it. -/
theorem extractRequestId_action (hid : requestId ≠ "") :
    extractRequestId (some (actionIdPrefix ++ requestId)) = some requestId := by
  have hprefix : actionIdPrefix.toList.isPrefixOf (actionIdPrefix ++ requestId).toList = true := by
    rw [List.isPrefixOf_iff_prefix, String.toList_append]
    exact List.prefix_append _ _
  have hrest : String.ofList ((actionIdPrefix ++ requestId).toList.drop
      actionIdPrefix.toList.length) = requestId := by
    rw [String.toList_append, List.drop_left, String.ofList_toList]
  simp only [extractRequestId, hprefix, if_true, hrest, if_neg hid]

/-- A reported failure gives its status to a record that is not terminal. -/
theorem complete_failed_originate (he : e.Calm)
    (hid : extractRequestId (message.get .actionID) = some requestId)
    (hrow : w.store.calls.find requestId = some row) (hopen : row.status.terminal = false)
    (hfails : message.reportsFailure) (n : ℕ) :
    ∃ m w', (onOriginateResponse message).complete (World.respond e) n w = (.ok (), m, w') ∧
      (w'.store.Retryable requestId ↔ ¬ message.misreports) := by
  obtain ⟨status, hstatus, hiff⟩ := originateFailure_of_reportsFailure hfails
  obtain ⟨m, detail, now, t, cm, hrun⟩ := complete_onOriginateResponse e w n he hid
  refine ⟨m, _, hrun, ?_⟩
  -- the record is open, so the guard lets the status through
  simp only [hstatus]
  rw [← hiff, Store.Retryable, Store.find_updateStatus, if_pos rfl]
  have hfind : (w.store.withEvent ⟨requestId, .originateResponse, detail, now⟩).calls.find
      requestId = some row := hrow
  simp only [hfind, Option.map_some, Option.some.injEq, exists_eq_left', CallRecord.guarded,
    Status.goesBack, hopen, Bool.false_and, Bool.false_eq_true, if_false]
  rfl

/-- A forwarded message is handled like an event, and the loop goes on. -/
theorem complete_forward_cons (hhandler : e.handler = true)
    (hevent : message.get .event = some "OriginateResponse") (rest : List (Option Message))
    {n m : ℕ} {w' : World}
    (hrun : (onOriginateResponse message).complete (World.respond e) (n + 1) w = (.ok (), m, w')) :
    (CallOriginator.forward (some message :: rest)).complete (World.respond e) n w =
      (CallOriginator.forward rest).complete (World.respond e) m w' := by
  rw [← Coro.transcript_complete] at hrun
  rw [complete_forward hhandler, complete_forward hhandler, forwardedMessages_cons hevent, applied]
  generalize (onOriginateResponse message).transcript (World.respond e) (n + 1) w = x at hrun
  obtain ⟨cs, r, m', w''⟩ := x
  cases hrun
  rfl

end Handler

/-! ## Both ways of delivery -/

/-- In every state that a run reaches: when a failed Originate of a record that is not terminal has
been handled, as an event or forwarded from the replies to the action, the record is in a retryable
status if and only if the message does not report the failure with the reason of an answered
call. -/
theorem failed_originate_retryable_iff (o : CallOriginator) (yields : Cmd → Bool) {w₀ : World}
    (h₀ : w₀.store.UuidRows ∧ w₀.committed.UuidRows) (acts : List Turn) (n : ℕ) {row : CallRecord}
    {message : Message} {e : Env} (he : e.Calm) :
    let w := (otpService o yields).worldAfter w₀
      ((otpService o yields).run (Config.initial w₀) acts).trace n
    w.store.calls.find row.requestId = some row → row.status.terminal = false →
      message.get .actionID = some (actionIdPrefix ++ row.requestId) → message.reportsFailure →
      (∃ m w', (dispatch .originateResponse message).complete (World.respond e) 0 w =
          (.ok (), m, w') ∧ (w'.store.Retryable row.requestId ↔ ¬ message.misreports)) ∧
        ∀ rest k, e.handler = true → message.get .event = some "OriginateResponse" →
          ∃ m w', (CallOriginator.forward (some message :: rest)).complete (World.respond e) k w =
              (CallOriginator.forward rest).complete (World.respond e) m w' ∧
            (w'.store.Retryable row.requestId ↔ ¬ message.misreports) := by
  intro w hrow hopen haction hfails
  have hid : extractRequestId (message.get .actionID) = some row.requestId := by
    rw [haction]
    apply extractRequestId_action
    -- an id is the text of a UUID, and the empty text is none
    intro hempty
    have huuid := rows_uuid o yields h₀ acts n row.requestId row hrow
    rw [hempty] at huuid
    cases huuid
  have hhandled := complete_failed_originate he hid hrow hopen hfails
  refine ⟨hhandled 0, ?_⟩
  intro rest k hhandler hevent
  obtain ⟨m, w', hrun, hiff⟩ := hhandled (k + 1)
  exact ⟨m, w', complete_forward_cons hhandler hevent rest hrun, hiff⟩

/-- A failure of the call in `waitingRun`, without a reason. -/
def plainFailure : Message :=
  ⟨[(.event, "OriginateResponse"), (.actionID, actionIdPrefix ++ firstId.text),
    (.response, "Failure")]⟩

/-- The same failure with the reason of an answered call. -/
def answeredFailure : Message :=
  ⟨[(.event, "OriginateResponse"), (.actionID, actionIdPrefix ++ firstId.text),
    (.response, "Failure"), (.reason, "4")]⟩

/-- The state in which the call of `waitingRun` waits for its acknowledgement. -/
def waitingState : World :=
  ((sequential sampleOriginator).run (Config.initial sampleWorld) waitingRun).world

theorem waitingState_status :
    (waitingState.store.calls.find firstId.text).map CallRecord.status = some .originating := by
  decide +kernel

theorem failed_originate_retryable_iff_plain :
    ∃ m w', (dispatch .originateResponse plainFailure).complete
        (World.respond (.calm 2 firstId [])) 0 waitingState = (.ok (), m, w') ∧
      (w'.store.Retryable firstId.text ↔ ¬ plainFailure.misreports) := by
  obtain ⟨row, hrow, hstatus⟩ := Option.map_eq_some_iff.1 waitingState_status
  have hid : row.requestId = firstId.text := (Table.find_eq_some_iff.1 hrow).2
  have hend := Service.worldAfter_length (otpService sampleOriginator Cmd.waitsForAsterisk)
    sampleWorld waitingRun
  have hstart : sampleWorld.store.UuidRows ∧ sampleWorld.committed.UuidRows :=
    ⟨uuidRows_empty, uuidRows_empty⟩
  have hfailed := @failed_originate_retryable_iff sampleOriginator Cmd.waitsForAsterisk sampleWorld
    hstart waitingRun ((otpService sampleOriginator Cmd.waitsForAsterisk).run
      (Config.initial sampleWorld) waitingRun).trace.length row plainFailure (.calm 2 firstId [])
    (Env.calm_calm _ _ _)
  simp only [hend, hid] at hfailed
  exact (hfailed hrow (by rw [hstatus]; rfl) rfl (.inl rfl)).1

/-- After a failure with reason 4 the record is answered. -/
theorem failed_originate_answered :
    (waitingState.store.calls.find firstId.text).map CallRecord.status = some .originating ∧
      answeredFailure.get .actionID = some (actionIdPrefix ++ firstId.text) ∧
      answeredFailure.reportsFailure ∧
      let after := ((dispatch .originateResponse answeredFailure).complete
        (World.respond (.calm 2 firstId [])) 0 waitingState).2.2
      (after.store.calls.find firstId.text).map CallRecord.status = some .answered ∧
        ¬ after.store.Retryable firstId.text := by
  exact ⟨waitingState_status, rfl, .inl rfl, by decide +kernel, by decide +kernel⟩

end OtpVoice
