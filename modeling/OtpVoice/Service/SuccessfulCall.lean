import OtpVoice.Ami.Failure
import OtpVoice.Service.HangupCause
import OtpVoice.Service.Timeline

/-!
# A successful call, end to end

`SuccessfulCall` lists what happens to a call whose OTP is played to its end: its Originate action
is accepted, and the three events of its dialplan and a hangup are handled in this order. Anything
else may come at any moment: states and hangups of any channel, successful reports about the call,
and whatever other calls do.

- `completed_step`: only a failure changes a completed record.
- `Plays.line`: a handled dialplan event adds its line to the timeline.
- `successful_call`: at the end of the run the call is reported as completed, with the three lines.
  They are in the order of the events if the clock has not gone back between the three handlers
  (`clock_reorders_timeline`).
-/

set_option autoImplicit false

namespace OtpVoice

open Coroutine

/-! ## The messages of a call -/

/-- A failure that is asked for has been reported. -/
theorem reportsFailure_of_failures {message : Message} {x : String × Status}
    (hx : x ∈ message.failures) :
    extractRequestId (message.get .actionID) = some x.1 ∧ message.reportsFailure := by
  unfold Message.failures at hx
  split at hx
  · rename_i requestId status hid hfailure
    obtain rfl := List.mem_singleton.1 hx
    refine ⟨hid, ?_⟩
    simp only [originateFailure, Bool.or_eq_true, decide_eq_true_eq] at hfailure
    split at hfailure
    · rename_i hreports
      rcases hreports with hresponse | hmem
      · left
        cases hget : message.get .response with
        | none => rw [hget] at hresponse; exact absurd hresponse (by decide)
        | some text => rw [hget] at hresponse; exact congrArg some hresponse
      · right
        cases hget : message.get .reason with
        | none => rw [hget] at hmem; exact absurd hmem (by decide)
        | some reason => rw [hget] at hmem; exact ⟨reason, hmem, rfl⟩
    · cases hfailure
  · cases hx

/-- The guard lets every terminal status through. -/
theorem CallRecord.guarded_terminal {status : Status} (h : status.terminal = true) (now : Time)
    (u : StatusFields) (row : CallRecord) : (row.guarded status now u).status = status := by
  have hguard : row.status.goesBack status = false := by simp [Status.goesBack, h]
  rw [CallRecord.guarded, hguard]
  rfl

theorem Store.lines_withEvent (st : Store) {row : EventRow} {requestId : String}
    (hid : row.requestId = requestId) :
    (st.withEvent row).lines requestId = st.lines requestId ++ [row] :=
  lines_insertEvent st hid

theorem Store.lines_updateStatus (st : Store) (requestId : String) (status : Status) (now : Time)
    (u : StatusFields) (key : String) :
    (st.updateStatus requestId status now u).lines key = st.lines key :=
  congrArg (List.filter _) (Store.events_updateStatus st requestId status now u)

/-- The clock has not gone back from the turn with environment `e` to the one with `e'`. -/
def Env.Before (e e' : Env) : Prop := ∀ m n, e.now m ≤ e'.now n

section Runs

variable (o : CallOriginator) (w₀ : World) (acts : List Turn)

/-- The tables after the first `n` commands of a run. -/
def storeOf (n : ℕ) : Store :=
  ((sequential o).worldAfter w₀ ((sequential o).run (Config.initial w₀) acts).trace n).store

/-- The `k`-th decision handles an event of the dialplan of a record, and the handler returns. -/
def Plays (k : ℕ) (requestId : String) (d : DialplanEvent) (e : Env) : Prop :=
  ∃ message, Handles o w₀ acts k (.amiEvent .userEvent message) e ∧
    userEventRequestId message = some requestId ∧ dialplanEvent message = some d ∧
    ((onUserEvent message).complete (World.respond e) 0
      ((sequential o).confAt w₀ acts k).world).1 = .ok ()

/-- No statement of the run deletes the record. -/
def NeverDeleted (requestId : String) : Prop :=
  ∀ n, ((storeOf o w₀ acts n).calls.find requestId).isSome = true →
    ((storeOf o w₀ acts (n + 1)).calls.find requestId).isSome = true

/-- The Originate action of the request is accepted. -/
def Accepted (requestId : String) : Prop :=
  ∀ (n : ℕ) (x : ℕ × Ev) (task : CallTask),
    ((sequential o).run (Config.initial w₀) acts).trace[n]? = some x →
    ((sequential o).run (Config.initial w₀) acts).opOf x.1 = some (.execute task) →
    task.requestId = requestId →
      x.2.env.Accepts (submitted x.1 (((sequential o).run (Config.initial w₀) acts).trace.take n))

/-- Every `OriginateResponse` for the request, in a message or in a reply, is successful. -/
structure Succeeds (requestId : String) : Prop where
  message : ∀ message, Act.arrive (.amiEvent .originateResponse message) ∈ acts →
    extractRequestId (message.get .actionID) = some requestId → ¬ message.reportsFailure
  reply : ∀ i e reply message, Act.turn i e ∈ acts → e.reply = .ok reply →
    some message ∈ reply.messages → message.get .event = some "OriginateResponse" →
      extractRequestId (message.get .actionID) = some requestId → ¬ message.reportsFailure

/-- A run without a rollback, with a call that is answered, played to its end and hung
up: its record exists when the
dialplan starts and is never deleted, its Originate action is accepted, and the events of its
dialplan and then a hangup are handled by the given decisions, in the given environments. -/
structure SuccessfulCall (requestId : String) (k₁ k₂ k₃ k₄ : ℕ) (e₁ e₂ e₃ : Env) : Prop where
  order : k₁ < k₂ ∧ k₂ < k₃ ∧ k₃ < k₄
  noRollbacks : NoRollbacks acts
  created : (rowAt o w₀ acts k₁ requestId).isSome = true
  kept : NeverDeleted o w₀ acts requestId
  accepted : Accepted o w₀ acts requestId
  succeeds : Succeeds acts requestId
  start : Plays o w₀ acts k₁ requestId .callStart e₁
  playback : Plays o w₀ acts k₂ requestId .playbackStart e₂
  complete : Plays o w₀ acts k₃ requestId .playbackComplete e₃
  hungUp : ∃ message e, Handles o w₀ acts k₄ (.amiEvent .hangup message) e

variable {o w₀ acts} {m n k : ℕ} {requestId : String} {d : DialplanEvent} {e : Env}

theorem storeAt_eq_storeOf (k : ℕ) :
    storeAt o w₀ acts k = storeOf o w₀ acts ((sequential o).confAt w₀ acts k).trace.length :=
  (congrArg World.store ((sequential o).worldAfter_confAt k)).symm

theorem NeverDeleted.later (h : NeverDeleted o w₀ acts requestId) (hmn : m ≤ n)
    (hm : ((storeOf o w₀ acts m).calls.find requestId).isSome = true) :
    ((storeOf o w₀ acts n).calls.find requestId).isSome = true := by
  induction n, hmn using Nat.le_induction with
  | base => exact hm
  | succ n _ ih => exact h n ih

/-! ## The lines -/

/-- The lines of a record that is never deleted are kept. -/
theorem NeverDeleted.lines (h : NeverDeleted o w₀ acts requestId) (hkeeps : NoRollbacks acts)
    (hmn : m ≤ n)
    (hm : ((storeOf o w₀ acts m).calls.find requestId).isSome = true) :
    (storeOf o w₀ acts m).lines requestId <+: (storeOf o w₀ acts n).lines requestId := by
  apply lines_kept (S := sequential o) rfl w₀ hkeeps.held hmn
  intro k hmk _
  exact h.later hmk.le hm

theorem NeverDeleted.rowAt {j : ℕ} (h : NeverDeleted o w₀ acts requestId) (hjk : j ≤ k)
    (hj : (rowAt o w₀ acts j requestId).isSome = true) :
    (rowAt o w₀ acts k requestId).isSome = true := by
  rw [OtpVoice.rowAt, storeAt_eq_storeOf] at hj ⊢
  exact h.later ((sequential o).confAt_length hjk) hj

theorem NeverDeleted.linesAt {j : ℕ} (h : NeverDeleted o w₀ acts requestId)
    (hkeeps : NoRollbacks acts) (hjk : j ≤ k)
    (hj : (OtpVoice.rowAt o w₀ acts j requestId).isSome = true) :
    (storeAt o w₀ acts j).lines requestId <+: (storeAt o w₀ acts k).lines requestId := by
  rw [OtpVoice.rowAt, storeAt_eq_storeOf] at hj
  rw [storeAt_eq_storeOf, storeAt_eq_storeOf k]
  exact h.lines hkeeps ((sequential o).confAt_length hjk) hj

/-- What a handled dialplan event does to the tables. -/
theorem Plays.store (h : Plays o w₀ acts k requestId d e) : ∃ st detail n,
    storeAt o w₀ acts (k + 1) = st.withEvent ⟨requestId, d.line, detail, e.now n⟩ ∧
      (d = .callStart ∧ st = storeAt o w₀ acts k ∨
        ∃ t u, st = (storeAt o w₀ acts k).updateStatus requestId d.status t u) := by
  -- the handler has run alone, and has returned
  obtain ⟨message, hx, hid, hd, hok⟩ := h
  obtain ⟨r, m, st, cm, hrun, -, hreturns⟩ := complete_onUserEvent e _ hid hd
  rw [hrun] at hok
  obtain ⟨st', detail, n, rfl, hst'⟩ := hreturns hok
  exact ⟨st', detail, n, congrArg World.store (hx.dispatch hrun), hst'⟩

/-- A handled dialplan event adds its line. -/
theorem Plays.line (h : Plays o w₀ acts k requestId d e) : ∃ line : EventRow,
    line.event = d.line ∧ (∃ n, line.atTime = e.now n) ∧
      (storeAt o w₀ acts (k + 1)).lines requestId =
        (storeAt o w₀ acts k).lines requestId ++ [line] := by
  obtain ⟨st, detail, n, hafter, hst⟩ := h.store
  have hlines : st.lines requestId = (storeAt o w₀ acts k).lines requestId := by
    rcases hst with ⟨-, rfl⟩ | ⟨t, u, rfl⟩
    · rfl
    · exact Store.lines_updateStatus _ _ _ _ _ _
  refine ⟨⟨requestId, d.line, detail, e.now n⟩, rfl, ⟨n, rfl⟩, ?_⟩
  rw [hafter, Store.lines_withEvent _ rfl, hlines]

/-! ## The status -/

/-- A completed playback completes the record, whatever its status. -/
theorem Plays.completes (h : Plays o w₀ acts k requestId .playbackComplete e)
    (hexists : (rowAt o w₀ acts k requestId).isSome = true) :
    ∃ row, rowAt o w₀ acts (k + 1) requestId = some row ∧ row.status = .completed := by
  obtain ⟨row, hrow⟩ := Option.isSome_iff_exists.1 hexists
  obtain ⟨st, detail, n, hafter, ⟨hd, -⟩ | ⟨t, u, rfl⟩⟩ := h.store
  · cases hd
  · -- `completed` is terminal, so the guard lets it through
    refine ⟨row.guarded .completed t u, ?_, CallRecord.guarded_terminal rfl _ _ _⟩
    rw [rowAt, hafter]
    show ((storeAt o w₀ acts k).updateStatus requestId .completed t u).calls.find requestId = _
    rw [Store.find_updateStatus, if_pos rfl]
    exact congrArg (Option.map _) hrow

/-- An operation asks for no failure of a call that succeeds. -/
theorem not_mem_failures (haccepted : Accepted o w₀ acts requestId)
    (hsucceeds : Succeeds acts requestId) {x : ℕ × Ev} {op : Op} {status : Status}
    (hx : ((sequential o).run (Config.initial w₀) acts).trace[n]? = some x)
    (hop : ((sequential o).run (Config.initial w₀) acts).opOf x.1 = some op) :
    (requestId, status) ∉ op.failures
      (submitted x.1 (((sequential o).run (Config.initial w₀) acts).trace.take n)) x.2.env := by
  intro hmem
  cases op with
  | input y =>
    -- a message that reports a failure
    cases y with
    | amiEvent kind message =>
      cases kind with
      | originateResponse =>
        obtain ⟨hid, hreports⟩ := reportsFailure_of_failures hmem
        exact hsucceeds.message message (arrived_of_opOf hop) hid hreports
      | _ => cases hmem
    | _ => cases hmem
  | execute task =>
    rcases failures_execute_cases hmem with ⟨hfailed, hrejected⟩ |
      ⟨reply, message, hreply, hmessage, hevent, hmem⟩
    · -- the action of the call is accepted
      obtain ⟨hid, -⟩ := Prod.mk.inj hfailed
      exact hrejected (haccepted n x task hx hop hid.symm)
    · -- a message of a reply, to this task or to another one
      obtain ⟨hid, hreports⟩ := reportsFailure_of_failures hmem
      have henv := (sequential o).run_env w₀ acts _ (List.mem_of_getElem? hx)
      exact hsucceeds.reply _ _ reply message henv hreply hmessage hevent hid hreports

/-- One command keeps a completed record completed. -/
theorem completed_step (hkeeps : NoRollbacks acts) (haccepted : Accepted o w₀ acts requestId)
    (hsucceeds : Succeeds acts requestId) {row row' : CallRecord}
    (hbefore : (storeOf o w₀ acts n).calls.find requestId = some row)
    (hstatus : row.status = .completed)
    (hafter : (storeOf o w₀ acts (n + 1)).calls.find requestId = some row') :
    row'.status = .completed := by
  cases hx : ((sequential o).run (Config.initial w₀) acts).trace[n]? with
  | none =>
    rw [storeOf, Service.worldAfter_succ_of_none _ _ hx, ← storeOf, hbefore] at hafter
    cases hafter
    exact hstatus
  | some x =>
    rcases row_step hkeeps hx hbefore hafter
      with hkeep | ⟨op, status, now, u, hop, -, rfl, hguard, hreason⟩
    · rw [hkeep.1]
      exact hstatus
    · obtain ⟨-, hid⟩ := Table.find_eq_some_iff.1 hbefore
      show status = .completed
      cases hreason with
      | progress hmem =>
        -- the guard refuses to go back
        have hprogress : status.terminal = false := Op.progress_terminal hmem
        rw [Status.goesBack, hstatus, hprogress] at hguard
        cases hguard
      | failure hmem => exact absurd (hid ▸ hmem) (not_mem_failures haccepted hsucceeds hx hop)
      | played => rfl
      | hangup message _ _ hopen =>
        -- a hangup writes a status only on an open record
        rw [hstatus] at hopen
        cases hopen

/-- A completed record stays completed as long as it exists. -/
theorem completed_stays (hkeeps : NoRollbacks acts) (haccepted : Accepted o w₀ acts requestId)
    (hsucceeds : Succeeds acts requestId) (hkept : NeverDeleted o w₀ acts requestId) (hmn : m ≤ n)
    {row : CallRecord} (hrow : (storeOf o w₀ acts m).calls.find requestId = some row)
    (hstatus : row.status = .completed) : ∃ row',
      (storeOf o w₀ acts n).calls.find requestId = some row' ∧ row'.status = .completed := by
  have hexists : ∀ k, m ≤ k → k ≤ n →
      ((storeOf o w₀ acts k).calls.find requestId).isSome = true := by
    intro k hmk _
    exact hkept.later hmk (Option.isSome_iff_exists.2 ⟨row, hrow⟩)
  obtain ⟨row', hrow'⟩ := Option.isSome_iff_exists.1 (hexists n hmn le_rfl)
  refine ⟨row', hrow', ?_⟩
  apply Table.row_induction (t := fun k => (storeOf o w₀ acts k).calls) hmn hexists _ _ hrow'
  · intro r hr
    rw [Option.some.inj (hr.symm.trans hrow), hstatus]
  · intro k r r' _ _ hr hr' hbefore
    exact completed_step hkeeps haccepted hsucceeds hr hbefore hr'

/-! ## The whole call -/

/-- Lines that a record has had are still there, in their order, before the line of a dialplan
event. -/
theorem NeverDeleted.snoc_line {j : ℕ} (h : NeverDeleted o w₀ acts requestId)
    (hkeeps : NoRollbacks acts) (hjk : j ≤ k)
    (hj : (OtpVoice.rowAt o w₀ acts j requestId).isSome = true) {ls : List EventRow}
    (hls : List.Sublist ls ((storeAt o w₀ acts j).lines requestId))
    (hplays : Plays o w₀ acts k requestId d e) : ∃ line : EventRow, line.event = d.line ∧
      (∃ n, line.atTime = e.now n) ∧
        List.Sublist (ls ++ [line]) ((storeAt o w₀ acts (k + 1)).lines requestId) := by
  obtain ⟨line, hevent, htime, hlines⟩ := hplays.line
  refine ⟨line, hevent, htime, ?_⟩
  rw [hlines]
  exact List.Sublist.append (hls.trans (h.linesAt hkeeps hjk hj).sublist) (List.Sublist.refl _)

variable {k₁ k₂ k₃ k₄ : ℕ} {e₁ e₂ e₃ : Env}

theorem SuccessfulCall.length (h : SuccessfulCall o w₀ acts requestId k₁ k₂ k₃ k₄ e₁ e₂ e₃) :
    k₃ + 1 ≤ acts.length := by
  obtain ⟨message, e, i, hact, -⟩ := h.hungUp
  have hlt : k₄ < acts.length := (List.getElem?_eq_some_iff.1 hact).1
  exact (Nat.succ_le_of_lt h.order.2.2).trans hlt.le

/-- The three lines of a successful call, in the order of their insertion. -/
theorem SuccessfulCall.lines (h : SuccessfulCall o w₀ acts requestId k₁ k₂ k₃ k₄ e₁ e₂ e₃) :
    ∃ l₁ l₂ l₃ : EventRow,
      [l₁, l₂, l₃].map EventRow.event = [.dialplanStart, .playing, .playbackComplete] ∧
      (∃ n, l₁.atTime = e₁.now n) ∧ (∃ n, l₂.atTime = e₂.now n) ∧ (∃ n, l₃.atTime = e₃.now n) ∧
      List.Sublist [l₁, l₂, l₃] ((storeAt o w₀ acts acts.length).lines requestId) := by
  obtain ⟨h₁₂, h₂₃, -⟩ := h.order
  have hexists : ∀ k, k₁ ≤ k → (rowAt o w₀ acts k requestId).isSome = true :=
    fun k hk => h.kept.rowAt hk h.created
  -- each handler adds its line, and the earlier ones stay
  obtain ⟨l₁, hevent₁, htime₁, hlines₁⟩ :=
    h.kept.snoc_line h.noRollbacks le_rfl h.created (List.nil_sublist _) h.start
  obtain ⟨l₂, hevent₂, htime₂, hlines₂⟩ :=
    h.kept.snoc_line h.noRollbacks h₁₂ (hexists _ (Nat.le_succ k₁)) hlines₁ h.playback
  obtain ⟨l₃, hevent₃, htime₃, hlines₃⟩ :=
    h.kept.snoc_line h.noRollbacks h₂₃ (hexists _ (h₁₂.le.trans (Nat.le_succ k₂))) hlines₂
      h.complete
  refine ⟨l₁, l₂, l₃, ?_, htime₁, htime₂, htime₃, ?_⟩
  · simp [hevent₁, hevent₂, hevent₃, DialplanEvent.line]
  · have hlater := hexists (k₃ + 1) ((h₁₂.trans h₂₃).le.trans (Nat.le_succ k₃))
    exact hlines₃.trans (h.kept.linesAt h.noRollbacks h.length hlater).sublist

/-- A successful call is completed at the end of the run. -/
theorem SuccessfulCall.completed (h : SuccessfulCall o w₀ acts requestId k₁ k₂ k₃ k₄ e₁ e₂ e₃) :
    ∃ row, (storeAt o w₀ acts acts.length).calls.find requestId = some row ∧
      row.status = .completed := by
  have hexists := h.kept.rowAt (h.order.1.trans h.order.2.1).le h.created
  obtain ⟨row, hrow, hstatus⟩ := h.complete.completes hexists
  rw [rowAt, storeAt_eq_storeOf] at hrow
  rw [storeAt_eq_storeOf]
  exact completed_stays h.noRollbacks h.accepted h.succeeds h.kept
    ((sequential o).confAt_length h.length) hrow hstatus

end Runs

/-- Lines in the order of their insertion are in the timeline, and in this order if it is the order
of their times. -/
theorem Store.mem_timeline {st : Store} {requestId : String} {ls : List EventRow}
    (h : List.Sublist ls (st.lines requestId)) :
    (∀ line ∈ ls, line ∈ st.timeline requestId) ∧
      (ls.Pairwise (fun a b => a.atTime ≤ b.atTime) → List.Sublist ls (st.timeline requestId)) := by
  constructor
  · intro line hline
    exact (List.mem_insertionSort _).2 (h.subset hline)
  · intro hordered
    exact List.sublist_insertionSort hordered h

theorem buildStatusResponse_events (row : CallRecord) (events : List EventRow) :
    (buildStatusResponse row events).timeline.map TimelineEvent.event =
      events.map EventRow.event :=
  List.map_map

/-- At the end of every run with a successful call the status endpoint reports the call as
completed, terminal, answered and not retryable. Its timeline has the lines of the three events of
the dialplan, in the order of the events if the clock has not gone back between their handlers. -/
theorem successful_call (o : CallOriginator) (w₀ : World) (acts : List Turn) {requestId : String}
    {k₁ k₂ k₃ k₄ : ℕ} {e₁ e₂ e₃ : Env}
    (h : SuccessfulCall o w₀ acts requestId k₁ k₂ k₃ k₄ e₁ e₂ e₃) :
    ∃ response, (∀ e, (∀ n, e.fault n = none) →
        ((getCallStatus requestId).complete (World.respond e) 0
          ((sequential o).run (Config.initial w₀) acts).world).1 = .ok (.status response)) ∧
      response.status = .completed ∧ response.isTerminal = true ∧ response.isAnswered = true ∧
      response.canRetry = false ∧
      (∀ event ∈ [EventName.dialplanStart, .playing, .playbackComplete],
        event ∈ response.timeline.map TimelineEvent.event) ∧
      (e₁.Before e₂ → e₂.Before e₃ →
        List.Sublist [EventName.dialplanStart, .playing, .playbackComplete]
          (response.timeline.map TimelineEvent.event)) := by
  have hend : storeAt o w₀ acts acts.length =
      ((sequential o).run (Config.initial w₀) acts).world.store := by
    rw [storeAt, Service.confAt, List.take_length]
  obtain ⟨row, hrow, hstatus⟩ := h.completed
  obtain ⟨l₁, l₂, l₃, hevents, ⟨n₁, htime₁⟩, ⟨n₂, htime₂⟩, ⟨n₃, htime₃⟩, hlines⟩ := h.lines
  rw [hend] at hrow hlines
  obtain ⟨hmem, hordered⟩ := Store.mem_timeline hlines
  have hresponse : ((sequential o).run (Config.initial w₀) acts).world.store.statusResponse
      requestId = some (buildStatusResponse row _) := congrArg (Option.map _) hrow
  refine ⟨_, fun e he => getCallStatus_returns he hresponse, hstatus, ?_, ?_, ?_, ?_⟩
  · show row.status.terminal = true
    rw [hstatus]
    rfl
  · simp [buildStatusResponse, hstatus, answeredOrLater]
  · show row.status.retryable = false
    rw [hstatus]
    rfl
  · rw [buildStatusResponse_events, ← hevents]
    constructor
    · intro event hevent
      obtain ⟨line, hline, rfl⟩ := List.mem_map.1 hevent
      exact List.mem_map_of_mem (hmem line hline)
    · intro hbefore₁ hbefore₂
      -- the times of the lines are readings of the clock in the three handlers
      have h₁₂ : l₁.atTime ≤ l₂.atTime := by
        rw [htime₁, htime₂]
        exact hbefore₁ n₁ n₂
      have h₂₃ : l₂.atTime ≤ l₃.atTime := by
        rw [htime₂, htime₃]
        exact hbefore₂ n₂ n₃
      apply List.Sublist.map
      apply hordered
      simp [h₁₂, h₂₃, h₁₂.trans h₂₃]

/-! ## A call whose playback starts at a given time -/

/-- A successful call; the start of its playback is handled when the clock says `t`. -/
def playedCall (t : Time) : List Turn :=
  [.arrive (.otpCall sampleRequest), .turn 0 (.calm 0 firstId [success]),
    .turn 1 (.calm 1 firstId [success]),
    .arrive (.amiEvent .userEvent (callStart firstId.text sampleChannel)),
    .turn 2 (.calm 2 firstId [success]), .turn 1 (.calm 3 firstId [success]),
    .arrive (.amiEvent .userEvent (playbackStart firstId.text)),
    .turn 3 (.calm t firstId [success]),
    .arrive (.amiEvent .userEvent (playbackComplete firstId.text)),
    .turn 4 (.calm 5 firstId [success]), .arrive (.amiEvent .hangup normalHangup),
    .turn 5 (.calm 6 firstId [success])]

theorem env_playedCall {t : Time} {i : ℕ} {e : Env} (h : Act.turn i e ∈ playedCall t) :
    ∃ now, e = .calm now firstId [success] := by
  simp only [playedCall, List.mem_cons, List.not_mem_nil, or_false, reduceCtorEq, false_or,
    Act.turn.injEq] at h
  rcases h with ⟨-, h⟩ | ⟨-, h⟩ | ⟨-, h⟩ | ⟨-, h⟩ | ⟨-, h⟩ | ⟨-, h⟩ | ⟨-, h⟩ <;> exact ⟨_, h⟩

/-- The call is successful whether the clock goes on or is set back to 1. -/
theorem successful_playedCall {t : Time} (ht : t = 4 ∨ t = 1) :
    SuccessfulCall sampleOriginator sampleWorld (playedCall t) firstId.text 4 7 9 11
      (.calm 2 firstId [success]) (.calm t firstId [success]) (.calm 5 firstId [success]) := by
  constructor
  case order => decide
  case noRollbacks => rcases ht with rfl | rfl <;> simp [playedCall]
  case created => rcases ht with rfl | rfl <;> decide +kernel
  case kept =>
    have hlen : ((sequential sampleOriginator).run (Config.initial sampleWorld)
        (playedCall t)).trace.length ≤ 60 := by
      rcases ht with rfl | rfl <;> decide +kernel
    have hrows : ∀ n ∈ List.range 60,
        ((storeOf sampleOriginator sampleWorld (playedCall t) n).calls.find firstId.text).isSome =
          true →
        ((storeOf sampleOriginator sampleWorld (playedCall t) (n + 1)).calls.find
          firstId.text).isSome = true := by
      rcases ht with rfl | rfl <;> decide +kernel
    intro n hn
    by_cases hlt : n < 60
    · exact hrows n (List.mem_range.2 hlt) hn
    · rw [storeOf, Service.worldAfter_succ_of_none _ _ (List.getElem?_eq_none (by omega))]
      exact hn
  case accepted =>
    intro n x task hx _ _
    have henv := (sequential sampleOriginator).run_env sampleWorld _ _ (List.mem_of_getElem? hx)
    obtain ⟨now, he⟩ := env_playedCall henv
    rw [he]
    cases submitted x.1 _ with
    | false => exact ⟨rfl, rfl⟩
    | true => exact ⟨_, _, _, rfl, rfl, rfl⟩
  case succeeds =>
    constructor
    · intro message hmem
      simp [playedCall] at hmem
    · intro i e reply message hmem hreply hmessage hevent
      obtain ⟨now, rfl⟩ := env_playedCall hmem
      cases hreply
      obtain rfl := Option.some.inj (List.mem_singleton.1 hmessage)
      cases hevent
  case start =>
    refine ⟨_, ⟨2, rfl, rfl⟩, rfl, rfl, ?_⟩
    rcases ht with rfl | rfl <;> decide +kernel
  case playback =>
    refine ⟨_, ⟨3, rfl, rfl⟩, rfl, rfl, ?_⟩
    rcases ht with rfl | rfl <;> decide +kernel
  case complete =>
    refine ⟨_, ⟨4, rfl, rfl⟩, rfl, rfl, ?_⟩
    rcases ht with rfl | rfl <;> decide +kernel
  case hungUp =>
    refine ⟨normalHangup, .calm 6 firstId [success], 5, rfl, ?_⟩
    rcases ht with rfl | rfl <;> rfl

theorem successful_call_played : ∃ response,
    ((getCallStatus firstId.text).complete (World.respond (.calm 7 firstId [])) 0
      ((sequential sampleOriginator).run (Config.initial sampleWorld) (playedCall 4)).world).1 =
        .ok (.status response) ∧
    response.status = .completed ∧ response.canRetry = false ∧
    List.Sublist [EventName.dialplanStart, .playing, .playbackComplete]
      (response.timeline.map TimelineEvent.event) := by
  obtain ⟨response, hreturns, hstatus, -, -, hretry, -, hordered⟩ :=
    successful_call sampleOriginator sampleWorld (playedCall 4) (successful_playedCall (.inl rfl))
  have h₂₄ : (Env.calm 2 firstId [success]).Before (.calm 4 firstId [success]) :=
    fun _ _ => by show (2 : Time) ≤ 4; decide
  have h₄₅ : (Env.calm 4 firstId [success]).Before (.calm 5 firstId [success]) :=
    fun _ _ => by show (4 : Time) ≤ 5; decide
  exact ⟨response, hreturns _ fun _ => rfl, hstatus, hretry, hordered h₂₄ h₄₅⟩

/-- The clock is set back before the start of the playback is handled: its line comes before the
line of the start of the call. -/
theorem clock_reorders_timeline :
    SuccessfulCall sampleOriginator sampleWorld (playedCall 1) firstId.text 4 7 9 11
        (.calm 2 firstId [success]) (.calm 1 firstId [success]) (.calm 5 firstId [success]) ∧
      ∃ response, ((sequential sampleOriginator).run (Config.initial sampleWorld)
          (playedCall 1)).world.store.statusResponse firstId.text = some response ∧
        response.timeline.map TimelineEvent.event =
          [.queued, .originating, .playing, .dialplanStart, .playbackComplete, .hangup] ∧
        ¬ List.Sublist [EventName.dialplanStart, .playing, .playbackComplete]
          (response.timeline.map TimelineEvent.event) := by
  refine ⟨successful_playedCall (.inr rfl), ?_⟩
  have hevents : (((sequential sampleOriginator).run (Config.initial sampleWorld)
      (playedCall 1)).world.store.statusResponse firstId.text).map
        (fun response => response.timeline.map TimelineEvent.event) =
      some [.queued, .originating, .playing, .dialplanStart, .playbackComplete, .hangup] := by
    decide +kernel
  obtain ⟨response, hresponse, heq⟩ := Option.map_eq_some_iff.1 hevents
  refine ⟨response, hresponse, heq, ?_⟩
  rw [heq]
  decide

end OtpVoice
