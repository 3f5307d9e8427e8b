import OtpVoice.Api.Rejection
import OtpVoice.Service.Terminal

/-!
# Live calls

A call is live from its `OTPCallStart` until a hangup of its channel or the end of its playback.
`live_call_not_retryable` says when a live call cannot be retried: no failure is reported for it.
The outcome of the Originate action is such a report, and it may come after the call has started.
-/

set_option autoImplicit false

namespace OtpVoice

open Coroutine

/-- From the `m`-th to the `n`-th event of a run, the record of a call exists, its playback does not
end and its channel is not hung up. -/
structure StaysLive (o : CallOriginator) (w₀ : World) (s : Conf) (requestId : String) (m n : ℕ) :
    Prop where
  exists_ : ∀ k ≤ n, m ≤ k →
    (((sequential o).worldAfter w₀ s.trace k).store.calls.find requestId).isSome = true
  plays : ∀ k < n, m ≤ k → ∀ x ∈ s.trace[k]?, ∀ op ∈ s.opOf x.1,
    op.completes requestId = false
  holds : ∀ k < n, m ≤ k → ∀ x ∈ s.trace[k]?, ∀ op ∈ s.opOf x.1,
    ∀ row ∈ ((sequential o).worldAfter w₀ s.trace k).store.calls.find requestId,
      op.hangsUp row = false

/-- From the `m`-th to the `n`-th event, no operation reports a failure of the call. -/
def NoFailure (o : CallOriginator) (w₀ : World) (s : Conf) (requestId : String) (m n : ℕ) : Prop :=
  ∀ k < n, m ≤ k → ∀ x ∈ s.trace[k]?, ∀ op ∈ s.opOf x.1,
    ∀ y ∈ op.failures (sightBefore o w₀ s k x).memory x.2.env,
      y.1 = requestId → y.2.terminal = false

instance (o : CallOriginator) (w₀ : World) (s : Conf) (requestId : String) (m n : ℕ) :
    Decidable (NoFailure o w₀ s requestId m n) :=
  inferInstanceAs (Decidable (∀ k < n, _))

/-! ## The status endpoint -/

/-- The lines of a record, in the order of `get_events`. -/
def Store.timeline (st : Store) (requestId : String) : List EventRow :=
  (st.events.filter fun ev => ev.requestId = requestId).insertionSort
    fun a b => a.atTime ≤ b.atTime

/-- What `_build_status_response` computes from the tables. -/
def Store.statusResponse (st : Store) (requestId : String) : Option CallStatusResponse :=
  (st.calls.find requestId).map fun row => buildStatusResponse row (st.timeline requestId)

/-- The status endpoint answers with the response that is computed from the tables. -/
theorem getCallStatus_returns {e : Env} (he : ∀ n, e.fault n = none) {w : World}
    {requestId : String} {response : CallStatusResponse}
    (h : w.store.statusResponse requestId = some response) :
    ((getCallStatus requestId).complete (World.respond e) 0 w).1 = .ok (.status response) := by
  obtain ⟨row, hrow, rfl⟩ := Option.map_eq_some_iff.1 h
  have hread : (getCallStatus requestId).complete (World.respond e) 0 w = _ :=
    complete_getCallRecord_bind (he 0) requestId _ w
  rw [hrow] at hread
  have hevents := complete_issue_bind e (.execute (.selectEvents requestId))
    (fun events => (pure (.status (buildStatusResponse row events)) : Prog Answer)) 1 w
  rw [World.respond_execute (he 1)] at hevents
  exact (congrArg Prod.fst hread).trans (congrArg Prod.fst hevents)

/-! ## The endpoints on a record in progress -/

section Endpoints

variable {e : Env} {w : World} {requestId : String} {row : CallRecord}

theorem Status.retryable_eq_false {status : Status} (h : status.terminal = false) :
    status.retryable = false := by
  cases hr : status.retryable with
  | false => rfl
  | true => exact absurd (Status.terminal_of_retryable hr) (by simp [h])

/-- The status endpoint reports that a record in progress cannot be retried. -/
theorem getCallStatus_live (he : ∀ n, e.fault n = none)
    (hrow : w.store.calls.find requestId = some row) (hstatus : row.status.terminal = false) :
    ∃ response, ((getCallStatus requestId).complete (World.respond e) 0 w).1 =
      .ok (.status response) ∧ response.canRetry = false := by
  have hresponse : w.store.statusResponse requestId = some (buildStatusResponse row _) :=
    congrArg (Option.map _) hrow
  exact ⟨_, getCallStatus_returns he hresponse, Status.retryable_eq_false hstatus⟩

/-- The retry endpoint answers 409 for a record in progress. -/
theorem retryCall_live (he : ∀ n, e.fault n = none)
    (hrow : w.store.calls.find requestId = some row) (hstatus : row.status.terminal = false)
    (body : RetryRequest) :
    ((retryCall requestId body).complete (World.respond e) 0 w).1 =
      .error (.http 409 (some (notRetryable row.status))) := by
  rw [complete_retryCall (he 0), hrow]
  simp only [Status.retryable_eq_false hstatus, Bool.false_eq_true, if_false]

end Endpoints

section Runs

variable {o : CallOriginator} {w₀ : World} {acts : List Turn} {requestId : String} {m n k : ℕ}

/-- One command keeps a live call in progress. -/
theorem live_step (hkeeps : NoRollbacks acts)
    (hlive : StaysLive o w₀ ((sequential o).run (Config.initial w₀) acts) requestId m n)
    (hfail : NoFailure o w₀ ((sequential o).run (Config.initial w₀) acts) requestId m n)
    (hmk : m ≤ k) (hkn : k < n) {row row' : CallRecord}
    (hbefore : ((sequential o).worldAfter w₀ ((sequential o).run (Config.initial w₀) acts).trace
      k).store.calls.find requestId = some row)
    (hstatus : row.status.terminal = false)
    (hafter : ((sequential o).worldAfter w₀ ((sequential o).run (Config.initial w₀) acts).trace
      (k + 1)).store.calls.find requestId = some row') : row'.status.terminal = false := by
  cases hx : ((sequential o).run (Config.initial w₀) acts).trace[k]? with
  | none =>
    rw [Service.worldAfter_succ_of_none _ _ hx, hbefore] at hafter
    cases hafter
    exact hstatus
  | some x =>
    rcases row_step hkeeps hx hbefore hafter with
      hkeep | ⟨op, status, now, u, hop, -, rfl, -, hreason⟩
    · rw [hkeep.1]
      exact hstatus
    · obtain ⟨-, hid⟩ := Table.find_eq_some_iff.1 hbefore
      show status.terminal = false
      -- of the four reasons for an `UPDATE` only progress is left
      cases hreason with
      | progress h => exact Op.progress_terminal h
      | failure h => exact hfail k hkn hmk x hx op hop _ h hid
      | played h =>
        rw [hid] at h
        cases (hlive.plays k hkn hmk x hx op hop).symm.trans h
      | hangup message hop' hchannel =>
        cases (hlive.holds k hkn hmk x hx op hop row hbefore).symm.trans hchannel

/-- As long as a call is live and no failure of it is reported, in a run in which nothing rolls
back, its record is in progress: the status endpoint reports that it cannot be retried, and a retry
is answered 409. -/
theorem live_call_not_retryable (o : CallOriginator) (w₀ : World) (acts : List Turn)
    (hkeeps : NoRollbacks acts) {m n : ℕ} (hmn : m ≤ n) {requestId : String} :
    let s := (sequential o).run (Config.initial w₀) acts
    let w := (sequential o).worldAfter w₀ s.trace
    ∀ row channel, (w m).store.calls.find requestId = some row → row.status = .answered →
      row.channel = some channel → StaysLive o w₀ s requestId m n →
      NoFailure o w₀ s requestId m n →
      ∀ e body, (∀ k, e.fault k = none) →
        (∃ response, ((getCallStatus requestId).complete (World.respond e) 0 (w n)).1 =
          .ok (.status response) ∧ response.canRetry = false) ∧
        ∃ detail, ((retryCall requestId body).complete (World.respond e) 0 (w n)).1 =
          .error (.http 409 detail) := by
  intro s w row channel hrow hanswered _ hlive hfail e body he
  have hexists : ∀ k, m ≤ k → k ≤ n → ((w k).store.calls.find requestId).isSome = true := by
    intro k hmk hkn
    exact hlive.exists_ k hkn hmk
  obtain ⟨row', hrow'⟩ := Option.isSome_iff_exists.1 (hexists n hmn le_rfl)
  have hstatus : row'.status.terminal = false := by
    apply Table.row_induction (t := fun k => (w k).store.calls) hmn hexists _ _ hrow'
    · intro r hr
      rw [Option.some.inj (hr.symm.trans hrow), hanswered]
      rfl
    · intro k r r' hmk hkn hr hr' hstatus
      exact live_step hkeeps hlive hfail hmk hkn hr hstatus hr'
  exact ⟨getCallStatus_live he hrow' hstatus, _, retryCall_live he hrow' hstatus body⟩

end Runs

/-- The action of a started call is acknowledged. -/
def liveRun : List Turn := startedRun ++ [.turn 1 (.calm 3 firstId [success])]

theorem live_call_not_retryable_accepted :
    let s := (sequential sampleOriginator).run (Config.initial sampleWorld) liveRun
    ∃ detail, ((retryCall firstId.text plainRetry).complete (World.respond (.calm 4 secondId [])) 0
      ((sequential sampleOriginator).worldAfter sampleWorld s.trace 33)).1 =
        .error (.http 409 detail) := by
  intro s
  have hstart : ((((sequential sampleOriginator).worldAfter sampleWorld s.trace 28).store.calls.find
      firstId.text).map fun row => (row.status, row.channel)) =
        some (.answered, some sampleChannel) := by decide +kernel
  obtain ⟨row, hrow, heq⟩ := Option.map_eq_some_iff.1 hstart
  obtain ⟨hanswered, hchannel⟩ := Prod.mk.inj heq
  exact (live_call_not_retryable sampleOriginator sampleWorld liveRun
    (by simp [liveRun, startedRun, waitingRun]) (m := 28) (n := 33) (by decide) row _ hrow
    hanswered hchannel ⟨by decide +kernel, by decide +kernel, by decide +kernel⟩ (by decide +kernel)
    (.calm 4 secondId []) plainRetry fun _ => rfl).2

/-- The acknowledgement of a started call times out. -/
def timeout (now : Time) : Env :=
  { Env.calm now firstId [] with reply := .error .timeoutError }

/-- The call has started and is neither hung up nor played, and yet its retry is accepted. -/
theorem live_call_retried :
    let s := (sequential sampleOriginator).run (Config.initial sampleWorld) (startedRun ++
      [.turn 1 (timeout 3), .arrive (.retry firstId.text plainRetry),
        .turn 3 (.calm 4 secondId [])])
    ((((sequential sampleOriginator).run (Config.initial sampleWorld)
        startedRun).world.store.calls.find firstId.text).map fun row => (row.status, row.channel)) =
          some (.answered, some sampleChannel) ∧
      s.outcome 3 = some (.input (.retry firstId.text plainRetry),
        .ok (.accepted ⟨secondId.text, .queued, 5⟩
          [⟨secondId.text, "09120000000", "1234", 2⟩])) ∧
      ∀ op ∈ s.threads.map Thread.op, op.completes firstId.text = false ∧
        ∀ row ∈ s.world.store.calls.rows, op.hangsUp row = false := by
  decide +kernel

end OtpVoice
