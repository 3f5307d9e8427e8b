import OtpVoice.Service.Statements
import OtpVoice.Service.Writers

/-!
# Final statuses

`update_call_status` compares only the classes of the old and the new status, and lets a terminal
status replace another one. `terminal_status_kept` says for which runs a terminal status stays:
those in which no report of a failure and no end of a playback meets a record with another terminal
status.
-/

set_option autoImplicit false

namespace OtpVoice

open Coroutine

/-- The records and statuses for which an operation asks whatever their status is: failures, and the
end of a playback. -/
def Op.asks (submitted : Bool) (e : Env) (op : Op) : List (String × Status) :=
  op.failures submitted e ++
    match op with
    | .input (.amiEvent .userEvent message) =>
      match userEventRequestId message with
      | some requestId => if op.completes requestId then [(requestId, .completed)] else []
      | none => []
    | _ => []

/-- The operation asks for a terminal status of a record that has another one. -/
def Overrides (op : Op) (v : Sight) : Prop :=
  ∃ x ∈ op.asks v.memory v.env, ∃ row ∈ v.world.store.calls.find x.1,
    row.status.terminal = true ∧ x.2.terminal = true ∧ x.2 ≠ row.status

instance (op : Op) (v : Sight) : Decidable (Overrides op v) :=
  inferInstanceAs (Decidable (∃ x ∈ _, _))

/-- No operation of the run ever asks for another terminal status of a record. -/
def NeverOverrides (o : CallOriginator) (w₀ : World) (s : Conf) : Prop :=
  ∀ n, ∀ h : n < s.trace.length, ∀ op ∈ s.opOf s.trace[n].1,
    ¬ Overrides op (sightBefore o w₀ s n s.trace[n])

instance (o : CallOriginator) (w₀ : World) (s : Conf) : Decidable (NeverOverrides o w₀ s) :=
  inferInstanceAs (Decidable (∀ n, ∀ _ : n < _, _))

theorem mem_asks_of_completes {op : Op} {requestId : String} (h : op.completes requestId = true)
    (submitted : Bool) (e : Env) : (requestId, Status.completed) ∈ op.asks submitted e := by
  unfold Op.completes at h
  split at h
  · rename_i message
    have hid : userEventRequestId message = some requestId := by
      simp only [Bool.and_eq_true, decide_eq_true_eq] at h
      exact h.2
    have hcompletes : (Op.input (.amiEvent .userEvent message)).completes requestId = true := h
    simp [Op.asks, hid, hcompletes]
  · cases h

/-- A terminal status is written only over a record that is in progress, or for an operation that
asks for it. -/
theorem Asks.mem_asks {op : Op} {submitted : Bool} {e : Env} {events : List EventRow}
    {row : CallRecord} {status : Status} (h : Asks op submitted e events row status)
    (hrow : row.status.terminal = true) (hstatus : status.terminal = true) :
    (row.requestId, status) ∈ op.asks submitted e := by
  cases h with
  | progress h => cases h.symm.trans hstatus
  | failure h => exact List.mem_append_left _ h
  | played h => exact mem_asks_of_completes h submitted e
  | hangup message hop hchannel h hevents => cases h.symm.trans hrow

section Runs

variable {o : CallOriginator} {w₀ : World} {acts : List Turn}

/-- What the `n`-th command of a run does to a record: nothing to its status and its channel, or an
`UPDATE` with a reason. -/
theorem row_step (hkeeps : NoRollbacks acts) {n : ℕ} {x : ℕ × Ev}
    (hx : ((sequential o).run (Config.initial w₀) acts).trace[n]? = some x) {requestId : String}
    {row row' : CallRecord}
    (hbefore : ((sequential o).worldAfter w₀ ((sequential o).run (Config.initial w₀) acts).trace
      n).store.calls.find requestId = some row)
    (hafter : ((sequential o).worldAfter w₀ ((sequential o).run (Config.initial w₀) acts).trace
      (n + 1)).store.calls.find requestId = some row') :
    (row'.status = row.status ∧ row'.channel = row.channel) ∨
      ∃ op status now u, ((sequential o).run (Config.initial w₀) acts).opOf x.1 = some op ∧
        x.2.cmd = .execute (.updateCall (updateFields u) (updateValues status now u) requestId) ∧
        row' = row.updated status now u ∧ row.status.goesBack status = false ∧
        Reason op (sightBefore o w₀ ((sequential o).run (Config.initial w₀) acts) n x) row
          status := by
  rw [Service.worldAfter_succ _ _ hx] at hafter
  set w := (sequential o).worldAfter w₀ ((sequential o).run (Config.initial w₀) acts).trace n
    with hw
  rcases World.respond_store x.2.env x.2.index w x.2.cmd with
    hkeep | ⟨s, hcmd, -, hexec⟩ | ⟨hundone, -⟩
  · have hafter' : (World.respond x.2.env x.2.index w x.2.cmd).2.store.calls.find requestId =
        some row' := hafter
    rw [hkeep, hbefore] at hafter'
    cases hafter'
    exact .inl ⟨rfl, rfl⟩
  · have hafter' : (World.respond x.2.env x.2.index w x.2.cmd).2.store.calls.find requestId =
        some row' := hafter
    rw [hexec] at hafter'
    rcases find_exec hbefore hafter' with rfl | ⟨now, -, rfl⟩ | ⟨fields, values, rfl, rfl⟩
    · exact .inl ⟨rfl, rfl⟩
    · exact .inl ⟨rfl, rfl⟩
    · -- an `UPDATE`: its operation says for what reason
      obtain ⟨op, hop, hupdates⟩ := updates_run o w₀ acts hx
      rw [hcmd] at hupdates
      obtain ⟨row₁, status, now, u, rfl, rfl, hfind, hguard, hreason⟩ := hupdates
      obtain rfl : row₁ = row := Option.some.inj (hfind.symm.trans hbefore)
      exact .inr ⟨op, status, now, u, hop, hcmd, updateRow_eq_updated _ _ _ _, hguard, hreason⟩
  · cases (hkeeps.held _ (List.mem_of_getElem? hx)).symm.trans hundone

/-- A record that comes up is queued. -/
theorem row_step_new (hkeeps : NoRollbacks acts) {n : ℕ} {x : ℕ × Ev}
    (hx : ((sequential o).run (Config.initial w₀) acts).trace[n]? = some x) {requestId : String}
    {row : CallRecord}
    (hbefore : ((sequential o).worldAfter w₀ ((sequential o).run (Config.initial w₀) acts).trace
      n).store.calls.find requestId = none)
    (hafter : ((sequential o).worldAfter w₀ ((sequential o).run (Config.initial w₀) acts).trace
      (n + 1)).store.calls.find requestId = some row) : row.status = .queued := by
  rw [Service.worldAfter_succ _ _ hx] at hafter
  set w := (sequential o).worldAfter w₀ ((sequential o).run (Config.initial w₀) acts).trace n
    with hw
  have hafter' : (World.respond x.2.env x.2.index w x.2.cmd).2.store.calls.find requestId =
      some row := hafter
  rcases World.respond_store x.2.env x.2.index w x.2.cmd with
    hkeep | ⟨s, hcmd, -, hexec⟩ | ⟨hundone, -⟩
  · rw [hkeep, hbefore] at hafter'
    cases hafter'
  · rw [hexec] at hafter'
    obtain rfl := find_exec_new hbefore hafter'
    obtain ⟨op, -, hupdates⟩ := updates_run o w₀ acts hx
    rw [hcmd] at hupdates
    exact hupdates
  · cases (hkeeps.held _ (List.mem_of_getElem? hx)).symm.trans hundone

/-- One command keeps a terminal status, unless its operation asks for another one. -/
theorem terminal_step (hkeeps : NoRollbacks acts) {n : ℕ}
    (h : NeverOverrides o w₀ ((sequential o).run (Config.initial w₀) acts)) {requestId : String}
    {row row' : CallRecord}
    (hbefore : ((sequential o).worldAfter w₀ ((sequential o).run (Config.initial w₀) acts).trace
      n).store.calls.find requestId = some row)
    (hterminal : row.status.terminal = true)
    (hafter : ((sequential o).worldAfter w₀ ((sequential o).run (Config.initial w₀) acts).trace
      (n + 1)).store.calls.find requestId = some row') : row'.status = row.status := by
  cases hx : ((sequential o).run (Config.initial w₀) acts).trace[n]? with
  | none =>
    rw [Service.worldAfter_succ_of_none _ _ hx, hbefore] at hafter
    cases hafter
    rfl
  | some x =>
    rcases row_step hkeeps hx hbefore hafter
      with hkeep | ⟨op, status, now, u, hop, -, rfl, hguard, hreason⟩
    · exact hkeep.1
    · by_contra hne
      obtain ⟨hn, rfl⟩ := List.getElem?_eq_some_iff.1 hx
      -- the guard lets only another terminal status replace a terminal one
      have hstatus : status.terminal = true := by
        simpa [Status.goesBack, hterminal] using hguard
      obtain ⟨-, hid⟩ := Table.find_eq_some_iff.1 hbefore
      exact h n hn op hop ⟨_, hreason.asks.mem_asks hterminal hstatus, row, hid ▸ hbefore,
        hterminal, hstatus, hne⟩

/-- In every run in which nothing rolls back and no operation asks for another terminal status of a
record, a terminal status stays as long as the record exists, and with it what the status endpoint
reports. -/
theorem terminal_status_kept (o : CallOriginator) (w₀ : World) (acts : List Turn)
    (hkeeps : NoRollbacks acts)
    (h : NeverOverrides o w₀ ((sequential o).run (Config.initial w₀) acts)) {m n : ℕ} (hmn : m ≤ n)
    {requestId : String} {row row' : CallRecord} :
    let w := (sequential o).worldAfter w₀ ((sequential o).run (Config.initial w₀) acts).trace
    (w m).store.calls.find requestId = some row → row.status.terminal = true →
      (∀ k, m ≤ k → k ≤ n → ((w k).store.calls.find requestId).isSome = true) →
      (w n).store.calls.find requestId = some row' →
      row'.status = row.status ∧ ∀ events events',
        (buildStatusResponse row' events').canRetry = (buildStatusResponse row events).canRetry ∧
        (buildStatusResponse row' events').isTerminal = true := by
  intro w hrow hterminal hexists hrow'
  have hkept : row'.status = row.status := by
    apply Table.row_induction (t := fun k => (w k).store.calls) hmn hexists _ _ hrow'
    · intro r hr
      rw [Option.some.inj (hr.symm.trans hrow)]
    · intro k r r' _ _ hr hr' hbefore
      rw [← hbefore]
      exact terminal_step hkeeps h hr (hbefore ▸ hterminal) hr'
  refine ⟨hkept, ?_⟩
  intro events events'
  constructor
  · simp only [buildStatusResponse, hkept]
  · simp only [buildStatusResponse, hkept, hterminal]

end Runs

/-- A call whose OTP has been played. -/
def playedRun : List Turn :=
  waitingRun ++ [.arrive (.amiEvent .userEvent (playbackComplete firstId.text)),
    .turn 2 (.calm 2 firstId [])]

/-- The status of the first call after a run. -/
def statusAfter (acts : List Turn) : Option Status :=
  (((sequential sampleOriginator).run (Config.initial sampleWorld) acts).world.store.calls.find
    firstId.text).map CallRecord.status

/-- The acknowledgement of its action comes after the end of the playback. -/
def acknowledgedRun : List Turn := playedRun ++ [.turn 1 (.calm 3 firstId [success])]

theorem terminal_status_kept_acknowledged :
    let s := (sequential sampleOriginator).run (Config.initial sampleWorld) acknowledgedRun
    let w := (sequential sampleOriginator).worldAfter sampleWorld s.trace
    ∃ row row', (w 28).store.calls.find firstId.text = some row ∧
      (w 33).store.calls.find firstId.text = some row' ∧ row.status = .completed ∧
        row'.status = row.status := by
  intro s w
  have hstatus :
      ((w 28).store.calls.find firstId.text).map CallRecord.status = some .completed := by
    decide +kernel
  have hexists : ∀ k ∈ List.range 34, 28 ≤ k →
      ((w k).store.calls.find firstId.text).isSome = true := by decide +kernel
  obtain ⟨row, hrow, hcompleted⟩ := Option.map_eq_some_iff.1 hstatus
  obtain ⟨row', hrow'⟩ := Option.isSome_iff_exists.1 (hexists 33 (by decide) (by decide))
  have hkept := terminal_status_kept sampleOriginator sampleWorld acknowledgedRun
    (by simp [acknowledgedRun, playedRun, waitingRun]) (by decide +kernel) (m := 28) (n := 33)
    (by decide) hrow (by rw [hcompleted]; rfl) (fun k hk hkn => hexists k (by simp; omega) hk) hrow'
  exact ⟨row, row', hrow, hrow', hcompleted, hkept.1⟩

/-- A late failure turns a completed call into a busy one, which may be retried. -/
theorem failure_overrides_completed :
    statusAfter playedRun = some .completed ∧
      statusAfter (playedRun ++
        [.arrive (.amiEvent .originateResponse (originateBusy firstId.text)),
          .turn 3 (.calm 3 firstId [])]) = some .busy ∧
      Status.completed.retryable = false ∧ Status.busy.retryable = true := by
  decide +kernel

end OtpVoice
