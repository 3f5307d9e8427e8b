import OtpVoice.Ami.Submission
import OtpVoice.Api.Chain
import OtpVoice.Api.Expiry
import OtpVoice.Service.Crash

/-!
# Placed calls and killed processes

A background task submits its action only after the request that scheduled it has committed the
record of the call. So whenever an action has been handed over, its record is in the durable tables,
or a cleanup after its expiry has dropped it (`placed_calls_are_durable`).
-/

set_option autoImplicit false

namespace OtpVoice

open Coroutine

/-! ## Exceptions that nothing catches -/

/-- Whatever is noted. -/
theorem noting_any {α ν : Type} {o : CallOriginator} {yields : Cmd → Bool} {f : Ev → Option ν}
    (p : Prog α) (l : List ν) :
    (otpService o yields).Noting f (fun _ => True) (fun _ _ => True) p l :=
  Coro.Sat.of_uses (I := fun _ => True) (fun _ _ _ _ _ _ _ => ⟨trivial, trivial⟩)
    (Coro.uses_true p) trivial

/-- A statement or a commit that has raised an exception. -/
def raisedNote (ev : Ev) : Option Unit := if ev.cmd.raises ev.res then some () else none

/-- After an exception of the database the coroutine ends with an exception. -/
abbrev Plain {α : Type} (o : CallOriginator) (yields : Cmd → Bool) (p : Prog α) : Prop :=
  (otpService o yields).Noting raisedNote (fun _ => True) (fun r l => r.isOk = true → l = []) p []

section Plain

variable {α β : Type} {o : CallOriginator} {yields : Cmd → Bool}

theorem Plain.bind {p : Prog β} {f : β → Prog α} (hp : Plain o yields p)
    (hf : ∀ b, Plain o yields (f b)) : Plain o yields (p >>= f) := by
  refine Service.Noting.bind hp (fun b l h => ?_) fun x l _ h => by cases h
  -- the first part has ended with a value, so it has met no exception
  rw [h rfl]
  exact hf b

theorem plain_pure (a : α) : Plain o yields (pure a : Prog α) := fun _ => rfl

theorem plain_throw (x : Exc) : Plain o yields (throw x : Prog α) := fun _ => rfl

theorem plain_perform (c : Cmd) : Plain o yields (Coro.perform c) := by
  apply Service.noting_perform
  intro e n w
  refine ⟨trivial, fun h => ?_⟩
  have hcalm : c.raises ((otpService o yields).respond e n w c).1 = false := by
    rw [Cmd.raises, h]
    exact Bool.and_false _
  simp only [raisedNote, hcalm, Bool.false_eq_true, if_false]
  rfl

theorem plain_raiseUnless (ok : Bool) (x : Exc) : Plain o yields (raiseUnless ok x) := by
  cases ok
  · exact plain_throw x
  · exact plain_pure ()

theorem plain_log {level : Level} {line : String} (a : α) :
    Plain o yields (log level line >>= fun _ => pure a) :=
  (plain_perform _).bind fun _ => plain_pure a

theorem plain_checkLimits (mobile : String) : Plain o yields (checkLimits mobile) :=
  (plain_perform _).bind fun _ => (plain_raiseUnless _ _).bind fun _ =>
    (plain_perform _).bind fun _ => (plain_raiseUnless _ _).bind fun _ =>
      (plain_perform _).bind fun _ => plain_raiseUnless _ _

theorem plain_addEvent (requestId : String) (event : EventName) (detail : Option String) :
    Plain o yields (addEvent requestId event detail) :=
  (plain_perform _).bind fun _ => (plain_perform _).bind fun _ => plain_perform _

theorem plain_createCallRecord (mobile code codeMasked : String) (parent : Option String) :
    Plain o yields (createCallRecord mobile code codeMasked parent) :=
  (plain_perform _).bind fun _ => (plain_perform _).bind fun _ => (plain_perform _).bind fun _ =>
    (plain_perform _).bind fun _ => (plain_addEvent _ _ _).bind fun _ => plain_pure _

theorem plain_incrementRetry (requestId : String) : Plain o yields (incrementRetry requestId) := by
  refine (plain_perform _).bind fun _ => (plain_perform _).bind fun _ =>
    (plain_perform _).bind fun _ => (plain_perform _).bind fun record => ?_
  cases record <;> exact plain_pure _

theorem plain_sendOtpCall (request : OTPCallRequest) : Plain o yields (sendOtpCall request) :=
  (plain_checkLimits _).bind fun _ => (plain_createCallRecord _ _ _ _).bind fun _ => plain_log _

theorem plain_retryCall (requestId : String) (body : RetryRequest) :
    Plain o yields (retryCall requestId body) := by
  apply (plain_perform _).bind
  intro record
  cases record with
  | none => exact plain_throw _
  | some record =>
    exact (plain_raiseUnless _ _).bind fun _ => (plain_raiseUnless _ _).bind fun _ =>
      (plain_checkLimits _).bind fun _ => (plain_createCallRecord _ _ _ _).bind fun _ =>
        (plain_incrementRetry _).bind fun _ => plain_log _

/-- A request for a call catches nothing. -/
theorem plain_request {x : Input} (hx : x.passive = false) : Plain o yields x.body := by
  cases x with
  | otpCall request => exact plain_sendOtpCall request
  | retry requestId body => exact plain_retryCall requestId body
  | _ => cases hx

end Plain

/-! ## The request behind a task -/

section Runs

variable {o : CallOriginator} {yields : Cmd → Bool} {w₀ : World} {acts : List Turn}

/-- A scheduled task is the only one of a request that was accepted, and is for the record that the
request has inserted. -/
theorem scheduled_origin {j : ℕ} {op : Op} {answer : Answer} {task : CallTask}
    (hended : ((otpService o yields).run (Config.initial w₀) acts).outcome j =
      some (op, .ok answer)) (htask : task ∈ answer.tasks) :
    ∃ x, op = .input x ∧ x.passive = false ∧ answer.tasks = [task] ∧
      ∃ (m : ℕ) (ev : Ev) (row : CallRecord) (repeatCount : ℤ), task = row.task repeatCount ∧
        ((otpService o yields).run (Config.initial w₀) acts).trace[m]? = some (j, ev) ∧
        requestNote ev = some (.created row) := by
  have haccepts := Service.run_noting_ended admission_notes w₀ acts hended
  cases answer with
  | accepted response tasks =>
    cases op with
    | execute task => exact haccepts.elim
    | input x =>
      cases x with
      | otpCall request =>
        obtain ⟨t, t', row, hnotes, -, -, rfl⟩ := haccepts
        obtain rfl := List.mem_singleton.1 htask
        obtain ⟨m, ev, hx, hcreated⟩ := Service.exists_of_mem_notes (y := RequestNote.created row)
          (by rw [hnotes]; simp)
        exact ⟨_, rfl, rfl, rfl, m, ev, row, _, rfl, hx, hcreated⟩
      | retry requestId body =>
        obtain ⟨parent, t, t', row, record, hnotes, -, -, rfl⟩ := haccepts
        obtain rfl := List.mem_singleton.1 htask
        obtain ⟨m, ev, hx, hcreated⟩ := Service.exists_of_mem_notes (y := RequestNote.created row)
          (by rw [hnotes]; simp)
        exact ⟨_, rfl, rfl, rfl, m, ev, row, _, rfl, hx, hcreated⟩
      | _ => exact haccepts.elim
  | _ => cases htask

/-- The task of a thread has been scheduled by a request that was accepted. -/
theorem task_origin {i : ℕ} {task : CallTask}
    (hi : ((otpService o yields).run (Config.initial w₀) acts).opOf i = some (.execute task)) :
    ∃ j x answer, x.passive = false ∧
      ((otpService o yields).run (Config.initial w₀) acts).outcome j =
        some (.input x, .ok answer) ∧
      ∃ (m : ℕ) (ev : Ev) (row : CallRecord) (repeatCount : ℤ), task = row.task repeatCount ∧
        ((otpService o yields).run (Config.initial w₀) acts).trace[m]? = some (j, ev) ∧
        requestNote ev = some (.created row) := by
  obtain ⟨prog, ht⟩ := Config.opOf_eq_some_iff.1 hi
  rcases (otpService o yields).run_spawned w₀ acts _ (List.mem_of_getElem? ht) with
    ⟨x, -, hentry⟩ | ⟨j, op, answer, hended, hspawned⟩
  · cases hentry
  · obtain ⟨task', htask, hop⟩ := List.mem_map.1 hspawned
    cases hop
    obtain ⟨x, rfl, hpassive, -, hcreated⟩ := scheduled_origin hended htask
    exact ⟨j, x, answer, hpassive, hended, hcreated⟩

/-- An accepted request has met no exception of the database. -/
theorem calm_of_accepted {j : ℕ} {x : Input} {answer : Answer} (hx : x.passive = false)
    (hended : ((otpService o yields).run (Config.initial w₀) acts).outcome j =
      some (.input x, .ok answer)) {ev : Ev}
    (hev : (j, ev) ∈ ((otpService o yields).run (Config.initial w₀) acts).trace) :
    ev.cmd.raises ev.res = false := by
  have hbody : ∀ op : Op, (otpService o yields).Noting raisedNote (fun _ => True)
      (fun r l => ∀ x, op = .input x → x.passive = false → r.isOk = true → l = []) (op.body o)
      [] := by
    intro op
    by_cases hop : ∃ x : Input, op = .input x ∧ x.passive = false
    · obtain ⟨x, rfl, hx⟩ := hop
      exact (plain_request hx).mono fun r l h _ _ _ => h
    · exact (noting_any _ _).mono fun r l _ x hx hpassive => absurd ⟨x, hx, hpassive⟩ hop
  have hnil := Service.run_noting_ended hbody w₀ acts hended x rfl hx rfl
  have hnote := List.filterMap_eq_nil_iff.1 hnil ev (mem_ownEvents.2 hev)
  simpa [raisedNote] using hnote

/-- As long as nothing rolls back, a record keeps its mobile, its code and its expiry, until a
cleanup after its expiry drops it. -/
theorem record_stays (hkeeps : NoRollbacks acts) {m n : ℕ} (hmn : m ≤ n) {requestId : String}
    {row : CallRecord}
    (hbefore : ((otpService o yields).worldAfter w₀
      ((otpService o yields).run (Config.initial w₀) acts).trace m).store.calls.find requestId =
        some row) :
    (∃ row', ((otpService o yields).worldAfter w₀
        ((otpService o yields).run (Config.initial w₀) acts).trace n).store.calls.find requestId =
          some row' ∧ row'.dialData = row.dialData ∧ row'.expiresAt = row.expiresAt) ∨
      ∃ k, PurgesAfter ((otpService o yields).run (Config.initial w₀) acts).trace row.expiresAt
        k := by
  induction n, hmn using Nat.le_induction with
  | base => exact .inl ⟨row, hbefore, rfl, rfl⟩
  | succ n hmn ih =>
    rcases ih with ⟨row', hrow', hdata, hexpiry⟩ | hpurged
    swap
    · exact .inr hpurged
    rcases store_step (S := otpService o yields) rfl w₀ (NoRollbacks.held hkeeps) n with
      hkeep | ⟨i, st, hran, hexec⟩
    · exact .inl ⟨row', by rw [hkeep]; exact hrow', hdata, hexpiry⟩
    rw [hexec]
    cases hafter : (st.exec ((otpService o yields).worldAfter w₀ _ n).store).2.calls.find
        requestId with
    | some row'' =>
      refine .inl ⟨row'', rfl, ?_, ?_⟩
      · exact (find_exec_kept CallRecord.assign_dialData (fun _ _ => rfl) hrow' hafter).trans hdata
      · exact (find_exec_kept CallRecord.assign_expiresAt (fun _ _ => rfl) hrow'
          hafter).trans hexpiry
    | none =>
      obtain ⟨now, rfl, hlt⟩ := find_exec_gone hrow' hafter
      rw [hexpiry] at hlt
      exact .inr ⟨n, purgesAfter_iff.2 ⟨i, now, hran, hlt⟩⟩

end Runs

/-! ## The records of placed calls -/

/-- The actions that have been handed over, in their order. -/
def placed (tr : List (ℕ × Ev)) : List Action := tr.filterMap fun x => submitNote x.2

theorem cmd_of_submitNote {ev : Ev} {a : Action} (h : submitNote ev = some a) :
    ev.cmd = .submitAction a := by
  unfold submitNote at h
  split at h
  · rename_i b hcmd
    rw [hcmd, Option.some.inj h]
  · cases h

section Durable

variable {o : CallOriginator} {yields : Cmd → Bool} {w : World} {acts : List Turn}

/-- What an accepted request has inserted is durable. -/
theorem inserted_before_commit {j m : ℕ} {x : Input} {answer : Answer} {ev : Ev}
    {row : CallRecord} {pre suf : List (ℕ × Ev)} (hx : x.passive = false)
    (hended : (durableRun o yields w acts).outcome j = some (.input x, .ok answer))
    (hs : (durableRun o yields w acts).trace = pre ++ suf)
    (hkeeps : ∀ x ∈ suf, x.2.cmd.commits x.2.res = false)
    (hm : (durableRun o yields w acts).trace[m]? = some (j, ev))
    (hnote : requestNote ev = some (.created row)) : m < pre.length := by
  by_contra hlate
  have hsuf : suf[m - pre.length]? = some (j, ev) := by
    rw [hs, List.getElem?_append_right (Nat.not_lt.1 hlate)] at hm
    exact hm
  have hmem : ∀ y ∈ suf, y ∈ (durableRun o yields w acts).trace := by
    rw [hs]
    exact fun y hy => List.mem_append_right _ hy
  have hcalm : ∀ {ev : Ev}, (j, ev) ∈ suf → ev.cmd.raises ev.res = false := fun hev =>
    calm_of_accepted hx hended (hmem _ hev)
  have hwrites : ev.cmd.writes = true := by
    obtain ⟨e, n, c, r⟩ := ev
    simp only [requestNote] at hnote
    unfold RequestNote.of at hnote
    split at hnote <;> cases hnote
    rfl
  rcases uncommitted_open hs hkeeps hsuf hwrites (hcalm (List.mem_of_getElem? hsuf)) with
    hopen | ⟨n, ev', -, hn, hraises⟩
  · rw [hended] at hopen
    cases hopen
  · rw [hcalm (List.mem_of_getElem? hn)] at hraises
    cases hraises

end Durable

/-- As long as nothing rolls back: whenever an action has been handed over to Asterisk, the record
of its call has been committed, and a killed process leaves it in the tables, unless a cleanup after
its expiry has dropped it. -/
theorem placed_calls_are_durable (o : CallOriginator) (yields : Cmd → Bool) (w : World)
    (acts : List Turn) (hheld : NoRollbacks acts) {a : Action}
    (ha : a ∈ placed (durableRun o yields w acts).trace) :
    ∃ (row : CallRecord) (repeatCount : ℤ), a = (row.task repeatCount).action o ∧
      ((∃ row', (durableRun o yields w acts).world.committed.calls.find row.requestId = some row' ∧
          row'.dialData = row.dialData) ∨
        ∃ k, PurgesAfter (durableRun o yields w acts).trace row.expiresAt k) := by
  obtain ⟨⟨i, ev⟩, hx, hsubmit⟩ := List.mem_filterMap.1 ha
  obtain ⟨op, hop, hsub⟩ := (otpService o yields).run_uses (Op.uses_submits o) w.opened acts hx
  rw [cmd_of_submitNote hsubmit] at hsub
  cases op with
  | input x => exact hsub.elim
  | execute task =>
    obtain ⟨j, x, answer, hpassive, hended, m, ev', row, repeatCount, rfl, hm, hnote⟩ :=
      task_origin hop
    refine ⟨row, repeatCount, hsub, ?_⟩
    obtain ⟨pre, suf, hs, hdurable, hkeeps, -⟩ := durable_prefix o yields w acts
    have hlt := inserted_before_commit hpassive hended hs hkeeps hm hnote
    have hstored := (stored_of_created rfl hm hnote).2
    have hpre : (otpService o yields).worldAfter w.opened (durableRun o yields w acts).trace
        pre.length = (otpService o yields).replay w.opened pre := by
      rw [Service.worldAfter, hs, List.take_left]
    have hstays := record_stays hheld (Nat.succ_le_of_lt hlt) hstored
    rw [hpre, ← hdurable] at hstays
    rcases hstays with ⟨row', hrow', hdata, -⟩ | hpurged
    · exact .inl ⟨row', hrow', hdata⟩
    · exact .inr hpurged

/-- The process is killed while the action waits for its acknowledgement. -/
theorem placed_calls_are_durable_waiting :
    let s := durableRun sampleOriginator Cmd.waitsForAsterisk sampleWorld waitingRun
    ∃ (row : CallRecord) (repeatCount : ℤ),
      (placed s.trace).head? = some ((row.task repeatCount).action sampleOriginator) ∧
      ((∃ row', s.world.committed.calls.find row.requestId = some row' ∧
          row'.dialData = row.dialData) ∨ ∃ k, PurgesAfter s.trace row.expiresAt k) := by
  intro s
  have hplaced : placed s.trace = [CallTask.action sampleOriginator
      ⟨firstId.text, "09120000000", "1234", 2⟩] := by decide +kernel
  obtain ⟨row, repeatCount, ha, hkept⟩ := placed_calls_are_durable sampleOriginator
    Cmd.waitsForAsterisk sampleWorld waitingRun (by simp [waitingRun])
    (hplaced ▸ List.mem_singleton_self _)
  exact ⟨row, repeatCount, by rw [hplaced, ha]; rfl, hkept⟩

end OtpVoice
