import OtpVoice.Api.Polling
import OtpVoice.Service.Lives
import OtpVoice.Service.Reported

/-!
# Accepted calls and their tasks

Every accepted request has exactly one background task. Once the task has returned, the record of
the call is no longer queued, its timeline has the line `originating`, and the action of the call
has been handed over or the timeline has a line `failed` (`accepted_call_is_attempted`).
-/

set_option autoImplicit false

namespace OtpVoice

open Coroutine

/-- The operation runs a task for the record. -/
def Op.calls (requestId : String) : Op → Bool
  | .execute task => task.requestId = requestId
  | .input _ => false

section Runs

variable {o : CallOriginator} {w₀ : World} {acts : List Turn} {n i : ℕ} {requestId : String}

/-- A coroutine that has nothing to do schedules no task. -/
theorem rests_unscheduled {yields : Cmd → Bool} (op : Op) (answer : Answer)
    (h : (otpService o yields).body op = .done (.ok answer)) :
    (otpService o yields).spawns answer = [] := by
  have hannounced : Announced (.ok answer) [] := by
    have hnotes : Tells o yields op Announced ((otpService o yields).body op) [] := line_notes op
    rw [h] at hnotes
    exact hnotes
  show answer.tasks.map Op.execute = []
  rw [List.map_eq_nil_iff, List.eq_nil_iff_forall_not_mem]
  intro task htask
  obtain ⟨row, hrow, -⟩ := hannounced answer rfl task htask
  cases hrow

/-- No update brings a record back to `queued`. -/
theorem leaves_queue {status : Status} {ev : Ev} (hx : (commands o w₀ acts)[n]? = some (i, ev))
    (hnote : statusNote ev = some (.updated requestId status)) : status ≠ .queued := by
  have howner : i < ((interleaved o).run (Config.initial w₀) acts).threads.length :=
    Service.run_owners _ w₀ acts _ (List.mem_of_getElem? hx)
  have hop : ((interleaved o).run (Config.initial w₀) acts).opOf i =
      some ((interleaved o).run (Config.initial w₀) acts).threads[i].op :=
    Config.opOf_eq_some_iff.2 ⟨_, List.getElem?_eq_getElem howner⟩
  have hleaves : LeavesQueue ((ownEvents i (commands o w₀ acts)).filterMap statusNote) :=
    Service.run_noting_prefix backed_body w₀ acts (fun _ _ _ h => absurd h List.not_mem_nil) hop
      (List.append_nil _).symm
  exact hleaves _ _ (List.mem_filterMap.2
    ⟨ev, mem_ownEvents.2 (List.mem_of_getElem? hx), hnote⟩)

/-- A record that is not queued is not queued later. The induction is on the commands. -/
theorem unqueued_stays (hkeeps : NoRollbacks acts) {k : ℕ} (hkn : k ≤ n)
    (hlive : ∀ j, k ≤ j → j ≤ n → ((tablesAt o w₀ acts j).calls.find requestId).isSome = true)
    {old row : CallRecord} (hold : (tablesAt o w₀ acts k).calls.find requestId = some old)
    (hunqueued : old.status ≠ .queued)
    (hrow : (tablesAt o w₀ acts n).calls.find requestId = some row) : row.status ≠ .queued := by
  induction n, hkn using Nat.le_induction generalizing row with
  | base =>
    obtain rfl : old = row := Option.some.inj (hold.symm.trans hrow)
    exact hunqueued
  | succ n hkn ih =>
    obtain ⟨mid, hmid⟩ := Option.isSome_iff_exists.1 (hlive n hkn (Nat.le_succ n))
    have hbefore : mid.status ≠ .queued :=
      ih (fun j hkj hjn => hlive j hkj (hjn.trans (Nat.le_succ n))) hmid
    rcases tablesAt_step o w₀ hkeeps n with hkeep | ⟨i, s, hran, hstore⟩
    · rw [hkeep, hmid] at hrow
      cases hrow
      exact hbefore
    · rw [hstore] at hrow
      rcases find_exec hmid hrow with rfl | ⟨now, -, rfl⟩ | ⟨fields, values, rfl, rfl⟩
      · exact hbefore
      · exact hbefore
      · have hran' := hran
        obtain ⟨ev, hx, hcmd, -⟩ := hran'
        obtain ⟨op, -, hissued⟩ := (interleaved o).run_uses (uses_issued o) w₀ acts
          (List.mem_of_getElem? hx)
        rw [hcmd] at hissued
        obtain ⟨status, now, u, rfl, rfl⟩ := hissued
        obtain ⟨ev', hx', hnote⟩ := statusNote_of_ran hran
        rw [updateRow_eq_updated]
        exact leaves_queue hx' hnote

theorem find_exec_updated {st : Store} {row : CallRecord} {status : Status} {now : Time}
    {u : StatusFields} (hrow : st.calls.find requestId = some row) :
    ((Stmt.updateCall (updateFields u) (updateValues status now u) requestId).exec st).2.calls.find
      requestId = some (row.updated status now u) := by
  simp only [Stmt.exec, Table.find_modify, if_true, hrow, Option.map_some, updateRow_eq_updated]

/-- The record after an update that has been noted. -/
theorem find_of_updated {status : Status} {ev : Ev}
    (hx : (commands o w₀ acts)[n]? = some (i, ev))
    (hnote : statusNote ev = some (.updated requestId status)) {old : CallRecord}
    (hold : (tablesAt o w₀ acts n).calls.find requestId = some old) :
    ∃ new, (tablesAt o w₀ acts (n + 1)).calls.find requestId = some new ∧ new.status = status := by
  obtain ⟨fields, tail, hcmd, hok⟩ := update_of_statusNote hnote
  obtain ⟨op, -, hissued⟩ := (interleaved o).run_uses (uses_issued o) w₀ acts
    (List.mem_of_getElem? hx)
  rw [hcmd] at hissued
  obtain ⟨status', now, u, rfl, hvalues⟩ := hissued
  obtain rfl : status = status' := by
    have hhead := congrArg List.head? hvalues
    simpa [updateValues] using hhead
  rw [hvalues] at hcmd
  have hrun : (interleaved o).run (Config.initial w₀) acts =
      (otpService o Cmd.awaited).run (Config.initial w₀) acts := rfl
  obtain ⟨hran, -⟩ := ran_of_isOk hrun hx hcmd hok
  have hstore : tablesAt o w₀ acts (n + 1) = _ := hran.store (S := interleaved o) rfl w₀
  refine ⟨old.updated status now u, ?_, rfl⟩
  rw [hstore]
  exact find_exec_updated hold

/-- What a task has read of the record of its call, or has written to it, shows it unqueued. -/
theorem Moves.unqueued (h : Secret o w₀ acts requestId) (hkeeps : NoRollbacks acts)
    {task : CallTask}
    (hop : ((interleaved o).run (Config.initial w₀) acts).opOf i = some (.execute task))
    (hid : task.requestId = requestId)
    (hmoves : Moves requestId .originating
      ((ownEvents i (commands o w₀ acts)).filterMap statusNote)) {row : CallRecord}
    (hrow : (tablesAt o w₀ acts (commands o w₀ acts).length).calls.find requestId = some row) :
    row.status ≠ .queued := by
  have hsome : ((tablesAt o w₀ acts (commands o w₀ acts).length).calls.find requestId).isSome =
      true := by
    rw [hrow]
    rfl
  -- the record is there at every command of its task
  have hlive : ∀ m ev, (commands o w₀ acts)[m]? = some (i, ev) → ∀ j, m ≤ j →
      j ≤ (commands o w₀ acts).length →
        ((tablesAt o w₀ acts j).calls.find requestId).isSome = true :=
    fun m ev hx j hmj hj => h.find_since hkeeps ((h.named hx hop hid).mono hmj) hj hsome
  have hfind {m : ℕ} {ev : Ev} {record : Option CallRecord}
      (hx : (commands o w₀ acts)[m]? = some (i, ev))
      (hnote : statusNote ev = some (.read requestId record)) :
      (tablesAt o w₀ acts m).calls.find requestId = record := by
    apply find_of_poll hx
    obtain ⟨e, k, c, r⟩ := ev
    simp only [statusNote] at hnote
    unfold StatusNote.of at hnote
    split at hnote <;> cases hnote
    rfl
  rcases hmoves with hnone | ⟨old, hterminal, hread⟩ | hupdated
  · obtain ⟨m, ev, hx, hnote⟩ := Service.exists_of_mem_notes hnone
    have hthere := hlive m ev hx m le_rfl (List.getElem?_eq_some_iff.1 hx).1.le
    rw [hfind hx hnote] at hthere
    cases hthere
  · obtain ⟨m, ev, hx, hnote⟩ := Service.exists_of_mem_notes hread
    have hm := (List.getElem?_eq_some_iff.1 hx).1.le
    refine unqueued_stays hkeeps hm (hlive m ev hx) (hfind hx hnote) ?_ hrow
    intro hqueued
    rw [hqueued] at hterminal
    cases hterminal
  · obtain ⟨m, ev, hx, hnote⟩ := Service.exists_of_mem_notes hupdated
    have hm := (List.getElem?_eq_some_iff.1 hx).1
    obtain ⟨old, hold⟩ := Option.isSome_iff_exists.1 (hlive m ev hx m le_rfl hm.le)
    obtain ⟨new, hnew, hstatus⟩ := find_of_updated hx hnote hold
    refine unqueued_stays hkeeps (Nat.succ_le_of_lt hm)
      (fun j hmj => hlive m ev hx j ((Nat.le_succ m).trans hmj)) hnew ?_ hrow
    rw [hstatus]
    decide

end Runs

section Tasks

variable {o : CallOriginator} {yields : Cmd → Bool} {w₀ : World} {acts : List Turn} {i : ℕ}
  {x : Input} {response : OTPCallResponse} {tasks : List CallTask}

/-- An accepted request schedules one task, for the record that its response names. -/
theorem task_of_accepted (hi : ((otpService o yields).run (Config.initial w₀) acts).outcome i =
      some (.input x, .ok (.accepted response tasks))) :
    ∃ task, tasks = [task] ∧ task.requestId = response.requestId := by
  obtain ⟨task, htask⟩ : ∃ task, task ∈ tasks := by
    have haccepts := Service.run_noting_ended admission_notes w₀ acts hi
    cases x with
    | otpCall request =>
      obtain ⟨_, _, row, -, -, -, rfl⟩ := haccepts
      exact ⟨_, List.mem_singleton_self _⟩
    | retry requestId body =>
      obtain ⟨_, _, _, row, _, -, -, -, rfl⟩ := haccepts
      exact ⟨_, List.mem_singleton_self _⟩
    | _ => exact haccepts.elim
  obtain ⟨y, hy, hpassive, htasks, -⟩ := scheduled_origin hi htask
  have hnames : NamesTask (.ok (.accepted response tasks)) :=
    Service.run_noting_ended namesTask_input w₀ acts hi ⟨y, hpassive, hy⟩
  exact ⟨task, htasks, hnames response tasks rfl task htask⟩

/-- Where no id is drawn twice, one thread runs the task of an accepted request. -/
theorem thread_of_accepted (hi : ((otpService o yields).run (Config.initial w₀) acts).outcome i =
      some (.input x, .ok (.accepted response tasks)))
    (hdraws : (drawn ((otpService o yields).run (Config.initial w₀) acts).trace).Nodup) :
    ∃ j task, tasks = [task] ∧ task.requestId = response.requestId ∧
      ((otpService o yields).run (Config.initial w₀) acts).opOf j = some (.execute task) ∧
      ∀ k task', ((otpService o yields).run (Config.initial w₀) acts).opOf k =
        some (.execute task') → task'.requestId = response.requestId → k = j := by
  obtain ⟨task, rfl, hid⟩ := task_of_accepted hi
  obtain ⟨j, hj⟩ := Service.started_of_scheduled _ rests_unscheduled w₀ acts hi
    (List.mem_map_of_mem (List.mem_singleton_self task))
  refine ⟨j, task, rfl, hid, hj, fun k task' hk hid' => ?_⟩
  -- no two tasks have been scheduled under this id
  have hcount := List.nodup_iff_count_le_one.1
    (nodup_of_subperm (scheduled_subperm rfl) hdraws) response.requestId
  have htasks : (scheduledTasks ((otpService o yields).run (Config.initial w₀) acts)).countP
      (fun task => task.requestId = response.requestId) = Service.total
        ((otpService o yields).scheduled (Op.calls response.requestId))
          ((otpService o yields).run (Config.initial w₀) acts) :=
    countP_scheduledTasks _ fun _ => rfl
  have htotal := Service.run_scheduled (otpService o yields)
    (q := Op.calls response.requestId) (fun _ => rfl) w₀ acts
  rw [← htasks] at htotal
  rw [List.count, List.countP_map] at hcount
  exact Service.eq_of_total_le_one (htotal.trans hcount) hk (decide_eq_true hid') hj
    (decide_eq_true hid)

end Tasks

/-- In every interleaving in which nothing rolls back, an accepted request has exactly one
background task. Once the task has returned, and while the record exists, the record is not queued,
its timeline has `originating`, and the action of the call has been handed over or the timeline has
`failed`. -/
theorem accepted_call_is_attempted (o : CallOriginator) (w₀ : World) (acts : List Turn)
    (hkeeps : NoRollbacks acts) {i : ℕ} {x : Input} {response : OTPCallResponse}
    {tasks : List CallTask} :
    let s := (interleaved o).run (Config.initial w₀) acts
    s.outcome i = some (.input x, .ok (.accepted response tasks)) →
      Secret o w₀ acts response.requestId →
      ∃ j task, tasks = [task] ∧ task.requestId = response.requestId ∧
        s.opOf j = some (.execute task) ∧
        (∀ k task', s.opOf k = some (.execute task') → task'.requestId = response.requestId →
          k = j) ∧
        ∀ answer row, s.outcome j = some (.execute task, .ok answer) →
          s.world.store.calls.find response.requestId = some row → row.status ≠ .queued ∧
            (∃ line ∈ s.world.store.timeline response.requestId, line.event = .originating) ∧
            ((∃ ev, (j, ev) ∈ s.trace ∧ ev.cmd = .submitAction (task.action o)) ∨
              ∃ line ∈ s.world.store.timeline response.requestId, line.event = .failed) := by
  intro s hi hsecret
  obtain ⟨j, task, htasks, hid, hop, hunique⟩ := thread_of_accepted hi hsecret.draws
  refine ⟨j, task, htasks, hid, hop, hunique, fun answer row hended hrow => ?_⟩
  have hend : tablesAt o w₀ acts s.trace.length = s.world.store :=
    congrArg World.store (Service.worldAfter_length (interleaved o) w₀ acts)
  rw [← hend] at hrow ⊢
  have hsome : ((tablesAt o w₀ acts s.trace.length).calls.find response.requestId).isSome =
      true := by
    rw [hrow]
    rfl
  obtain ⟨-, hattempt⟩ := Service.run_noting_ended backed_body w₀ acts hended rfl
  obtain ⟨-, hmoves, hline, houtcome⟩ := hattempt task rfl
  rw [hid] at hmoves hline houtcome
  refine ⟨hmoves.unqueued hsecret hkeeps hop hid hrow,
    hsecret.noted_line_kept hkeeps (by decide) hline hsome, ?_⟩
  refine houtcome.imp (fun hsubmitted => ?_)
    fun hfailed => hsecret.noted_line_kept hkeeps (by decide) hfailed hsome
  obtain ⟨n, ev, hx, hnote⟩ := Service.exists_of_mem_notes hsubmitted
  obtain ⟨a, ha⟩ := submit_of_statusNote hnote
  -- the task hands over its own action only
  obtain ⟨op, hop', hsub⟩ := (interleaved o).run_uses (Op.uses_submits o) w₀ acts
    (List.mem_of_getElem? hx)
  cases hop.symm.trans hop'
  rw [ha] at hsub
  have haction : a = task.action o := hsub
  exact ⟨ev, List.mem_of_getElem? hx, haction ▸ ha⟩

theorem accepted_call_is_attempted_disconnected :
    let s := (interleaved sampleOriginator).run (Config.initial sampleWorld) disconnectedRun
    ∃ row, s.world.store.calls.find firstId.text = some row ∧ row.status ≠ .queued ∧
      (∃ line ∈ s.world.store.timeline firstId.text, line.event = .originating) ∧
      ∃ line ∈ s.world.store.timeline firstId.text, line.event = .failed := by
  intro s
  have hi : s.outcome 0 = some (.input (.otpCall sampleRequest),
      .ok (.accepted ⟨firstId.text, .queued, 5⟩
        [⟨firstId.text, "09120000000", "1234", 2⟩])) := by decide +kernel
  have hended : s.outcome 1 = some (.execute ⟨firstId.text, "09120000000", "1234", 2⟩,
      .ok .finished) := by decide +kernel
  have hop : s.opOf 1 = some (.execute ⟨firstId.text, "09120000000", "1234", 2⟩) := by
    decide +kernel
  have hstored : (s.world.store.calls.find firstId.text).isSome = true := by decide +kernel
  obtain ⟨row, hrow⟩ := Option.isSome_iff_exists.1 hstored
  obtain ⟨j, task, htasks, -, -, hunique, hattempt⟩ :=
    accepted_call_is_attempted sampleOriginator sampleWorld disconnectedRun
      noRollbacks_disconnectedRun hi secret_disconnectedRun
  obtain rfl := List.singleton_inj.1 htasks
  obtain rfl : 1 = j := hunique 1 _ hop rfl
  obtain ⟨hqueued, horiginating, hplaced⟩ := hattempt _ row hended hrow
  -- the task finds the client disconnected and hands over nothing
  have hnone : ∀ x ∈ s.trace, x.2.cmd.kind ≠ .submit := by decide +kernel
  refine ⟨row, hrow, hqueued, horiginating, hplaced.resolve_left ?_⟩
  rintro ⟨ev, hmem, hcmd⟩
  exact hnone _ hmem (congrArg Cmd.kind hcmd)

end OtpVoice
