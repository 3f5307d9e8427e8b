import OtpVoice.Asterisk.Heard
import OtpVoice.Service.Placed

/-!
# Polling an accepted request

`accepted_call_is_visible`: a status request that arrives after a call has been accepted finds the
record of the call, with its mobile, whatever else runs; it is answered 404 only after a cleanup
past the expiry of the record.
-/

set_option autoImplicit false

namespace OtpVoice

open Coroutine

/-- A read of the record of a request. -/
def PollNote.of : (c : Cmd) → Except Exc c.Resp → Option (String × Option CallRecord)
  | .execute (.selectCall requestId), .ok record => some (requestId, record)
  | _, _ => none

/-- The note of an event. -/
def pollNote (ev : Ev) : Option (String × Option CallRecord) := PollNote.of ev.cmd ev.res

/-- What a status request answers: an exception of the database, or what the record says that it has
read. -/
def Polled (requestId : String) (r : Except Exc Answer) (l : List (String × Option CallRecord)) :
    Prop :=
  (∃ text, r = .error (.other text)) ∨
    (l = [(requestId, none)] ∧ r = .error (.http 404 (some "request_id یافت نشد"))) ∨
    ∃ row events, l = [(requestId, some row)] ∧
      r = .ok (.status (buildStatusResponse row events))

section Noting

variable {o : CallOriginator} {yields : Cmd → Bool}

/-- A statement raises an exception of the database only. -/
theorem respond_execute_cases (e : Env) (n : ℕ) (w : World) (s : Stmt) :
    (∃ text, (World.respond e n w (.execute s)).1 = .error (.other text)) ∨
      ∃ a, (World.respond e n w (.execute s)).1 = .ok a := by
  cases hfault : e.fault n with
  | some text =>
    rw [World.respond_fault hfault]
    exact .inl ⟨text, rfl⟩
  | none =>
    rw [World.respond_execute hfault]
    simp only [World.answer]
    split
    · exact .inr ⟨_, rfl⟩
    · exact .inl ⟨_, rfl⟩

theorem poll_getCallRecord (requestId : String) :
    (otpService o yields).Noting pollNote (fun _ => True)
      (fun r l => (∃ text, r = .error (.other text)) ∨
        ∃ record, r = .ok record ∧ l = [(requestId, record)])
      (getCallRecord requestId) [] := by
  apply Service.noting_perform
  intro e n w
  refine ⟨trivial, ?_⟩
  rcases respond_execute_cases e n w (.selectCall requestId) with ⟨text, h⟩ | ⟨record, h⟩
  · exact .inl ⟨text, h⟩
  · refine .inr ⟨record, h, ?_⟩
    have hnote : pollNote ⟨e, n, .execute (.selectCall requestId),
        (World.respond e n w (.execute (.selectCall requestId))).1⟩ = some (requestId, record) := by
      rw [h]
      rfl
    show [] ++ (pollNote ⟨e, n, _,
      (World.respond e n w (.execute (.selectCall requestId))).1⟩).toList = _
    rw [hnote]
    rfl

theorem poll_getEvents (requestId : String) {l : List (String × Option CallRecord)} :
    (otpService o yields).Noting pollNote (fun _ => True)
      (fun r l' => l' = l ∧ ((∃ text, r = .error (.other text)) ∨ ∃ events, r = .ok events))
      (getEvents requestId) l := by
  apply Service.noting_perform
  intro e n w
  exact ⟨trivial, List.append_nil l, respond_execute_cases e n w (.selectEvents requestId)⟩

theorem poll_getCallStatus (requestId : String) :
    (otpService o yields).Noting pollNote (fun _ => True) (Polled requestId)
      (getCallStatus requestId) [] := by
  refine (poll_getCallRecord requestId).bind (fun record l h => ?_) fun x l h => ?_
  · obtain ⟨text, h⟩ | ⟨record', h, rfl⟩ := h
    · cases h
    cases h
    cases record with
    | none => exact .inr (.inl ⟨rfl, rfl⟩)
    | some row =>
      refine (poll_getEvents requestId).bind (fun events l h => ?_) fun x l h => ?_
      · exact .inr (.inr ⟨row, events, h.1, rfl⟩)
      · obtain ⟨-, ⟨text, h⟩ | ⟨events, h⟩⟩ := h
        · cases h
          exact .inl ⟨text, rfl⟩
        · cases h
  · obtain ⟨text, h⟩ | ⟨record, h, -⟩ := h
    · cases h
      exact .inl ⟨text, rfl⟩
    · cases h

/-- What every status request answers. -/
theorem poll_notes (op : Op) : (otpService o yields).Noting pollNote (fun _ => True)
    (fun r l => ∀ requestId, op = .input (.status requestId) → Polled requestId r l) (op.body o)
    [] := by
  by_cases hop : ∃ requestId, op = .input (.status requestId)
  · obtain ⟨requestId, rfl⟩ := hop
    refine (poll_getCallStatus requestId).mono fun r l h key hkey => ?_
    cases hkey
    exact h
  · exact (noting_any _ _).mono fun r l _ requestId h => absurd ⟨requestId, h⟩ hop

end Noting

section Runs

variable {o : CallOriginator} {yields : Cmd → Bool} {w₀ : World} {acts : List Turn}

/-- What a status request has read is what the tables held. -/
theorem find_of_poll {n i : ℕ} {ev : Ev} {requestId : String} {record : Option CallRecord}
    (hx : ((otpService o yields).run (Config.initial w₀) acts).trace[n]? = some (i, ev))
    (hnote : pollNote ev = some (requestId, record)) :
    ((otpService o yields).worldAfter w₀
      ((otpService o yields).run (Config.initial w₀) acts).trace n).store.calls.find requestId =
        record := by
  have hanswer := Service.trace_answers (otpService o yields) w₀ acts hx
  have hread : requestNote ev = some (.read record) ∧
      ev.cmd = .execute (.selectCall requestId) := by
    obtain ⟨e, k, c, r⟩ := ev
    simp only [pollNote] at hnote
    unfold PollNote.of at hnote
    split at hnote <;> cases hnote
    exact ⟨rfl, rfl⟩
  obtain ⟨key, hcmd, hfind⟩ := find_of_read hread.1 hanswer
  have hkey := Cmd.execute.inj (hcmd.symm.trans hread.2)
  rw [← Stmt.selectCall.inj hkey]
  exact hfind

/-- An accepted request has created the record that its response names. -/
theorem created_of_accepted {j : ℕ} {x : Input} {response : OTPCallResponse}
    {tasks : List CallTask}
    (hj : ((otpService o yields).run (Config.initial w₀) acts).outcome j =
      some (.input x, .ok (.accepted response tasks))) :
    ∃ (m : ℕ) (ev : Ev) (row : CallRecord), row.requestId = response.requestId ∧
      ((otpService o yields).run (Config.initial w₀) acts).trace[m]? = some (j, ev) ∧
      requestNote ev = some (.created row) := by
  have htasks : ∃ task, task ∈ tasks := by
    have haccepts := Service.run_noting_ended admission_notes w₀ acts hj
    cases x with
    | otpCall request =>
      obtain ⟨_, _, row, -, -, -, rfl⟩ := haccepts
      exact ⟨_, List.mem_singleton_self _⟩
    | retry requestId body =>
      obtain ⟨_, _, _, row, _, -, -, -, rfl⟩ := haccepts
      exact ⟨_, List.mem_singleton_self _⟩
    | _ => exact haccepts.elim
  obtain ⟨task, htask⟩ := htasks
  obtain ⟨y, hy, hpassive, -, m, ev, row, repeatCount, rfl, hm, hcreated⟩ :=
    scheduled_origin hj htask
  have hnames : NamesTask (.ok (.accepted response tasks)) :=
    Service.run_noting_ended namesTask_input w₀ acts hj ⟨y, hpassive, hy⟩
  exact ⟨m, ev, row, hnames response tasks rfl _ htask, hm, hcreated⟩

end Runs

/-- In a run in which nothing rolls back, a status request that arrives after a call has been
accepted shows the record of the call, with its id and mobile, unless the request itself meets an
exception of the database, or a cleanup past the expiry of the record has run. -/
theorem accepted_call_is_visible (o : CallOriginator) (yields : Cmd → Bool) (w₀ : World)
    (acts later : List Turn) (hkeeps : NoRollbacks (acts ++ later)) {i j : ℕ} {x : Input}
    {response : OTPCallResponse} {tasks : List CallTask} {r : Except Exc Answer}
    (hj : ((otpService o yields).run (Config.initial w₀) acts).outcome j =
      some (.input x, .ok (.accepted response tasks)))
    (hnew : ((otpService o yields).run (Config.initial w₀) acts).threads.length ≤ i)
    (hi : ((otpService o yields).run (Config.initial w₀) (acts ++ later)).outcome i =
      some (.input (.status response.requestId), r)) :
    ∃ row, row.requestId = response.requestId ∧
      .created row ∈ (ownEvents j ((otpService o yields).run (Config.initial w₀)
        acts).trace).filterMap requestNote ∧
      ((∃ record events, r = .ok (.status (buildStatusResponse record events)) ∧
          record.requestId = row.requestId ∧ record.dialData = row.dialData) ∨
        (∃ text, r = .error (.other text)) ∨
        ∃ k, PurgesAfter ((otpService o yields).run (Config.initial w₀) (acts ++ later)).trace
          row.expiresAt k) := by
  obtain ⟨m, ev, row, hid, hm, hcreated⟩ := created_of_accepted hj
  refine ⟨row, hid, List.mem_filterMap.2 ⟨ev, mem_ownEvents.2 (List.mem_of_getElem? hm), hcreated⟩,
    ?_⟩
  have hm' : ((otpService o yields).run (Config.initial w₀) (acts ++ later)).trace[m]? =
      some (j, ev) := Service.getElem?_run_append _ hm
  have hstored := (stored_of_created rfl hm' hcreated).2
  -- the record that a later read finds
  have hread : ∀ record, (response.requestId, record) ∈ (ownEvents i ((otpService o yields).run
      (Config.initial w₀) (acts ++ later)).trace).filterMap pollNote →
      (∃ row', record = some row' ∧ row'.requestId = row.requestId ∧
          row'.dialData = row.dialData) ∨
        ∃ k, PurgesAfter ((otpService o yields).run (Config.initial w₀) (acts ++ later)).trace
          row.expiresAt k := by
    intro record hmem
    obtain ⟨n, ev', hn, hnote⟩ := Service.exists_of_mem_notes hmem
    have hfind := find_of_poll hn hnote
    -- the poll has begun after the record was created
    have hmn : m < n := (List.getElem?_eq_some_iff.1 hm).1.trans_le
      (Service.length_le_of_later _ hnew hn)
    rcases record_stays hkeeps (Nat.succ_le_of_lt hmn) hstored
      with ⟨row', hrow', hdata, -⟩ | hpurged
    · rw [hid, hfind] at hrow'
      refine .inl ⟨row', hrow', ?_, hdata⟩
      rw [hid]
      exact (Table.find_eq_some_iff.1 (hfind.trans hrow')).2
    · exact .inr hpurged
  rcases Service.run_noting_ended poll_notes w₀ _ hi _ rfl with
    herror | ⟨hnotes, -⟩ | ⟨record, events, hnotes, hanswer⟩
  · exact .inr (.inl herror)
  · rcases hread none (by rw [hnotes]; exact List.mem_singleton_self _) with ⟨_, h, -⟩ | hpurged
    · cases h
    · exact .inr (.inr hpurged)
  · rcases hread (some record) (by rw [hnotes]; exact List.mem_singleton_self _) with
      ⟨row', h, hrow', hdata⟩ | hpurged
    · cases h
      exact .inl ⟨record, events, hanswer, hrow', hdata⟩
    · exact .inr (.inr hpurged)

/-- The poll of a call whose action waits for its acknowledgement. -/
theorem accepted_call_is_visible_waiting :
    let s := (sequential sampleOriginator).run (Config.initial sampleWorld)
      (waitingRun ++ [.arrive (.status firstId.text), .turn 2 (.calm 2 firstId [])])
    ∃ (r : Except Exc Answer) (row : CallRecord),
      s.outcome 2 = some (.input (.status firstId.text), r) ∧ row.requestId = firstId.text ∧
      ((∃ record events, r = .ok (.status (buildStatusResponse record events)) ∧
          record.requestId = row.requestId ∧ record.dialData = row.dialData) ∨
        (∃ text, r = .error (.other text)) ∨ ∃ k, PurgesAfter s.trace row.expiresAt k) := by
  intro s
  have hj : ((sequential sampleOriginator).run (Config.initial sampleWorld) waitingRun).outcome 0 =
      some (.input (.otpCall sampleRequest), .ok (.accepted ⟨firstId.text, .queued, 5⟩
        [⟨firstId.text, "09120000000", "1234", 2⟩])) := by decide +kernel
  have hop : (s.outcome 2).map Prod.fst = some (.input (.status firstId.text)) := by decide +kernel
  obtain ⟨⟨op, r⟩, hi, rfl⟩ := Option.map_eq_some_iff.1 hop
  obtain ⟨row, hid, -, hvisible⟩ := accepted_call_is_visible sampleOriginator Cmd.waitsForAsterisk
    sampleWorld waitingRun [.arrive (.status firstId.text), .turn 2 (.calm 2 firstId [])]
    (by simp [waitingRun]) hj
    (by decide +kernel) hi
  exact ⟨r, row, hi, hid, hvisible⟩

end OtpVoice
