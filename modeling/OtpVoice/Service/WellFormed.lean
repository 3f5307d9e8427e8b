import OtpVoice.Ami.Variable
import OtpVoice.Coroutine.Rely
import OtpVoice.Storage.Rows

/-!
# Well-formed data

What no check of the service looks at again: the records were built by the two endpoints from
validated bodies and from records that had been built so, and everything that comes after relies on
it, the retries, the dialled actions and the answers. `records_well_formed` says that this trust is
justified, for every service that switches at any of its commands.

`CallRecord.WellFormed` is the invariant of the stored rows, `CallTask.WellFormed` that of the
scheduled background tasks. `Cmd.Reads` is what a coroutine may assume of the rows that it reads
while they are well formed, and `Cmd.Sound` what it owes: well-formed new rows, updates that keep
them so, and actions of well-formed tasks.
-/

set_option autoImplicit false

namespace OtpVoice

open Coroutine

/-! ## Well-formed rows, tasks and answers -/

/-- A result of `normalize_mobile`. -/
def IsMobile (mobile : String) : Prop := ∃ raw, normalizeMobile raw = (true, mobile)

/-- What holds of every record of the service. -/
structure CallRecord.WellFormed (row : CallRecord) : Prop where
  requestId : isUuid4 row.requestId = true
  mobile : IsMobile row.mobile
  code : row.code ≠ ""
  codeMasked : row.codeMasked = maskCode row.code
  parent : ∀ parent, row.parentRequestId = some parent → isUuid4 parent = true
  expiry : row.expiresAt = row.createdAt + ttlSeconds
  -- no function writes this status, nor a duration
  status : row.status ≠ .cancelled
  duration : row.duration = none

/-- What holds of every scheduled task. -/
structure CallTask.WellFormed (task : CallTask) : Prop where
  requestId : isUuid4 task.requestId = true
  mobile : IsMobile task.mobile
  code : task.code ≠ ""
  repeatCount : 1 ≤ task.repeatCount ∧ task.repeatCount ≤ 3

/-- The Originate action of a well-formed task, with its number and its repeat count as they are. -/
def CallOriginator.Dials (o : CallOriginator) (a : Action) : Prop :=
  ∃ task : CallTask, task.WellFormed ∧ a = o.action task.requestId task.mobile
    (sanitizeAmiValue task.code) task.repeatCount originateTimeout

/-- An accepted call comes with the task of its id, and a status says what the row says. -/
def Answer.WellFormed : Answer → Prop
  | .accepted response tasks =>
    ∃ task : CallTask, tasks = [task] ∧ task.WellFormed ∧ task.requestId = response.requestId
  | .status response => ∃ (row : CallRecord) (events : List EventRow), row.WellFormed ∧
    response = buildStatusResponse row events
  | _ => True

/-- The operations whose tasks are well formed. -/
def Op.WellFormed : Op → Prop
  | .input _ => True
  | .execute task => task.WellFormed

/-! ## What the statements keep -/

/-- An update of `update_call_status` with the values that its callers give. -/
def Stmt.Sound : Stmt → Prop
  | .insertCall row => row.WellFormed
  | .updateCall fields values _ => ∃ status now u, fields = updateFields u ∧
    values = updateValues status now u ∧ status ≠ .cancelled ∧ u.duration = none
  | _ => True

/-- Every record of the tables is well formed. -/
def Store.WellFormed (st : Store) : Prop := ∀ row ∈ st.calls.rows, row.WellFormed

theorem CallRecord.WellFormed.updated {row : CallRecord} (h : row.WellFormed) {status : Status}
    (hstatus : status ≠ .cancelled) (now : Time) {u : StatusFields} (hu : u.duration = none) :
    (row.updated status now u).WellFormed :=
  { h with
    status := hstatus
    duration := by simp only [CallRecord.updated, hu, h.duration]; rfl }

theorem Store.WellFormed.find {st : Store} (h : st.WellFormed) {requestId : String}
    {row : CallRecord} (hrow : st.calls.find requestId = some row) :
    row.WellFormed ∧ row.requestId = requestId := by
  obtain ⟨hmem, hkey⟩ := Table.find_eq_some_iff.1 hrow
  exact ⟨h row hmem, hkey⟩

theorem Store.WellFormed.exec {st : Store} (h : st.WellFormed) {s : Stmt} (hs : s.Sound) :
    (s.exec st).2.WellFormed := by
  intro row' hmem
  have hafter := Table.find_mem hmem
  cases hbefore : st.calls.find row'.requestId with
  | none =>
    obtain rfl := find_exec_new hbefore hafter
    exact hs
  | some row =>
    have hrow := (h.find hbefore).1
    rcases find_exec hbefore hafter with rfl | ⟨now, -, rfl⟩ | ⟨fields, values, rfl, heq⟩
    · exact hrow
    · exact { hrow with }
    · obtain ⟨status, now, u, rfl, rfl, hstatus, hu⟩ := hs
      rw [heq, updateRow_eq_updated]
      exact hrow.updated hstatus now hu

/-! ## What the commands keep -/

/-- A row that is read by its id is well formed and has this id. -/
def Cmd.Reads : (c : Cmd) → Except Exc c.Resp → Prop
  | .execute (.selectCall requestId), .ok record => ∀ row : CallRecord,
    (record : Option CallRecord) = some row → row.WellFormed ∧ row.requestId = requestId
  | _, _ => True

/-- What the service writes is well formed, and what it hands over dials a number. -/
def Cmd.Sound (o : CallOriginator) : Cmd → Prop
  | .execute s => s.Sound
  | .submitAction a => o.Dials a
  | _ => True

theorem reads_respond (e : Env) (n : ℕ) {w : World} (hw : w.store.WellFormed) (c : Cmd) :
    c.Reads (World.respond e n w c).1 := by
  cases c with
  | execute s =>
    cases s with
    | selectCall requestId =>
      cases hfault : e.fault n with
      | some text =>
        rw [World.respond_fault hfault]
        trivial
      | none =>
        rw [World.respond_execute hfault]
        exact fun row hrow => hw.find hrow
    | _ => trivial
  | _ => trivial

/-- A sound command keeps the tables and those of the last commit well-formed. -/
theorem wellFormed_respond (o : CallOriginator) (e : Env) (n : ℕ) {w : World}
    (hw : w.store.WellFormed ∧ w.committed.WellFormed) {c : Cmd} (hc : c.Sound o) :
    (World.respond e n w c).2.store.WellFormed ∧ (World.respond e n w c).2.committed.WellFormed :=
  World.respond_keeps hw fun s hs _ => hw.1.exec (by subst hs; exact hc)

/-! ## What each coroutine owes -/

section Coroutines

variable {α β : Type} {o : CallOriginator}

/-- The coroutine relies on well-formed rows and owes sound commands; `Q` is what it returns. -/
def Owes (o : CallOriginator) (Q : α → Prop) (p : Prog α) : Prop :=
  Service.Relies Cmd.Reads (Cmd.Sound o) (fun r => ∀ a, r = .ok a → Q a) p

theorem owes_pure {Q : α → Prop} {a : α} (h : Q a) : Owes o Q (pure a) := by
  rintro _ ⟨⟩
  exact h

theorem owes_throw {Q : α → Prop} (x : Exc) : Owes o Q (throw x : Prog α) := by
  rintro _ ⟨⟩

theorem Owes.bind {P : β → Prop} {Q : α → Prop} {p : Prog β} {f : β → Prog α} (hp : Owes o P p)
    (hf : ∀ b, P b → Owes o Q (f b)) : Owes o Q (p >>= f) :=
  Service.Relies.bind hp (fun b hb => hf b (hb b rfl)) fun x _ _ ha => by cases ha

/-- What follows a first part of which nothing is known. -/
theorem Owes.seq {Q : α → Prop} {p : Prog β} {f : β → Prog α} (hp : Owes o (fun _ => True) p)
    (hf : ∀ b, Owes o Q (f b)) : Owes o Q (p >>= f) :=
  hp.bind fun b _ => hf b

theorem Owes.tryCatch {Q : α → Prop} {p : Prog α} {h : Exc → Prog α} (hp : Owes o Q p)
    (hh : ∀ x, Owes o Q (h x)) : Owes o Q (tryCatch p h) :=
  Service.Relies.tryCatch hp (fun _ ha => ha) fun x _ => hh x

/-- The commands that owe nothing. -/
def Kind.free : Kind → Bool
  | .insertCall | .updateCall | .submit => false
  | _ => true

theorem sound_of_free {c : Cmd} (h : c.kind.free = true) : c.Sound o := by
  cases c with
  | execute s => cases s <;> trivial
  | submitAction a => cases h
  | _ => trivial

theorem owes_of_touches {p : Prog α} {ks : List Kind} (hp : Touches ks p)
    (hks : ks.all Kind.free = true) : Owes o (fun _ => True) p :=
  Service.Relies.mono
    (Service.relies_of_uses (Coro.Uses.mono (fun _ hc => sound_of_free
      (List.all_eq_true.1 hks _ hc)) hp)) fun _ _ _ _ => trivial

theorem owes_issue {c : Cmd} {Q : c.Resp → Prop} (hc : c.Sound o)
    (hQ : ∀ a, c.Reads (.ok a) → Q a) : Owes o Q (issue c) :=
  Service.relies_perform hc fun _ hr _ ha => hQ _ (ha ▸ hr)

theorem owes_raiseUnless (ok : Bool) (x : Exc) :
    Owes o (fun _ => ok = true) (raiseUnless ok x) := by
  cases ok with
  | true => exact owes_pure rfl
  | false => exact owes_throw x

theorem owes_getCallRecord (requestId : String) :
    Owes o (fun record => ∀ row, record = some row → row.WellFormed ∧ row.requestId = requestId)
      (getCallRecord requestId) :=
  owes_issue trivial fun _ hr => hr

theorem owes_updateCallStatus (requestId : String) {status : Status} (hstatus : status ≠ .cancelled)
    {u : StatusFields} (hu : u.duration = none) :
    Owes o (fun _ => True) (updateCallStatus requestId status u) := by
  refine (owes_getCallRecord requestId).bind fun record _ => ?_
  cases record with
  | none => exact owes_pure trivial
  | some record =>
    dsimp only
    split
    · exact owes_pure trivial
    · refine (owes_of_touches touches_time rfl).seq fun now => Owes.seq ?_ fun _ =>
        (owes_of_touches touches_commit rfl).seq fun _ => owes_pure trivial
      exact owes_issue ⟨status, now, u, rfl, rfl, hstatus, hu⟩ fun _ _ => trivial

theorem owes_addEvent (requestId : String) (event : EventName) (detail : Option String) :
    Owes o (fun _ => True) (addEvent requestId event detail) :=
  owes_of_touches (touches_addEvent requestId event detail) rfl

/-! ## The event handlers -/

theorem originateFailure_ne {message : Message} {status : Status}
    (h : originateFailure message = some status) : status ≠ .cancelled := by
  have hall : ∀ x ∈ reasonToStatus, x.2 ≠ .cancelled := by decide
  simp only [originateFailure] at h
  split at h
  · rw [← Option.some.inj h]
    cases hlookup : reasonToStatus.lookup ((message.get .reason).getD "") with
    | none => exact nofun
    | some status => exact hall _ (mem_of_lookup hlookup)
  · cases h

theorem hangupStatus_ne (cause : ℤ) (status : Status) : hangupStatus cause status ≠ .cancelled := by
  have hall : ∀ x ∈ causeToStatus, x.2 ≠ .cancelled := by decide
  rw [hangupStatus]
  split
  · rename_i new hlookup
    exact hall _ (mem_of_lookup hlookup)
  · split <;> exact nofun

theorem owes_onOriginateResponse (message : Message) :
    Owes o (fun _ => True) (onOriginateResponse message) := by
  rw [onOriginateResponse]
  split
  · exact owes_pure trivial
  · refine (owes_addEvent _ _ _).seq fun _ => ?_
    split
    · rename_i hfailure
      exact (owes_updateCallStatus _ (originateFailure_ne hfailure) rfl).seq fun _ =>
        owes_pure trivial
    · exact owes_pure trivial

theorem owes_onNewState (message : Message) : Owes o (fun _ => True) (onNewState message) := by
  rw [onNewState]
  split
  · exact owes_pure trivial
  · refine (owes_of_touches (touches_getCallByChannel _) rfl).seq fun record => ?_
    cases record with
    | none => exact owes_pure trivial
    | some record =>
      dsimp only
      split
      · exact owes_pure trivial
      · rename_i hstate
        refine (owes_updateCallStatus _ ?_ rfl).seq fun _ => owes_addEvent _ _ _
        rcases stateStatus_cases hstate with heq | heq <;> cases heq <;> exact nofun

theorem owes_onHangup (message : Message) : Owes o (fun _ => True) (onHangup message) := by
  rw [onHangup]
  split
  · exact owes_pure trivial
  · refine (owes_of_touches (touches_getCallByChannel _) rfl).seq fun record => ?_
    cases record with
    | none => exact owes_pure trivial
    | some record =>
      refine (owes_addEvent _ _ _).seq fun _ => ?_
      split
      · exact owes_pure trivial
      · exact (owes_updateCallStatus _ (hangupStatus_ne _ _) rfl).seq fun _ => owes_pure trivial

theorem owes_onUserEvent (message : Message) : Owes o (fun _ => True) (onUserEvent message) := by
  rw [onUserEvent]
  split
  · exact owes_pure trivial
  · split
    · split
      · exact (owes_updateCallStatus _ (by decide) (by rfl)).seq fun _ => owes_addEvent _ _ _
      · exact owes_addEvent _ _ _
    · exact (owes_updateCallStatus _ (by decide) (by rfl)).seq fun _ => owes_addEvent _ _ _
    · exact (owes_updateCallStatus _ (by decide) (by rfl)).seq fun _ => owes_addEvent _ _ _
    · exact owes_pure trivial

theorem owes_dispatch (kind : EventKind) (message : Message) :
    Owes o (fun _ => True) (dispatch kind message) := by
  cases kind with
  | originateResponse => exact owes_onOriginateResponse message
  | newchannel => exact owes_pure trivial
  | newstate => exact owes_onNewState message
  | hangup => exact owes_onHangup message
  | userEvent => exact owes_onUserEvent message

/-! ## Originating -/

theorem sanitizeAmiValue_of_isMobile {mobile : String} (h : IsMobile mobile) :
    sanitizeAmiValue mobile = mobile := by
  obtain ⟨raw, hraw⟩ := h
  obtain ⟨-, -, ds, -, hmobile, -, hall⟩ := digits_of_normalizeMobile hraw
  have hdigits : ∀ c ∈ mobile.toList, isDecimal c = true := by
    rw [hmobile]
    simp only [List.forall_mem_cons]
    exact ⟨by decide, by decide, List.all_eq_true.1 hall⟩
  have hkeep : ∀ c ∈ mobile.toList, (!amiDangerous c) = true := by
    intro c hc
    simp [amiDangerous, isDecimal_ne (hdigits c hc) (d := '\r') (by decide),
      isDecimal_ne (hdigits c hc) (d := '\n') (by decide),
      isDecimal_ne (hdigits c hc) (d := '\x00') (by decide)]
  rw [sanitizeAmiValue, List.filter_eq_self.2 hkeep, String.ofList_toList]

theorem owes_forward (messages : List (Option Message)) :
    Owes o (fun _ => True) (CallOriginator.forward messages) := by
  induction messages with
  | nil => exact owes_pure trivial
  | cons msg rest ih =>
    cases msg with
    | none => exact ih
    | some msg =>
      rw [CallOriginator.forward]
      split
      · refine Owes.seq (Owes.tryCatch ?_ fun e => ?_) fun _ => ih
        · refine (owes_issue (c := .hasEventHandler) trivial fun _ _ => trivial).seq fun ready => ?_
          split
          · exact owes_onOriginateResponse msg
          · exact owes_pure trivial
        · exact owes_of_touches (touches_log _ _) rfl
      · exact ih

theorem owes_judge (mobile : String) (messages : List (Option Message)) :
    Owes o (fun _ => True) (CallOriginator.judge mobile messages) := by
  cases messages with
  | nil => exact owes_pure trivial
  | cons ack later =>
    simp only [CallOriginator.judge]
    split
    · exact (owes_forward later).seq fun _ => owes_pure trivial
    · exact (owes_of_touches (touches_log _ _) rfl).seq fun _ => owes_pure trivial

theorem owes_sendAction {a : Action} (ha : o.Dials a) : Owes o (fun _ => True) (sendAction a) := by
  refine (owes_of_touches touches_isConnected rfl).seq fun connected =>
    (owes_raiseUnless _ _).bind fun _ _ => ?_
  refine Owes.tryCatch (Owes.seq ?_ fun _ => owes_of_touches touches_awaitReply rfl) fun e => ?_
  · exact owes_issue (c := .submitAction a) ha fun _ _ => trivial
  · split
    · exact owes_throw _
    · exact (owes_of_touches (touches_log _ _) rfl).seq fun _ => owes_throw _

theorem owes_originate {task : CallTask} (h : task.WellFormed) : Owes o (fun _ => True)
    (o.originate task.requestId task.mobile task.code task.repeatCount originateTimeout) := by
  have hdials : o.Dials (o.action task.requestId (sanitizeAmiValue task.mobile)
      (sanitizeAmiValue task.code) (CallOriginator.clampRepeat task.repeatCount)
      originateTimeout) := by
    rw [sanitizeAmiValue_of_isMobile h.mobile, clampRepeat_of_le h.repeatCount]
    exact ⟨task, h, rfl⟩
  refine (owes_of_touches (touches_log _ _) rfl).seq fun _ =>
    (owes_of_touches touches_getAmiClient rfl).seq fun _ =>
      (owes_of_touches touches_isConnected rfl).seq fun connected => ?_
  split
  · have hattempt := Owes.tryCatch (Q := fun _ => True)
      ((owes_sendAction hdials).seq fun reply => owes_pure (o := o) (a := Except.ok reply) trivial)
      fun x => owes_pure (a := .error x) trivial
    refine Owes.seq hattempt fun result => ?_
    -- what the handlers do is the same for each kind of exception
    match result with
    | .error .timeoutError | .error (.connectionError _) | .error (.http _ _) | .error (.other _) =>
      exact (owes_of_touches (touches_log _ _) rfl).seq fun _ => owes_pure trivial
    | .ok reply => exact owes_judge _ _
  · exact owes_pure trivial

theorem owes_executeBody {task : CallTask} (h : task.WellFormed) :
    Owes o (fun _ => True) (executeBody o task) := by
  refine (owes_originate h).seq fun ⟨accepted, error⟩ => ?_
  dsimp only
  split
  · exact owes_pure trivial
  · exact (owes_updateCallStatus _ (by decide) (by rfl)).seq fun _ =>
      (owes_addEvent _ _ _).seq fun _ => owes_of_touches (touches_log _ _) rfl

theorem owes_executeHandler (task : CallTask) (e : Exc) :
    Owes o (fun _ => True) (executeHandler task e) :=
  (owes_of_touches (touches_log _ _) rfl).seq fun _ =>
    (owes_updateCallStatus _ (by decide) (by rfl)).seq fun _ => owes_addEvent _ _ _

theorem owes_executePrologue (task : CallTask) :
    Owes o (fun _ => True) (executePrologue task) :=
  (owes_of_touches touches_acquireSlot rfl).seq fun _ =>
    (owes_updateCallStatus _ (by decide) (by rfl)).seq fun _ => owes_addEvent _ _ _

theorem owes_executeCall {task : CallTask} (h : task.WellFormed) :
    Owes o (fun _ => True) (executeCall o task) := by
  refine (owes_executePrologue task).seq fun _ => Service.Relies.tryFinally
    (Owes.tryCatch (owes_executeBody h) (owes_executeHandler task)) fun r _ => ?_
  exact (owes_of_touches touches_releaseSlot rfl).seq fun _ _ _ => trivial

/-! ## The endpoints -/

theorem owes_checkLimits (mobile : String) : Owes o (fun _ => True) (checkLimits mobile) :=
  owes_of_touches (touches_checkLimits mobile) rfl

/-- A new record is as well formed as what it is made of, and its id is a UUID. -/
theorem owes_createCallRecord {mobile code : String} {parent : Option String}
    (hmobile : IsMobile mobile) (hcode : code ≠ "")
    (hparent : ∀ requestId, parent = some requestId → isUuid4 requestId = true) :
    Owes o (fun requestId => isUuid4 requestId = true)
      (createCallRecord mobile code (maskCode code) parent) := by
  refine (owes_of_touches touches_uuid4 rfl).seq fun requestId =>
    (owes_of_touches touches_time rfl).seq fun now => Owes.seq ?_ fun _ =>
      (owes_of_touches touches_commit rfl).seq fun _ =>
        (owes_addEvent _ _ _).seq fun _ => owes_pure requestId.wf
  exact owes_issue ⟨requestId.wf, hmobile, hcode, rfl, hparent, rfl, nofun, rfl⟩
    fun _ _ => trivial

theorem owes_sendOtpCall (request : OTPCallRequest) :
    Owes o Answer.WellFormed (sendOtpCall request) := by
  have hcode : request.code ≠ "" := by
    intro h
    have hcode := request.isCode_code
    rw [h] at hcode
    cases hcode
  refine (owes_checkLimits _).seq fun _ =>
    (owes_createCallRecord request.mobile_ok hcode fun _ h => by cases h).bind fun requestId hid =>
      (owes_of_touches (touches_log _ _) rfl).seq fun _ => owes_pure ?_
  exact ⟨_, rfl, ⟨hid, request.mobile_ok, hcode, request.repeat_ok⟩, rfl⟩

theorem owes_retryCall (requestId : String) (body : RetryRequest) :
    Owes o Answer.WellFormed (retryCall requestId body) := by
  refine (owes_getCallRecord requestId).bind fun record hrecord => ?_
  cases record with
  | none => exact owes_throw _
  | some record =>
    obtain ⟨hrow, hkey⟩ := hrecord record rfl
    have hrepeat : 1 ≤ body.repeatCount.getD 2 ∧ body.repeatCount.getD 2 ≤ 3 := by
      cases hbody : body.repeatCount with
      | none => decide
      | some n => exact body.repeat_ok n hbody
    -- the code of the body is not validated: all that is known is that it is not empty
    refine (owes_raiseUnless _ _).bind fun _ _ => (owes_raiseUnless _ _).bind fun _ hcode => ?_
    replace hcode := of_decide_eq_true hcode
    have hparent : ∀ parent, some requestId = some parent → isUuid4 parent = true := by
      rintro _ ⟨⟩
      exact hkey ▸ hrow.requestId
    refine (owes_checkLimits _).seq fun _ =>
      (owes_createCallRecord hrow.mobile hcode hparent).bind fun newRequestId hid =>
        (owes_of_touches (touches_incrementRetry _) rfl).seq fun _ =>
          (owes_of_touches (touches_log _ _) rfl).seq fun _ => owes_pure ?_
    exact ⟨_, rfl, ⟨hid, hrow.mobile, hcode, hrepeat⟩, rfl⟩

theorem owes_getCallStatus (requestId : String) :
    Owes o Answer.WellFormed (getCallStatus requestId) := by
  refine (owes_getCallRecord requestId).bind fun record hrecord => ?_
  cases record with
  | none => exact owes_throw _
  | some record =>
    refine (owes_of_touches (touches_getEvents _) rfl).seq fun events => owes_pure ?_
    exact ⟨record, events, (hrecord record rfl).1, rfl⟩

theorem owes_body {op : Op} (h : op.WellFormed) : Owes o Answer.WellFormed (op.body o) := by
  cases op with
  | execute task => exact (owes_executeCall h).seq fun _ => owes_pure trivial
  | input x =>
    cases x with
    | otpCall request => exact owes_sendOtpCall request
    | retry requestId body => exact owes_retryCall requestId body
    | status requestId => exact owes_getCallStatus requestId
    | health =>
      exact (owes_of_touches touches_getAmiClient rfl).seq fun _ =>
        (owes_of_touches touches_isConnected rfl).seq fun _ =>
          (owes_of_touches touches_activeCalls rfl).seq fun _ =>
            (owes_of_touches touches_availableChannels rfl).seq fun _ => owes_pure trivial
    | amiEvent kind message => exact (owes_dispatch kind message).seq fun _ => owes_pure trivial
    | cleanup =>
      exact (owes_of_touches touches_periodicCleanup rfl).seq fun _ => owes_pure trivial

end Coroutines

/-- Every run keeps the rows well formed, also when the connection rolls back: after every command,
all rows are; every action that is handed over dials for a well-formed task; and every answer is
well formed. -/
theorem records_well_formed (o : CallOriginator) (yields : Cmd → Bool) {w : World}
    (hw : w.store.WellFormed ∧ w.committed.WellFormed) (acts : List Turn) :
    (∀ n, ((otpService o yields).worldAfter w
      ((otpService o yields).run (Config.initial w) acts).trace n).store.WellFormed) ∧
    (∀ i ev a, (i, ev) ∈ ((otpService o yields).run (Config.initial w) acts).trace →
      ev.cmd = .submitAction a → o.Dials a) ∧
    ∀ i op answer, ((otpService o yields).run (Config.initial w) acts).outcome i =
      some (op, .ok answer) → answer.WellFormed := by
  have h := (otpService o yields).run_relies (A := Cmd.Reads) (G := Cmd.Sound o)
    (V := Op.WellFormed) (Q := fun _ r => ∀ answer, r = .ok answer → answer.WellFormed)
    (I := fun w => w.store.WellFormed ∧ w.committed.WellFormed)
    (fun e n _ c hv => reads_respond e n hv.1 c)
    (fun e n _ _ hv hc => wellFormed_respond o e n hv hc) (fun _ => trivial) ?_
    (fun _ hop => owes_body hop) hw acts
  · refine ⟨fun n => (h.invariant n).1, fun i ev a hev hcmd => ?_, fun i op answer hout =>
      h.ended hout answer rfl⟩
    have hsound := h.issued _ hev
    rw [hcmd] at hsound
    exact hsound
  · -- the only tasks are those of an accepted call
    intro _ answer hanswer op hop
    obtain ⟨task, htask, rfl⟩ := List.mem_map.1 hop
    cases answer with
    | accepted response tasks =>
      obtain ⟨_, rfl, hwf, -⟩ := hanswer _ rfl
      exact List.mem_singleton.1 htask ▸ hwf
    | _ => cases htask

/-- A run whose call waits for the acknowledgement, from empty tables. -/
theorem records_well_formed_waiting :
    (∀ n, ((interleaved sampleOriginator).worldAfter sampleWorld
      ((interleaved sampleOriginator).run (Config.initial sampleWorld)
        waitingRun).trace n).store.WellFormed) ∧
    (∀ i ev a, (i, ev) ∈ ((interleaved sampleOriginator).run (Config.initial sampleWorld)
      waitingRun).trace → ev.cmd = .submitAction a → sampleOriginator.Dials a) ∧
    ∀ i op answer, ((interleaved sampleOriginator).run (Config.initial sampleWorld)
      waitingRun).outcome i = some (op, .ok answer) → answer.WellFormed :=
  records_well_formed sampleOriginator Cmd.awaited
    ⟨by rintro row ⟨⟩, by rintro row ⟨⟩⟩ waitingRun

end OtpVoice
