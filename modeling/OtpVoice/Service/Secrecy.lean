import OtpVoice.Core.Mobile
import OtpVoice.Service.Footprint
import OtpVoice.Service.Twins

/-!
# Codes do not leak

Two runs of the service that differ in the supplied codes only: each code in one run and its
counterpart in the other have 4 to 8 digits, the same length, the same first digit and the same last
digit. `codes_do_not_leak`: all log lines and all responses are equal.

There is one lemma for each coroutine that reads a record or gets a code; it says that the coroutine
and its counterpart are related (`Twin`). A coroutine that does neither is related to itself by its
footprint (`twin_self`).
-/

set_option autoImplicit false

namespace OtpVoice

open Coroutine

/-- Coroutines that issue alike commands as long as the answers are alike, and end alike. -/
abbrev Twin {α β : Type} (V : α → β → Prop) (p : Prog α) (p' : Prog β) : Prop :=
  Coro.Related Cmd.Alike AnswersAlike V p p'

section Rules

variable {α β : Type} {ks : List Kind} {V : α → α → Prop}

/-- Only a read of a record may have different answers. -/
theorem AnswersAlike.eq_of_kind {c : Cmd} {r r' : Except Exc c.Resp} (h : AnswersAlike c c r r')
    (hc : c.kind ≠ .read) : r = r' := by
  cases h with
  | same => rfl
  | inserted => rfl
  | submitted => rfl
  | record key h => exact absurd rfl hc
  | found channel h => exact absurd rfl hc

/-- A part that reads nothing is related to itself. -/
theorem twin_self {p : Prog α} (hp : Touches ks p) (hks : ks.all (fun k => k ≠ .read) = true) :
    Twin (· = ·) p p := by
  refine Coro.related_self hp (fun c _ => .same c) fun c hc r r' h => h.eq_of_kind ?_
  exact of_decide_eq_true (List.all_eq_true.1 hks _ hc)

/-- Such a part before the rest. -/
theorem twin_self_bind {p : Prog β} {f f' : β → Prog α} (hp : Touches ks p)
    (hks : ks.all (fun k => k ≠ .read) = true) (hf : ∀ b, Twin V (f b) (f' b)) :
    Twin V (p >>= f) (p >>= f') := by
  refine (twin_self hp hks).bind ?_
  rintro b _ rfl
  exact hf b

/-- A part with equal results before the rest. -/
theorem twin_bind {p p' : Prog β} {f f' : β → Prog α} (hp : Twin (· = ·) p p')
    (hf : ∀ b, Twin V (f b) (f' b)) : Twin V (p >>= f) (p' >>= f') := by
  refine hp.bind ?_
  rintro b _ rfl
  exact hf b

theorem optionRel_self {P : α → α → Prop} (hP : ∀ a, P a a) (x : Option α) : Option.Rel P x x := by
  cases x with
  | none => exact .none
  | some a => exact .some (hP a)

/-- A read of a record by its id. -/
theorem twin_getCallRecord (requestId : String) :
    Twin (Option.Rel CallRecord.Alike) (getCallRecord requestId) (getCallRecord requestId) := by
  refine Coro.related_perform (.same _) fun r r' h => ?_
  cases h with
  | same =>
    cases r with
    | ok record => exact .ok (optionRel_self .refl record)
    | error x => exact .error x
  | record key hrow => exact .ok (.some hrow)

theorem twin_getCallByChannel (channel : String) :
    Twin (Option.Rel CallRecord.Alike) (getCallByChannel channel) (getCallByChannel channel) := by
  refine Coro.related_perform (.same _) fun r r' h => ?_
  cases h with
  | same =>
    cases r with
    | ok record => exact .ok (optionRel_self .refl record)
    | error x => exact .error x
  | found channel hrow => exact .ok (.some hrow)

/-- A read before the rest: where a record is found, its code is all that may differ. -/
theorem twin_read_bind {p : Prog (Option CallRecord)}
    (hp : Twin (Option.Rel CallRecord.Alike) p p) {f f' : Option CallRecord → Prog α}
    (hnone : Twin V (f none) (f' none))
    (hsome : ∀ row code, CodesAlike row.code code →
      Twin V (f (some row)) (f' (some { row with code := code }))) :
    Twin V (p >>= f) (p >>= f') := by
  refine hp.bind ?_
  rintro _ _ (⟨⟨hcodes⟩⟩ | _)
  · exact hsome _ _ hcodes
  · exact hnone

end Rules

/-! ## The functions of the database -/

theorem twin_addEvent (requestId : String) (event : EventName) (detail : Option String) :
    Twin (· = ·) (addEvent requestId event detail) (addEvent requestId event detail) :=
  twin_self (touches_addEvent _ _ _) (by decide)

/-- `update_call_status` looks at the status of the record, and at nothing else. -/
theorem twin_updateCallStatus (requestId : String) (status : Status) (u : StatusFields) :
    Twin (· = ·) (updateCallStatus requestId status u) (updateCallStatus requestId status u) := by
  refine twin_read_bind (twin_getCallRecord requestId) (Coro.related_pure rfl) fun row code _ => ?_
  by_cases hguard : row.status.goesBack status = true
  · simp only [if_pos hguard]
    exact Coro.related_pure rfl
  · simp only [if_neg hguard]
    refine twin_self_bind touches_time (by decide) fun now => ?_
    have hwrite : Touches [.updateCall]
      (execute (.updateCall (updateFields u) (updateValues status now u) requestId)) :=
      touches_issue rfl
    refine twin_self_bind hwrite (by decide) fun _ => ?_
    exact twin_self_bind touches_commit (by decide) fun _ => Coro.related_pure rfl

theorem twin_incrementRetry (requestId : String) :
    Twin (· = ·) (incrementRetry requestId) (incrementRetry requestId) := by
  refine twin_self_bind touches_time (by decide) fun now => ?_
  refine twin_self_bind (touches_countRetry now requestId) (by decide) fun _ => ?_
  refine twin_self_bind touches_commit (by decide) fun _ => ?_
  exact twin_read_bind (twin_getCallRecord requestId) (Coro.related_pure rfl)
    fun row code _ => Coro.related_pure rfl

theorem twin_insertCall {row row' : CallRecord} (h : row.Alike row') :
    Twin (fun k k' : ℕ => k = k') (execute (.insertCall row)) (execute (.insertCall row')) := by
  refine Coro.related_perform (.insert h) fun r r' hr => ?_
  cases hr with
  | same => exact paired_self _
  | inserted => exact paired_self _

/-- The two records differ in their codes; the masked codes are equal. -/
theorem twin_createCallRecord (mobile : String) {code code' : String} (h : CodesAlike code code')
    (codeMasked : String) (parent : Option String) :
    Twin (· = ·) (createCallRecord mobile code codeMasked parent)
      (createCallRecord mobile code' codeMasked parent) := by
  refine twin_self_bind touches_uuid4 (by decide) fun requestId => ?_
  refine twin_self_bind touches_time (by decide) fun now => ?_
  set row : CallRecord :=
    { requestId := requestId.text, mobile, code, codeMasked, parentRequestId := parent,
      createdAt := now, updatedAt := now, expiresAt := now + ttlSeconds } with hrow
  refine twin_bind (twin_insertCall (.mk row h)) fun _ => ?_
  refine twin_self_bind touches_commit (by decide) fun _ => ?_
  exact twin_bind (twin_addEvent _ _ _) fun _ => Coro.related_pure rfl

/-! ## The event handlers -/

theorem twin_onOriginateResponse (message : Message) :
    Twin (· = ·) (onOriginateResponse message) (onOriginateResponse message) := by
  unfold onOriginateResponse
  cases extractRequestId (message.get .actionID) with
  | none => exact Coro.related_pure rfl
  | some requestId =>
    refine twin_bind (twin_addEvent _ _ _) fun _ => ?_
    cases originateFailure message with
    | none => exact Coro.related_pure rfl
    | some status =>
      exact twin_bind (twin_updateCallStatus _ _ _) fun _ => Coro.related_pure rfl

theorem twin_onNewState (message : Message) :
    Twin (· = ·) (onNewState message) (onNewState message) := by
  unfold onNewState
  cases orText (message.get .channel) none with
  | none => exact Coro.related_pure rfl
  | some channel =>
    refine twin_read_bind (twin_getCallByChannel channel) (Coro.related_pure rfl)
      fun row code _ => ?_
    cases stateStatus message with
    | none => exact Coro.related_pure rfl
    | some x => exact twin_bind (twin_updateCallStatus _ _ _) fun _ => twin_addEvent _ _ _

/-- `_on_hangup` looks at the id and the status of the record. -/
theorem twin_onHangup (message : Message) :
    Twin (· = ·) (onHangup message) (onHangup message) := by
  unfold onHangup
  cases orText (message.get .channel) none with
  | none => exact Coro.related_pure rfl
  | some channel =>
    refine twin_read_bind (twin_getCallByChannel channel) (Coro.related_pure rfl)
      fun row code _ => twin_bind (twin_addEvent _ _ _) fun _ => ?_
    by_cases hterminal : row.status.terminal = true
    · simp only [if_pos hterminal]
      exact Coro.related_pure trivial
    · simp only [if_neg hterminal]
      exact twin_bind (twin_updateCallStatus _ _ _) fun _ => Coro.related_pure trivial

theorem twin_onUserEvent (message : Message) :
    Twin (· = ·) (onUserEvent message) (onUserEvent message) := by
  unfold onUserEvent
  cases userEventRequestId message with
  | none => exact Coro.related_pure rfl
  | some requestId =>
    have hupdate := fun status u event detail =>
      twin_bind (twin_updateCallStatus requestId status u)
        fun _ => twin_addEvent requestId event detail
    cases dialplanEvent message with
    | none => exact Coro.related_pure rfl
    | some event =>
      cases event with
      | callStart =>
        cases orText (message.get .channel) none with
        | none => exact twin_addEvent _ _ _
        | some channel => exact hupdate _ _ _ _
      | playbackStart => exact hupdate _ _ _ _
      | playbackComplete => exact hupdate _ _ _ _

theorem twin_dispatch (kind : EventKind) (message : Message) :
    Twin (· = ·) (dispatch kind message) (dispatch kind message) := by
  cases kind with
  | originateResponse => exact twin_onOriginateResponse message
  | newchannel => exact Coro.related_pure rfl
  | newstate => exact twin_onNewState message
  | hangup => exact twin_onHangup message
  | userEvent => exact twin_onUserEvent message

/-! ## The background task -/

theorem twin_forward (messages : List (Option Message)) :
    Twin (· = ·) (CallOriginator.forward messages) (CallOriginator.forward messages) := by
  induction messages with
  | nil => exact Coro.related_pure rfl
  | cons message rest ih =>
    cases message with
    | none => exact ih
    | some message =>
      unfold CallOriginator.forward
      split
      · refine twin_bind (Coro.Related.tryCatch ?_ fun e => ?_) fun _ => ih
        · have hready : Touches [.handler] hasEventHandler := touches_issue rfl
          refine twin_self_bind hready (by decide) fun ready => ?_
          split
          · exact twin_onOriginateResponse message
          · exact Coro.related_pure rfl
        · exact twin_self (touches_log _ _) (by decide)
      · exact ih

theorem twin_judge (mobile : String) (messages : List (Option Message)) :
    Twin (· = ·) (CallOriginator.judge mobile messages)
      (CallOriginator.judge mobile messages) := by
  cases messages with
  | nil => exact Coro.related_pure rfl
  | cons ack later =>
    simp only [CallOriginator.judge]
    split
    · exact twin_bind (twin_forward later) fun _ => Coro.related_pure rfl
    · exact twin_self_bind (touches_log _ _) (by decide) fun _ => Coro.related_pure rfl

/-- Whatever the actions carry, the reply is judged in the same way. -/
theorem twin_sendAction (action action' : Action) :
    Twin (· = ·) (sendAction action) (sendAction action') := by
  refine twin_self_bind touches_isConnected (by decide) fun connected => ?_
  refine twin_self_bind (touches_nothing_raiseUnless _ _) (by decide) fun _ => ?_
  refine Coro.Related.tryCatch ?_ fun e => ?_
  · have hsubmit : Twin (fun a b : Unit => a = b) (submitAction action) (submitAction action') := by
      refine Coro.related_perform (.submit action action') fun r r' hr => ?_
      cases hr <;> exact paired_self _
    exact twin_bind hsubmit fun _ => twin_self touches_awaitReply (by decide)
  · split
    · exact Coro.related_throw _
    · exact twin_self_bind (touches_log _ _) (by decide) fun _ => Coro.related_throw _

theorem twin_attempt {α : Type} {p p' : Prog α} (h : Twin (· = ·) p p') :
    Twin (· = ·) (attempt p) (attempt p') :=
  Coro.Related.tryCatch (twin_bind h fun _ => Coro.related_pure rfl) fun _ =>
    Coro.related_pure rfl

/-- The line shows the masked code; the action, which carries the code, goes to Asterisk only. -/
theorem twin_originate (o : CallOriginator) (requestId mobile : String) {code code' : String}
    (h : CodesAlike code code') (repeatCount timeout : ℤ) :
    Twin (· = ·) (o.originate requestId mobile code repeatCount timeout)
      (o.originate requestId mobile code' repeatCount timeout) := by
  simp only [CallOriginator.originate, h.sanitize.maskCode]
  refine twin_self_bind (touches_log _ _) (by decide) fun _ => ?_
  refine twin_self_bind touches_getAmiClient (by decide) fun _ => ?_
  refine twin_self_bind touches_isConnected (by decide) fun connected => ?_
  split
  · refine twin_bind (twin_attempt (twin_sendAction _ _)) fun result => ?_
    have hlog : ∀ level line (x : Bool × Option String),
        Twin (· = ·) (log level line >>= fun _ => pure x) (log level line >>= fun _ => pure x) :=
      fun level line x => twin_self_bind (touches_log _ _) (by decide) fun _ =>
        Coro.related_pure rfl
    split
    · exact hlog _ _ _
    · exact hlog _ _ _
    · exact hlog _ _ _
    · exact twin_judge _ _
  · exact Coro.related_pure rfl

theorem twin_executeBody (o : CallOriginator) {task task' : CallTask} (h : task.Alike task') :
    Twin (· = ·) (executeBody o task) (executeBody o task') := by
  cases h with
  | mk hcodes =>
    refine twin_bind (twin_originate o _ _ hcodes _ _) ?_
    rintro ⟨accepted, error⟩
    cases accepted with
    | true => exact Coro.related_pure rfl
    | false =>
      refine twin_bind (twin_updateCallStatus _ _ _) fun _ => ?_
      exact twin_bind (twin_addEvent _ _ _) fun _ => twin_self (touches_log _ _) (by decide)

theorem twin_executeCall (o : CallOriginator) {task task' : CallTask} (h : task.Alike task') :
    Twin (· = ·) (executeCall o task) (executeCall o task') := by
  have hbody := twin_executeBody o h
  cases h with
  | mk hcodes =>
    have hprologue : Twin (· = ·) (executePrologue task) (executePrologue task) := by
      refine twin_self_bind touches_acquireSlot (by decide) fun _ => ?_
      exact twin_bind (twin_updateCallStatus _ _ _) fun _ => twin_addEvent _ _ _
    have hhandler : ∀ e, Twin (· = ·) (executeHandler task e) (executeHandler task e) := by
      intro e
      refine twin_self_bind (touches_log _ _) (by decide) fun _ => ?_
      exact twin_bind (twin_updateCallStatus _ _ _) fun _ => twin_addEvent _ _ _
    -- the prologue and the handler see the request id only
    refine twin_bind hprologue fun _ => ?_
    exact (hbody.tryCatch hhandler).tryFinally (twin_self touches_releaseSlot (by decide))

/-! ## The endpoints -/

theorem twin_sendOtpCall {request request' : OTPCallRequest} (h : request.Alike request') :
    Twin Answer.Alike (sendOtpCall request) (sendOtpCall request') := by
  simp only [sendOtpCall, ← h.mobile, ← h.repeatCount, ← h.code.maskCode]
  refine twin_self_bind (touches_checkLimits _) (by decide) fun _ => ?_
  refine twin_bind (twin_createCallRecord _ h.code _ _) fun requestId => ?_
  refine twin_self_bind (touches_log _ _) (by decide) fun _ => ?_
  exact Coro.related_pure (.accepted _ (.cons (.mk _ h.code) .nil))

theorem twin_retryCall (requestId : String) {body body' : RetryRequest} (h : body.Alike body') :
    Twin Answer.Alike (retryCall requestId body) (retryCall requestId body') := by
  refine twin_read_bind (twin_getCallRecord requestId) (Coro.related_throw _)
    fun row code hcodes => ?_
  have hchosen := h.chosenCode (.mk row hcodes)
  simp only [← h.repeatCount, ← hchosen.maskCode]
  refine twin_self_bind (touches_nothing_raiseUnless _ _) (by decide) fun _ => ?_
  -- the test that there is a code has one outcome
  have hgiven : ∀ x, Twin (fun a b : Unit => a = b) (raiseUnless (body.chosenCode row ≠ "") x)
      (raiseUnless (body'.chosenCode { row with code := code } ≠ "") x) := by
    intro x
    rw [decide_eq_decide.2 (not_congr hchosen.empty_iff)]
    exact twin_self (touches_nothing_raiseUnless _ _) (by decide)
  refine twin_bind (hgiven _) fun _ => ?_
  refine twin_self_bind (touches_checkLimits _) (by decide) fun _ => ?_
  refine twin_bind (twin_createCallRecord _ hchosen _ _) fun newRequestId => ?_
  refine twin_bind (twin_incrementRetry _) fun _ => ?_
  refine twin_self_bind (touches_log _ _) (by decide) fun _ => ?_
  exact Coro.related_pure (.accepted _ (.cons (.mk _ hchosen) .nil))

theorem twin_getCallStatus (requestId : String) :
    Twin Answer.Alike (getCallStatus requestId) (getCallStatus requestId) := by
  refine twin_read_bind (twin_getCallRecord requestId) (Coro.related_throw _)
    fun row code _ => ?_
  have hevents : Twin (· = ·) (getEvents requestId) (getEvents requestId) := by
    refine Coro.related_perform (.same _) fun r r' hr => ?_
    cases hr
    exact paired_self r
  -- the response shows every field of the record but its code
  exact twin_bind hevents fun events => Coro.related_pure (.same _ rfl)

theorem Input.Alike.twin {x x' : Input} (h : x.Alike x') : Twin Answer.Alike x.body x'.body := by
  have hfinished : Answer.Alike .finished .finished := .same _ rfl
  cases h with
  | otpCall hrequest => exact twin_sendOtpCall hrequest
  | retry requestId hbody => exact twin_retryCall requestId hbody
  | same =>
    cases x with
    | otpCall request => exact twin_sendOtpCall ⟨rfl, rfl, .refl _⟩
    | retry requestId body => exact twin_retryCall requestId ⟨rfl, optionRel_self .refl _⟩
    | status requestId => exact twin_getCallStatus requestId
    | health =>
      refine twin_self_bind touches_getAmiClient (by decide) fun _ => ?_
      refine twin_self_bind touches_isConnected (by decide) fun connected => ?_
      refine twin_self_bind touches_activeCalls (by decide) fun active => ?_
      refine twin_self_bind touches_availableChannels (by decide) fun available => ?_
      exact Coro.related_pure (.same _ rfl)
    | amiEvent kind message =>
      exact twin_bind (twin_dispatch kind message) fun _ => Coro.related_pure hfinished
    | cleanup =>
      exact twin_self_bind touches_periodicCleanup (by decide) fun _ =>
        Coro.related_pure hfinished

theorem Op.Alike.twin (o : CallOriginator) {op op' : Op} (h : op.Alike op') :
    Twin Answer.Alike (op.body o) (op'.body o) := by
  cases h with
  | input hx => exact hx.twin
  | execute htask =>
    exact twin_bind (twin_executeCall o htask) fun _ => Coro.related_pure (.same _ rfl)

/-! ## Runs -/

/-- The service compared with itself under other codes. -/
def codeCoupling (o : CallOriginator) : Service.Coupling (interleaved o) where
  cmd := Cmd.Alike
  answer := AnswersAlike
  world := World.Alike
  input := Input.Alike
  op := Op.Alike
  out := Answer.Alike
  yields h := by cases h <;> rfl
  respond e n hw hc := respond_alike hw e n hc
  entry h := .input h
  body h := h.twin o
  spawns h := by
    cases h with
    | accepted response htasks =>
      exact List.rel_map (R := CallTask.Alike) (fun _ _ => .execute) htasks
    | same _ hnone =>
      simp only [interleaved, otpService, hnone]
      exact .nil

/-- What a client receives. -/
inductive HttpResponse where
  | accepted (response : OTPCallResponse)
  | status (response : CallStatusResponse)
  | health (response : HealthResponse)
  | error (statusCode : ℕ) (detail : Option String)

/-- The response to a request that ends so; an exception that is no `HTTPException` is answered by
`global_exception_handler`. -/
def httpResponse : Except Exc Answer → Option HttpResponse
  | .ok (.accepted response _) => some (.accepted response)
  | .ok (.status response) => some (.status response)
  | .ok (.health response) => some (.health response)
  | .ok .finished => none
  | .error (.http statusCode detail) => some (.error statusCode detail)
  | .error _ => some (.error 500 (some "خطای داخلی سرور"))

/-- The line of `global_exception_handler`. -/
def unhandledLine : Except Exc Answer → Option (Level × String)
  | .ok _ => none
  | .error (.http _ _) => none
  | .error e => some (.error, "Unhandled exception: " ++ e.text)

/-- The response of thread `i` and the line of `global_exception_handler`, once it has ended. -/
def shown (s : Conf) (i : ℕ) : Option (Option HttpResponse × Option (Level × String)) :=
  (s.outcome i).map fun x => (httpResponse x.2, unhandledLine x.2)

/-! ## Validation -/

/-- A code of 4 to 8 digits is accepted as it is. -/
theorem validateCode_of_isCode {s : String} (h : isCode s = true) :
    (validateCode s).1 = true ∧ strip s = s := by
  have hstrip : strip s = s := strip_eq_self fun c hc => isSpace_of_isDecimal (isCode_all h c hc)
  have hsafe : amiSafe s = true := by
    rw [amiSafe, List.all_eq_true]
    intro c hc
    cases hdanger : amiDangerous c with
    | false => rfl
    | true => cases (isCode_all h c hc).symm.trans (isDecimal_of_amiDangerous hdanger)
  have htake : s.toList.takeWhile isDecimal = s.toList :=
    List.takeWhile_eq_self_iff.2 (isCode_all h)
  have hdrop : s.toList.dropWhile isDecimal = [] := List.dropWhile_eq_nil_iff.2 (isCode_all h)
  simp only [isCode, Bool.and_eq_true, decide_eq_true_eq] at h
  have hmatch : matchDigits "" 4 8 s = true := by
    simp [matchDigits, htake, hdrop, h.1.1, h.1.2]
  simp [validateCode, hstrip, hsafe, hmatch]

/-- Bodies with alike codes are rejected with the same errors, or accepted as alike requests. -/
theorem parse_alike (mobile : String) (repeatCount : Option ℤ) {code code' : String}
    (h : CodesAlike code code') : Paired OTPCallRequest.Alike
      (OTPCallRequest.parse mobile code repeatCount)
      (OTPCallRequest.parse mobile code' repeatCount) := by
  rcases id h with rfl | ⟨hcode, hcode', -⟩
  · cases OTPCallRequest.parse mobile code repeatCount with
    | ok request => exact .ok ⟨rfl, rfl, .refl _⟩
    | error errors => exact .error errors
  · obtain ⟨hvalid, hstrip⟩ := validateCode_of_isCode hcode
    obtain ⟨hvalid', hstrip'⟩ := validateCode_of_isCode hcode'
    have hstripped : CodesAlike (strip code) (strip code') := by rwa [hstrip, hstrip']
    unfold OTPCallRequest.parse
    by_cases hmobile : (normalizeMobile mobile).1 = true
    · rw [dif_pos hmobile, dif_pos hmobile, dif_pos hvalid, dif_pos hvalid']
      split
      · exact .ok ⟨rfl, rfl, hstripped⟩
      · exact .error _
    · rw [dif_neg hmobile, dif_neg hmobile, if_pos hvalid, if_pos hvalid']
      exact .error _

theorem parse_retry_alike (repeatCount : Option ℤ) {code code' : Option String}
    (h : Option.Rel CodesAlike code code') : Paired RetryRequest.Alike
      (RetryRequest.parse code repeatCount) (RetryRequest.parse code' repeatCount) := by
  unfold RetryRequest.parse
  split
  · exact .ok ⟨rfl, h⟩
  · split
    · exact .ok ⟨rfl, h⟩
    · exact .error _

/-- Alike answers look the same to the client. -/
theorem shown_of_paired {r r' : Except Exc Answer} (h : Paired Answer.Alike r r') :
    httpResponse r = httpResponse r' ∧ unhandledLine r = unhandledLine r' := by
  cases h with
  | ok h => cases h <;> exact ⟨rfl, rfl⟩
  | error x => exact ⟨rfl, rfl⟩

/-- For every two runs of the service that begin in alike worlds and take alike decisions, that is
the same turns with the same clock, ids, AMI replies and exceptions, and the same inputs except that
the supplied codes may differ pairwise in the digits between the first one and the last one: all log
lines and all responses are equal. So are the answers to bodies that do not pass the validation. -/
theorem codes_do_not_leak (o : CallOriginator) {w w' : World} (hw : w.Alike w')
    {acts acts' : List Turn} (hacts : List.Forall₂ (Act.Rel Input.Alike) acts acts') :
    let s := (interleaved o).run (Config.initial w) acts
    let s' := (interleaved o).run (Config.initial w') acts'
    s.world.logged = s'.world.logged ∧ (∀ i, shown s i = shown s' i) ∧
      (∀ mobile repeatCount code code', CodesAlike code code' →
        Paired OTPCallRequest.Alike (OTPCallRequest.parse mobile code repeatCount)
          (OTPCallRequest.parse mobile code' repeatCount)) ∧
      ∀ repeatCount code code', Option.Rel CodesAlike code code' →
        Paired RetryRequest.Alike (RetryRequest.parse code repeatCount)
          (RetryRequest.parse code' repeatCount) := by
  intro s s'
  have hstart : (codeCoupling o).ConfigRel (Config.initial w) (Config.initial w') := ⟨hw, .nil⟩
  have hrun : (codeCoupling o).ConfigRel s s' := Service.Coupling.run hstart hacts
  refine ⟨hrun.world.logged, fun i => ?_, fun mobile n _ _ h => parse_alike mobile n h,
    fun n _ _ h => parse_retry_alike n h⟩
  have hout := hrun.outcome i
  simp only [shown]
  generalize s.outcome i = x, s'.outcome i = x' at hout
  cases hout with
  | none => rfl
  | some h =>
    obtain ⟨hresponse, hline⟩ := shown_of_paired h.2
    rw [Option.map_some, Option.map_some, hresponse, hline]

/-- A request with other inner digits than `sampleRequest`. -/
def otherRequest : OTPCallRequest :=
  { sampleRequest with code := "1994", code_ok := ⟨"1994", by decide⟩ }

/-- A call that Asterisk accepts. -/
def dialledRun (request : OTPCallRequest) : List Turn :=
  .arrive (.otpCall request) :: (List.replicate 8 (.turn 0 (.calm 0 firstId [])) ++
    List.replicate 8 (.turn 1 (.calm 1 firstId [success])))

/-- The actions of the two runs differ, and nothing else that can be seen of them. -/
theorem codes_do_not_leak_dialled :
    let s := (interleaved sampleOriginator).run (Config.initial sampleWorld)
      (dialledRun sampleRequest)
    let s' := (interleaved sampleOriginator).run (Config.initial sampleWorld)
      (dialledRun otherRequest)
    s.world.sent ≠ s'.world.sent ∧ s.world.logged = s'.world.logged ∧
      ∀ i, shown s i = shown s' i := by
  intro s s'
  have hcodes : CodesAlike sampleRequest.code otherRequest.code := .inr (by decide)
  have hacts : List.Forall₂ (Act.Rel Input.Alike) (dialledRun sampleRequest)
      (dialledRun otherRequest) := by
    refine .cons (.arrive (.otpCall ⟨rfl, rfl, hcodes⟩)) ?_
    apply List.forall₂_same.2
    intro a ha
    rcases List.mem_append.1 ha with ha | ha
    · rw [List.eq_of_mem_replicate ha]
      exact .turn 0 _
    · rw [List.eq_of_mem_replicate ha]
      exact .turn 1 _
  obtain ⟨hlogged, hshown, -⟩ := codes_do_not_leak sampleOriginator (.refl sampleWorld) hacts
  exact ⟨by decide +kernel, hlogged, hshown⟩

end OtpVoice
