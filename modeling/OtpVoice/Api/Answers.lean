import OtpVoice.Api.Rejection
import OtpVoice.Coroutine.Rely

/-!
# Why a request is refused

Between the checks of a request and its answer other coroutines run, so the answer is about moments
that have passed. `Explains` lists what may be answered to a request that ends with an exception,
each with the one command of the request whose answer is the reason: a record that is missing or in
another status, a layer of the limiter that has refused, or an exception that the command has
raised. `refusals_are_explained`: there is always such a command, and its answer was true when it
was given.
-/

set_option autoImplicit false

namespace OtpVoice

open Coroutine

/-- The status code of an answer: `global_exception_handler` answers what is no `HTTPException`. -/
def Exc.statusCode : Exc → ℕ
  | .http statusCode _ => statusCode
  | _ => 500

/-- An input that comes from the API. -/
def Input.isRequest : Input → Bool
  | .amiEvent _ _ | .cleanup => false
  | _ => true

/-- The record that a request names. -/
def Input.asks : Input → Option String
  | .retry requestId _ | .status requestId => some requestId
  | _ => none

/-- The number that a request rings: that of its body, or that of the record it has read. -/
def Input.Rings (l : List Ev) (mobile : String) : Input → Prop
  | .otpCall request => request.mobile = mobile
  | .retry requestId _ => ∃ row : CallRecord, row.mobile = mobile ∧
    Service.Heard l (.execute (.selectCall requestId)) (.ok (some row : Option CallRecord))
  | _ => False

/-- The command of a request `x` with its answer, and the exception with which the request ends
because of it; `l` are all events of the request. -/
inductive Explains (l : List Ev) (x : Input) : (c : Cmd) → Except Exc c.Resp → Exc → Prop where
  | unknown (requestId : String) (hx : x.asks = some requestId) :
    Explains l x (.execute (.selectCall requestId)) (.ok (none : Option CallRecord))
      (.http 404 (some "request_id یافت نشد"))
  | notRetryable (requestId : String) (body : RetryRequest) (row : CallRecord)
    (hx : x = .retry requestId body) (hstatus : row.status.retryable = false) :
    Explains l x (.execute (.selectCall requestId)) (.ok (some row : Option CallRecord))
      (.http 409 (some (notRetryable row.status)))
  | noCode (requestId : String) (body : RetryRequest) (row : CallRecord)
    (hx : x = .retry requestId body) (hstatus : row.status.retryable = true)
    (hcode : body.chosenCode row = "") :
    Explains l x (.execute (.selectCall requestId)) (.ok (some row : Option CallRecord))
      (.http 400 (some "کد اصلی موجود نیست (احتمالاً منقضی شده)؛ code جدید بدهید"))
  | full (msg : Option String) (hx : x.passive = false) :
    Explains l x .checkConcurrentCapacity (.ok (false, msg)) (.http 503 msg)
  | hourly (msg : Option String) (hx : x.passive = false) :
    Explains l x .checkHourlyLimit (.ok (false, msg)) (.http 429 msg)
  | number (mobile : String) (msg : Option String) (hx : x.Rings l mobile) :
    Explains l x (.checkNumberLimit mobile) (.ok (false, msg)) (.http 429 msg)
  | raised (c : Cmd) (exc : Exc) (hstatus : exc.statusCode = 500) :
    Explains l x c (.error exc) exc

/-- One of the answers explains the exception. -/
def Because (l : List Ev) (x : Input) (exc : Exc) : Prop :=
  ∃ c r, Service.Heard l c r ∧ Explains l x c r exc

/-! ## Single coroutines -/

/-- No command but the wait for a reply raises an `HTTPException`. -/
def Cmd.Honest (c : Cmd) (r : Except Exc c.Resp) : Prop :=
  c.kind ≠ .reply → ∀ exc, r = .error exc → exc.statusCode = 500

theorem honest_respond (e : Env) (n : ℕ) (w : World) (c : Cmd) :
    c.Honest (World.respond e n w c).1 := by
  intro hc exc hexc
  cases exc with
  | http code detail => exact absurd hexc (notHttp_respond e n w hc code detail)
  | _ => rfl

section Explained

variable {α β : Type} {l : List Ev} {x : Input}

/-- If the answers of the coroutine are those of `l`, then they explain an exception, and it returns
values in `Q`. -/
def Explained (l : List Ev) (x : Input) (Q : α → Prop) (p : Prog α) : Prop :=
  Service.Relies (fun c r => Service.Heard l c r ∧ c.Honest r) (fun _ => True)
    (fun r => (∀ a, r = .ok a → Q a) ∧ ∀ exc, r = .error exc → Because l x exc) p

theorem explained_pure {Q : α → Prop} {a : α} (h : Q a) : Explained l x Q (pure a) := by
  refine ⟨?_, nofun⟩
  rintro _ ⟨⟩
  exact h

theorem explained_throw {Q : α → Prop} {exc : Exc} (h : Because l x exc) :
    Explained l x Q (throw exc : Prog α) := by
  refine ⟨nofun, ?_⟩
  rintro _ ⟨⟩
  exact h

theorem Explained.bind {P : β → Prop} {Q : α → Prop} {p : Prog β} {f : β → Prog α}
    (hp : Explained l x P p) (hf : ∀ b, P b → Explained l x Q (f b)) :
    Explained l x Q (p >>= f) := by
  refine Service.Relies.bind hp (fun b hb => hf b (hb.1 b rfl)) fun exc hexc => ⟨nofun, ?_⟩
  rintro _ ⟨⟩
  exact hexc.2 exc rfl

/-- A command: its answer is one of `l`, and an exception is its own. -/
theorem explained_issue {c : Cmd} (hc : c.kind ≠ .reply) :
    Explained l x (fun a => Service.Heard l c (.ok a)) (issue c) := by
  refine Service.relies_perform trivial fun r ⟨hheard, hhonest⟩ => ⟨?_, ?_⟩
  · rintro a rfl
    exact hheard
  · rintro exc rfl
    exact ⟨c, _, hheard, .raised c exc (hhonest hc exc rfl)⟩

/-- A command before the rest. -/
theorem explained_issue_bind {c : Cmd} {Q : α → Prop} {f : c.Resp → Prog α} (hc : c.kind ≠ .reply)
    (hf : ∀ a, Explained l x Q (f a)) : Explained l x Q (issue c >>= f) :=
  (explained_issue hc).bind fun a _ => hf a

/-- A condition, and the answer that explains why it fails. -/
theorem explained_raiseUnless {ok : Bool} {exc : Exc} (h : ok = false → Because l x exc) :
    Explained l x (fun _ => ok = true) (raiseUnless ok exc) := by
  cases ok with
  | true => exact explained_pure rfl
  | false => exact explained_throw (h rfl)

/-! ## The endpoints -/

theorem explained_addEvent (requestId : String) (event : EventName) (detail : Option String) :
    Explained l x (fun _ => True) (addEvent requestId event detail) :=
  explained_issue_bind nofun fun _ => explained_issue_bind nofun fun _ =>
    Service.Relies.mono (explained_issue (c := .commit) nofun) fun _ h => ⟨fun _ _ => trivial, h.2⟩

theorem explained_createCallRecord (mobile code codeMasked : String) (parent : Option String) :
    Explained l x (fun _ => True) (createCallRecord mobile code codeMasked parent) :=
  explained_issue_bind nofun fun _ => explained_issue_bind nofun fun _ =>
    explained_issue_bind nofun fun _ => explained_issue_bind nofun fun _ =>
      (explained_addEvent _ _ _).bind fun _ _ => explained_pure trivial

theorem explained_incrementRetry (requestId : String) :
    Explained l x (fun _ => True) (incrementRetry requestId) := by
  refine explained_issue_bind nofun fun _ => explained_issue_bind nofun fun _ =>
    explained_issue_bind nofun fun _ =>
      explained_issue_bind (c := .execute (.selectCall requestId)) nofun fun record => ?_
  cases (record : Option CallRecord) <;> exact explained_pure trivial

/-- A layer refuses with the message that it has given. -/
theorem explained_checkLimits (hx : x.passive = false) {mobile : String}
    (hmobile : x.Rings l mobile) : Explained l x (fun _ => True) (checkLimits mobile) := by
  refine (explained_issue (c := .checkConcurrentCapacity) nofun).bind fun ⟨ok, msg⟩ hfull =>
    (explained_raiseUnless ?_).bind fun _ _ => ?_
  · rintro rfl
    exact ⟨_, _, hfull, .full msg hx⟩
  refine (explained_issue (c := .checkHourlyLimit) nofun).bind fun ⟨ok, msg⟩ hhourly =>
    (explained_raiseUnless ?_).bind fun _ _ => ?_
  · rintro rfl
    exact ⟨_, _, hhourly, .hourly msg hx⟩
  refine (explained_issue (c := .checkNumberLimit mobile) nofun).bind fun ⟨ok, msg⟩ hnumber => ?_
  refine Service.Relies.mono (explained_raiseUnless ?_) fun _ h => ⟨fun _ _ => trivial, h.2⟩
  rintro rfl
  exact ⟨_, _, hnumber, .number mobile msg hmobile⟩

theorem explained_sendOtpCall (request : OTPCallRequest) :
    Explained l (.otpCall request) (fun _ => True) (sendOtpCall request) :=
  (explained_checkLimits (x := .otpCall request) rfl rfl).bind fun _ _ =>
    (explained_createCallRecord _ _ _ _).bind fun _ _ =>
      explained_issue_bind (c := .log _ _) nofun fun _ => explained_pure trivial

theorem explained_retryCall (requestId : String) (body : RetryRequest) :
    Explained l (.retry requestId body) (fun _ => True) (retryCall requestId body) := by
  refine (explained_issue (c := .execute (.selectCall requestId)) nofun).bind
    fun (record : Option CallRecord) hrecord => ?_
  cases record with
  | none => exact explained_throw ⟨_, _, hrecord, .unknown requestId rfl⟩
  | some row =>
    refine (explained_raiseUnless ?_).bind fun _ hretryable => (explained_raiseUnless ?_).bind
      fun _ _ => ?_
    · intro hstatus
      exact ⟨_, _, hrecord, .notRetryable requestId body row rfl hstatus⟩
    · intro hcode
      exact ⟨_, _, hrecord, .noCode requestId body row rfl hretryable
        (not_not.1 (of_decide_eq_false hcode))⟩
    · have hrings : Input.Rings l row.mobile (.retry requestId body) := ⟨row, rfl, hrecord⟩
      exact (explained_checkLimits rfl hrings).bind fun _ _ =>
        (explained_createCallRecord _ _ _ _).bind fun _ _ =>
          (explained_incrementRetry _).bind fun _ _ =>
            explained_issue_bind (c := .log _ _) nofun fun _ => explained_pure trivial

theorem explained_getCallStatus (requestId : String) :
    Explained l (.status requestId) (fun _ => True) (getCallStatus requestId) := by
  refine (explained_issue (c := .execute (.selectCall requestId)) nofun).bind
    fun (record : Option CallRecord) hrecord => ?_
  cases record with
  | none => exact explained_throw ⟨_, _, hrecord, .unknown requestId rfl⟩
  | some row =>
    exact explained_issue_bind (c := .execute (.selectEvents requestId)) nofun fun _ =>
      explained_pure trivial

theorem explained_request (hx : x.isRequest = true) : Explained l x (fun _ => True) x.body := by
  cases x with
  | otpCall request => exact explained_sendOtpCall request
  | retry requestId body => exact explained_retryCall requestId body
  | status requestId => exact explained_getCallStatus requestId
  | health =>
    exact explained_issue_bind (c := .getAmiClient) nofun fun _ =>
      explained_issue_bind (c := .isConnected) nofun fun _ =>
        explained_issue_bind (c := .activeCalls) nofun fun _ =>
          explained_issue_bind (c := .availableChannels) nofun fun _ => explained_pure trivial
  | amiEvent kind message => cases hx
  | cleanup => cases hx

end Explained

/-! ## Runs -/

/-- The status codes of the answers to a request that fails. -/
def Input.failureCodes : Input → List ℕ
  | .otpCall _ => [429, 500, 503]
  | .retry _ _ => [400, 404, 409, 429, 500, 503]
  | .status _ => [404, 500]
  | _ => [500]

theorem Explains.statusCode {l : List Ev} {x : Input} {c : Cmd} {r : Except Exc c.Resp} {exc : Exc}
    (h : Explains l x c r exc) : exc.statusCode ∈ x.failureCodes := by
  cases h with
  | unknown requestId hx => cases x <;> simp_all [Input.asks, Input.failureCodes, Exc.statusCode]
  | notRetryable requestId body row hx | noCode requestId body row hx =>
    simp [hx, Input.failureCodes, Exc.statusCode]
  | full msg hx | hourly msg hx =>
    cases x <;> simp_all [Input.passive, Input.failureCodes, Exc.statusCode]
  | number mobile msg hx =>
    cases x <;> simp_all [Input.Rings, Input.failureCodes, Exc.statusCode]
  | raised c exc hstatus =>
    rw [hstatus]
    cases x <;> simp [Input.failureCodes]

/-- Under every interleaving, with any exceptions of the database: a request that ends with an
exception has issued a command whose answer explains it, and this answer is the true one in the
state in which the command was executed. So the answer has one of the status codes of its endpoint,
and 500 stands for an exception that a command of the request itself has raised. -/
theorem refusals_are_explained (o : CallOriginator) (yields : Cmd → Bool) (w₀ : World)
    (acts : List Turn) {i : ℕ} {x : Input} (hx : x.isRequest = true) {exc : Exc}
    (hout : ((otpService o yields).run (Config.initial w₀) acts).outcome i =
      some (.input x, .error exc)) :
    let s := (otpService o yields).run (Config.initial w₀) acts
    exc.statusCode ∈ x.failureCodes ∧ ∃ n ev, s.trace[n]? = some (i, ev) ∧
      ev.res = (World.respond ev.env ev.index ((otpService o yields).worldAfter w₀ s.trace n)
        ev.cmd).1 ∧ Explains (ownEvents i s.trace) x ev.cmd ev.res exc := by
  intro s
  have hbecause := (otpService o yields).run_heard (A := Cmd.Honest)
    (P := fun op l r => ∀ x, op = .input x → x.isRequest = true → ∀ exc, r = .error exc →
      Because l x exc) honest_respond ?_ w₀ acts hout x rfl hx exc rfl
  · obtain ⟨c, r, ⟨e, k, hmem⟩, hexplains⟩ := hbecause
    obtain ⟨n, hn⟩ := List.mem_iff_getElem?.1 (mem_ownEvents.1 hmem)
    exact ⟨hexplains.statusCode, n, _, hn, Service.trace_answers _ w₀ acts hn, hexplains⟩
  · -- of what is no request nothing is said
    intro op l
    by_cases hrequest : ∃ x, op = .input x ∧ x.isRequest = true
    · obtain ⟨x, rfl, hrequest⟩ := hrequest
      refine Service.Relies.mono (explained_request hrequest) ?_
      rintro r hr _ ⟨⟩ -
      exact hr.2
    · exact Service.Relies.mono (Service.relies_of_uses (Coro.uses_true _))
        fun r _ x hop h => absurd ⟨x, hop, h⟩ hrequest

/-- A retry of a call that has been answered. -/
theorem refusals_are_explained_answered :
    let acts : List Turn :=
      [.arrive (.retry firstId.text plainRetry), .turn 0 (.calm 0 secondId [])]
    let s := (interleaved sampleOriginator).run (Config.initial answeredWorld) acts
    ∃ (n : ℕ) (ev : Ev), s.trace[n]? = some (0, ev) ∧
      Explains (ownEvents 0 s.trace) (.retry firstId.text plainRetry) ev.cmd ev.res
        (.http 409 (some (notRetryable .answered))) := by
  intro acts s
  have hout : s.outcome 0 = some (.input (.retry firstId.text plainRetry),
      .error (.http 409 (some (notRetryable .answered)))) := by decide +kernel
  obtain ⟨-, n, ev, hx, -, hexplains⟩ := refusals_are_explained sampleOriginator Cmd.awaited
    answeredWorld acts rfl hout
  exact ⟨n, ev, hx, hexplains⟩

end OtpVoice
