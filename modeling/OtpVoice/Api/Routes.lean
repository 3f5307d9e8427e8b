import OtpVoice.Ami.Originator

/-!
# The endpoints of `src/api/routes.py`

One coroutine for each endpoint, and `executeCall` for the background task. An endpoint raises
`Exc.http` where the source raises an `HTTPException`; an accepted call comes with the tasks that
its `BackgroundTasks` run after the response. API keys are checked before an endpoint is entered and
are left out.
-/

set_option autoImplicit false

namespace OtpVoice

open Coroutine

/-- The arguments of a scheduled `_execute_call`. -/
structure CallTask where
  requestId : String
  mobile : String
  code : String
  repeatCount : ℤ
  deriving DecidableEq

/-- `OTPCallResponse`, the body of the answer 202. -/
structure OTPCallResponse where
  requestId : String
  status : Status
  estimatedTime : ℕ
  deriving DecidableEq

/-- `TimelineEvent`, one line of a reported timeline. -/
structure TimelineEvent where
  atTime : Time
  event : EventName
  detail : Option String
  deriving DecidableEq

/-- `CallStatusResponse`, the body of the status endpoint. -/
structure CallStatusResponse where
  requestId : String
  status : Status
  mobile : Option String
  duration : Option ℤ
  hangupCause : Option String
  asteriskReason : Option String
  isTerminal : Bool
  isAnswered : Bool
  canRetry : Bool
  retryCount : ℕ
  parentRequestId : Option String
  createdAt : Option Time
  updatedAt : Option Time
  timeline : List TimelineEvent
  deriving DecidableEq

/-- `HealthResponse`, the body of the health endpoint. -/
structure HealthResponse where
  api : String
  ami : String
  activeCalls : ℕ
  availableChannels : ℕ
  deriving DecidableEq

/-- What a coroutine of the service returns. -/
inductive Answer where
  | accepted (response : OTPCallResponse) (tasks : List CallTask)
  | status (response : CallStatusResponse)
  | health (response : HealthResponse)
  | finished
  deriving DecidableEq

/-- `_ANSWERED_OR_LATER`. -/
def answeredOrLater : List Status := [.answered, .playing, .completed]

/-- The events that show that the user picked up. -/
def answeredEvents : List EventName := [.answered, .dialplanStart, .playing, .playbackComplete]

/-- `_build_status_response`: what a record and its lines report. -/
def buildStatusResponse (record : CallRecord) (events : List EventRow) : CallStatusResponse where
  requestId := record.requestId
  status := record.status
  mobile := some record.mobile
  duration := record.duration
  hangupCause := record.hangupCause
  asteriskReason := record.asteriskReason
  isTerminal := record.status.terminal
  isAnswered := record.status ∈ answeredOrLater || events.any fun ev => ev.event ∈ answeredEvents
  canRetry := record.status.retryable
  retryCount := record.retryCount
  parentRequestId := record.parentRequestId
  createdAt := some record.createdAt
  updatedAt := some record.updatedAt
  timeline := events.map fun ev => ⟨ev.atTime, ev.event, ev.detail⟩

/-- The three rate-limit layers, in the order of both endpoints. -/
def checkLimits (mobile : String) : Prog Unit := do
  let (ok, msg) ← checkConcurrentCapacity
  raiseUnless ok (.http 503 msg)
  let (ok, msg) ← checkHourlyLimit
  raiseUnless ok (.http 429 msg)
  let (ok, msg) ← checkNumberLimit mobile
  raiseUnless ok (.http 429 msg)

/-- `send_otp_call`: the limits, the record, and a task for the call. -/
def sendOtpCall (request : OTPCallRequest) : Prog Answer := do
  checkLimits request.mobile
  let codeMasked := maskCode request.code
  let requestId ← createCallRecord request.mobile request.code codeMasked none
  let task : CallTask := ⟨requestId, request.mobile, request.code, request.repeatCount⟩
  log .info ("OTP call queued: " ++ maskMobile request.mobile ++ " code=" ++ codeMasked ++
    " request_id=" ++ requestId)
  return .accepted ⟨requestId, .queued, 5⟩ [task]

/-- The detail of the answer 409. -/
def notRetryable (status : Status) : String :=
  "این درخواست در وضعیت '" ++ status.text ++ "' قابل retry نیست (فقط: " ++
    ", ".intercalate (retryableStatuses.map Status.text) ++ ")"

/-- The code that a retry dials: `body.code or record.get("code")`. -/
def RetryRequest.chosenCode (body : RetryRequest) (record : CallRecord) : String :=
  (orText body.code (some record.code)).getD ""

/-- `retry_call`: the checks of the parent and of the code, the limits, a child record, the count of
the parent, and a task for the call. -/
def retryCall (requestId : String) (body : RetryRequest) : Prog Answer := do
  match ← getCallRecord requestId with
  | none => throw (.http 404 (some "request_id یافت نشد"))
  | some record =>
    raiseUnless record.status.retryable (.http 409 (some (notRetryable record.status)))
    let code := body.chosenCode record
    raiseUnless (code ≠ "")
      (.http 400 (some "کد اصلی موجود نیست (احتمالاً منقضی شده)؛ code جدید بدهید"))
    let repeatCount := body.repeatCount.getD 2
    checkLimits record.mobile
    let codeMasked := maskCode code
    let newRequestId ← createCallRecord record.mobile code codeMasked (some requestId)
    -- the child exists before its parent counts it
    let _ ← incrementRetry requestId
    let task : CallTask := ⟨newRequestId, record.mobile, code, repeatCount⟩
    log .info ("OTP retry queued: parent=" ++ requestId ++ " new=" ++ newRequestId ++ " mobile=" ++
      maskMobile record.mobile)
    return .accepted ⟨newRequestId, .queued, 5⟩ [task]

/-- The default of `timeout` in `originate`. -/
def originateTimeout : ℤ := 30

/-- The statements of `_execute_call` before its `try`. -/
def executePrologue (task : CallTask) : Prog Unit := do
  acquireSlot
  let _ ← updateCallStatus task.requestId .originating {}
  addEvent task.requestId .originating none

/-- The body of the `try` of `_execute_call`. -/
def executeBody (o : CallOriginator) (task : CallTask) : Prog Unit := do
  let (accepted, error) ←
    o.originate task.requestId task.mobile task.code task.repeatCount originateTimeout
  if accepted then return ()
  else do
    let _ ← updateCallStatus task.requestId .failed { hangupCause := error }
    addEvent task.requestId .failed (some ("originate not accepted: " ++ showText error))
    log .warning ("Originate not accepted [" ++ task.requestId ++ "]: " ++ showText error)

/-- The `except Exception` of `_execute_call`. -/
def executeHandler (task : CallTask) (e : Exc) : Prog Unit := do
  log .error ("Unexpected error in call execution [" ++ task.requestId ++ "]: " ++ e.text)
  let _ ← updateCallStatus task.requestId .failed { hangupCause := some "INTERNAL_ERROR" }
  addEvent task.requestId .failed (some ("exception: " ++ e.text))

/-- `_execute_call`: the prologue, then the `try`, its `except` and its `finally`. -/
def executeCall (o : CallOriginator) (task : CallTask) : Prog Unit := do
  -- an exception of the prologue does not reach the `finally`
  executePrologue task
  (tryCatch (executeBody o task) (executeHandler task)).tryFinally releaseSlot

/-- `get_call_status`: the record and then its timeline. -/
def getCallStatus (requestId : String) : Prog Answer := do
  match ← getCallRecord requestId with
  | none => throw (.http 404 (some "request_id یافت نشد"))
  | some record =>
    -- a second `SELECT`: the record and its timeline may be of two moments
    let events ← getEvents requestId
    return .status (buildStatusResponse record events)

/-- `health_check`: the state of the AMI client and of the slots. -/
def healthCheck : Prog Answer := do
  getAmiClient
  let connected ← isConnected
  let active ← activeCalls
  let available ← availableChannels
  return .health ⟨"ok", if connected then "connected" else "disconnected", active, available⟩

/-- One pass of the loop of `_periodic_cleanup` in `src/main.py`. -/
def periodicCleanup : Prog Unit :=
  tryCatch
    (do
      let _ ← cleanupExpired
      let line ← cleanupLimits
      log .debug line)
    fun e => log .error ("Cleanup error: " ++ e.text)

end OtpVoice
