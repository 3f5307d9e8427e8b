import OtpVoice.Ami.EventHandler

/-!
# Originating a call: `src/ami/originator.py` and `send_action` of `src/ami/client.py`

`CallOriginator.action` is the dictionary of the Originate action, `CallOriginator.originate` the
method that sends it and judges the reply. The constructor sanitizes the trunk and the caller id;
`CallOriginator` keeps that as fields.
-/

set_option autoImplicit false

namespace OtpVoice

open Coroutine

/-- `_msg_get(msg, key)`. -/
def msgGet (msg : Option Message) (key : Header) : Option String := msg.bind fun m => m.get key

/-- The normalization of the result of `send_action` to a list; an empty dictionary is falsy. -/
def Reply.messages : Reply → List (Option Message)
  | .nothing => []
  | .one m => if m.headers = [] then [] else [some m]
  | .many ms => ms

/-- `AMIClient.send_action` under `asyncio.wait_for`. -/
def sendAction (action : Action) : Prog Reply := do
  let connected ← isConnected
  raiseUnless connected (.connectionError "AMI not connected")
  tryCatch (do submitAction action; awaitReply) fun e =>
    match e with
    -- `wait_for` cancels the pending action, and a cancellation is no `Exception`
    | .timeoutError => throw e
    | e => do
      log .error ("AMI send_action failed: " ++ e.text)
      throw e

/-- The outcome of a `try` block whose handlers return. -/
def attempt {α : Type} (p : Prog α) : Prog (Except Exc α) :=
  tryCatch (p >>= fun a => pure (.ok a)) fun e => pure (.error e)

theorem amiSafe_sanitizeAmiValue (s : String) : amiSafe (sanitizeAmiValue s) = true := by
  simp [amiSafe, sanitizeAmiValue]

/-- The configuration of a `CallOriginator`. -/
structure CallOriginator where
  trunk : String
  callerId : String
  useSystemDigits : Bool
  trunk_safe : amiSafe trunk = true
  callerId_safe : amiSafe callerId = true

namespace CallOriginator

/-- `__init__`. -/
def init (trunk callerId : String) (useSystemDigits : Bool) : CallOriginator :=
  ⟨sanitizeAmiValue trunk, sanitizeAmiValue callerId, useSystemDigits,
    amiSafe_sanitizeAmiValue trunk, amiSafe_sanitizeAmiValue callerId⟩

/-- `_build_context`. -/
def buildContext (o : CallOriginator) : String :=
  if o.useSystemDigits then "otp-playback" else "otp-playback-custom"

/-- The value of the header `Variable`. -/
def variableHeader (code : String) (repeatCount : ℤ) (requestId : String) : String :=
  "OTP_CODE=" ++ code ++ ",OTP_REPEAT=" ++ toString repeatCount ++ ",OTP_REQUEST_ID=" ++ requestId

/-- The action of `originate`, from the sanitized arguments. -/
def action (o : CallOriginator) (requestId mobile code : String) (repeatCount timeout : ℤ) :
    Action :=
  [("Action", "Originate"),
    ("ActionID", actionIdPrefix ++ requestId),
    ("Channel", "SIP/" ++ o.trunk ++ "/" ++ mobile),
    ("Context", o.buildContext),
    ("Exten", "s"),
    ("Priority", "1"),
    ("CallerID", o.callerId),
    ("Timeout", toString (timeout * 1000)),
    ("Async", "true"),
    ("Variable", variableHeader code repeatCount requestId)]

/-- `max(1, min(3, int(repeat)))`. -/
def clampRepeat (repeatCount : ℤ) : ℤ := max 1 (min 3 repeatCount)

/-- The loop that forwards the later messages of a reply to the event handler. -/
def forward : List (Option Message) → Prog Unit
  | [] => return ()
  | none :: rest => forward rest
  | some msg :: rest => do
    if msg.get .event = some "OriginateResponse" then do
      -- one failed forwarding does not stop the loop
      tryCatch
        (do
          let ready ← hasEventHandler
          if ready then onOriginateResponse msg else return ())
        fun e => log .error ("Failed forwarding OriginateResponse: " ++ e.text)
      forward rest
    else forward rest

/-- The end of `originate`, on the normalized reply. -/
def judge (mobile : String) : List (Option Message) → Prog (Bool × Option String)
  | [] => return (false, some "پاسخی از AMI دریافت نشد")
  | ack :: later => do
    -- only the first message is judged
    if msgGet ack .response = some "Success" then do
      forward later
      return (true, none)
    else do
      let reason := (orText (msgGet ack .message) none).getD "AMI ناموفق"
      log .warning ("Originate rejected for " ++ maskMobile mobile ++ ": " ++ reason)
      return (false, some reason)

/-- `originate`: the action is handed over, and the messages of its reply are forwarded. -/
def originate (o : CallOriginator) (requestId mobile code : String) (repeatCount timeout : ℤ) :
    Prog (Bool × Option String) := do
  let mobile := sanitizeAmiValue mobile
  let code := sanitizeAmiValue code
  let repeatCount := clampRepeat repeatCount
  log .info ("Originating call to " ++ maskMobile mobile ++ " code=" ++ maskCode code ++
    " repeat=" ++ toString repeatCount ++ " req=" ++ requestId)
  -- `get_ami_client` raises outside the `try` of `originate`
  getAmiClient
  let connected ← isConnected
  if connected then do
    let result ← attempt (sendAction (o.action requestId mobile code repeatCount timeout))
    match result with
    | .error .timeoutError =>
      log .warning ("Originate ack timeout for " ++ maskMobile mobile ++ " req=" ++ requestId)
      return (false, some "زمان انتظار برای پاسخ AMI تمام شد")
    | .error (.connectionError text) =>
      log .error ("AMI connection error: " ++ text)
      return (false, some text)
    | .error e =>
      log .error ("Unexpected error during originate: " ++ e.text)
      return (false, some "خطای داخلی سرور")
    | .ok reply => judge mobile reply.messages
  else return (false, some "سرویس AMI در دسترس نیست")

end CallOriginator

end OtpVoice
