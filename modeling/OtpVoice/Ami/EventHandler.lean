import OtpVoice.Storage.Db

/-!
# The AMI event handlers of `src/ami/event_handler.py`

`originateFailure`, `stateStatus` and `hangupStatus` are the decisions of the handlers, as pure
functions of the message and of the status read; the handlers `onOriginateResponse`, `onNewState`,
`onHangup` and `onUserEvent` follow the source statement by statement. `dispatch` is the
registration of the five handlers.
-/

set_option autoImplicit false

namespace OtpVoice

open Coroutine

/-- `_CAUSE_TO_STATUS`. -/
def causeToStatus : List (ℤ × Status) :=
  [(16, .completed), (17, .busy), (18, .noAnswer), (19, .noAnswer), (20, .noAnswer),
    (21, .rejected), (22, .unreachable), (27, .unreachable), (28, .failed), (34, .congestion),
    (38, .congestion), (41, .congestion), (42, .congestion), (50, .failed)]

/-- `_REASON_TO_STATUS`. -/
def reasonToStatus : List (String × Status) :=
  [("0", .failed), ("1", .noAnswer), ("2", .failed), ("3", .failed), ("4", .answered), ("5", .busy),
    ("8", .congestion)]

/-- `ACTION_ID_PREFIX`. -/
def actionIdPrefix : String := "otp-"

/-- `_extract_request_id`, and the test that its result is not empty. -/
def extractRequestId (actionId : Option String) : Option String :=
  match actionId with
  | none => none
  | some text =>
    if actionIdPrefix.toList.isPrefixOf text.toList then
      let requestId := String.ofList (text.toList.drop actionIdPrefix.toList.length)
      if requestId = "" then none else some requestId
    else none

/-- `a or b` on optional texts: the empty text counts as absent. -/
def orText (a b : Option String) : Option String :=
  match a with
  | some text => if text = "" then b else a
  | none => b

/-- An optional text inside an f-string. -/
def showText (a : Option String) : String := a.getD "None"

/-! ## The decisions of the handlers -/

/-- The status that a failed `OriginateResponse` asks for; `none` when it reports no failure. -/
def originateFailure (message : Message) : Option Status :=
  let response := (message.get .response).getD ""
  let reason := (message.get .reason).getD ""
  -- the table is asked for any reason of a `Failure`, that of an answered call included
  if response = "Failure" || reason ∈ ["0", "1", "5", "8"] then
    some ((reasonToStatus.lookup reason).getD .failed)
  else none

/-- The status and the event that a `Newstate` asks for. -/
def stateStatus (message : Message) : Option (Status × EventName) :=
  let stateDesc := lower ((message.get .channelStateDesc).getD "")
  if stateDesc = "ringing" then some (.ringing, .ringing)
  else if stateDesc = "up" then some (.answered, .answered)
  else none

/-- `cause_int` of a `Hangup`. -/
def causeInt (message : Message) : ℤ :=
  (parseInt ((orText (message.get .cause) none).getD "0")).getD 0

/-- `cause_txt` of a `Hangup`. -/
def causeTxt (message : Message) : String :=
  (orText (message.get .causeDashTxt) (message.get .causeTxt)).getD ""

/-- The status that a `Hangup` with the given cause writes on a record with the given status. -/
def hangupStatus (cause : ℤ) (status : Status) : Status :=
  match causeToStatus.lookup cause with
  | some new => new
  -- a cause outside the table: was the call ever answered?
  | none => if status = .answered || status = .playing then .completed else .failed

theorem mem_of_lookup {α β : Type} [BEq α] [LawfulBEq α] {l : List (α × β)} {a : α} {b : β}
    (h : l.lookup a = some b) : (a, b) ∈ l := by
  obtain ⟨l₁, l₂, rfl, -⟩ := List.lookup_eq_some_iff.1 h
  simp

theorem stateStatus_cases {message : Message} {x : Status × EventName}
    (h : stateStatus message = some x) : x = (.ringing, .ringing) ∨ x = (.answered, .answered) := by
  simp only [stateStatus] at h
  split at h
  · exact .inl (Option.some.inj h).symm
  · split at h
    · exact .inr (Option.some.inj h).symm
    · cases h

theorem stateStatus_terminal {message : Message} {status : Status} {event : EventName}
    (h : stateStatus message = some (status, event)) : status.terminal = false := by
  rcases stateStatus_cases h with heq | heq
  · cases heq
    rfl
  · cases heq
    rfl

/-- A hangup always asks for a terminal status. -/
theorem hangupStatus_terminal (cause : ℤ) (status : Status) :
    (hangupStatus cause status).terminal = true := by
  have hall : ∀ x ∈ causeToStatus, x.2.terminal = true := by decide
  unfold hangupStatus
  split
  · rename_i new hlookup
    exact hall _ (mem_of_lookup hlookup)
  · split <;> rfl

/-! ## The handlers -/

/-- `on_originate_response`: a line for every response, and a status for a failure. -/
def onOriginateResponse (message : Message) : Prog Unit := do
  match extractRequestId (message.get .actionID) with
  | none => return ()
  | some requestId =>
    let response := (message.get .response).getD ""
    let reason := (message.get .reason).getD ""
    let channel := message.get .channel
    addEvent requestId .originateResponse
      (some ("response=" ++ response ++ " reason=" ++ reason ++ " channel=" ++ showText channel))
    -- the line comes first, whatever the message reports
    match originateFailure message with
    | some newStatus =>
      let _ ← updateCallStatus requestId newStatus { asteriskReason := some reason }
      return ()
    | none => return ()

/-- `on_new_channel`, which does nothing. -/
def onNewChannel (_ : Message) : Prog Unit := return ()

/-- `on_new_state`: a channel that rings or is up moves the record that is bound to it. -/
def onNewState (message : Message) : Prog Unit := do
  match orText (message.get .channel) none with
  | none => return ()
  | some channel =>
    match ← getCallByChannel channel with
    | none => return ()
    | some record =>
      match stateStatus message with
      | none => return ()
      | some (status, event) =>
        let _ ← updateCallStatus record.requestId status {}
        addEvent record.requestId event (some ("channel=" ++ channel))

/-- `on_hangup`: a line for every hangup of a bound channel, and a status for an open record. -/
def onHangup (message : Message) : Prog Unit := do
  match orText (message.get .channel) none with
  | none => return ()
  | some channel =>
    match ← getCallByChannel channel with
    | none => return ()
    | some record =>
      let cause := toString (causeInt message)
      addEvent record.requestId .hangup
        (some ("cause=" ++ cause ++ " (" ++ causeTxt message ++ ") channel=" ++ channel))
      -- `record` is the row read before `add_event`, not read again here
      if record.status.terminal then
        return ()
      else
        let _ ← updateCallStatus record.requestId (hangupStatus (causeInt message) record.status)
          { hangupCause := some (strip (cause ++ " " ++ causeTxt message)) }
        return ()

/-- The custom events of the dialplan. -/
inductive DialplanEvent where
  | callStart | playbackStart | playbackComplete
  deriving DecidableEq

/-- The line that the handler of a dialplan event puts into the timeline. -/
def DialplanEvent.line : DialplanEvent → EventName
  | .callStart => .dialplanStart
  | .playbackStart => .playing
  | .playbackComplete => .playbackComplete

/-- The status that the handler of a dialplan event asks for. -/
def DialplanEvent.status : DialplanEvent → Status
  | .callStart => .answered
  | .playbackStart => .playing
  | .playbackComplete => .completed

/-- The value of `ev` in `_on_user_event`; other values are ignored. -/
def dialplanEvent (message : Message) : Option DialplanEvent :=
  match orText (message.get .userEvent) (message.get .userevent) with
  | some "OTPCallStart" => some .callStart
  | some "OTPPlaybackStart" => some .playbackStart
  | some "OTPPlaybackComplete" => some .playbackComplete
  | _ => none

/-- The value of `request_id` in `_on_user_event`, when it is not empty. -/
def userEventRequestId (message : Message) : Option String :=
  orText (orText (message.get .requestID) (message.get .requestid)) none

/-- The request id and the channel that an `OTPCallStart` binds to each other. -/
def callStartOf (message : Message) : Option (String × String) :=
  match dialplanEvent message, userEventRequestId message, orText (message.get .channel) none with
  | some .callStart, some requestId, some channel => some (requestId, channel)
  | _, _, _ => none

theorem callStartOf_eq_some_iff {message : Message} {requestId channel : String} :
    callStartOf message = some (requestId, channel) ↔
      dialplanEvent message = some .callStart ∧ userEventRequestId message = some requestId ∧
        orText (message.get .channel) none = some channel := by
  unfold callStartOf
  constructor
  · intro h
    split at h
    · rename_i hd hid hchannel
      cases h
      exact ⟨hd, hid, hchannel⟩
    · cases h
  · rintro ⟨hd, hid, hchannel⟩
    simp only [hd, hid, hchannel]

/-- `on_user_event`: the three events that the dialplan sends about a request. -/
def onUserEvent (message : Message) : Prog Unit := do
  match userEventRequestId message with
  | none => return ()
  | some requestId =>
    match dialplanEvent message with
    | some .callStart =>
      match orText (message.get .channel) none with
      | some channel =>
        -- binds the channel to the request
        let _ ← updateCallStatus requestId .answered { channel := some channel }
        addEvent requestId .dialplanStart (some ("channel=" ++ channel))
      | none =>
        addEvent requestId .dialplanStart
          (some ("channel=" ++ showText (message.get .channel)))
    | some .playbackStart =>
      let _ ← updateCallStatus requestId .playing {}
      addEvent requestId .playing none
    | some .playbackComplete =>
      let _ ← updateCallStatus requestId .completed {}
      addEvent requestId .playbackComplete none
    | none => return ()

/-- The five kinds of message for which `register` installs a handler. -/
inductive EventKind where
  | originateResponse | newchannel | newstate | hangup | userEvent
  deriving DecidableEq, Repr

/-- The handler of a kind. -/
def dispatch : EventKind → Message → Prog Unit
  | .originateResponse => onOriginateResponse
  | .newchannel => onNewChannel
  | .newstate => onNewState
  | .hangup => onHangup
  | .userEvent => onUserEvent

end OtpVoice
