import OtpVoice.Api.Routes

/-!
# The running service

`otpService` puts the endpoints, the event handlers, the periodic cleanup and the background tasks
together. `interleaved` runs them as the event loop does, switching at every await; `sequential`
handles each input, and each of the two halves of a background task, to completion: a coroutine
gives up the event loop only while it waits for Asterisk.
-/

set_option autoImplicit false

namespace OtpVoice

open Coroutine

/-- What arrives from outside. -/
inductive Input where
  | otpCall (request : OTPCallRequest)
  | retry (requestId : String) (body : RetryRequest)
  | status (requestId : String)
  | health
  | amiEvent (kind : EventKind) (message : Message)
  | cleanup
  deriving DecidableEq

/-- The operations of the service: an input, or a background task. -/
inductive Op where
  | input (x : Input)
  | execute (task : CallTask)
  deriving DecidableEq

/-- The coroutine that an input starts. -/
def Input.body : Input → Prog Answer
  | .otpCall request => sendOtpCall request
  | .retry requestId body => retryCall requestId body
  | .status requestId => getCallStatus requestId
  | .health => healthCheck
  | .amiEvent kind message => do
    dispatch kind message
    return .finished
  | .cleanup => do
    periodicCleanup
    return .finished

/-- The coroutine of an operation. -/
def Op.body (o : CallOriginator) : Op → Prog Answer
  | .input x => x.body
  -- what `BackgroundTasks` runs after the response
  | .execute task => do
    executeCall o task
    return .finished

/-- The background tasks that an answer schedules. -/
def Answer.tasks : Answer → List CallTask
  | .accepted _ tasks => tasks
  | _ => []

/-- The service with a choice of the commands that give up the event loop. -/
def otpService (o : CallOriginator) (yields : Cmd → Bool) :
    Service Cmd Cmd.Resp Exc Env World Input Op Answer where
  respond := World.respond
  yields := yields
  entry := .input
  body := Op.body o
  spawns answer := answer.tasks.map .execute

/-- The service as the event loop runs it: every await gives up the event loop. -/
def interleaved (o : CallOriginator) : Service Cmd Cmd.Resp Exc Env World Input Op Answer :=
  otpService o Cmd.awaited

/-- The service that handles one input after the other. -/
def sequential (o : CallOriginator) : Service Cmd Cmd.Resp Exc Env World Input Op Answer :=
  otpService o Cmd.waitsForAsterisk

/-- Configurations of the service, its events and its scheduling decisions. -/
abbrev Conf : Type := Config Cmd Cmd.Resp Exc Env World Op Answer
/-- The events of a run: a command with its answer and its environment. -/
abbrev Ev : Type := Event Cmd Cmd.Resp Exc Env
/-- The scheduling decisions of a run. -/
abbrev Turn : Type := Act Env Input

/-- The service at startup: empty tables and an empty rate limiter. -/
def World.startup (perNumberCalls : ℕ) (perNumberWindowMinutes : ℤ)
    (maxConcurrent hourlyLimit : ℕ) : World where
  store := .empty
  committed := .empty
  limiter := .init perNumberCalls perNumberWindowMinutes maxConcurrent hourlyLimit

/-! ## Concrete inputs -/

/-- The first id that the concrete runs draw. -/
def firstId : Uuid4 := ⟨"0f0e0d0c-0b0a-4908-8706-050403020100", by decide⟩

/-- The second one. -/
def secondId : Uuid4 := ⟨"1f1e1d1c-1b1a-4918-9716-151413121110", by decide⟩

/-- An originator with short configuration values. -/
def sampleOriginator : CallOriginator := .init "trunk" "02100000000" false

/-- A request for the code 1234, to be played twice. -/
def sampleRequest : OTPCallRequest :=
  ⟨"09120000000", "1234", 2, ⟨"09120000000", by decide⟩, ⟨"1234", by decide⟩, by decide⟩

/-- The service at startup with its default limits. -/
def sampleWorld : World := .startup 3 10 20 500

/-- A retry with the stored code and the default repeat count. -/
def plainRetry : RetryRequest := ⟨none, none, repeat_absent⟩

/-- The acknowledgement of an action. -/
def success : Message := ⟨[(.response, "Success")]⟩

/-- The message of a call that enters the dialplan. -/
def callStart (requestId channel : String) : Message :=
  ⟨[(.userEvent, "OTPCallStart"), (.requestID, requestId), (.channel, channel)]⟩

/-- The message of a call whose OTP has been played. -/
def playbackComplete (requestId : String) : Message :=
  ⟨[(.userEvent, "OTPPlaybackComplete"), (.requestID, requestId)]⟩

/-- The message of a call whose playback starts. -/
def playbackStart (requestId : String) : Message :=
  ⟨[(.userEvent, "OTPPlaybackStart"), (.requestID, requestId)]⟩

/-- The message of a channel that is hung up. -/
def hangup (channel cause : String) : Message := ⟨[(.channel, channel), (.cause, cause)]⟩

/-- The report that the channel rings. -/
def ringing (channel : String) : Message := ⟨[(.channel, channel), (.channelStateDesc, "Ringing")]⟩

/-- The message of an Originate action that meets a busy line. -/
def originateBusy (requestId : String) : Message :=
  ⟨[(.actionID, actionIdPrefix ++ requestId), (.response, "Failure"), (.reason, "5")]⟩

/-- A turn at time `now` that draws the given id and meets no exception; Asterisk answers with the
given messages. -/
def Env.calm (now : Time) (uuid : Uuid4) (messages : List Message) : Env where
  now _ := now
  fault _ := none
  undoes _ := false
  commitFault _ := none
  uuid := uuid
  client := none
  connected := true
  reply := .ok (.many (messages.map some))
  handler := true

theorem Env.calm_calm (now : Time) (uuid : Uuid4) (messages : List Message) :
    (Env.calm now uuid messages).Calm := ⟨fun _ => rfl, fun _ => rfl⟩

@[simp] theorem Env.calm_noRollback (now : Time) (uuid : Uuid4) (messages : List Message) :
    (Env.calm now uuid messages).NoRollback :=
  (Env.calm_calm now uuid messages).noRollback

/-- A call whose action waits for the acknowledgement. -/
def waitingRun : List Turn :=
  [.arrive (.otpCall sampleRequest), .turn 0 (.calm 0 firstId []), .turn 1 (.calm 1 firstId [])]

/-- The channel of the answered call. -/
def sampleChannel : String := "SIP/trunk-00000001"

/-- The call starts before the acknowledgement comes. -/
def startedRun : List Turn :=
  waitingRun ++ [.arrive (.amiEvent .userEvent (callStart firstId.text sampleChannel)),
    .turn 2 (.calm 2 firstId [])]

/-- A calm turn while the AMI connection is down. -/
def Env.disconnected (now : Time) (uuid : Uuid4) : Env :=
  { Env.calm now uuid [] with connected := false }

@[simp] theorem Env.disconnected_noRollback (now : Time) (uuid : Uuid4) :
    (Env.disconnected now uuid).NoRollback := ⟨fun _ _ => rfl, fun _ => rfl⟩

/-- An answered call. -/
def answeredRecord : CallRecord where
  requestId := firstId.text
  mobile := "09120000000"
  code := "1234"
  codeMasked := "****"
  status := .answered
  channel := some sampleChannel
  parentRequestId := none
  createdAt := 0
  updatedAt := 0
  expiresAt := ttlSeconds

/-- A world with the record of one answered call. -/
def answeredWorld : World :=
  { sampleWorld with
    store := ⟨⟨[answeredRecord], List.nodup_singleton _⟩, []⟩
    committed := ⟨⟨[answeredRecord], List.nodup_singleton _⟩, []⟩ }

end OtpVoice
