import OtpVoice.Service.System

/-!
# Footprints

`Cmd.kind` sorts the commands, and `Touches ks p` says that `p` issues only commands of the kinds in
`ks`. There is one lemma for each coroutine of the service. A property that no command of these
kinds can disturb passes through the coroutine by the frame rule `Coro.Sat.of_uses`.
-/

set_option autoImplicit false

namespace OtpVoice

open Coroutine

/-- The kinds of commands. -/
inductive Kind where
  | clock | drawId | insertCall | updateCall | countRetry | read | insertEvent | delete | commit
  | capacity | hourly | number | acquire | release | cleanup | gauge
  | client | connected | submit | reply | handler | log
  deriving DecidableEq

/-- The kind of a statement. -/
def Stmt.kind : Stmt → Kind
  | .insertCall _ => .insertCall
  | .updateCall _ _ _ => .updateCall
  | .incrementRetry _ _ => .countRetry
  | .selectCall _ | .selectByChannel _ | .selectEvents _ => .read
  | .insertEvent _ => .insertEvent
  | .deleteExpired _ | .deleteOrphanEvents => .delete

/-- The kind of a command. -/
def Cmd.kind : Cmd → Kind
  | .time => .clock
  | .uuid4 => .drawId
  | .execute s => s.kind
  | .commit => .commit
  | .checkConcurrentCapacity => .capacity
  | .checkHourlyLimit => .hourly
  | .checkNumberLimit _ => .number
  | .acquireSlot => .acquire
  | .releaseSlot => .release
  | .cleanupLimits => .cleanup
  | .activeCalls | .availableChannels => .gauge
  | .getAmiClient => .client
  | .isConnected => .connected
  | .submitAction _ => .submit
  | .awaitReply => .reply
  | .hasEventHandler => .handler
  | .log _ _ => .log

/-- The coroutine issues only commands of the given kinds. -/
def Touches {α : Type} (ks : List Kind) (p : Prog α) : Prop := Coro.Uses (fun c => c.kind ∈ ks) p

section Rules

variable {α β : Type} {ks ks' : List Kind}

theorem Touches.mono {p : Prog α} (h : Touches ks p) (hks : ks ⊆ ks') : Touches ks' p :=
  Coro.Uses.mono (fun _ hc => hks hc) h

theorem touches_issue {c : Cmd} (hc : ks.elem c.kind = true) : Touches ks (issue c) :=
  Coro.Uses.perform (List.elem_iff.1 hc)

theorem touches_pure (a : α) : Touches ks (pure a : Prog α) := trivial

theorem touches_throw (x : Exc) : Touches ks (throw x : Prog α) := trivial

theorem Touches.bind {p : Prog α} {f : α → Prog β} (hp : Touches ks p)
    (hf : ∀ a, Touches ks (f a)) : Touches ks (p >>= f) :=
  Coro.Uses.bind hp hf

theorem Touches.tryCatch {p : Prog α} {h : Exc → Prog α} (hp : Touches ks p)
    (hh : ∀ x, Touches ks (h x)) : Touches ks (tryCatch p h) :=
  Coro.Uses.tryCatch hp hh

/-- A command before the rest. -/
theorem touches_issue_bind {c : Cmd} {f : c.Resp → Prog β} (hc : ks.elem c.kind = true)
    (hf : ∀ a, Touches ks (f a)) : Touches ks (issue c >>= f) :=
  (touches_issue hc).bind hf

/-- A part that submits no action never waits for Asterisk. -/
theorem Touches.not_waits {p : Prog α} (hp : Touches ks p) (hks : ks.elem .submit = false) :
    Coro.Uses (fun c => c.waitsForAsterisk = false) p := by
  refine Coro.Uses.mono ?_ hp
  intro c hc
  -- submitting is the only command that waits
  cases c with
  | submitAction a =>
    have hmem : ks.elem .submit = true := List.elem_iff.2 hc
    cases hmem.symm.trans hks
  | _ => rfl

theorem touches_raiseUnless (ok : Bool) (x : Exc) : Touches ks (raiseUnless ok x) := by
  cases ok <;> trivial

theorem touches_nothing_raiseUnless (ok : Bool) (x : Exc) : Touches [] (raiseUnless ok x) :=
  touches_raiseUnless ok x

end Rules

theorem touches_time : Touches [.clock] time := touches_issue rfl

theorem touches_uuid4 : Touches [.drawId] uuid4 := touches_issue rfl

theorem touches_commit : Touches [.commit] commit := touches_issue rfl

theorem touches_checkConcurrentCapacity : Touches [.capacity] checkConcurrentCapacity :=
  touches_issue rfl

theorem touches_acquireSlot : Touches [.acquire] acquireSlot := touches_issue rfl

theorem touches_releaseSlot : Touches [.release] releaseSlot := touches_issue rfl

theorem touches_activeCalls : Touches [.gauge] activeCalls := touches_issue rfl

theorem touches_availableChannels : Touches [.gauge] availableChannels := touches_issue rfl

theorem touches_getAmiClient : Touches [.client] getAmiClient := touches_issue rfl

theorem touches_isConnected : Touches [.connected] isConnected := touches_issue rfl

theorem touches_awaitReply : Touches [.reply] awaitReply := touches_issue rfl

theorem touches_log (level : Level) (line : String) : Touches [.log] (log level line) :=
  touches_issue rfl

/-! ## The database functions -/

/-- What `add_event` needs. -/
def eventKinds : List Kind := [.clock, .insertEvent, .commit]

/-- What `update_call_status` needs. -/
def statusKinds : List Kind := [.read, .clock, .updateCall, .commit]

theorem touches_addEvent (requestId : String) (event : EventName) (detail : Option String) :
    Touches eventKinds (addEvent requestId event detail) :=
  touches_issue_bind rfl fun _ =>
    touches_issue_bind rfl fun _ => touches_issue rfl

theorem touches_getEvents (requestId : String) : Touches [.read] (getEvents requestId) :=
  touches_issue rfl

theorem touches_getCallRecord (requestId : String) : Touches [.read] (getCallRecord requestId) :=
  touches_issue rfl

theorem touches_getCallByChannel (channel : String) : Touches [.read] (getCallByChannel channel) :=
  touches_issue rfl

theorem touches_updateCallStatus (requestId : String) (status : Status) (u : StatusFields) :
    Touches statusKinds (updateCallStatus requestId status u) := by
  apply ((touches_getCallRecord requestId).mono (by decide)).bind
  intro record
  match record with
  | none => exact touches_pure _
  | some record =>
    dsimp only
    split
    · exact touches_pure _
    · exact touches_issue_bind rfl fun now => touches_issue_bind
        rfl fun _ => touches_issue_bind rfl fun _ => touches_pure _

theorem touches_countRetry (now : Time) (requestId : String) :
    Touches [.countRetry] (execute (.incrementRetry now requestId)) :=
  touches_issue rfl

theorem touches_incrementRetry (requestId : String) :
    Touches [.clock, .countRetry, .commit, .read] (incrementRetry requestId) := by
  refine touches_issue_bind rfl fun now => touches_issue_bind rfl fun _ =>
    touches_issue_bind rfl fun _ => ?_
  apply ((touches_getCallRecord requestId).mono (by decide)).bind
  intro record
  cases record <;> exact touches_pure _

theorem touches_cleanupExpired :
    Touches [.clock, .delete, .commit, .log] cleanupExpired := by
  refine touches_issue_bind rfl fun now => touches_issue_bind rfl fun cursor =>
    touches_issue_bind rfl fun _ => touches_issue_bind rfl fun _ => ?_
  dsimp only
  split
  · exact touches_issue_bind rfl fun _ => touches_pure _
  · exact touches_pure _

/-! ## The event handlers -/

/-- What the event handlers need. -/
def handlerKinds : List Kind := [.clock, .read, .insertEvent, .updateCall, .commit]

theorem touches_handler_addEvent (requestId : String) (event : EventName)
    (detail : Option String) : Touches handlerKinds (addEvent requestId event detail) :=
  (touches_addEvent requestId event detail).mono (by decide)

theorem touches_handler_update (requestId : String) (status : Status) (u : StatusFields) :
    Touches handlerKinds (updateCallStatus requestId status u) :=
  (touches_updateCallStatus requestId status u).mono (by decide)

theorem touches_onOriginateResponse (message : Message) :
    Touches handlerKinds (onOriginateResponse message) := by
  unfold onOriginateResponse
  split
  · exact touches_pure _
  · apply (touches_handler_addEvent _ _ _).bind
    intro _
    split
    · exact (touches_handler_update _ _ _).bind fun _ => touches_pure _
    · exact touches_pure _

theorem touches_onNewState (message : Message) : Touches handlerKinds (onNewState message) := by
  unfold onNewState
  split
  · exact touches_pure _
  · apply ((touches_getCallByChannel _).mono (by decide)).bind
    intro record
    cases record with
    | none => exact touches_pure _
    | some record =>
      dsimp only
      split
      · exact touches_pure _
      · exact (touches_handler_update _ _ _).bind fun _ => touches_handler_addEvent _ _ _

theorem touches_onHangup (message : Message) : Touches handlerKinds (onHangup message) := by
  unfold onHangup
  split
  · exact touches_pure _
  · apply ((touches_getCallByChannel _).mono (by decide)).bind
    intro record
    cases record with
    | none => exact touches_pure _
    | some record =>
      apply (touches_handler_addEvent _ _ _).bind
      intro _
      split
      · exact touches_pure _
      · exact (touches_handler_update _ _ _).bind fun _ => touches_pure _

theorem touches_onUserEvent (message : Message) : Touches handlerKinds (onUserEvent message) := by
  unfold onUserEvent
  split
  · exact touches_pure _
  · split
    · split
      · exact (touches_handler_update _ _ _).bind fun _ => touches_handler_addEvent _ _ _
      · exact touches_handler_addEvent _ _ _
    · exact (touches_handler_update _ _ _).bind fun _ => touches_handler_addEvent _ _ _
    · exact (touches_handler_update _ _ _).bind fun _ => touches_handler_addEvent _ _ _
    · exact touches_pure _

theorem touches_dispatch (kind : EventKind) (message : Message) :
    Touches handlerKinds (dispatch kind message) := by
  cases kind with
  | originateResponse => exact touches_onOriginateResponse message
  | newchannel => exact touches_pure _
  | newstate => exact touches_onNewState message
  | hangup => exact touches_onHangup message
  | userEvent => exact touches_onUserEvent message

/-! ## Originating -/

/-- What `originate` needs after the reply has come. -/
def judgeKinds : List Kind := [.clock, .read, .insertEvent, .updateCall, .commit, .handler, .log]

theorem touches_forward (messages : List (Option Message)) :
    Touches judgeKinds (CallOriginator.forward messages) := by
  induction messages with
  | nil => exact touches_pure _
  | cons msg rest ih =>
    cases msg with
    | none => exact ih
    | some msg =>
      unfold CallOriginator.forward
      split
      · refine Touches.bind (Touches.tryCatch ?_ fun e => ?_) fun _ => ih
        · apply touches_issue_bind rfl
          intro ready
          split
          · exact (touches_onOriginateResponse msg).mono (by decide)
          · exact touches_pure _
        · exact touches_issue rfl
      · exact ih

theorem touches_judge (mobile : String) (messages : List (Option Message)) :
    Touches judgeKinds (CallOriginator.judge mobile messages) := by
  cases messages with
  | nil => exact touches_pure _
  | cons ack later =>
    simp only [CallOriginator.judge]
    split
    · exact (touches_forward later).bind fun _ => touches_pure _
    · exact touches_issue_bind rfl fun _ => touches_pure _

theorem touches_attempt {α : Type} {ks : List Kind} {p : Prog α} (hp : Touches ks p) :
    Touches ks (attempt p) :=
  Touches.tryCatch (hp.bind fun _ => touches_pure _) fun _ => touches_pure _

theorem touches_sendAction (action : Action) :
    Touches [.connected, .submit, .reply, .log] (sendAction action) := by
  refine touches_issue_bind rfl fun connected => (touches_raiseUnless _ _).bind fun _ => ?_
  refine Touches.tryCatch (touches_issue_bind rfl fun _ => touches_issue rfl) fun e => ?_
  split
  · exact touches_throw _
  · exact touches_issue_bind rfl fun _ => touches_throw _

/-- What `originate` needs. -/
def originateKinds : List Kind := [.log, .client, .connected, .submit, .reply] ++ judgeKinds

theorem touches_originate (o : CallOriginator) (requestId mobile code : String)
    (repeatCount timeout : ℤ) :
    Touches originateKinds (o.originate requestId mobile code repeatCount timeout) := by
  refine touches_issue_bind rfl fun _ => touches_issue_bind rfl fun _ =>
    touches_issue_bind rfl fun connected => ?_
  split
  · apply (touches_attempt ((touches_sendAction _).mono (by decide))).bind
    intro result
    match result with
    | .error .timeoutError => exact touches_issue_bind rfl fun _ => touches_pure _
    | .error (.connectionError _) => exact touches_issue_bind rfl fun _ => touches_pure _
    | .error (.http _ _) => exact touches_issue_bind rfl fun _ => touches_pure _
    | .error (.other _) => exact touches_issue_bind rfl fun _ => touches_pure _
    | .ok reply => exact (touches_judge _ _).mono (by decide)
  · exact touches_pure _

/-! ## The endpoints -/

theorem touches_createCallRecord (mobile code codeMasked : String) (parent : Option String) :
    Touches [.drawId, .clock, .insertCall, .commit, .insertEvent]
      (createCallRecord mobile code codeMasked parent) :=
  touches_issue_bind rfl fun _ => touches_issue_bind rfl fun _ =>
    touches_issue_bind rfl fun _ => touches_issue_bind rfl fun _ =>
      ((touches_addEvent _ _ _).mono (by decide)).bind fun _ => touches_pure _

theorem touches_checkLimits (mobile : String) :
    Touches [.capacity, .hourly, .number] (checkLimits mobile) :=
  touches_issue_bind rfl fun _ => (touches_raiseUnless _ _).bind fun _ =>
    touches_issue_bind rfl fun _ => (touches_raiseUnless _ _).bind fun _ =>
      touches_issue_bind rfl fun _ => touches_raiseUnless _ _

/-- What the endpoints for calls need. -/
def requestKinds : List Kind :=
  [.read, .capacity, .hourly, .number, .drawId, .clock, .insertCall, .commit, .insertEvent,
    .countRetry, .log]

theorem touches_sendOtpCall (request : OTPCallRequest) :
    Touches requestKinds (sendOtpCall request) :=
  ((touches_checkLimits _).mono (by decide)).bind fun _ =>
    ((touches_createCallRecord _ _ _ _).mono (by decide)).bind fun _ =>
      touches_issue_bind rfl fun _ => touches_pure _

theorem touches_retryCall (requestId : String) (body : RetryRequest) :
    Touches requestKinds (retryCall requestId body) := by
  apply ((touches_getCallRecord requestId).mono (by decide)).bind
  intro record
  cases record with
  | none => exact touches_throw _
  | some record =>
    refine (touches_raiseUnless _ _).bind fun _ => (touches_raiseUnless _ _).bind fun _ => ?_
    exact ((touches_checkLimits _).mono (by decide)).bind fun _ =>
      ((touches_createCallRecord _ _ _ _).mono (by decide)).bind fun _ =>
        ((touches_incrementRetry _).mono (by decide)).bind fun _ =>
          touches_issue_bind rfl fun _ => touches_pure _

theorem touches_getCallStatus (requestId : String) : Touches [.read] (getCallStatus requestId) := by
  apply (touches_getCallRecord requestId).bind
  intro record
  cases record with
  | none => exact touches_throw _
  | some record => exact (touches_getEvents requestId).bind fun _ => touches_pure _

theorem touches_healthCheck : Touches [.client, .connected, .gauge] healthCheck :=
  touches_issue_bind rfl fun _ => touches_issue_bind rfl fun _ =>
    touches_issue_bind rfl fun _ => touches_issue_bind rfl fun _ => touches_pure _

theorem touches_periodicCleanup :
    Touches [.clock, .delete, .commit, .cleanup, .log] periodicCleanup := by
  refine Touches.tryCatch ?_ fun e => touches_issue rfl
  exact (touches_cleanupExpired.mono (by decide)).bind fun _ =>
    touches_issue_bind rfl fun _ => touches_issue rfl

theorem touches_executeHandler (task : CallTask) (e : Exc) :
    Touches [.log, .read, .clock, .updateCall, .commit, .insertEvent] (executeHandler task e) :=
  touches_issue_bind rfl fun _ => ((touches_updateCallStatus _ _ _).mono (by decide)).bind
    fun _ => (touches_addEvent _ _ _).mono (by decide)

theorem touches_executeBody (o : CallOriginator) (task : CallTask) :
    Touches originateKinds (executeBody o task) := by
  apply (touches_originate o _ _ _ _ _).bind
  intro result
  obtain ⟨accepted, error⟩ := result
  dsimp only
  split
  · exact touches_pure _
  · exact ((touches_updateCallStatus _ _ _).mono (by decide)).bind fun _ =>
      ((touches_addEvent _ _ _).mono (by decide)).bind fun _ => touches_issue rfl

theorem touches_executePrologue (task : CallTask) :
    Touches [.acquire, .read, .clock, .updateCall, .commit, .insertEvent]
      (executePrologue task) :=
  touches_issue_bind rfl fun _ => ((touches_updateCallStatus _ _ _).mono (by decide)).bind
    fun _ => (touches_addEvent _ _ _).mono (by decide)

theorem touches_executeCall (o : CallOriginator) (task : CallTask) :
    Touches ([.acquire, .release] ++ originateKinds) (executeCall o task) := by
  refine ((touches_executePrologue task).mono (by decide)).bind fun _ =>
    Coro.Uses.tryFinally ?_ (touches_issue rfl)
  exact Touches.tryCatch ((touches_executeBody o task).mono (by decide))
    fun e => (touches_executeHandler task e).mono (by decide)

/-- What an input needs that is not a request for a call. -/
def passiveKinds : List Kind :=
  [.clock, .updateCall, .read, .insertEvent, .delete, .commit, .cleanup, .gauge, .client,
    .connected, .log]

/-- An input that does not ask for a call. -/
def Input.passive : Input → Bool
  | .otpCall _ => false
  | .retry _ _ => false
  | _ => true

theorem touches_passive {x : Input} (h : x.passive = true) : Touches passiveKinds x.body := by
  cases x with
  | otpCall request => cases h
  | retry requestId body => cases h
  | status requestId => exact (touches_getCallStatus requestId).mono (by decide)
  | health => exact touches_healthCheck.mono (by decide)
  | amiEvent kind message =>
    exact ((touches_dispatch kind message).mono (by decide)).bind fun _ => touches_pure _
  | cleanup => exact (touches_periodicCleanup.mono (by decide)).bind fun _ => touches_pure _

/-- What an input needs. -/
def inputKinds : List Kind := passiveKinds ++ requestKinds

theorem touches_input (x : Input) : Touches inputKinds x.body := by
  cases x with
  | otpCall request => exact (touches_sendOtpCall request).mono (by decide)
  | retry requestId body => exact (touches_retryCall requestId body).mono (by decide)
  | status requestId => exact (touches_passive (x := .status requestId) rfl).mono (by decide)
  | health => exact (touches_passive (x := .health) rfl).mono (by decide)
  | amiEvent kind message =>
    exact (touches_passive (x := .amiEvent kind message) rfl).mono (by decide)
  | cleanup => exact (touches_passive (x := .cleanup) rfl).mono (by decide)

end OtpVoice
