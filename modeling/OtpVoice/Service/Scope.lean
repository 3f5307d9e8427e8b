import OtpVoice.Service.Footprint

/-!
# The statements of a coroutine

A `Scope` names the statements that a coroutine may execute, the ids that it may draw, the records
that a lookup by channel may give it, and the messages that the reply to its action may forward.
`Stays S post p` says that `p` keeps to the scope `S` as long as the answers do. There is one lemma
for each coroutine that writes; what each of them needs of its scope is `Scope.Covers`.
-/

set_option autoImplicit false

namespace OtpVoice

open Coroutine

/-- Statements, ids that may be drawn, records that a lookup by channel may find, and messages that
a reply may forward. -/
structure Scope where
  stmt : Stmt → Prop
  drawn : String → Prop
  found : CallRecord → Prop
  reply : Message → Prop

namespace Scope

variable (S : Scope)

/-- The later messages of a reply that `originate` forwards are in the scope. -/
def Honest (reply : Reply) : Prop :=
  ∀ message, some message ∈ reply.messages.tail →
    message.get .event = some "OriginateResponse" → S.reply message

/-- The answers that a coroutine may get; it has submitted its action, or not yet. -/
def Answers (submitted : Bool) (c : Cmd) (r : Except Exc c.Resp) (submitted' : Bool) : Prop :=
  submitted' = (submitted || c.waitsForAsterisk) ∧
    match c, r with
    | .uuid4, .ok id => S.drawn id.text
    | .awaitReply, .ok reply => S.Honest reply
    | .execute (.selectByChannel _), .ok (some row) => S.found row
    | _, _ => True

/-- The commands that a coroutine may issue: it waits for a reply once it has submitted its
action. -/
def Guards (submitted : Bool) : Cmd → Prop
  | .execute s => S.stmt s
  | .awaitReply => submitted = true
  | _ => True

/-- What the functions that write about a record need. -/
structure Covers (requestId : String) (events : List EventName) : Prop where
  read : S.stmt (.selectCall requestId)
  update : ∀ status now (u : StatusFields), u.channel = none →
    S.stmt (.updateCall (updateFields u) (updateValues status now u) requestId)
  event : ∀ event ∈ events, ∀ detail now, S.stmt (.insertEvent ⟨requestId, event, detail, now⟩)

end Scope

/-- The coroutine keeps to the scope and ends in `post`. -/
def Stays {α : Type} (S : Scope) (post : Except Exc α → Prop) (p : Prog α) (submitted : Bool) :
    Prop :=
  Coro.Sat S.Answers (fun b c _ _ => S.Guards b c) (fun r _ => post r) p submitted

/-- The commands that no scope constrains. -/
def freeKinds : List Kind :=
  [.clock, .drawId, .commit, .capacity, .hourly, .number, .acquire, .release, .cleanup, .gauge,
    .client, .connected, .submit, .handler, .log]

section Rules

variable {α β : Type} {S : Scope} {post : Except Exc α → Prop} {b : Bool}

theorem Stays.bind {Q : Except Exc β → Prop} {p : Prog β} {f : β → Prog α} (hp : Stays S Q p b)
    (hok : ∀ a b', Q (.ok a) → Stays S post (f a) b')
    (herror : ∀ x, Q (.error x) → post (.error x)) :
    Stays S post (p >>= f) b := by
  refine (Coro.sat_bind _ f p b).2 (Coro.Sat.mono ?_ hp)
  intro r b' hQ
  cases r with
  | ok a => exact hok a b' hQ
  | error x => exact herror x hQ

theorem Stays.tryCatch {Q : Except Exc α → Prop} {p : Prog α} {h : Exc → Prog α}
    (hp : Stays S Q p b) (hok : ∀ a, Q (.ok a) → post (.ok a))
    (herror : ∀ x b', Q (.error x) → Stays S post (h x) b') : Stays S post (tryCatch p h) b := by
  refine (Coro.sat_tryCatch _ h p b).2 (Coro.Sat.mono ?_ hp)
  intro r b' hQ
  cases r with
  | ok a => exact hok a hQ
  | error x => exact herror x b' hQ

theorem Stays.mono {post' : Except Exc α → Prop} {p : Prog α} (h : Stays S post p b)
    (hpost : ∀ r, post r → post' r) : Stays S post' p b :=
  Coro.Sat.mono (fun r _ => hpost r) h

/-- A part with any outcome, before the rest. -/
theorem Stays.then {p : Prog β} {f : β → Prog α} (hp : Stays S (fun _ => True) p b)
    (hf : ∀ a b', Stays S (fun _ => True) (f a) b') : Stays S (fun _ => True) (p >>= f) b :=
  hp.bind (fun a b' _ => hf a b') fun _ _ => trivial

theorem stays_pure (a : α) : Stays S (fun _ => True) (pure a : Prog α) b := trivial

theorem guards_of_kind {c : Cmd} (hc : c.kind ∈ freeKinds) : S.Guards b c := by
  unfold Scope.Guards
  split
  · rename_i s
    cases s <;> exact absurd hc (by simp [Cmd.kind, Stmt.kind, freeKinds])
  · exact absurd hc (by decide)
  · trivial

theorem stays_free {ks : List Kind} {p : Prog α} (hp : Touches ks p)
    (hks : ks.all (fun k => k ∈ freeKinds) = true) : Stays S (fun _ => True) p b := by
  refine Coro.Sat.of_uses (I := fun _ => True) ?_ hp trivial
  intro b' c r b'' hc _ _
  exact ⟨guards_of_kind (of_decide_eq_true (List.all_eq_true.1 hks _ hc)), trivial⟩

theorem stays_execute {s : Stmt} (hs : S.stmt s) : Stays S (fun _ => True) (execute s) b :=
  fun _ _ _ => ⟨hs, trivial⟩

/-! ## The functions of the database -/

variable {requestId : String} {events : List EventName}

theorem stays_addEvent {event : EventName} {detail : Option String}
    (h : ∀ now, S.stmt (.insertEvent ⟨requestId, event, detail, now⟩)) :
    Stays S (fun _ => True) (addEvent requestId event detail) b :=
  (stays_free touches_time (by decide)).then fun now _ => (stays_execute (h now)).then fun _ _ =>
    stays_free touches_commit (by decide)

theorem stays_updateCallStatus {status : Status} {u : StatusFields}
    (hread : S.stmt (.selectCall requestId))
    (h : ∀ now, S.stmt (.updateCall (updateFields u) (updateValues status now u) requestId)) :
    Stays S (fun _ => True) (updateCallStatus requestId status u) b := by
  apply (stays_execute hread).then
  intro record b'
  match record with
  | none => exact stays_pure _
  | some record =>
    dsimp only
    split
    · exact stays_pure _
    · exact (stays_free touches_time (by decide)).then fun now _ => (stays_execute (h now)).then
        fun _ _ => (stays_free touches_commit (by decide)).then fun _ _ => stays_pure _

theorem Scope.Covers.updateCallStatus (h : S.Covers requestId events) (status : Status)
    {u : StatusFields} (hu : u.channel = none) :
    Stays S (fun _ => True) (updateCallStatus requestId status u) b :=
  stays_updateCallStatus h.read fun now => h.update status now u hu

theorem Scope.Covers.addEvent (h : S.Covers requestId events) {event : EventName}
    (hevent : event ∈ events) (detail : Option String) :
    Stays S (fun _ => True) (addEvent requestId event detail) b :=
  stays_addEvent (h.event event hevent detail)

/-! ## The event handlers -/

theorem stays_onOriginateResponse {message : Message} (hevents : .originateResponse ∈ events)
    (h : ∀ requestId, extractRequestId (message.get .actionID) = some requestId →
      S.Covers requestId events) : Stays S (fun _ => True) (onOriginateResponse message) b := by
  unfold onOriginateResponse
  cases hid : extractRequestId (message.get .actionID) with
  | none => exact stays_pure _
  | some requestId =>
    apply ((h requestId hid).addEvent hevents _).then
    intro _ _
    split
    · exact ((h requestId hid).updateCallStatus _ rfl).then fun _ _ => stays_pure _
    · exact stays_pure _

/-- A lookup by channel gives a record of the scope. -/
theorem stays_getCallByChannel {channel : String} (hs : S.stmt (.selectByChannel channel)) :
    Stays S (fun r => ∀ row, r = .ok (some row) → S.found row) (getCallByChannel channel) b := by
  rintro r b' ⟨-, hfound⟩
  refine ⟨hs, ?_⟩
  rintro row rfl
  exact hfound

theorem stays_onNewState {message : Message} (hringing : .ringing ∈ events)
    (hanswered : .answered ∈ events)
    (hs : ∀ channel, orText (message.get .channel) none = some channel →
      S.stmt (.selectByChannel channel))
    (h : ∀ row, S.found row → S.Covers row.requestId events) :
    Stays S (fun _ => True) (onNewState message) b := by
  unfold onNewState
  cases hchannel : orText (message.get .channel) none with
  | none => exact stays_pure _
  | some channel =>
    refine (stays_getCallByChannel (hs channel hchannel)).bind ?_ fun _ _ => trivial
    intro record b' hrecord
    cases record with
    | none => exact stays_pure _
    | some row =>
      have hcovers := h row (hrecord row rfl)
      cases hstate : stateStatus message with
      | none => exact stays_pure _
      | some x =>
        have hevent : x.2 ∈ events := by
          rcases stateStatus_cases hstate with rfl | rfl
          · exact hringing
          · exact hanswered
        exact (hcovers.updateCallStatus _ rfl).then fun _ _ => hcovers.addEvent hevent _

theorem stays_onHangup {message : Message} (hhangup : .hangup ∈ events)
    (hs : ∀ channel, orText (message.get .channel) none = some channel →
      S.stmt (.selectByChannel channel))
    (h : ∀ row, S.found row → S.Covers row.requestId events) :
    Stays S (fun _ => True) (onHangup message) b := by
  unfold onHangup
  cases hchannel : orText (message.get .channel) none with
  | none => exact stays_pure _
  | some channel =>
    refine (stays_getCallByChannel (hs channel hchannel)).bind ?_ fun _ _ => trivial
    intro record b' hrecord
    cases record with
    | none => exact stays_pure _
    | some row =>
      have hcovers := h row (hrecord row rfl)
      apply (hcovers.addEvent hhangup _).then
      intro _ _
      split
      · exact stays_pure _
      · exact (hcovers.updateCallStatus _ rfl).then fun _ _ => stays_pure _

theorem stays_onUserEvent {message : Message}
    (hevents : ∀ d : DialplanEvent, d.line ∈ events)
    (h : ∀ requestId, userEventRequestId message = some requestId → S.Covers requestId events)
    (hbind : ∀ requestId channel, userEventRequestId message = some requestId →
      dialplanEvent message = some .callStart → orText (message.get .channel) none = some channel →
        ∀ now, S.stmt (.updateCall (updateFields { channel := some channel })
          (updateValues .answered now { channel := some channel }) requestId)) :
    Stays S (fun _ => True) (onUserEvent message) b := by
  unfold onUserEvent
  cases hid : userEventRequestId message with
  | none => exact stays_pure _
  -- only an `OTPCallStart` writes a channel, so only there the update is a case of its own
  | some requestId =>
    have hcovers := h requestId hid
    dsimp only
    split
    · rename_i hstart
      split
      · rename_i channel hchannel
        exact (stays_updateCallStatus hcovers.read (hbind _ _ hid hstart hchannel)).then
          fun _ _ => hcovers.addEvent (hevents .callStart) _
      · exact hcovers.addEvent (hevents .callStart) _
    · exact (hcovers.updateCallStatus _ rfl).then fun _ _ =>
        hcovers.addEvent (hevents .playbackStart) _
    · exact (hcovers.updateCallStatus _ rfl).then fun _ _ =>
        hcovers.addEvent (hevents .playbackComplete) _
    · exact stays_pure _

/-! ## The background task -/

theorem stays_forward {messages : List (Option Message)} (hevents : .originateResponse ∈ events)
    (h : ∀ message, some message ∈ messages → message.get .event = some "OriginateResponse" →
      ∀ requestId, extractRequestId (message.get .actionID) = some requestId →
        S.Covers requestId events) :
    Stays S (fun _ => True) (CallOriginator.forward messages) b := by
  induction messages generalizing b with
  | nil => exact stays_pure _
  | cons message rest ih =>
    have hrest : ∀ b', Stays S (fun _ => True) (CallOriginator.forward rest) b' := fun b' =>
      ih fun m hm => h m (List.mem_cons_of_mem _ hm)
    cases message with
    | none => exact hrest b
    | some message =>
      unfold CallOriginator.forward
      split
      · rename_i hevent
        refine Stays.then (Stays.tryCatch (Q := fun _ => True) ?_ (fun _ _ => trivial) fun e b' _ =>
          stays_free (touches_log _ _) (by decide)) fun _ b' => hrest b'
        have hready : Touches [.handler] (issue .hasEventHandler) := touches_issue rfl
        apply (stays_free hready (by decide)).then
        intro ready b'
        split
        · exact stays_onOriginateResponse hevents (h message List.mem_cons_self hevent)
        · exact stays_pure _
      · exact hrest b

/-- The reply to an action is one of the scope. -/
def Scope.Replies (S : Scope) (r : Except Exc Reply) : Prop :=
  ∀ reply, r = .ok reply → S.Honest reply

theorem stays_sendAction (action : Action) : Stays S S.Replies (sendAction action) b := by
  refine Stays.bind (Q := fun _ => True) (stays_free (touches_isConnected) (by decide))
    (fun connected b' _ => ?_) fun _ _ _ h => by cases h
  refine Stays.bind (Q := fun _ => True) (stays_free (touches_nothing_raiseUnless _ _) (by decide))
    (fun _ b' _ => ?_) fun _ _ _ h => by cases h
  refine Stays.tryCatch (Q := S.Replies) ?_ (fun _ h => h) fun e b' _ => ?_
  · -- the task waits once it has submitted its action
    intro r b₁ hb₁
    refine ⟨trivial, ?_⟩
    cases r with
    | error x => exact fun _ h => by cases h
    | ok _ =>
      obtain rfl : b₁ = true := hb₁.1.trans (by simp [Cmd.waitsForAsterisk])
      intro r b₂ hb₂
      refine ⟨rfl, ?_⟩
      rintro reply rfl
      exact hb₂.2
  · split
    · exact fun _ h => by cases h
    · exact (stays_free (touches_log _ _) (by decide)).bind (fun _ _ _ _ h => by cases h)
        fun _ _ _ h => by cases h

theorem stays_judge {mobile : String} {reply : Reply} (hevents : .originateResponse ∈ events)
    (hreply : S.Honest reply)
    (h : ∀ message, S.reply message → ∀ requestId,
      extractRequestId (message.get .actionID) = some requestId → S.Covers requestId events) :
    Stays S (fun _ => True) (CallOriginator.judge mobile reply.messages) b := by
  have hreply' := hreply
  unfold Scope.Honest at hreply'
  cases hmessages : reply.messages with
  | nil => exact stays_pure _
  | cons ack later =>
    rw [hmessages] at hreply'
    simp only [CallOriginator.judge]
    split
    · refine Stays.then ?_ fun _ _ => stays_pure _
      exact stays_forward hevents fun message hmem hevent =>
        h message (hreply' message hmem hevent)
    · exact (stays_free (touches_log _ _) (by decide)).then fun _ _ => stays_pure _

theorem stays_originate {o : CallOriginator} {mobile code : String} {repeatCount timeout : ℤ}
    (hevents : .originateResponse ∈ events)
    (h : ∀ message, S.reply message → ∀ requestId,
      extractRequestId (message.get .actionID) = some requestId → S.Covers requestId events) :
    Stays S (fun _ => True) (o.originate requestId mobile code repeatCount timeout) b := by
  have hlog : ∀ level line b' (x : Bool × Option String),
      Stays S (fun _ => True) (log level line >>= fun _ => pure x) b' := fun level line b' x =>
    (stays_free (touches_log _ _) (by decide)).then fun _ _ => stays_pure _
  apply (stays_free (touches_log _ _) (by decide)).then
  intro _ _
  apply (stays_free touches_getAmiClient (by decide)).then
  intro _ _
  apply (stays_free touches_isConnected (by decide)).then
  intro connected b'
  split
  · have hsend : Stays S (fun r => ∀ reply, r = .ok (.ok reply) → S.Honest reply)
        (attempt (sendAction (o.action requestId (sanitizeAmiValue mobile) (sanitizeAmiValue code)
          (CallOriginator.clampRepeat repeatCount) timeout))) b' := by
      -- what `attempt` returns as a value is still an honest reply
      refine Stays.tryCatch (Q := fun r => ∀ reply, r = .ok (.ok reply) → S.Honest reply) ?_
        (fun _ h => h) fun x _ _ _ h => by cases h
      refine (stays_sendAction _).bind (fun reply _ h reply' h' => ?_) fun _ _ _ h => by cases h
      cases h'
      exact h reply rfl
    refine hsend.bind (fun result b'' hresult => ?_) fun _ _ => trivial
    cases result with
    | ok reply => exact stays_judge hevents (hresult reply rfl) h
    | error x => cases x <;> exact hlog _ _ _ _
  · exact stays_pure _

/-- What `_execute_call` needs of its scope. -/
theorem stays_executeCall {o : CallOriginator} {task : CallTask}
    (hevents : [.originating, .failed, .originateResponse] ⊆ events)
    (htask : S.Covers task.requestId events)
    (h : ∀ message, S.reply message → ∀ requestId,
      extractRequestId (message.get .actionID) = some requestId → S.Covers requestId events) :
    Stays S (fun _ => True) (executeCall o task) b := by
  have hfailed : .failed ∈ events := hevents (by simp)
  refine Stays.then (p := executePrologue task) ?_ fun _ b' => ?_
  · exact (stays_free touches_acquireSlot (by decide)).then fun _ _ =>
      (htask.updateCallStatus _ rfl).then fun _ _ => htask.addEvent (hevents (by simp)) _
  · have htry : Stays S (fun _ => True)
        (tryCatch (executeBody o task) (executeHandler task)) b' := by
      refine Stays.tryCatch (Q := fun _ => True) ?_ (fun _ _ => trivial) fun e b'' _ => ?_
      · apply (stays_originate (hevents (by simp)) h).then
        intro result b''
        obtain ⟨accepted, error⟩ := result
        dsimp only
        split
        · exact stays_pure _
        · exact (htask.updateCallStatus _ rfl).then fun _ _ => (htask.addEvent hfailed _).then
            fun _ _ => stays_free (touches_log _ _) (by decide)
      · exact (stays_free (touches_log _ _) (by decide)).then fun _ _ =>
          (htask.updateCallStatus _ rfl).then fun _ _ => htask.addEvent hfailed _
    -- the slot is given back at every end of the `try` block
    refine (Coro.sat_tryFinally _ _ _ _).2 (Coro.Sat.mono (fun r b'' _ => ?_) htry)
    exact (stays_free touches_releaseSlot (by decide)).bind (fun _ _ _ => trivial)
      fun _ _ => trivial

/-! ## Creating a record and counting a retry -/

theorem stays_createCallRecord {mobile code codeMasked : String} {parent : Option String}
    (hqueued : .queued ∈ events)
    (hinsert : ∀ row : CallRecord, S.drawn row.requestId → row.channel = none →
      S.stmt (.insertCall row))
    (hevent : ∀ requestId, S.drawn requestId → S.Covers requestId events) :
    Stays S (fun _ => True) (createCallRecord mobile code codeMasked parent) b := by
  have hdraw : Stays S (fun r => ∀ id, r = .ok id → S.drawn id.text) uuid4 b := by
    rintro r b' ⟨-, hdrawn⟩
    refine ⟨trivial, ?_⟩
    rintro id rfl
    exact hdrawn
  refine hdraw.bind (fun id b' hid => ?_) fun _ _ => trivial
  have hdrawn := hid id rfl
  exact (stays_free touches_time (by decide)).then fun now _ =>
    (stays_execute (hinsert _ hdrawn rfl)).then fun _ _ =>
      (stays_free touches_commit (by decide)).then fun _ _ =>
        ((hevent id.text hdrawn).addEvent hqueued none).then fun _ _ => stays_pure _

theorem stays_incrementRetry (hread : S.stmt (.selectCall requestId))
    (h : ∀ now, S.stmt (.incrementRetry now requestId)) :
    Stays S (fun _ => True) (incrementRetry requestId) b := by
  refine (stays_free touches_time (by decide)).then fun now _ => (stays_execute (h now)).then
    fun _ _ => (stays_free touches_commit (by decide)).then fun _ _ =>
      (stays_execute hread).then fun record _ => ?_
  cases record <;> exact stays_pure _

end Rules

end OtpVoice
