import OtpVoice.Service.Footprint
import OtpVoice.Service.Statements

/-!
# Who writes into a timeline

`TimelineNote` lists what a coroutine has to know before it writes a line: a reading of the clock,
which comes right before the line, and the id of the record. It knows an id from its own input or
task, from a reply of Asterisk, from a lookup by channel, or because it has stored the record
itself. `line_notes` says that every operation keeps to this, whatever else runs in between, and
that a request for a call has written the line `queued` of its record when it returns.
-/

set_option autoImplicit false

namespace OtpVoice

open Coroutine

/-! ## Notes -/

/-- What is noted of lines and of the ids that a coroutine knows. -/
inductive TimelineNote where
  | clock (t : Time)
  | stored (requestId : String)
  | found (requestId : String)
  | replied (reply : Reply)
  | line (row : EventRow)
  | other

/-- The note of a command with its answer. -/
def TimelineNote.of : (c : Cmd) → Except Exc c.Resp → TimelineNote
  | .time, .ok t => .clock t
  | .execute (.insertCall row), .ok _ => .stored row.requestId
  | .execute (.selectByChannel _), .ok (some row) => .found row.requestId
  | .awaitReply, .ok r => .replied r
  | .execute (.insertEvent row), .ok _ => .line row
  | _, _ => .other

/-- Every command is noted, so that the last note is about the last command. -/
def timelineNote (ev : Ev) : Option TimelineNote := some (TimelineNote.of ev.cmd ev.res)

/-- A message is about a request. -/
def Message.Names (message : Message) (requestId : String) : Prop :=
  userEventRequestId message = some requestId ∨
    extractRequestId (message.get .actionID) = some requestId

/-- An operation has been started for a request. -/
def Op.Names (op : Op) (requestId : String) : Prop :=
  match op with
  | .input (.amiEvent _ message) => message.Names requestId
  | .execute task => task.requestId = requestId
  | _ => False

/-- An operation with the notes `l` has come to know a request. -/
def Op.Knows (op : Op) (l : List TimelineNote) (requestId : String) : Prop :=
  op.Names requestId ∨ .found requestId ∈ l ∨
    ∃ reply message, .replied reply ∈ l ∧ some message ∈ reply.messages ∧ message.Names requestId

/-- An operation with the notes `l` may make a note: a line has the time that has just been read,
and is about a known request, or the first line of a record that the operation has stored. -/
def Op.Allows (op : Op) (l : List TimelineNote) : TimelineNote → Prop
  | .line row => (∃ l', l = l' ++ [.clock row.atTime]) ∧
    (op.Knows l row.requestId ∨ row.event = .queued ∧ .stored row.requestId ∈ l)
  | _ => True

theorem Op.Knows.mono {op : Op} {l l' : List TimelineNote} {requestId : String}
    (h : op.Knows l requestId) (hl : l ⊆ l') : op.Knows l' requestId := by
  rcases h with h | h | ⟨reply, message, h, hmessage⟩
  · exact .inl h
  · exact .inr (.inl (hl h))
  · exact .inr (.inr ⟨reply, message, hl h, hmessage⟩)

section Noting

variable {α β : Type} {o : CallOriginator} {yields : Cmd → Bool} {op : Op}
variable {post : Except Exc α → List TimelineNote → Prop} {l l' : List TimelineNote}

/-- The notes of a part are allowed. -/
abbrev Tells (o : CallOriginator) (yields : Cmd → Bool) (op : Op)
    (post : Except Exc α → List TimelineNote → Prop) (p : Prog α) (l : List TimelineNote) : Prop :=
  (otpService o yields).Noting timelineNote (Service.Justified op.Allows) post p l

/-- The notes after a part are allowed, and keep those before it. -/
def Told (op : Op) (l l' : List TimelineNote) : Prop := Service.Justified op.Allows l' ∧ l ⊆ l'

theorem Told.trans {l₁ l₂ l₃ : List TimelineNote} (h : Told op l₁ l₂) (h' : Told op l₂ l₃) :
    Told op l₁ l₃ :=
  ⟨h'.1, List.Subset.trans h.2 h'.2⟩

theorem Told.step (h : Told op l l') {y : TimelineNote} (hy : op.Allows l' y) :
    Told op l (l' ++ [y]) :=
  ⟨h.1.concat hy, List.Subset.trans h.2 (List.subset_append_left _ _)⟩

theorem allows_of_kind {c : Cmd} (hc : c.kind ≠ .insertEvent) (r : Except Exc c.Resp) :
    op.Allows l (TimelineNote.of c r) := by
  unfold TimelineNote.of
  split
  case h_5 => exact absurd rfl hc
  all_goals trivial

/-- A part that writes no line. -/
theorem tells_quiet {ks : List Kind} {p : Prog α} (hp : Touches ks p)
    (hks : ks.elem .insertEvent = false) (hl : Service.Justified op.Allows l) :
    Tells o yields op (fun _ l' => Told op l l') p l := by
  refine Coro.Sat.of_uses (I := fun l' => Told op l l') ?_ hp ⟨hl, List.Subset.refl l⟩
  rintro l₁ c r _ hc h₁ ⟨e, n, w, -, rfl⟩
  have hkind : c.kind ≠ .insertEvent := by
    intro h
    rw [List.elem_iff.2 (h ▸ hc)] at hks
    cases hks
  have h₂ : Told op l (l₁ ++ [TimelineNote.of c r]) := h₁.step (allows_of_kind hkind r)
  exact ⟨h₂.1, h₂⟩

/-- Two parts after each other. -/
theorem Tells.then {p : Prog β} {f : β → Prog α}
    (hp : Tells o yields op (fun _ l' => Told op l l') p l)
    (hf : ∀ a l', Told op l l' → Tells o yields op (fun _ l'' => Told op l' l'') (f a) l') :
    Tells o yields op (fun _ l' => Told op l l') (p >>= f) l := by
  refine hp.bind (fun a l' hl' => ?_) fun _ _ h => h
  exact (hf a l' hl').mono fun _ _ h => hl'.trans h

/-- A later part, after what has been told before. -/
theorem Tells.after {p : Prog α} {l₁ : List TimelineNote}
    (hp : Tells o yields op (fun _ l' => Told op l₁ l') p l₁) (h : Told op l l₁) :
    Tells o yields op (fun _ l' => Told op l l') p l₁ :=
  hp.mono fun _ _ h' => h.trans h'

theorem tells_pure (a : α) (hl : Service.Justified op.Allows l) :
    Tells o yields op (fun _ l' => Told op l l') (pure a) l :=
  ⟨hl, List.Subset.refl l⟩

/-- One command and its note. -/
theorem tells_issue {c : Cmd} {post : Except Exc c.Resp → List TimelineNote → Prop}
    (h : ∀ r, op.Allows l (TimelineNote.of c r) ∧ post r (l ++ [TimelineNote.of c r]))
    (hl : Service.Justified op.Allows l) : Tells o yields op post (issue c) l := by
  apply Service.noting_perform
  intro e n w
  obtain ⟨hallowed, hpost⟩ := h ((otpService o yields).respond e n w c).1
  exact ⟨hl.concat hallowed, hpost⟩

/-! ## The functions of the database -/

/-- The line follows the clock reading that it has as its time. -/
theorem tells_addEvent {requestId : String} {event : EventName} (detail : Option String)
    (h : op.Knows l requestId ∨ event = .queued ∧ .stored requestId ∈ l)
    (hl : Service.Justified op.Allows l) :
    Tells o yields op (fun r l' => Told op l l' ∧ ∀ a, r = .ok a →
      ∃ row : EventRow, .line row ∈ l' ∧ row.requestId = requestId ∧ row.event = event)
      (addEvent requestId event detail) l := by
  have hread : Tells o yields op (fun r l' => Told op l l' ∧
      ∀ now, r = .ok now → l' = l ++ [.clock now]) time l := by
    apply tells_issue ?_ hl
    intro r
    cases r with
    | error x => exact ⟨trivial, Told.step ⟨hl, List.Subset.refl l⟩ trivial, fun _ h => by cases h⟩
    | ok t =>
      refine ⟨trivial, Told.step ⟨hl, List.Subset.refl l⟩ trivial, fun now hnow => ?_⟩
      rw [← Except.ok.inj hnow]
      rfl
  refine hread.bind (fun now l₁ h₁ => ?_) fun x l₁ h₁ => ⟨h₁.1, fun _ h => by cases h⟩
  obtain ⟨htold, heq⟩ := h₁
  obtain rfl := heq now rfl
  -- the `INSERT` comes right after the reading
  set row : EventRow := ⟨requestId, event, detail, now⟩ with hrow
  have hline : op.Allows (l ++ [.clock now]) (.line row) := by
    refine ⟨⟨l, rfl⟩, ?_⟩
    rcases h with h | ⟨hqueued, hstored⟩
    · exact .inl (h.mono htold.2)
    · exact .inr ⟨hqueued, htold.2 hstored⟩
  have hinsert : Tells o yields op (fun r l' => Told op l l' ∧ ∀ a, r = .ok a → .line row ∈ l')
      (execute (.insertEvent row)) (l ++ [.clock now]) := by
    apply tells_issue ?_ htold.1
    intro r
    cases r with
    | error x => exact ⟨trivial, htold.step trivial, fun _ h => by cases h⟩
    | ok a =>
      refine ⟨hline, htold.step hline, fun _ _ => ?_⟩
      exact List.mem_append_right _ (List.mem_singleton_self _)
  refine hinsert.bind (fun a l₂ h₂ => ?_) fun x l₂ h₂ => ⟨h₂.1, fun _ h => by cases h⟩
  refine (tells_quiet touches_commit rfl h₂.1.1).mono fun r l₃ h₃ => ⟨h₂.1.trans h₃, ?_⟩
  exact fun _ _ => ⟨row, h₃.2 (h₂.2 a rfl), rfl, rfl⟩

/-- A line about a known request. -/
theorem tells_known {requestId : String} (event : EventName) (detail : Option String)
    (h : op.Knows l requestId) (hl : Service.Justified op.Allows l) :
    Tells o yields op (fun _ l' => Told op l l') (addEvent requestId event detail) l :=
  (tells_addEvent detail (.inl h) hl).mono fun _ _ h => h.1

theorem tells_update (requestId : String) (status : Status) (u : StatusFields)
    (hl : Service.Justified op.Allows l) :
    Tells o yields op (fun _ l' => Told op l l') (updateCallStatus requestId status u) l :=
  tells_quiet (touches_updateCallStatus requestId status u) rfl hl

/-- A status and a line about a known request. -/
theorem tells_update_line {requestId : String} (status : Status) (u : StatusFields)
    (event : EventName) (detail : Option String) (h : op.Knows l requestId)
    (hl : Service.Justified op.Allows l) :
    Tells o yields op (fun _ l' => Told op l l')
      (updateCallStatus requestId status u >>= fun _ => addEvent requestId event detail) l :=
  (tells_update requestId status u hl).then fun _ _ h' =>
    tells_known event detail (h.mono h'.2) h'.1

/-- The record is stored before its first line is written. -/
theorem tells_createCallRecord (mobile code codeMasked : String) (parent : Option String)
    (hl : Service.Justified op.Allows l) :
    Tells o yields op (fun r l' => Told op l l' ∧ ∀ requestId, r = .ok requestId →
      ∃ row : EventRow, .line row ∈ l' ∧ row.requestId = requestId ∧ row.event = .queued)
      (createCallRecord mobile code codeMasked parent) l := by
  refine (tells_quiet touches_uuid4 rfl hl).bind (fun id l₁ h₁ => ?_)
    fun x l₁ h₁ => ⟨h₁, fun _ h => by cases h⟩
  refine (tells_quiet touches_time rfl h₁.1).bind (fun now l₂ h₂ => ?_)
    fun x l₂ h₂ => ⟨h₁.trans h₂, fun _ h => by cases h⟩
  set row : CallRecord :=
    { requestId := id.text, mobile, code, codeMasked, parentRequestId := parent, createdAt := now,
      updatedAt := now, expiresAt := now + ttlSeconds } with hrow
  have hinsert : Tells o yields op
      (fun r l' => Told op l₂ l' ∧ ∀ a, r = .ok a → .stored id.text ∈ l')
      (execute (.insertCall row)) l₂ := by
    apply tells_issue ?_ h₂.1
    intro r
    have hkind : (Cmd.execute (.insertCall row)).kind ≠ .insertEvent := by rintro ⟨⟩
    have hallowed : op.Allows l₂ (TimelineNote.of _ r) := allows_of_kind hkind r
    refine ⟨hallowed, Told.step ⟨h₂.1, List.Subset.refl _⟩ hallowed, ?_⟩
    rintro a rfl
    exact List.mem_append_right _ (List.mem_singleton_self _)
  -- the rest of the function only adds notes
  refine hinsert.bind (fun a l₃ h₃ => ?_)
    fun x l₃ h₃ => ⟨(h₁.trans h₂).trans h₃.1, fun _ h => by cases h⟩
  have hto₃ := (h₁.trans h₂).trans h₃.1
  refine (tells_quiet touches_commit rfl h₃.1.1).bind (fun _ l₄ h₄ => ?_)
    fun x l₄ h₄ => ⟨hto₃.trans h₄, fun _ h => by cases h⟩
  refine (tells_addEvent none (.inr ⟨rfl, h₄.2 (h₃.2 a rfl)⟩) h₄.1).bind (fun _ l₅ h₅ => ?_)
    fun x l₅ h₅ => ⟨(hto₃.trans h₄).trans h₅.1, fun _ h => by cases h⟩
  refine ⟨(hto₃.trans h₄).trans h₅.1, ?_⟩
  intro requestId h
  rw [← Except.ok.inj h]
  exact h₅.2 () rfl

/-! ## The event handlers -/

theorem tells_onOriginateResponse {message : Message}
    (h : ∀ requestId, extractRequestId (message.get .actionID) = some requestId →
      op.Knows l requestId) (hl : Service.Justified op.Allows l) :
    Tells o yields op (fun _ l' => Told op l l') (onOriginateResponse message) l := by
  unfold onOriginateResponse
  cases hid : extractRequestId (message.get .actionID) with
  | none => exact tells_pure _ hl
  | some requestId =>
    apply (tells_known _ _ (h requestId hid) hl).then
    intro _ l₁ h₁
    split
    · exact (tells_update _ _ _ h₁.1).then fun _ _ h₂ => tells_pure _ h₂.1
    · exact tells_pure _ h₁.1

/-- A lookup by channel makes the id of the record known. -/
theorem tells_getCallByChannel (channel : String) (hl : Service.Justified op.Allows l) :
    Tells o yields op (fun r l' => Told op l l' ∧ ∀ row : CallRecord, r = .ok (some row) →
      op.Knows l' row.requestId) (getCallByChannel channel) l := by
  apply tells_issue ?_ hl
  intro r
  have hkind : (Cmd.execute (.selectByChannel channel)).kind ≠ .insertEvent := by rintro ⟨⟩
  refine ⟨allows_of_kind hkind r, Told.step ⟨hl, List.Subset.refl _⟩ (allows_of_kind hkind r), ?_⟩
  rintro row rfl
  exact .inr (.inl (List.mem_append_right _ (List.mem_singleton_self _)))

theorem tells_onNewState (message : Message) (hl : Service.Justified op.Allows l) :
    Tells o yields op (fun _ l' => Told op l l') (onNewState message) l := by
  unfold onNewState
  cases orText (message.get .channel) none with
  | none => exact tells_pure _ hl
  | some channel =>
    refine (tells_getCallByChannel channel hl).bind (fun record l₁ h₁ => ?_) fun _ _ h₁ => h₁.1
    obtain ⟨htold, hknows⟩ := h₁
    refine Tells.after ?_ htold
    cases record with
    | none => exact tells_pure _ htold.1
    | some row =>
      cases stateStatus message with
      | none => exact tells_pure _ htold.1
      | some x => exact tells_update_line _ _ _ _ (hknows row rfl) htold.1

theorem tells_onHangup (message : Message) (hl : Service.Justified op.Allows l) :
    Tells o yields op (fun _ l' => Told op l l') (onHangup message) l := by
  unfold onHangup
  cases orText (message.get .channel) none with
  | none => exact tells_pure _ hl
  | some channel =>
    refine (tells_getCallByChannel channel hl).bind (fun record l₁ h₁ => ?_) fun _ _ h₁ => h₁.1
    obtain ⟨htold, hknows⟩ := h₁
    refine Tells.after ?_ htold
    cases record with
    | none => exact tells_pure _ htold.1
    | some row =>
      apply (tells_known _ _ (hknows row rfl) htold.1).then
      intro _ l₂ h₂
      split
      -- a terminal record is left alone
      · exact tells_pure _ h₂.1
      · exact (tells_update _ _ _ h₂.1).then fun _ _ h₃ => tells_pure _ h₃.1

theorem tells_onUserEvent {message : Message}
    (h : ∀ requestId, userEventRequestId message = some requestId → op.Knows l requestId)
    (hl : Service.Justified op.Allows l) :
    Tells o yields op (fun _ l' => Told op l l') (onUserEvent message) l := by
  unfold onUserEvent
  cases hid : userEventRequestId message with
  | none => exact tells_pure _ hl
  | some requestId =>
    have hknows := h requestId hid
    dsimp only
    split
    -- the start of a call, with a channel or without one
    · split
      · exact tells_update_line _ _ _ _ hknows hl
      · exact tells_known _ _ hknows hl
    · exact tells_update_line _ _ _ _ hknows hl
    · exact tells_update_line _ _ _ _ hknows hl
    · exact tells_pure _ hl

theorem tells_dispatch (kind : EventKind) {message : Message}
    (h : ∀ requestId, message.Names requestId → op.Knows l requestId)
    (hl : Service.Justified op.Allows l) :
    Tells o yields op (fun _ l' => Told op l l') (dispatch kind message) l := by
  cases kind with
  | originateResponse => exact tells_onOriginateResponse (fun id hid => h id (.inr hid)) hl
  | newchannel => exact tells_pure _ hl
  | newstate => exact tells_onNewState message hl
  | hangup => exact tells_onHangup message hl
  | userEvent => exact tells_onUserEvent (fun id hid => h id (.inl hid)) hl

/-! ## Background tasks -/

theorem tells_forward {messages : List (Option Message)}
    (h : ∀ message, some message ∈ messages → ∀ requestId, message.Names requestId →
      op.Knows l requestId) (hl : Service.Justified op.Allows l) :
    Tells o yields op (fun _ l' => Told op l l') (CallOriginator.forward messages) l := by
  induction messages generalizing l with
  | nil => exact tells_pure _ hl
  | cons message rest ih =>
    have hrest : ∀ l₁, Told op l l₁ →
        Tells o yields op (fun _ l' => Told op l₁ l') (CallOriginator.forward rest) l₁ :=
      fun l₁ h₁ => ih (fun m hm id hid => (h m (List.mem_cons_of_mem _ hm) id hid).mono h₁.2) h₁.1
    cases message with
    | none => exact hrest l ⟨hl, List.Subset.refl l⟩
    | some message =>
      unfold CallOriginator.forward
      split
      · -- a message that raises is logged, and the loop goes on
        refine Tells.then ?_ fun _ l₁ h₁ => hrest l₁ h₁
        refine Service.Noting.tryCatch (Q := fun _ l' => Told op l l') ?_ (fun _ _ h₁ => h₁) ?_
        · have hready : Touches [.handler] hasEventHandler := touches_issue rfl
          apply (tells_quiet hready rfl hl).then
          intro ready l₁ h₁
          split
          · refine tells_onOriginateResponse (fun id hid => ?_) h₁.1
            exact (h message List.mem_cons_self id (.inr hid)).mono h₁.2
          · exact tells_pure _ h₁.1
        · intro e l₁ h₁
          exact (tells_quiet (touches_log _ _) rfl h₁.1).mono fun _ _ h₂ => h₁.trans h₂
      · exact hrest l ⟨hl, List.Subset.refl l⟩

/-- A reply is noted when it comes. -/
theorem tells_sendAction (action : Action) (hl : Service.Justified op.Allows l) :
    Tells o yields op (fun r l' => Told op l l' ∧ ∀ reply, r = .ok reply → .replied reply ∈ l')
      (sendAction action) l := by
  refine (tells_quiet touches_isConnected rfl hl).bind (fun connected l₁ h₁ => ?_)
    fun _ _ h₁ => ⟨h₁, fun _ h => by cases h⟩
  refine (tells_quiet (touches_nothing_raiseUnless _ _) rfl h₁.1).bind (fun _ l₂ h₂ => ?_)
    fun _ _ h₂ => ⟨h₁.trans h₂, fun _ h => by cases h⟩
  have hto₂ := h₁.trans h₂
  refine Service.Noting.tryCatch
    (Q := fun r l' => Told op l l' ∧ ∀ reply, r = .ok reply → .replied reply ∈ l') ?_
    (fun _ _ h => h) fun e l₃ h₃ => ?_
  · have hsubmit : Touches [.submit] (submitAction action) := touches_issue rfl
    refine (tells_quiet hsubmit rfl h₂.1).bind (fun _ l₃ h₃ => ?_)
      fun _ _ h₃ => ⟨hto₂.trans h₃, fun _ h => by cases h⟩
    refine tells_issue (fun r => ?_) h₃.1
    have hallowed : op.Allows l₃ (TimelineNote.of .awaitReply r) := allows_of_kind (by rintro ⟨⟩) r
    refine ⟨hallowed, (hto₂.trans h₃).step hallowed, ?_⟩
    rintro reply rfl
    exact List.mem_append_right _ (List.mem_singleton_self _)
  · split
    · exact ⟨h₃.1, fun _ h => by cases h⟩
    · refine (tells_quiet (touches_log _ _) rfl h₃.1.1).bind (fun _ l₄ h₄ => ?_)
        fun _ _ h₄ => ⟨h₃.1.trans h₄, fun _ h => by cases h⟩
      exact ⟨h₃.1.trans h₄, fun _ h => by cases h⟩

theorem tells_judge (mobile : String) {messages : List (Option Message)}
    (h : ∀ message, some message ∈ messages → ∀ requestId, message.Names requestId →
      op.Knows l requestId) (hl : Service.Justified op.Allows l) :
    Tells o yields op (fun _ l' => Told op l l') (CallOriginator.judge mobile messages) l := by
  cases messages with
  | nil => exact tells_pure _ hl
  | cons ack later =>
    simp only [CallOriginator.judge]
    split
    · apply (tells_forward (fun m hm => h m (List.mem_cons_of_mem _ hm)) hl).then
      intro _ l₁ h₁
      exact tells_pure _ h₁.1
    · exact (tells_quiet (touches_log _ _) rfl hl).then fun _ _ h₁ => tells_pure _ h₁.1

theorem tells_originate (requestId mobile code : String) (repeatCount timeout : ℤ)
    (hl : Service.Justified op.Allows l) :
    Tells o yields op (fun _ l' => Told op l l')
      (o.originate requestId mobile code repeatCount timeout) l := by
  have hlog : ∀ level line l₁ (x : Bool × Option String), Service.Justified op.Allows l₁ →
      Tells o yields op (fun _ l' => Told op l₁ l') (log level line >>= fun _ => pure x) l₁ :=
    fun level line l₁ x h₁ =>
      (tells_quiet (touches_log _ _) rfl h₁).then fun _ _ h₂ => tells_pure _ h₂.1
  apply (tells_quiet (touches_log _ _) rfl hl).then
  intro _ l₁ h₁
  apply (tells_quiet touches_getAmiClient rfl h₁.1).then
  intro _ l₂ h₂
  apply (tells_quiet touches_isConnected rfl h₂.1).then
  intro connected l₃ h₃
  split
  · have hsend : Tells o yields op
        (fun r l' => Told op l₃ l' ∧ ∀ reply, r = .ok (.ok reply) → .replied reply ∈ l')
        (attempt (sendAction (o.action requestId (sanitizeAmiValue mobile) (sanitizeAmiValue code)
          (CallOriginator.clampRepeat repeatCount) timeout))) l₃ := by
      refine Service.Noting.tryCatch
        (Q := fun r l' => Told op l₃ l' ∧ ∀ reply, r = .ok (.ok reply) → .replied reply ∈ l') ?_
        (fun _ _ h => h) fun x _ h => ⟨h.1, fun _ h => by cases h⟩
      refine (tells_sendAction _ h₃.1).bind (fun reply _ h => ?_)
        fun _ _ h => ⟨h.1, fun _ h => by cases h⟩
      refine ⟨h.1, ?_⟩
      rintro _ ⟨⟩
      exact h.2 reply rfl
    refine hsend.bind (fun result l₄ h₄ => ?_) fun _ _ h => h.1
    obtain ⟨htold, hreply⟩ := h₄
    refine Tells.after ?_ htold
    cases result with
    | ok reply =>
      refine tells_judge _ (fun message hmem id hid => ?_) htold.1
      exact .inr (.inr ⟨reply, message, hreply reply rfl, hmem, hid⟩)
    | error x => cases x <;> exact hlog _ _ _ _ htold.1
  · exact tells_pure _ h₃.1

theorem tells_executeCall (task : CallTask) (hl : Service.Justified (Op.execute task).Allows l) :
    Tells o yields (.execute task) (fun _ l' => Told (.execute task) l l') (executeCall o task)
      l := by
  have hknows : ∀ l', (Op.execute task).Knows l' task.requestId := fun l' => .inl rfl
  refine Tells.then (p := executePrologue task) ?_ fun _ l₁ h₁ => ?_
  · exact (tells_quiet touches_acquireSlot rfl hl).then fun _ _ h₁ =>
      tells_update_line _ _ _ _ (hknows _) h₁.1
  · refine Service.Noting.tryFinally (Q := fun _ l' => Told (.execute task) l₁ l') ?_
      fun r l₂ h₂ => ?_
    · refine Service.Noting.tryCatch (Q := fun _ l' => Told (.execute task) l₁ l') ?_
        (fun _ _ h => h) fun e l₂ h₂ => ?_
      · -- the outcome of the action, or the handler of an exception
        apply (tells_originate _ _ _ _ _ h₁.1).then
        intro result l₂ h₂
        obtain ⟨accepted, error⟩ := result
        dsimp only
        split
        · exact tells_pure _ h₂.1
        · apply (tells_update _ _ _ h₂.1).then
          intro _ l₃ h₃
          apply (tells_known _ _ (hknows l₃) h₃.1).then
          intro _ l₄ h₄
          exact tells_quiet (touches_log _ _) rfl h₄.1
      · refine Tells.after ?_ h₂
        exact (tells_quiet (touches_log _ _) rfl h₂.1).then fun _ _ h₃ =>
          tells_update_line _ _ _ _ (hknows _) h₃.1
    · -- the slot is given back at every end of the `try` block
      refine (tells_quiet touches_releaseSlot rfl h₂.1).bind (fun _ _ h => ?_) fun _ _ h => ?_
      · exact h₂.trans h
      · exact h₂.trans h

/-! ## Every operation -/

/-- The answer of a request schedules only tasks whose records have their first line. -/
def Announced (r : Except Exc Answer) (l : List TimelineNote) : Prop :=
  ∀ answer, r = .ok answer → ∀ task ∈ answer.tasks,
    ∃ row : EventRow, .line row ∈ l ∧ row.requestId = task.requestId ∧ row.event = .queued

/-- A part that writes no line, before the rest of an endpoint. -/
theorem Tells.announced {ks : List Kind} {p : Prog α} {f : α → Prog Answer} (hp : Touches ks p)
    (hks : ks.elem .insertEvent = false) (hl : Service.Justified op.Allows l)
    (hf : ∀ a l', Told op l l' → Tells o yields op Announced (f a) l') :
    Tells o yields op Announced (p >>= f) l := by
  refine (tells_quiet hp hks hl).bind hf ?_
  rintro x l' - answer ⟨⟩

theorem tells_sendOtpCall (request : OTPCallRequest) (hl : Service.Justified op.Allows l) :
    Tells o yields op Announced (sendOtpCall request) l := by
  apply Tells.announced (touches_checkLimits request.mobile) rfl hl
  intro _ l₁ h₁
  refine (tells_createCallRecord _ _ _ _ h₁.1).bind (fun id l₂ h₂ => ?_) fun _ _ _ _ h => by cases h
  apply Tells.announced (touches_log _ _) rfl h₂.1.1
  intro _ l₃ h₃
  -- the task is about the record that has been created
  rintro _ ⟨⟩ task htask
  obtain rfl := List.mem_singleton.1 htask
  obtain ⟨row, hrow, hline⟩ := h₂.2 id rfl
  exact ⟨row, h₃.2 hrow, hline⟩

theorem tells_retryCall (requestId : String) (body : RetryRequest)
    (hl : Service.Justified op.Allows l) :
    Tells o yields op Announced (retryCall requestId body) l := by
  apply Tells.announced (touches_getCallRecord requestId) rfl hl
  intro record l₁ h₁
  cases record with
  | none =>
    intro _ h
    cases h
  | some record =>
    apply Tells.announced (touches_nothing_raiseUnless _ _) rfl h₁.1
    intro _ l₂ h₂
    apply Tells.announced (touches_nothing_raiseUnless _ _) rfl h₂.1
    intro _ l₃ h₃
    apply Tells.announced (touches_checkLimits _) rfl h₃.1
    intro _ l₄ h₄
    refine (tells_createCallRecord _ _ _ _ h₄.1).bind (fun id l₅ h₅ => ?_)
      fun _ _ _ _ h => by cases h
    apply Tells.announced (touches_incrementRetry _) rfl h₅.1.1
    intro _ l₆ h₆
    apply Tells.announced (touches_log _ _) rfl h₆.1
    intro _ l₇ h₇
    rintro _ ⟨⟩ task htask
    obtain rfl := List.mem_singleton.1 htask
    obtain ⟨row, hrow, hline⟩ := h₅.2 id rfl
    exact ⟨row, h₇.2 (h₆.2 hrow), hline⟩

theorem announced_of_tasks {answer : Answer} (h : answer.tasks = []) :
    Announced (.ok answer) l := by
  rintro _ ⟨⟩ task htask
  rw [h] at htask
  cases htask

theorem tells_getCallStatus (requestId : String) (hl : Service.Justified op.Allows l) :
    Tells o yields op Announced (getCallStatus requestId) l := by
  apply Tells.announced (touches_getCallRecord requestId) rfl hl
  intro record l₁ h₁
  cases record with
  | none =>
    intro _ h
    cases h
  | some record =>
    apply Tells.announced (touches_getEvents requestId) rfl h₁.1
    intro events l₂ _
    exact announced_of_tasks rfl

theorem tells_healthCheck (hl : Service.Justified op.Allows l) :
    Tells o yields op Announced healthCheck l := by
  apply Tells.announced touches_getAmiClient rfl hl
  intro _ l₁ h₁
  apply Tells.announced touches_isConnected rfl h₁.1
  intro _ l₂ h₂
  apply Tells.announced touches_activeCalls rfl h₂.1
  intro _ l₃ h₃
  apply Tells.announced touches_availableChannels rfl h₃.1
  intro _ l₄ _
  exact announced_of_tasks rfl

/-- The notes of every operation, and its answer. -/
theorem line_notes (op : Op) : Tells o yields op Announced (op.body o) [] := by
  have hnil := Service.Justified.nil op.Allows
  have hfinish : ∀ {p : Prog Unit}, Tells o yields op (fun _ l' => Told op [] l') p [] →
      Tells o yields op Announced (p >>= fun _ => pure .finished) [] := by
    intro p hp
    refine hp.bind (fun _ _ _ => announced_of_tasks rfl) ?_
    rintro x l' - answer ⟨⟩
  cases op with
  | execute task => exact hfinish (tells_executeCall task hnil)
  | input x =>
    cases x with
    | otpCall request => exact tells_sendOtpCall request hnil
    | retry requestId body => exact tells_retryCall requestId body hnil
    | status requestId => exact tells_getCallStatus requestId hnil
    | health => exact tells_healthCheck hnil
    | amiEvent kind message => exact hfinish (tells_dispatch kind (fun id hid => .inl hid) hnil)
    | cleanup => exact hfinish (tells_quiet touches_periodicCleanup rfl hnil)

end Noting

end OtpVoice
