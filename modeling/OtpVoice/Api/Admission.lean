import OtpVoice.Service.Footprint

/-!
# What a request does before its call is accepted

`requestNote` picks the passed quota checks, the created records and the records read. The notes of
a `POST /otp/call` are a first part of one fixed sequence (`Checked`), those of a retry the same
after the read of the parent record (`Retried`), and no other operation passes a check or creates a
record (`admission_notes`). An accepted request has made the whole sequence and schedules one task
for the record that it has created (`Op.Accepts`).
-/

set_option autoImplicit false

namespace OtpVoice

open Coroutine

/-- What is noted of a request: the record it reads, the limits it passes, the record it creates. -/
inductive RequestNote where
  | read (record : Option CallRecord)
  | hourly (t : Time)
  | number (mobile : String) (t : Time)
  | created (row : CallRecord)

/-- The note of a command with its answer. -/
def RequestNote.of (e : Env) (n : ℕ) : (c : Cmd) → Except Exc c.Resp → Option RequestNote
  | .execute (.selectCall _), .ok record => some (.read record)
  | .execute (.insertCall row), .ok _ => some (.created row)
  | .checkHourlyLimit, .ok (true, _) => some (.hourly (e.now n))
  | .checkNumberLimit mobile, .ok (true, _) => some (.number mobile (e.now n))
  | _, _ => none

/-- The note of an event. -/
def requestNote (ev : Ev) : Option RequestNote := RequestNote.of ev.env ev.index ev.cmd ev.res

/-- The notes of a request for a call to `mobile`. -/
inductive Checked (mobile : String) : List RequestNote → Prop
  | nothing : Checked mobile []
  | hourly (t : Time) : Checked mobile [.hourly t]
  | number (t t' : Time) : Checked mobile [.hourly t, .number mobile t']
  | created (t t' : Time) (row : CallRecord) (h : row.mobile = mobile) :
    Checked mobile [.hourly t, .number mobile t', .created row]

/-- The notes of a retry. -/
inductive Retried : List RequestNote → Prop
  | start : Retried []
  | missing : Retried [.read none]
  | checked (parent : CallRecord) {l : List RequestNote} (h : Checked parent.mobile l) :
    Retried (.read (some parent) :: l)
  | counted (parent : CallRecord) (t t' : Time) (row : CallRecord) (record : Option CallRecord)
    (h : row.mobile = parent.mobile) :
    Retried [.read (some parent), .hourly t, .number parent.mobile t', .created row, .read record]

/-- The notes of an operation. -/
def Op.Notes : Op → List RequestNote → Prop
  | .input (.otpCall request) => Checked request.mobile
  | .input (.retry _ _) => Retried
  | _ => fun l => ∀ x ∈ l, ∃ record, x = .read record

/-- The task for a created record. -/
def CallRecord.task (row : CallRecord) (repeatCount : ℤ) : CallTask :=
  ⟨row.requestId, row.mobile, row.code, repeatCount⟩

/-- What an accepted request has done. -/
def Op.Accepts : Op → Except Exc Answer → List RequestNote → Prop
  | .input (.otpCall request), .ok (.accepted _ tasks), l =>
    ∃ t t' row, l = [.hourly t, .number request.mobile t', .created row] ∧
      isUuid4 row.requestId = true ∧ row.code = request.code ∧
      tasks = [row.task request.repeatCount]
  | .input (.retry _ body), .ok (.accepted _ tasks), l =>
    ∃ parent t t' row record,
      l = [.read (some parent), .hourly t, .number parent.mobile t', .created row, .read record] ∧
      isUuid4 row.requestId = true ∧ row.code = body.chosenCode parent ∧
      tasks = [row.task (body.repeatCount.getD 2)]
  | _, .ok (.accepted _ _), _ => False
  | _, _, _ => True

section Noting

variable {α β : Type} {o : CallOriginator} {yields : Cmd → Bool}
variable {I : List RequestNote → Prop} {post : Except Exc α → List RequestNote → Prop}
variable {l : List RequestNote}

/-- Commands of other kinds are not noted. -/
theorem RequestNote.of_eq_none {c : Cmd} (hc : c.kind ∉ [Kind.read, .insertCall, .hourly, .number])
    (e : Env) (n : ℕ) (r : Except Exc c.Resp) : RequestNote.of e n c r = none := by
  unfold RequestNote.of
  split <;> first | rfl | exact absurd (by simp [Cmd.kind, Stmt.kind]) hc

/-- A part that makes no noted command. -/
theorem noting_unnoted {ks : List Kind} {p : Prog α} (hp : Touches ks p)
    (hks : ks.all (fun k => k ∉ [Kind.read, .insertCall, .hourly, .number]) = true) (hI : I l) :
    (otpService o yields).Noting requestNote I (fun _ l' => l' = l) p l :=
  Service.noting_of_uses hp (fun _ hc e n r =>
    RequestNote.of_eq_none (of_decide_eq_true (List.all_eq_true.1 hks _ hc)) e n r) hI

theorem noting_unnoted_bind {ks : List Kind} {p : Prog β} {g : β → Prog α} (hp : Touches ks p)
    (hks : ks.all (fun k => k ∉ [Kind.read, .insertCall, .hourly, .number]) = true) (hI : I l)
    (hok : ∀ a, (otpService o yields).Noting requestNote I post (g a) l)
    (herror : ∀ x, post (.error x) l) :
    (otpService o yields).Noting requestNote I post (p >>= g) l := by
  refine (noting_unnoted hp hks hI).bind (fun a l' hl' => ?_) fun x l' hl' => ?_
  · exact hl' ▸ hok a
  · exact hl' ▸ herror x

/-- `raise` ends the request. -/
theorem noting_raiseUnless_bind {ok : Bool} {x : Exc} {g : Unit → Prog α}
    (hok : ok = true → (otpService o yields).Noting requestNote I post (g ()) l)
    (herror : post (.error x) l) :
    (otpService o yields).Noting requestNote I post (raiseUnless ok x >>= g) l := by
  cases ok
  · exact herror
  · exact hok rfl

theorem noting_checkHourlyLimit (hl : I l) (hI : ∀ t, I (l ++ [.hourly t])) :
    (otpService o yields).Noting requestNote I
      (fun r l' => ∀ msg, r = .ok (true, msg) → ∃ t, l' = l ++ [.hourly t]) checkHourlyLimit l := by
  apply Service.noting_perform
  intro e n w
  generalize ((otpService o yields).respond e n w .checkHourlyLimit).1 = r
  -- raised, refused or passed
  rcases r with x | ⟨_ | _, msg⟩
  · exact ⟨by simpa [requestNote, RequestNote.of] using hl, fun _ h => by cases h⟩
  · exact ⟨by simpa [requestNote, RequestNote.of] using hl, fun _ h => by cases h⟩
  · exact ⟨hI (e.now n), fun _ _ => ⟨e.now n, rfl⟩⟩

theorem noting_checkNumberLimit (mobile : String) (hl : I l)
    (hI : ∀ t, I (l ++ [.number mobile t])) :
    (otpService o yields).Noting requestNote I
      (fun r l' => ∀ msg, r = .ok (true, msg) → ∃ t, l' = l ++ [.number mobile t])
      (checkNumberLimit mobile) l := by
  apply Service.noting_perform
  intro e n w
  generalize ((otpService o yields).respond e n w (.checkNumberLimit mobile)).1 = r
  rcases r with x | ⟨_ | _, msg⟩
  · exact ⟨by simpa [requestNote, RequestNote.of] using hl, fun _ h => by cases h⟩
  · exact ⟨by simpa [requestNote, RequestNote.of] using hl, fun _ h => by cases h⟩
  · exact ⟨hI (e.now n), fun _ _ => ⟨e.now n, rfl⟩⟩

theorem noting_getCallRecord (requestId : String) (hl : I l)
    (hI : ∀ record, I (l ++ [.read record])) :
    (otpService o yields).Noting requestNote I
      (fun r l' => ∀ record, r = .ok record → l' = l ++ [.read record])
      (getCallRecord requestId) l := by
  apply Service.noting_perform
  intro e n w
  generalize ((otpService o yields).respond e n w (.execute (.selectCall requestId))).1 = r
  rcases r with x | record
  · exact ⟨by simpa [requestNote, RequestNote.of] using hl, fun _ h => by cases h⟩
  · refine ⟨hI record, fun _ h => ?_⟩
    cases h
    rfl

/-- The three layers note the two passed checks. -/
theorem noting_checkLimits (mobile : String) (hI : ∀ l', Checked mobile l' → I (l ++ l')) :
    (otpService o yields).Noting requestNote I
      (fun r l' => r = .ok () → ∃ t t', l' = l ++ [.hourly t, .number mobile t'])
      (checkLimits mobile) l := by
  have hl : I l := by simpa using hI [] .nothing
  -- the capacity is only looked at, so it leaves no note
  refine noting_unnoted_bind touches_checkConcurrentCapacity (by decide) hl ?_ fun x h => by cases h
  rintro ⟨ok, msg⟩
  refine noting_raiseUnless_bind (fun _ => ?_) fun h => by cases h
  refine (noting_checkHourlyLimit hl fun t => hI _ (.hourly t)).bind ?_ fun x _ _ h => by cases h
  rintro ⟨ok, msg⟩ l₁ h₁
  refine noting_raiseUnless_bind ?_ fun h => by cases h
  rintro rfl
  obtain ⟨t, rfl⟩ := h₁ msg rfl
  refine (noting_checkNumberLimit mobile (hI _ (.hourly t)) fun t' => ?_).bind ?_
    fun x _ _ h => by cases h
  · simpa using hI _ (.number t t')
  · rintro ⟨ok, msg⟩ l₂ h₂
    cases ok with
    | false => exact fun h => by cases h
    | true =>
      obtain ⟨t', rfl⟩ := h₂ msg rfl
      exact fun _ => ⟨t, t', by simp⟩

theorem noting_createCallRecord (mobile code codeMasked : String) (parent : Option String)
    (hl : I l) (hI : ∀ row : CallRecord, row.mobile = mobile → I (l ++ [.created row])) :
    (otpService o yields).Noting requestNote I
      (fun r l' => ∀ requestId, r = .ok requestId → ∃ row : CallRecord,
        l' = l ++ [.created row] ∧ row.requestId = requestId ∧ row.mobile = mobile ∧
          row.code = code ∧ isUuid4 requestId = true)
      (createCallRecord mobile code codeMasked parent) l := by
  refine noting_unnoted_bind touches_uuid4 (by decide) hl (fun requestId => ?_)
    fun x _ h => by cases h
  refine noting_unnoted_bind touches_time (by decide) hl (fun now => ?_) fun x _ h => by cases h
  set row : CallRecord :=
    { requestId := requestId.text, mobile, code, codeMasked, parentRequestId := parent,
      createdAt := now, updatedAt := now, expiresAt := now + ttlSeconds } with hrow
  have hcreated : I (l ++ [.created row]) := hI row rfl
  -- an `INSERT` that raises leaves no record and no note
  have hinsert : (otpService o yields).Noting requestNote I
      (fun r l' => ∀ k, r = .ok k → l' = l ++ [.created row]) (execute (.insertCall row)) l := by
    apply Service.noting_perform
    intro e n w
    generalize ((otpService o yields).respond e n w (.execute (.insertCall row))).1 = r
    rcases r with x | k
    · exact ⟨by simpa [requestNote, RequestNote.of] using hl, fun _ h => by cases h⟩
    · exact ⟨hcreated, fun _ _ => rfl⟩
  refine hinsert.bind ?_ fun x _ _ _ h => by cases h
  intro k l₁ h₁
  obtain rfl := h₁ k rfl
  refine noting_unnoted_bind touches_commit (by decide) hcreated (fun _ => ?_)
    fun x _ h => by cases h
  refine noting_unnoted_bind (touches_addEvent _ _ _) (by decide) hcreated (fun _ => ?_)
    fun x _ h => by cases h
  rintro id h
  cases h
  exact ⟨row, rfl, rfl, rfl, rfl, requestId.wf⟩

theorem noting_incrementRetry (requestId : String) (hl : I l)
    (hI : ∀ record, I (l ++ [.read record])) :
    (otpService o yields).Noting requestNote I
      (fun r l' => ∀ k, r = .ok k → ∃ record, l' = l ++ [.read record])
      (incrementRetry requestId) l := by
  refine noting_unnoted_bind touches_time (by decide) hl (fun now => ?_) fun x _ h => by cases h
  refine noting_unnoted_bind (touches_countRetry now requestId) (by decide) hl (fun _ => ?_)
    fun x _ h => by cases h
  refine noting_unnoted_bind touches_commit (by decide) hl (fun _ => ?_) fun x _ h => by cases h
  refine (noting_getCallRecord requestId hl hI).bind (fun record l' hl' => ?_)
    fun x _ _ _ h => by cases h
  obtain rfl := hl' record rfl
  cases record <;> exact fun _ _ => ⟨_, rfl⟩

theorem noting_sendOtpCall (request : OTPCallRequest) :
    (otpService o yields).Noting requestNote (Checked request.mobile)
      (Op.Accepts (.input (.otpCall request))) (sendOtpCall request) [] := by
  refine (noting_checkLimits request.mobile fun l' h => h).bind (fun _ l₁ h₁ => ?_)
    fun _ _ _ => trivial
  obtain ⟨t, t', rfl⟩ := h₁ rfl
  refine (noting_createCallRecord request.mobile request.code _ none (.number t t')
    (fun row hrow => .created t t' row hrow)).bind (fun requestId l₂ h₂ => ?_) fun _ _ _ => trivial
  obtain ⟨row, rfl, rfl, hmobile, hcode, hid⟩ := h₂ requestId rfl
  refine noting_unnoted_bind (touches_log _ _) (by decide) (.created t t' row hmobile)
    (fun _ => ?_) fun _ => trivial
  refine ⟨t, t', row, rfl, hid, hcode, ?_⟩
  simp only [CallRecord.task, hmobile, hcode]

theorem noting_retryCall (requestId : String) (body : RetryRequest) :
    (otpService o yields).Noting requestNote Retried
      (Op.Accepts (.input (.retry requestId body))) (retryCall requestId body) [] := by
  -- the parent is read before any check
  have hread : ∀ record, Retried [.read record]
    | none => .missing
    | some parent => .checked parent .nothing
  refine (noting_getCallRecord requestId .start hread).bind (fun record l₁ h₁ => ?_)
    fun _ _ _ => trivial
  obtain rfl := h₁ record rfl
  cases record with
  | none => trivial
  | some parent =>
    refine noting_raiseUnless_bind (fun _ => ?_) trivial
    refine noting_raiseUnless_bind (fun _ => ?_) trivial
    refine (noting_checkLimits parent.mobile fun l' h => .checked parent h).bind
      (fun _ l₂ h₂ => ?_) fun _ _ _ => trivial
    obtain ⟨t, t', rfl⟩ := h₂ rfl
    refine (noting_createCallRecord parent.mobile (body.chosenCode parent) _ (some requestId)
      (.checked parent (.number t t'))
      (fun row hrow => .checked parent (.created t t' row hrow))).bind (fun newId l₃ h₃ => ?_)
      fun _ _ _ => trivial
    obtain ⟨row, rfl, rfl, hmobile, hcode, hid⟩ := h₃ newId rfl
    refine (noting_incrementRetry requestId (.checked parent (.created t t' row hmobile))
      (fun record => .counted parent t t' row record hmobile)).bind (fun k l₄ h₄ => ?_)
      fun _ _ _ => trivial
    obtain ⟨record, rfl⟩ := h₄ k rfl
    refine noting_unnoted_bind (touches_log _ _) (by decide)
      (.counted parent t t' row record hmobile) (fun _ => ?_) fun _ => trivial
    refine ⟨parent, t, t', row, record, rfl, hid, hcode, ?_⟩
    simp only [CallRecord.task, hmobile, hcode]

/-- A part that neither checks a quota nor creates a record. -/
theorem noting_reads {ks : List Kind} {p : Prog α} (hp : Touches ks p)
    (hks : ks.all (fun k => k ∉ [Kind.insertCall, .hourly, .number]) = true)
    (hl : ∀ x ∈ l, ∃ record, x = .read record) :
    (otpService o yields).Noting requestNote (fun l => ∀ x ∈ l, ∃ record, x = .read record)
      (fun _ l => ∀ x ∈ l, ∃ record, x = .read record) p l := by
  refine Coro.Sat.of_uses (I := fun l => ∀ x ∈ l, ∃ record, x = RequestNote.read record) ?_ hp hl
  rintro l c r _ hc hl ⟨e, n, w, hr, rfl⟩
  have hc' := of_decide_eq_true (List.all_eq_true.1 hks _ hc)
  apply (and_self_iff).2
  intro x hx
  rcases List.mem_append.1 hx with hx | hx
  · exact hl x hx
  · simp only [requestNote, RequestNote.of, Option.mem_toList] at hx
    split at hx <;> cases hx
    · exact ⟨_, rfl⟩
    all_goals exact absurd (by simp [Cmd.kind, Stmt.kind]) hc'

/-- Such a part before an answer that accepts nothing. -/
theorem noting_finished {ks : List Kind} {p : Prog α} (op : Op) (answer : α → Answer)
    (hp : Touches ks p) (hks : ks.all (fun k => k ∉ [Kind.insertCall, .hourly, .number]) = true)
    (hl : ∀ x ∈ l, ∃ record, x = .read record)
    (hanswer : ∀ a l, op.Accepts (.ok (answer a)) l) (herror : ∀ x l, op.Accepts (.error x) l) :
    (otpService o yields).Noting requestNote (fun l => ∀ x ∈ l, ∃ record, x = .read record)
      op.Accepts (p >>= fun a => pure (answer a)) l :=
  (noting_reads hp hks hl).bind (fun a l' _ => hanswer a l') fun x l' _ => herror x l'

theorem noting_getCallStatus (requestId : String) :
    (otpService o yields).Noting requestNote (fun l => ∀ x ∈ l, ∃ record, x = .read record)
      (Op.Accepts (.input (.status requestId))) (getCallStatus requestId) [] := by
  refine (noting_reads (l := []) (touches_getCallRecord requestId) (by decide) (by simp)).bind
    (fun record l hl => ?_) fun x l _ => trivial
  cases record with
  | none => trivial
  | some record =>
    exact noting_finished (.input (.status requestId))
      (fun events => .status (buildStatusResponse record events))
      (touches_getEvents requestId) (by decide) hl (fun _ _ => trivial) fun _ _ => trivial

theorem noting_healthCheck :
    (otpService o yields).Noting requestNote (fun l => ∀ x ∈ l, ∃ record, x = .read record)
      (Op.Accepts (.input .health)) healthCheck [] := by
  refine (noting_reads (l := []) touches_getAmiClient (by decide) (by simp)).bind
    (fun _ l hl => ?_) fun x l _ => trivial
  refine (noting_reads touches_isConnected (by decide) hl).bind
    (fun connected l hl => ?_) fun x l _ => trivial
  refine (noting_reads touches_activeCalls (by decide) hl).bind
    (fun active l hl => ?_) fun x l _ => trivial
  exact (noting_reads touches_availableChannels (by decide) hl).bind
    (fun available l hl => trivial) fun x l _ => trivial

/-- The notes of every operation, and what an accepted request has done. -/
theorem admission_notes (op : Op) :
    (otpService o yields).Noting requestNote op.Notes op.Accepts (op.body o) [] := by
  have hnil : ∀ x ∈ ([] : List RequestNote), ∃ record, x = .read record := by simp
  cases op with
  | execute task =>
    exact noting_finished (.execute task) (fun _ => .finished)
      (touches_executeCall o task) (by decide) hnil (fun _ _ => trivial) fun _ _ => trivial
  | input x =>
    cases x with
    | otpCall request => exact noting_sendOtpCall request
    | retry requestId body => exact noting_retryCall requestId body
    | status requestId => exact noting_getCallStatus requestId
    | health => exact noting_healthCheck
    | amiEvent kind message =>
      exact noting_finished (.input (.amiEvent kind message)) (fun _ => .finished)
        (touches_dispatch kind message) (by decide) hnil (fun _ _ => trivial) fun _ _ => trivial
    | cleanup =>
      exact noting_finished (.input .cleanup) (fun _ => .finished)
        touches_periodicCleanup (by decide) hnil (fun _ _ => trivial) fun _ _ => trivial

/-- Only a request for a call schedules a task, and only one, after one record has been created. -/
theorem Op.Accepts.tasks {op : Op} {answer : Answer} {l : List RequestNote}
    (h : op.Accepts (.ok answer) l) : answer.tasks = [] ∨ ∃ x task t mobile t' row,
      op = .input x ∧ x.passive = false ∧ answer.tasks = [task] ∧
      (l = [.hourly t, .number mobile t', .created row] ∨ ∃ parent record,
        l = [.read parent, .hourly t, .number mobile t', .created row, .read record]) := by
  cases answer with
  | accepted response tasks =>
    cases op with
    | execute task => exact h.elim
    | input x =>
      cases x with
      | otpCall request =>
        obtain ⟨t, t', row, hl, -, -, rfl⟩ := h
        exact .inr ⟨_, _, t, _, t', row, rfl, rfl, rfl, .inl hl⟩
      | retry requestId body =>
        obtain ⟨parent, t, t', row, record, hl, -, -, rfl⟩ := h
        exact .inr ⟨_, _, t, _, t', row, rfl, rfl, rfl, .inr ⟨_, _, hl⟩⟩
      | _ => exact h.elim
  | _ => exact .inl rfl

theorem Op.notes_nil (op : Op) : op.Notes [] := by
  cases op with
  | execute task => exact fun x hx => by cases hx
  | input x =>
    cases x with
    | otpCall request => exact .nothing
    | retry requestId body => exact .start
    | _ => exact fun x hx => by cases hx

end Noting

end OtpVoice
