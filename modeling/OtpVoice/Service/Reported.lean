import OtpVoice.Service.Placed
import OtpVoice.Service.SqlService
import OtpVoice.Service.Timeline

/-!
# Statuses and the timeline

A coroutine that writes a status also writes a line that reports it: the handlers of
`OriginateResponse` and `Hangup` before the update, the other handlers and `_execute_call` after it,
so that an exception in between leaves a status without its line. `Backed D l` says that at most
the updates in `D` are not yet reported. Once the coroutines that have updated a record have
returned, its timeline reports its status (`status_is_reported`).
-/

set_option autoImplicit false

namespace OtpVoice

open Coroutine

/-- The lines that report a status. -/
def Status.reports : Status → List EventName
  | .queued => [.queued]
  | .originating => [.originating]
  | .ringing => [.ringing]
  | .answered => [.answered, .dialplanStart, .originateResponse]
  | .playing => [.playing]
  | .completed => [.playbackComplete, .hangup]
  | .noAnswer | .busy | .congestion => [.hangup, .originateResponse]
  | .failed => [.failed, .hangup, .originateResponse]
  | .unreachable | .rejected => [.hangup]
  | .cancelled => []

theorem queued_of_reports {status : Status} (h : .queued ∈ status.reports) : status = .queued := by
  cases status <;> first
    | rfl
    | exact absurd h (by decide)

/-- What a coroutine has read of a record, written to it or to its timeline, or handed over. -/
inductive StatusNote where
  | read (requestId : String) (record : Option CallRecord)
  | updated (requestId : String) (status : Status)
  | line (requestId : String) (event : EventName)
  | submitted

/-- The note of a command with its answer. -/
def StatusNote.of : (c : Cmd) → Except Exc c.Resp → Option StatusNote
  | .submitAction _, _ => some .submitted
  | _, .error _ => none
  | .execute (.selectCall requestId), .ok record => some (.read requestId record)
  | .execute (.updateCall _ (.status status :: _) requestId), .ok _ =>
    some (.updated requestId status)
  | .execute (.insertEvent row), .ok _ => some (.line row.requestId row.event)
  | _, _ => none

/-- The note of an event. -/
def statusNote (ev : Ev) : Option StatusNote := StatusNote.of ev.cmd ev.res

/-- No update has set a record back to `queued`. -/
def LeavesQueue (l : List StatusNote) : Prop :=
  ∀ requestId status, .updated requestId status ∈ l → status ≠ .queued

/-- Every update is reported by a line, or is one of those in `D`. -/
def Backed (D : Set (String × Status)) (l : List StatusNote) : Prop :=
  LeavesQueue l ∧ ∀ requestId status, .updated requestId status ∈ l →
    (requestId, status) ∈ D ∨ ∃ event ∈ status.reports, .line requestId event ∈ l

/-- The notes after a part of a coroutine are backed, and keep those before it. -/
def BackedFrom (D : Set (String × Status)) (l l' : List StatusNote) : Prop := l ⊆ l' ∧ Backed D l'

section Backed

variable {D D' : Set (String × Status)} {l l' l'' : List StatusNote} {requestId : String}
  {status : Status}

theorem backed_nil : Backed D [] :=
  ⟨fun _ _ h => absurd h List.not_mem_nil, fun _ _ h => absurd h List.not_mem_nil⟩

theorem Backed.mono (h : Backed D l) (hD : D ⊆ D') : Backed D' l :=
  ⟨h.1, fun requestId status hy => (h.2 requestId status hy).imp_left fun hmem => hD hmem⟩

theorem BackedFrom.refl (h : Backed D l) : BackedFrom D l l := ⟨List.Subset.refl l, h⟩

theorem BackedFrom.trans (h : l ⊆ l') (h' : BackedFrom D l' l'') : BackedFrom D l l'' :=
  ⟨List.Subset.trans h h'.1, h'.2⟩

/-- One more note. -/
theorem Backed.concat (h : Backed D l) {y : StatusNote}
    (hy : ∀ requestId status, y = .updated requestId status →
      status ≠ .queued ∧ (requestId, status) ∈ D) : Backed D (l ++ [y]) := by
  constructor
  · intro requestId status hmem
    rcases List.mem_append.1 hmem with hmem | hmem
    · exact h.1 _ _ hmem
    · exact (hy _ _ (List.mem_singleton.1 hmem).symm).1
  · intro requestId status hmem
    rcases List.mem_append.1 hmem with hmem | hmem
    · exact (h.2 _ _ hmem).imp_right fun ⟨event, hevent, hline⟩ =>
        ⟨event, hevent, List.mem_append_left _ hline⟩
    · exact .inl (hy _ _ (List.mem_singleton.1 hmem).symm).2

/-- A line that reports an update pays for it. -/
theorem Backed.pay (h : Backed (insert (requestId, status) D) l) {event : EventName}
    (hevent : event ∈ status.reports) (hline : .line requestId event ∈ l) : Backed D l := by
  refine ⟨h.1, fun key new hy => ?_⟩
  rcases h.2 key new hy with hmem | hreported
  · rcases Set.mem_insert_iff.1 hmem with heq | hmem
    · cases heq
      exact .inr ⟨event, hevent, hline⟩
    · exact .inl hmem
  · exact .inr hreported

end Backed

section Coroutines

variable {α β : Type} {o : CallOriginator} {yields : Cmd → Bool} {D : Set (String × Status)}
  {l : List StatusNote}

/-- A part of a coroutine, with the updates that it leaves unreported at most. -/
abbrev Backs (o : CallOriginator) (yields : Cmd → Bool)
    (post : Except Exc α → List StatusNote → Prop) (p : Prog α) (l : List StatusNote) : Prop :=
  (otpService o yields).Noting statusNote LeavesQueue post p l

/-- A part that updates no record. -/
theorem backs_quiet {ks : List Kind} {p : Prog α} (hp : Touches ks p)
    (hks : ks.elem .updateCall = false) (hl : Backed D l) :
    Backs o yields (fun _ l' => BackedFrom D l l') p l := by
  refine Coro.Sat.of_uses (I := fun l' => BackedFrom D l l') ?_ hp (.refl hl)
  rintro l₁ c r _ hc h₁ ⟨e, n, w, -, rfl⟩
  have hkind : c.kind ≠ .updateCall := by
    intro h
    rw [List.elem_iff.2 (h ▸ hc)] at hks
    cases hks
  have hnote : ∀ requestId status, StatusNote.of c r ≠ some (.updated requestId status) := by
    intro requestId status hy
    unfold StatusNote.of at hy
    split at hy <;> cases hy
    exact hkind rfl
  have h₂ : BackedFrom D l (Service.note statusNote l₁ ⟨e, n, c, r⟩) := by
    simp only [Service.note, statusNote]
    cases hy : StatusNote.of c r with
    | none => simpa using h₁
    | some y =>
      refine ⟨List.Subset.trans h₁.1 (List.subset_append_left _ _), h₁.2.concat ?_⟩
      rintro requestId status rfl
      exact absurd hy (hnote requestId status)
  exact ⟨h₂.2.1, h₂⟩

/-- Two parts after each other. -/
theorem Backs.then {p : Prog β} {f : β → Prog α}
    (hp : Backs o yields (fun _ l' => BackedFrom D l l') p l)
    (hf : ∀ a l', BackedFrom D l l' →
      Backs o yields (fun _ l'' => BackedFrom D l' l'') (f a) l') :
    Backs o yields (fun _ l' => BackedFrom D l l') (p >>= f) l := by
  refine hp.bind (fun a l' hl' => ?_) fun _ _ h => h
  exact (hf a l' hl').mono fun _ _ h => .trans hl'.1 h

/-- A part that updates no record, and what comes after it. -/
theorem backs_after_quiet {Q : Except Exc α → List StatusNote → Prop} {l₀ : List StatusNote}
    {ks : List Kind} {p : Prog β} {f : β → Prog α} (hp : Touches ks p)
    (hks : ks.elem .updateCall = false) (hl : BackedFrom D l₀ l)
    (herror : ∀ x l', BackedFrom D l₀ l' → Q (.error x) l')
    (hf : ∀ a l', BackedFrom D l₀ l' → l ⊆ l' → Backs o yields Q (f a) l') :
    Backs o yields Q (p >>= f) l := by
  refine (backs_quiet hp hks hl.2).bind (fun a l' h => ?_) fun x l' h => ?_
  · exact hf a l' (.trans hl.1 h) h.1
  · exact herror x l' (.trans hl.1 h)

theorem backs_pure (a : α) (hl : Backed D l) :
    Backs o yields (fun _ l' => BackedFrom D l l') (pure a) l := .refl hl

/-- One statement, and the note that it leaves when it returns. -/
theorem backs_execute {s : Stmt} (y : s.Result → StatusNote)
    (hnote : ∀ a, StatusNote.of (.execute s) (.ok a) = some (y a))
    (hy : ∀ a requestId status, y a = .updated requestId status →
      status ≠ .queued ∧ (requestId, status) ∈ D) (hl : Backed D l) :
    Backs o yields (fun r l' => BackedFrom D l l' ∧ ∀ a, r = .ok a → y a ∈ l') (execute s) l := by
  apply Service.noting_perform
  intro e n w
  cases hr : ((otpService o yields).respond e n w (.execute s)).1 with
  | error x =>
    have hnone : statusNote ⟨e, n, .execute s, .error x⟩ = none := by
      cases s <;> rfl
    rw [hnone, Option.toList_none, List.append_nil]
    exact ⟨hl.1, .refl hl, fun _ h => by cases h⟩
  | ok a =>
    have hsome : statusNote ⟨e, n, .execute s, .ok a⟩ = some (y a) := hnote a
    have hnew : Backed D (l ++ [y a]) := hl.concat (hy a)
    rw [hsome, Option.toList_some]
    refine ⟨hnew.1, ⟨List.subset_append_left _ _, hnew⟩, ?_⟩
    rintro _ ⟨⟩
    exact List.mem_append_right _ (List.mem_singleton_self _)

/-- What `update_call_status` has found or done when it has returned. -/
def Moves (requestId : String) (status : Status) (l : List StatusNote) : Prop :=
  .read requestId none ∈ l ∨ (∃ row, row.status.terminal = true ∧ .read requestId (some row) ∈ l) ∨
    .updated requestId status ∈ l

theorem Moves.mono {requestId : String} {status : Status} {l' : List StatusNote}
    (h : Moves requestId status l) (hsub : l ⊆ l') : Moves requestId status l' := by
  rcases h with hnone | ⟨row, hrow, hread⟩ | hupdated
  · exact .inl (hsub hnone)
  · exact .inr (.inl ⟨row, hrow, hsub hread⟩)
  · exact .inr (.inr (hsub hupdated))

theorem backs_updateCallStatus (requestId : String) {status : Status} (u : StatusFields)
    (hstatus : status ≠ .queued) (hl : Backed D l) :
    Backs o yields (fun r l' => BackedFrom (insert (requestId, status) D) l l' ∧
      (r.isOk = true → Moves requestId status l')) (updateCallStatus requestId status u) l := by
  have hl' : Backed (insert (requestId, status) D) l := hl.mono (Set.subset_insert _ _)
  have hread : Backs o yields (fun r l' => BackedFrom (insert (requestId, status) D) l l' ∧
      ∀ record, r = .ok record → .read requestId record ∈ l') (getCallRecord requestId) l :=
    backs_execute (s := .selectCall requestId) (.read requestId) (fun _ => rfl)
      (fun _ _ _ h => by cases h) hl'
  refine hread.bind (fun record l₁ h₁ => ?_) fun _ _ h₁ => ⟨h₁.1, fun h => by cases h⟩
  obtain ⟨hfrom, hrecord⟩ := h₁
  replace hrecord := hrecord record rfl
  cases record with
  | none => exact ⟨hfrom, fun _ => .inl hrecord⟩
  | some row =>
    dsimp only
    split
    · rename_i hback
      have hterminal : row.status.terminal = true := (Bool.and_eq_true_iff.1 hback).1
      exact ⟨hfrom, fun _ => .inr (.inl ⟨row, hterminal, hrecord⟩)⟩
    · refine backs_after_quiet touches_time rfl hfrom (fun _ _ h => ⟨h, fun h => by cases h⟩)
        fun now l₂ h₂ _ => ?_
      have hupdate : Backs o yields (fun r l' =>
          BackedFrom (insert (requestId, status) D) l₂ l' ∧
            ∀ k, r = .ok k → .updated requestId status ∈ l')
          (execute (.updateCall (updateFields u) (updateValues status now u) requestId)) l₂ := by
        refine backs_execute (s := .updateCall _ _ _) (fun _ => .updated requestId status)
          (fun _ => rfl) ?_ h₂.2
        rintro _ _ _ ⟨⟩
        exact ⟨hstatus, Set.mem_insert _ _⟩
      refine hupdate.bind (fun k l₃ h₃ => ?_)
        fun _ _ h₃ => ⟨.trans h₂.1 h₃.1, fun h => by cases h⟩
      refine backs_after_quiet touches_commit rfl (.trans h₂.1 h₃.1)
        (fun _ _ h => ⟨h, fun h => by cases h⟩) fun _ l₄ h₄ hsub => ?_
      exact ⟨h₄, fun _ => .inr (.inr (hsub (h₃.2 k rfl)))⟩

theorem backs_addEvent (requestId : String) (event : EventName) (detail : Option String)
    (hl : Backed D l) :
    Backs o yields (fun r l' => BackedFrom D l l' ∧ (r.isOk = true → .line requestId event ∈ l'))
      (addEvent requestId event detail) l := by
  refine backs_after_quiet touches_time rfl (.refl hl) (fun _ _ h => ⟨h, fun h => by cases h⟩)
    fun now l₁ h₁ _ => ?_
  have hinsert : Backs o yields (fun r l' => BackedFrom D l₁ l' ∧
      ∀ k, r = .ok k → .line requestId event ∈ l')
      (execute (.insertEvent ⟨requestId, event, detail, now⟩)) l₁ :=
    backs_execute (s := .insertEvent _) (fun _ => .line requestId event) (fun _ => rfl)
      (fun _ _ _ h => by cases h) h₁.2
  refine hinsert.bind (fun k l₂ h₂ => ?_) fun _ _ h₂ => ⟨.trans h₁.1 h₂.1, fun h => by cases h⟩
  have hto₂ := BackedFrom.trans h₁.1 h₂.1
  refine (backs_quiet touches_commit rfl hto₂.2).mono fun _ l₃ h₃ => ?_
  exact ⟨.trans hto₂.1 h₃, fun _ => h₃.1 (h₂.2 k rfl)⟩

/-- An update and the line that reports it: after an exception the update may be without it. -/
theorem backs_update_line (requestId : String) {status : Status} (u : StatusFields)
    {event : EventName} (detail : Option String) (hstatus : status ≠ .queued)
    (hevent : event ∈ status.reports) (hl : Backed D l) :
    Backs o yields (fun r l' => BackedFrom (insert (requestId, status) D) l l' ∧
      (r.isOk = true → Backed D l' ∧ Moves requestId status l' ∧ .line requestId event ∈ l'))
      (updateCallStatus requestId status u >>= fun _ => addEvent requestId event detail) l := by
  refine (backs_updateCallStatus requestId u hstatus hl).bind (fun _ l₁ h₁ => ?_)
    fun _ _ h₁ => ⟨h₁.1, fun h => by cases h⟩
  refine (backs_addEvent requestId event detail h₁.1.2).mono fun r l₂ h₂ => ?_
  refine ⟨.trans h₁.1.1 h₂.1, fun hok => ?_⟩
  exact ⟨h₂.1.2.pay hevent (h₂.2 hok), (h₁.2 rfl).mono h₂.1.1, h₂.2 hok⟩

/-! ## The handlers -/

theorem originateFailure_reports {message : Message} {status : Status}
    (h : originateFailure message = some status) :
    status ≠ .queued ∧ .originateResponse ∈ status.reports := by
  have hall : ∀ x ∈ reasonToStatus, x.2 ≠ .queued ∧ .originateResponse ∈ x.2.reports := by decide
  simp only [originateFailure] at h
  split at h
  · cases h
    cases hlookup : reasonToStatus.lookup ((message.get .reason).getD "") with
    | none => decide
    | some status => exact hall _ (mem_of_lookup hlookup)
  · cases h

theorem hangupStatus_reports (cause : ℤ) (status : Status) :
    hangupStatus cause status ≠ .queued ∧ .hangup ∈ (hangupStatus cause status).reports := by
  have hall : ∀ x ∈ causeToStatus, x.2 ≠ .queued ∧ .hangup ∈ x.2.reports := by decide
  simp only [hangupStatus]
  split
  · rename_i new hlookup
    exact hall _ (mem_of_lookup hlookup)
  · split <;> decide

/-- A line that comes before the update which it reports. -/
theorem backs_line_update (requestId : String) {event : EventName} {status : Status}
    (u : StatusFields) (hstatus : status ≠ .queued) (hevent : event ∈ status.reports)
    (hl : Backed D l) (hline : .line requestId event ∈ l) :
    Backs o yields (fun _ l' => BackedFrom D l l') (updateCallStatus requestId status u) l := by
  refine (backs_updateCallStatus requestId u hstatus hl).mono fun r l' h => ⟨h.1.1, ?_⟩
  exact h.1.2.pay hevent (h.1.1 hline)

theorem backs_onOriginateResponse (message : Message) (hl : Backed D l) :
    Backs o yields (fun _ l' => BackedFrom D l l') (onOriginateResponse message) l := by
  simp only [onOriginateResponse]
  split
  · exact backs_pure _ hl
  · rename_i requestId _
    refine (backs_addEvent requestId .originateResponse _ hl).bind (fun _ l₁ h₁ => ?_)
      fun _ _ h₁ => h₁.1
    split
    · rename_i status hstatus
      obtain ⟨hqueued, hreports⟩ := originateFailure_reports hstatus
      refine (backs_line_update requestId _ hqueued hreports h₁.1.2 (h₁.2 rfl)).bind
        (fun _ l₂ h₂ => ?_) fun _ _ h₂ => .trans h₁.1.1 h₂
      exact .trans h₁.1.1 h₂
    · exact h₁.1

theorem backs_onHangup (message : Message) (hl : Backed D l) :
    Backs o yields (fun _ l' => BackedFrom D l l') (onHangup message) l := by
  simp only [onHangup]
  split
  · exact backs_pure _ hl
  · rename_i channel _
    apply (backs_quiet (touches_getCallByChannel channel) rfl hl).then
    intro record l₁ h₁
    cases record with
    | none => exact backs_pure _ h₁.2
    | some row =>
      refine (backs_addEvent row.requestId .hangup _ h₁.2).bind (fun _ l₂ h₂ => ?_)
        fun _ _ h₂ => h₂.1
      split
      · exact h₂.1
      · obtain ⟨hqueued, hreports⟩ := hangupStatus_reports (causeInt message) row.status
        refine (backs_line_update row.requestId _ hqueued hreports h₂.1.2 (h₂.2 rfl)).bind
          (fun _ l₃ h₃ => ?_) fun _ _ h₃ => .trans h₂.1.1 h₃
        exact .trans h₂.1.1 h₃

/-- A handler that writes its line last has reported its update when it returns. -/
theorem backs_onNewState (message : Message) (hl : Backed D l) :
    Backs o yields (fun r l' => r.isOk = true → Backed D l') (onNewState message) l := by
  simp only [onNewState]
  split
  · exact fun _ => hl
  · rename_i channel _
    refine (backs_quiet (touches_getCallByChannel channel) rfl hl).bind (fun record l₁ h₁ => ?_)
      fun _ _ _ h => by cases h
    cases record with
    | none => exact fun _ => h₁.2
    | some row =>
      dsimp only
      split
      · exact fun _ => h₁.2
      · rename_i status event hstate
        have hreports : status ≠ .queued ∧ event ∈ status.reports := by
          rcases stateStatus_cases hstate with heq | heq <;> cases heq <;> decide
        exact (backs_update_line row.requestId {} _ hreports.1 hreports.2 h₁.2).mono
          fun _ _ h hok => (h.2 hok).1

theorem backs_onUserEvent (message : Message) (hl : Backed D l) :
    Backs o yields (fun r l' => r.isOk = true → Backed D l') (onUserEvent message) l := by
  have hline (requestId : String) (status : Status) (u : StatusFields) (event : EventName)
      (detail : Option String) (hstatus : status ≠ .queued) (hevent : event ∈ status.reports) :
      Backs o yields (fun r l' => r.isOk = true → Backed D l')
        (updateCallStatus requestId status u >>= fun _ => addEvent requestId event detail) l :=
    (backs_update_line requestId u detail hstatus hevent hl).mono fun _ _ h hok => (h.2 hok).1
  simp only [onUserEvent]
  split
  · exact fun _ => hl
  · rename_i requestId _
    split
    · split
      · exact hline _ _ _ _ _ (by decide) (by decide)
      · exact (backs_addEvent requestId _ _ hl).mono fun _ _ h _ => h.1.2
    · exact hline _ _ _ _ _ (by decide) (by decide)
    · exact hline _ _ _ _ _ (by decide) (by decide)
    · exact fun _ => hl

theorem backs_dispatch (kind : EventKind) (message : Message) (hl : Backed D l) :
    Backs o yields (fun r l' => r.isOk = true → Backed D l') (dispatch kind message) l := by
  cases kind with
  | originateResponse => exact (backs_onOriginateResponse message hl).mono fun _ _ h _ => h.2
  | newchannel => exact fun _ => hl
  | newstate => exact backs_onNewState message hl
  | hangup => exact (backs_onHangup message hl).mono fun _ _ h _ => h.2
  | userEvent => exact backs_onUserEvent message hl

/-! ## Background tasks -/

theorem backs_forward (messages : List (Option Message)) (hl : Backed D l) :
    Backs o yields (fun _ l' => BackedFrom D l l') (CallOriginator.forward messages) l := by
  induction messages generalizing l with
  | nil => exact backs_pure _ hl
  | cons message rest ih =>
    cases message with
    | none => exact ih hl
    | some message =>
      simp only [CallOriginator.forward]
      split
      · -- a message that raises is logged, and the loop goes on
        refine Backs.then ?_ fun _ l₁ h₁ => ih h₁.2
        refine Service.Noting.tryCatch (Q := fun _ l' => BackedFrom D l l') ?_ (fun _ _ h₁ => h₁) ?_
        · have hready : Touches [.handler] hasEventHandler := touches_issue rfl
          apply (backs_quiet hready rfl hl).then
          intro ready l₁ h₁
          split
          · exact backs_onOriginateResponse message h₁.2
          · exact backs_pure _ h₁.2
        · intro x l₁ h₁
          exact (backs_quiet (touches_log _ _) rfl h₁.2).mono fun _ _ h₂ => .trans h₁.1 h₂
      · exact ih hl

theorem backs_judge (mobile : String) (messages : List (Option Message)) (hl : Backed D l) :
    Backs o yields (fun _ l' => BackedFrom D l l') (CallOriginator.judge mobile messages) l := by
  cases messages with
  | nil => exact backs_pure _ hl
  | cons ack later =>
    simp only [CallOriginator.judge]
    split
    · exact (backs_forward later hl).then fun _ l₁ h₁ => backs_pure _ h₁.2
    · exact (backs_quiet (touches_log _ _) rfl hl).then fun _ l₁ h₁ => backs_pure _ h₁.2

/-- A reply comes only after the action has been handed over. -/
theorem backs_sendAction (action : Action) (hl : Backed D l) :
    Backs o yields (fun r l' => BackedFrom D l l' ∧ (r.isOk = true → .submitted ∈ l'))
      (sendAction action) l := by
  have herror : ∀ (x : Exc) l', BackedFrom D l l' →
      BackedFrom D l l' ∧ ((.error x : Except Exc Reply).isOk = true → .submitted ∈ l') :=
    fun _ _ h => ⟨h, fun h => by cases h⟩
  refine backs_after_quiet touches_isConnected rfl (.refl hl) herror fun connected l₁ h₁ _ => ?_
  refine backs_after_quiet (touches_nothing_raiseUnless _ _) rfl h₁ herror fun _ l₂ h₂ _ => ?_
  refine Service.Noting.tryCatch
    (Q := fun r l' => BackedFrom D l l' ∧ (r.isOk = true → .submitted ∈ l')) ?_ (fun _ _ h => h)
    fun x l₃ h₃ => ?_
  · have hsubmit : Backs o yields (fun _ l' => BackedFrom D l₂ l' ∧ .submitted ∈ l')
        (submitAction action) l₂ := by
      apply Service.noting_perform
      intro e n w
      have hnew : Backed D (l₂ ++ [.submitted]) := h₂.2.concat fun _ _ h => by cases h
      exact ⟨hnew.1, ⟨List.subset_append_left _ _, hnew⟩,
        List.mem_append_right _ (List.mem_singleton_self _)⟩
    refine hsubmit.bind (fun _ l₃ h₃ => ?_) fun _ _ h₃ => herror _ _ (.trans h₂.1 h₃.1)
    have hto₃ := BackedFrom.trans h₂.1 h₃.1
    exact (backs_quiet touches_awaitReply rfl hto₃.2).mono fun _ l₄ h₄ =>
      ⟨.trans hto₃.1 h₄, fun _ => h₄.1 h₃.2⟩
  · split
    · exact ⟨h₃.1, fun h => by cases h⟩
    · exact backs_after_quiet (touches_log _ _) rfl h₃.1 herror fun _ _ h₄ _ => herror _ _ h₄

/-- An action that counts as accepted has been handed over. -/
theorem backs_originate (requestId mobile code : String) (repeatCount timeout : ℤ)
    (hl : Backed D l) :
    Backs o yields (fun r l' => BackedFrom D l l' ∧
      ∀ error, r = .ok (true, error) → .submitted ∈ l')
      (o.originate requestId mobile code repeatCount timeout) l := by
  have herror : ∀ (x : Exc) l', BackedFrom D l l' → BackedFrom D l l' ∧
      ∀ error, (.error x : Except Exc (Bool × Option String)) = .ok (true, error) →
        .submitted ∈ l' :=
    fun _ _ h => ⟨h, fun _ h => by cases h⟩
  have hrefused : ∀ level line l₁ (text : Option String), BackedFrom D l l₁ →
      Backs o yields (fun r l' => BackedFrom D l l' ∧
        ∀ error, r = .ok (true, error) → .submitted ∈ l')
        (log level line >>= fun _ => pure (false, text)) l₁ := by
    intro level line l₁ text h₁
    refine backs_after_quiet (touches_log _ _) rfl h₁ herror fun _ l₂ h₂ _ => ?_
    exact ⟨h₂, fun _ h => by cases h⟩
  refine backs_after_quiet (touches_log _ _) rfl (.refl hl) herror fun _ l₁ h₁ _ => ?_
  refine backs_after_quiet touches_getAmiClient rfl h₁ herror fun _ l₂ h₂ _ => ?_
  refine backs_after_quiet touches_isConnected rfl h₂ herror fun connected l₃ h₃ _ => ?_
  split
  · have hsend : Backs o yields (fun r l' => BackedFrom D l l' ∧
        ∀ reply, r = .ok (.ok reply) → .submitted ∈ l')
        (attempt (sendAction (o.action requestId (sanitizeAmiValue mobile) (sanitizeAmiValue code)
          (CallOriginator.clampRepeat repeatCount) timeout))) l₃ := by
      refine Service.Noting.tryCatch (Q := fun r l' => BackedFrom D l l' ∧
        ∀ reply, r = .ok (.ok reply) → .submitted ∈ l') ?_ (fun _ _ h => h)
        fun x _ h => ⟨h.1, fun _ h => by cases h⟩
      refine (backs_sendAction _ h₃.2).bind (fun reply l₄ h₄ => ?_)
        fun _ _ h₄ => ⟨.trans h₃.1 h₄.1, fun _ h => by cases h⟩
      exact ⟨.trans h₃.1 h₄.1, fun _ _ => h₄.2 rfl⟩
    refine hsend.bind (fun result l₄ h₄ => ?_) fun _ _ h => ⟨h.1, fun _ h => by cases h⟩
    cases result with
    | ok reply =>
      refine (backs_judge _ _ h₄.1.2).mono fun r l₅ h₅ => ?_
      exact ⟨.trans h₄.1.1 h₅, fun _ _ => h₅.1 (h₄.2 reply rfl)⟩
    | error x => cases x <;> exact hrefused _ _ _ _ h₄.1
  · exact ⟨h₃, fun _ h => by cases h⟩

/-- The parts of the notes of a task that has returned. -/
structure Attempted (requestId : String) (l : List StatusNote) : Prop where
  backed : Backed ∅ l
  moves : Moves requestId .originating l
  line : .line requestId .originating ∈ l
  /-- The action has been handed over, or the call is reported as failed. -/
  outcome : .submitted ∈ l ∨ .line requestId .failed ∈ l

theorem backs_executePrologue (task : CallTask) :
    Backs o yields (fun r l' => r.isOk = true → Backed ∅ l' ∧
      Moves task.requestId .originating l' ∧ .line task.requestId .originating ∈ l')
      (executePrologue task) [] := by
  have hnil : Backed (∅ : Set (String × Status)) [] := backed_nil
  refine (backs_quiet touches_acquireSlot rfl hnil).bind (fun _ l₁ h₁ => ?_)
    fun _ _ _ h => by cases h
  exact (backs_update_line task.requestId {} none (by decide) (by decide) h₁.2).mono
    fun _ _ h hok => h.2 hok

/-- The update to `failed` may be without its line only when the `except` takes over. -/
theorem backs_executeBody (task : CallTask) (hl : Backed ∅ l) :
    Backs o yields (fun r l' => BackedFrom (insert (task.requestId, .failed) ∅) l l' ∧
      (r.isOk = true → Backed ∅ l' ∧ (.submitted ∈ l' ∨ .line task.requestId .failed ∈ l')))
      (executeBody o task) l := by
  have hdebt {l' : List StatusNote} (h : BackedFrom ∅ l l') :
      BackedFrom (insert (task.requestId, .failed) ∅) l l' :=
    ⟨h.1, h.2.mono (Set.subset_insert _ _)⟩
  refine (backs_originate _ _ _ _ _ hl).bind (fun result l₁ h₁ => ?_)
    fun _ _ h₁ => ⟨hdebt h₁.1, fun h => by cases h⟩
  obtain ⟨accepted, error⟩ := result
  dsimp only
  split
  · rename_i haccepted
    subst haccepted
    exact ⟨hdebt h₁.1, fun _ => ⟨h₁.1.2, .inl (h₁.2 error rfl)⟩⟩
  · refine (backs_updateCallStatus task.requestId _ (by decide) h₁.1.2).bind (fun _ l₂ h₂ => ?_)
      fun _ _ h₂ => ⟨.trans h₁.1.1 h₂.1, fun h => by cases h⟩
    have hto₂ := BackedFrom.trans h₁.1.1 h₂.1
    refine (backs_addEvent task.requestId .failed _ hto₂.2).bind (fun _ l₃ h₃ => ?_)
      fun _ _ h₃ => ⟨.trans hto₂.1 h₃.1, fun h => by cases h⟩
    have hto₃ := BackedFrom.trans hto₂.1 h₃.1
    refine (backs_quiet (touches_log _ _) rfl hto₃.2).mono fun _ l₄ h₄ => ?_
    have hline : .line task.requestId .failed ∈ l₄ := h₄.1 (h₃.2 rfl)
    exact ⟨.trans hto₃.1 h₄, fun _ => ⟨h₄.2.pay (by decide) hline, .inr hline⟩⟩

/-- The line of the `except` reports both its own update and one of the `try`. -/
theorem backs_executeHandler (task : CallTask) (x : Exc)
    (hl : Backed (insert (task.requestId, .failed) ∅) l) :
    Backs o yields (fun r l' => (∃ D, BackedFrom D l l') ∧ (r.isOk = true →
      Backed ∅ l' ∧ .line task.requestId .failed ∈ l')) (executeHandler task x) l := by
  refine backs_after_quiet (touches_log _ _) rfl (.refl hl)
    (fun _ _ h => ⟨⟨_, h⟩, fun h => by cases h⟩) fun _ l₁ h₁ _ => ?_
  refine (backs_update_line task.requestId _ _ (by decide) (by decide) h₁.2).mono fun r l₂ h₂ => ?_
  refine ⟨⟨_, .trans h₁.1 h₂.1⟩, fun hok => ?_⟩
  obtain ⟨hbacked, -, hline⟩ := h₂.2 hok
  exact ⟨hbacked.pay (by decide) hline, hline⟩

theorem attempted_executeCall (task : CallTask) :
    Backs o yields (fun r l => r.isOk = true → Attempted task.requestId l) (executeCall o task)
      [] := by
  refine (backs_executePrologue task).bind (fun _ l₁ h₁ => ?_) fun _ _ _ h => by cases h
  obtain ⟨hbacked, hmoves, hline⟩ := h₁ rfl
  refine Service.Noting.tryFinally (Q := fun r l' => (∃ D, BackedFrom D l₁ l') ∧
    (r.isOk = true → Backed ∅ l' ∧ (.submitted ∈ l' ∨ .line task.requestId .failed ∈ l'))) ?_
    fun r l₂ h₂ => ?_
  · refine (backs_executeBody task hbacked).tryCatch (fun _ _ h => ⟨⟨_, h.1⟩, h.2⟩)
      fun x l₂ h₂ => ?_
    refine (backs_executeHandler task x h₂.1.2).mono fun r l₃ h₃ => ?_
    obtain ⟨⟨D, hD⟩, hend⟩ := h₃
    exact ⟨⟨D, .trans h₂.1.1 hD⟩, fun hok => (hend hok).imp_right .inr⟩
  · -- the slot is given back at every end of the `try` block
    obtain ⟨⟨D, hD⟩, hend⟩ := h₂
    cases r with
    | error x =>
      exact (backs_quiet touches_releaseSlot rfl hD.2).bind (fun _ _ _ h => by cases h)
        fun _ _ _ h => by cases h
    | ok u =>
      obtain ⟨hnone, hend⟩ := hend rfl
      refine (backs_quiet touches_releaseSlot rfl hnone).bind (fun _ l₃ h₃ _ => ?_)
        fun _ _ _ h => by cases h
      have hsub := List.Subset.trans hD.1 h₃.1
      exact ⟨h₃.2, hmoves.mono hsub, hsub hline,
        hend.imp (fun h => h₃.1 h) fun h => h₃.1 h⟩

/-! ## Every operation -/

/-- Every operation that returns has reported its updates, and a task has attempted its call. -/
theorem backed_body (op : Op) : Backs o yields (fun r l => r.isOk = true → Backed ∅ l ∧
    ∀ task, op = .execute task → Attempted task.requestId l) (op.body o) [] := by
  have hfinish {p : Prog Unit} {P : List StatusNote → Prop}
      (hp : Backs o yields (fun r l => r.isOk = true → P l) p []) :
      Backs o yields (fun r l => r.isOk = true → P l)
        (p >>= fun _ => (pure .finished : Prog Answer)) [] :=
    hp.bind (fun _ _ h _ => h rfl) fun _ _ _ h => by cases h
  have hquiet {ks : List Kind} {p : Prog Answer} (hp : Touches ks p)
      (hks : ks.elem .updateCall = false) (x : Input) :
      Backs o yields (fun r l => r.isOk = true → Backed ∅ l ∧
        ∀ task, Op.input x = .execute task → Attempted task.requestId l) p [] := by
    refine (backs_quiet hp hks backed_nil).mono fun r l h _ => ⟨h.2, ?_⟩
    rintro task ⟨⟩
  cases op with
  | execute task =>
    refine (hfinish (attempted_executeCall task)).mono fun r l h hok => ⟨(h hok).backed, ?_⟩
    rintro _ ⟨⟩
    exact h hok
  | input x =>
    cases x with
    | otpCall request => exact hquiet (touches_sendOtpCall request) rfl _
    | retry requestId body => exact hquiet (touches_retryCall requestId body) rfl _
    | status requestId => exact hquiet (touches_getCallStatus requestId) rfl _
    | health => exact hquiet touches_healthCheck rfl _
    | amiEvent kind message =>
      refine (hfinish (backs_dispatch kind message backed_nil)).mono fun r l h hok => ⟨h hok, ?_⟩
      rintro task ⟨⟩
    | cleanup =>
      have hclean : Backs o yields (fun r l => r.isOk = true → Backed ∅ l) periodicCleanup [] :=
        (backs_quiet touches_periodicCleanup rfl backed_nil).mono fun _ _ h _ => h.2
      refine (hfinish hclean).mono fun r l h hok => ⟨h hok, ?_⟩
      rintro task ⟨⟩

end Coroutines

section Runs

variable {o : CallOriginator} {w₀ : World} {acts : List Turn} {n i : ℕ} {requestId : String}

/-- An executed update is noted. -/
theorem statusNote_of_ran {status : Status} {now : Time} {u : StatusFields}
    (h : Ran (commands o w₀ acts) n i
      (.updateCall (updateFields u) (updateValues status now u) requestId)) :
    ∃ ev, (commands o w₀ acts)[n]? = some (i, ev) ∧
      statusNote ev = some (.updated requestId status) := by
  obtain ⟨⟨e, k, c, r⟩, hx, hcmd, hfault⟩ := h
  obtain rfl : c = .execute (.updateCall (updateFields u) (updateValues status now u) requestId) :=
    hcmd
  have hanswer := Service.trace_answers (interleaved o) w₀ acts hx
  replace hanswer := hanswer.trans (congrArg Prod.fst (World.respond_execute hfault _ _))
  refine ⟨_, hx, ?_⟩
  rw [show r = _ from hanswer]
  rfl

/-- The command of a noted update. -/
theorem update_of_statusNote {status : Status} {ev : Ev}
    (h : statusNote ev = some (.updated requestId status)) :
    ∃ fields tail, ev.cmd = .execute (.updateCall fields (.status status :: tail) requestId) ∧
      ev.res.isOk = true := by
  obtain ⟨e, k, c, r⟩ := ev
  simp only [statusNote] at h
  unfold StatusNote.of at h
  split at h <;> cases h
  exact ⟨_, _, rfl, rfl⟩

theorem submit_of_statusNote {ev : Ev} (h : statusNote ev = some .submitted) :
    ∃ action, ev.cmd = .submitAction action := by
  obtain ⟨e, k, c, r⟩ := ev
  simp only [statusNote] at h
  unfold StatusNote.of at h
  split at h <;> cases h
  exact ⟨_, rfl⟩

/-- A record that is not queued has its status from an update. The induction is on the commands. -/
theorem status_origin (hkeeps : NoRollbacks acts)
    (hnone : w₀.store.calls.find requestId = none) {row : CallRecord}
    (hrow : (tablesAt o w₀ acts n).calls.find requestId = some row) :
    row.status = .queued ∨ ∃ m < n, ∃ i ev, (commands o w₀ acts)[m]? = some (i, ev) ∧
      statusNote ev = some (.updated requestId row.status) := by
  induction n generalizing row with
  | zero => cases hnone.symm.trans hrow
  | succ n ih =>
    have hearlier {old : CallRecord} (hold : (tablesAt o w₀ acts n).calls.find requestId = some old)
        (hstatus : row.status = old.status) : row.status = .queued ∨ ∃ m < n + 1, ∃ i ev,
          (commands o w₀ acts)[m]? = some (i, ev) ∧
            statusNote ev = some (.updated requestId row.status) := by
      rw [hstatus]
      exact (ih hold).imp_right fun ⟨m, hm, h⟩ => ⟨m, hm.trans (Nat.lt_succ_self n), h⟩
    rcases tablesAt_step o w₀ hkeeps n with hkeep | ⟨i, s, hran, hstore⟩
    · rw [hkeep] at hrow
      exact hearlier hrow rfl
    · rw [hstore] at hrow
      have hran' := hran
      obtain ⟨ev, hx, hcmd, -⟩ := hran'
      obtain ⟨op, -, hissued⟩ := (interleaved o).run_uses (uses_issued o) w₀ acts
        (List.mem_of_getElem? hx)
      rw [hcmd] at hissued
      cases hbefore : (tablesAt o w₀ acts n).calls.find requestId with
      | none =>
        -- a new record is queued
        obtain rfl := find_exec_new hbefore hrow
        exact .inl hissued.1
      | some old =>
        rcases find_exec hbefore hrow with rfl | ⟨now, -, rfl⟩ | ⟨fields, values, rfl, rfl⟩
        · exact hearlier hbefore rfl
        · exact hearlier hbefore rfl
        · obtain ⟨status, now, u, rfl, rfl⟩ := hissued
          obtain ⟨ev', hx', hnote⟩ := statusNote_of_ran hran
          rw [updateRow_eq_updated]
          exact .inr ⟨n, Nat.lt_succ_self n, i, ev', hx', hnote⟩

/-- A line that a command has noted. -/
theorem ran_of_statusNote {event : EventName} {ev : Ev}
    (hx : (commands o w₀ acts)[n]? = some (i, ev))
    (hnote : statusNote ev = some (.line requestId event)) :
    ∃ row : EventRow, row.requestId = requestId ∧ row.event = event ∧
      Ran (commands o w₀ acts) n i (.insertEvent row) := by
  obtain ⟨row, hid, hevent, hline⟩ : ∃ row : EventRow, row.requestId = requestId ∧
      row.event = event ∧ TimelineNote.of ev.cmd ev.res = .line row := by
    obtain ⟨e, k, c, r⟩ := ev
    simp only [statusNote] at hnote
    unfold StatusNote.of at hnote
    split at hnote <;> cases hnote
    exact ⟨_, rfl, rfl, rfl⟩
  exact ⟨row, hid, hevent, ran_of_line hx hline⟩

/-- A line of a live record, other than its first one, stays in its timeline. -/
theorem Secret.line_kept (h : Secret o w₀ acts requestId) (hkeeps : NoRollbacks acts)
    {line : EventRow}
    (hran : Ran (commands o w₀ acts) n i (.insertEvent line)) (hid : line.requestId = requestId)
    (hevent : line.event ≠ .queued) {m : ℕ} (hnm : n < m)
    (hrow : ((tablesAt o w₀ acts m).calls.find requestId).isSome = true) :
    line ∈ (tablesAt o w₀ acts m).timeline requestId := by
  have hcreated : Created o w₀ acts (n + 1) requestId :=
    ((h.line hkeeps hran hid).resolve_left hevent).mono (Nat.le_succ n)
  have hstore : tablesAt o w₀ acts (n + 1) = _ := hran.store (S := interleaved o) rfl w₀
  have hmem : line ∈ (tablesAt o w₀ acts (n + 1)).lines requestId := by
    rw [hstore]
    exact (lines_insertEvent _ hid).symm ▸ List.mem_append_right _ (List.mem_singleton_self _)
  exact (List.mem_insertionSort _).2 ((h.lines_prefix hkeeps hcreated hnm hrow).subset hmem)

/-- A line that a coroutine has noted is in the timeline at the end. -/
theorem Secret.noted_line_kept (h : Secret o w₀ acts requestId) (hkeeps : NoRollbacks acts)
    {event : EventName} (hevent : event ≠ .queued)
    (hmem : .line requestId event ∈ (ownEvents i (commands o w₀ acts)).filterMap statusNote)
    (hrow : ((tablesAt o w₀ acts (commands o w₀ acts).length).calls.find requestId).isSome =
      true) :
    ∃ line ∈ (tablesAt o w₀ acts (commands o w₀ acts).length).timeline requestId,
      line.event = event := by
  obtain ⟨n, ev, hx, hnote⟩ := Service.exists_of_mem_notes hmem
  obtain ⟨line, hid, rfl, hran⟩ := ran_of_statusNote hx hnote
  exact ⟨line, h.line_kept hkeeps hran hid hevent (List.getElem?_eq_some_iff.1 hx).1 hrow, rfl⟩

end Runs

/-- In every interleaving in which nothing rolls back, once the coroutines that have updated a live
record have returned, the timeline of the record reports its status. -/
theorem status_is_reported (o : CallOriginator) (w₀ : World) (acts : List Turn)
    (hkeeps : NoRollbacks acts) {requestId : String} (hsecret : Secret o w₀ acts requestId)
    {row : CallRecord} :
    let s := (interleaved o).run (Config.initial w₀) acts
    s.world.store.calls.find requestId = some row → Created o w₀ acts s.trace.length requestId →
      (∀ i ev fields values, (i, ev) ∈ s.trace →
        ev.cmd = .execute (.updateCall fields values requestId) →
          ∃ op answer, s.outcome i = some (op, .ok answer)) →
      ∃ line ∈ s.world.store.timeline requestId, line.event ∈ row.status.reports := by
  intro s hrow hcreated hended
  have hend : tablesAt o w₀ acts s.trace.length = s.world.store :=
    congrArg World.store (Service.worldAfter_length (interleaved o) w₀ acts)
  rw [← hend] at hrow ⊢
  have hsome : ((tablesAt o w₀ acts s.trace.length).calls.find requestId).isSome = true := by
    rw [hrow]
    rfl
  rcases status_origin hkeeps hsecret.row hrow with hqueued | ⟨m, hm, i, ev, hx, hnote⟩
  · obtain ⟨first, rest, hlines, hfirst⟩ := hsecret.begins_queued hkeeps ⟨hsome, hcreated⟩
    refine ⟨first, (List.mem_insertionSort _).2 ?_, ?_⟩
    · show first ∈ (tablesAt o w₀ acts s.trace.length).lines requestId
      rw [hlines]
      exact List.mem_cons_self
    · rw [hqueued, hfirst]
      exact List.mem_singleton_self _
  · -- the coroutine of the update has written a line that reports it
    obtain ⟨fields, tail, hcmd, -⟩ := update_of_statusNote hnote
    obtain ⟨op, answer, houtcome⟩ := hended i ev fields _ (List.mem_of_getElem? hx) hcmd
    have hbacked : Backed ∅ ((ownEvents i s.trace).filterMap statusNote) :=
      (Service.run_noting_ended backed_body w₀ acts houtcome rfl).1
    have hmem : .updated requestId row.status ∈ (ownEvents i s.trace).filterMap statusNote :=
      List.mem_filterMap.2 ⟨ev, mem_ownEvents.2 (List.mem_of_getElem? hx), hnote⟩
    obtain ⟨event, hevent, hline⟩ := (hbacked.2 _ _ hmem).resolve_left (Set.notMem_empty _)
    have hqueued : event ≠ .queued := by
      rintro rfl
      exact hbacked.1 _ _ hmem (queued_of_reports hevent)
    obtain ⟨line, hkept, rfl⟩ := hsecret.noted_line_kept hkeeps hqueued hline hsome
    exact ⟨line, hkept, hevent⟩

/-- No message of the AMI names a record in a run without messages and without replies. -/
theorem Secret.of_silent {o : CallOriginator} {w₀ : World} {acts : List Turn} {requestId : String}
    (hrow : w₀.store.calls.find requestId = none)
    (hlines : ∀ ev ∈ w₀.store.events, ev.requestId ≠ requestId)
    (hdraws : ((commands o w₀ acts).filterMap fun x => drawnId x.2).Nodup)
    (hmessages : ∀ kind message, .arrive (.amiEvent kind message) ∉ acts)
    (hreplies : ∀ x ∈ commands o w₀ acts, x.2.cmd.kind ≠ .reply) :
    Secret o w₀ acts requestId := by
  refine ⟨hrow, hlines, hdraws, ?_, ?_⟩
  · intro k kind message hk
    exact absurd (List.mem_of_getElem? hk) (hmessages kind message)
  · intro n i ev reply hx hnote
    have hkind := hreplies _ (List.mem_of_getElem? hx)
    obtain ⟨e, k, c, r⟩ := ev
    simp only at hnote hkind
    unfold TimelineNote.of at hnote
    split at hnote <;> cases hnote
    exact absurd rfl hkind

/-- A call that fails because the AMI connection is down. -/
def disconnectedRun : List Turn :=
  oneCallRun ++ List.replicate 12 (.turn 1 (.disconnected 7 firstId))

theorem noRollbacks_disconnectedRun : NoRollbacks disconnectedRun := by
  simp [disconnectedRun, oneCallRun]

theorem secret_disconnectedRun :
    Secret sampleOriginator sampleWorld disconnectedRun firstId.text :=
  .of_silent rfl (fun ev hev => by cases hev) (by decide +kernel)
    (fun kind message => by simp [disconnectedRun, oneCallRun]) (by decide +kernel)

theorem status_is_reported_disconnected :
    let s := (interleaved sampleOriginator).run (Config.initial sampleWorld) disconnectedRun
    ∃ row line, s.world.store.calls.find firstId.text = some row ∧ row.status = .failed ∧
      line ∈ s.world.store.timeline firstId.text ∧ line.event ∈ Status.failed.reports := by
  intro s
  have hstatus : (s.world.store.calls.find firstId.text).map CallRecord.status = some .failed := by
    decide +kernel
  obtain ⟨row, hrow, hfailed⟩ := Option.map_eq_some_iff.1 hstatus
  have hopens : Opens sampleOriginator sampleWorld disconnectedRun 8 firstId.text := by
    unfold Opens
    decide +kernel
  have hlength : 8 < s.trace.length := by decide +kernel
  -- the request and its task have both returned
  have hreturned : ∀ x ∈ s.trace, (s.outcome x.1).any (fun r => r.2.isOk) = true := by
    decide +kernel
  have hended : ∀ i ev fields values, (i, ev) ∈ s.trace →
      ev.cmd = .execute (.updateCall fields values firstId.text) →
        ∃ op answer, s.outcome i = some (op, .ok answer) := by
    intro i ev fields values hmem _
    obtain ⟨⟨op, r⟩, houtcome, hok⟩ := (Option.any_eq_true _ _).1 (hreturned _ hmem)
    cases r with
    | ok answer => exact ⟨op, answer, houtcome⟩
    | error x => cases hok
  obtain ⟨line, hline, hevent⟩ := status_is_reported sampleOriginator sampleWorld disconnectedRun
    noRollbacks_disconnectedRun secret_disconnectedRun hrow ⟨8, hlength, hopens⟩ hended
  exact ⟨row, line, hrow, hfailed, hline, hfailed ▸ hevent⟩

end OtpVoice
