import OtpVoice.Service.Terminal

/-!
# Completed calls

A record becomes `completed` in two ways: its playback ends, or its channel is hung up with a cause
that the service reads as a normal end (`completed_only_if`). The timeline of the record shows which
one it was.
-/

set_option autoImplicit false

namespace OtpVoice

open Coroutine

/-- A hangup that the service reads as a normal end of the call: normal clearing, or a cause outside
the table while the call was answered. -/
def NormalEnd (message : Message) (row : CallRecord) : Prop :=
  causeInt message = 16 ∨
    causeToStatus.lookup (causeInt message) = none ∧
      (row.status = .answered ∨ row.status = .playing)

theorem hangupStatus_completed {cause : ℤ} {status : Status}
    (h : hangupStatus cause status = .completed) : cause = 16 ∨
      causeToStatus.lookup cause = none ∧ (status = .answered ∨ status = .playing) := by
  have hall : ∀ x ∈ causeToStatus, x.2 = .completed → x.1 = 16 := by decide
  unfold hangupStatus at h
  split at h
  · rename_i new hlookup
    subst h
    exact .inl (hall _ (mem_of_lookup hlookup) rfl)
  · rename_i hlookup
    split at h
    · rename_i hanswered
      exact .inr ⟨hlookup, by simpa using hanswered⟩
    · cases h

/-! ## Failures never complete a call -/

theorem originateFailure_ne_completed {message : Message} {status : Status}
    (h : originateFailure message = some status) : status ≠ .completed := by
  have hall : ∀ x ∈ reasonToStatus, x.2 ≠ .completed := by decide
  simp only [originateFailure] at h
  split at h
  · cases h
    cases hlookup : reasonToStatus.lookup ((message.get .reason).getD "") with
    | none => decide
    | some status => exact hall _ (mem_of_lookup hlookup)
  · cases h

theorem failures_ne_completed_of_message {message : Message} {x : String × Status}
    (h : x ∈ message.failures) : x.2 ≠ .completed := by
  unfold Message.failures at h
  split at h
  · rename_i hstatus
    rw [List.mem_singleton] at h
    subst h
    exact originateFailure_ne_completed hstatus
  · cases h

theorem replyFailures_ne_completed {requestId : String} {handler : Bool} {r : Except Exc Reply}
    {x : String × Status} (h : x ∈ replyFailures requestId handler r) : x.2 ≠ .completed := by
  have hfailed : ∀ y ∈ [(requestId, Status.failed)], y.2 ≠ .completed := by simp
  unfold replyFailures at h
  split at h
  · exact hfailed x h
  · split at h
    · exact hfailed x h
    · split at h
      · split at h
        · obtain ⟨message, -, hx⟩ := List.mem_flatMap.1 h
          unfold forwardedFailures at hx
          split at hx
          · split at hx
            · exact failures_ne_completed_of_message hx
            · cases hx
          · cases hx
        · cases h
      · exact hfailed x h

theorem Op.failures_ne_completed {op : Op} {submitted : Bool} {e : Env} {x : String × Status}
    (h : x ∈ op.failures submitted e) : x.2 ≠ .completed := by
  unfold Op.failures at h
  split at h
  · exact failures_ne_completed_of_message h
  · split at h
    · exact replyFailures_ne_completed h
    · split at h
      · simp_all
      · cases h
  · cases h

/-! ## The timeline -/

theorem events_respond {e : Env} {n : ℕ} {w : World} {c : Cmd} {ev : EventRow}
    (hheld : e.rollsBack n c = false) (hev : ev ∈ w.store.events)
    (hstays : ((World.respond e n w c).2.store.calls.find ev.requestId).isSome) :
    ev ∈ (World.respond e n w c).2.store.events := by
  rcases World.respond_store e n w c with h | ⟨s, -, -, h⟩ | ⟨hundone, -⟩
  · rw [h]
    exact hev
  · rw [h] at hstays ⊢
    exact events_exec hev hstays
  · cases hheld.symm.trans hundone

/-- The events of a record stay in its timeline as long as it exists and nothing rolls back. -/
theorem events_kept {o : CallOriginator} {w₀ : World} {tr : List (ℕ × Ev)}
    (hheld : NothingUndone tr) {m n : ℕ} (hmn : m ≤ n) {ev : EventRow}
    (hev : ev ∈ ((sequential o).worldAfter w₀ tr m).store.events)
    (hexists : ∀ k ≤ n, m < k →
      (((sequential o).worldAfter w₀ tr k).store.calls.find ev.requestId).isSome) :
    ev ∈ ((sequential o).worldAfter w₀ tr n).store.events := by
  induction n, hmn using Nat.le_induction with
  | base => exact hev
  | succ n hmn ih =>
    have hbefore := ih fun k hk => hexists k (hk.trans (Nat.le_succ n))
    have hstays := hexists (n + 1) le_rfl (Nat.lt_succ_of_le hmn)
    cases hx : tr[n]? with
    | none =>
      rw [Service.worldAfter_succ_of_none _ _ hx]
      exact hbefore
    | some x =>
      rw [Service.worldAfter_succ _ _ hx] at hstays ⊢
      exact events_respond (hheld x (List.mem_of_getElem? hx)) hbefore hstays

/-! ## The handler of the end of a playback -/

/-- What is noted of a handler: an update, and each line that it writes. -/
inductive LineNote where
  | updated
  | line (ev : EventRow)

/-- The note of a command with its answer. -/
def LineNote.of : (c : Cmd) → Except Exc c.Resp → Option LineNote
  | .execute (.updateCall _ _ _), _ => some .updated
  | .execute (.insertEvent ev), .ok _ => some (.line ev)
  | _, _ => none

/-- The updates of a thread and the rows that it has put into the timeline. -/
def lineNote (ev : Ev) : Option LineNote := LineNote.of ev.cmd ev.res

/-- A handler of the end of a playback that has returned has written its line, after its update. -/
def Op.WritesLine (op : Op) (r : Except Exc Answer) (l : List LineNote) : Prop :=
  ∀ requestId answer, op.completes requestId = true → r = .ok answer →
    ∃ ev : EventRow, ev.requestId = requestId ∧ ev.event = .playbackComplete ∧
      (l = [.line ev] ∨ l = [.updated, .line ev])

section Noting

variable {α β : Type} {o : CallOriginator} {post : Except Exc α → List LineNote → Prop}
variable {l : List LineNote}

theorem LineNote.of_eq_none {c : Cmd} (hc : c.kind ∉ [Kind.updateCall, .insertEvent])
    (r : Except Exc c.Resp) : LineNote.of c r = none := by
  unfold LineNote.of
  split <;> first
    | rfl
    | exact absurd (by simp [Cmd.kind, Stmt.kind]) hc

theorem lining_silent_bind {ks : List Kind} {p : Prog β} {g : β → Prog α} (hp : Touches ks p)
    (hks : ks.all (fun k => k ∉ [Kind.updateCall, .insertEvent]) = true)
    (hok : ∀ a, (sequential o).Noting lineNote (fun _ => True) post (g a) l)
    (herror : ∀ x, post (.error x) l) :
    (sequential o).Noting lineNote (fun _ => True) post (p >>= g) l := by
  refine (Service.noting_of_uses hp (fun _ hc e n r => LineNote.of_eq_none
    (of_decide_eq_true (List.all_eq_true.1 hks _ hc)) r) trivial).bind (fun a l' hl' => ?_)
    fun x l' hl' => ?_
  · exact hl' ▸ hok a
  · exact hl' ▸ herror x

theorem lining_updateCallStatus (requestId : String) (status : Status) (u : StatusFields) :
    (sequential o).Noting lineNote (fun _ => True)
      (fun _ l' => l' = l ∨ l' = l ++ [.updated]) (updateCallStatus requestId status u) l := by
  refine lining_silent_bind (touches_getCallRecord requestId) (by decide) (fun record => ?_)
    fun x => .inl rfl
  match record with
  | none => exact .inl rfl
  | some record =>
    dsimp only
    split
    · exact .inl rfl
    · refine lining_silent_bind touches_time (by decide) (fun now => ?_) fun x => .inl rfl
      have hupdate : (sequential o).Noting lineNote (fun _ => True)
          (fun _ l' => l' = l ++ [.updated])
          (execute (.updateCall (updateFields u) (updateValues status now u) requestId)) l :=
        Service.noting_perform fun e n w => ⟨trivial, rfl⟩
      refine hupdate.bind ?_ fun x l' hl' => .inr hl'
      rintro k _ rfl
      exact lining_silent_bind touches_commit (by decide) (fun _ => .inr rfl) fun x => .inr rfl

theorem lining_addEvent (requestId : String) (event : EventName) (detail : Option String) :
    (sequential o).Noting lineNote (fun _ => True)
      (fun r l' => ∀ u, r = .ok u → ∃ ev : EventRow, ev.requestId = requestId ∧ ev.event = event ∧
        l' = l ++ [.line ev]) (addEvent requestId event detail) l := by
  refine lining_silent_bind touches_time (by decide) (fun now => ?_) fun x _ h => by cases h
  have hinsert : (sequential o).Noting lineNote (fun _ => True)
      (fun r l' => ∀ k, r = .ok k → l' = l ++ [.line ⟨requestId, event, detail, now⟩])
      (execute (.insertEvent ⟨requestId, event, detail, now⟩)) l := by
    refine Service.noting_perform fun e n w => ⟨trivial, fun k hk => ?_⟩
    simp only [lineNote]
    rw [hk]
    rfl
  refine hinsert.bind (fun k l' hl' => ?_) fun x l' _ _ h => by cases h
  obtain rfl := hl' k rfl
  refine (Service.noting_of_uses touches_commit (fun c hc e n r => LineNote.of_eq_none
    (by simp_all) r) trivial).mono fun r l' hl' u _ => ?_
  exact ⟨⟨requestId, event, detail, now⟩, rfl, rfl, hl'⟩

theorem lining_body (op : Op) :
    (sequential o).Noting lineNote (fun _ => True) op.WritesLine (op.body o) [] := by
  -- nothing is promised of the other operations
  have hany : (sequential o).Noting lineNote (fun _ => True) (fun _ _ => True) (op.body o) [] :=
    Coro.Sat.of_uses (I := fun _ => True) (fun _ _ _ _ _ _ _ => ⟨trivial, trivial⟩)
      (Coro.uses_true _) trivial
  by_cases hop : ∃ requestId, op.completes requestId = true
  · obtain ⟨requestId, hcompletes⟩ := hop
    unfold Op.completes at hcompletes
    split at hcompletes
    · rename_i message
      simp only [Bool.and_eq_true, decide_eq_true_eq] at hcompletes
      obtain ⟨hevent, hid⟩ := hcompletes
      -- the branch of the handler for this event
      have hhandler : onUserEvent message =
          (updateCallStatus requestId .completed {} >>= fun _ =>
            addEvent requestId .playbackComplete none) := by
        simp only [onUserEvent, hid, hevent]
      show (sequential o).Noting lineNote _ _ (onUserEvent message >>= fun _ => pure _) []
      rw [hhandler]
      refine Service.Noting.bind (Q := fun r l => ∀ u, r = .ok u → ∃ ev : EventRow,
        ev.requestId = requestId ∧ ev.event = .playbackComplete ∧
          (l = [.line ev] ∨ l = [.updated, .line ev])) ?_ (fun _ l hl => ?_)
        fun x l hl _ _ _ h => by cases h
      · refine (lining_updateCallStatus _ _ _).bind (fun _ l hl => ?_) fun x l _ _ h => by cases h
        apply (lining_addEvent _ _ _).mono
        intro r l' hl' u hu
        obtain ⟨ev, hev, hname, rfl⟩ := hl' u hu
        refine ⟨ev, hev, hname, ?_⟩
        rcases hl with rfl | rfl
        · exact .inl rfl
        · exact .inr rfl
      · intro requestId' answer hcompletes' _
        simp only [Op.completes, hid, Bool.and_eq_true, decide_eq_true_eq, Option.some.injEq]
          at hcompletes'
        exact hcompletes'.2 ▸ hl () rfl
    · cases hcompletes
  · exact hany.mono fun r l _ requestId answer h _ => absurd ⟨requestId, h⟩ hop

end Noting

section Runs

variable (o : CallOriginator) (w₀ : World) (acts : List Turn)

/-- One of the first `n` commands is an `UPDATE` that has completed the record with a reason, and
the record has existed since. -/
def CompletedBy (n : ℕ) (requestId : String) : Prop :=
  let s := (sequential o).run (Config.initial w₀) acts
  let w := (sequential o).worldAfter w₀ s.trace
  ∃ m x op row₀ now u, m < n ∧ s.trace[m]? = some x ∧ s.opOf x.1 = some op ∧
    x.2.cmd = .execute (.updateCall (updateFields u) (updateValues .completed now u) requestId) ∧
    (w m).store.calls.find requestId = some row₀ ∧
    Asks op (sightBefore o w₀ s m x).memory x.2.env (w m).store.events row₀ .completed ∧
    ∀ k ≤ n, m < k → ((w k).store.calls.find requestId).isSome

variable {o w₀ acts} in
theorem CompletedBy.succ {n : ℕ} {requestId : String} (h : CompletedBy o w₀ acts n requestId)
    (hexists : (((sequential o).worldAfter w₀ ((sequential o).run (Config.initial w₀) acts).trace
      (n + 1)).store.calls.find requestId).isSome) : CompletedBy o w₀ acts (n + 1) requestId := by
  obtain ⟨m, x, op, row₀, now, u, hm, hx, hop, hcmd, hrow₀, hasks, hsince⟩ := h
  refine ⟨m, x, op, row₀, now, u, Nat.lt_succ_of_lt hm, hx, hop, hcmd, hrow₀, hasks, ?_⟩
  intro k hk hmk
  rcases Nat.le_succ_iff.1 hk with hk | rfl
  · exact hsince k hk hmk
  · exact hexists

/-- A completed record has been completed by an `UPDATE` with a reason. The induction is on the
commands. -/
theorem completed_origin (hkeeps : NoRollbacks acts) (hempty : w₀.store = .empty) {n : ℕ}
    {requestId : String} {row : CallRecord} :
    let w := (sequential o).worldAfter w₀ ((sequential o).run (Config.initial w₀) acts).trace
    (w n).store.calls.find requestId = some row → row.status = .completed →
      CompletedBy o w₀ acts n requestId := by
  intro w hrow hstatus
  induction n generalizing row with
  | zero =>
    have hnone : (w 0).store.calls.find requestId = none := by
      show w₀.store.calls.find requestId = none
      rw [hempty]
      rfl
    cases hnone.symm.trans hrow
  | succ n ih =>
    have hexists : ((w (n + 1)).store.calls.find requestId).isSome := by
      rw [hrow]
      rfl
    cases hx : ((sequential o).run (Config.initial w₀) acts).trace[n]? with
    | none =>
      have hsame := congrArg (fun w : World => w.store.calls.find requestId)
        (Service.worldAfter_succ_of_none (sequential o) w₀ hx)
      exact (ih (hsame.symm.trans hrow) hstatus).succ hexists
    | some x =>
      cases hbefore : (w n).store.calls.find requestId with
      | none =>
        -- a new record is queued
        cases (row_step_new hkeeps hx hbefore hrow).symm.trans hstatus
      | some row₁ =>
        rcases row_step hkeeps hx hbefore hrow
          with hkeep | ⟨op, status, now, u, hop, hcmd, rfl, -, hreason⟩
        · exact (ih hbefore (hkeep.1.symm.trans hstatus)).succ hexists
        · obtain rfl : status = .completed := hstatus
          refine ⟨n, x, op, row₁, now, u, Nat.lt_succ_self n, hx, hop, hcmd, hbefore,
            hreason.asks, ?_⟩
          intro k hk hnk
          obtain rfl : k = n + 1 := by omega
          exact hexists

theorem line_after_update {A B : List LineNote} {row : EventRow}
    (h : A ++ LineNote.updated :: B = [.line row] ∨
      A ++ LineNote.updated :: B = [.updated, .line row]) : LineNote.line row ∈ B := by
  rcases A with _ | ⟨a, _ | ⟨b, A⟩⟩ <;> simp_all

theorem lineNote_update {ev : Ev} {fields : List Column} {values : List SqlValue}
    {requestId : String} (h : ev.cmd = .execute (.updateCall fields values requestId)) :
    lineNote ev = some .updated := by
  obtain ⟨e, n, c, r⟩ := ev
  cases h
  rfl

/-- A noted line is in the timeline after its command. -/
theorem line_stored {w : World} {ev : Ev} {row : EventRow} (h : lineNote ev = some (.line row))
    (hanswer : ev.res = (World.respond ev.env ev.index w ev.cmd).1) :
    row ∈ (World.respond ev.env ev.index w ev.cmd).2.store.events := by
  obtain ⟨e, n, c, r⟩ := ev
  simp only [lineNote] at h hanswer ⊢
  unfold LineNote.of at h
  split at h <;> cases h
  simp only [World.respond] at hanswer ⊢
  split
  · rename_i hfault
    rw [hfault] at hanswer
    cases hanswer
  · exact List.mem_append_right _ (List.mem_singleton_self _)

/-- The line of a playback that has completed a record is in the timeline, once its handler has
returned. -/
theorem playback_line (hkeeps : NoRollbacks acts) {m : ℕ} {x : ℕ × Ev} {op : Op}
    {requestId : String} {fields : List Column} {values : List SqlValue} {answer : Answer} :
    let s := (sequential o).run (Config.initial w₀) acts
    let w := (sequential o).worldAfter w₀ s.trace
    s.trace[m]? = some x → x.2.cmd = .execute (.updateCall fields values requestId) →
      op.completes requestId = true → s.outcome x.1 = some (op, .ok answer) →
      (∀ k ≤ s.trace.length, m < k → ((w k).store.calls.find requestId).isSome) →
      ∃ ev ∈ s.world.store.events, ev.requestId = requestId ∧ ev.event = .playbackComplete := by
  intro s w hx hcmd hcompletes hended hexists
  obtain ⟨row, hid, hname, hnotes⟩ := Service.run_noting_ended lining_body
    w₀ acts hended requestId answer hcompletes rfl
  -- the line comes after the update
  have hline : LineNote.line row ∈ (ownEvents x.1 (s.trace.drop (m + 1))).filterMap lineNote := by
    have hsplit : (ownEvents x.1 s.trace).filterMap lineNote =
        (ownEvents x.1 (s.trace.take m)).filterMap lineNote ++
          .updated :: (ownEvents x.1 (s.trace.drop (m + 1))).filterMap lineNote := by
      rw [ownEvents_split hx, List.filterMap_append, List.filterMap_cons, lineNote_update hcmd]
    have hnotes' : (ownEvents x.1 s.trace).filterMap lineNote = [.line row] ∨
        (ownEvents x.1 s.trace).filterMap lineNote = [.updated, .line row] := hnotes
    rw [hsplit] at hnotes'
    exact line_after_update hnotes'
  -- from the notes of the thread back to a position of the trace
  obtain ⟨ev, hev, hnote⟩ := List.mem_filterMap.1 hline
  obtain ⟨j, hj, hget⟩ := List.mem_iff_getElem.1 (mem_ownEvents.1 hev)
  rw [List.length_drop] at hj
  have hy : s.trace[m + 1 + j]? = some (x.1, ev) := by
    rw [List.getElem_drop] at hget
    rw [List.getElem?_eq_getElem (by omega), hget]
  have hanswer : ev.res = (World.respond ev.env ev.index (w (m + 1 + j)) ev.cmd).1 :=
    Service.trace_answers (sequential o) w₀ acts hy
  have hstored : row ∈ (w (m + 1 + j + 1)).store.events := by
    have hworld : w (m + 1 + j + 1) =
        (World.respond ev.env ev.index (w (m + 1 + j)) ev.cmd).2 :=
      Service.worldAfter_succ (sequential o) w₀ hy
    rw [hworld]
    exact line_stored hnote hanswer
  have hkept : row ∈ (w s.trace.length).store.events :=
    events_kept hkeeps.held (by omega) hstored fun k hk hjk => hid.symm ▸ hexists k hk (by omega)
  have hend : w s.trace.length = s.world := Service.worldAfter_length (sequential o) w₀ acts
  exact ⟨row, hend ▸ hkept, hid, hname⟩

/-- In every run from an empty store in which nothing rolls back, a completed record has been
completed by the end of its playback, whose handler, if it has returned, has put `playback_complete`
into its timeline, or by a hangup of its channel that the service reads as a normal end, and its
timeline has a `hangup`. -/
theorem completed_only_if (o : CallOriginator) (w₀ : World) (acts : List Turn)
    (hkeeps : NoRollbacks acts) (hempty : w₀.store = .empty) {row : CallRecord} :
    let s := (sequential o).run (Config.initial w₀) acts
    let w := (sequential o).worldAfter w₀ s.trace
    row ∈ s.world.store.calls.rows → row.status = .completed →
      (∃ i op, s.opOf i = some op ∧ op.completes row.requestId = true ∧
        ownEvents i s.trace ≠ [] ∧ ∀ answer, s.outcome i = some (op, .ok answer) →
          ∃ ev ∈ s.world.store.events, ev.requestId = row.requestId ∧
            ev.event = .playbackComplete) ∨
      (∃ m x message row₀, s.trace[m]? = some x ∧
        s.opOf x.1 = some (.input (.amiEvent .hangup message)) ∧
        (w m).store.calls.find row.requestId = some row₀ ∧
        (Op.input (.amiEvent .hangup message)).hangsUp row₀ = true ∧
        row₀.status.terminal = false ∧ NormalEnd message row₀) ∧
        ∃ ev ∈ s.world.store.events, ev.requestId = row.requestId ∧ ev.event = .hangup := by
  intro s w hmem hstatus
  have hend : w s.trace.length = s.world := Service.worldAfter_length (sequential o) w₀ acts
  have hfind : (w s.trace.length).store.calls.find row.requestId = some row := by
    rw [hend]
    exact Table.find_mem hmem
  obtain ⟨m, x, op, row₀, now, u, hm, hx, hop, hcmd, hrow₀, hasks, hexists⟩ :=
    completed_origin o w₀ acts hkeeps hempty hfind hstatus
  obtain ⟨-, hid⟩ := Table.find_eq_some_iff.1 hrow₀
  -- of the reasons, progress and failures never ask for `completed`
  generalize hnew : Status.completed = status at hasks
  cases hasks with
  | progress h =>
    subst hnew
    cases h
  | failure h => exact absurd hnew.symm (Op.failures_ne_completed h)
  | played h =>
    rw [hid] at h
    refine .inl ⟨x.1, op, hop, h, ?_,
      fun answer hended => playback_line o w₀ acts hkeeps hx hcmd h hended hexists⟩
    exact List.ne_nil_of_mem (mem_ownEvents.2 (List.mem_of_getElem? hx))
  | hangup message hop' hchannel hprogress hevents =>
    obtain ⟨ev, hev, hevid, hname⟩ := hevents
    rw [hid] at hevid
    refine .inr ⟨⟨m, x, message, row₀, hx, hop' ▸ hop, hrow₀, hop' ▸ hchannel, hprogress,
      hangupStatus_completed hnew.symm⟩, ev, ?_, hevid, hname⟩
    rw [← hend]
    exact events_kept hkeeps.held hm.le hev fun k hk hmk => hevid.symm ▸ hexists k hk hmk

end Runs

/-- A started call whose channel is hung up before its OTP is played. -/
def hungUpRun : List Turn :=
  startedRun ++ [.arrive (.amiEvent .hangup (hangup sampleChannel "16")),
    .turn 3 (.calm 3 firstId [])]

theorem completed_only_if_hungUp :
    let s := (sequential sampleOriginator).run (Config.initial sampleWorld) hungUpRun
    ∃ ev ∈ s.world.store.events, ev.requestId = firstId.text ∧ ev.event = .hangup := by
  intro s
  have hstatus : (s.world.store.calls.find firstId.text).map CallRecord.status =
      some .completed := by decide +kernel
  have hnone : ∀ op ∈ s.threads.map Thread.op, op.completes firstId.text = false := by
    decide +kernel
  obtain ⟨row, hrow, hcompleted⟩ := Option.map_eq_some_iff.1 hstatus
  obtain ⟨hmem, hid⟩ := Table.find_eq_some_iff.1 hrow
  have horigin := completed_only_if sampleOriginator sampleWorld hungUpRun
    (by simp [hungUpRun, startedRun, waitingRun]) rfl hmem hcompleted
  rw [hid] at horigin
  rcases horigin with ⟨i, op, hop, hcompletes, -⟩ | ⟨-, hline⟩
  · obtain ⟨p, hp⟩ := Config.opOf_eq_some_iff.1 hop
    have hfalse := hnone op (List.mem_map.2 ⟨_, List.mem_of_getElem? hp, rfl⟩)
    cases hfalse.symm.trans hcompletes
  · exact hline

/-- A call that is hung up while it is answered is completed, although its OTP has never been
played. -/
theorem hungUp_call_completed :
    let s := (sequential sampleOriginator).run (Config.initial sampleWorld) hungUpRun
    statusAfter startedRun = some .answered ∧ statusAfter hungUpRun = some .completed ∧
      (∀ ev ∈ s.world.store.events, ev.event ≠ .playbackComplete) ∧
      ∀ op ∈ s.threads.map Thread.op, op.completes firstId.text = false := by
  decide +kernel

end OtpVoice
