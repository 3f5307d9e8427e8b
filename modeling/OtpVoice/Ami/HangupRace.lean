import OtpVoice.Service.Overlap

/-!
# A hangup against the end of the playback

`_on_hangup` decides on the record that `get_call_by_channel` gave it, several awaits before
`update_call_status` writes. `handlerRun` runs any number of handlers that overlap at their awaits:
`Hangup`, `OTPPlaybackComplete`, and all others that ask for no terminal status.

- `noting_dispatch` : what a handler writes is decided by one of its reads.
- `playback_completed_iff` : after the `UPDATE` of a handled `OTPPlaybackComplete` the record stays
  `completed` exactly if no handler that has decided before it writes another status after it.
- `hangup_overrides_completed` : a `Hangup` that has decided before it.
-/

set_option autoImplicit false

namespace OtpVoice

open Coroutine

/-- A message for one of the handlers; a reported failure asks for no terminal status. -/
structure CallMessage where
  kind : EventKind
  message : Message
  wf : kind = .originateResponse → ∀ status, originateFailure message = some status →
    status.terminal = false
  deriving DecidableEq

/-- The handler of a message. -/
def CallMessage.body (c : CallMessage) : Prog Unit := dispatch c.kind c.message

/-- The message is an `OTPPlaybackComplete` for the request id. -/
def CallMessage.plays (c : CallMessage) (requestId : String) : Prop :=
  c.kind = .userEvent ∧ dialplanEvent c.message = some .playbackComplete ∧
    userEventRequestId c.message = some requestId

/-- A run of overlapping handlers from the world `w₀`. -/
abbrev handlerRun (w₀ : World) (acts : List (Act Env CallMessage)) :
    Config Cmd Cmd.Resp Exc Env World CallMessage Unit :=
  (overlapping CallMessage.body).run (Config.initial w₀) acts

/-! ## The decisions of a handler -/

/-- The read on which a handler decides what it writes: for `Hangup` the record of the channel, for
the others the record that `update_call_status` reads. -/
def CallMessage.Decides (c : CallMessage) (requestId : String) (row : CallRecord) (y : RowNote) :
    Prop :=
  if c.kind = .hangup then y = .found (some row) ∧ row.requestId = requestId
  else y = .read requestId (some row)

/-- A handler writes a status only after it has decided on a record; a completed record lets it
write only `completed`. -/
def CallMessage.Justifies (c : CallMessage) (l : List RowNote) : RowNote → Prop
  | .wrote fields values requestId => ∃ status u now row, fields = updateFields u ∧
      values = updateValues status now u ∧ (∃ y ∈ l, c.Decides requestId row y) ∧
      (row.status = .completed → status = .completed)
  | _ => True

/-- A handler of the end of a playback that has returned has gone through its update. -/
def CallMessage.Ends (c : CallMessage) (r : Except Exc Unit) (l : List RowNote) : Prop :=
  ∀ requestId, c.plays requestId → r = .ok () → ∃ b, UpdateNotes requestId .completed {} [] b l

section Noting

variable {c : CallMessage} {l : List RowNote}

/-- The notes of a handler that neither reads nor writes records for a while. -/
theorem noting_addEvent (hl : Service.Justified c.Justifies l) (requestId : String)
    (event : EventName) (detail : Option String) :
    (overlapping CallMessage.body).Noting rowNote (Service.Justified c.Justifies)
      (fun _ l' => l' = l) (addEvent requestId event detail) l :=
  noting_blind (touches_addEvent requestId event detail) (by decide) hl

/-- An update whose status the notes before it, or the record that it reads, allow. -/
theorem noting_update (hl : Service.Justified c.Justifies l) {requestId : String} {status : Status}
    {u : StatusFields}
    (hdecides : ∀ row : CallRecord, row.status.goesBack status = false →
      ∃ row', (∃ y ∈ l ++ [.read requestId (some row)], c.Decides requestId row' y) ∧
        (row'.status = .completed → status = .completed)) :
    (overlapping CallMessage.body).Noting rowNote (Service.Justified c.Justifies)
      (fun r l' => Service.Justified c.Justifies l' ∧
        ∀ b, r = .ok b → UpdateNotes requestId status u l b l')
      (updateCallStatus requestId status u) l := by
  have hread : ∀ record, Service.Justified c.Justifies (l ++ [.read requestId record]) := by
    intro record
    exact hl.concat trivial
  -- the note of the write is justified by the notes before it, the new read included
  refine (noting_updateCallStatus requestId status u hl hread ?_).keeps hl
  intro row now hguard
  obtain ⟨row', hdecided, hstatus⟩ := hdecides row hguard
  exact (hread (some row)).concat ⟨status, u, now, row', rfl, rfl, hdecided, hstatus⟩

/-- A handler other than `Hangup` decides inside `update_call_status`: the guard lets nothing but a
terminal status through on a completed record. -/
theorem noting_guarded (hc : c.kind ≠ .hangup) (hl : Service.Justified c.Justifies l)
    {requestId : String} {status : Status} {u : StatusFields}
    (hstatus : status.terminal = false ∨ status = .completed) :
    (overlapping CallMessage.body).Noting rowNote (Service.Justified c.Justifies)
      (fun r l' => Service.Justified c.Justifies l' ∧
        ∀ b, r = .ok b → UpdateNotes requestId status u l b l')
      (updateCallStatus requestId status u) l := by
  refine noting_update hl ?_
  intro row hguard
  refine ⟨row, ⟨.read requestId (some row), by simp, by simp [CallMessage.Decides, hc]⟩, ?_⟩
  intro hcompleted
  rcases hstatus with hprogress | hstatus
  · rw [hcompleted, Status.goesBack, hprogress] at hguard
    cases hguard
  · exact hstatus

theorem noting_onOriginateResponse (hc : c.kind = .originateResponse)
    (hl : Service.Justified c.Justifies l) :
    (overlapping CallMessage.body).Noting rowNote (Service.Justified c.Justifies) (fun _ _ => True)
      (onOriginateResponse c.message) l := by
  unfold onOriginateResponse
  split
  · trivial
  · refine (noting_addEvent hl _ _ _).bind ?_ fun _ _ _ => trivial
    rintro _ _ rfl
    split
    · rename_i status hfailure
      refine (noting_guarded (by simp [hc]) hl (.inl (c.wf hc status hfailure))).bind ?_
        fun _ _ _ => trivial
      exact fun _ _ _ => trivial
    · trivial

/-- The lookup of the record of a channel. -/
theorem noting_getCallByChannel (hl : Service.Justified c.Justifies l) (channel : String) :
    (overlapping CallMessage.body).Noting rowNote (Service.Justified c.Justifies)
      (fun r l' => Service.Justified c.Justifies l' ∧
        ∀ record, r = .ok record → l' = l ++ [.found record])
      (getCallByChannel channel) l := by
  have hfound : (overlapping CallMessage.body).Noting rowNote (Service.Justified c.Justifies)
      (fun r l' => ∀ record, r = .ok record → l' = l ++ [.found record])
      (getCallByChannel channel) l :=
    noting_one (fun _ => rfl) (fun _ => rfl) hl fun record => hl.concat trivial
  exact hfound.keeps hl

theorem noting_onNewState (hc : c.kind = .newstate) (hl : Service.Justified c.Justifies l) :
    (overlapping CallMessage.body).Noting rowNote (Service.Justified c.Justifies) (fun _ _ => True)
      (onNewState c.message) l := by
  unfold onNewState
  split
  · trivial
  · rename_i channel hchannel
    refine (noting_getCallByChannel hl channel).bind ?_ fun _ _ _ => trivial
    rintro record l' ⟨hl', -⟩
    cases record with
    | none => trivial
    | some record =>
      dsimp only
      split
      · trivial
      · rename_i status event hstate
        refine (noting_guarded (by simp [hc]) hl' (.inl (stateStatus_terminal hstate))).bind ?_
          fun _ _ _ => trivial
        rintro b l'' ⟨hl'', -⟩
        exact (noting_addEvent hl'' _ _ _).mono fun _ _ _ => trivial

/-- `Hangup` writes only if the record of its channel was in progress. -/
theorem noting_onHangup (hc : c.kind = .hangup) (hl : Service.Justified c.Justifies l) :
    (overlapping CallMessage.body).Noting rowNote (Service.Justified c.Justifies) (fun _ _ => True)
      (onHangup c.message) l := by
  unfold onHangup
  split
  · trivial
  · rename_i channel hchannel
    refine (noting_getCallByChannel hl channel).bind ?_ fun _ _ _ => trivial
    rintro record l' ⟨hl', hnote⟩
    obtain rfl := hnote record rfl
    cases record with
    | none => trivial
    | some record =>
      refine (noting_addEvent hl' _ _ _).bind ?_ fun _ _ _ => trivial
      rintro _ _ rfl
      split
      · trivial
      · rename_i hprogress
        refine (noting_update hl' ?_).bind (fun _ _ _ => trivial) fun _ _ _ => trivial
        -- it decides on `record`, read by channel, not on the row that `update_call_status` reads
        intro row _
        refine ⟨record, ⟨.found (some record), by simp, by simp [CallMessage.Decides, hc]⟩, ?_⟩
        intro hcompleted
        rw [hcompleted] at hprogress
        exact absurd rfl hprogress

/-- A guarded update and the line of the timeline after it. -/
theorem noting_guarded_addEvent (hc : c.kind ≠ .hangup) (hl : Service.Justified c.Justifies l)
    {requestId : String} {status : Status} {u : StatusFields}
    (hstatus : status.terminal = false ∨ status = .completed) (event : EventName)
    (detail : Option String) :
    (overlapping CallMessage.body).Noting rowNote (Service.Justified c.Justifies)
      (fun r l' => r = .ok () → ∃ b, UpdateNotes requestId status u l b l')
      (updateCallStatus requestId status u >>= fun _ => addEvent requestId event detail) l := by
  refine (noting_guarded hc hl hstatus).bind ?_ ?_
  · rintro b l' ⟨hl', hnotes⟩
    refine (noting_addEvent hl' requestId event detail).mono ?_
    rintro r _ rfl -
    exact ⟨b, hnotes b rfl⟩
  · intro x l' _ hr
    cases hr

theorem noting_onUserEvent (hc : c.kind = .userEvent) :
    (overlapping CallMessage.body).Noting rowNote (Service.Justified c.Justifies) c.Ends
      (onUserEvent c.message) [] := by
  have hother : c.kind ≠ .hangup := by simp [hc]
  have hstart : Service.Justified c.Justifies [] := Service.Justified.nil _
  unfold onUserEvent
  split
  · rename_i hid
    rintro requestId ⟨-, -, hplays⟩ -
    cases hid.symm.trans hplays
  · rename_i requestId hid
    -- a message with another event is not the end of a playback
    have hends : ∀ {r : Except Exc Unit} {l : List RowNote},
        dialplanEvent c.message ≠ some .playbackComplete → c.Ends r l := by
      rintro r l hevent requestId' ⟨-, hplays, -⟩ -
      exact absurd hplays hevent
    split
    · rename_i hevent
      split
      · refine (noting_guarded_addEvent hother hstart (.inl rfl) _ _).mono ?_
        exact fun _ _ _ => hends (by simp [hevent])
      · refine (noting_addEvent hstart _ _ _).mono ?_
        exact fun _ _ _ => hends (by simp [hevent])
    · rename_i hevent
      refine (noting_guarded_addEvent hother hstart (.inl rfl) _ _).mono ?_
      exact fun _ _ _ => hends (by simp [hevent])
    · refine (noting_guarded_addEvent hother hstart (.inr rfl) _ _).mono ?_
      rintro r l hnotes requestId' ⟨-, -, hplays⟩ hr
      cases hid.symm.trans hplays
      exact hnotes hr
    · rename_i hevent
      exact hends (by simp [hevent])

theorem noting_dispatch (c : CallMessage) :
    (overlapping CallMessage.body).Noting rowNote (Service.Justified c.Justifies) c.Ends c.body
      [] := by
  have hstart : Service.Justified c.Justifies [] := Service.Justified.nil _
  have hends : ∀ {r : Except Exc Unit} {l : List RowNote}, c.kind ≠ .userEvent → c.Ends r l := by
    rintro r l hkind requestId ⟨hplays, -⟩ -
    exact absurd hplays hkind
  unfold CallMessage.body
  cases hc : c.kind with
  | originateResponse =>
    exact (noting_onOriginateResponse hc hstart).mono fun _ _ _ => hends (by simp [hc])
  | newchannel => exact hends (by simp [hc])
  | newstate => exact (noting_onNewState hc hstart).mono fun _ _ _ => hends (by simp [hc])
  | hangup => exact (noting_onHangup hc hstart).mono fun _ _ _ => hends (by simp [hc])
  | userEvent => exact noting_onUserEvent hc

end Noting

/-! ## The steps of a run -/

/-- The status of a record after the first `n` commands of a run. -/
def statusAt (w₀ : World) (tr : List (ℕ × Ev)) (n : ℕ) (requestId : String) : Option Status :=
  (recordAt CallMessage.body w₀ tr n requestId).map CallRecord.status

/-- Handler `i` writes `status` to the record at position `n`. -/
def WritesAt (tr : List (ℕ × Ev)) (n i : ℕ) (requestId : String) (status : Status) : Prop :=
  ∃ u now, Ran tr n i (.updateCall (updateFields u) (updateValues status now u) requestId)

/-- Handler `i`, for the message `c`, decides on the record at position `m`. -/
def DecidesAt (w₀ : World) (tr : List (ℕ × Ev)) (m i : ℕ) (c : CallMessage)
    (requestId : String) : Prop :=
  if c.kind = .hangup then ∃ channel row, Ran tr m i (.selectByChannel channel) ∧
    newestOfChannel ((overlapping CallMessage.body).worldAfter w₀ tr m).store.calls channel =
      some row ∧ row.requestId = requestId
  else Ran tr m i (.selectCall requestId)

section Runs

variable {w₀ : World} {acts : List (Act Env CallMessage)} {m n i : ℕ} {requestId : String}

theorem decidesAt_of_decides {c : CallMessage} {row : CallRecord} {ev : Ev} {y : RowNote}
    (hx : (handlerRun w₀ acts).trace[m]? = some (i, ev)) (hnote : rowNote ev = some y)
    (hy : c.Decides requestId row y) :
    DecidesAt w₀ (handlerRun w₀ acts).trace m i c requestId ∧
      recordAt CallMessage.body w₀ (handlerRun w₀ acts).trace m requestId = some row := by
  unfold CallMessage.Decides at hy
  unfold DecidesAt
  split at hy
  · rename_i hc
    obtain ⟨rfl, rfl⟩ := hy
    obtain ⟨channel, hran, hrow⟩ := ran_of_found hx hnote
    rw [if_pos hc]
    exact ⟨⟨channel, row, hran, hrow.symm, rfl⟩, (mem_of_newestOfChannel hrow.symm).1⟩
  · rename_i hc
    subst hy
    obtain ⟨hran, hrow⟩ := ran_of_read hx hnote
    rw [if_neg hc]
    exact ⟨hran, hrow.symm⟩

/-- Every executed `UPDATE` was decided on a record that its handler had read before; if that record
was completed, it writes `completed`. -/
theorem decided_of_ran {fields : List Column} {values : List SqlValue}
    (h : Ran (handlerRun w₀ acts).trace n i (.updateCall fields values requestId)) :
    ∃ c status u now m row, (handlerRun w₀ acts).opOf i = some c ∧ fields = updateFields u ∧
      values = updateValues status now u ∧ m < n ∧
      DecidesAt w₀ (handlerRun w₀ acts).trace m i c requestId ∧
      recordAt CallMessage.body w₀ (handlerRun w₀ acts).trace m requestId = some row ∧
      (row.status = .completed → status = .completed) := by
  obtain ⟨ev, hx, hnote⟩ := rowNote_of_ran h
  obtain ⟨c, hop, status, u, now, row, hfields, hvalues, ⟨y, hy, hdecides⟩, hstatus⟩ :=
    Service.run_justified noting_dispatch w₀ acts hx hnote
  obtain ⟨m, ev', hmn, hx', hnote'⟩ := Service.exists_lt_of_mem_notes hy
  obtain ⟨hdecided, hrow⟩ := decidesAt_of_decides hx' hnote' hdecides
  exact ⟨c, status, u, now, m, row, hop, hfields, hvalues, hmn, hdecided, hrow, hstatus⟩

theorem updateValues_inj {status status' : Status} {now now' : Time} {u u' : StatusFields}
    (h : updateValues status now u = updateValues status' now' u') : status = status' := by
  have hhead : some (SqlValue.status status) = some (SqlValue.status status') :=
    congrArg List.head? h
  exact SqlValue.status.inj (Option.some.inj hhead)

/-- What a handler writes was decided on a record that it had read before; on a completed one it
writes `completed`. -/
theorem WritesAt.decided {status : Status}
    (h : WritesAt (handlerRun w₀ acts).trace n i requestId status) :
    ∃ c m row, (handlerRun w₀ acts).opOf i = some c ∧ m < n ∧
      DecidesAt w₀ (handlerRun w₀ acts).trace m i c requestId ∧
      recordAt CallMessage.body w₀ (handlerRun w₀ acts).trace m requestId = some row ∧
      (row.status = .completed → status = .completed) := by
  obtain ⟨u, now, hran⟩ := h
  obtain ⟨c, status', u', now', m, row, hop, -, hvalues, hmn, hdecides, hrow, hkeeps⟩ :=
    decided_of_ran hran
  obtain rfl := updateValues_inj hvalues
  exact ⟨c, m, row, hop, hmn, hdecides, hrow, hkeeps⟩

/-- A position with an `UPDATE` is not one with a decision. -/
theorem DecidesAt.ne {j : ℕ} {c : CallMessage} {status : Status}
    (h : DecidesAt w₀ (handlerRun w₀ acts).trace m j c requestId)
    (h' : WritesAt (handlerRun w₀ acts).trace n i requestId status) : m ≠ n := by
  rintro rfl
  obtain ⟨u, now, hran⟩ := h'
  unfold DecidesAt at h
  split at h
  · obtain ⟨channel, row, hselect, -, -⟩ := h
    cases (hselect.unique hran).2
  · cases (h.unique hran).2

theorem handlers_kinds : ∀ x ∈ (handlerRun w₀ acts).trace, x.2.cmd.kind ∈ handlerKinds := by
  rintro ⟨i, ev⟩ hx
  have hbody : ∀ c : CallMessage, Touches handlerKinds c.body := by
    intro c
    exact touches_dispatch c.kind c.message
  obtain ⟨c, -, hkind⟩ := Service.run_uses (overlapping CallMessage.body) hbody w₀ acts hx
  exact hkind

/-- What one command does to the status of a record if nothing rolls back: nothing, or the `UPDATE`
of a handler. -/
theorem statusAt_step (hkeeps : NoRollbacks acts) (n : ℕ) (requestId : String) :
    let tr := (handlerRun w₀ acts).trace
    statusAt w₀ tr (n + 1) requestId = statusAt w₀ tr n requestId ∨
      ∃ i status, WritesAt tr n i requestId status ∧
        statusAt w₀ tr (n + 1) requestId = (statusAt w₀ tr n requestId).map fun _ => status := by
  intro tr
  have hkinds : ∀ x ∈ tr, x.2.cmd.kind ∉ [Kind.insertCall, .countRetry] := by
    intro x hx hinsert
    have hkind := handlers_kinds x hx
    revert hkind hinsert
    cases x.2.cmd.kind <;> simp [handlerKinds]
  rcases recordAt_step (NoRollbacks.held hkeeps) hkinds n requestId with
    h | ⟨i, fields, values, hran, h⟩ | ⟨i, now, row, ⟨ev, hx, hcmd, -⟩, -, -, -⟩
  · exact .inl (congrArg (Option.map CallRecord.status) h)
  · obtain ⟨c, status, u, now, m, row, -, rfl, rfl, -, -, -, -⟩ := decided_of_ran hran
    refine .inr ⟨i, status, ⟨u, now, hran⟩, ?_⟩
    unfold statusAt
    rw [h, Option.map_map, Option.map_map]
    simp only [funext (updateRow_eq_updated status now u)]
    rfl
  · -- no handler deletes records
    have hkind := handlers_kinds _ (List.mem_of_getElem? hx)
    rw [hcmd] at hkind
    simp [handlerKinds, Cmd.kind, Stmt.kind] at hkind

/-- An `UPDATE` of a record that is there gives it its status. -/
theorem WritesAt.status {status : Status}
    (h : WritesAt (handlerRun w₀ acts).trace n i requestId status)
    (hexists : (statusAt w₀ (handlerRun w₀ acts).trace n requestId).isSome) :
    statusAt w₀ (handlerRun w₀ acts).trace (n + 1) requestId = some status := by
  obtain ⟨u, now, hran⟩ := h
  unfold statusAt at hexists ⊢
  rw [Option.isSome_map] at hexists
  obtain ⟨row, hrow⟩ := Option.isSome_iff_exists.1 hexists
  rw [hran.updates hrow]
  rfl

/-- No handler removes a record. -/
theorem statusAt_isSome (hkeeps : NoRollbacks acts)
    (h : (w₀.store.calls.find requestId).isSome) (n : ℕ) :
    (statusAt w₀ (handlerRun w₀ acts).trace n requestId).isSome := by
  induction n with
  | zero =>
    unfold statusAt
    rw [Option.isSome_map]
    exact h
  | succ n ih =>
    rcases statusAt_step hkeeps n requestId with hstep | ⟨i, status, -, hstep⟩
    · rw [hstep]
      exact ih
    · rw [hstep, Option.isSome_map]
      exact ih

/-- No handler that has decided on the record before position `n` writes a status other than
`completed` to it after `n`. -/
def NotOverridden (w₀ : World) (acts : List (Act Env CallMessage)) (n : ℕ) (requestId : String) :
    Prop :=
  ∀ m k i c status, (handlerRun w₀ acts).opOf i = some c → m < n → n < k →
    DecidesAt w₀ (handlerRun w₀ acts).trace m i c requestId →
      WritesAt (handlerRun w₀ acts).trace k i requestId status → status = .completed

/-- A completed record stays completed where no earlier decision overrides it. The induction is
over all later positions: a decision between `n` and an `UPDATE` was made on a completed record. -/
theorem completed_kept (hkeeps : NoRollbacks acts) (h : NotOverridden w₀ acts n requestId)
    (hwrite : WritesAt (handlerRun w₀ acts).trace n i requestId .completed)
    (hexists : (w₀.store.calls.find requestId).isSome) {k : ℕ} (hnk : n < k) :
    statusAt w₀ (handlerRun w₀ acts).trace k requestId = some .completed := by
  induction k using Nat.strong_induction_on with
  | _ k ih =>
    obtain ⟨k, rfl⟩ := Nat.exists_eq_succ_of_ne_zero (Nat.ne_of_gt (Nat.zero_lt_of_lt hnk))
    rcases Nat.eq_or_lt_of_le (Nat.le_of_lt_succ hnk) with rfl | hlt
    · exact hwrite.status (statusAt_isSome hkeeps hexists n)
    · have hbefore := ih k (Nat.lt_succ_self k) hlt
      rcases statusAt_step hkeeps k requestId with hstep | ⟨j, status, hwrite', hstep⟩
      · exact hstep.trans hbefore
      · obtain ⟨c, m, row, hop, hmk, hdecides, hrow, hkeeps⟩ := hwrite'.decided
        have hstatus : status = .completed := by
          -- decided before the record was completed, or on the completed record
          rcases Nat.lt_or_gt_of_ne (hdecides.ne hwrite) with hmn | hmn
          · exact h m k j c status hop hmn hlt hdecides hwrite'
          · have hcompleted := ih m (Nat.lt_succ_of_lt hmk) hmn
            rw [statusAt, hrow] at hcompleted
            exact hkeeps (Option.some.inj hcompleted)
        rw [hstep, hbefore, hstatus]
        rfl

theorem notOverridden_of_completed
    (h : ∀ k, n < k → statusAt w₀ (handlerRun w₀ acts).trace k requestId = some .completed) :
    NotOverridden w₀ acts n requestId := by
  intro m k j c status _ _ hnk _ hwrite
  have hexists : (statusAt w₀ (handlerRun w₀ acts).trace k requestId).isSome := by
    rw [h k hnk]
    rfl
  have hafter := hwrite.status hexists
  exact Option.some.inj (hafter.symm.trans (h (k + 1) (Nat.lt_succ_of_lt hnk)))

/-- A handled `OTPPlaybackComplete` has written `completed`. -/
theorem writes_of_played (hkeeps : NoRollbacks acts) {c : CallMessage} (hc : c.plays requestId)
    (hended : (handlerRun w₀ acts).outcome i = some (c, .ok ()))
    (hexists : (w₀.store.calls.find requestId).isSome) :
    ∃ n, WritesAt (handlerRun w₀ acts).trace n i requestId .completed := by
  obtain ⟨b, hnotes⟩ :=
    Service.run_noting_ended noting_dispatch w₀ acts hended requestId hc rfl
  generalize hl : (ownEvents i (handlerRun w₀ acts).trace).filterMap rowNote = l at hnotes
  cases hnotes with
  -- the record has been there from the start, and the guard lets `completed` through
  | absent =>
    have hmem : .read requestId none ∈
        (ownEvents i (handlerRun w₀ acts).trace).filterMap rowNote := by simp [hl]
    obtain ⟨m, ev, hx, hnote⟩ := Service.exists_of_mem_notes hmem
    obtain ⟨-, hrow⟩ := ran_of_read hx hnote
    have hsome : (statusAt w₀ (handlerRun w₀ acts).trace m requestId).isSome :=
      statusAt_isSome hkeeps hexists m
    rw [statusAt, ← hrow] at hsome
    cases hsome
  | refused hguard => simp [Status.goesBack, Status.terminal, terminalStatuses] at hguard
  | @written row now hguard =>
    have hmem : .wrote (updateFields {}) (updateValues .completed now {}) requestId ∈
        (ownEvents i (handlerRun w₀ acts).trace).filterMap rowNote := by simp [hl]
    obtain ⟨n, ev, hx, hnote⟩ := Service.exists_of_mem_notes hmem
    exact ⟨n, {}, now, ran_of_wrote hx hnote⟩

/-- In a run in which nothing rolls back: after an `OTPPlaybackComplete` has been handled, the
record of its call stays `completed` exactly if no handler that has decided on the record before the
`UPDATE` writes another status after it. -/
theorem playback_completed_iff (w₀ : World) (acts : List (Act Env CallMessage))
    (hkeeps : NoRollbacks acts) {i : ℕ}
    {c : CallMessage} {requestId : String} (hc : c.plays requestId)
    (hended : (handlerRun w₀ acts).outcome i = some (c, .ok ()))
    (hexists : (w₀.store.calls.find requestId).isSome) :
    ∃ n, WritesAt (handlerRun w₀ acts).trace n i requestId .completed ∧
      ((∀ k, n < k → statusAt w₀ (handlerRun w₀ acts).trace k requestId = some .completed) ↔
        NotOverridden w₀ acts n requestId) := by
  obtain ⟨n, hwrite⟩ := writes_of_played hkeeps hc hended hexists
  refine ⟨n, hwrite, notOverridden_of_completed, ?_⟩
  intro h k hnk
  exact completed_kept hkeeps h hwrite hexists hnk

end Runs

/-! ## Two races -/

/-- The end of the playback. -/
def playedMessage : CallMessage :=
  ⟨.userEvent, playbackComplete firstId.text, by intro h; cases h⟩

/-- The start of the playback. -/
def startedMessage : CallMessage :=
  ⟨.userEvent, playbackStart firstId.text, by intro h; cases h⟩

/-- A hangup with cause 17. -/
def busyMessage : CallMessage :=
  ⟨.hangup, hangup sampleChannel "17", by intro h; cases h⟩

/-- The first handler executes its first statement before the second one starts, and the rest of its
statements after the second one has ended. -/
def overtakingRun (first second : CallMessage) : List (Act Env CallMessage) :=
  let calm : Env := .calm 1 firstId []
  [.arrive first, .arrive second, .turn 0 calm] ++ List.replicate 5 (.turn 1 calm) ++
    List.replicate 5 (.turn 0 calm)

theorem playedMessage_plays : playedMessage.plays firstId.text :=
  ⟨rfl, by decide, by decide⟩

theorem playback_completed_iff_hangup :
    ∃ n, WritesAt (handlerRun answeredWorld (overtakingRun playedMessage busyMessage)).trace n 0
        firstId.text .completed ∧
      ((∀ k, n < k → statusAt answeredWorld (handlerRun answeredWorld
          (overtakingRun playedMessage busyMessage)).trace k firstId.text = some .completed) ↔
        NotOverridden answeredWorld (overtakingRun playedMessage busyMessage) n firstId.text) := by
  have hended : (handlerRun answeredWorld (overtakingRun playedMessage busyMessage)).outcome 0 =
      some (playedMessage, .ok ()) := by decide +kernel
  exact playback_completed_iff answeredWorld _ (by simp [overtakingRun]) playedMessage_plays hended
    (by decide)

/-- A `Hangup` that has read the record before the end of the playback overrides `completed`, and so
does the handler of the start of the playback. -/
theorem hangup_overrides_completed :
    let s := handlerRun answeredWorld (overtakingRun busyMessage playedMessage)
    let s' := handlerRun answeredWorld (overtakingRun startedMessage playedMessage)
    (s.outcome 0 = some (busyMessage, .ok ()) ∧ s.outcome 1 = some (playedMessage, .ok ()) ∧
      statusAt answeredWorld s.trace s.trace.length firstId.text = some .busy) ∧
    (s'.outcome 0 = some (startedMessage, .ok ()) ∧ s'.outcome 1 = some (playedMessage, .ok ()) ∧
      statusAt answeredWorld s'.trace s'.trace.length firstId.text = some .playing) := by
  decide +kernel

end OtpVoice
