import OtpVoice.Api.Children
import OtpVoice.Coroutine.Order
import OtpVoice.Service.Channels
import OtpVoice.Service.Lines
import OtpVoice.Service.LiveCall
import OtpVoice.Storage.Views

/-!
# The timeline of a record only grows

Lines are written by many coroutines, read in the order of their times, and deleted by the second
statement of the cleanup. `timeline_grows`: with a clock that does not go back, and a request id
that nobody else knows before its record has been created, each result of `get_events` is a first
part of every later one, as long as the record exists, and begins with `queued`.
-/

set_option autoImplicit false

namespace OtpVoice

open Coroutine

/-! ## Statements and lines -/

/-- The lines of a record, in the order of their insertion. -/
def Store.lines (st : Store) (requestId : String) : List EventRow :=
  st.events.filter fun ev => ev.requestId = requestId

theorem lines_insertEvent (st : Store) {row : EventRow} {requestId : String}
    (hid : row.requestId = requestId) :
    ((Stmt.insertEvent row).exec st).2.lines requestId = st.lines requestId ++ [row] := by
  simp [Store.lines, Stmt.exec, hid]

/-- A statement adds one line to a timeline, or leaves a part of it. -/
theorem lines_exec (st : Store) (s : Stmt) (requestId : String) :
    List.Sublist ((s.exec st).2.lines requestId) (st.lines requestId) ∨
      ∃ row, s = .insertEvent row ∧ row.requestId = requestId ∧
        (s.exec st).2.lines requestId = st.lines requestId ++ [row] := by
  cases s with
  | insertCall row =>
    left
    simp only [Stmt.exec]
    split <;> exact List.Sublist.refl _
  | insertEvent row =>
    by_cases hid : row.requestId = requestId
    · exact .inr ⟨row, rfl, hid, lines_insertEvent st hid⟩
    · left
      simp [Store.lines, Stmt.exec, hid]
  | deleteOrphanEvents =>
    left
    exact List.Sublist.filter _ List.filter_sublist
  | _ => exact .inl (List.Sublist.refl _)

/-- The lines of a record that stays are kept. -/
theorem lines_exec_kept {st : Store} {s : Stmt} {requestId : String}
    (h : ((s.exec st).2.calls.find requestId).isSome = true) :
    st.lines requestId <+: (s.exec st).2.lines requestId := by
  cases s with
  | insertCall row =>
    simp only [Stmt.exec]
    split <;> exact List.prefix_refl _
  | insertEvent row =>
    simp only [Store.lines, Stmt.exec, List.filter_append]
    exact List.prefix_append _ _
  | deleteOrphanEvents =>
    have hkept : (Stmt.deleteOrphanEvents.exec st).2.lines requestId = st.lines requestId := by
      simp only [Store.lines, Stmt.exec, List.filter_filter]
      apply List.filter_congr
      intro ev _
      by_cases hid : ev.requestId = requestId
      · have hfind : (st.calls.find ev.requestId).isSome = true := hid ▸ h
        simp [hfind]
      · simp [hid]
    rw [hkept]
  | _ => exact List.prefix_refl _

/-- The lines of a record are kept as long as the record is there and nothing rolls back. The
induction is on the commands. -/
theorem lines_kept {In Op Out : Type} {S : Service Cmd Cmd.Resp Exc Env World In Op Out}
    (hS : S.respond = World.respond) (w₀ : World) {tr : List (ℕ × Ev)} (hheld : NothingUndone tr)
    {m n : ℕ} (hmn : m ≤ n)
    {requestId : String} (hthere : ∀ k, m < k → k ≤ n →
      ((S.worldAfter w₀ tr k).store.calls.find requestId).isSome = true) :
    (S.worldAfter w₀ tr m).store.lines requestId <+:
      (S.worldAfter w₀ tr n).store.lines requestId := by
  induction n, hmn using Nat.le_induction with
  | base => exact List.prefix_refl _
  | succ n hmn ih =>
    have hbefore := ih fun k hmk hkn => hthere k hmk (hkn.trans (Nat.le_succ n))
    have hstays := hthere (n + 1) (Nat.lt_succ_of_le hmn) le_rfl
    refine hbefore.trans ?_
    rcases store_step hS w₀ hheld n with hkeep | ⟨i, s, -, hstore⟩
    · rw [hkeep]
    · rw [hstore] at hstays ⊢
      exact lines_exec_kept hstays

/-- Lines in the order of their times are returned in this order. -/
theorem timeline_eq_lines {st : Store} {requestId : String}
    (h : (st.lines requestId).Pairwise fun a b => a.atTime ≤ b.atTime) :
    st.timeline requestId = st.lines requestId :=
  List.Pairwise.insertionSort_eq h

/-! ## Channels and names -/

/-- A record is created without a channel, and gets one from an operation that names it. -/
def Op.BindsNamed (op : Op) : Stmt → Prop
  | .insertCall row => row.channel = none
  | .updateCall fields _ requestId => .channel ∈ fields → op.Names requestId
  | _ => True

/-- A command whose statement binds only what the operation names. -/
def Cmd.BindsNamed (op : Op) (c : Cmd) : Prop := ∀ s, c = .execute s → op.BindsNamed s

theorem bindsNamed_of_touches {α : Type} {op : Op} {ks : List Kind} {p : Prog α}
    (hp : Touches ks p) (hks : ks.all (fun k => k ∉ [Kind.insertCall, .updateCall]) = true) :
    Coro.Uses (Cmd.BindsNamed op) p := by
  refine Coro.Uses.mono ?_ hp
  rintro c hc s rfl
  have hkind := of_decide_eq_true (List.all_eq_true.1 hks _ hc)
  cases s <;> first
    | exact True.intro
    | exact absurd (by simp [Cmd.kind, Stmt.kind]) hkind

theorem bindsNamed_updateCallStatus {op : Op} {requestId : String} (h : op.Names requestId)
    (status : Status) (u : StatusFields) :
    Coro.Uses (Cmd.BindsNamed op) (updateCallStatus requestId status u) := by
  apply (bindsNamed_of_touches (touches_getCallRecord requestId) (by decide)).bind
  intro record
  cases record with
  | none => trivial
  | some record =>
    dsimp only
    split
    · trivial
    · apply (bindsNamed_of_touches touches_time (by decide)).bind
      intro now
      refine Coro.Uses.bind (Coro.Uses.perform ?_) fun _ => ?_
      · rintro s ⟨⟩
        exact fun _ => h
      · exact (bindsNamed_of_touches touches_commit (by decide)).bind fun _ => trivial

/-- The handler of a `UserEvent` updates the record that its message names. -/
theorem bindsNamed_onUserEvent {op : Op} {message : Message}
    (h : ∀ requestId, userEventRequestId message = some requestId → op.Names requestId) :
    Coro.Uses (Cmd.BindsNamed op) (onUserEvent message) := by
  have hline : ∀ requestId event detail,
      Coro.Uses (Cmd.BindsNamed op) (addEvent requestId event detail) := fun _ _ _ =>
    bindsNamed_of_touches (touches_addEvent _ _ _) (by decide)
  unfold onUserEvent
  cases hid : userEventRequestId message with
  | none => trivial
  | some requestId =>
    have hupdate := fun status u => bindsNamed_updateCallStatus (h requestId hid) status u
    dsimp only
    split
    · split
      · exact (hupdate _ _).bind fun _ => hline _ _ _
      · exact hline _ _ _
    · exact (hupdate _ _).bind fun _ => hline _ _ _
    · exact (hupdate _ _).bind fun _ => hline _ _ _
    · trivial

theorem uses_bindsNamed (o : CallOriginator) (op : Op) :
    Coro.Uses (Cmd.BindsNamed op) (op.body o) := by
  cases hop : op.binds with
  | none =>
    have hplain : Coro.Uses (Cmd.Plain [.queued, .originating, .originateResponse, .ringing,
        .answered, .dialplanStart, .playing, .playbackComplete, .hangup, .failed]) (op.body o) :=
      uses_plain o hop (by decide) (fun _ _ => by decide) fun _ _ d => by cases d <;> decide
    refine Coro.Uses.mono ?_ hplain
    rintro c hc s rfl
    cases s with
    | insertCall row => exact hc
    | updateCall fields values requestId => exact fun h => absurd h hc
    | _ => trivial
  | some x =>
    unfold Op.binds at hop
    split at hop
    · rename_i message
      have hnames : ∀ requestId, userEventRequestId message = some requestId →
          (Op.input (.amiEvent .userEvent message)).Names requestId := fun _ hid => Or.inl hid
      exact (bindsNamed_onUserEvent hnames).bind fun _ => trivial
    · cases hop

/-! ## Runs -/

/-- The record of a `get_events`, and the lines that it returns. -/
def linesRead : (c : Cmd) → Except Exc c.Resp → Option (String × List EventRow)
  | .execute (.selectEvents requestId), .ok lines => some (requestId, lines)
  | _, _ => none

/-- The record whose line `queued` has been written. -/
def opened : TimelineNote → Option String
  | .line row => if row.event = .queued then some row.requestId else none
  | _ => none

section Runs

variable (o : CallOriginator) (w₀ : World) (acts : List Turn)

/-- The commands of the interleaved run. -/
abbrev commands : List (ℕ × Ev) := ((interleaved o).run (Config.initial w₀) acts).trace

/-- The tables after the first `n` commands of the interleaved run. -/
def tablesAt (n : ℕ) : Store := ((interleaved o).worldAfter w₀ (commands o w₀ acts) n).store

variable {acts} in
/-- A command keeps the tables, or executes a statement, if nothing rolls back. -/
theorem tablesAt_step (hkeeps : NoRollbacks acts) (n : ℕ) :
    tablesAt o w₀ acts (n + 1) = tablesAt o w₀ acts n ∨
    ∃ i s, Ran (commands o w₀ acts) n i s ∧
      tablesAt o w₀ acts (n + 1) = (s.exec (tablesAt o w₀ acts n)).2 :=
  store_step (S := interleaved o) rfl w₀ hkeeps.held n

/-- The `n`-th command writes the line `queued` of the record. -/
def Opens (n : ℕ) (requestId : String) : Prop :=
  ((commands o w₀ acts)[n]?.bind fun x => opened (TimelineNote.of x.2.cmd x.2.res)) = some requestId

/-- `create_call_record` has written the line `queued`, its last statement, among the first `n`
commands. -/
def Created (n : ℕ) (requestId : String) : Prop := ∃ m < n, Opens o w₀ acts m requestId

/-- The request id is secret until its record has been created: the tables at startup do not have
it, no id is drawn twice, and a message or a reply of Asterisk that has it comes after the
creation. -/
structure Secret (requestId : String) : Prop where
  row : w₀.store.calls.find requestId = none
  lines : ∀ ev ∈ w₀.store.events, ev.requestId ≠ requestId
  draws : ((commands o w₀ acts).filterMap fun x => drawnId x.2).Nodup
  messages : ∀ k kind message, acts[k]? = some (.arrive (.amiEvent kind message)) →
    message.Names requestId →
      Created o w₀ acts ((interleaved o).confAt w₀ acts k).trace.length requestId
  replies : ∀ n i ev reply, (commands o w₀ acts)[n]? = some (i, ev) →
    TimelineNote.of ev.cmd ev.res = .replied reply → ∀ message, some message ∈ reply.messages →
      message.Names requestId → Created o w₀ acts n requestId

/-- The record exists after the first `n` commands, and its creation has written its first line. -/
def Live (n : ℕ) (requestId : String) : Prop :=
  ((tablesAt o w₀ acts n).calls.find requestId).isSome = true ∧ Created o w₀ acts n requestId

/-- The `n`-th command is a `get_events` of the record that returns the given lines. -/
def ReadsLines (n : ℕ) (requestId : String) (lines : List EventRow) : Prop :=
  ((commands o w₀ acts)[n]?.bind fun x => linesRead x.2.cmd x.2.res) = some (requestId, lines)

variable {o w₀ acts} {n i : ℕ} {requestId : String}

theorem opens_iff : Opens o w₀ acts n requestId ↔ ∃ i ev row,
    (commands o w₀ acts)[n]? = some (i, ev) ∧ TimelineNote.of ev.cmd ev.res = .line row ∧
      row.requestId = requestId ∧ row.event = .queued := by
  unfold Opens
  rw [Option.bind_eq_some_iff]
  constructor
  · rintro ⟨⟨i, ev⟩, hx, hopened⟩
    unfold opened at hopened
    split at hopened
    · rename_i row hline
      split at hopened
      · rename_i hqueued
        exact ⟨i, ev, row, hx, hline, Option.some.inj hopened, hqueued⟩
      · cases hopened
    · cases hopened
  · rintro ⟨i, ev, row, hx, hline, rfl, hqueued⟩
    refine ⟨_, hx, ?_⟩
    simp only [hline, opened, if_pos hqueued]

theorem Created.mono {m : ℕ} (h : Created o w₀ acts m requestId) (hmn : m ≤ n) :
    Created o w₀ acts n requestId := by
  obtain ⟨q, hq, hopens⟩ := h
  exact ⟨q, hq.trans_le hmn, hopens⟩

/-- A `get_events` returns the timeline. -/
theorem ReadsLines.eq_timeline {lines : List EventRow}
    (h : ReadsLines o w₀ acts n requestId lines) :
    lines = (tablesAt o w₀ acts n).timeline requestId := by
  obtain ⟨⟨i, e, k, c, r⟩, hx, hread⟩ := Option.bind_eq_some_iff.1 h
  simp only at hread
  unfold linesRead at hread
  split at hread <;> cases hread
  have hanswer := Service.trace_answers (interleaved o) w₀ acts hx
  replace hanswer : (.ok lines : Except Exc (List EventRow)) =
      (World.respond e k _ (.execute (.selectEvents requestId))).1 := hanswer
  cases hfault : e.fault k with
  | some text =>
    rw [World.respond_fault hfault] at hanswer
    cases hanswer
  | none =>
    rw [World.respond_execute hfault] at hanswer
    exact Except.ok.inj hanswer

/-- The line that a command has written. -/
theorem line_of_ran {row : EventRow} (h : Ran (commands o w₀ acts) n i (.insertEvent row)) :
    ∃ ev, (commands o w₀ acts)[n]? = some (i, ev) ∧ TimelineNote.of ev.cmd ev.res = .line row := by
  obtain ⟨⟨e, k, c, r⟩, hx, hcmd, hfault⟩ := h
  obtain rfl : c = .execute (.insertEvent row) := hcmd
  have hanswer := Service.trace_answers (interleaved o) w₀ acts hx
  replace hanswer : r = (World.respond e k _ (.execute (.insertEvent row))).1 := hanswer
  rw [World.respond_execute hfault] at hanswer
  refine ⟨_, hx, ?_⟩
  rw [hanswer]
  rfl

theorem ran_of_line {ev : Ev} {row : EventRow} (hx : (commands o w₀ acts)[n]? = some (i, ev))
    (hline : TimelineNote.of ev.cmd ev.res = .line row) :
    Ran (commands o w₀ acts) n i (.insertEvent row) := by
  obtain ⟨e, k, c, r⟩ := ev
  simp only at hline
  unfold TimelineNote.of at hline
  split at hline <;> cases hline
  have hanswer := Service.trace_answers (interleaved o) w₀ acts hx
  cases hfault : e.fault k with
  | none => exact ⟨_, hx, rfl, hfault⟩
  | some text =>
    replace hanswer := hanswer.trans (congrArg Prod.fst (World.respond_fault hfault _ _))
    cases hanswer

/-- The record that an operation has stored has been inserted. -/
theorem inserted_of_stored {ev : Ev} (h : TimelineNote.of ev.cmd ev.res = .stored requestId) :
    ∃ new, familyNote ev = some (.inserted new) ∧ new.requestId = requestId := by
  obtain ⟨e, k, c, r⟩ := ev
  simp only at h
  unfold TimelineNote.of at h
  split at h <;> cases h
  exact ⟨_, rfl, rfl⟩

/-- What the operation of a thread knows when it writes a line, and the clock reading right before
the line. -/
theorem line_at {row : EventRow} (h : Ran (commands o w₀ acts) n i (.insertEvent row)) :
    ∃ op m ev, ((interleaved o).run (Config.initial w₀) acts).opOf i = some op ∧ n = m + 1 ∧
      (commands o w₀ acts)[m]? = some (i, ev) ∧ clockReading ev = some row.atTime ∧
      (op.Knows ((ownEvents i ((commands o w₀ acts).take n)).filterMap timelineNote) row.requestId ∨
        row.event = .queued ∧ .stored row.requestId ∈
          (ownEvents i ((commands o w₀ acts).take n)).filterMap timelineNote) := by
  obtain ⟨ev, hx, hline⟩ := line_of_ran h
  have hnote : timelineNote ev = some (.line row) := congrArg some hline
  obtain ⟨op, hop, ⟨l', hl'⟩, hknows⟩ := Service.run_justified line_notes w₀ acts hx hnote
  -- the last command of the thread is the reading
  have hlast : ∃ ev', (ownEvents i ((commands o w₀ acts).take n)).getLast? = some ev' ∧
      TimelineNote.of ev'.cmd ev'.res = .clock row.atTime := by
    have hmap : (ownEvents i ((commands o w₀ acts).take n)).filterMap timelineNote =
        (ownEvents i ((commands o w₀ acts).take n)).map
          fun ev' => TimelineNote.of ev'.cmd ev'.res :=
      congrFun List.filterMap_eq_map _
    have hsome := congrArg List.getLast? (hmap.symm.trans hl')
    rw [List.getLast?_concat, List.getLast?_map, Option.map_eq_some_iff] at hsome
    exact hsome
  obtain ⟨ev', hev', hclock⟩ := hlast
  have hreading : clockReading ev' = some row.atTime ∧ ev'.cmd.awaited = false := by
    obtain ⟨e, k, c, r⟩ := ev'
    simp only at hclock
    unfold TimelineNote.of at hclock
    split at hclock <;> cases hclock
    exact ⟨rfl, rfl⟩
  obtain ⟨m, hm, hxm⟩ := Service.run_adjacent (interleaved o) hx hev' hreading.2
  exact ⟨op, m, ev', hop, hm, hxm, hreading.1, hknows⟩

/-! ## The order of the lines -/

/-- The clock never goes back. -/
def ClockMonotone (tr : List (ℕ × Ev)) : Prop :=
  (tr.filterMap fun x => clockReading x.2).Pairwise (· ≤ ·)

/-- The lines of a record are in the order of their times, and each time has been read. The
induction is on the commands of the run: a new line has the last reading as its time. -/
theorem lines_ordered (hkeeps : NoRollbacks acts)
    (hclock : ClockMonotone (commands o w₀ acts))
    (hnone : ∀ ev ∈ w₀.store.events, ev.requestId ≠ requestId) (n : ℕ) :
    ((tablesAt o w₀ acts n).lines requestId).Pairwise (fun a b => a.atTime ≤ b.atTime) ∧
      ∀ row ∈ (tablesAt o w₀ acts n).lines requestId, ∃ m < n, ∃ i ev,
        (commands o w₀ acts)[m]? = some (i, ev) ∧ clockReading ev = some row.atTime := by
  induction n with
  | zero =>
    have hnil : (tablesAt o w₀ acts 0).lines requestId = [] := by
      simp only [Store.lines, List.filter_eq_nil_iff, decide_eq_true_eq]
      exact hnone
    rw [hnil]
    exact ⟨List.Pairwise.nil, fun row hrow => by cases hrow⟩
  | succ n ih =>
    obtain ⟨hsorted, hread⟩ := ih
    have hearlier : ∀ row ∈ (tablesAt o w₀ acts n).lines requestId, ∃ m < n + 1, ∃ i ev,
        (commands o w₀ acts)[m]? = some (i, ev) ∧ clockReading ev = some row.atTime := by
      intro row hrow
      obtain ⟨m, hm, h⟩ := hread row hrow
      exact ⟨m, hm.trans (Nat.lt_succ_self n), h⟩
    rcases tablesAt_step o w₀ hkeeps n with hkeep | ⟨i, s, hran, hstore⟩
    · rw [hkeep]
      exact ⟨hsorted, hearlier⟩
    · rcases lines_exec (tablesAt o w₀ acts n) s requestId with hsub | ⟨new, rfl, hid, heq⟩
      · rw [hstore]
        exact ⟨hsorted.sublist hsub, fun row hrow => hearlier row (hsub.subset hrow)⟩
      · obtain ⟨op, m, ev, -, rfl, hx, hreading, -⟩ := line_at hran
        rw [hstore, heq]
        constructor
        · rw [List.pairwise_append]
          refine ⟨hsorted, List.pairwise_singleton _ _, ?_⟩
          intro row hrow row' hrow'
          obtain rfl := List.mem_singleton.1 hrow'
          -- the reading of the earlier line is the same one or comes before
          obtain ⟨m', hm', j, ev', hx', hreading'⟩ := hread row hrow
          rcases Nat.lt_succ_iff_lt_or_eq.1 hm' with hlt | rfl
          · exact rel_of_pairwise_filterMap hclock hlt hx' hx hreading' hreading
          · cases hx.symm.trans hx'
            exact (Option.some.inj (hreading'.symm.trans hreading)).le
        · intro row hrow
          rcases List.mem_append.1 hrow with hrow | hrow
          · exact hearlier row hrow
          · obtain rfl := List.mem_singleton.1 hrow
            exact ⟨m, by omega, i, ev, hx, hreading⟩

/-! ## The life of the record -/

/-- A record that has been inserted and is there later is there all the time: no id is drawn twice,
so that nothing brings it up again. -/
theorem find_between (hkeeps : NoRollbacks acts)
    (hdraws : ((commands o w₀ acts).filterMap fun x => drawnId x.2).Nodup)
    {p k : ℕ} {ev : Ev} {new : CallRecord} (hx : (commands o w₀ acts)[p]? = some (i, ev))
    (hnote : familyNote ev = some (.inserted new)) (hpk : p < k) (hkn : k ≤ n)
    (hlast : ((tablesAt o w₀ acts n).calls.find new.requestId).isSome = true) :
    ((tablesAt o w₀ acts k).calls.find new.requestId).isSome = true := by
  by_contra hgone
  have hmissing : (tablesAt o w₀ acts k).calls.find new.requestId = none := by simpa using hgone
  have hlater : ∀ j, k ≤ j → (tablesAt o w₀ acts j).calls.find new.requestId = none := by
    intro j hkj
    induction j, hkj using Nat.le_induction with
    | base => exact hmissing
    | succ j hkj ih =>
      rcases tablesAt_step o w₀ hkeeps j with hkeep | ⟨i', s, hran, hstore⟩
      · rw [hkeep]
        exact ih
      · rw [hstore]
        cases hfind : (s.exec (tablesAt o w₀ acts j)).2.calls.find new.requestId with
        | none => rfl
        | some row =>
          -- the record would have been inserted a second time
          obtain rfl := find_exec_new ih hfind
          have hid : row.requestId = new.requestId := (Table.find_eq_some_iff.1 hfind).2
          have hrun : (interleaved o).run (Config.initial w₀) acts =
              (otpService o Cmd.awaited).run (Config.initial w₀) acts := rfl
          obtain ⟨ev', hx', hnote'⟩ := noted_of_new hrun hran (hid ▸ ih)
          have hsame := insert_unique hrun hdraws hx hx' hnote hnote' hid.symm
          omega
  rw [hlater n hkn] at hlast
  cases hlast

/-! ## Who knows the id -/

/-- An operation that names the record runs after the creation of the record. -/
theorem Secret.named (h : Secret o w₀ acts requestId) {ev : Ev} {op : Op}
    (hx : (commands o w₀ acts)[n]? = some (i, ev))
    (hop : ((interleaved o).run (Config.initial w₀) acts).opOf i = some op)
    (hnames : op.Names requestId) : Created o w₀ acts n requestId := by
  obtain ⟨k, e, hact, hstart, hend⟩ := (interleaved o).exists_turn hx
  obtain ⟨op', c, f, hi⟩ := (interleaved o).turn_thread hact (hstart.trans_lt hend)
  have hop' := (interleaved o).confAt_opOf (Config.opOf_eq_some_iff.2 ⟨_, hi⟩)
  obtain rfl : op' = op := Option.some.inj (hop'.symm.trans hop)
  rcases (interleaved o).run_spawned w₀ (acts.take k) _ (List.mem_of_getElem? hi) with
    ⟨x, harrived, hentry⟩ | ⟨j, op'', answer, hended, hspawned⟩
  · -- its message has arrived before
    obtain rfl : op' = .input x := hentry
    obtain ⟨k', hk'⟩ := List.mem_iff_getElem?.1 harrived
    rw [List.getElem?_take] at hk'
    split at hk'
    · rename_i hlt
      cases x with
      | amiEvent kind message =>
        refine (h.messages k' kind message hk' hnames).mono ?_
        exact ((interleaved o).confAt_length hlt.le).trans hstart
      | _ => exact hnames.elim
    · cases hk'
  · -- its record has been created by the request that has scheduled it
    obtain ⟨task, htask, rfl⟩ := List.mem_map.1 hspawned
    obtain rfl : task.requestId = requestId := hnames
    obtain ⟨row, hrow, hid, hevent⟩ :=
      Service.run_noting_ended line_notes w₀ (acts.take k) hended answer rfl task htask
    obtain ⟨m, ev', hm, hnote⟩ := Service.exists_of_mem_notes hrow
    have hlt : m < ((interleaved o).confAt w₀ acts k).trace.length :=
      (List.getElem?_eq_some_iff.1 hm).1
    have hx' : (commands o w₀ acts)[m]? = some (j, ev') :=
      ((interleaved o).getElem?_confAt hlt).symm.trans hm
    exact ⟨m, hlt.trans_le hstart,
      opens_iff.2 ⟨j, ev', row, hx', Option.some.inj hnote, hid, hevent⟩⟩

/-- A record has a channel only after its creation. -/
theorem Secret.channel (h : Secret o w₀ acts requestId)
    (hkeeps : NoRollbacks acts) {row : CallRecord} {channel : String}
    (hrow : (tablesAt o w₀ acts n).calls.find requestId = some row)
    (hchannel : row.channel = some channel) : Created o w₀ acts n requestId := by
  induction n generalizing row with
  | zero => cases h.row.symm.trans hrow
  | succ n ih =>
    rcases tablesAt_step o w₀ hkeeps n with hkeep | ⟨i, s, hran, hstore⟩
    · rw [hkeep] at hrow
      exact (ih hrow hchannel).mono (Nat.le_succ n)
    · rw [hstore] at hrow
      obtain ⟨ev, hx, hcmd, -⟩ := hran
      obtain ⟨op, hop, hbinds⟩ := (interleaved o).run_uses (uses_bindsNamed o) w₀ acts
        (List.mem_of_getElem? hx)
      replace hbinds := hbinds s hcmd
      cases hbefore : (tablesAt o w₀ acts n).calls.find requestId with
      | none =>
        obtain rfl := find_exec_new hbefore hrow
        cases (show row.channel = none from hbinds).symm.trans hchannel
      | some old =>
        rcases find_exec hbefore hrow with rfl | ⟨now, -, rfl⟩ | ⟨fields, values, rfl, rfl⟩
        · exact (ih hbefore hchannel).mono (Nat.le_succ n)
        · exact (ih hbefore hchannel).mono (Nat.le_succ n)
        · rcases updateRow_channel_cases hchannel with hold | hnew
          · exact (ih hbefore hold).mono (Nat.le_succ n)
          · exact (h.named hx hop (hbinds (List.of_mem_zip hnew).1)).mono (Nat.le_succ n)

/-- A record that a lookup by channel has found has a channel. -/
theorem channel_of_found {ev : Ev} (hx : (commands o w₀ acts)[n]? = some (i, ev))
    (hnote : TimelineNote.of ev.cmd ev.res = .found requestId) : ∃ row channel,
      (tablesAt o w₀ acts n).calls.find requestId = some row ∧ row.channel = some channel := by
  obtain ⟨e, k, c, r⟩ := ev
  simp only at hnote
  unfold TimelineNote.of at hnote
  split at hnote <;> cases hnote
  rename_i channel row
  have hanswer := Service.trace_answers (interleaved o) w₀ acts hx
  replace hanswer : (.ok (some row) : Except Exc (Option CallRecord)) =
      (World.respond e k _ (.execute (.selectByChannel channel))).1 := hanswer
  cases hfault : e.fault k with
  | some text =>
    rw [World.respond_fault hfault] at hanswer
    cases hanswer
  | none =>
    rw [World.respond_execute hfault] at hanswer
    obtain ⟨hfind, hchannel⟩ := mem_of_newestOfChannel (Except.ok.inj hanswer).symm
    exact ⟨row, channel, hfind, hchannel⟩

/-- An operation knows the id only after the creation of the record. -/
theorem Secret.knows (h : Secret o w₀ acts requestId)
    (hkeeps : NoRollbacks acts) {ev : Ev} {op : Op}
    (hx : (commands o w₀ acts)[n]? = some (i, ev))
    (hop : ((interleaved o).run (Config.initial w₀) acts).opOf i = some op)
    (hknows : op.Knows ((ownEvents i ((commands o w₀ acts).take n)).filterMap timelineNote)
      requestId) : Created o w₀ acts n requestId := by
  rcases hknows with hnames | hfound | ⟨reply, message, hreply, hmessage, hnames⟩
  · exact h.named hx hop hnames
  · -- the record has been found by its channel
    obtain ⟨m, ev', hmn, hx', hnote⟩ := Service.exists_lt_of_mem_notes hfound
    obtain ⟨found, channel, hrow, hchannel⟩ := channel_of_found hx' (Option.some.inj hnote)
    exact (h.channel hkeeps hrow hchannel).mono hmn.le
  · obtain ⟨m, ev', hmn, hx', hnote⟩ := Service.exists_lt_of_mem_notes hreply
    exact (h.replies m i ev' reply hx' (Option.some.inj hnote) message hmessage hnames).mono hmn.le

/-- A line about the record is `queued`, or comes after its creation. -/
theorem Secret.line (h : Secret o w₀ acts requestId)
    (hkeeps : NoRollbacks acts) {row : EventRow}
    (hran : Ran (commands o w₀ acts) n i (.insertEvent row)) (hid : row.requestId = requestId) :
    row.event = .queued ∨ Created o w₀ acts n requestId := by
  subst hid
  obtain ⟨ev, hx, -⟩ := line_of_ran hran
  obtain ⟨op, m, ev', hop, -, -, -, hknows | ⟨hqueued, -⟩⟩ := line_at hran
  · exact .inr (h.knows hkeeps hx hop hknows)
  · exact .inl hqueued

/-- The creation of a record has inserted it. The induction is on the position of the line
`queued`: who writes it has stored the record, or knows it from an earlier creation. -/
theorem Secret.inserted (h : Secret o w₀ acts requestId)
    (hkeeps : NoRollbacks acts) (hn : Created o w₀ acts n requestId) :
    ∃ p < n, ∃ i ev new, (commands o w₀ acts)[p]? = some (i, ev) ∧
      familyNote ev = some (.inserted new) ∧ new.requestId = requestId := by
  induction n using Nat.strong_induction_on with
  | _ n ih =>
    obtain ⟨q, hqn, hopens⟩ := hn
    obtain ⟨i, ev, row, hx, hline, rfl, -⟩ := opens_iff.1 hopens
    obtain ⟨op, m, ev', hop, -, -, -, hknows | ⟨-, hstored⟩⟩ := line_at (ran_of_line hx hline)
    · obtain ⟨p, hpq, hinserted⟩ := ih q hqn (h.knows hkeeps hx hop hknows)
      exact ⟨p, hpq.trans hqn, hinserted⟩
    · obtain ⟨p, ev'', hpq, hx', hnote⟩ := Service.exists_lt_of_mem_notes hstored
      obtain ⟨new, hnew, hid⟩ := inserted_of_stored (Option.some.inj hnote)
      exact ⟨p, hpq.trans hqn, i, ev'', new, hx', hnew, hid⟩

/-- Before its creation a record has no line. -/
theorem Secret.lines_nil (h : Secret o w₀ acts requestId)
    (hkeeps : NoRollbacks acts)
    (hnew : ¬ Created o w₀ acts n requestId) : (tablesAt o w₀ acts n).lines requestId = [] := by
  induction n with
  | zero =>
    simp only [Store.lines, List.filter_eq_nil_iff, decide_eq_true_eq]
    exact h.lines
  | succ n ih =>
    have hbefore := ih fun hcreated => hnew (hcreated.mono (Nat.le_succ n))
    rcases tablesAt_step o w₀ hkeeps n with hkeep | ⟨i, s, hran, hstore⟩
    · rw [hkeep]
      exact hbefore
    · rw [hstore]
      rcases lines_exec (tablesAt o w₀ acts n) s requestId with hsub | ⟨row, rfl, hid, -⟩
      · rw [hbefore] at hsub
        exact List.sublist_nil.1 hsub
      · -- the line is the first one, or comes after it
        exfalso
        apply hnew
        rcases h.line hkeeps hran hid with hqueued | hcreated
        · obtain ⟨ev, hx, hline⟩ := line_of_ran hran
          exact ⟨n, Nat.lt_succ_self n, opens_iff.2 ⟨i, ev, row, hx, hline, hid, hqueued⟩⟩
        · exact hcreated.mono (Nat.le_succ n)

/-- A record that is there has been there since its creation. -/
theorem Secret.find_since (h : Secret o w₀ acts requestId)
    (hkeeps : NoRollbacks acts) {k : ℕ}
    (hk : Created o w₀ acts k requestId) (hkn : k ≤ n)
    (hrow : ((tablesAt o w₀ acts n).calls.find requestId).isSome = true) :
    ((tablesAt o w₀ acts k).calls.find requestId).isSome = true := by
  obtain ⟨p, hpk, i, ev, new, hx, hnote, rfl⟩ := h.inserted hkeeps hk
  exact find_between hkeeps h.draws hx hnote hpk hkn hrow

/-- The lines of a record that is live are kept. -/
theorem Secret.lines_prefix (h : Secret o w₀ acts requestId)
    (hkeeps : NoRollbacks acts) {m : ℕ}
    (hm : Created o w₀ acts m requestId) (hmn : m ≤ n)
    (hrow : ((tablesAt o w₀ acts n).calls.find requestId).isSome = true) :
    (tablesAt o w₀ acts m).lines requestId <+: (tablesAt o w₀ acts n).lines requestId := by
  apply lines_kept (S := interleaved o) rfl w₀ hkeeps.held hmn
  intro k hmk hkn
  exact h.find_since hkeeps (hm.mono hmk.le) hkn hrow

/-- The lines of a live record begin with `queued`. -/
theorem Secret.begins_queued (h : Secret o w₀ acts requestId)
    (hkeeps : NoRollbacks acts) (hlive : Live o w₀ acts n requestId) :
    ∃ first rest, (tablesAt o w₀ acts n).lines requestId = first :: rest ∧
      first.event = .queued := by
  classical
  obtain ⟨hrow, hcreated⟩ := hlive
  -- the first command that writes `queued`
  obtain ⟨hqn, hopens⟩ := Nat.find_spec hcreated
  have hleast := fun m => Nat.find_min hcreated (m := m)
  generalize Nat.find hcreated = q at hqn hopens hleast
  have hnew : ¬ Created o w₀ acts q requestId := by
    rintro ⟨m, hmq, hm⟩
    exact hleast m hmq ⟨hmq.trans hqn, hm⟩
  obtain ⟨i, ev, row, hx, hline, hid, hqueued⟩ := opens_iff.1 hopens
  have hstore : tablesAt o w₀ acts (q + 1) = _ :=
    (ran_of_line hx hline).store (S := interleaved o) rfl w₀
  have hone : (tablesAt o w₀ acts (q + 1)).lines requestId = [row] := by
    rw [hstore]
    exact (lines_insertEvent _ hid).trans (congrArg (· ++ [row]) (h.lines_nil hkeeps hnew))
  have hprefix := h.lines_prefix hkeeps ⟨q, Nat.lt_succ_self q, hopens⟩ hqn hrow
  rw [hone] at hprefix
  obtain ⟨rest, hrest⟩ := hprefix
  exact ⟨row, rest, hrest.symm, hqueued⟩

end Runs

/-- Under every interleaving of handlers, requests, background tasks and cleanups in which nothing
rolls back, with a clock that does not go back: of two reads of the timeline of a live record the
earlier one is a first part of the later one, and begins with `queued`. No line of the record is
lost or moved in between, read or not. -/
theorem timeline_grows (o : CallOriginator) (w₀ : World) (acts : List Turn) (requestId : String)
    (hkeeps : NoRollbacks acts)
    (hclock : ClockMonotone (commands o w₀ acts)) (hsecret : Secret o w₀ acts requestId) :
    (∀ m n lines lines', m ≤ n → Live o w₀ acts m requestId → Live o w₀ acts n requestId →
      ReadsLines o w₀ acts m requestId lines → ReadsLines o w₀ acts n requestId lines' →
        lines <+: lines' ∧ ∃ first rest, lines = first :: rest ∧ first.event = .queued) ∧
      ∀ m n, m ≤ n → Live o w₀ acts m requestId → Live o w₀ acts n requestId →
        (tablesAt o w₀ acts m).timeline requestId <+:
          (tablesAt o w₀ acts n).timeline requestId := by
  have hordered : ∀ n, (tablesAt o w₀ acts n).timeline requestId =
      (tablesAt o w₀ acts n).lines requestId := fun n =>
    timeline_eq_lines (lines_ordered hkeeps hclock hsecret.lines n).1
  have hgrows : ∀ m n, m ≤ n → Live o w₀ acts m requestId → Live o w₀ acts n requestId →
      (tablesAt o w₀ acts m).timeline requestId <+: (tablesAt o w₀ acts n).timeline requestId := by
    intro m n hmn hm hn
    rw [hordered m, hordered n]
    exact hsecret.lines_prefix hkeeps hm.2 hmn hn.1
  refine ⟨?_, hgrows⟩
  intro m n lines lines' hmn hm hn hread hread'
  rw [hread.eq_timeline, hread'.eq_timeline]
  refine ⟨hgrows m n hmn hm hn, ?_⟩
  rw [hordered m]
  exact hsecret.begins_queued hkeeps hm

/-- A call whose status is read before and after its task has begun. -/
def readTwiceRun : List Turn :=
  oneCallRun ++ [.arrive (.status firstId.text)] ++
    List.replicate 2 (.turn 2 (.calm 7 firstId [])) ++
    List.replicate 4 (.turn 1 (.calm 8 firstId [])) ++ [.arrive (.status firstId.text)] ++
    List.replicate 2 (.turn 3 (.calm 9 firstId []))

theorem timeline_grows_readTwice : ∃ m n lines lines', m < n ∧
    ReadsLines sampleOriginator sampleWorld readTwiceRun m firstId.text lines ∧
    ReadsLines sampleOriginator sampleWorld readTwiceRun n firstId.text lines' ∧
    lines <+: lines' ∧ lines.map EventRow.event = [.queued] ∧
    lines'.map EventRow.event = [.queued, .originating] := by
  have hsecret : Secret sampleOriginator sampleWorld readTwiceRun firstId.text := by
    refine ⟨rfl, (fun ev hev => by cases hev), by decide +kernel, ?_, ?_⟩
    · -- no message arrives
      intro k kind message hk
      have hmem := List.mem_of_getElem? hk
      simp [readTwiceRun, oneCallRun] at hmem
    · -- no reply comes
      intro n i ev reply hx hnote
      have hno : ∀ x ∈ commands sampleOriginator sampleWorld readTwiceRun,
          x.2.cmd.kind ≠ .reply := by decide +kernel
      have hkind := hno _ (List.mem_of_getElem? hx)
      obtain ⟨e, k, c, r⟩ := ev
      simp only at hnote hkind
      unfold TimelineNote.of at hnote
      split at hnote <;> cases hnote
      exact absurd rfl hkind
  have hread : ReadsLines sampleOriginator sampleWorld readTwiceRun 12 firstId.text
      [⟨firstId.text, .queued, none, 4⟩] := by
    unfold ReadsLines
    decide +kernel
  have hread' : ReadsLines sampleOriginator sampleWorld readTwiceRun 21 firstId.text
      [⟨firstId.text, .queued, none, 4⟩, ⟨firstId.text, .originating, none, 8⟩] := by
    unfold ReadsLines
    decide +kernel
  have hclock : ClockMonotone (commands sampleOriginator sampleWorld readTwiceRun) := by
    unfold ClockMonotone
    decide +kernel
  have hopens : Opens sampleOriginator sampleWorld readTwiceRun 8 firstId.text := by
    unfold Opens
    decide +kernel
  have hgrows := (timeline_grows sampleOriginator sampleWorld readTwiceRun firstId.text
    (by simp [readTwiceRun, oneCallRun]) hclock hsecret).1 12 21 _ _ (by decide)
    ⟨by decide +kernel, 8, by decide, hopens⟩ ⟨by decide +kernel, 8, by decide, hopens⟩ hread hread'
  exact ⟨12, 21, _, _, by decide, hread, hread', hgrows.1, rfl, rfl⟩

end OtpVoice
