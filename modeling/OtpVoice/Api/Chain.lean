import OtpVoice.Api.Children
import OtpVoice.Coroutine.Order

/-!
# Chains of retries

A retry reads the record that it retries and creates a new one with its mobile and with the code of
its body, or with the stored code. `retry_chain`: along a chain of accepted retries of any length,
whatever runs in between, the ids are distinct, and the last record and the task that is scheduled
for it have the mobile of the first record and the last code that has been given.

No statement changes the mobile or the code of a record (`origin_of_found`), and no id is drawn
twice, so that two records found under one id are the same in both (`dialData_unique`).
-/

set_option autoImplicit false

namespace OtpVoice

open Coroutine

/-! ## Links and codes -/

/-- What a retry takes over from a record. -/
def CallRecord.dialData (row : CallRecord) : String × String := (row.mobile, row.code)

theorem CallRecord.assign_dialData (row : CallRecord) (x : Column × SqlValue) :
    (row.assign x).dialData = row.dialData := by
  unfold CallRecord.assign
  split <;> rfl

/-- An accepted retry: its body, the answer and the scheduled tasks. -/
structure RetryLink where
  body : RetryRequest
  response : OTPCallResponse
  tasks : List CallTask

/-- The id of the record that the retry has created. -/
def RetryLink.id (link : RetryLink) : String := link.response.requestId

/-- The last id of a chain. -/
def lastId (first : String) (links : List RetryLink) : String :=
  (links.map RetryLink.id).getLastD first

/-- The last non-empty code of the bodies, or `start` if there is none. -/
def lastCode (start : String) (bodies : List RetryRequest) : String :=
  ((bodies.filterMap RetryRequest.code).filter (· ≠ "")).getLastD start

/-- Accepted retries, each of the record that the one before it has created. -/
inductive RetryChain (s : Conf) (first : String) : List RetryLink → Prop
  | start : RetryChain s first []
  | retry {links : List RetryLink} (link : RetryLink) (i : ℕ) (h : RetryChain s first links)
    (hlink : s.outcome i = some (.input (.retry (lastId first links) link.body),
      .ok (.accepted link.response link.tasks))) : RetryChain s first (links ++ [link])

theorem lastId_concat (first : String) (links : List RetryLink) (link : RetryLink) :
    lastId first (links ++ [link]) = link.id := by
  simp [lastId, List.getLastD_eq_getLast?]

/-- The code that is dialled next: `body.code or record.get("code")`. -/
theorem lastCode_concat (start : String) (bodies : List RetryRequest) (body : RetryRequest)
    {record : CallRecord} (h : record.code = lastCode start bodies) :
    lastCode start (bodies ++ [body]) = body.chosenCode record := by
  simp only [lastCode, List.filterMap_append, List.filter_append] at h ⊢
  rcases hcode : body.code with _ | text
  · simp [RetryRequest.chosenCode, orText, hcode, h]
  · by_cases htext : text = ""
    · simp [RetryRequest.chosenCode, orText, hcode, htext, h]
    · simp [RetryRequest.chosenCode, orText, hcode, htext, List.getLastD_eq_getLast?]

/-! ## What a retry reads and answers -/

/-- A retry reads the record that it retries, and no other. -/
def Cmd.ReadsParent (op : Op) (c : Cmd) : Prop :=
  ∀ key p, c = .execute (.selectCall key) → op.parent = some p → key = p

theorem readsParent_of_touches {α : Type} {op : Op} {ks : List Kind} {p : Prog α}
    (hp : Touches ks p) (hks : ks.elem .read = false) : Coro.Uses (Cmd.ReadsParent op) p := by
  refine Coro.Uses.mono ?_ hp
  rintro c hc key p rfl
  have hmem : Kind.read ∈ ks := hc
  rw [List.elem_iff.2 hmem] at hks
  cases hks

theorem readsParent_getCallRecord {op : Op} {requestId : String}
    (hop : op.parent = some requestId) :
    Coro.Uses (Cmd.ReadsParent op) (getCallRecord requestId) := by
  apply Coro.Uses.perform
  rintro key p ⟨⟩ hp
  exact Option.some.inj (hop.symm.trans hp)

theorem readsParent_retryCall (requestId : String) (body : RetryRequest) :
    Coro.Uses (Cmd.ReadsParent (.input (.retry requestId body))) (retryCall requestId body) := by
  apply (readsParent_getCallRecord rfl).bind
  intro record
  cases record with
  | none => trivial
  | some record =>
    apply (readsParent_of_touches (touches_nothing_raiseUnless _ _) rfl).bind
    intro _
    apply (readsParent_of_touches (touches_nothing_raiseUnless _ _) rfl).bind
    intro _
    apply (readsParent_of_touches (touches_checkLimits _) rfl).bind
    intro _
    apply (readsParent_of_touches (touches_createCallRecord _ _ _ _) rfl).bind
    intro _
    refine Coro.Uses.bind ?_ fun _ => ?_
    · -- `increment_retry` reads the count of the same record
      apply (readsParent_of_touches touches_time rfl).bind
      intro now
      apply (readsParent_of_touches (touches_countRetry now requestId) rfl).bind
      intro _
      apply (readsParent_of_touches touches_commit rfl).bind
      intro _
      apply (readsParent_getCallRecord rfl).bind
      intro record
      cases record <;> trivial
    · exact (readsParent_of_touches (touches_log _ _) rfl).bind fun _ => trivial

theorem Op.readsParent (o : CallOriginator) (op : Op) :
    Coro.Uses (Cmd.ReadsParent op) (op.body o) := by
  by_cases hop : ∃ requestId body, op = .input (.retry requestId body)
  · obtain ⟨requestId, body, rfl⟩ := hop
    exact readsParent_retryCall requestId body
  · -- no other operation has a parent
    refine Coro.Uses.mono ?_ (Coro.uses_true (op.body o))
    intro c _ key p _ hparent
    unfold Op.parent at hparent
    split at hparent
    · rename_i requestId body
      exact absurd ⟨requestId, body, rfl⟩ hop
    · cases hparent

/-- An answer that accepts a call schedules a task for the record that it names. -/
def NamesTask (r : Except Exc Answer) : Prop :=
  ∀ response tasks, r = .ok (.accepted response tasks) →
    ∀ task ∈ tasks, task.requestId = response.requestId

section Noting

variable {o : CallOriginator} {yields : Cmd → Bool} {l : List RequestNote}

theorem noting_anything {α : Type} (p : Prog α) :
    (otpService o yields).Noting requestNote (fun _ => True) (fun _ _ => True) p l :=
  Coro.Sat.of_uses (I := fun _ => True) (fun _ _ _ _ _ _ _ => ⟨trivial, trivial⟩)
    (Coro.uses_true p) trivial

theorem namesTask_bind {α : Type} {p : Prog α} {f : α → Prog Answer}
    (hf : ∀ a l', (otpService o yields).Noting requestNote (fun _ => True)
      (fun r _ => NamesTask r) (f a) l') :
    (otpService o yields).Noting requestNote (fun _ => True) (fun r _ => NamesTask r)
      (p >>= f) l :=
  (noting_anything p).bind (fun a l' _ => hf a l') fun x l' _ _ _ h => by cases h

theorem namesTask_answer {answer : Answer}
    (h : ∀ response tasks, answer = .accepted response tasks →
      ∀ task ∈ tasks, task.requestId = response.requestId) :
    (otpService o yields).Noting requestNote (fun _ => True) (fun r _ => NamesTask r)
      (pure answer) l :=
  fun response tasks hanswer => h response tasks (Except.ok.inj hanswer)

theorem namesTask_retryCall (requestId : String) (body : RetryRequest) :
    (otpService o yields).Noting requestNote (fun _ => True) (fun r _ => NamesTask r)
      (retryCall requestId body) l := by
  apply namesTask_bind
  intro record l₁
  cases record with
  | none => exact fun _ _ h => by cases h
  | some record =>
    refine namesTask_bind fun _ l₂ => namesTask_bind fun _ l₃ => namesTask_bind fun _ l₄ =>
      namesTask_bind fun newId l₅ => namesTask_bind fun _ l₆ => namesTask_bind fun _ l₇ => ?_
    apply namesTask_answer
    rintro response tasks ⟨⟩ task htask
    rw [List.mem_singleton.1 htask]

theorem namesTask_body (op : Op) :
    (otpService o yields).Noting requestNote (fun _ => True)
      (fun r _ => (∃ requestId body, op = .input (.retry requestId body)) → NamesTask r)
      (op.body o) [] := by
  by_cases hop : ∃ requestId body, op = .input (.retry requestId body)
  · obtain ⟨requestId, body, rfl⟩ := hop
    exact (namesTask_retryCall requestId body).mono fun _ _ h _ => h
  · exact (noting_anything _).mono fun _ _ _ h => absurd h hop

end Noting

/-- The parent is read before the new record is created, and nothing is created before it. -/
theorem created_split {parent row : CallRecord} {record : Option CallRecord} {t t' : Time}
    {mobile : String} {pre suf : List RequestNote}
    (h : [.read (some parent), .hourly t, .number mobile t', .created row, .read record] =
      pre ++ .created row :: suf) : .read (some parent) ∈ pre := by
  -- the notes before the created record are not of its kind
  rcases pre with _ | ⟨y, pre⟩
  · cases h
  · rw [List.cons_append, List.cons.injEq] at h
    rw [← h.1]
    exact List.mem_cons_self

/-! ## The records of a run -/

/-- The tables at startup are committed, and the ids that are drawn are new: they differ from each
other and from the ids at startup. -/
structure NewIds (w₀ : World) (tr : List (ℕ × Ev)) : Prop where
  opened : w₀.committed = w₀.store
  nodup : (tr.filterMap fun x => drawnId x.2).Nodup
  unknown : ∀ x ∈ tr, ∀ requestId, drawnId x.2 = some requestId →
    w₀.store.calls.find requestId = none

/-- The answer to a read is what the table holds. -/
theorem find_of_read {w : World} {ev : Ev} {record : Option CallRecord}
    (h : requestNote ev = some (.read record))
    (hanswer : ev.res = (World.respond ev.env ev.index w ev.cmd).1) :
    ∃ key, ev.cmd = .execute (.selectCall key) ∧ w.store.calls.find key = record := by
  obtain ⟨e, n, c, r⟩ := ev
  simp only [requestNote] at h hanswer
  unfold RequestNote.of at h
  split at h <;> cases h
  rename_i key
  refine ⟨key, rfl, ?_⟩
  cases hfault : e.fault n with
  | some text =>
    rw [World.respond_fault hfault] at hanswer
    cases hanswer
  | none =>
    rw [World.respond_execute hfault] at hanswer
    exact (Except.ok.inj hanswer).symm

section Runs

variable {o : CallOriginator} {yields : Cmd → Bool} {w₀ : World} {acts : List Turn} {s : Conf}
  (hs : s = (otpService o yields).run (Config.initial w₀) acts)

/-- The record that is found after the first `n` commands. -/
abbrev foundAt (o : CallOriginator) (yields : Cmd → Bool) (w₀ : World) (s : Conf) (n : ℕ)
    (requestId : String) : Option CallRecord :=
  ((otpService o yields).worldAfter w₀ s.trace n).store.calls.find requestId

include hs

/-- The request that has noted a created record has inserted it. -/
theorem stored_of_created {n i : ℕ} {ev : Ev} {row : CallRecord} (hx : s.trace[n]? = some (i, ev))
    (hnote : requestNote ev = some (.created row)) :
    familyNote ev = some (.inserted row) ∧
      foundAt o yields w₀ s (n + 1) row.requestId = some row := by
  obtain ⟨e, k, c, r⟩ := ev
  simp only [requestNote] at hnote
  unfold RequestNote.of at hnote
  split at hnote <;> cases hnote
  refine ⟨rfl, ?_⟩
  obtain ⟨hran, hok⟩ := ran_of_isOk hs hx rfl rfl
  rw [foundAt, hran.store (S := otpService o yields) rfl w₀]
  generalize (otpService o yields).worldAfter w₀ s.trace n = w at hok
  cases hcalls : w.store.calls.insert row with
  | none =>
    simp only [Stmt.exec, hcalls] at hok
    cases hok
  | some calls =>
    simp only [Stmt.exec, hcalls]
    rw [Table.find_insert hcalls, if_pos rfl]

/-- A record that is found was there at startup or has been inserted, with the same mobile and
code. -/
def Store.Known (w₀ : World) (s : Conf) (n : ℕ) (st : Store) : Prop :=
  ∀ requestId row, st.calls.find requestId = some row →
    (∃ row₀, w₀.store.calls.find requestId = some row₀ ∧ row.dialData = row₀.dialData) ∨
      ∃ m i ev new, m < n ∧ s.trace[m]? = some (i, ev) ∧ familyNote ev = some (.inserted new) ∧
        new.requestId = requestId ∧ row.dialData = new.dialData

/-- In a run from committed tables this holds of all records that are found. The induction is on
the commands of the run, and is about the tables of the last commit, too. -/
theorem origin_of_found (hstart : w₀.committed = w₀.store) {n : ℕ} {requestId : String}
    {row : CallRecord} (hrow : foundAt o yields w₀ s n requestId = some row) :
    (∃ row₀, w₀.store.calls.find requestId = some row₀ ∧ row.dialData = row₀.dialData) ∨
      ∃ m i ev new, m < n ∧ s.trace[m]? = some (i, ev) ∧ familyNote ev = some (.inserted new) ∧
        new.requestId = requestId ∧ row.dialData = new.dialData := by
  have h₀ : w₀.store.Known w₀ s 0 := fun _ row hrow => .inl ⟨row, hrow, rfl⟩
  have hlater : ∀ n (st : Store), st.Known w₀ s n → st.Known w₀ s (n + 1) := by
    intro n st hst requestId row hrow
    rcases hst requestId row hrow with hold | ⟨m, i, ev, new, hm, hnew⟩
    · exact .inl hold
    · exact .inr ⟨m, i, ev, new, hm.trans (Nat.lt_succ_self n), hnew⟩
  refine (store_keeps (S := otpService o yields) rfl w₀ (I := fun n st => st.Known w₀ s n)
    ⟨h₀, hstart ▸ h₀⟩ hlater ?_ n).1 requestId row hrow
  intro n i st hran ih requestId row hrow
  cases hbefore : foundAt o yields w₀ s n requestId with
  | some row₁ =>
    have hdata : row.dialData = row₁.dialData :=
      find_exec_kept CallRecord.assign_dialData (fun _ _ => rfl) hbefore hrow
    rw [hdata]
    exact hlater n _ ih requestId row₁ hbefore
  | none =>
    obtain rfl := find_exec_new hbefore hrow
    have hid : row.requestId = requestId := (Table.find_eq_some_iff.1 hrow).2
    obtain ⟨ev, hx, hnote⟩ := noted_of_new hs hran (hid ▸ hbefore)
    exact .inr ⟨n, i, ev, row, Nat.lt_succ_self n, hx, hnote, hid, rfl⟩

/-- An inserted record has an id that was unknown at startup. -/
theorem NewIds.inserted (h : NewIds w₀ s.trace) {n i : ℕ} {ev : Ev} {row : CallRecord}
    (hx : s.trace[n]? = some (i, ev)) (hnote : familyNote ev = some (.inserted row)) :
    w₀.store.calls.find row.requestId = none := by
  obtain ⟨op, -, hdrawn, -⟩ := follows_at hs hx hnote
  obtain ⟨m, ev', -, hm, hnote'⟩ := Service.exists_lt_of_mem_notes hdrawn
  exact h.unknown _ (List.mem_of_getElem? hm) _ (by simp [drawnId, hnote'])

/-- A record that has been inserted by the run is found only after its insertion, and with the
inserted mobile and code. -/
theorem NewIds.found_after (h : NewIds w₀ s.trace) {m n i : ℕ} {ev : Ev}
    {new row : CallRecord} (hx : s.trace[m]? = some (i, ev))
    (hnote : familyNote ev = some (.inserted new))
    (hrow : foundAt o yields w₀ s n new.requestId = some row) :
    m < n ∧ row.dialData = new.dialData := by
  rcases origin_of_found hs h.opened hrow with
    ⟨row₀, hrow₀, -⟩ | ⟨k, j, ev', new', hkn, hk, hnote', hid, hdata⟩
  · cases (h.inserted hs hx hnote).symm.trans hrow₀
  · obtain rfl := insert_unique hs h.nodup hk hx hnote' hnote hid
    cases hk.symm.trans hx
    cases hnote'.symm.trans hnote
    exact ⟨hkn, hdata⟩

/-- Whenever a record is found under an id, it has the same mobile and code. -/
theorem NewIds.dialData_unique (h : NewIds w₀ s.trace) {m n : ℕ} {requestId : String}
    {row row' : CallRecord} (hrow : foundAt o yields w₀ s m requestId = some row)
    (hrow' : foundAt o yields w₀ s n requestId = some row') : row.dialData = row'.dialData := by
  rcases origin_of_found hs h.opened hrow with
    ⟨row₀, hrow₀, hdata⟩ | ⟨k, i, ev, new, -, hx, hnote, rfl, hdata⟩
  · rcases origin_of_found hs h.opened hrow' with
      ⟨row₁, hrow₁, hdata'⟩ | ⟨k, i, ev, new, -, hx, hnote, rfl, -⟩
    · cases hrow₀.symm.trans hrow₁
      rw [hdata, hdata']
    · cases (h.inserted hs hx hnote).symm.trans hrow₀
  · rw [hdata, (h.found_after hs hx hnote hrow').2]

/-! ## One link -/

/-- An accepted retry has read its parent, and has then inserted a record with the mobile of the
parent and the chosen code. -/
theorem accepted_link {i : ℕ} {p : String} {body : RetryRequest} {response : OTPCallResponse}
    {tasks : List CallTask}
    (hi : s.outcome i = some (.input (.retry p body), .ok (.accepted response tasks))) :
    ∃ m n ev parent row, m < n ∧ foundAt o yields w₀ s m p = some parent ∧
      s.trace[n]? = some (i, ev) ∧ familyNote ev = some (.inserted row) ∧
      foundAt o yields w₀ s (n + 1) row.requestId = some row ∧
      row.requestId = response.requestId ∧ row.mobile = parent.mobile ∧
      row.code = body.chosenCode parent ∧ tasks = [row.task (body.repeatCount.getD 2)] := by
  subst hs
  set s := (otpService o yields).run (Config.initial w₀) acts with hs
  have hop : s.opOf i = some (.input (.retry p body)) :=
    Config.opOf_eq_some_iff.2 ⟨_, Config.outcome_eq_some_iff.1 hi⟩
  obtain ⟨parent, t, t', row, record, hnotes, -, hcode, htasks⟩ :=
    Service.run_noting_ended admission_notes w₀ acts hi
  have hretried : Retried ((ownEvents i s.trace).filterMap requestNote) :=
    Service.run_noting_prefix admission_notes w₀ acts Op.notes_nil hop (List.append_nil _).symm
  have hmobile : row.mobile = parent.mobile := by
    rw [hnotes] at hretried
    cases hretried with
    | checked _ h => cases h
    | counted _ _ _ _ _ h => exact h
  -- the position of the insertion, and that of the read before it
  have hmem : .created row ∈ (ownEvents i s.trace).filterMap requestNote := by
    rw [hnotes]
    simp
  obtain ⟨n, ev, hx, hcreated⟩ := Service.exists_of_mem_notes hmem
  rw [ownEvents_split hx, List.filterMap_append, List.filterMap_cons, hcreated] at hnotes
  obtain ⟨m, ev', hmn, hm, hnote⟩ :=
    Service.exists_lt_of_mem_notes (created_split hnotes.symm)
  obtain ⟨key, hcmd, hfind⟩ := find_of_read hnote (Service.trace_answers _ w₀ acts hm)
  obtain ⟨op, hop', hparent⟩ := (otpService o yields).run_uses (Op.readsParent o) w₀ acts
    (List.mem_of_getElem? hm)
  cases hop.symm.trans hop'
  obtain rfl := hparent key p hcmd rfl
  have hnamed : NamesTask (.ok (.accepted response tasks)) :=
    Service.run_noting_ended namesTask_body w₀ acts hi ⟨key, body, rfl⟩
  obtain ⟨hinserted, hstored⟩ := stored_of_created hs hx hcreated
  refine ⟨m, n, ev, parent, row, hmn, hfind, hx, hinserted, hstored, ?_, hmobile, hcode, htasks⟩
  exact hnamed response tasks rfl (row.task (body.repeatCount.getD 2))
    (by rw [htasks]; exact List.mem_singleton_self _)

/-- A task that has been started dials the mobile and the code of the record that it names. -/
theorem execute_dials {i : ℕ} {task : CallTask} (hi : s.opOf i = some (.execute task)) :
    ∃ n row, foundAt o yields w₀ s n task.requestId = some row ∧ task.mobile = row.mobile ∧
      task.code = row.code := by
  subst hs
  set s := (otpService o yields).run (Config.initial w₀) acts with hs
  obtain ⟨prog, ht⟩ := Config.opOf_eq_some_iff.1 hi
  rcases (otpService o yields).run_spawned w₀ acts _ (List.mem_of_getElem? ht) with
    ⟨x, -, hentry⟩ | ⟨j, op, answer, hended, hspawned⟩
  · cases hentry
  · obtain ⟨task', htask, hop⟩ := List.mem_map.1 hspawned
    cases hop
    have haccepts := Service.run_noting_ended admission_notes w₀ acts hended
    obtain ⟨row, n, hrow, htasks⟩ : ∃ row n,
        .created row ∈ (ownEvents j s.trace).filterMap requestNote ∧
          answer.tasks = [row.task n] := by
      cases answer with
      | accepted response tasks =>
        cases op with
        | execute task => exact haccepts.elim
        | input x =>
          cases x with
          | otpCall request =>
            obtain ⟨t, t', row, hnotes, -, -, rfl⟩ := haccepts
            exact ⟨row, request.repeatCount, by rw [hnotes]; simp, rfl⟩
          | retry requestId body =>
            obtain ⟨parent, t, t', row, record, hnotes, -, -, rfl⟩ := haccepts
            exact ⟨row, body.repeatCount.getD 2, by rw [hnotes]; simp, rfl⟩
          | _ => exact haccepts.elim
      | _ => cases htask
    rw [htasks, List.mem_singleton] at htask
    subst htask
    obtain ⟨k, ev, hx, hcreated⟩ := Service.exists_of_mem_notes hrow
    exact ⟨k + 1, row, (stored_of_created hs hx hcreated).2, rfl, rfl⟩

/-! ## Chains -/

variable {first : String} {links : List RetryLink}

/-- When the last record of a chain is found, all records of the chain have been found. -/
theorem RetryChain.found_before (h : RetryChain s first links) (hfresh : NewIds w₀ s.trace)
    {n : ℕ} {row : CallRecord} (hrow : foundAt o yields w₀ s n (lastId first links) = some row) :
    ∀ requestId ∈ first :: links.map RetryLink.id, ∃ m ≤ n, ∃ row',
      foundAt o yields w₀ s m requestId = some row' := by
  induction h generalizing n row with
  | start =>
    intro requestId hid
    rw [List.mem_singleton.1 hid]
    exact ⟨n, le_rfl, row, hrow⟩
  | @retry links link i _ hlink ih =>
    obtain ⟨m, k, ev, parent, new, hmk, hparent, hx, hnote, -, hid, -⟩ := accepted_link hs hlink
    rw [lastId_concat, ← show new.requestId = link.id from hid] at hrow
    -- the parent was read before the new record was inserted
    have hkn : k < n := (hfresh.found_after hs hx hnote hrow).1
    intro requestId hmem
    rw [List.map_append, ← List.cons_append, List.mem_append] at hmem
    rcases hmem with hmem | hmem
    · obtain ⟨m', hm', row', hrow'⟩ := ih hparent requestId hmem
      exact ⟨m', hm'.trans (hmk.trans hkn).le, row', hrow'⟩
    · obtain rfl : requestId = new.requestId := (List.mem_singleton.1 hmem).trans hid.symm
      exact ⟨n, le_rfl, row, hrow⟩

/-- The ids of a chain are distinct: a record of the chain is found before the next id is drawn. -/
theorem RetryChain.nodup (h : RetryChain s first links) (hfresh : NewIds w₀ s.trace) :
    (first :: links.map RetryLink.id).Nodup := by
  induction h with
  | start => exact List.nodup_singleton _
  | @retry links link i hchain hlink ih =>
    obtain ⟨m, k, ev, parent, new, hmk, hparent, hx, hnote, -, hid, -⟩ := accepted_link hs hlink
    rw [List.map_append, ← List.cons_append]
    refine ih.append (List.nodup_singleton _) ?_
    intro requestId hmem hlast
    obtain rfl : requestId = new.requestId := (List.mem_singleton.1 hlast).trans hid.symm
    obtain ⟨m', hm', row', hrow'⟩ := hchain.found_before hs hfresh hparent _ hmem
    have hkm' : k < m' := (hfresh.found_after hs hx hnote hrow').1
    omega

/-- The last record of a chain has the mobile of the first one and the last code that has been
given. -/
theorem RetryChain.values (h : RetryChain s first links) (hfresh : NewIds w₀ s.trace)
    {k : ℕ} {root : CallRecord} (hroot : foundAt o yields w₀ s k first = some root) {n : ℕ}
    {row : CallRecord} (hrow : foundAt o yields w₀ s n (lastId first links) = some row) :
    row.mobile = root.mobile ∧ row.code = lastCode root.code (links.map RetryLink.body) := by
  induction h generalizing n row with
  | start => exact Prod.mk.inj (hfresh.dialData_unique hs hrow hroot)
  | @retry links link i _ hlink ih =>
    obtain ⟨m, j, ev, parent, new, -, hparent, hx, hnote, -, hid, hmobile, hcode, -⟩ :=
      accepted_link hs hlink
    rw [lastId_concat, ← show new.requestId = link.id from hid] at hrow
    obtain ⟨hmobile', hcode'⟩ := ih hparent
    obtain ⟨hrowmobile, hrowcode⟩ := Prod.mk.inj (hfresh.found_after hs hx hnote hrow).2
    constructor
    · rw [hrowmobile, hmobile, hmobile']
    · rw [hrowcode, hcode, List.map_append, List.map_singleton, lastCode_concat _ _ _ hcode']

/-- A chain with a retry has found its first record, and has stored the last one, which its task
dials. -/
theorem RetryChain.stored (h : RetryChain s first links) (hfresh : NewIds w₀ s.trace)
    {link : RetryLink} (hlast : links.getLast? = some link) :
    (∃ k root, foundAt o yields w₀ s k first = some root) ∧
      ∃ n row, foundAt o yields w₀ s n (lastId first links) = some row ∧
        link.tasks = [row.task (link.body.repeatCount.getD 2)] := by
  cases h with
  | start => cases hlast
  | @retry links link' i hchain hlink =>
    rw [List.getLast?_concat, Option.some.injEq] at hlast
    subst hlast
    obtain ⟨m, k, ev, parent, new, -, hparent, -, -, hstored, hid, -, -, htasks⟩ :=
      accepted_link hs hlink
    obtain ⟨m', -, root, hroot⟩ :=
      hchain.found_before hs hfresh hparent first List.mem_cons_self
    refine ⟨⟨m', root, hroot⟩, k + 1, new, ?_, htasks⟩
    rw [lastId_concat, ← show new.requestId = link'.id from hid]
    exact hstored

end Runs

/-- For every chain of accepted retries in a run in which no id is drawn twice, whatever else
happens in between: the ids are distinct; the record of the last retry is stored with the mobile of
the first record and with the last non-empty code of the bodies, or the code of the first record if
there is none; and the one task that is scheduled for it, when it runs as well, has this mobile and
this code. -/
theorem retry_chain (o : CallOriginator) (yields : Cmd → Bool) (w₀ : World) (acts : List Turn) :
    let s := (otpService o yields).run (Config.initial w₀) acts
    NewIds w₀ s.trace → ∀ first links, RetryChain s first links →
      (first :: links.map RetryLink.id).Nodup ∧
      (links ≠ [] → (∃ k root, foundAt o yields w₀ s k first = some root) ∧
        ∃ n row, foundAt o yields w₀ s n (lastId first links) = some row) ∧
      ∀ k root, foundAt o yields w₀ s k first = some root →
        let code := lastCode root.code (links.map RetryLink.body)
        (∀ n row, foundAt o yields w₀ s n (lastId first links) = some row →
          row.mobile = root.mobile ∧ row.code = code) ∧
        (∀ link, links.getLast? = some link →
          link.tasks = [⟨link.id, root.mobile, code, link.body.repeatCount.getD 2⟩]) ∧
        ∀ i task, s.opOf i = some (.execute task) → task.requestId = lastId first links →
          task.mobile = root.mobile ∧ task.code = code := by
  intro s hfresh first links hchain
  have hs : s = (otpService o yields).run (Config.initial w₀) acts := rfl
  refine ⟨hchain.nodup hs hfresh, fun hne => ?_, fun k root hroot => ⟨?_, ?_, ?_⟩⟩
  · have hlast := List.getLast?_eq_getLast_of_ne_nil hne
    obtain ⟨hfirst, n, row, hrow, -⟩ := hchain.stored hs hfresh hlast
    exact ⟨hfirst, n, row, hrow⟩
  · exact fun n row hrow => hchain.values hs hfresh hroot hrow
  · intro link hlast
    obtain ⟨-, n, row, hrow, htasks⟩ := hchain.stored hs hfresh hlast
    obtain ⟨hmobile, hcode⟩ := hchain.values hs hfresh hroot hrow
    have hid : row.requestId = link.id := by
      rw [(Table.find_eq_some_iff.1 hrow).2]
      simp [lastId, List.getLastD_eq_getLast?, hlast]
    rw [htasks, CallRecord.task, hid, hmobile, hcode]
  · intro i task hi hid
    obtain ⟨n, row, hrow, hmobile, hcode⟩ := execute_dials hs hi
    obtain ⟨hmobile', hcode'⟩ := hchain.values hs hfresh hroot (hid ▸ hrow)
    exact ⟨hmobile.trans hmobile', hcode.trans hcode'⟩

/-- A call that fails because the AMI connection is down, a retry of it with a new code, which
fails, too, and a retry of that without a code. -/
def chainRun : List Turn :=
  [.arrive (.otpCall sampleRequest), .turn 0 (.calm 0 firstId []),
    .turn 1 (.disconnected 1 firstId),
    .arrive (.retry firstId.text ⟨some "5678", none, repeat_absent⟩), .turn 2 (.calm 2 secondId []),
    .turn 3 (.disconnected 3 secondId),
    .arrive (.retry secondId.text plainRetry), .turn 4 (.calm 4 thirdId []),
    .turn 5 (.calm 5 thirdId [success])]

/-- A retry with a new code and a plain retry of it. -/
def chainLinks : List RetryLink :=
  [⟨⟨some "5678", none, repeat_absent⟩, ⟨secondId.text, .queued, 5⟩,
      [⟨secondId.text, "09120000000", "5678", 2⟩]⟩,
    ⟨plainRetry, ⟨thirdId.text, .queued, 5⟩, [⟨thirdId.text, "09120000000", "5678", 2⟩]⟩]

/-- The second retry dials the code of the first one. -/
theorem retry_chain_two :
    let s := (sequential sampleOriginator).run (Config.initial sampleWorld) chainRun
    [firstId.text, secondId.text, thirdId.text].Nodup ∧
      (∃ n row, foundAt sampleOriginator Cmd.waitsForAsterisk sampleWorld s n thirdId.text =
        some row ∧ row.mobile = "09120000000" ∧ row.code = "5678") ∧
      ∀ i task, s.opOf i = some (.execute task) → task.requestId = thirdId.text →
        task.mobile = "09120000000" ∧ task.code = "5678" := by
  intro s
  have hfirst : s.outcome 2 = some (.input (.retry firstId.text ⟨some "5678", none, repeat_absent⟩),
      .ok (.accepted ⟨secondId.text, .queued, 5⟩ [⟨secondId.text, "09120000000", "5678", 2⟩])) := by
    decide +kernel
  have hsecond : s.outcome 4 = some (.input (.retry secondId.text plainRetry),
      .ok (.accepted ⟨thirdId.text, .queued, 5⟩ [⟨thirdId.text, "09120000000", "5678", 2⟩])) := by
    decide +kernel
  have hchain : RetryChain s firstId.text chainLinks := by
    have hlink : RetryChain s firstId.text (chainLinks.take 1) := .retry _ 2 .start hfirst
    exact .retry _ 4 hlink hsecond
  have hfresh : NewIds sampleWorld s.trace := ⟨rfl, by decide +kernel, fun _ _ _ _ => rfl⟩
  have hroot : (foundAt sampleOriginator Cmd.waitsForAsterisk sampleWorld s s.trace.length
      firstId.text).map CallRecord.mobile = some "09120000000" := by decide +kernel
  obtain ⟨root, hfound, hmobile⟩ := Option.map_eq_some_iff.1 hroot
  obtain ⟨hnodup, hstored, hvalues⟩ :=
    retry_chain sampleOriginator Cmd.waitsForAsterisk sampleWorld chainRun hfresh _ _ hchain
  obtain ⟨hrows, -, htasks⟩ := hvalues _ _ hfound
  obtain ⟨-, n, row, hrow⟩ := hstored (by decide)
  rw [hmobile] at hrows htasks
  exact ⟨hnodup, ⟨n, row, hrow, hrows n row hrow⟩, htasks⟩

end OtpVoice
